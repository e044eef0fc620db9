import MirListing.Proofs.Reading.Books
import MirListing.Session.Step

/-!
# Updates that fail

A session that is at work keeps a book of names for all its readings (`LiveSession`).  A step is
carried out bit by bit: it reads parts of a document, looks path texts up and keeps the answers in
the book, and writes into the session, each at its place.  What has been written stays written, also
if the step fails later on (`Update`).

All the same a failing step changes nothing but the book, and what it leaves in the book changes
nothing that comes later (`failing_updates_change_nothing`).  Two things carry this.  The book holds
nothing but what a text stands for anyway (`Names.Faithful`), so a later reading ends as with an
empty one.  And a step looks first and writes last: `Looks` is said of what leaves the session
alone, `Writes` of what never fails, and what looks and then writes comes to a function of the
session that gives no new session where it fails (`ComesTo.looking`, `Writes.comesTo`).

The steps of a session are such functions, so a session at work answers like `Session.run`
(`LiveSession.answers_eq_run`).
-/

namespace MirListing

/-! ## The book -/

/-- A book in which every text stands for what it stands for in an empty one. -/
def Names.Faithful (names : Names) : Prop :=
  ∀ text, names.resolveText text = ItemId.parse text.plain

theorem Names.faithful_none : Names.none.Faithful := fun _ => rfl

namespace Reading

variable {α : Type} {names : Names}

/-- With a faithful book a reading ends as with an empty one, and leaves a faithful book. -/
theorem live_of_faithful (r : Reading α) (h : names.Faithful) :
    ∃ after : Names, after.Faithful ∧ r.live names = (r.result Names.none, after) := by
  obtain ⟨hends, hkeeps⟩ := r.live_eq names
  refine ⟨(r.live names).2, fun text => (hkeeps text).trans (h text), Prod.ext ?_ rfl⟩
  exact hends.trans (r.result_congr fun text => h text)

end Reading

/-! ## Steps bit by bit -/

/-- A session and the book that its readings keep. -/
structure LiveSession where
  /-- The session. -/
  session : Session
  /-- The book. -/
  names : Names := Names.none

/-- How a session ends that is left with a new session and a new book, or with the new book only
where there is a failure. -/
def LiveSession.leave {α : Type} (live : LiveSession) (names : Names) :
    Outcome (α × Session) → Outcome α × LiveSession
  | .ok (a, session) => (.ok a, ⟨session, names⟩)
  | .error failure => (.error failure, { live with names })

/-- A course of readings, look-ups and writes, which may fail on the way. -/
abbrev Update (α : Type) := ExceptT Failure (StateM LiveSession) α

namespace Update

variable {α β : Type}

/-- How an update ends, and what it leaves. -/
def on (u : Update α) (live : LiveSession) : Outcome α × LiveSession := (ExceptT.run u).run live

/-- Goes on with an outcome. -/
def read (o : Outcome α) : Update α := ExceptT.mk (pure o)

/-- Looks at the session. -/
def view (f : Session → α) : Update α := do return f (← get).session

/-- Writes into the session. -/
def write (f : Session → α × Session) : Update α := do
  let live ← get
  let (a, session) := f live.session
  set { live with session }
  return a

/-- Follows a reading, whose look-ups go into the book. -/
def follow (r : Reading α) : Update α := do
  let live ← get
  let (outcome, names) := r.live live.names
  set { live with names }
  read outcome

/-- Looks up what a value in the place of a path text stands for. -/
def lookUp : Value → Update ItemId
  | .spelled text => follow (.lookUp text fun item => .done (.ok item))
  | _ => read (.error .wrongShape)

/-! ### The writes of a step -/

/-- Makes a handle refer to something. -/
def put (id : AllocId) (entry : GlobalAlloc) : Update Unit :=
  write fun s => ((), s.withDirectory (s.context.directory.set id entry))

/-- Makes a handle refer to nothing. -/
def drop (id : AllocId) : Update Unit :=
  write fun s => ((), s.withDirectory (s.context.directory.deallocate id))

/-- Gives out a handle. -/
def reserve : Update AllocId :=
  write fun s => (s.context.directory.reserve.1, s.withDirectory s.context.directory.reserve.2)

/-- Gives out a handle, and then makes it refer to something. -/
def create (entry : GlobalAlloc) : Update AllocId := do
  let id ← reserve
  put id entry
  return id

/-- Puts an item into the table. -/
def tell (item : Item) : Update Unit :=
  write fun s =>
    ((), { s with context := { s.context with items := s.context.items.register item } })

/-- Appends an item to those that are loaded. -/
def append (item : Item) : Update Unit :=
  write fun s => ((), { s with loaded := s.loaded ++ [item] })

/-! ### The steps -/

/-- Sets an allocation from its entry in a document. -/
def setAllocation (entry : Value) : Update Unit := do
  let id : AllocId := ⟨← read (← read (entry.require "allocation" "id")).toInteger⟩
  let (kind, fields) ← read (entry.tagged "allocation")
  match kind with
  | .text "memory" => put id (.memory (← read (Allocation.read entry)))
  | .text "fn" =>
      put id (.function (← read (Value.require "fn allocation" "instance" (.object fields))))
  | .text "static" =>
      let path ← read (Value.require "static allocation" "path" (.object fields))
      put id (.static (← lookUp path))
  | .text "deallocated" => do
      put id (.function (.string ""))
      drop id
  | _ => read (.error (.document (.unknown "allocation kind" (.spelled kind))))

/-- Registers an item that is read from a document, and loads it. -/
def register (reading : Reading Item) : Update Unit := do
  let item ← follow reading
  tell item
  append item

/-- Carries out a step with one write at most. -/
def atOnce (step : Step) : Update Answer := do
  let (answer, after) ← read (← view fun s => s.apply step)
  write fun _ => (answer, after)

/-- Carries out a step.  The item of a registration is read on a given course. -/
def ofStep (reading : Reading Item) : Step → Update Answer
  | .set entry => do
      setAllocation entry
      return .count (← view fun s => s.context.directory.size)
  | .createMemory value => do return .handle (← create (.memory (← read (Allocation.read value))))
  | .createFunction instanceText => do return .handle (← create (.function instanceText))
  | .createStatic item => do return .handle (← create (.static (← read item.id)))
  | .register _ => do
      register reading
      return .count (← view fun s => s.context.items.size)
  | step => atOnce step

/-! ## What looks, and what writes -/

theorem on_bind (u : Update α) (k : α → Update β) (live : LiveSession) :
    (u >>= k).on live =
      match u.on live with
      | (.ok a, next) => (k a).on next
      | (.error failure, next) => (.error failure, next) := by
  show (ExceptT.bindCont k (u.on live).1).run (u.on live).2 = _
  rcases u.on live with ⟨a | failure, next⟩ <;> rfl

/-- The update leaves the session alone, and does to the book nothing that a reading notices. -/
def Looks (u : Update α) (o : Session → Outcome α) : Prop :=
  ∀ live, live.names.Faithful → ∃ names : Names, names.Faithful ∧
    u.on live = (o live.session, { live with names })

/-- The update does not fail, whatever it writes. -/
def Writes (u : Update α) (w : Session → α × Session) : Prop :=
  ∀ live, u.on live = (.ok (w live.session).1, { live with session := (w live.session).2 })

/-- The update does what a function of the session says, and leaves the session alone where it
fails. -/
def ComesTo (u : Update α) (f : Session → Outcome (α × Session)) : Prop :=
  ∀ live, live.names.Faithful → ∃ names : Names, names.Faithful ∧
    u.on live = live.leave names (f live.session)

variable {u : Update α} {k : α → Update β}

theorem Looks.read (o : Outcome α) : (Update.read o).Looks fun _ => o :=
  fun live h => ⟨live.names, h, rfl⟩

theorem Looks.view (f : Session → α) : (Update.view f).Looks fun s => .ok (f s) :=
  fun live h => ⟨live.names, h, rfl⟩

theorem Looks.follow (r : Reading α) : (Update.follow r).Looks fun _ => r.result Names.none := by
  intro live h
  obtain ⟨names, hnames, hlive⟩ := r.live_of_faithful h
  refine ⟨names, hnames, ?_⟩
  show ((r.live live.names).1, { live with names := (r.live live.names).2 }) = _
  rw [hlive]

theorem Looks.lookUp (value : Value) :
    (Update.lookUp value).Looks fun _ => Names.none.resolve value := by
  cases value with
  | spelled text =>
    have h := Looks.follow (.lookUp text fun item => .done (.ok item))
    rwa [show Reading.result _ _ = _ from bind_pure _] at h
  | null | bool | integer | number | array | object => exact .read _

theorem Writes.pure (a : α) : (Pure.pure a : Update α).Writes fun s => (a, s) := fun _ => rfl

theorem Writes.view (f : Session → α) : (Update.view f).Writes fun s => (f s, s) := fun _ => rfl

theorem Writes.write (w : Session → α × Session) : (Update.write w).Writes w := fun _ => rfl

theorem Writes.bind {w : Session → α × Session} {x : α → Session → β × Session} (h : u.Writes w)
    (hk : ∀ a, (k a).Writes (x a)) : (u >>= k).Writes fun s => x (w s).1 (w s).2 := by
  intro live
  rw [on_bind, h live]
  exact hk _ _

/-- Writing is safe where nothing that may fail comes after it. -/
theorem Writes.comesTo {w : Session → α × Session} (h : u.Writes w) :
    u.ComesTo fun s => .ok (w s) :=
  fun live hnames => ⟨live.names, hnames, h live⟩

theorem ComesTo.failing (failure : Failure) :
    (Update.read (.error failure) : Update α).ComesTo fun _ => .error failure :=
  fun live h => ⟨live.names, h, rfl⟩

/-- Looking is safe before anything. -/
theorem ComesTo.looking {o : Session → Outcome α} {f : α → Session → Outcome (β × Session)}
    (h : u.Looks o) (hk : ∀ a, (k a).ComesTo (f a)) :
    (u >>= k).ComesTo fun s => o s >>= fun a => f a s := by
  intro live hnames
  obtain ⟨names, hafter, hon⟩ := h live hnames
  rw [on_bind, hon]
  dsimp only
  cases o live.session with
  | error failure => exact ⟨names, hafter, rfl⟩
  | ok a => exact hk a { live with names } hafter

theorem ComesTo.writing {f : Session → Outcome (α × Session)} {w : α → Session → β × Session}
    (h : u.ComesTo f) (hk : ∀ a, (k a).Writes (w a)) :
    (u >>= k).ComesTo fun s => f s >>= fun (a, s) => .ok (w a s) := by
  intro live hnames
  obtain ⟨names, hafter, hon⟩ := h live hnames
  refine ⟨names, hafter, ?_⟩
  rw [on_bind, hon]
  dsimp only
  cases f live.session with
  | error failure => rfl
  | ok result => exact hk result.1 ⟨result.2, names⟩

theorem ComesTo.congr {f g : Session → Outcome (α × Session)} (h : u.ComesTo f)
    (hfg : ∀ s, f s = g s) : u.ComesTo g :=
  funext hfg ▸ h

/-! ## What the steps come to -/

theorem ComesTo.setAllocation (entry : Value) :
    (Update.setAllocation entry).ComesTo fun s =>
      s.setAllocation entry >>= fun s => .ok ((), s) := by
  simp only [Session.setAllocation, Directory.readEntry, bind_assoc]
  refine .looking (.read _) fun value => .looking (.read _) fun index => .looking (.read _) ?_
  rintro ⟨kind, fields⟩
  dsimp only
  -- Every kind looks for what it needs and then writes, but for an unknown one, which only fails.
  split
  · simp only [bind_assoc, pure_bind]
    exact .looking (.read _) fun a => (Writes.write _).comesTo
  · simp only [bind_assoc, pure_bind]
    exact .looking (.read _) fun text => (Writes.write _).comesTo
  · simp only [bind_assoc, pure_bind]
    exact .looking (.read _) fun path =>
      .looking (.lookUp path) fun item => (Writes.write _).comesTo
  · exact ((Writes.write _).bind fun _ => .write _).comesTo
  · rename_i hmemory hfn hstatic hdeallocated
    refine .congr (.failing _) fun s => ?_
    simp only [bind, Except.bind]

theorem Writes.create (entry : GlobalAlloc) :
    (Update.create entry).Writes fun s =>
      ((s.context.directory.create entry).1,
        s.withDirectory (s.context.directory.create entry).2) :=
  (Writes.write _).bind fun _ => (Writes.write _).bind fun _ => .pure _

/-- What a step does that answers with a new handle. -/
theorem Writes.handle (entry : GlobalAlloc) :
    (do return Answer.handle (← Update.create entry) : Update Answer).Writes fun s =>
      (.handle (s.context.directory.create entry).1,
        s.withDirectory (s.context.directory.create entry).2) :=
  (Writes.create entry).bind fun _ => .pure _

/-- What a step does last that answers with a number of entries. -/
theorem Writes.count (size : Session → Nat) :
    (do return Answer.count (← Update.view size) : Update Answer).Writes fun s =>
      (.count (size s), s) :=
  (Writes.view size).bind fun _ => .pure _

theorem ComesTo.register {reading : Reading Item} {value : Value}
    (h : ∀ names, reading.result names = Item.read names value) :
    (Update.register reading).ComesTo fun s => s.register value >>= fun s => .ok ((), s) := by
  simp only [Session.register, bind_assoc, pure_bind, ← h]
  exact .looking (.follow _) fun item => ((Writes.write _).bind fun _ => .write _).comesTo

theorem ComesTo.atOnce (step : Step) : (Update.atOnce step).ComesTo fun s => s.apply step := by
  refine .congr (.looking (.view _) fun result => .looking (.read _) fun after =>
    (Writes.write _).comesTo) fun s => ?_
  exact bind_pure (s.apply step)

theorem ComesTo.ofStep {reading : Reading Item} : ∀ {step : Step},
    (∀ value, step = .register value → ∀ names, reading.result names = Item.read names value) →
    (Update.ofStep reading step).ComesTo fun s => s.apply step
  | .set entry, _ => by
    refine ((ComesTo.setAllocation entry).writing fun _ => .count _).congr fun s => ?_
    rw [bind_assoc]
    rfl
  | .createMemory value, _ => by
    refine .congr (.looking (.read _) fun memory => (Writes.handle _).comesTo) fun s => ?_
    simp only [Session.apply, Session.createMemory, bind_assoc]
    rfl
  | .createFunction instanceText, _ => (Writes.handle _).comesTo
  | .createStatic item, _ => .looking (.read _) fun item => (Writes.handle _).comesTo
  | .register value, h => by
    refine ((ComesTo.register (h value rfl)).writing fun _ => .count _).congr fun s => ?_
    rw [bind_assoc]
    rfl
  | .summary, _ | .render _ _, _ | .pretty _, _ | .dump _ _ _ _, _ | .scopes _, _
  | .scopeTree _ _ _ _, _ | .allocations, _ | .remap _ _, _ | .span _, _ | .layout _ _, _
  | .reserve, _ | .deallocate _, _ | .get _, _ | .query _, _ | .evaluate _, _ | .blockCount _, _ =>
    .atOnce _

end Update

/-! ## Sessions at work -/

/-- A step, with the course on which the item of a registration is read. -/
structure LiveStep where
  /-- The step. -/
  step : Step
  /-- The course. -/
  reading : Reading Item := .done (.error .wrongShape)
  /-- The course is one of the reader of items. -/
  suits : ∀ value, step = .register value → ∀ names, reading.result names = Item.read names value

/-- A registration that is read on a course. -/
def LiveStep.registration (value : Value) (reading : Reading Item)
    (h : ∀ names, reading.result names = Item.read names value) : LiveStep where
  step := .register value
  reading
  suits := by
    rintro _ ⟨rfl⟩
    exact h

/-- Every step can be carried out bit by bit. -/
theorem LiveStep.exists_of_step (step : Step) : ∃ x : LiveStep, x.step = step := by
  by_cases h : ∃ value, step = .register value
  · obtain ⟨value, rfl⟩ := h
    obtain ⟨reading, hreading⟩ := Item.byLookUps value
    exact ⟨.registration value reading hreading, rfl⟩
  · exact ⟨{ step, suits := fun value hstep => (h ⟨value, hstep⟩).elim }, rfl⟩

namespace LiveSession

/-- A session at work for the first time. -/
def start (s : Session) : LiveSession := { session := s }

/-- Carries out a step: the answer, and the session at work afterwards. -/
def carryOut (live : LiveSession) (x : LiveStep) : Outcome Answer × LiveSession :=
  (Update.ofStep x.reading x.step).on live

/-- The session at work after steps, whether they fail or not. -/
def after (live : LiveSession) (steps : List LiveStep) : LiveSession :=
  steps.foldl (fun live x => (live.carryOut x).2) live

/-- The answers to steps, one after another. -/
def answers (live : LiveSession) : List LiveStep → List (Outcome Answer)
  | [] => []
  | x :: rest => (live.carryOut x).1 :: answers (live.carryOut x).2 rest

variable {live : LiveSession}

/-- A step is answered and leaves the session as it would without a book. -/
theorem carryOut_eq (h : live.names.Faithful) (x : LiveStep) : ∃ names : Names, names.Faithful ∧
    live.carryOut x = (live.session.answer x.step, ⟨live.session.next x.step, names⟩) := by
  obtain ⟨names, hnames, hon⟩ := Update.ComesTo.ofStep x.suits live h
  refine ⟨names, hnames, hon.trans ?_⟩
  unfold Session.answer Session.next
  dsimp only
  cases live.session.apply x.step <;> rfl

/-- Steps leave the session as they would without a book, and the book faithful. -/
theorem after_eq : ∀ (steps : List LiveStep) {live : LiveSession}, live.names.Faithful →
    (live.after steps).names.Faithful ∧
      (live.after steps).session = (steps.map LiveStep.step).foldl Session.next live.session
  | [], _, h => ⟨h, rfl⟩
  | x :: rest, live, h => by
    obtain ⟨names, hnames, hx⟩ := carryOut_eq h x
    rw [after, List.foldl_cons, hx]
    exact after_eq rest hnames

/-- A session at work answers as one without a book. -/
theorem answers_eq_run : ∀ (steps : List LiveStep) {live : LiveSession}, live.names.Faithful →
    live.answers steps = live.session.run (steps.map LiveStep.step)
  | [], _, _ => rfl
  | x :: rest, live, h => by
    obtain ⟨names, hnames, hx⟩ := carryOut_eq h x
    rw [answers, hx, List.map_cons, Session.run]
    dsimp only
    rw [answers_eq_run rest hnames]

end LiveSession

namespace Session

theorem run_append (steps more : List Step) : ∀ s : Session,
    s.run (steps ++ more) = s.run steps ++ (steps.foldl next s).run more := by
  induction steps with
  | nil => exact fun s => rfl
  | cons step rest ih => exact fun s => congrArg (s.answer step :: ·) (ih (s.next step))

theorem length_run (steps : List Step) : ∀ s : Session, (s.run steps).length = steps.length := by
  induction steps with
  | nil => exact fun s => rfl
  | cons step rest ih => exact fun s => congrArg (· + 1) (ih (s.next step))

/-- A failing step changes nothing. -/
theorem next_of_answer {s : Session} {step : Step} {failure : Failure}
    (h : s.answer step = .error failure) : s.next step = s := by
  unfold answer at h
  unfold next
  cases hstep : s.apply step with
  | error _ => rfl
  | ok result =>
    rw [hstep] at h
    cases h

/-- Without a failing step all others are answered the same. -/
theorem run_eraseIdx {s : Session} {steps : List Step} {step : Step} {failure : Failure}
    (h : (steps.foldl next s).answer step = .error failure) (more : List Step) :
    (s.run (steps ++ step :: more)).eraseIdx steps.length = s.run (steps ++ more) := by
  rw [run_append, run_append, run, next_of_answer h, ← length_run steps s,
    List.eraseIdx_append_of_length_le (Nat.le_refl _), Nat.sub_self, List.eraseIdx_cons_zero]

end Session

open LiveSession in
/-- A step that fails leaves the session as it has been, whatever has come before, and the answers
to all other steps are those of a session in which there is no such step. -/
theorem failing_updates_change_nothing (s : Session) (before later : List LiveStep) (x : LiveStep)
    {failure : Failure} (hfails : (((start s).after before).carryOut x).1 = .error failure) :
    (((start s).after before).carryOut x).2.session = ((start s).after before).session ∧
      ((start s).answers (before ++ x :: later)).eraseIdx before.length =
        (start s).answers (before ++ later) ∧
      (start s).answers (before ++ x :: later) =
        s.run ((before ++ x :: later).map LiveStep.step) := by
  have hfaithful : (start s).names.Faithful := Names.faithful_none
  obtain ⟨hnames, hsession⟩ := after_eq before hfaithful
  obtain ⟨names, -, hx⟩ := carryOut_eq hnames x
  rw [hx] at hfails
  have hruns := fun steps => answers_eq_run steps hfaithful
  refine ⟨?_, ?_, hruns _⟩
  · rw [hx]
    exact Session.next_of_answer hfails
  · -- Both sides are runs without a book, in which a failing step leaves nothing behind.
    rw [hruns, hruns, List.map_append, List.map_cons, List.map_append,
      ← List.length_map LiveStep.step]
    rw [hsession] at hfails
    exact Session.run_eraseIdx hfails _

/-- The registration of an item of which nothing but the path is given. -/
def LiveStep.ofPath (path : String) : LiveStep :=
  .registration (.object [(.text "path", .string path)])
    (.lookUp (.text path) fun id => .done do
      id.checkKey
      return { id })
    fun _ => rfl

/-- The registration of an item that refers to another one and whose body cannot be read. -/
def LiveStep.halfRead : LiveStep :=
  .registration
    (.object
      [(.text "path", .string "f"),
        (.text "initializer",
          .object [(.text "kind", .string "unevaluated"), (.text "path", .string "g")]),
        (.text "body", .object [])])
    (.lookUp (.text "f") fun _ => .lookUp (.text "g") fun _ =>
      .done (.error (.document (.absentField "body" "blocks"))))
    fun names => by
      show (names.resolveText (.text "f") >>= _) = (names.resolveText (.text "f") >>= _)
      cases names.resolveText (.text "f") with
      | error _ => rfl
      | ok _ =>
        show (names.resolveText (.text "g") >>= _) =
          (((names.resolveText (.text "g") >>= fun item =>
            .ok (ConstValue.unevaluated item none)) >>= _) >>= _)
        cases names.resolveText (.text "g") <;> rfl

theorem failing_updates_change_nothing_halfRead :
    (((LiveSession.start {}).after [.ofPath "f"]).carryOut .halfRead).1 =
        .error (.document (.absentField "body" "blocks")) ∧
      ((LiveSession.start {}).answers [.ofPath "f", .halfRead, .ofPath "g"]).eraseIdx 1 =
        (LiveSession.start {}).answers [.ofPath "f", .ofPath "g"] := by
  have hfails : (((LiveSession.start {}).after [.ofPath "f"]).carryOut .halfRead).1 =
    .error (.document (.absentField "body" "blocks")) := by with_unfolding_all rfl
  exact ⟨hfails, (failing_updates_change_nothing {} [.ofPath "f"] [.ofPath "g"] _ hfails).2.1⟩

end MirListing
