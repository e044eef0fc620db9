import MirListing.Proofs.Command.Disks
import MirListing.Proofs.Listing.Render

/-!
# Runs that dump bodies

The command dumps the bodies of the items that it is asked for, one after another.  Each body is
passed over if the filter does not select its item, and otherwise an attempt is made to create its
file, which may fail.  `Attempts` says step by step what attempts there are and what they do to a
disk; it has no step for a dump that fails in another way, so it holds only of runs in which every
attempt either succeeds or cannot create its file.

Such a run is described as a whole by `DumpsBodies`: which bodies are attempted and in what order,
what is printed, what each place on the disk holds afterwards and how the command ends.  A file that
could not be created changes the number with which the command ends and nothing else.  This is
carried along the attempts by two inductions, one for what the command prints and how it ends
(`Attempts.makeDumps_run`), one for the disk (`Attempts.kept`, `Attempts.holds`).

An item that is asked for but does not exist ends the command with a message before any of this.
-/

namespace MirListing

/-! ## What is asked for -/

/-- The command line asks for dumps of a program that can be loaded. -/
structure Arguments.Loads {σ : Type} (arguments : List String) (default : Arguments)
    (disk : Disk (StateM σ)) (state : σ) (a : Arguments) (s : Session) : Prop where
  /-- The command line is understood. -/
  understood : Arguments.parse arguments default = .ok a
  /-- The usage is not asked for. -/
  noHelp : a.help = false
  /-- No listing on one stream is asked for. -/
  noStream : a.pretty = false
  /-- The level of logging can be used. -/
  level : LogLevel.check a.logLevel = .ok ()
  /-- The file of the program can be read, and what it holds is a program. -/
  loaded : ∃ text m, ((disk.read (FilePath.parse (a.program.getD ""))).run state).1 = .ok text ∧
    sourceMapOf a.remaps = .ok m ∧ a.load (FilePath.parse (a.program.getD "")) m text = .ok s

/-- The items that are asked for: those of a path, or all. -/
def Arguments.chosen (a : Arguments) (items : List Item) : List Item :=
  match a.item with
  | none => items
  | some path => items.filter fun item => item.hasPath path

/-- The bodies of the items that are asked for, in order. -/
def Arguments.bodies (a : Arguments) (s : Session) : List (BodySource × Body) :=
  (a.chosen s.loaded).flatMap Item.bodies

/-- What the filter says of an item. -/
def Arguments.filterAnswer (a : Arguments) (item : ItemId) : Outcome Bool :=
  Filter.enabled (some a.filter) a.passName (.string item.pathText)

theorem selectItems_of_chosen {a : Arguments} {items : List Item}
    (h : a.item.isSome → a.chosen items ≠ []) :
    selectItems items a.item = .ok (a.chosen items) := by
  unfold Arguments.chosen at h ⊢
  cases hitem : a.item with
  | none => rfl
  | some path =>
    rw [hitem] at h
    simp only [selectItems]
    split
    · rename_i hnone
      exact absurd hnone (h rfl)
    · rfl

theorem selectItems_of_not_chosen {a : Arguments} {items : List Item} {path : Label}
    (hitem : a.item = some path) (h : a.chosen items = []) :
    selectItems items a.item = .error (.message ("unknown item: " ++ path.shown)) := by
  unfold Arguments.chosen at h
  rw [hitem] at h ⊢
  simp only at h
  rw [selectItems, h]

/-- What is loaded keeps the settings of dumps that the arguments ask for. -/
theorem Arguments.options_of_load {a : Arguments} {path : FilePath} {m : SourceMap} {text : String}
    {s : Session} (h : a.load path m text = .ok s) : s.options = a.dumpOptions := by
  rw [load] at h
  split at h
  · cases h
    rfl
  · cases h
  · cases h

/-! ## Attempts -/

/-- An attempt to dump a body. -/
structure Attempt where
  /-- Where the body comes from. -/
  source : BodySource
  /-- The body. -/
  body : Body
  /-- The file. -/
  path : FilePath
  /-- Why the file could not be created, none if it was. -/
  fault? : Option FileFault

variable {σ P : Type} {disk : Disk (StateM σ)} {contents : σ → P → Option String}
  {place : FilePath → P} {a : Arguments} {ctx : Context} {bodies : List (BodySource × Body)}
  {attempts : List Attempt} {state after : σ}

/-- The attempts that are made for bodies one after another, from one state of the disk to another.
Every one succeeds or fails because its file cannot be created. -/
inductive Attempts (disk : Disk (StateM σ)) (a : Arguments) (ctx : Context) :
    σ → List (BodySource × Body) → List Attempt → σ → Prop
  /-- There are no bodies. -/
  | none {state : σ} : Attempts disk a ctx state [] [] state
  /-- The filter does not select the first body. -/
  | passedOver {source : BodySource} {body : Body} {rest : List (BodySource × Body)}
      {attempts : List Attempt} {state after : σ} :
      a.filterAnswer source.item = .ok false → Attempts disk a ctx state rest attempts after →
      Attempts disk a ctx state ((source, body) :: rest) attempts after
  /-- The first body is dumped. -/
  | made {source : BodySource} {body : Body} {rest : List (BodySource × Body)}
      {attempts : List Attempt} {state next after : σ} {path : FilePath} {text : String} :
      a.filterAnswer source.item = .ok true → dumpPath a.dumpOptions a.pass source = .ok path →
      (bodyListing ctx source body).render = .ok text →
      (disk.create path (dumpHeading a.pass source body ++ text)).run state = (Option.none, next) →
      Attempts disk a ctx next rest attempts after →
      Attempts disk a ctx state ((source, body) :: rest)
        (⟨source, body, path, Option.none⟩ :: attempts) after
  /-- The file of the first body cannot be created. -/
  | failed {source : BodySource} {body : Body} {rest : List (BodySource × Body)}
      {attempts : List Attempt} {state next after : σ} {path : FilePath} {fault : FileFault} :
      a.filterAnswer source.item = .ok true → dumpPath a.dumpOptions a.pass source = .ok path →
      (disk.create path
          (dumpHeading a.pass source body ++ (bodyListing ctx source body).written)).run state =
        (some fault, next) → fault ≠ .nullCharacter →
      Attempts disk a ctx next rest attempts after →
      Attempts disk a ctx state ((source, body) :: rest)
        (⟨source, body, path, some fault⟩ :: attempts) after

/-- Whether the file of an attempt has been created. -/
def Attempt.succeeded (t : Attempt) : Bool := t.fault?.isNone

/-- What is printed about attempts. -/
def printed (attempts : List Attempt) : String :=
  String.join ((attempts.filter Attempt.succeeded).map fun t => writtenLine t.path)

@[simp] theorem printed_nil : printed [] = "" := rfl

@[simp] theorem printed_made (source : BodySource) (body : Body) (path : FilePath)
    (attempts : List Attempt) :
    printed (⟨source, body, path, none⟩ :: attempts) = writtenLine path ++ printed attempts := by
  rw [printed, List.filter_cons_of_pos rfl, List.map_cons, String.join_cons, printed]

@[simp] theorem printed_failed (source : BodySource) (body : Body) (path : FilePath)
    (fault : FileFault) (attempts : List Attempt) :
    printed (⟨source, body, path, some fault⟩ :: attempts) = printed attempts := by
  rw [printed, List.filter_cons_of_neg Bool.false_ne_true, printed]

/-! ## What a run prints and how it ends -/

theorem filterMapM_of_none {α β : Type} {f : α → Outcome (Option β)} {x : α} {rest : List α}
    (h : f x = .ok none) : (x :: rest).filterMapM f = rest.filterMapM f := by
  rw [List.filterMapM_cons, h]
  rfl

theorem filterMapM_of_some {α β : Type} {f : α → Outcome (Option β)} {x : α} {rest : List α} {b : β}
    {results : List β} (h : f x = .ok (some b)) (hrest : rest.filterMapM f = .ok results) :
    (x :: rest).filterMapM f = .ok (b :: results) := by
  rw [List.filterMapM_cons, h]
  simp only [bind, Except.bind, hrest]
  rfl

/-- The dumps of the bodies that the filter selects. -/
def dumpsOf (a : Arguments) (ctx : Context) (bodies : List (BodySource × Body)) :
    Outcome (List Dump) :=
  bodies.filterMapM fun (source, body) => dump? ctx a.dumpOptions a.pass source body

/-- The dump of a body in a file. -/
def bodyDump (a : Arguments) (ctx : Context) (source : BodySource) (body : Body)
    (path : FilePath) : Dump :=
  { path, contents := .text (dumpHeading a.pass source body) ++ bodyListing ctx source body }

theorem dump?_of_passedOver {source : BodySource} {body : Body}
    (h : a.filterAnswer source.item = .ok false) :
    dump? ctx a.dumpOptions a.pass source body = .ok none := by
  have hselects : a.dumpOptions.selects a.pass source.item = .ok false := h
  rw [dump?, hselects]
  rfl

theorem dump?_of_selected {source : BodySource} {body : Body} {path : FilePath}
    (h : a.filterAnswer source.item = .ok true)
    (hpath : dumpPath a.dumpOptions a.pass source = .ok path) :
    dump? ctx a.dumpOptions a.pass source body = .ok (some (bodyDump a ctx source body path)) := by
  have hselects : a.dumpOptions.selects a.pass source.item = .ok true := h
  rw [dump?, hselects, dump, hpath]
  rfl

theorem bodyDump_written (source : BodySource) (body : Body) (path : FilePath) :
    (bodyDump a ctx source body path).contents.written =
      dumpHeading a.pass source body ++ (bodyListing ctx source body).written := by
  rw [bodyDump, Listing.written_append rfl]
  exact congrArg (· ++ _) String.append_empty

theorem makeDumps_of_made {output : String} {faults : Nat} {d : Dump} {rest : List Dump}
    {next : σ} (hcreate : (disk.create d.path d.contents.written).run state = (none, next))
    (hfailure : d.contents.failure? = none) :
    (makeDumps disk output faults (d :: rest)).run state =
      (makeDumps disk (output ++ writtenLine d.path) faults rest).run next := by
  rw [makeDumps, StateT.run_bind, hcreate, hfailure]
  rfl

theorem makeDumps_of_failed {output : String} {faults : Nat} {d : Dump} {rest : List Dump}
    {next : σ} {fault : FileFault}
    (hcreate : (disk.create d.path d.contents.written).run state = (some fault, next))
    (hfault : fault ≠ .nullCharacter) :
    (makeDumps disk output faults (d :: rest)).run state =
      (makeDumps disk output (faults + 1) rest).run next := by
  rw [makeDumps, StateT.run_bind, hcreate]
  cases fault with
  | nullCharacter => exact absurd rfl hfault
  | _ => rfl

/-- Unless making dumps ends in a failure, the first file has been created with all of the listing
in it, or it could not be created. -/
theorem create_of_makeDumps {output : String} {faults : Nat} {d : Dump} {rest : List Dump}
    (hends : ∀ failure,
      ((makeDumps disk output faults (d :: rest)).run state).1.exit ≠ .failed failure) :
    (∃ next, (disk.create d.path d.contents.written).run state = (none, next) ∧
        d.contents.failure? = none) ∨
      ∃ fault next, (disk.create d.path d.contents.written).run state = (some fault, next) ∧
        fault ≠ .nullCharacter := by
  rcases hcreate : (disk.create d.path d.contents.written).run state with ⟨_ | fault, next⟩
  · refine .inl ⟨next, rfl, ?_⟩
    cases hfailure : d.contents.failure? with
    | none => rfl
    | some failure =>
      refine absurd ?_ (hends failure)
      rw [makeDumps, StateT.run_bind, hcreate, hfailure]
      rfl
  · refine .inr ⟨fault, next, rfl, ?_⟩
    rintro rfl
    refine absurd ?_ (hends (.file .nullCharacter))
    rw [makeDumps, StateT.run_bind, hcreate]
    rfl

namespace Attempts

/-- The dumps of the bodies that are selected are made as the attempts say. -/
theorem makeDumps_run (h : Attempts disk a ctx state bodies attempts after) :
    ∃ dumps, dumpsOf a ctx bodies = .ok dumps ∧
      ∀ output faults, (makeDumps disk output faults dumps).run state =
        ({ exit := .code (if faults = 0 ∧ attempts.all Attempt.succeeded then 0 else 1)
           output := output ++ printed attempts }, after) := by
  induction h with
  | none =>
    refine ⟨[], rfl, fun output faults => ?_⟩
    simp only [List.all_nil, and_true, printed_nil, String.append_empty]
    rfl
  | passedOver hanswer _ ih =>
    obtain ⟨dumps, hdumps, hrun⟩ := ih
    refine ⟨dumps, Eq.trans (filterMapM_of_none ?_) hdumps, hrun⟩
    exact dump?_of_passedOver hanswer
  | @made source body _ _ _ _ _ path text hanswer hpath hrender hcreate _ ih =>
    obtain ⟨dumps, hdumps, hrun⟩ := ih
    obtain ⟨hfailure, rfl⟩ := Listing.render_eq_ok.1 hrender
    refine ⟨bodyDump a ctx source body path :: dumps,
      filterMapM_of_some (dump?_of_selected hanswer hpath) hdumps, fun output faults => ?_⟩
    rw [← bodyDump_written source body path] at hcreate
    rw [makeDumps_of_made hcreate (Listing.failure?_append.2 ⟨rfl, hfailure⟩), hrun, printed_made,
      String.append_assoc]
    rfl
  | @failed source body _ _ _ _ _ path fault hanswer hpath hcreate hfault _ ih =>
    obtain ⟨dumps, hdumps, hrun⟩ := ih
    refine ⟨bodyDump a ctx source body path :: dumps,
      filterMapM_of_some (dump?_of_selected hanswer hpath) hdumps, fun output faults => ?_⟩
    rw [← bodyDump_written source body path] at hcreate
    rw [makeDumps_of_failed hcreate hfault, hrun, printed_failed, if_neg, if_neg]
    · exact fun h => Bool.false_ne_true h.2
    · exact fun h => Nat.succ_ne_zero _ h.1

/-! ## What the disk holds afterwards -/

/-- Attempts are made for the bodies of the items that the filter selects. -/
theorem map_source (h : Attempts disk a ctx state bodies attempts after) :
    attempts.map (fun t => (t.source, t.body)) =
      bodies.filter fun b => (a.filterAnswer b.1.item).toOption = some true := by
  induction h with
  | none => rfl
  | passedOver hanswer _ ih =>
    rw [List.filter_cons_of_neg (by rw [hanswer]; decide)]
    exact ih
  | made hanswer _ _ _ _ ih | failed hanswer _ _ _ _ ih =>
    rw [List.filter_cons_of_pos (by rw [hanswer]; decide), List.map_cons, ih]

/-- The file of an attempt has the name of a dump of its body. -/
theorem dumpPath_eq (h : Attempts disk a ctx state bodies attempts after) :
    ∀ t ∈ attempts, dumpPath a.dumpOptions a.pass t.source = .ok t.path := by
  induction h with
  | none => exact fun _ ht => nomatch ht
  | passedOver _ _ ih => exact ih
  | made _ hpath _ _ _ ih | failed _ hpath _ _ _ ih => exact List.forall_mem_cons.2 ⟨hpath, ih⟩

/-- Without an attempt the disk is left as it is. -/
theorem eq_of_nil (h : Attempts disk a ctx state bodies attempts after) (hnil : attempts = []) :
    after = state := by
  induction h with
  | none => rfl
  | passedOver _ _ ih => exact ih hnil
  | made | failed => cases hnil

variable (hlaw : disk.Lawful contents place)
include hlaw

/-- A place that receives no dump keeps what it has. -/
theorem kept (h : Attempts disk a ctx state bodies attempts after) {q : P}
    (hq : ∀ t ∈ attempts, t.succeeded → place t.path ≠ q) :
    contents after q = contents state q := by
  induction h with
  | none => rfl
  | passedOver _ _ ih => exact ih hq
  | made _ _ _ hcreate _ ih =>
    obtain ⟨hfirst, hrest⟩ := List.forall_mem_cons.1 hq
    rw [ih hrest, hlaw.elsewhere hcreate q (hfirst rfl).symm]
  | failed _ _ hcreate _ _ ih =>
    obtain ⟨-, hrest⟩ := List.forall_mem_cons.1 hq
    rw [ih hrest, hlaw.refused hcreate]

/-- A place holds the last dump that it has received. -/
theorem holds (h : Attempts disk a ctx state bodies attempts after) {front back : List Attempt}
    {t : Attempt} (hsplit : attempts = front ++ t :: back) (ht : t.succeeded)
    (hlast : ∀ u ∈ back, u.succeeded → place u.path ≠ place t.path) :
    ∃ text, (bodyListing ctx t.source t.body).render = .ok text ∧
      contents after (place t.path) = some (dumpHeading a.pass t.source t.body ++ text) := by
  induction h generalizing front with
  | none => cases front <;> cases hsplit
  | passedOver _ _ ih => exact ih hsplit
  | made _ _ hrender hcreate hrest ih =>
    cases front with
    | nil =>
      cases hsplit
      exact ⟨_, hrender, (hrest.kept hlaw hlast).trans (hlaw.created hcreate)⟩
    | cons =>
      cases hsplit
      exact ih rfl
  | failed _ _ _ _ _ ih =>
    cases front with
    | nil =>
      cases hsplit
      cases ht
    | cons =>
      cases hsplit
      exact ih rfl

end Attempts

/-- If making dumps does not end in a failure, it has gone by way of attempts. -/
theorem exists_attempts_of_makeDumps {dumps : List Dump} {output : String} {faults : Nat}
    (hdumps : dumpsOf a ctx bodies = .ok dumps)
    (hends : ∀ failure, ((makeDumps disk output faults dumps).run state).1.exit ≠ .failed failure) :
    ∃ attempts after, Attempts disk a ctx state bodies attempts after := by
  induction bodies generalizing dumps state output faults with
  | nil => exact ⟨[], state, .none⟩
  | cons b rest ih =>
    obtain ⟨source, body⟩ := b
    rw [dumpsOf, List.filterMapM_cons] at hdumps
    obtain ⟨first, hfirst, hdumps⟩ := bind_eq_ok_iff.1 hdumps
    obtain ⟨answer, hanswer, hdump⟩ := bind_eq_ok_iff.1 hfirst
    cases answer with
    | false =>
      cases hdump
      obtain ⟨attempts, after, h⟩ := ih hdumps hends
      exact ⟨attempts, after, .passedOver hanswer h⟩
    | true =>
      obtain ⟨d, hd, hfirst⟩ := bind_eq_ok_iff.1 hdump
      obtain ⟨path, hpath, hd⟩ := bind_eq_ok_iff.1 hd
      cases hd
      cases hfirst
      obtain ⟨dumps, hrest, hdumps⟩ := bind_eq_ok_iff.1 hdumps
      cases hdumps
      change ∀ failure, ((makeDumps disk output faults
        (bodyDump a ctx source body path :: dumps)).run state).1.exit ≠ .failed failure at hends
      rcases create_of_makeDumps hends with
        ⟨next, hcreate, hfailure⟩ | ⟨fault, next, hcreate, hfault⟩
      · rw [makeDumps_of_made hcreate hfailure] at hends
        obtain ⟨attempts, after, h⟩ := ih hrest hends
        rw [bodyDump_written] at hcreate
        have hrender := Listing.render_eq_ok.2 ⟨(Listing.failure?_append.1 hfailure).2, rfl⟩
        exact ⟨_, after, .made hanswer hpath hrender hcreate h⟩
      · rw [makeDumps_of_failed hcreate hfault] at hends
        obtain ⟨attempts, after, h⟩ := ih hrest hends
        rw [bodyDump_written] at hcreate
        exact ⟨_, after, .failed hanswer hpath hcreate hfault h⟩

/-! ## Whole runs -/

/-- A run that can load its program goes on with it, on a disk that has not changed. -/
theorem Arguments.Loads.runCommand_run {arguments : List String} {default : Arguments} {s : Session}
    (h : Arguments.Loads arguments default disk state a s) (hlaw : disk.Lawful contents place) :
    (runCommand disk arguments default).run state = (runSession disk a s).run state := by
  obtain ⟨text, m, hread, hmap, hload⟩ := h.loaded
  have hrun : (disk.read (FilePath.parse (a.program.getD ""))).run state = (.ok text, state) :=
    Prod.ext hread (hlaw.read _ _)
  have hgoesOn : runRead disk a (FilePath.parse (a.program.getD "")) (.ok text) =
      runSession disk a s := by
    simp only [runRead, hmap, hload]
  rw [runCommand, h.understood]
  simp only [h.noHelp, Bool.false_eq_true, if_false, h.level]
  rw [StateT.run_bind, hrun, ← hgoesOn]
  rfl

/-- An item that is asked for and does not exist ends the run with a message. -/
theorem Arguments.Loads.runCommand_unknown {arguments : List String} {default : Arguments}
    {s : Session} (h : Arguments.Loads arguments default disk state a s)
    (hlaw : disk.Lawful contents place) {path : Label} (hitem : a.item = some path)
    (hnone : a.chosen s.loaded = []) :
    (runCommand disk arguments default).run state =
      ({ exit := .message ("unknown item: " ++ path.shown) }, state) := by
  rw [h.runCommand_run hlaw, runSession, selectItems_of_not_chosen hitem hnone]
  rfl

/-- Other runs make the dumps of the bodies that the filter selects. -/
theorem Arguments.Loads.runCommand_chosen {arguments : List String} {default : Arguments}
    {s : Session} (h : Arguments.Loads arguments default disk state a s)
    (hlaw : disk.Lawful contents place) (hchosen : a.item.isSome → a.chosen s.loaded ≠ []) :
    (runCommand disk arguments default).run state =
      match dumpsOf a s.context (a.bodies s) with
      | .ok dumps => (makeDumps disk "" 0 dumps).run state
      | .error failure => ({ exit := .failed failure }, state) := by
  obtain ⟨_, _, -, -, hload⟩ := h.loaded
  have hselected : selectedDumps s a.pass (a.chosen s.loaded) =
      dumpsOf a s.context (a.bodies s) := by
    rw [selectedDumps, options_of_load hload]
    rfl
  rw [h.runCommand_run hlaw, runSession, selectItems_of_chosen hchosen]
  simp only [h.noStream, Bool.false_eq_true, if_false, hselected]
  cases dumpsOf a s.context (a.bodies s) with
  | ok => rfl
  | error => rfl

/-- A run that does not end in a failure has gone by way of attempts. -/
theorem exists_attempts_of_runCommand {arguments : List String} {default : Arguments} {s : Session}
    (hlaw : disk.Lawful contents place)
    (hloads : Arguments.Loads arguments default disk state a s)
    (hends : ∀ failure,
      ((runCommand disk arguments default).run state).1.exit ≠ .failed failure) :
    ∃ attempts after, Attempts disk a s.context state (a.bodies s) attempts after := by
  by_cases hchosen : a.chosen s.loaded = []
  · rw [Arguments.bodies, hchosen]
    exact ⟨[], state, .none⟩
  · rw [hloads.runCommand_chosen hlaw fun _ => hchosen] at hends
    split at hends
    · rename_i hdumps
      exact exists_attempts_of_makeDumps hdumps hends
    · exact absurd rfl (hends _)

/-- What a run comes to that dumps bodies by way of attempts. -/
structure DumpsBodies (contents : σ → P → Option String) (place : FilePath → P) (a : Arguments)
    (s : Session) (state : σ) (attempts : List Attempt) (run : Report × σ) : Prop where
  /-- Attempts are made for the bodies of the chosen items that the filter selects, in order. -/
  attempted : attempts.map (fun t => (t.source, t.body)) =
    (a.bodies s).filter fun b => (a.filterAnswer b.1.item).toOption = some true
  /-- The file of each has the name of its dump. -/
  named : ∀ t ∈ attempts, dumpPath a.dumpOptions a.pass t.source = .ok t.path
  /-- There is a line for each dump that has been made, in that order. -/
  output : run.1.output = printed attempts
  /-- The number at the end says whether all have been made. -/
  exit : run.1.exit = .code (if attempts.all Attempt.succeeded then 0 else 1)
  /-- A place that receives no dump keeps what it has. -/
  kept : ∀ q, (∀ t ∈ attempts, t.succeeded → place t.path ≠ q) →
    contents run.2 q = contents state q
  /-- Any other place holds the heading and the listing of the last body that has been dumped
  there. -/
  holds : ∀ front t back, attempts = front ++ t :: back → t.succeeded →
    (∀ u ∈ back, u.succeeded → place u.path ≠ place t.path) →
    ∃ text, (bodyListing s.context t.source t.body).render = .ok text ∧
      contents run.2 (place t.path) = some (dumpHeading a.pass t.source t.body ++ text)
  /-- If no chosen item passes the filter, the disk is left as it is. -/
  untouched : (∀ item ∈ a.chosen s.loaded, a.filterAnswer item.id ≠ .ok true) → run.2 = state

/-- The bodies of an item come from the item. -/
theorem item_of_mem_bodies {item : Item} {b : BodySource × Body} (h : b ∈ item.bodies) :
    b.1.item = item.id := by
  rw [Item.bodies] at h
  split at h
  · cases h
  · rcases List.mem_cons.1 h with rfl | h
    · rfl
    · obtain ⟨n, hn, rfl⟩ := List.mem_mapIdx.1 h
      rfl

/-- A program without items, in a file. -/
def emptyDisk : FileTree :=
  { files := OrderedMap.ofList [(["p.json"], "\x7b\"items\": []\x7d")] }

/-- A command line that asks for an item. -/
def unknownItem : Arguments := { program := some "p.json", item := some (.string "nope") }

theorem loads_unknownItem :
    Arguments.Loads ["p.json", "--item", "nope"] {} FileTree.disk emptyDisk unknownItem
      (Session.ofProgram unknownItem.dumpOptions {} {}) where
  understood := rfl
  noHelp := rfl
  noStream := rfl
  level := rfl
  loaded := by
    have hpath : FilePath.parse "p.json" = ⟨.here, ["p.json"]⟩ := by decide +kernel
    have hread : emptyDisk.read ⟨.here, ["p.json"]⟩ = .ok "\x7b\"items\": []\x7d" := by
      with_unfolding_all rfl
    have hdocument : Document.read "\x7b\"items\": []\x7d" =
        .ok (.object [(.text "items", .array [])]) := by
      simp [Document.read, Document.readValue, Document.readFields, Document.readString,
        Document.readUnits, Document.nestingLimit, Document.skipBlanks, Document.putField,
        Spelling.ofUnits, Spelling.joinPairs, Spelling.isPair, Spelling.ofPoints, Text.isHalf,
        bind, Except.bind, pure, Except.pure]
    refine ⟨"\x7b\"items\": []\x7d", {}, ?_, rfl, ?_⟩
    · exact (congrArg emptyDisk.read hpath).trans hread
    · rw [Arguments.load, hdocument]
      rfl

/-- Two items with bodies, in a file. -/
def twoItemsText : String :=
  "\x7b\"items\": [" ++
    "\x7b\"path\": \"g\", \"body\": " ++
    "\x7b\"blocks\": [], \"locals\": [\x7b\"ty\": \"u8\"\x7d]\x7d\x7d, " ++
    "\x7b\"path\": \"f\", \"body\": " ++
    "\x7b\"blocks\": [], \"locals\": [\x7b\"ty\": \"u8\"\x7d]\x7d\x7d]\x7d"

/-- A directory with that file. -/
def twoItemsDisk : FileTree := { files := OrderedMap.ofList [(["p.json"], twoItemsText)] }

/-- An item with a body of one local. -/
def smallItem (name : String) : Item :=
  { id := { crate := .string "crate", path := [⟨name, 0⟩] }
    body? := some { blocks := [], locals := [{ ty := .named "u8" }] } }

/-- The session with these items. -/
def twoItemsSession : Session :=
  Session.ofProgram { filter := some (.string "all") } {}
    { items := [smallItem "g", smallItem "f"] }

/-- The file of the dump of an item. -/
def smallPath (name : String) : FilePath :=
  { names := ["mir_dump", "rustc." ++ name ++ ".-------.loaded.0.mir"] }

/-- The disk on which the file of the first item cannot be created. -/
def refusingDisk : Disk (StateM FileTree) :=
  FileTree.disk.refusing fun path => if path = smallPath "g" then some .isDirectory else none

theorem loads_twoItems :
    Arguments.Loads ["p.json"] {} refusingDisk twoItemsDisk { program := some "p.json" }
      twoItemsSession where
  understood := rfl
  noHelp := rfl
  noStream := rfl
  level := rfl
  loaded := by
    have hpath : FilePath.parse "p.json" = ⟨.here, ["p.json"]⟩ := by decide +kernel
    have hread : twoItemsDisk.read ⟨.here, ["p.json"]⟩ = .ok twoItemsText := by
      with_unfolding_all rfl
    have hdocument : Document.read twoItemsText =
        .ok (.object [(.text "items", .array [
          .object [(.text "path", .string "g"), (.text "body", .object [
            (.text "blocks", .array []),
            (.text "locals", .array [.object [(.text "ty", .string "u8")]])])],
          .object [(.text "path", .string "f"), (.text "body", .object [
            (.text "blocks", .array []),
            (.text "locals", .array [.object [(.text "ty", .string "u8")]])])]])]) := by
      simp [twoItemsText, Document.read, Document.readValue, Document.readItems,
        Document.readFields, Document.readString, Document.readUnits, Document.nestingLimit,
        Document.skipBlanks, Document.putField, Spelling.ofUnits, Spelling.joinPairs,
        Spelling.isPair, Spelling.ofPoints, Text.isHalf, bind, Except.bind, pure, Except.pure]
    refine ⟨twoItemsText, {}, ?_, rfl, ?_⟩
    · exact (congrArg twoItemsDisk.read hpath).trans hread
    · rw [Arguments.load, hdocument]
      with_unfolding_all rfl

theorem refusingDisk_create_g (text : String) :
    (refusingDisk.create (smallPath "g") text).run twoItemsDisk =
      (some .isDirectory, twoItemsDisk) := rfl

theorem refusingDisk_create_f (text : String) :
    (refusingDisk.create (smallPath "f") text).run twoItemsDisk =
      (none, (twoItemsDisk.create (smallPath "f") text).1) := by
  have hrefused : (if smallPath "f" = smallPath "g" then some FileFault.isDirectory else none) =
      none := if_neg (by decide)
  simp only [refusingDisk, Disk.refusing, hrefused]
  rw [FileTree.disk_create_run, Prod.mk.injEq]
  exact ⟨by with_unfolding_all rfl, rfl⟩

/-- The first file cannot be created and the second is. -/
theorem attempts_twoItems : ∃ attempts after,
    Attempts refusingDisk { program := some "p.json" } twoItemsSession.context twoItemsDisk
        (Arguments.bodies { program := some "p.json" } twoItemsSession) attempts after ∧
      attempts.map Attempt.succeeded = [false, true] := by
  refine ⟨_, _, .failed ?_ ?_ (refusingDisk_create_g _) nofun
    (.made ?_ ?_ (Listing.render_eq_ok.2 ⟨?_, rfl⟩) (refusingDisk_create_f _) .none), rfl⟩
  · with_unfolding_all rfl
  · with_unfolding_all rfl
  · with_unfolding_all rfl
  · with_unfolding_all rfl
  · with_unfolding_all rfl

end MirListing
