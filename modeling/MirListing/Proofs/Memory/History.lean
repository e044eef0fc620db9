import MirListing.Memory.Directory

/-!
# Histories of a directory

A directory keeps what its handles refer to now.  Its history also tells of the handles that were
given out, and of those whose meaning has been replaced or taken away.  An `Event` of it is an
operation that was carried out, together with the handle that the operation concerned.

*Invariant.*  A directory `Records` a history if its next number is beyond all handles used in the
history, and if a handle refers to something exactly if the last event that changed what it means
was one that put it (`LastPut`).  The empty directory records the empty history, and each operation
keeps the invariant for the history with one more event (`Records.apply`), so any number of them
does (`Records.after`).

The invariant is about the history and not about the entries, because a handle that has been used
need not have an entry any more.  It follows that a handle that is given out is a new one
(`Records.reserve`).  Taking away the meaning of a handle that never had one does not use the
handle.
-/

namespace MirListing.Directory

/-! ## Operations and events -/

/-- An operation on a directory. -/
inductive Operation
  /-- Gives out a handle. -/
  | reserve
  /-- Gives out a handle that refers to something. -/
  | create (entry : GlobalAlloc)
  /-- Makes a handle refer to something. -/
  | set (id : AllocId) (entry : GlobalAlloc)
  /-- Makes a handle refer to nothing. -/
  | deallocate (id : AllocId)
  /-- Asks what a handle refers to. -/
  | get (id : AllocId)

/-- The directory after an operation. -/
def apply (d : Directory) : Operation → Directory
  | .reserve => d.reserve.2
  | .create entry => (d.create entry).2
  | .set id entry => d.set id entry
  | .deallocate id => d.deallocate id
  | .get _ => d

/-- The directory after operations. -/
def after (d : Directory) (ops : List Operation) : Directory := ops.foldl apply d

namespace Operation

/-- The handle that an operation concerns: the one that it gives out or the one that it is given. -/
def handle (d : Directory) : Operation → AllocId
  | .reserve => d.reserve.1
  | .create entry => (d.create entry).1
  | .set id _ => id
  | .deallocate id => id
  | .get id => id

/-- Whether an operation makes its handle used. -/
def uses : Operation → Bool
  | .reserve => true
  | .create _ => true
  | .set _ _ => true
  | .deallocate _ => false
  | .get _ => false

/-- What an operation makes its handle mean, if it changes that: an entry or nothing. -/
def meaning? : Operation → Option (Option GlobalAlloc)
  | .reserve => none
  | .create entry => some (some entry)
  | .set _ entry => some (some entry)
  | .deallocate _ => some none
  | .get _ => none

end Operation

/-- An operation that has been carried out. -/
structure Event where
  /-- The handle that it concerned. -/
  handle : AllocId
  /-- The operation. -/
  operation : Operation

/-- The events that operations are, one after another. -/
def history (d : Directory) : List Operation → List Event
  | [] => []
  | op :: rest => ⟨op.handle d, op⟩ :: (d.apply op).history rest

/-- The last event of a history that changed what a handle means made it refer to an entry. -/
def LastPut (events : List Event) (id : AllocId) (entry : GlobalAlloc) : Prop :=
  ∃ before event later, events = before ++ event :: later ∧
    event.handle = id ∧ event.operation.meaning? = some (some entry) ∧
    ∀ e ∈ later, e.handle = id → e.operation.meaning? = none

variable {d : Directory} {events : List Event}

@[simp] theorem after_nil : d.after [] = d := rfl

@[simp] theorem after_cons (op : Operation) (rest : List Operation) :
    d.after (op :: rest) = (d.apply op).after rest := rfl

theorem after_append (ops later : List Operation) :
    d.after (ops ++ later) = (d.after ops).after later := List.foldl_append

theorem history_append (ops later : List Operation) :
    d.history (ops ++ later) = d.history ops ++ (d.after ops).history later := by
  induction ops generalizing d with
  | nil => rfl
  | cons op rest ih => simp [history, ih]

/-! ## One operation -/

/-- An operation changes what its own handle means, if anything. -/
theorem get?_apply (d : Directory) (op : Operation) (id : AllocId) :
    (d.apply op).get? id =
      if op.handle d = id then op.meaning?.getD (d.get? id) else d.get? id := by
  cases op with
  | reserve => exact (ite_self _).symm
  | create entry => exact get?_set d.reserve.2 d.reserve.1 id entry
  | set other entry => exact get?_set d other id entry
  | deallocate other => exact get?_deallocate d other id
  | get other => exact (ite_self _).symm

/-- The next number never becomes smaller. -/
theorem next_le_apply (d : Directory) (op : Operation) : d.next ≤ (d.apply op).next := by
  cases op <;> simp only [apply, reserve, create, set, deallocate] <;> omega

/-- A handle that an operation uses is below the next number from then on. -/
theorem handle_lt_next_apply (d : Directory) {op : Operation} (h : op.uses = true) :
    (op.handle d).index < (d.apply op).next := by
  cases op with
  | reserve => exact Int.lt_succ d.next
  | create entry => exact lt_next_set d.reserve.2 d.reserve.1 entry
  | set id entry => exact lt_next_set d id entry
  | deallocate id => cases h
  | get id => cases h

theorem Operation.uses_of_put {op : Operation} {entry : GlobalAlloc}
    (h : op.meaning? = some (some entry)) : op.uses = true := by
  cases op with
  | create | set => rfl
  | reserve | deallocate | get => cases h

/-! ## What one more event changes -/

/-- A handle was put last in a history with one more event if it was put by this event, or if it was
put last before and this event changes nothing about it. -/
theorem lastPut_concat {event : Event} {id : AllocId} {entry : GlobalAlloc} :
    LastPut (events ++ [event]) id entry ↔
      (event.handle = id ∧ event.operation.meaning? = some (some entry)) ∨
        LastPut events id entry ∧ (event.handle = id → event.operation.meaning? = none) := by
  constructor
  · rintro ⟨before, put, later, hsplit, hid, hput, hlater⟩
    rcases List.eq_nil_or_concat later with rfl | ⟨later, last, rfl⟩
    · obtain ⟨-, hevent⟩ := List.append_inj' hsplit rfl
      cases hevent
      exact .inl ⟨hid, hput⟩
    · rw [List.concat_eq_append, ← List.cons_append, ← List.append_assoc] at hsplit
      obtain ⟨rfl, hevent⟩ := List.append_inj' hsplit rfl
      cases hevent
      exact .inr ⟨⟨before, put, later, rfl, hid, hput, fun e he => hlater e (by simp [he])⟩,
        hlater event (by simp)⟩
  · rintro (⟨hid, hput⟩ | ⟨⟨before, put, later, rfl, hid, hput, hlater⟩, hkeeps⟩)
    · exact ⟨events, event, [], rfl, hid, hput, by simp⟩
    · refine ⟨before, put, later ++ [event], by simp, hid, hput, fun e he => ?_⟩
      obtain he | rfl := List.mem_append.1 he |>.imp_right List.mem_singleton.1
      · exact hlater e he
      · exact hkeeps

/-! ## The invariant -/

/-- A directory is as its history tells. -/
structure Records (d : Directory) (events : List Event) : Prop where
  lt_next : ∀ event ∈ events, event.operation.uses = true → event.handle.index < d.next
  get?_iff : ∀ id entry, d.get? id = some entry ↔ LastPut events id entry

theorem records_empty : Records {} [] where
  lt_next := by simp
  get?_iff id entry := by simp [LastPut, get?]

namespace Records

theorem apply (h : Records d events) (op : Operation) :
    Records (d.apply op) (events ++ [⟨op.handle d, op⟩]) where
  lt_next event hevent huses := by
    obtain hold | rfl := List.mem_append.1 hevent |>.imp_right List.mem_singleton.1
    · exact Int.lt_of_lt_of_le (h.lt_next event hold huses) (next_le_apply d op)
    · exact handle_lt_next_apply d huses
  get?_iff id entry := by
    rw [get?_apply, lastPut_concat, ← h.get?_iff]
    by_cases hid : op.handle d = id
    · cases op.meaning? <;> simp [hid]
    · simp [hid]

theorem after (h : Records d events) (ops : List Operation) :
    Records (d.after ops) (events ++ d.history ops) := by
  induction ops generalizing d events with
  | nil => simpa [history] using h
  | cons op rest ih => simpa [history] using ih (h.apply op)

/-- A handle that is given out is beyond all used ones, and it refers to nothing until then. -/
theorem reserve (h : Records d events) :
    (∀ event ∈ events, event.operation.uses = true → event.handle.index < d.reserve.1.index) ∧
      d.get? d.reserve.1 = none := by
  refine ⟨h.lt_next, ?_⟩
  cases hentry : d.get? d.reserve.1 with
  | none => rfl
  | some entry =>
    -- what refers to something has been put, and a put handle is a used one
    obtain ⟨before, event, later, rfl, hid, hput, -⟩ := (h.get?_iff _ _).1 hentry
    have hlt := h.lt_next event (by simp) (Operation.uses_of_put hput)
    rw [hid] at hlt
    exact absurd hlt (Int.lt_irrefl _)

end Records

end MirListing.Directory
