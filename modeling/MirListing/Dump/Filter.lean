import MirListing.Document.Shape

/-!
# Dump filters

A filter selects pairs of a pass and an item.  It is written as groups between bars, each of terms
between ampersands: some group must match, and a group matches if all its terms do.  A term matches
if it is `all`, or part of the name of the pass or of the path of the item.  The empty term is part
of every name.

Names are labels.  A term is part of a string as a text, of an array as an item and of an object as
a name; nothing is part of any other value, and to ask is a failure.  `selects_text` says what
selection comes to when both names are texts.
-/

namespace MirListing

/-- A filter: groups of terms. -/
structure Filter where
  /-- The groups. -/
  groups : List (List (List Char))
deriving DecidableEq, Repr

namespace Filter

/-- Reads a filter. -/
def parse (text : String) : Filter := ⟨(Text.cut '|' text.toList).map (Text.cut '&')⟩

/-- The written form of a filter. -/
def text (f : Filter) : List Char :=
  List.intercalate ['|'] (f.groups.map (List.intercalate ['&']))

/-! ## Terms -/

/-- Whether a term is part of a name. -/
def isPartOf (term : List Char) : Label → Outcome Bool
  | .spelled name => .ok (Text.occursIn term name.plain.toList)
  | .array items => .ok (Value.holdsString (String.ofList term) items)
  | .object fields => .ok (Fields.field? (String.ofList term) fields).isSome
  | _ => .error .wrongShape

/-- Whether a term matches a pass and an item.  The item is looked at only if the pass does not
settle it. -/
def termMatches (pass item : Label) (term : List Char) : Outcome Bool :=
  if term == "all".toList then .ok true
  else do if ← isPartOf term pass then return true else isPartOf term item

/-- Whether a term matches two texts. -/
def matchesTexts (pass item : String) (term : List Char) : Bool :=
  term == "all".toList || Text.occursIn term pass.toList || Text.occursIn term item.toList

theorem termMatches_text (pass item : String) (term : List Char) :
    termMatches (.string pass) (.string item) term = .ok (matchesTexts pass item term) := by
  unfold termMatches matchesTexts
  cases hall : term == "all".toList
  · cases hpass : Text.occursIn term pass.toList <;>
      simp [isPartOf, hpass, bind, Except.bind, pure, Except.pure]
  · simp

/-! ## Selection -/

/-- Whether a filter selects a pass and an item. -/
def selects (f : Filter) (pass item : Label) : Outcome Bool :=
  f.groups.anyM fun group => group.allM (termMatches pass item)

/-- Whether a dump is wanted; without a filter none is. -/
def enabled (filter? : Option Label) (pass item : Label) : Outcome Bool :=
  match filter? with
  | none => .ok false
  | some (.spelled filter) => (parse filter.plain).selects pass item
  | some _ => .error .wrongShape

theorem allM_ok {α : Type} (p : α → Bool) (items : List α) :
    items.allM (fun a => (.ok (p a) : Outcome Bool)) = .ok (items.all p) := by
  induction items with
  | nil => rfl
  | cons a rest ih =>
    cases h : p a <;> simp [List.allM, h, ih, bind, Except.bind, pure, Except.pure]

theorem anyM_ok {α : Type} (p : α → Bool) (items : List α) :
    items.anyM (fun a => (.ok (p a) : Outcome Bool)) = .ok (items.any p) := by
  induction items with
  | nil => rfl
  | cons a rest ih =>
    cases h : p a <;> simp [List.anyM, h, ih, bind, Except.bind, pure, Except.pure]

/-- Of two texts some group must match with all its terms. -/
theorem selects_text (f : Filter) (pass item : String) :
    f.selects (.string pass) (.string item) =
      .ok (f.groups.any fun group => group.all (matchesTexts pass item)) := by
  simp only [selects, funext (termMatches_text pass item), allM_ok, anyM_ok]

example : ((parse "foo&nll|typeck").selects (.string "nll") (.string "a::foo")).toOption =
    some true := by decide +kernel
example : ((parse "foo&nll|typeck").selects (.string "nll") (.string "a::bar")).toOption =
    some false := by decide +kernel
example : ((parse "").selects (.string "x") (.string "y")).toOption = some true := by
  decide +kernel

end Filter

end MirListing
