/-!
# Walks over a finite graph

`visit` walks over a graph from a list of nodes that wait.  The first of them is visited, and those
of its targets that have not been seen are put in front of the others, so that they come next.  A
target named more than once stands where it is named last.

The nodes that have not been seen are given as a list.  Every new node is taken out of it, so nodes
waiting and nodes unseen together become fewer with each visit, whatever cycles the graph has.
-/

namespace MirListing

variable {α : Type} [DecidableEq α]

/-- The targets that have not been seen, each once, and the nodes still unseen after that. -/
def discover (unseen : List α) : List α → List α × List α
  | [] => ([], unseen)
  | target :: targets =>
      let (found, unseen) := discover unseen targets
      if target ∈ unseen then (target :: found, unseen.erase target) else (found, unseen)

/-- Found nodes are taken out of the unseen ones. -/
theorem length_discover (unseen targets : List α) :
    (discover unseen targets).1.length + (discover unseen targets).2.length = unseen.length := by
  induction targets with
  | nil => simp [discover]
  | cons target targets ih =>
    simp only [discover]
    split
    · rename_i hmem
      have := List.length_pos_of_mem hmem
      simp only [List.length_cons, List.length_erase_of_mem hmem]
      omega
    · exact ih

/-- The nodes in the order in which they are visited. -/
def visit (targets : α → List α) (unseen : List α) : List α → List α
  | [] => []
  | node :: waiting =>
      node :: visit targets (discover unseen (targets node)).2
        ((discover unseen (targets node)).1 ++ waiting)
termination_by waiting => unseen.length + waiting.length
decreasing_by
  have := length_discover unseen (targets node)
  simp only [List.length_append, List.length_cons]
  omega

@[simp] theorem visit_nil (targets : α → List α) (unseen : List α) :
    visit targets unseen [] = [] := by
  rw [visit]

theorem visit_cons (targets : α → List α) (unseen waiting : List α) (node : α) :
    visit targets unseen (node :: waiting) =
      node :: visit targets (discover unseen (targets node)).2
        ((discover unseen (targets node)).1 ++ waiting) := by
  rw [visit]

/-- Of a target that is named twice the last place counts. -/
example : visit (fun n => if n = 0 then [1, 2, 1] else []) [1, 2] [0, 9] = [0, 2, 1, 9] := by
  simp [visit_cons, discover]

end MirListing
