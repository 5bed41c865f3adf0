import Mathlib.Logic.Relation
import ProtoSchema.Visit

/-!
# Walks that come to an end

From a node at which every walk comes to an end, no node can be reached that can be reached from
itself. A walk that enters no node twice has entered at most as many nodes as there are.
-/

namespace ProtoSchema.Visit

/-- Where every walk comes to an end, no cycle can be reached. -/
theorem not_transGen_of_acc {α : Type} {leads : α → α → Prop} {start node : α}
    (h : Acc (fun next before => leads before next) start)
    (hreach : Relation.ReflTransGen leads start node) : ¬ Relation.TransGen leads node node := by
  induction h generalizing node with
  | intro start hnext ih =>
    rcases Relation.ReflTransGen.cases_head hreach with rfl | ⟨next, hfirst, hrest⟩
    · intro hcycle
      obtain ⟨next, hfirst, hrest⟩ := Relation.TransGen.head'_iff.1 hcycle
      exact ih next hfirst .refl (.tail' hrest hfirst)
    · exact ih next hfirst hrest

/-- At most all nodes are left to enter. -/
theorem unvisited_le {n : Nat} (path : List (Fin n)) : unvisited path ≤ n := by
  have hle := List.countP_le_length (p := fun i => decide (i ∉ path)) (l := List.finRange n)
  rw [List.length_finRange] at hle
  exact hle

end ProtoSchema.Visit
