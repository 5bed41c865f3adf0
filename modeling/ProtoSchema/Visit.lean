/-!
# Walks through a finite family of nodes

A walk that refuses to enter a node it is already inside of can enter at most as many nodes as
there are. The number of nodes that a path has not entered is the measure that shows it: it shrinks
with every node that is entered.
-/

namespace ProtoSchema.Visit

variable {n : Nat}

/-- The number of nodes that are not on the path. -/
def unvisited (path : List (Fin n)) : Nat :=
  (List.finRange n).countP (· ∉ path)

/-- Counting by a stronger condition counts less if some entry meets the weaker one alone. -/
theorem countP_lt_countP {α : Type} {p q : α → Bool} {entries : List α} {x : α}
    (hpq : ∀ y ∈ entries, p y = true → q y = true) (hx : x ∈ entries) (hq : q x = true)
    (hp : p x = false) : entries.countP p < entries.countP q := by
  induction entries with
  | nil => cases hx
  | cons y rest ih =>
    have hrest : rest.countP p ≤ rest.countP q :=
      List.countP_mono_left fun z hz => hpq z (List.mem_cons_of_mem y hz)
    rcases List.mem_cons.1 hx with rfl | hmem
    · simp only [List.countP_cons, hp, hq]
      simp only [Bool.false_eq_true, if_false, if_true]
      omega
    · have hlt := ih (fun z hz => hpq z (List.mem_cons_of_mem y hz)) hmem
      have hy := hpq y List.mem_cons_self
      rw [List.countP_cons, List.countP_cons]
      by_cases hpy : p y = true
      · rw [if_pos hpy, if_pos (hy hpy)]
        exact Nat.add_lt_add_right hlt 1
      · rw [if_neg hpy]
        exact Nat.lt_of_lt_of_le hlt (Nat.le_add_right _ _)

/-- A path that has entered a further node leaves fewer nodes to enter. -/
theorem unvisited_lt {path longer : List (Fin n)} {i : Fin n} (hsub : ∀ j ∈ path, j ∈ longer)
    (hnew : i ∈ longer) (hold : i ∉ path) : unvisited longer < unvisited path := by
  refine countP_lt_countP (x := i) ?_ (List.mem_finRange i) ?_ ?_
  · intro j _ hj
    simp only [decide_eq_true_eq] at hj ⊢
    exact fun hmem => hj (hsub j hmem)
  · simpa using hold
  · simpa using hnew

end ProtoSchema.Visit
