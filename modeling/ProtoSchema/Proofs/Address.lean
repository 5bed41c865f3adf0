/-!
# Addresses in a tree

A node of a tree is known by its address, the numbers of the branches that lead to it from the top.
A node stands inside another if its address goes on from that of the other. A traversal that
finishes every node after all that is inside it, and the branches of a node from left to right,
finishes the nodes in an order that is read off their addresses.
-/

namespace ProtoSchema.Address

/-- Whether the node at the first address is finished before the one at the second: it stands inside
the other, or it is on an earlier branch where their ways part. -/
def isBefore : List Nat → List Nat → Bool
  | [], _ => false
  | _ :: _, [] => true
  | branch :: rest, other :: more =>
    decide (branch < other) || (decide (branch = other) && isBefore rest more)

variable {first second : List Nat}

/-- The way that two addresses have in common does not matter. -/
theorem isBefore_append_left (front first second : List Nat) :
    isBefore (front ++ first) (front ++ second) = isBefore first second := by
  induction front with
  | nil => rfl
  | cons branch rest ih => simp [isBefore, ih]

/-- No node is finished before itself. -/
theorem isBefore_self (address : List Nat) : isBefore address address = false := by
  have h := isBefore_append_left address [] []
  rwa [List.append_nil] at h

/-- No node is finished before one that stands inside it. -/
theorem isBefore_of_isPrefix (h : first <+: second) : isBefore first second = false := by
  obtain ⟨rest, rfl⟩ := h
  have hback := isBefore_append_left first [] rest
  rw [List.append_nil] at hback
  rw [hback, isBefore]

/-- What stands inside a node is finished before it. -/
theorem isBefore_inside (address : List Nat) (branch : Nat) (rest : List Nat) :
    isBefore (address ++ branch :: rest) address = true := by
  have h := isBefore_append_left address (branch :: rest) []
  rw [List.append_nil] at h
  rw [h, isBefore]

/-- What stands on an earlier branch is finished before what stands on a later one. -/
theorem isBefore_of_lt (address : List Nat) {branch other : Nat} (h : branch < other)
    (rest more : List Nat) :
    isBefore (address ++ branch :: rest) (address ++ other :: more) = true := by
  rw [isBefore_append_left, isBefore]
  simp [h]

/-- Of two nodes, one is finished after the other. -/
theorem isBefore_asymm (h : isBefore first second = true) : isBefore second first = false := by
  induction first generalizing second with
  | nil => cases h
  | cons branch rest ih =>
    cases second with
    | nil => rfl
    | cons other more =>
      simp only [isBefore, Bool.or_eq_true, Bool.and_eq_true, decide_eq_true_eq] at h
      rcases h with hlt | ⟨rfl, hrest⟩
      · have hge : ¬ other < branch := by omega
        have hne : ¬ other = branch := by omega
        simp [isBefore, hge, hne]
      · simp [isBefore, ih hrest]

/-- When a node is finished, so is all that stands inside it. -/
theorem isBefore_of_isPrefix_of_isBefore {inner : List Nat} (hinner : first <+: inner)
    (h : isBefore first second = true) : isBefore inner second = true := by
  obtain ⟨deeper, rfl⟩ := hinner
  induction first generalizing second with
  | nil => cases h
  | cons branch rest ih =>
    cases second with
    | nil => rfl
    | cons other more =>
      simp only [isBefore, Bool.or_eq_true, Bool.and_eq_true, decide_eq_true_eq] at h
      rcases h with hlt | ⟨rfl, hrest⟩
      · simp [isBefore, hlt]
      · simp [isBefore, ih hrest]

/-- In a list in the order of the traversal, what stands in front of an entry is what is finished
before it. -/
theorem filter_isBefore {α : Type} {address : α → List Nat} {list before after : List α} {entry : α}
    (horder : list.Pairwise fun one other => isBefore (address one) (address other) = true)
    (hlist : list = before ++ entry :: after) :
    list.filter (fun other => isBefore (address other) (address entry)) = before := by
  subst hlist
  obtain ⟨-, hentry, hacross⟩ := List.pairwise_append.1 horder
  have hbefore : before.filter (fun other => isBefore (address other) (address entry)) = before := by
    rw [List.filter_eq_self]
    exact fun other hother => hacross other hother entry List.mem_cons_self
  have hafter : after.filter (fun other => isBefore (address other) (address entry)) = [] := by
    rw [List.filter_eq_nil_iff]
    intro other hother
    rw [isBefore_asymm ((List.pairwise_cons.1 hentry).1 other hother)]
    exact Bool.false_ne_true
  rw [List.filter_append, List.filter_cons, isBefore_self, hbefore, hafter]
  exact List.append_nil before

end ProtoSchema.Address
