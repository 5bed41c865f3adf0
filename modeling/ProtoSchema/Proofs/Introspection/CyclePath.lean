import ProtoSchema.Proofs.Introspection.Cycles

/-!
# The path of a cycle of models

The error of a cyclic family names the models from the one where the search began. It is the path of
a lasso: a lead, which may be empty, and then a cycle once around. The models of the lead are not on
the cycle that is found, so that the names are those of a cycle exactly if there is no lead, that is,
if the search began on the cycle. A lead means that a cycle can be reached that avoids the model where
the search began.
-/

namespace ProtoSchema

open Introspection (Mentions modelWithin)

variable {k : Nat}

/-- A walk along references: a lead from a model to a cycle, and the cycle once around. -/
structure IsLasso (family : Family k) (start : Fin k) (lead cycle : List (Fin k)) : Prop where
  /-- The walk begins with the model. -/
  starts : (lead ++ cycle).head? = some start
  /-- Each model refers to the next. -/
  chain : (lead ++ cycle).IsChain (Mentions family)
  /-- The cycle ends where it begins, after a step or more. -/
  closed : ∃ again rest, cycle = again :: rest ++ [again]
  /-- No model is met twice before the cycle is closed. -/
  nodup : (lead ++ cycle.dropLast).Nodup

namespace IsLasso

variable {family : Family k} {start : Fin k} {lead cycle : List (Fin k)}

/-- A walk that comes back to one of its models is a lasso. -/
theorem of_walk {walk : List (Fin k)} {again : Fin k}
    (hstart : (walk ++ [again]).head? = some start)
    (hchain : (walk ++ [again]).IsChain (Mentions family)) (hnodup : walk.Nodup)
    (hagain : again ∈ walk) :
    ∃ lead cycle, IsLasso family start lead cycle ∧ lead ++ cycle = walk ++ [again] := by
  obtain ⟨lead, rest, rfl⟩ := List.append_of_mem hagain
  have hwalk : lead ++ (again :: rest ++ [again]) = lead ++ again :: rest ++ [again] :=
    (List.append_assoc _ _ _).symm
  refine ⟨lead, again :: rest ++ [again], ?_, hwalk⟩
  exact
    { starts := hwalk ▸ hstart
      chain := hwalk ▸ hchain
      closed := ⟨again, rest, rfl⟩
      nodup := by rwa [List.dropLast_concat] }

/-- No model of the lead is on the cycle. -/
theorem not_mem_cycle (h : IsLasso family start lead cycle) {i : Fin k} (hi : i ∈ lead) :
    i ∉ cycle := by
  obtain ⟨again, rest, rfl⟩ := h.closed
  have hnodup := h.nodup
  rw [List.dropLast_concat] at hnodup
  have hapart := (List.nodup_append.1 hnodup).2.2
  intro hcycle
  rcases List.mem_append.1 hcycle with hinner | hlast
  · exact hapart i hi i hinner rfl
  · exact hapart i hi again List.mem_cons_self (List.mem_singleton.1 hlast)

/-- A walk with a lead begins in the lead. -/
theorem start_mem_lead (h : IsLasso family start lead cycle) (hlead : lead ≠ []) :
    start ∈ lead := by
  have hstarts := h.starts
  cases lead with
  | nil => exact absurd rfl hlead
  | cons first more =>
    cases hstarts
    exact List.mem_cons_self

/-- The model where the walk begins is on the cycle exactly if there is no lead. -/
theorem start_mem_iff (h : IsLasso family start lead cycle) : start ∈ cycle ↔ lead = [] := by
  constructor
  · intro hmem
    by_contra hlead
    exact h.not_mem_cycle (h.start_mem_lead hlead) hmem
  · rintro rfl
    exact List.mem_of_mem_head? h.starts

/-- The walk begins and ends with the same model exactly if there is no lead. -/
theorem getLast_eq_start_iff (h : IsLasso family start lead cycle) :
    (lead ++ cycle).getLast? = some start ↔ lead = [] := by
  rw [← h.start_mem_iff]
  obtain ⟨again, rest, hcycle⟩ := h.closed
  have hlast : (lead ++ cycle).getLast? = some again := by
    rw [hcycle, ← List.append_assoc, List.getLast?_concat]
  rw [hlast]
  constructor
  · intro heq
    cases heq
    rw [hcycle]
    exact List.mem_cons_self
  · intro hmem
    have hstarts := h.starts
    rw [h.start_mem_iff.1 hmem, hcycle] at hstarts
    exact hstarts

/-- The names along the walk begin and end alike exactly if there is no lead, where models of one
name are the same. -/
theorem head_eq_getLast_iff (h : IsLasso family start lead cycle)
    (hnames : Function.Injective fun i => (family i).name) :
    ((lead ++ cycle).map fun i => (family i).name).head? =
        ((lead ++ cycle).map fun i => (family i).name).getLast? ↔ lead = [] := by
  rw [← h.getLast_eq_start_iff, List.head?_map, List.getLast?_map, ← h.starts,
    (Option.map_injective hnames).eq_iff]
  exact eq_comm

/-- Where there is a lead, a cycle can be reached that avoids the model where the walk begins. -/
theorem exists_avoiding (h : IsLasso family start lead cycle) (hlead : lead ≠ []) :
    ∃ i, Relation.ReflTransGen (Mentions family) start i ∧
      Relation.TransGen (fun j next => Mentions family j next ∧ j ≠ start ∧ next ≠ start) i i := by
  have havoids : ∀ i ∈ cycle, i ≠ start := by
    rintro i hi rfl
    exact h.not_mem_cycle (h.start_mem_lead hlead) hi
  have haround : cycle.IsChain fun j next => Mentions family j next ∧ j ≠ start ∧ next ≠ start :=
    h.chain.right_of_append.imp_of_mem_imp fun j next hj hnext hstep =>
      ⟨hstep, havoids j hj, havoids next hnext⟩
  obtain ⟨again, rest, rfl⟩ := h.closed
  have hwalk : lead ++ (again :: rest ++ [again]) = lead ++ again :: rest ++ [again] :=
    (List.append_assoc _ _ _).symm
  have hreached := Introspection.transGen_of_walk (hwalk ▸ h.starts) (hwalk ▸ h.chain)
    (List.mem_append_right lead List.mem_cons_self)
  have hcycle := Introspection.transGen_of_walk rfl haround List.mem_cons_self
  exact ⟨again, hreached.1, hcycle.2⟩

end IsLasso

/-- Whenever the schema of a model cannot be found, the error names the models of a lasso that begins
with the model: a lead, and behind it a cycle, each model referring to the next. If models of one
name are the same, then the first name and the last agree exactly if the lead is empty, so that all
the models that are named are on the cycle; and that is the case exactly if the cycle goes through
the model where the search began. So the names are those of a cycle if every cycle that can be
reached goes through that model. -/
theorem cyclic_names (family : Family k) (hnames : Function.Injective fun i => (family i).name)
    (start : Fin k) {cause : SchemaError} (h : modelSchema family start = .error cause) :
    ∃ lead cycle, IsLasso family start lead cycle ∧
      cause = .cyclic ((lead ++ cycle).map fun i => (family i).name) ∧
      (((lead ++ cycle).map fun i => (family i).name).head? =
        ((lead ++ cycle).map fun i => (family i).name).getLast? ↔ lead = []) ∧
      (start ∈ cycle ↔ lead = []) ∧ (∀ i ∈ lead, i ∉ cycle) ∧
      (lead ≠ [] → ∃ i, Relation.ReflTransGen (Mentions family) start i ∧
        Relation.TransGen (fun j next => Mentions family j next ∧ j ≠ start ∧ next ≠ start) i i) := by
  obtain ⟨walk, again, rfl, hstart, hchain, hnodup, hagain⟩ :=
    Introspection.cyclic_of_error rfl (List.isChain_singleton start) List.nodup_nil h
  obtain ⟨lead, cycle, hlasso, hwalk⟩ := IsLasso.of_walk hstart hchain hnodup hagain
  exact ⟨lead, cycle, hlasso, by rw [hwalk], hlasso.head_eq_getLast_iff hnames,
    hlasso.start_mem_iff, fun _ hi => hlasso.not_mem_cycle hi, hlasso.exists_avoiding⟩

/-- A shop that refers to its categories, and categories that refer to the categories in them. -/
def shop : Family 2 :=
  let category : TypeForm 2 := .model ⟨1, Nat.one_lt_two⟩
  fun index =>
    if index.val = 0 then { name := "Shop", fields := [("category", { form := some category })] }
    else
      { name := "Category"
        fields := [("inner", { form := some (.union [category, .none]), required := false })] }

/-- The shop and the categories have different names. -/
theorem name_shop_injective : Function.Injective fun i => (shop i).name := by
  intro i j
  revert i j
  decide

/-- The search that begins with the shop finds the cycle of the categories. -/
theorem modelSchema_shop :
    modelSchema shop 0 = .error (.cyclic ["Shop", "Category", "Category"]) := by
  have hdepth : Visit.unvisited ([] : List (Fin 2)) < 3 := by decide
  rw [modelSchema, ← Introspection.modelWithin_eq (fun _ _ => .ok .string) hdepth]
  rfl

/-- The lead of the categories is the shop, and their cycle avoids it. -/
theorem cyclic_names_shop :
    (Function.Injective fun i => (shop i).name) ∧
      modelSchema shop 0 = .error (.cyclic ["Shop", "Category", "Category"]) ∧
      ∃ lead cycle, IsLasso shop 0 lead cycle ∧ lead ≠ [] ∧
        ["Shop", "Category", "Category"] = (lead ++ cycle).map fun i => (shop i).name := by
  obtain ⟨lead, cycle, hlasso, hcause, hends, -⟩ := cyclic_names shop name_shop_injective 0
    modelSchema_shop
  have hpath := SchemaError.cyclic.inj hcause
  refine ⟨name_shop_injective, modelSchema_shop, lead, cycle, hlasso, ?_, hpath⟩
  intro hlead
  have hsame := hends.2 hlead
  rw [← hpath] at hsame
  exact absurd hsame (by decide)

/-- The shop is named although no cycle goes through it. -/
theorem head_ne_getLast_shop :
    (Function.Injective fun i => (shop i).name) ∧
      modelSchema shop 0 = .error (.cyclic ["Shop", "Category", "Category"]) ∧
      ["Shop", "Category", "Category"].head? ≠ ["Shop", "Category", "Category"].getLast? :=
  ⟨name_shop_injective, modelSchema_shop, by decide⟩

end ProtoSchema
