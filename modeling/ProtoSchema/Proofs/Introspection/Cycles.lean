import Mathlib.Data.List.Chain
import ProtoSchema.Proofs.Introspection.Mentions
import ProtoSchema.Proofs.Visit

/-!
# Cycles of models

Finding the schema of a model never has more models on its path than there are, so that it comes to
an end on every family. It fails exactly if a cycle of references can be reached from the model, and
the names of the error are those of a walk that comes back to one of its models.
-/

namespace ProtoSchema

open ProtoSchema.Visit (unvisited unvisited_lt unvisited_le)

namespace Introspection

variable {k : Nat} {family : Family k}

/-- Find the schema of a model with at most so many models entered inside one another, where
something else is done for those that are further inside. -/
def modelWithin (family : Family k)
    (beyond : List (Fin k) → Fin k → Except SchemaError (Schema 0)) :
    Nat → List (Fin k) → Fin k → Except SchemaError (Schema 0)
  | 0, path, i => beyond path i
  | depth + 1, path, i =>
    if path.contains i then .error (.cyclic ((path ++ [i]).map fun j => (family j).name))
    else do
      let fields ← fieldSchemas (fun j => modelWithin family beyond depth (path ++ [i]) j)
        (family i).fields
      return .object fields

/-- A model that is entered leaves fewer models to enter. -/
theorem unvisited_append_lt {path : List (Fin k)} {i : Fin k} (h : i ∉ path) :
    unvisited (path ++ [i]) < unvisited path :=
  unvisited_lt (fun _ hj => List.mem_append_left _ hj)
    (List.mem_append_right _ List.mem_cons_self) h

/-- No more models are entered inside one another than are not on the path. -/
theorem modelWithin_eq (beyond : List (Fin k) → Fin k → Except SchemaError (Schema 0))
    {depth : Nat} {path : List (Fin k)} (h : unvisited path < depth) (i : Fin k) :
    modelWithin family beyond depth path i = modelSchemaFrom family path i := by
  induction depth generalizing path i with
  | zero => omega
  | succ depth ih =>
    rw [modelWithin, modelSchemaFrom]
    by_cases hentered : i ∈ path
    · rw [if_pos (List.contains_iff_mem.2 hentered), dif_pos hentered]
    · rw [if_neg (fun h => hentered (List.contains_iff_mem.1 h)), dif_neg hentered]
      have hlt := unvisited_append_lt hentered
      have hinner : ∀ j, modelWithin family beyond depth (path ++ [i]) j =
          modelSchemaFrom family (path ++ [i]) j := fun j => ih (by omega) j
      simp only [hinner]

/-- The schema of a model is an object. -/
theorem exists_fields_of_ok {path : List (Fin k)} {i : Fin k} {schema : Schema 0}
    (h : modelSchemaFrom family path i = .ok schema) : ∃ fields, schema = .object fields := by
  rw [modelSchemaFrom] at h
  split at h
  · cases h
  · cases hfields : fieldSchemas (fun j => modelSchemaFrom family (path ++ [i]) j)
        (family i).fields with
    | error cause =>
      rw [hfields] at h
      cases h
    | ok fields =>
      rw [hfields] at h
      cases h
      exact ⟨fields, rfl⟩

/-- Where the schema of a model is found, every walk from the model comes to an end. -/
theorem acc_of_ok {path : List (Fin k)} {i : Fin k} {schema : Schema 0}
    (h : modelSchemaFrom family path i = .ok schema) :
    Acc (fun next before => Mentions family before next) i := by
  rw [modelSchemaFrom] at h
  by_cases hentered : i ∈ path
  · rw [dif_pos hentered] at h
    cases h
  · rw [dif_neg hentered] at h
    have hlookup := looksUp_fieldSchemas (fun j => modelSchemaFrom family (path ++ [i]) j)
      (family i).fields
    cases hfields : fieldSchemas (fun j => modelSchemaFrom family (path ++ [i]) j)
        (family i).fields with
    | error cause =>
      rw [hfields] at h
      cases h
    | ok fields =>
      constructor
      intro next hnext
      obtain ⟨found, hfound⟩ := hlookup.found fields hfields next hnext
      exact acc_of_ok hfound
termination_by unvisited path
decreasing_by exact unvisited_append_lt hentered

/-- Where the search fails inside the models of a path, the cause is a walk that goes on from the
path and comes back to one of its models. -/
theorem cyclic_of_error {start : Fin k} {path : List (Fin k)} {i : Fin k} {cause : SchemaError}
    (hstart : (path ++ [i]).head? = some start)
    (hchain : (path ++ [i]).IsChain (Mentions family)) (hnodup : path.Nodup)
    (h : modelSchemaFrom family path i = .error cause) :
    ∃ walk again, cause = .cyclic ((walk ++ [again]).map fun j => (family j).name) ∧
      (walk ++ [again]).head? = some start ∧ (walk ++ [again]).IsChain (Mentions family) ∧
      walk.Nodup ∧ again ∈ walk := by
  rw [modelSchemaFrom] at h
  by_cases hentered : i ∈ path
  · rw [dif_pos hentered] at h
    cases h
    exact ⟨path, i, rfl, hstart, hchain, hnodup, hentered⟩
  · rw [dif_neg hentered] at h
    have hlookup := looksUp_fieldSchemas (fun j => modelSchemaFrom family (path ++ [i]) j)
      (family i).fields
    cases hfields : fieldSchemas (fun j => modelSchemaFrom family (path ++ [i]) j)
        (family i).fields with
    | ok fields =>
      rw [hfields] at h
      cases h
    | error other =>
      rw [hfields] at h
      cases h
      obtain ⟨next, hnext, hfailed⟩ := hlookup.failed cause hfields
      refine cyclic_of_error ?_ ?_ ?_ hfailed
      · rw [List.head?_append, hstart]
        rfl
      · refine List.isChain_append.2 ⟨hchain, List.isChain_singleton _, ?_⟩
        intro before hbefore after hafter
        rw [List.getLast?_concat] at hbefore
        cases hbefore
        cases hafter
        exact hnext
      · rw [List.nodup_append]
        refine ⟨hnodup, List.pairwise_singleton _ _, ?_⟩
        intro a ha b hb hab
        rw [hab, List.mem_singleton.1 hb] at ha
        exact hentered ha
termination_by unvisited path
decreasing_by exact unvisited_append_lt hentered

/-- A walk that comes back to one of its places has reached a cycle. -/
theorem transGen_of_walk {α : Type} {step : α → α → Prop} {start again : α} {walk : List α}
    (hstart : (walk ++ [again]).head? = some start)
    (hchain : (walk ++ [again]).IsChain step) (hagain : again ∈ walk) :
    Relation.ReflTransGen step start again ∧ Relation.TransGen step again again := by
  have hclosure : (walk ++ [again]).IsChain (Relation.TransGen step) :=
    hchain.imp fun _ _ hstep => .single hstep
  have hpairs := List.isChain_iff_pairwise.1 hclosure
  have hleads : ∀ place ∈ walk, Relation.TransGen step place again :=
    fun place hplace => (List.pairwise_append.1 hpairs).2.2 place hplace again List.mem_cons_self
  have hfirst : start ∈ walk := by
    cases walk with
    | nil => cases hagain
    | cons first rest =>
      cases hstart
      exact List.mem_cons_self
  exact ⟨(hleads start hfirst).to_reflTransGen, hleads again hagain⟩

end Introspection

open Introspection (Mentions modelWithin)

variable {k : Nat}

/-- Finding the schema of a model of a finite family comes to an end: it never enters more models
inside one another than there are. It raises the error of a cyclic schema exactly if a model is
reached that is reached from itself, and otherwise yields an object. Wherever it fails, the error
names a walk from the model along references, whose models are different ones but for the last,
which is one of those before it. -/
theorem modelSchema_cyclic_iff (family : Family k) (start : Fin k) :
    (∀ (beyond : List (Fin k) → Fin k → Except SchemaError (Schema 0)) (depth : Nat), k < depth →
        modelWithin family beyond depth [] start = modelSchema family start) ∧
      ((∃ names, modelSchema family start = .error (.cyclic names)) ↔
        ∃ i, Relation.ReflTransGen (Mentions family) start i ∧
          Relation.TransGen (Mentions family) i i) ∧
      ((¬ ∃ i, Relation.ReflTransGen (Mentions family) start i ∧
          Relation.TransGen (Mentions family) i i) →
        ∃ fields, modelSchema family start = .ok (.object fields)) ∧
      ∀ cause, modelSchema family start = .error cause →
        ∃ walk again, cause = .cyclic ((walk ++ [again]).map fun j => (family j).name) ∧
          (walk ++ [again]).head? = some start ∧ (walk ++ [again]).IsChain (Mentions family) ∧
          walk.Nodup ∧ again ∈ walk := by
  have hfailed : ∀ cause, modelSchema family start = .error cause →
      ∃ walk again, cause = .cyclic ((walk ++ [again]).map fun j => (family j).name) ∧
        (walk ++ [again]).head? = some start ∧ (walk ++ [again]).IsChain (Mentions family) ∧
        walk.Nodup ∧ again ∈ walk := fun cause hcause =>
    Introspection.cyclic_of_error rfl (List.isChain_singleton start) List.nodup_nil hcause
  have hcycle : ∀ cause, modelSchema family start = .error cause →
      ∃ i, Relation.ReflTransGen (Mentions family) start i ∧
        Relation.TransGen (Mentions family) i i := by
    intro cause hcause
    obtain ⟨walk, again, -, hstart, hchain, -, hagain⟩ := hfailed cause hcause
    exact ⟨again, Introspection.transGen_of_walk hstart hchain hagain⟩
  refine ⟨?_, ⟨?_, ?_⟩, ?_, hfailed⟩
  · intro beyond depth hdepth
    have hle := unvisited_le ([] : List (Fin k))
    exact Introspection.modelWithin_eq beyond (by omega) start
  · rintro ⟨names, hnames⟩
    exact hcycle _ hnames
  · rintro ⟨i, hreach, hloop⟩
    cases houtcome : modelSchema family start with
    | ok schema =>
      have hacc := Introspection.acc_of_ok houtcome
      exact absurd hloop (Visit.not_transGen_of_acc hacc hreach)
    | error cause =>
      obtain ⟨walk, again, rfl, -⟩ := hfailed cause houtcome
      exact ⟨_, rfl⟩
  · intro hacyclic
    cases houtcome : modelSchema family start with
    | ok schema =>
      obtain ⟨fields, rfl⟩ := Introspection.exists_fields_of_ok houtcome
      exact ⟨fields, rfl⟩
    | error cause => exact absurd (hcycle cause houtcome) hacyclic

end ProtoSchema
