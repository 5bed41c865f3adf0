import Mathlib.Data.List.Basic
import ProtoSchema.Introspection

/-!
# The models that an annotation leads to

An annotation leads to a model through constraints, optionality and the arguments of the generic
types whose arguments have a meaning, but not through a union of several types. Finding the schema
of an annotation looks up exactly the models that it leads to: it fails if one of these lookups
fails, and for the same cause.
-/

namespace ProtoSchema.Introspection

variable {k : Nat}

/-- Whether an annotation leads to a model. -/
inductive Meets : TypeForm k → Fin k → Prop where
  | model (index : Fin k) : Meets (.model index) index
  | annotated {inner : TypeForm k} {constraints : List Constraint} {index : Fin k} :
    Meets inner index → Meets (.annotated inner constraints) index
  | firstOrNull {first second : TypeForm k} {index : Fin k} : first.isNone = false →
    second.isNone = true → Meets first index → Meets (.union [first, second]) index
  | nullOrSecond {first second : TypeForm k} {index : Fin k} : first.isNone = true →
    second.isNone = false → Meets second index → Meets (.union [first, second]) index
  | sequence {type : Generic} {first : TypeForm k} {rest : List (TypeForm k)} {index : Fin k} :
    type.role = .sequence → Meets first index → Meets (.generic type (first :: rest)) index
  | set {type : Generic} {first : TypeForm k} {rest : List (TypeForm k)} {index : Fin k} :
    type.role = .set → Meets first index → Meets (.generic type (first :: rest)) index
  | tuple {type : Generic} {elements : List (TypeForm k)} {element : TypeForm k} {index : Fin k} :
    type.role = .tuple → element ∈ elements → Meets element index →
    Meets (.generic type elements) index
  | dictionaryKey {type : Generic} {key value : TypeForm k} {index : Fin k} :
    type.role = .dictionary → Meets key index → Meets (.generic type [key, value]) index
  | dictionaryValue {type : Generic} {key value : TypeForm k} {index : Fin k} :
    type.role = .dictionary → Meets value index → Meets (.generic type [key, value]) index

/-- Whether one of the annotations leads to a model. -/
def MeetsAny (forms : List (TypeForm k)) (index : Fin k) : Prop :=
  ∃ form ∈ forms, Meets form index

/-- Whether a model refers to another: the annotation of a field of it leads to the other. -/
def Mentions (family : Family k) (index other : Fin k) : Prop :=
  ∃ name field form, (name, field) ∈ (family index).fields ∧ field.form = some form ∧
    Meets form other

/-- A computation looks up exactly the models that are met: it fails only if one of the lookups
fails, for the cause of that lookup, and it succeeds only if all of them do. -/
structure LooksUp {α : Type} (lookup : Fin k → Except SchemaError (Schema 0)) (met : Fin k → Prop)
    (result : Except SchemaError α) : Prop where
  /-- A failure is that of a lookup. -/
  failed : ∀ cause, result = .error cause → ∃ index, met index ∧ lookup index = .error cause
  /-- In a success, every lookup succeeds. -/
  found : ∀ value, result = .ok value → ∀ index, met index → ∃ schema, lookup index = .ok schema

namespace LooksUp

variable {α β : Type} {lookup : Fin k → Except SchemaError (Schema 0)} {met more : Fin k → Prop}
  {result : Except SchemaError α}

/-- A computation that succeeds at once looks nothing up. -/
theorem done (value : α) (h : ∀ index, ¬ met index) : LooksUp lookup met (.ok value) where
  failed := by
    intro cause hcause
    cases hcause
  found := by
    intro _ _ index hindex
    exact absurd hindex (h index)

/-- The schema of a model is looked up. -/
theorem model (index : Fin k) : LooksUp lookup (Meets (.model index)) (lookup index) where
  failed := by
    intro cause hcause
    exact ⟨index, .model index, hcause⟩
  found := by
    intro schema hschema other hother
    cases hother
    exact ⟨schema, hschema⟩

/-- The models that are looked up may be described in another way. -/
theorem congr (h : LooksUp lookup met result) (hmet : ∀ index, more index ↔ met index) :
    LooksUp lookup more result where
  failed := by
    intro cause hcause
    obtain ⟨index, hindex, hlookup⟩ := h.failed cause hcause
    exact ⟨index, (hmet index).2 hindex, hlookup⟩
  found := by
    intro value hvalue index hindex
    exact h.found value hvalue index ((hmet index).1 hindex)

/-- One computation after another looks up what each of them does. -/
theorem bind (h : LooksUp lookup met result) {next : α → Except SchemaError β}
    (hnext : ∀ value, LooksUp lookup more (next value)) :
    LooksUp lookup (fun index => met index ∨ more index) (result >>= next) := by
  cases result with
  | error cause =>
    constructor
    · intro other hother
      cases hother
      obtain ⟨index, hindex, hlookup⟩ := h.failed cause rfl
      exact ⟨index, .inl hindex, hlookup⟩
    · intro value hvalue
      cases hvalue
  | ok first =>
    constructor
    · intro cause hcause
      obtain ⟨index, hindex, hlookup⟩ := (hnext first).failed cause hcause
      exact ⟨index, .inr hindex, hlookup⟩
    · intro value hvalue index hindex
      rcases hindex with hmet | hmore
      · exact h.found first rfl index hmet
      · exact (hnext first).found value hvalue index hmore

/-- Nothing more is looked up to convert a result. -/
theorem map (h : LooksUp lookup met result) (convert : α → β) :
    LooksUp lookup met (result >>= fun value => .ok (convert value)) := by
  have hdone : ∀ value : α, LooksUp lookup (fun _ => False) (.ok (convert value)) :=
    fun value => .done _ fun _ => id
  refine (h.bind hdone).congr fun index => ?_
  simp

end LooksUp

section Union

variable {first second : TypeForm k} {index : Fin k}

/-- A union of a type and null leads to what the type leads to. -/
theorem meets_union_firstOrNull (hfirst : first.isNone = false) (hsecond : second.isNone = true) :
    Meets (.union [first, second]) index ↔ Meets first index := by
  constructor
  · intro h
    cases h with
    | firstOrNull _ _ hmeets => exact hmeets
    | nullOrSecond hnull _ _ => rw [hfirst] at hnull; cases hnull
  · exact .firstOrNull hfirst hsecond

/-- A union of null and a type leads to what the type leads to. -/
theorem meets_union_nullOrSecond (hfirst : first.isNone = true) (hsecond : second.isNone = false) :
    Meets (.union [first, second]) index ↔ Meets second index := by
  constructor
  · intro h
    cases h with
    | firstOrNull hnull _ _ => rw [hfirst] at hnull; cases hnull
    | nullOrSecond _ _ hmeets => exact hmeets
  · exact .nullOrSecond hfirst hsecond

/-- A union leads to nothing unless exactly one of two members is null. -/
theorem not_meets_union (hnull : first.isNone = second.isNone) :
    ¬ Meets (.union [first, second]) index := by
  intro h
  cases h with
  | firstOrNull hfirst hsecond _ => rw [hfirst, hsecond] at hnull; cases hnull
  | nullOrSecond hfirst hsecond _ => rw [hfirst, hsecond] at hnull; cases hnull

end Union

/-- Which arguments of a generic type lead to a model depends on what they mean. -/
theorem meets_generic_iff {type : Generic} {arguments : List (TypeForm k)} {index : Fin k} :
    Meets (.generic type arguments) index ↔
      match type.role with
      | .sequence => MeetsAny (arguments.take 1) index
      | .set => MeetsAny (arguments.take 1) index
      | .tuple => MeetsAny arguments index
      | .dictionary => arguments.length = 2 ∧ MeetsAny arguments index
      | .other => False := by
  constructor
  · intro h
    cases h with
    | sequence hrole hmeets =>
      rw [hrole]
      exact ⟨_, List.mem_cons_self, hmeets⟩
    | set hrole hmeets =>
      rw [hrole]
      exact ⟨_, List.mem_cons_self, hmeets⟩
    | tuple hrole hmem hmeets =>
      rw [hrole]
      exact ⟨_, hmem, hmeets⟩
    | dictionaryKey hrole hmeets =>
      rw [hrole]
      exact ⟨rfl, _, List.mem_cons_self, hmeets⟩
    | dictionaryValue hrole hmeets =>
      rw [hrole]
      exact ⟨rfl, _, List.mem_cons_of_mem _ List.mem_cons_self, hmeets⟩
  · intro h
    cases hrole : type.role with
    | sequence =>
      rw [hrole] at h
      obtain ⟨form, hmem, hmeets⟩ := h
      cases arguments with
      | nil => cases hmem
      | cons first rest =>
        rw [List.mem_singleton.1 hmem] at hmeets
        exact .sequence hrole hmeets
    | set =>
      rw [hrole] at h
      obtain ⟨form, hmem, hmeets⟩ := h
      cases arguments with
      | nil => cases hmem
      | cons first rest =>
        rw [List.mem_singleton.1 hmem] at hmeets
        exact .set hrole hmeets
    | tuple =>
      rw [hrole] at h
      obtain ⟨form, hmem, hmeets⟩ := h
      exact .tuple hrole hmem hmeets
    | dictionary =>
      rw [hrole] at h
      obtain ⟨hlength, form, hmem, hmeets⟩ := h
      obtain ⟨key, value, rfl⟩ := List.length_eq_two.1 hlength
      rcases List.mem_cons.1 hmem with rfl | hvalue
      · exact .dictionaryKey hrole hmeets
      · rw [List.mem_singleton.1 hvalue] at hmeets
        exact .dictionaryValue hrole hmeets
    | other =>
      rw [hrole] at h
      cases h

theorem meetsAny_cons {first : TypeForm k} {rest : List (TypeForm k)} {index : Fin k} :
    MeetsAny (first :: rest) index ↔ Meets first index ∨ MeetsAny rest index := by
  simp [MeetsAny]

theorem not_meetsAny_nil {index : Fin k} : ¬ MeetsAny [] index := by
  simp [MeetsAny]

section Lookup

variable (lookup : Fin k → Except SchemaError (Schema 0))

/-- A tuple whose only type is not followed by dots is found element by element. -/
theorem tupleSchema_cons (first : TypeForm k) {rest : List (TypeForm k)} (h : rest ≠ [.ellipsis]) :
    tupleSchema lookup (first :: rest) =
      (formSchema lookup [] first >>= fun element =>
        elementSchemas lookup rest >>= fun elements => .ok (.tuple (element :: elements))) := by
  rw [tupleSchema]
  · rfl
  · intro hdots
    exact h hdots

mutual

/-- Finding the schema of an annotation looks up the models that it leads to. -/
theorem looksUp_formSchema (constraints : List Constraint) : ∀ form : TypeForm k,
    LooksUp lookup (Meets form) (formSchema lookup constraints form)
  | .annotated inner more => by
    refine (looksUp_formSchema (constraints ++ more) inner).congr fun index => ?_
    exact ⟨fun h => by cases h with | annotated hinner => exact hinner, .annotated⟩
  | .any => .done _ fun _ h => by cases h
  | .none => .done _ fun _ h => by cases h
  | .nullValue => .done _ fun _ h => by cases h
  | .ellipsis => .done _ fun _ h => by cases h
  | .plain type => .done _ fun _ h => by cases h
  | .enumeration type => .done _ fun _ h => by cases h
  | .model index => .model index
  | .literal options => .done _ fun _ h => by cases h
  | .union members => looksUp_unionSchema constraints members
  | .generic type arguments => by
    have hmeets : ∀ index, Meets (.generic type arguments) index ↔ _ :=
      fun index => meets_generic_iff
    rw [formSchema]
    cases hrole : type.role with
    | sequence =>
      refine ((looksUp_elementSchema arguments).map Schema.array).congr fun index => ?_
      rw [hmeets, hrole]
    | set =>
      refine ((looksUp_elementSchema arguments).map Schema.set).congr fun index => ?_
      rw [hmeets, hrole]
    | tuple =>
      refine (looksUp_tupleSchema arguments).congr fun index => ?_
      rw [hmeets, hrole]
    | dictionary =>
      refine (looksUp_dictionarySchema arguments).congr fun index => ?_
      rw [hmeets, hrole]
    | other =>
      refine .done _ fun index => ?_
      rw [hmeets, hrole]
      exact id
  | .named name token => .done _ fun _ h => by cases h
termination_by structural form => form

theorem looksUp_unionSchema (constraints : List Constraint) : ∀ members : List (TypeForm k),
    LooksUp lookup (Meets (.union members)) (unionSchema lookup constraints members)
  | [] => .done _ fun _ h => by cases h
  | [_] => .done _ fun _ h => by cases h
  | _ :: _ :: _ :: _ => .done _ fun _ h => by cases h
  | [first, second] => by
    rw [unionSchema]
    cases hfirst : first.isNone <;> cases hsecond : second.isNone
    · exact .done _ fun index => not_meets_union (hfirst.trans hsecond.symm)
    · exact ((looksUp_formSchema constraints first).map Schema.nullable).congr fun index =>
        meets_union_firstOrNull hfirst hsecond
    · exact ((looksUp_formSchema constraints second).map Schema.nullable).congr fun index =>
        meets_union_nullOrSecond hfirst hsecond
    · exact .done _ fun index => not_meets_union (hfirst.trans hsecond.symm)
termination_by structural members => members

theorem looksUp_elementSchema : ∀ arguments : List (TypeForm k),
    LooksUp lookup (MeetsAny (arguments.take 1)) (elementSchema lookup arguments)
  | [] => .done _ fun _ => not_meetsAny_nil
  | first :: rest => (looksUp_formSchema [] first).congr fun index => by simp [MeetsAny]
termination_by structural arguments => arguments

theorem looksUp_tupleSchema : ∀ arguments : List (TypeForm k),
    LooksUp lookup (MeetsAny arguments) (tupleSchema lookup arguments)
  | [] => .done _ fun _ => not_meetsAny_nil
  | first :: rest => by
    have hfirst := looksUp_formSchema [] first
    have hrest := looksUp_elementSchemas rest
    by_cases hdots : rest = [.ellipsis]
    · rw [hdots]
      refine (hfirst.map Schema.array).congr fun index => ?_
      have hnone : ¬ Meets (.ellipsis : TypeForm k) index := fun h => by cases h
      simp [meetsAny_cons, not_meetsAny_nil, hnone]
    · rw [tupleSchema_cons lookup first hdots]
      exact (hfirst.bind fun element => hrest.map fun elements =>
        Schema.tuple (element :: elements)).congr
        fun index => meetsAny_cons
termination_by structural arguments => arguments

theorem looksUp_dictionarySchema : ∀ arguments : List (TypeForm k),
    LooksUp lookup (fun index => arguments.length = 2 ∧ MeetsAny arguments index)
      (dictionarySchema lookup arguments)
  | [] => .done _ fun _ h => by cases h.1
  | [_] => .done _ fun _ h => by cases h.1
  | _ :: _ :: _ :: _ => .done _ fun _ h => by cases h.1
  | [key, value] => by
    have hkey := looksUp_formSchema [] key
    have hvalue := looksUp_formSchema [] value
    refine (hkey.bind fun keySchema => hvalue.map fun valueSchema =>
      Schema.map keySchema valueSchema).congr fun index => ?_
    simp [meetsAny_cons, not_meetsAny_nil]
termination_by structural arguments => arguments

theorem looksUp_elementSchemas : ∀ arguments : List (TypeForm k),
    LooksUp lookup (MeetsAny arguments) (elementSchemas lookup arguments)
  | [] => .done _ fun _ => not_meetsAny_nil
  | first :: rest => by
    have hfirst := looksUp_formSchema [] first
    have hrest := looksUp_elementSchemas rest
    exact (hfirst.bind fun element => hrest.map fun elements => element :: elements).congr
      fun index => meetsAny_cons
termination_by structural arguments => arguments

end

/-- Finding the schemas of the fields of a model looks up the models that their annotations lead
to. -/
theorem looksUp_fieldSchemas (fields : List (String × ModelField k)) :
    LooksUp lookup
      (fun index => ∃ name field form, (name, field) ∈ fields ∧ field.form = some form ∧
        Meets form index)
      (fieldSchemas lookup fields) := by
  induction fields with
  | nil => exact .done _ fun _ ⟨_, _, _, hmem, _⟩ => List.not_mem_nil hmem
  | cons entry rest ih =>
    obtain ⟨name, field⟩ := entry
    have hfield : LooksUp lookup (fun index => ∃ form, field.form = some form ∧ Meets form index)
        (typeSchema lookup field) := by
      rw [typeSchema]
      cases hform : field.form with
      | none => exact .done _ fun _ ⟨_, hnone, _⟩ => by cases hnone
      | some form =>
        refine (looksUp_formSchema lookup _ form).congr fun index => ?_
        simp
    refine (hfield.bind fun schema => ih.map fun schemas =>
      (name, presence field.required schema) :: schemas).congr fun index => ?_
    constructor
    · rintro ⟨other, found, form, hmem, hform, hmeets⟩
      rcases List.mem_cons.1 hmem with hfirst | hrest
      · cases hfirst
        exact .inl ⟨form, hform, hmeets⟩
      · exact .inr ⟨other, found, form, hrest, hform, hmeets⟩
    · rintro (⟨form, hform, hmeets⟩ | ⟨other, found, form, hmem, hform, hmeets⟩)
      · exact ⟨name, field, form, List.mem_cons_self, hform, hmeets⟩
      · exact ⟨other, found, form, List.mem_cons_of_mem _ hmem, hform, hmeets⟩

end Lookup

end ProtoSchema.Introspection
