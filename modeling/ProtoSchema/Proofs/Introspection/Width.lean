import ProtoSchema.Introspection
import ProtoSchema.TypeForm.Standard

/-!
# The width of an annotated integer

An annotation of integers can be reached through layers of constraints and of nullability. All the
constraints on the way count, and so do the markers that a field description among them gathers. The
integer is given 64 bits exactly if one of these parts declares a width above 32, or has a bound
beyond the range of 32 bits on the side that the bound closes: a lower bound below the range or an
upper bound above it. A lower bound above the range and an upper bound below it do not count, even
though they leave no integer of 32 bits.
-/

namespace ProtoSchema

/-- The bound of that kind, if there is one. -/
def Bounds.get (bounds : Bounds) : BoundKind → Option Literal
  | .ge => bounds.ge
  | .gt => bounds.gt
  | .le => bounds.le
  | .lt => bounds.lt

/-- A single bound is the bound of its kind, and of no other. -/
theorem Bounds.get_single (kind other : BoundKind) (value : Literal) :
    (single kind value).get other = if other = kind then some value else none := by
  cases kind <;> cases other <;> rfl

namespace BoundKind

/-- Whether a bound of that kind closes the lower side. -/
def isLower : BoundKind → Bool
  | .ge => true
  | .gt => true
  | .le => false
  | .lt => false

/-- The outermost integer that a bound of that kind admits. -/
def outermost : BoundKind → Int → Int
  | .ge, value => value
  | .gt, value => value + 1
  | .le, value => value
  | .lt, value => value - 1

end BoundKind

/-- A literal that is an integer is compared as that integer. -/
theorem Literal.content_of_integer? {literal : Literal} {value : Int}
    (h : literal.integer? = some value) : literal.content = .integer value := by
  unfold integer? at h
  split at h
  · rename_i heq
    rw [heq, Option.some.inj h]
  · cases h

namespace IntegerWidth

/-- Whether a bound lies beyond the range of 32 bits on the side that it closes. -/
def isBeyond : BoundKind → Literal → Bool
  | .ge, value => value.isBelow least
  | .gt, value => value.isBelow (least - 1)
  | .le, value => value.isAbove greatest
  | .lt, value => value.isAbove (greatest + 1)

/-- An integer bound lies beyond the range if the outermost integer that it admits does. -/
theorem isBeyond_iff {kind : BoundKind} {literal : Literal} {value : Int}
    (h : literal.integer? = some value) :
    isBeyond kind literal = true ↔
      if kind.isLower = true then kind.outermost value < least
      else greatest < kind.outermost value := by
  have hcontent := Literal.content_of_integer? h
  cases kind with
  | ge => simp [isBeyond, Literal.isBelow, hcontent, BoundKind.isLower, BoundKind.outermost]
  | gt =>
    simp only [isBeyond, Literal.isBelow, hcontent, BoundKind.isLower, BoundKind.outermost,
      decide_eq_true_eq, if_true]
    omega
  | le => simp [isBeyond, Literal.isAbove, hcontent, BoundKind.isLower, BoundKind.outermost]
  | lt =>
    simp only [isBeyond, Literal.isAbove, hcontent, BoundKind.isLower, BoundKind.outermost,
      decide_eq_true_eq, Bool.false_eq_true, if_false]
    omega

/-- Each of the four bounds is looked at by itself. -/
theorem exceeds_iff (bounds : Bounds) :
    exceeds bounds = true ↔
      ∃ kind value, bounds.get kind = some value ∧ isBeyond kind value = true := by
  simp only [exceeds, Bool.or_eq_true, Option.any_eq_true]
  constructor
  · rintro (((⟨value, hget, h⟩ | ⟨value, hget, h⟩) | ⟨value, hget, h⟩) | ⟨value, hget, h⟩)
    · exact ⟨.ge, value, hget, h⟩
    · exact ⟨.gt, value, hget, h⟩
    · exact ⟨.le, value, hget, h⟩
    · exact ⟨.lt, value, hget, h⟩
  · rintro ⟨kind, value, hget, h⟩
    cases kind with
    | ge => exact .inl (.inl (.inl ⟨value, hget, h⟩))
    | gt => exact .inl (.inl (.inr ⟨value, hget, h⟩))
    | le => exact .inl (.inr ⟨value, hget, h⟩)
    | lt => exact .inr ⟨value, hget, h⟩

/-- Constraints call for 64 bits exactly if one of their parts declares more than 32 or has a bound
beyond the range. -/
theorem needs64_iff (constraints : List Constraint) :
    needs64 constraints = true ↔
      ∃ part ∈ constraints.flatMap (·.parts),
        (∃ bits, part.declaredBits = some bits ∧ bits.isAbove 32 = true) ∨
          ∃ kind value, part.bounds.get kind = some value ∧ isBeyond kind value = true := by
  simp only [needs64, List.any_eq_true, callsFor64, Bool.or_eq_true, Option.any_eq_true,
    exceeds_iff]

/-- The width of an integer with a single integer bound depends on the side that the bound
closes. -/
theorem needs64_bound (kind : BoundKind) (value : Int) :
    needs64 [.marker (.bound kind (.int value))] = true ↔
      if kind.isLower = true then kind.outermost value < least
      else greatest < kind.outermost value := by
  rw [← @isBeyond_iff kind (.int value) value rfl, needs64_iff]
  constructor
  · rintro ⟨part, hpart, ⟨bits, hbits, -⟩ | ⟨other, literal, hget, hbeyond⟩⟩
    · cases List.mem_singleton.1 hpart
      cases hbits
    · cases List.mem_singleton.1 hpart
      rw [Constraint.bounds, Marker.bounds, Bounds.get_single] at hget
      split at hget
      · rename_i hkind
        cases hget
        rwa [hkind] at hbeyond
      · cases hget
  · intro hbeyond
    exact ⟨_, List.mem_singleton_self _, .inr ⟨kind, .int value, by
      rw [Constraint.bounds, Marker.bounds, Bounds.get_single, if_pos rfl], hbeyond⟩⟩

end IntegerWidth

namespace Introspection

variable {k : Nat}

/-- An annotation of integers, with the constraints that are attached to it: an integer class, an
annotation of integers under further constraints, or one that may be null. -/
inductive IsIntegerForm : TypeForm k → List Constraint → Prop where
  | plain {type : PlainClass} : type.lineage = .integer → IsIntegerForm (.plain type) []
  | annotated {inner : TypeForm k} {attached : List Constraint} (more : List Constraint) :
    IsIntegerForm inner attached → IsIntegerForm (.annotated inner more) (more ++ attached)
  | orNull {inner : TypeForm k} {attached : List Constraint} :
    IsIntegerForm inner attached → IsIntegerForm (.union [inner, .none]) attached
  | nullOr {inner : TypeForm k} {attached : List Constraint} :
    IsIntegerForm inner attached → IsIntegerForm (.union [.none, inner]) attached

/-- An annotation of integers is not the type of the null value. -/
theorem IsIntegerForm.isNone_eq_false {form : TypeForm k} {attached : List Constraint}
    (h : IsIntegerForm form attached) : form.isNone = false := by
  cases h <;> rfl

/-- The schema of an annotation of integers is an integer in layers of nullability. The layers do not
depend on the constraints that are given, and all the constraints together decide the width. -/
theorem exists_layers_of_isIntegerForm (lookup : Fin k → Except SchemaError (Schema 0))
    {form : TypeForm k} {attached : List Constraint} (h : IsIntegerForm form attached) :
    ∃ layers : Schema 0 → Schema 0, (∀ schema, (layers schema).strip = schema.strip) ∧
      ∀ given, formSchema lookup given form =
        .ok (layers
          (if IntegerWidth.needs64 (given ++ attached) then .bigInt else .number true)) := by
  induction h with
  | @plain type hlineage =>
    refine ⟨id, fun _ => rfl, fun given => ?_⟩
    rw [formSchema, plainSchema, hlineage, List.append_nil]
    rfl
  | @annotated inner attached more _ ih =>
    obtain ⟨layers, hstrip, hschema⟩ := ih
    refine ⟨layers, hstrip, fun given => ?_⟩
    -- the constraints of this layer come behind those that are given from outside
    rw [formSchema, hschema, List.append_assoc]
  | @orNull inner attached hinner ih =>
    obtain ⟨layers, hstrip, hschema⟩ := ih
    refine ⟨fun schema => .nullable (layers schema), hstrip, fun given => ?_⟩
    rw [formSchema, unionSchema, hinner.isNone_eq_false, hschema]
    rfl
  | @nullOr inner attached hinner ih =>
    obtain ⟨layers, hstrip, hschema⟩ := ih
    refine ⟨fun schema => .nullable (layers schema), hstrip, fun given => ?_⟩
    rw [formSchema, unionSchema, hinner.isNone_eq_false, hschema]
    rfl

/-- The schema of an annotation of integers is an integer, in layers of nullability, and all the
constraints together decide its width. -/
theorem formSchema_of_isIntegerForm (lookup : Fin k → Except SchemaError (Schema 0))
    {form : TypeForm k} {attached : List Constraint} (h : IsIntegerForm form attached)
    (given : List Constraint) :
    ∃ schema, formSchema lookup given form = .ok schema ∧
      schema.strip =
        if IntegerWidth.needs64 (given ++ attached) then .bigInt else .number true := by
  obtain ⟨layers, hstrip, hschema⟩ := exists_layers_of_isIntegerForm lookup h
  refine ⟨_, hschema given, (hstrip _).trans ?_⟩
  split <;> rfl

/-- Every annotation of integers has a schema, an integer in layers of nullability. It has 64 bits
exactly if a part of the constraints that are given or attached declares more than 32, or has a
bound beyond the range of 32 bits on the side that the bound closes. In particular it has 64 bits
if the outermost integer that an integer bound admits lies beyond that side. For a field of a model
the given constraints are the description of the field and its markers. -/
theorem width_of_isIntegerForm (lookup : Fin k → Except SchemaError (Schema 0))
    {form : TypeForm k} {attached : List Constraint} (h : IsIntegerForm form attached)
    (given : List Constraint) :
    ∃ schema, formSchema lookup given form = .ok schema ∧
      (schema.strip = .bigInt ∨ schema.strip = .number true) ∧
      (schema.strip = .bigInt ↔
        ∃ part ∈ (given ++ attached).flatMap (·.parts),
          (∃ bits, part.declaredBits = some bits ∧ bits.isAbove 32 = true) ∨
            ∃ kind value, part.bounds.get kind = some value ∧
              IntegerWidth.isBeyond kind value = true) ∧
      ∀ part ∈ (given ++ attached).flatMap (·.parts), ∀ kind literal value,
        part.bounds.get kind = some literal → literal.integer? = some value →
          (if kind.isLower = true then kind.outermost value < IntegerWidth.least
            else IntegerWidth.greatest < kind.outermost value) →
          schema.strip = .bigInt := by
  obtain ⟨schema, hschema, hstrip⟩ := formSchema_of_isIntegerForm lookup h given
  have hwide : schema.strip = .bigInt ↔ IntegerWidth.needs64 (given ++ attached) = true := by
    rw [hstrip]
    split <;> simp_all
  refine ⟨schema, hschema, ?_, hwide.trans (IntegerWidth.needs64_iff _), ?_⟩
  · rw [hstrip]
    split
    · exact .inl rfl
    · exact .inr rfl
  · intro part hpart kind literal value hget hvalue hbeyond
    rw [hwide, IntegerWidth.needs64_iff]
    exact ⟨part, hpart, .inr ⟨kind, literal, hget, (IntegerWidth.isBeyond_iff hvalue).2 hbeyond⟩⟩

/-- The constraints of a balance: a description with a small width and with two markers. -/
def balanceConstraints : List Constraint :=
  [.field ⟨.dictionary (some (.int 16)),
    [.bound .gt (.int (-2147483650)), .bound .lt (.int 100)]⟩]

/-- The type of a balance: an integer with these constraints, or null. -/
def balance : TypeForm 0 :=
  .union [.annotated (.plain (PlainClass.named "int")) balanceConstraints, .none]

/-- The marker that admits one integer below the range decides. -/
theorem width_of_isIntegerForm_balance :
    IsIntegerForm balance balanceConstraints ∧
      ∃ schema, formSchema (fun index : Fin 0 => index.elim0)
          [.marker (.bound .le (.bool true))] balance = .ok schema ∧
        schema.strip = .bigInt := by
  have hform : IsIntegerForm balance balanceConstraints :=
    .orNull (.annotated balanceConstraints (.plain rfl))
  obtain ⟨schema, hschema, -, -, hwide⟩ :=
    width_of_isIntegerForm (fun index => index.elim0) hform [.marker (.bound .le (.bool true))]
  exact ⟨hform, schema, hschema, hwide (.marker (.bound .gt (.int (-2147483650)))) (by decide)
    .gt (.int (-2147483650)) (-2147483650) rfl rfl (by decide)⟩

/-- At least `2 ^ 32` admits no integer of 32 bits, but closes the lower side: the integer has 32
bits. -/
theorem width_atLeastTwoTo32 :
    IsIntegerForm (.plain (PlainClass.named "int") : TypeForm 0) [] ∧
      (Constraint.marker (.bound .ge (.int 4294967296))).bounds.get .ge =
        some (.int 4294967296) ∧
      IntegerWidth.greatest < BoundKind.outermost .ge 4294967296 ∧
      formSchema (fun index : Fin 0 => index.elim0) [.marker (.bound .ge (.int 4294967296))]
        (.plain (PlainClass.named "int")) = .ok (.number true) :=
  ⟨.plain rfl, rfl, by decide, rfl⟩

end Introspection

end ProtoSchema
