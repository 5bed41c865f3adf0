import ProtoSchema.Proofs.Schema.Normal

/-!
# Schemas that differ in the order of fields

Two schemas are alike if they differ in nothing but the order of the fields of objects, at any
depth, and in the options of enums. Each field of the one stands for a field of the same name of the
other, with an alike schema, so that the fields of the one can be brought into the order of the
other. What a schema is under its layers of optionality, whether it has a mapping and whether all in
it has one are the same for schemas that are alike: a list of fields is accepted whatever its order.
-/

namespace ProtoSchema.Schema

variable {n : Nat}

mutual

/-- That two schemas differ in the order of fields and in the options of enums alone. -/
inductive Alike : Schema n → Schema n → Prop where
  | object {members matched others} :
    AlikeFields members matched → matched.Perm others → Alike (.object members) (.object others)
  | shared (index) : Alike (.shared index) (.shared index)
  | string : Alike .string .string
  | boolean : Alike .boolean .boolean
  | date : Alike .date .date
  | bigInt : Alike .bigInt .bigInt
  | number (integral) : Alike (.number integral) (.number integral)
  | enumeration (options others) : Alike (.enumeration options) (.enumeration others)
  | array {element other} : Alike element other → Alike (.array element) (.array other)
  | set {element other} : Alike element other → Alike (.set element) (.set other)
  | tuple {elements others} :
    AlikeElements elements others → Alike (.tuple elements) (.tuple others)
  | map {key value otherKey otherValue} : Alike key otherKey → Alike value otherValue →
    Alike (.map key value) (.map otherKey otherValue)
  | optional {inner other} : Alike inner other → Alike (.optional inner) (.optional other)
  | nullable {inner other} : Alike inner other → Alike (.nullable inner) (.nullable other)
  | unknown (kind) : Alike (.unknown kind) (.unknown kind)
  | foreign (value) : Alike (.foreign value) (.foreign value)

/-- That two lists of fields have the same names in the same order, with alike schemas. -/
inductive AlikeFields : List (String × Schema n) → List (String × Schema n) → Prop where
  | nil : AlikeFields [] []
  | cons {name schema other rest others} : Alike schema other → AlikeFields rest others →
    AlikeFields ((name, schema) :: rest) ((name, other) :: others)

/-- That two lists of elements are alike one by one. -/
inductive AlikeElements : List (Schema n) → List (Schema n) → Prop where
  | nil : AlikeElements [] []
  | cons {schema other rest others} : Alike schema other → AlikeElements rest others →
    AlikeElements (schema :: rest) (other :: others)

end

mutual

/-- A schema is like itself. -/
theorem Alike.refl : ∀ schema : Schema n, Alike schema schema
  | .optional inner => .optional (Alike.refl inner)
  | .nullable inner => .nullable (Alike.refl inner)
  | .array element => .array (Alike.refl element)
  | .set element => .set (Alike.refl element)
  | .map key value => .map (Alike.refl key) (Alike.refl value)
  | .object members => .object (AlikeFields.refl members) (.refl members)
  | .tuple elements => .tuple (AlikeElements.refl elements)
  | .shared index => .shared index
  | .string => .string
  | .boolean => .boolean
  | .date => .date
  | .bigInt => .bigInt
  | .number integral => .number integral
  | .enumeration options => .enumeration options options
  | .unknown kind => .unknown kind
  | .foreign value => .foreign value
termination_by structural schema => schema

theorem AlikeFields.refl : ∀ fields : List (String × Schema n), AlikeFields fields fields
  | [] => .nil
  | (_, schema) :: rest => .cons (Alike.refl schema) (AlikeFields.refl rest)
termination_by structural fields => fields

theorem AlikeElements.refl : ∀ elements : List (Schema n), AlikeElements elements elements
  | [] => .nil
  | schema :: rest => .cons (Alike.refl schema) (AlikeElements.refl rest)
termination_by structural elements => elements

end

section Kinds

variable {a b : Schema n}

/-- Under their layers of optionality, alike schemas are alike. -/
theorem Alike.strip (h : Alike a b) : Alike a.strip b.strip := by
  induction a using Schema.strip.induct generalizing b with
  | case1 inner ih =>
    cases h with
    | optional hinner =>
      rw [Schema.strip, Schema.strip]
      exact ih hinner
  | case2 inner ih =>
    cases h with
    | nullable hinner =>
      rw [Schema.strip, Schema.strip]
      exact ih hinner
  | case3 schema hoptional hnullable =>
    cases h with
    | optional => exact (hoptional _ rfl).elim
    | nullable => exact (hnullable _ rfl).elim
    | object hmembers hperm => exact .object hmembers hperm
    | array helement => exact .array helement
    | set helement => exact .set helement
    | tuple helements => exact .tuple helements
    | map hkey hvalue => exact .map hkey hvalue
    | enumeration options others => exact .enumeration options others
    | _ => exact .refl _

theorem Alike.isObject_eq (h : Alike a b) : a.isObject = b.isObject := by
  cases h <;> rfl

theorem Alike.isWrapped_eq (h : Alike a b) : a.isWrapped = b.isWrapped := by
  cases h <;> rfl

theorem Alike.isSequence_eq (h : Alike a b) : a.isSequence = b.isSequence := by
  cases h <;> rfl

theorem Alike.isMap_eq (h : Alike a b) : a.isMap = b.isMap := by
  cases h <;> rfl

theorem Alike.isUnmapped_eq (h : Alike a b) : a.isUnmapped = b.isUnmapped := by
  cases h <;> rfl

theorem Alike.isUnfitPart_eq (h : Alike a b) : a.isUnfitPart = b.isUnfitPart := by
  rw [isUnfitPart, isUnfitPart, h.strip.isSequence_eq, h.isWrapped_eq, h.strip.isMap_eq]

end Kinds

section Acceptance

/-- The fields of an object are accepted one by one. -/
theorem isClear_fieldPositions (fields : List (String × Schema n)) :
    isClear (fieldPositions fields) = fields.all (·.2.isAccepted) := by
  induction fields with
  | nil => rfl
  | cons field rest ih => rw [isClear_fieldPositions_cons, ih, List.all_cons]

/-- Fields are accepted in any order. -/
theorem isClear_of_perm {fields others : List (String × Schema n)} (h : fields.Perm others) :
    isClear (fieldPositions fields) = isClear (fieldPositions others) := by
  rw [isClear_fieldPositions, isClear_fieldPositions, h.all_eq]

mutual

/-- Alike schemas are accepted together. -/
theorem Alike.isAccepted_eq : ∀ {a b : Schema n}, Alike a b → a.isAccepted = b.isAccepted
  | _, _, .optional h => by rw [isAccepted_optional, isAccepted_optional, h.isAccepted_eq]
  | _, _, .nullable h => by rw [isAccepted_nullable, isAccepted_nullable, h.isAccepted_eq]
  | _, _, .array h => by rw [isAccepted_array, isAccepted_array, h.isAccepted_eq]
  | _, _, .set h => by rw [isAccepted_set, isAccepted_set, h.isAccepted_eq]
  | _, _, .map hkey hvalue => by
    rw [isAccepted_map, isAccepted_map, hkey.isAccepted_eq, hvalue.isAccepted_eq,
      hkey.isUnfitPart_eq, hvalue.isUnfitPart_eq]
  | _, _, .object hmembers hperm => by
    rw [isAccepted_object, isAccepted_object, hmembers.isClear_eq, isClear_of_perm hperm]
  | _, _, .tuple helements => by
    rw [isAccepted_tuple, isAccepted_tuple, helements.isClear_eq]
  | _, _, .shared _ => rfl
  | _, _, .string => rfl
  | _, _, .boolean => rfl
  | _, _, .date => rfl
  | _, _, .bigInt => rfl
  | _, _, .number _ => rfl
  | _, _, .enumeration _ _ => rfl
  | _, _, .unknown _ => rfl
  | _, _, .foreign _ => rfl

theorem AlikeFields.isClear_eq : ∀ {fields others : List (String × Schema n)},
    AlikeFields fields others → isClear (fieldPositions fields) = isClear (fieldPositions others)
  | _, _, .nil => rfl
  | _, _, .cons hfirst hrest => by
    rw [isClear_fieldPositions_cons, isClear_fieldPositions_cons, hfirst.isAccepted_eq,
      hrest.isClear_eq]

theorem AlikeElements.isClear_eq : ∀ {elements others : List (Schema n)},
    AlikeElements elements others →
      isClear (elementPositions elements) = isClear (elementPositions others)
  | _, _, .nil => rfl
  | _, _, .cons hfirst hrest => by
    rw [isClear_elementPositions_cons, isClear_elementPositions_cons, hfirst.isAccepted_eq,
      hrest.isClear_eq]

end

theorem isUnmapped_of_isObject {schema : Schema n} (h : schema.isObject = true) :
    schema.isUnmapped = false := by
  cases schema <;> first | rfl | cases h

/-- A schema is fit to be the root exactly if it is an object that is accepted, under its layers of
optionality. -/
theorem refusal_eq_none_iff_isAccepted {schema : Schema n} :
    schema.refusal = none ↔ schema.strip.isObject = true ∧ schema.strip.isAccepted = true := by
  rw [refusal_eq_none_iff, ← firstOffence_eq_none_iff, ← isClear_iff]
  refine and_congr_right fun hobject => ?_
  rw [isAccepted_eq (isUnmapped_of_isObject hobject)]

/-- Alike schemas are fit to be the root together. -/
theorem Alike.refusal_eq_none_iff {a b : Schema n} (h : Alike a b) :
    a.refusal = none ↔ b.refusal = none := by
  rw [refusal_eq_none_iff_isAccepted, refusal_eq_none_iff_isAccepted, h.strip.isObject_eq,
    h.strip.isAccepted_eq]

end Acceptance

end ProtoSchema.Schema
