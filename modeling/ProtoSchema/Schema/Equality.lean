import ProtoSchema.Schema.Basic

/-!
# Equality of schemas

Two schemas are equal when they are of one kind and have equal parts. The fields of an object form
a dictionary, so their order does not matter; the options of an enumeration are compared by value,
so an option `1` equals an option `1.0`. References to shared objects are equal when they name the
same object.

Shared objects can also be compared by what they hold. Two objects are compared field by field until
one differs; an object is equal to itself, also where it leads back into itself or holds a literal
that equals nothing. The comparison of different objects that lead back into themselves may have no
end. It goes only as deep as there are pairs of schemas to compare, because a deeper one compares
some pair inside of itself. Main statement: on trees, both ways of comparing agree.
-/

namespace ProtoSchema.Schema

variable {n : Nat}

/-- Whether two lists of options agree position by position. -/
def sameOptions : List Literal → List Literal → Bool
  | [], [] => true
  | a :: as, b :: bs => a.sameValue b && sameOptions as bs
  | _, _ => false

mutual

/-- Whether two schemas are equal. -/
def equal : Schema n → Schema n → Bool
  | .object fields, .object others => fields.length == others.length && fieldsWithin fields others
  | .shared i, .shared j => i == j
  | .string, .string => true
  | .boolean, .boolean => true
  | .date, .date => true
  | .bigInt, .bigInt => true
  | .number a, .number b => a == b
  | .enumeration options, .enumeration others => sameOptions options others
  | .array a, .array b => equal a b
  | .set a, .set b => equal a b
  | .tuple elements, .tuple others => elementsEqual elements others
  | .map k v, .map l w => equal k l && equal v w
  | .optional a, .optional b => equal a b
  | .nullable a, .nullable b => equal a b
  | .unknown a, .unknown b => a == b
  | .foreign a, .foreign b => a == b
  | _, _ => false
termination_by structural schema => schema

/-- Whether each field is found under its name among the others, with an equal schema. -/
def fieldsWithin : List (String × Schema n) → List (String × Schema n) → Bool
  | [], _ => true
  | (name, schema) :: rest, others =>
    (match others.lookup name with
      | some other => equal schema other
      | none => false) && fieldsWithin rest others
termination_by structural fields => fields

/-- Whether two lists of elements agree position by position. -/
def elementsEqual : List (Schema n) → List (Schema n) → Bool
  | [], [] => true
  | a :: as, b :: bs => equal a b && elementsEqual as bs
  | _, _ => false
termination_by structural elements => elements

end

/-- Whether each field is found under its name among the others, compared one by one. -/
def fieldsAgree (agree : Schema n → Schema n → Option Bool) :
    List (String × Schema n) → List (String × Schema n) → Option Bool
  | [], _ => some true
  | (name, schema) :: rest, others =>
    match others.lookup name with
    | none => some false
    | some other => do if ← agree schema other then fieldsAgree agree rest others else return false

/-- Whether two objects have as many fields, and agree in each. -/
def objectsAgree (agree : Schema n → Schema n → Option Bool)
    (fields others : List (String × Schema n)) : Option Bool :=
  if fields.length = others.length then fieldsAgree agree fields others else some false

/-- Whether two lists of elements agree position by position, and then in length. -/
def elementsAgree (agree : Schema n → Schema n → Option Bool) :
    List (Schema n) → List (Schema n) → Option Bool
  | [], [] => some true
  | a :: as, b :: bs => do if ← agree a b then elementsAgree agree as bs else return false
  | _, _ => some false

/-- Whether two schemas are equal over a table of shared objects, if a comparison of at most that
depth can tell. -/
def equalWithin (objects : Objects n) : Nat → Schema n → Schema n → Option Bool
  | 0, _, _ => none
  | depth + 1, a, b =>
    match a, b with
    | .object fields, .object others => objectsAgree (equalWithin objects depth) fields others
    | .object fields, .shared j => objectsAgree (equalWithin objects depth) fields (objects j)
    | .shared i, .object others => objectsAgree (equalWithin objects depth) (objects i) others
    | .shared i, .shared j =>
      if i = j then some true else objectsAgree (equalWithin objects depth) (objects i) (objects j)
    | .array a, .array b => equalWithin objects depth a b
    | .set a, .set b => equalWithin objects depth a b
    | .tuple elements, .tuple others => elementsAgree (equalWithin objects depth) elements others
    | .map k v, .map l w => do
      if ← equalWithin objects depth k l then equalWithin objects depth v w else return false
    | .optional a, .optional b => equalWithin objects depth a b
    | .nullable a, .nullable b => equalWithin objects depth a b
    | a, b => some (equal a b)

mutual

/-- The number of schemas in a schema. -/
def size : Schema n → Nat
  | .object fields => fieldsSize fields + 1
  | .array element => size element + 1
  | .set element => size element + 1
  | .tuple elements => elementsSize elements + 1
  | .map key value => size key + size value + 1
  | .optional inner => size inner + 1
  | .nullable inner => size inner + 1
  | _ => 1
termination_by structural schema => schema

/-- The number of schemas in a list of fields. -/
def fieldsSize : List (String × Schema n) → Nat
  | [] => 0
  | (_, schema) :: rest => size schema + fieldsSize rest
termination_by structural fields => fields

/-- The number of schemas in a list of elements. -/
def elementsSize : List (Schema n) → Nat
  | [] => 0
  | schema :: rest => size schema + elementsSize rest
termination_by structural elements => elements

end

/-- The number of schemas that a comparison can meet on one side. -/
def reach (objects : Objects n) (schema : Schema n) : Nat :=
  (List.finRange n).foldl (fun total i => total + fieldsSize (objects i)) schema.size

/-- Whether two schemas are equal over a table of shared objects, if the comparison has an end. -/
def equalOver (objects : Objects n) (a b : Schema n) : Option Bool :=
  equalWithin objects (reach objects a * reach objects b + 1) a b

theorem size_pos (schema : Schema n) : 0 < schema.size := by
  cases schema <;> simp [size]

theorem size_le_fieldsSize {fields : List (String × Schema n)} {field : String × Schema n}
    (h : field ∈ fields) : field.2.size ≤ fieldsSize fields := by
  induction fields with
  | nil => cases h
  | cons first rest ih =>
    rcases List.mem_cons.1 h with rfl | hrest
    · exact Nat.le_add_right _ _
    · exact Nat.le_trans (ih hrest) (Nat.le_add_left _ _)

theorem size_le_elementsSize {elements : List (Schema n)} {element : Schema n}
    (h : element ∈ elements) : element.size ≤ elementsSize elements := by
  induction elements with
  | nil => cases h
  | cons first rest ih =>
    rcases List.mem_cons.1 h with rfl | hrest
    · exact Nat.le_add_right _ _
    · exact Nat.le_trans (ih hrest) (Nat.le_add_left _ _)

theorem fieldsAgree_eq {agree : Schema n → Schema n → Option Bool}
    {fields others : List (String × Schema n)}
    (h : ∀ field ∈ fields, ∀ other, agree field.2 other = some (equal field.2 other)) :
    fieldsAgree agree fields others = some (fieldsWithin fields others) := by
  induction fields with
  | nil => rfl
  | cons field rest ih =>
    have hrest := ih fun other hother => h other (List.mem_cons_of_mem _ hother)
    rw [fieldsAgree, fieldsWithin]
    cases others.lookup field.1 with
    | none => rfl
    | some other =>
      have hfirst := h field List.mem_cons_self other
      cases hsame : equal field.2 other <;> simp [hfirst, hrest, hsame]

theorem elementsAgree_eq {agree : Schema n → Schema n → Option Bool}
    {elements others : List (Schema n)}
    (h : ∀ element ∈ elements, ∀ other, agree element other = some (equal element other)) :
    elementsAgree agree elements others = some (elementsEqual elements others) := by
  induction elements generalizing others with
  | nil => cases others <;> rfl
  | cons element rest ih =>
    cases others with
    | nil => rfl
    | cons other others =>
      have hrest : elementsAgree agree rest others = some (elementsEqual rest others) :=
        ih fun other hother => h other (List.mem_cons_of_mem _ hother)
      have hfirst := h element List.mem_cons_self other
      cases hsame : equal element other <;>
        simp [elementsAgree, elementsEqual, hfirst, hrest, hsame]

/-- On a tree, a comparison as deep as the tree is large tells whether the other one is equal. -/
theorem equalWithin_eq {objects : Objects 0} {depth : Nat} {a b : Schema 0} (h : a.size ≤ depth) :
    equalWithin objects depth a b = some (equal a b) := by
  induction depth generalizing a b with
  | zero => exact absurd (size_pos a) (by omega)
  | succ depth ih =>
    cases a with
    | shared i => exact i.elim0
    | object fields =>
      cases b with
      | shared j => exact j.elim0
      | object others =>
        have hfields : ∀ field ∈ fields, ∀ other : Schema 0,
            equalWithin objects depth field.2 other = some (equal field.2 other) :=
          fun field hfield other => ih (by
            have hsize := size_le_fieldsSize hfield
            rw [size] at h
            omega)
        by_cases hlength : fields.length = others.length <;>
          simp [equalWithin, equal, objectsAgree, hlength, fieldsAgree_eq hfields]
      | _ => rfl
    | tuple elements =>
      cases b with
      | tuple others =>
        have helements : ∀ element ∈ elements, ∀ other : Schema 0,
            equalWithin objects depth element other = some (equal element other) :=
          fun element helement other => ih (by
            have hsize := size_le_elementsSize helement
            rw [size] at h
            omega)
        simp [equalWithin, equal, elementsAgree_eq helements]
      | _ => rfl
    | map key value =>
      rw [size] at h
      cases b with
      | map other content =>
        have hkey : equalWithin objects depth key other = some (equal key other) := ih (by omega)
        have hvalue : equalWithin objects depth value content = some (equal value content) :=
          ih (by omega)
        cases hsame : equal key other <;> simp [equalWithin, equal, hkey, hvalue, hsame]
      | _ => rfl
    | array element =>
      rw [size] at h
      cases b with
      | array other => exact ih (by omega)
      | _ => rfl
    | set element =>
      rw [size] at h
      cases b with
      | set other => exact ih (by omega)
      | _ => rfl
    | optional inner =>
      rw [size] at h
      cases b with
      | optional other => exact ih (by omega)
      | _ => rfl
    | nullable inner =>
      rw [size] at h
      cases b with
      | nullable other => exact ih (by omega)
      | _ => rfl
    | _ => cases b <;> rfl

/-- Comparing trees always has an end. -/
theorem equalOver_eq (objects : Objects 0) (a b : Schema 0) :
    equalOver objects a b = some (equal a b) := by
  have hb := size_pos b
  refine equalWithin_eq (Nat.le_succ_of_le ?_)
  have ha : reach objects a = a.size := rfl
  have hreach : reach objects b = b.size := rfl
  rw [ha, hreach]
  exact Nat.le_mul_of_pos_right _ hb

end ProtoSchema.Schema
