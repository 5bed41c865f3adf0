import ProtoSchema.Proofs.Schema.Position
import ProtoSchema.Schema.Sharing

/-!
# Unfolding a graph into a tree

A schema over shared objects unfolds into a finite tree by one rule for each kind of schema, where
the tree of a reference is the tree of the object that it names. The rules describe exactly what the
expansion computes. Unfolding keeps the kind of a schema and goes through layers of optionality.
-/

namespace ProtoSchema.Schema

open ProtoSchema.Visit (unvisited unvisited_lt)

variable {n : Nat}

mutual

/-- A schema unfolds into a tree, given the trees of the shared objects. -/
inductive Unfolds (tree? : Fin n → Option (Schema 0)) : Schema n → Schema 0 → Prop where
  | object {fields trees} :
    UnfoldsFields tree? fields trees → Unfolds tree? (.object fields) (.object trees)
  | shared {index tree} : tree? index = some tree → Unfolds tree? (.shared index) tree
  | string : Unfolds tree? .string .string
  | boolean : Unfolds tree? .boolean .boolean
  | date : Unfolds tree? .date .date
  | bigInt : Unfolds tree? .bigInt .bigInt
  | number (integral) : Unfolds tree? (.number integral) (.number integral)
  | enumeration (options) : Unfolds tree? (.enumeration options) (.enumeration options)
  | array {element tree} : Unfolds tree? element tree → Unfolds tree? (.array element) (.array tree)
  | set {element tree} : Unfolds tree? element tree → Unfolds tree? (.set element) (.set tree)
  | tuple {elements trees} :
    UnfoldsElements tree? elements trees → Unfolds tree? (.tuple elements) (.tuple trees)
  | map {key value keyTree valueTree} : Unfolds tree? key keyTree → Unfolds tree? value valueTree →
    Unfolds tree? (.map key value) (.map keyTree valueTree)
  | optional {inner tree} :
    Unfolds tree? inner tree → Unfolds tree? (.optional inner) (.optional tree)
  | nullable {inner tree} :
    Unfolds tree? inner tree → Unfolds tree? (.nullable inner) (.nullable tree)
  | unknown (kind) : Unfolds tree? (.unknown kind) (.unknown kind)
  | foreign (value) : Unfolds tree? (.foreign value) (.foreign value)

/-- The fields of an object unfold one by one. -/
inductive UnfoldsFields (tree? : Fin n → Option (Schema 0)) :
    List (String × Schema n) → List (String × Schema 0) → Prop where
  | nil : UnfoldsFields tree? [] []
  | cons {name schema tree rest trees} :
    Unfolds tree? schema tree → UnfoldsFields tree? rest trees →
    UnfoldsFields tree? ((name, schema) :: rest) ((name, tree) :: trees)

/-- The elements of a tuple unfold one by one. -/
inductive UnfoldsElements (tree? : Fin n → Option (Schema 0)) :
    List (Schema n) → List (Schema 0) → Prop where
  | nil : UnfoldsElements tree? [] []
  | cons {schema tree rest trees} : Unfolds tree? schema tree → UnfoldsElements tree? rest trees →
    UnfoldsElements tree? (schema :: rest) (tree :: trees)

end

section Expansion

variable {tree? : Fin n → Option (Schema 0)}

mutual

/-- What the expansion computes is an unfolding. -/
theorem unfolds_of_expandWith : ∀ {schema : Schema n} {tree : Schema 0},
    expandWith tree? schema = some tree → Unfolds tree? schema tree
  | .object fields, _, h => by
    rw [expandWith, Option.map_eq_some_iff] at h
    obtain ⟨trees, htrees, rfl⟩ := h
    exact .object (unfoldsFields_of_expandFields htrees)
  | .shared index, _, h => .shared h
  | .string, _, h => by cases h; exact .string
  | .boolean, _, h => by cases h; exact .boolean
  | .date, _, h => by cases h; exact .date
  | .bigInt, _, h => by cases h; exact .bigInt
  | .number integral, _, h => by cases h; exact .number integral
  | .enumeration options, _, h => by cases h; exact .enumeration options
  | .array element, _, h => by
    rw [expandWith, Option.map_eq_some_iff] at h
    obtain ⟨tree, htree, rfl⟩ := h
    exact .array (unfolds_of_expandWith htree)
  | .set element, _, h => by
    rw [expandWith, Option.map_eq_some_iff] at h
    obtain ⟨tree, htree, rfl⟩ := h
    exact .set (unfolds_of_expandWith htree)
  | .tuple elements, _, h => by
    rw [expandWith, Option.map_eq_some_iff] at h
    obtain ⟨trees, htrees, rfl⟩ := h
    exact .tuple (unfoldsElements_of_expandElements htrees)
  | .map key value, _, h => by
    simp only [expandWith, Option.bind_eq_bind, Option.bind_eq_some_iff, Option.pure_def,
      Option.some.injEq] at h
    obtain ⟨keyTree, hkey, valueTree, hvalue, rfl⟩ := h
    exact .map (unfolds_of_expandWith hkey) (unfolds_of_expandWith hvalue)
  | .optional inner, _, h => by
    rw [expandWith, Option.map_eq_some_iff] at h
    obtain ⟨tree, htree, rfl⟩ := h
    exact .optional (unfolds_of_expandWith htree)
  | .nullable inner, _, h => by
    rw [expandWith, Option.map_eq_some_iff] at h
    obtain ⟨tree, htree, rfl⟩ := h
    exact .nullable (unfolds_of_expandWith htree)
  | .unknown kind, _, h => by cases h; exact .unknown kind
  | .foreign value, _, h => by cases h; exact .foreign value
termination_by structural schema => schema

theorem unfoldsFields_of_expandFields : ∀ {fields : List (String × Schema n)}
    {trees : List (String × Schema 0)},
    expandFields tree? fields = some trees → UnfoldsFields tree? fields trees
  | [], _, h => by cases h; exact .nil
  | (name, schema) :: rest, _, h => by
    simp only [expandFields, Option.bind_eq_bind, Option.bind_eq_some_iff, Option.pure_def,
      Option.some.injEq] at h
    obtain ⟨tree, htree, trees, htrees, rfl⟩ := h
    exact .cons (unfolds_of_expandWith htree) (unfoldsFields_of_expandFields htrees)
termination_by structural fields => fields

theorem unfoldsElements_of_expandElements : ∀ {elements : List (Schema n)}
    {trees : List (Schema 0)},
    expandElements tree? elements = some trees → UnfoldsElements tree? elements trees
  | [], _, h => by cases h; exact .nil
  | schema :: rest, _, h => by
    simp only [expandElements, Option.bind_eq_bind, Option.bind_eq_some_iff, Option.pure_def,
      Option.some.injEq] at h
    obtain ⟨tree, htree, trees, htrees, rfl⟩ := h
    exact .cons (unfolds_of_expandWith htree) (unfoldsElements_of_expandElements htrees)
termination_by structural elements => elements

end

mutual

/-- The expansion computes every unfolding. -/
theorem expandWith_of_unfolds : ∀ {schema : Schema n} {tree : Schema 0},
    Unfolds tree? schema tree → expandWith tree? schema = some tree
  | _, _, .object h => by simp [expandWith, expandFields_of_unfoldsFields h]
  | _, _, .shared h => h
  | _, _, .string => rfl
  | _, _, .boolean => rfl
  | _, _, .date => rfl
  | _, _, .bigInt => rfl
  | _, _, .number _ => rfl
  | _, _, .enumeration _ => rfl
  | _, _, .array h => by simp [expandWith, expandWith_of_unfolds h]
  | _, _, .set h => by simp [expandWith, expandWith_of_unfolds h]
  | _, _, .tuple h => by simp [expandWith, expandElements_of_unfoldsElements h]
  | _, _, .map hkey hvalue => by
    simp [expandWith, expandWith_of_unfolds hkey, expandWith_of_unfolds hvalue]
  | _, _, .optional h => by simp [expandWith, expandWith_of_unfolds h]
  | _, _, .nullable h => by simp [expandWith, expandWith_of_unfolds h]
  | _, _, .unknown _ => rfl
  | _, _, .foreign _ => rfl

theorem expandFields_of_unfoldsFields : ∀ {fields : List (String × Schema n)}
    {trees : List (String × Schema 0)},
    UnfoldsFields tree? fields trees → expandFields tree? fields = some trees
  | _, _, .nil => rfl
  | _, _, .cons hfirst hrest => by
    simp [expandFields, expandWith_of_unfolds hfirst, expandFields_of_unfoldsFields hrest]

theorem expandElements_of_unfoldsElements : ∀ {elements : List (Schema n)}
    {trees : List (Schema 0)},
    UnfoldsElements tree? elements trees → expandElements tree? elements = some trees
  | _, _, .nil => rfl
  | _, _, .cons hfirst hrest => by
    simp [expandElements, expandWith_of_unfolds hfirst, expandElements_of_unfoldsElements hrest]

end

/-- The expansion computes exactly the unfoldings. -/
theorem expandWith_eq_some_iff {schema : Schema n} {tree : Schema 0} :
    expandWith tree? schema = some tree ↔ Unfolds tree? schema tree :=
  ⟨unfolds_of_expandWith, expandWith_of_unfolds⟩

/-- A stripped schema unfolds into the stripped tree. -/
theorem Unfolds.strip (hobject : ∀ index tree, tree? index = some tree → tree.isWrapped = false) :
    ∀ {schema : Schema n} {tree : Schema 0},
      Unfolds tree? schema tree → Unfolds tree? schema.strip tree.strip
  | _, _, .optional h => h.strip hobject
  | _, _, .nullable h => h.strip hobject
  | _, _, .shared h => by
    rw [strip_of_not_isWrapped (hobject _ _ h)]
    exact .shared h
  | _, _, .object h => .object h
  | _, _, .string => .string
  | _, _, .boolean => .boolean
  | _, _, .date => .date
  | _, _, .bigInt => .bigInt
  | _, _, .number integral => .number integral
  | _, _, .enumeration options => .enumeration options
  | _, _, .array h => .array h
  | _, _, .set h => .set h
  | _, _, .tuple h => .tuple h
  | _, _, .map hkey hvalue => .map hkey hvalue
  | _, _, .unknown kind => .unknown kind
  | _, _, .foreign value => .foreign value

end Expansion

mutual

/-- The shared objects that a schema refers to, those of the objects that it refers to left out. -/
def references : Schema n → List (Fin n)
  | .object fields => fieldReferences fields
  | .shared index => [index]
  | .array element => references element
  | .set element => references element
  | .tuple elements => elementReferences elements
  | .map key value => references key ++ references value
  | .optional inner => references inner
  | .nullable inner => references inner
  | _ => []
termination_by structural schema => schema

/-- The shared objects that the fields of an object refer to. -/
def fieldReferences : List (String × Schema n) → List (Fin n)
  | [] => []
  | (_, schema) :: rest => references schema ++ fieldReferences rest
termination_by structural fields => fields

/-- The shared objects that the elements of a tuple refer to. -/
def elementReferences : List (Schema n) → List (Fin n)
  | [] => []
  | schema :: rest => references schema ++ elementReferences rest
termination_by structural elements => elements

end

section References

variable {tree? : Fin n → Option (Schema 0)}

mutual

/-- A schema unfolds if every shared object that it refers to has a tree. -/
theorem exists_unfolds : ∀ {schema : Schema n},
    (∀ index ∈ schema.references, ∃ tree, tree? index = some tree) →
      ∃ tree, Unfolds tree? schema tree
  | .optional inner, h => by
    obtain ⟨tree, htree⟩ : ∃ tree, Unfolds tree? inner tree := exists_unfolds h
    exact ⟨_, .optional htree⟩
  | .nullable inner, h => by
    obtain ⟨tree, htree⟩ : ∃ tree, Unfolds tree? inner tree := exists_unfolds h
    exact ⟨_, .nullable htree⟩
  | .array element, h => by
    obtain ⟨tree, htree⟩ : ∃ tree, Unfolds tree? element tree := exists_unfolds h
    exact ⟨_, .array htree⟩
  | .set element, h => by
    obtain ⟨tree, htree⟩ : ∃ tree, Unfolds tree? element tree := exists_unfolds h
    exact ⟨_, .set htree⟩
  | .map key value, h => by
    rw [references, List.forall_mem_append] at h
    obtain ⟨keyTree, hkey⟩ := exists_unfolds h.1
    obtain ⟨valueTree, hvalue⟩ := exists_unfolds h.2
    exact ⟨_, .map hkey hvalue⟩
  | .object fields, h => by
    obtain ⟨trees, htrees⟩ := exists_unfoldsFields h
    exact ⟨_, .object htrees⟩
  | .shared index, h => by
    obtain ⟨tree, htree⟩ := h index List.mem_cons_self
    exact ⟨tree, .shared htree⟩
  | .tuple elements, h => by
    obtain ⟨trees, htrees⟩ := exists_unfoldsElements h
    exact ⟨_, .tuple htrees⟩
  | .enumeration options, _ => ⟨_, .enumeration options⟩
  | .string, _ => ⟨_, .string⟩
  | .date, _ => ⟨_, .date⟩
  | .boolean, _ => ⟨_, .boolean⟩
  | .bigInt, _ => ⟨_, .bigInt⟩
  | .number integral, _ => ⟨_, .number integral⟩
  | .unknown kind, _ => ⟨_, .unknown kind⟩
  | .foreign value, _ => ⟨_, .foreign value⟩
termination_by structural schema => schema

theorem exists_unfoldsFields : ∀ {fields : List (String × Schema n)},
    (∀ index ∈ fieldReferences fields, ∃ tree, tree? index = some tree) →
      ∃ trees, UnfoldsFields tree? fields trees
  | [], _ => ⟨[], .nil⟩
  | (name, schema) :: rest, h => by
    rw [fieldReferences, List.forall_mem_append] at h
    obtain ⟨tree, htree⟩ := exists_unfolds h.1
    obtain ⟨trees, htrees⟩ := exists_unfoldsFields h.2
    exact ⟨_, .cons htree htrees⟩
termination_by structural fields => fields

theorem exists_unfoldsElements : ∀ {elements : List (Schema n)},
    (∀ index ∈ elementReferences elements, ∃ tree, tree? index = some tree) →
      ∃ trees, UnfoldsElements tree? elements trees
  | [], _ => ⟨[], .nil⟩
  | schema :: rest, h => by
    rw [elementReferences, List.forall_mem_append] at h
    obtain ⟨tree, htree⟩ := exists_unfolds h.1
    obtain ⟨trees, htrees⟩ := exists_unfoldsElements h.2
    exact ⟨_, .cons htree htrees⟩
termination_by structural elements => elements

end

/-- A schema unfolds if its stripped form does. -/
theorem exists_unfolds_of_strip {schema : Schema n} {tree : Schema 0}
    (h : Unfolds tree? schema.strip tree) : ∃ whole, Unfolds tree? schema whole := by
  induction schema using Schema.strip.induct with
  | case1 inner ih =>
    obtain ⟨whole, hwhole⟩ := ih h
    exact ⟨_, .optional hwhole⟩
  | case2 inner ih =>
    obtain ⟨whole, hwhole⟩ := ih h
    exact ⟨_, .nullable hwhole⟩
  | case3 schema h1 h2 =>
    have hwrapped : schema.isWrapped = false := by
      cases schema with
      | optional inner => exact absurd rfl (h1 inner)
      | nullable inner => exact absurd rfl (h2 inner)
      | _ => rfl
    rw [strip_of_not_isWrapped hwrapped] at h
    exact ⟨tree, h⟩

end References

section Monotone

variable {tree? wider? : Fin n → Option (Schema 0)}

mutual

/-- A schema unfolds into the same tree when the shared objects that it refers to keep their
trees. -/
theorem Unfolds.mono : ∀ {schema : Schema n} {tree : Schema 0},
    (∀ index ∈ schema.references, ∀ tree, tree? index = some tree → wider? index = some tree) →
      Unfolds tree? schema tree → Unfolds wider? schema tree
  | _, _, hwider, .object h => .object (UnfoldsFields.mono hwider h)
  | _, _, hwider, .shared h => .shared (hwider _ List.mem_cons_self _ h)
  | _, _, _, .string => .string
  | _, _, _, .boolean => .boolean
  | _, _, _, .date => .date
  | _, _, _, .bigInt => .bigInt
  | _, _, _, .number integral => .number integral
  | _, _, _, .enumeration options => .enumeration options
  | _, _, hwider, .array h => .array (Unfolds.mono hwider h)
  | _, _, hwider, .set h => .set (Unfolds.mono hwider h)
  | _, _, hwider, .tuple h => .tuple (UnfoldsElements.mono hwider h)
  | _, _, hwider, .map hkey hvalue =>
    .map (Unfolds.mono (fun index hindex => hwider index (List.mem_append_left _ hindex)) hkey)
      (Unfolds.mono (fun index hindex => hwider index (List.mem_append_right _ hindex)) hvalue)
  | _, _, hwider, .optional h => .optional (Unfolds.mono hwider h)
  | _, _, hwider, .nullable h => .nullable (Unfolds.mono hwider h)
  | _, _, _, .unknown kind => .unknown kind
  | _, _, _, .foreign value => .foreign value

theorem UnfoldsFields.mono : ∀ {fields : List (String × Schema n)}
    {trees : List (String × Schema 0)},
    (∀ index ∈ fieldReferences fields, ∀ tree,
        tree? index = some tree → wider? index = some tree) →
      UnfoldsFields tree? fields trees → UnfoldsFields wider? fields trees
  | _, _, _, .nil => .nil
  | _, _, hwider, .cons hfirst hrest =>
    .cons (Unfolds.mono (fun index hindex => hwider index (List.mem_append_left _ hindex)) hfirst)
      (UnfoldsFields.mono (fun index hindex => hwider index (List.mem_append_right _ hindex)) hrest)

theorem UnfoldsElements.mono : ∀ {elements : List (Schema n)} {trees : List (Schema 0)},
    (∀ index ∈ elementReferences elements, ∀ tree,
        tree? index = some tree → wider? index = some tree) →
      UnfoldsElements tree? elements trees → UnfoldsElements wider? elements trees
  | _, _, _, .nil => .nil
  | _, _, hwider, .cons hfirst hrest =>
    .cons (Unfolds.mono (fun index hindex => hwider index (List.mem_append_left _ hindex)) hfirst)
      (UnfoldsElements.mono (fun index hindex => hwider index (List.mem_append_right _ hindex))
        hrest)

end

end Monotone

section Shared

variable {objects : Objects n}

/-- A shared object has a tree exactly if it is not entered yet and its fields unfold inside it. -/
theorem expandShared_eq_some_iff {path : List (Fin n)} {index : Fin n} {tree : Schema 0} :
    expandShared objects path index = some tree ↔
      index ∉ path ∧ ∃ trees, tree = .object trees ∧
        UnfoldsFields (expandShared objects (index :: path)) (objects index) trees := by
  rw [expandShared]
  split
  · rename_i hentered
    simp [hentered]
  · rename_i hfresh
    constructor
    · intro h
      obtain ⟨trees, htrees, rfl⟩ := Option.map_eq_some_iff.1 h
      exact ⟨hfresh, trees, rfl, unfoldsFields_of_expandFields htrees⟩
    · rintro ⟨-, trees, rfl, htrees⟩
      rw [expandFields_of_unfoldsFields htrees]
      rfl

/-- The tree of a shared object does not change when fewer objects are entered before it. -/
theorem expandShared_mono {path shorter : List (Fin n)} (hsub : ∀ i ∈ shorter, i ∈ path)
    {index : Fin n} {tree : Schema 0} (h : expandShared objects path index = some tree) :
    expandShared objects shorter index = some tree := by
  obtain ⟨hfresh, trees, rfl, htrees⟩ := expandShared_eq_some_iff.1 h
  have hinside : ∀ i ∈ index :: shorter, i ∈ index :: path := by
    intro i hi
    rcases List.mem_cons.1 hi with rfl | hshorter
    · exact List.mem_cons_self
    · exact List.mem_cons_of_mem _ (hsub i hshorter)
  exact expandShared_eq_some_iff.2 ⟨fun hmem => hfresh (hsub index hmem), trees, rfl,
    htrees.mono fun other _ tree hother => expandShared_mono hinside hother⟩
termination_by unvisited path
decreasing_by
  exact unvisited_lt (fun j hj => List.mem_cons_of_mem _ hj) List.mem_cons_self hfresh

/-- The tree of a shared object is an object without layers of optionality. -/
theorem isWrapped_of_expandShared {path : List (Fin n)} {index : Fin n} {tree : Schema 0}
    (h : expandShared objects path index = some tree) : tree.isWrapped = false := by
  obtain ⟨-, trees, rfl, -⟩ := expandShared_eq_some_iff.1 h
  rfl

end Shared

section Tree

variable (tree? : Fin 0 → Option (Schema 0))

mutual

/-- A tree stands for itself. -/
theorem expandWith_tree : ∀ tree : Schema 0, expandWith tree? tree = some tree
  | .object fields => by rw [expandWith, expandFields_tree fields, Option.map_some]
  | .shared index => index.elim0
  | .array element => by rw [expandWith, expandWith_tree element, Option.map_some]
  | .set element => by rw [expandWith, expandWith_tree element, Option.map_some]
  | .tuple elements => by rw [expandWith, expandElements_tree elements, Option.map_some]
  | .map key value => by
    rw [expandWith, expandWith_tree key, expandWith_tree value]
    rfl
  | .optional inner => by rw [expandWith, expandWith_tree inner, Option.map_some]
  | .nullable inner => by rw [expandWith, expandWith_tree inner, Option.map_some]
  | .string => rfl
  | .boolean => rfl
  | .date => rfl
  | .bigInt => rfl
  | .number _ => rfl
  | .enumeration _ => rfl
  | .unknown _ => rfl
  | .foreign _ => rfl
termination_by structural tree => tree

theorem expandFields_tree : ∀ fields : List (String × Schema 0),
    expandFields tree? fields = some fields
  | [] => rfl
  | (name, tree) :: rest => by
    rw [expandFields, expandWith_tree tree, expandFields_tree rest]
    rfl
termination_by structural fields => fields

theorem expandElements_tree : ∀ elements : List (Schema 0),
    expandElements tree? elements = some elements
  | [] => rfl
  | tree :: rest => by
    rw [expandElements, expandWith_tree tree, expandElements_tree rest]
    rfl
termination_by structural elements => elements

end

/-- The expansion of a tree is the tree. -/
theorem expand_tree (objects : Objects 0) (tree : Schema 0) : tree.expand objects = some tree :=
  expandWith_tree _ tree

end Tree

end ProtoSchema.Schema
