import ProtoSchema.Proofs.Schema.Unfolding
import ProtoSchema.Proofs.Visit
import ProtoSchema.Singular.Basic

/-!
# The graph of the objects of a schema

The objects of a schema are the nodes of a graph. One object refers to another under a key if a
field of the first leads to the second through sequences, tuples, maps and layers of optionality
alone. A walk starts at a root and follows references; it enters no object twice.
-/

namespace ProtoSchema.ObjectGraph

variable {n : Nat}

/-- Which object of a graph an object is. -/
inductive ObjectId (n : Nat) where
  /-- The root, if it is not shared. -/
  | root
  /-- The shared object of that number. -/
  | shared (index : Fin n)
  /-- The unshared object that the outer object refers to at that position. -/
  | within (outer : ObjectId n) (position : Nat)
  deriving DecidableEq

namespace ObjectId

/-- The number of the object, if it is shared. -/
def index? : ObjectId n → Option (Fin n)
  | .shared index => some index
  | _ => none

/-- Whether the object stands inside another and is not shared. -/
def isWithin : ObjectId n → Bool
  | .within _ _ => true
  | _ => false

end ObjectId

/-- An object of a graph. -/
structure Node (n : Nat) where
  /-- Which object it is. -/
  id : ObjectId n
  /-- Its fields. -/
  fields : List (String × Schema n)

/-- An object that a field leads to. -/
inductive Target (n : Nat) where
  /-- An object that stands there alone, with its fields. -/
  | unshared (fields : List (String × Schema n))
  /-- The shared object of that number. -/
  | shared (index : Fin n)

/-- The object that a target is for an outer object that leads to it at a position. -/
def Target.node (objects : Objects n) (outer : ObjectId n) (position : Nat) : Target n → Node n
  | .unshared fields => ⟨.within outer position, fields⟩
  | .shared index => ⟨.shared index, objects index⟩

mutual

/-- The objects that a schema leads to through no other object, each with its key, given the key of
the schema. -/
def targets (key : String) : Schema n → List (String × Target n)
  | .object fields => [(key, .unshared fields)]
  | .shared index => [(key, .shared index)]
  | .array element => targets (Singular.singular key) element
  | .set element => targets (Singular.singular key) element
  | .tuple elements => elementTargets key 0 elements
  | .map keys values => targets (key ++ "Key") keys ++ targets (key ++ "Value") values
  | .optional inner => targets key inner
  | .nullable inner => targets key inner
  | _ => []
termination_by structural schema => schema

/-- The objects that the elements of a tuple lead to, from a position on. -/
def elementTargets (key : String) (position : Nat) : List (Schema n) → List (String × Target n)
  | [] => []
  | element :: rest =>
    targets (key ++ "_" ++ toString position) element ++ elementTargets key (position + 1) rest
termination_by structural elements => elements

end

/-- The objects that the fields of an object lead to. -/
def fieldTargets : List (String × Schema n) → List (String × Target n)
  | [] => []
  | (key, schema) :: rest => targets key schema ++ fieldTargets rest

/-- The objects that an object refers to, each with its key. -/
def Node.members (objects : Objects n) (node : Node n) : List (String × Node n) :=
  (fieldTargets node.fields).mapIdx fun position target =>
    (target.1, target.2.node objects node.id position)

/-- Whether one object refers to another. -/
def Refers (objects : Objects n) (node next : Node n) : Prop :=
  ∃ key, (key, next) ∈ node.members objects

/-- The object that a schema is, if it is one. -/
def root? (objects : Objects n) : Schema n → Option (Node n)
  | .object fields => some ⟨.root, fields⟩
  | .shared index => some ⟨.shared index, objects index⟩
  | _ => none

section Members

variable {objects : Objects n} {node next : Node n} {key : String}

/-- An object refers to the targets of its fields, each known by its position among them. -/
theorem mem_members_iff :
    (key, next) ∈ node.members objects ↔
      ∃ (position : Nat) (target : Target n),
        (fieldTargets node.fields)[position]? = some (key, target) ∧
        next = target.node objects node.id position := by
  rw [Node.members, List.mem_mapIdx]
  constructor
  · rintro ⟨position, hposition, hnext⟩
    obtain ⟨rfl, rfl⟩ := Prod.mk.inj hnext
    exact ⟨position, _, List.getElem?_eq_getElem hposition, rfl⟩
  · rintro ⟨position, target, hposition, rfl⟩
    obtain ⟨hlt, hget⟩ := List.getElem?_eq_some_iff.1 hposition
    exact ⟨position, hlt, by rw [hget]⟩

/-- A shared object among the targets of the fields is referred to. -/
theorem mem_members_shared {index : Fin n}
    (h : (key, Target.shared index) ∈ fieldTargets node.fields) :
    (key, ⟨.shared index, objects index⟩) ∈ node.members objects := by
  obtain ⟨position, hposition⟩ := List.mem_iff_getElem?.1 h
  exact mem_members_iff.2 ⟨position, _, hposition, rfl⟩

/-- An unshared object among the targets of the fields is referred to. -/
theorem mem_members_unshared (objects : Objects n) {fields : List (String × Schema n)}
    (h : (key, Target.unshared fields) ∈ fieldTargets node.fields) :
    ∃ position, (key, ⟨.within node.id position, fields⟩) ∈ node.members objects := by
  obtain ⟨position, hposition⟩ := List.mem_iff_getElem?.1 h
  exact ⟨position, mem_members_iff.2 ⟨position, _, hposition, rfl⟩⟩

/-- What is referred to is a shared object or stands right inside the object that refers to it. -/
theorem id_of_mem_members (h : (key, next) ∈ node.members objects) :
    (∃ index, next = ⟨.shared index, objects index⟩ ∧
        (key, Target.shared index) ∈ fieldTargets node.fields) ∨
      ∃ position fields, next = ⟨.within node.id position, fields⟩ ∧
        (key, Target.unshared fields) ∈ fieldTargets node.fields := by
  obtain ⟨position, target, hposition, rfl⟩ := mem_members_iff.1 h
  have hmem := List.mem_of_getElem? hposition
  cases target with
  | unshared fields => exact .inr ⟨position, fields, rfl, hmem⟩
  | shared index => exact .inl ⟨index, rfl, hmem⟩

end Members

section Chain

/-- Whether each object of a chain is referred to, under its key, by the one before it. -/
def Descends (objects : Objects n) : Node n → List (String × Node n) → Prop
  | _, [] => True
  | node, (key, next) :: rest => (key, next) ∈ node.members objects ∧ Descends objects next rest

/-- The objects along a chain. -/
def nodes (root : Node n) (chain : List (String × Node n)) : List (Node n) :=
  root :: chain.map (·.2)

/-- The last object of a chain. -/
def last (root : Node n) : List (String × Node n) → Node n
  | [] => root
  | (_, next) :: rest => last next rest

variable {objects : Objects n} {root node : Node n} {chain : List (String × Node n)} {key : String}

theorem last_append_singleton : last root (chain ++ [(key, node)]) = node := by
  induction chain generalizing root with
  | nil => rfl
  | cons entry rest ih => exact ih

theorem nodes_append_singleton :
    nodes root (chain ++ [(key, node)]) = nodes root chain ++ [node] := by
  simp [nodes]

/-- A chain can be continued by what its last object refers to. -/
theorem descends_append_singleton :
    Descends objects root (chain ++ [(key, node)]) ↔
      Descends objects root chain ∧ (key, node) ∈ (last root chain).members objects := by
  induction chain generalizing root with
  | nil => simp [Descends, last]
  | cons entry rest ih =>
    obtain ⟨other, next⟩ := entry
    rw [List.cons_append, Descends, Descends, last, ih, and_assoc]

/-- The last object stands at the end of a chain. -/
theorem exists_nodes_eq (root : Node n) (chain : List (String × Node n)) :
    ∃ before, nodes root chain = before ++ [last root chain] := by
  rcases List.eq_nil_or_concat chain with rfl | ⟨rest, ⟨key, node⟩, rfl⟩
  · exact ⟨[], rfl⟩
  · rw [List.concat_eq_append, nodes_append_singleton, last_append_singleton]
    exact ⟨_, rfl⟩

/-- Every object of a chain leads to the last one. -/
theorem reflTransGen_last (h : Descends objects root chain) (hnode : node ∈ nodes root chain) :
    Relation.ReflTransGen (Refers objects) node (last root chain) := by
  induction chain generalizing root node with
  | nil =>
    rw [List.mem_singleton.1 hnode]
    exact .refl
  | cons entry rest ih =>
    obtain ⟨key, next⟩ := entry
    rcases List.mem_cons.1 hnode with rfl | hrest
    · exact .head ⟨key, h.1⟩ (ih h.2 List.mem_cons_self)
    · exact ih h.2 hrest

/-- Every object of a chain is reached from the root. -/
theorem reflTransGen_root (h : Descends objects root chain) (hnode : node ∈ nodes root chain) :
    Relation.ReflTransGen (Refers objects) root node := by
  induction chain generalizing root with
  | nil =>
    rw [List.mem_singleton.1 hnode]
  | cons entry rest ih =>
    obtain ⟨key, next⟩ := entry
    rcases List.mem_cons.1 hnode with rfl | hrest
    · exact .refl
    · exact .head ⟨key, h.1⟩ (ih h.2 hrest)

/-- An object of a chain to which the last one refers is reached from itself. -/
theorem transGen_of_mem_nodes (h : Descends objects root chain)
    (hmem : (key, node) ∈ (last root chain).members objects) (hnode : node ∈ nodes root chain) :
    Relation.TransGen (Refers objects) node node :=
  .tail' (reflTransGen_last h hnode) ⟨key, hmem⟩

/-- An object that stands inside another comes right after the other. -/
theorem outer_mem_dropLast (h : Descends objects root chain) {outer : ObjectId n} {position : Nat}
    (hmem : ObjectId.within outer position ∈ (chain.map (·.2)).map (·.id)) :
    outer ∈ ((nodes root chain).map (·.id)).dropLast := by
  induction chain generalizing root with
  | nil => cases hmem
  | cons entry rest ih =>
    obtain ⟨key, next⟩ := entry
    have hdropLast : ((nodes root ((key, next) :: rest)).map (·.id)).dropLast =
        root.id :: ((nodes next rest).map (·.id)).dropLast := rfl
    rw [hdropLast]
    -- it is the second object of the chain, which stands right inside the first, or a later one
    rcases List.mem_cons.1 hmem with hnext | hrest
    · rcases id_of_mem_members h.1 with ⟨index, rfl, -⟩ | ⟨place, fields, rfl, -⟩
      · cases hnext
      · cases hnext
        exact List.mem_cons_self
    · exact List.mem_cons_of_mem _ (ih h.2 hrest)

end Chain

/-- A chain from a root that enters no object twice. -/
structure Walk (objects : Objects n) (root : Node n) (chain : List (String × Node n)) : Prop where
  /-- Each object is referred to by the one before it. -/
  descends : Descends objects root chain
  /-- The objects are different ones. -/
  nodup : ((nodes root chain).map (·.id)).Nodup

namespace Walk

variable {objects : Objects n} {root : Node n} {chain : List (String × Node n)} {key : String}

/-- A walk starts at its root. -/
theorem start (root : Node n) : Walk objects root [] :=
  ⟨trivial, List.pairwise_singleton _ _⟩

/-- A walk can go on to an object that it has not entered. -/
theorem enter (h : Walk objects root chain) {node : Node n}
    (hmem : (key, node) ∈ (last root chain).members objects)
    (hnew : node.id ∉ (nodes root chain).map (·.id)) :
    Walk objects root (chain ++ [(key, node)]) where
  descends := descends_append_singleton.2 ⟨h.descends, hmem⟩
  nodup := by
    rw [nodes_append_singleton, List.map_append, List.nodup_append]
    refine ⟨h.nodup, List.pairwise_singleton _ _, ?_⟩
    intro a ha b hb hab
    rw [List.map_singleton, List.mem_singleton] at hb
    rw [hab, hb] at ha
    exact hnew ha

/-- A walk has never entered an unshared object that its last object refers to. -/
theorem unshared_not_mem (h : Walk objects root chain) (hroot : root.id.isWithin = false)
    (position : Nat) :
    ObjectId.within (last root chain).id position ∉ (nodes root chain).map (·.id) := by
  intro hmem
  rcases List.mem_cons.1 hmem with hfirst | hrest
  · have hid : root.id = .within (last root chain).id position := hfirst.symm
    rw [hid] at hroot
    cases hroot
  · have hlast := outer_mem_dropLast h.descends hrest
    obtain ⟨before, hnodes⟩ := exists_nodes_eq root chain
    have hnodup := h.nodup
    rw [hnodes, List.map_append, List.map_singleton] at hlast hnodup
    rw [List.dropLast_concat] at hlast
    exact (List.nodup_append.1 hnodup).2.2 _ hlast _ List.mem_cons_self rfl

end Walk

/-- An object has the fields of its number, if it is shared. -/
def IsOf (objects : Objects n) (node : Node n) : Prop :=
  ∀ index, node.id = .shared index → node.fields = objects index

/-- What an object refers to has the fields of its number, if it is shared. -/
theorem isOf_of_mem_members {objects : Objects n} {node next : Node n} {key : String}
    (h : (key, next) ∈ node.members objects) : IsOf objects next := by
  intro index hindex
  rcases id_of_mem_members h with ⟨other, rfl, -⟩ | ⟨position, fields, rfl, -⟩
  · cases hindex
    rfl
  · cases hindex

/-- Every object of a chain has the fields of its number, if it is shared. -/
theorem isOf_of_mem_nodes {objects : Objects n} {root node : Node n}
    {chain : List (String × Node n)} (hroot : IsOf objects root)
    (h : Descends objects root chain) (hnode : node ∈ nodes root chain) : IsOf objects node := by
  induction chain generalizing root with
  | nil =>
    rw [List.mem_singleton.1 hnode]
    exact hroot
  | cons entry rest ih =>
    obtain ⟨key, next⟩ := entry
    rcases List.mem_cons.1 hnode with rfl | hrest
    · exact hroot
    · exact ih (isOf_of_mem_members h.1) h.2 hrest

/-- A shared object is the same wherever it stands on a chain. -/
theorem mem_nodes_of_shared {objects : Objects n} {root : Node n} {chain : List (String × Node n)}
    (hroot : IsOf objects root) (h : Descends objects root chain) {index : Fin n}
    (hmem : ObjectId.shared index ∈ (nodes root chain).map (·.id)) :
    (⟨.shared index, objects index⟩ : Node n) ∈ nodes root chain := by
  obtain ⟨node, hnode, hid⟩ := List.mem_map.1 hmem
  have hfields := isOf_of_mem_nodes hroot h hnode index hid
  rw [← hfields, ← hid]
  exact hnode

/-- A root has the fields of its number, if it is shared. -/
theorem isOf_of_root? {objects : Objects n} {schema : Schema n} {root : Node n}
    (h : root? objects schema = some root) : IsOf objects root := by
  cases schema with
  | object fields =>
    cases h
    intro index hindex
    cases hindex
  | shared index =>
    cases h
    intro other hother
    cases hother
    rfl
  | _ => cases h

/-- A root stands inside no other object. -/
theorem isWithin_of_root? {objects : Objects n} {schema : Schema n} {root : Node n}
    (h : root? objects schema = some root) : root.id.isWithin = false := by
  cases schema with
  | object fields =>
    cases h
    rfl
  | shared index =>
    cases h
    rfl
  | _ => cases h

section Size

/-- Whether a target is a part of something of a size with references: an unshared object is smaller
and has no further references, and a shared one is among the references. -/
def Target.IsPartOf (references : List (Fin n)) (size : Nat) : Target n → Prop
  | .unshared fields =>
    sizeOf fields < size ∧ ∀ index ∈ Schema.fieldReferences fields, index ∈ references
  | .shared index => index ∈ references

/-- Targets that are all parts of something of a size with references. -/
def PartsOf (targets : List (String × Target n)) (references : List (Fin n)) (size : Nat) : Prop :=
  ∀ entry ∈ targets, entry.2.IsPartOf references size

/-- Parts of something are parts of anything larger that has its references. -/
theorem PartsOf.mono {targets : List (String × Target n)} {references more : List (Fin n)}
    {size larger : Nat} (h : PartsOf targets references size) (hsize : size ≤ larger)
    (hsub : ∀ index ∈ references, index ∈ more) : PartsOf targets more larger := by
  rintro ⟨key, target⟩ hentry
  have hpart := h _ hentry
  cases target with
  | unshared fields =>
    exact ⟨Nat.lt_of_lt_of_le hpart.1 hsize, fun index hindex => hsub index (hpart.2 index hindex)⟩
  | shared index => exact hsub index hpart

/-- The parts of two things are parts of what holds both. -/
theorem PartsOf.append {targets moreTargets : List (String × Target n)}
    {references more : List (Fin n)} {size moreSize larger : Nat}
    (h : PartsOf targets references size) (hmore : PartsOf moreTargets more moreSize)
    (hsize : size + moreSize ≤ larger) :
    PartsOf (targets ++ moreTargets) (references ++ more) larger := by
  have hfirst : PartsOf targets (references ++ more) larger :=
    h.mono (by omega) fun _ hindex => List.mem_append_left _ hindex
  have hsecond : PartsOf moreTargets (references ++ more) larger :=
    hmore.mono (by omega) fun _ hindex => List.mem_append_right _ hindex
  intro entry hentry
  rcases List.mem_append.1 hentry with hleft | hright
  · exact hfirst entry hleft
  · exact hsecond entry hright

theorem partsOf_nil (references : List (Fin n)) (size : Nat) : PartsOf [] references size := by
  intro entry hentry
  cases hentry

mutual

/-- The objects that a schema leads to are parts of the schema. -/
theorem partsOf_targets (key : String) : ∀ schema : Schema n,
    PartsOf (targets key schema) schema.references (sizeOf schema)
  | .object fields => by
    intro entry hentry
    rw [targets, List.mem_singleton] at hentry
    subst hentry
    refine ⟨?_, fun index hindex => hindex⟩
    rw [Schema.object.sizeOf_spec]
    omega
  | .shared index => by
    intro entry hentry
    rw [targets, List.mem_singleton] at hentry
    subst hentry
    exact List.mem_cons_self
  | .array element =>
    (partsOf_targets _ element).mono (by rw [Schema.array.sizeOf_spec]; omega) fun _ h => h
  | .set element =>
    (partsOf_targets _ element).mono (by rw [Schema.set.sizeOf_spec]; omega) fun _ h => h
  | .tuple elements =>
    (partsOf_elementTargets key 0 elements).mono (by rw [Schema.tuple.sizeOf_spec]; omega)
      fun _ h => h
  | .map keys values =>
    (partsOf_targets _ keys).append (partsOf_targets _ values)
      (by rw [Schema.map.sizeOf_spec]; omega)
  | .optional inner =>
    (partsOf_targets _ inner).mono (by rw [Schema.optional.sizeOf_spec]; omega) fun _ h => h
  | .nullable inner =>
    (partsOf_targets _ inner).mono (by rw [Schema.nullable.sizeOf_spec]; omega) fun _ h => h
  | .string => partsOf_nil _ _
  | .date => partsOf_nil _ _
  | .boolean => partsOf_nil _ _
  | .bigInt => partsOf_nil _ _
  | .number _ => partsOf_nil _ _
  | .enumeration _ => partsOf_nil _ _
  | .unknown _ => partsOf_nil _ _
  | .foreign _ => partsOf_nil _ _
termination_by structural schema => schema

theorem partsOf_elementTargets (key : String) : ∀ (position : Nat) (elements : List (Schema n)),
    PartsOf (elementTargets key position elements) (Schema.elementReferences elements)
      (sizeOf elements)
  | _, [] => partsOf_nil _ _
  | position, element :: rest =>
    (partsOf_targets _ element).append (partsOf_elementTargets key (position + 1) rest)
      (by rw [List.cons.sizeOf_spec]; omega)
termination_by structural _ elements => elements

end

/-- The objects that the fields of an object lead to are parts of the fields. -/
theorem partsOf_fieldTargets (fields : List (String × Schema n)) :
    PartsOf (fieldTargets fields) (Schema.fieldReferences fields) (sizeOf fields) := by
  induction fields with
  | nil => exact partsOf_nil _ _
  | cons entry rest ih =>
    obtain ⟨key, schema⟩ := entry
    refine (partsOf_targets key schema).append ih ?_
    rw [List.cons.sizeOf_spec, Prod.mk.sizeOf_spec]
    omega

end Size

/-- Every walk from an object comes to an end if every walk from a shared object that it refers to
does. -/
theorem acc_of_references {objects : Objects n} (id : ObjectId n)
    (fields : List (String × Schema n))
    (h : ∀ index ∈ Schema.fieldReferences fields,
      Acc (fun next before => Refers objects before next) ⟨.shared index, objects index⟩) :
    Acc (fun next before => Refers objects before next) ⟨id, fields⟩ := by
  constructor
  rintro next ⟨key, hmem⟩
  rcases id_of_mem_members hmem with ⟨index, rfl, htarget⟩ | ⟨position, inner, rfl, htarget⟩
  · exact h index (partsOf_fieldTargets fields _ htarget)
  · obtain ⟨hsize, hreferences⟩ := partsOf_fieldTargets fields _ htarget
    exact acc_of_references (.within id position) inner fun index hindex =>
      h index (hreferences index hindex)
termination_by sizeOf fields

end ProtoSchema.ObjectGraph
