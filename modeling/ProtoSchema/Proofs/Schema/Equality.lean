import Mathlib.Data.List.Perm.Subperm
import ProtoSchema.Proofs.Compile.Numbering
import ProtoSchema.Proofs.Schema.Acyclic
import ProtoSchema.Proofs.Schema.Alike
import ProtoSchema.Schema.Equality

/-!
# Equal schemas stand for alike trees

A comparison that finds two schemas equal has compared them layer by layer: objects by their fields,
wherever these are kept, and everything else by its kind and its parts. So the trees that the two
schemas stand for are alike. For an object this takes a permutation: the fields of the one are found
by name among the fields of the other, no name stands twice, and there are as many of them on both
sides.
-/

namespace ProtoSchema.Schema

variable {n : Nat}

/-- That a schema is an object with the given fields, shared or not. -/
inductive HasFields (objects : Objects n) : Schema n → List (String × Schema n) → Prop where
  | object (fields) : HasFields objects (.object fields) fields
  | shared (index) : HasFields objects (.shared index) (objects index)

/-- What it takes for two schemas to be found equal, by a comparison of their parts. -/
inductive FoundEqual (objects : Objects n) (agree : Schema n → Schema n → Option Bool) :
    Schema n → Schema n → Prop where
  | itself (index) : FoundEqual objects agree (.shared index) (.shared index)
  | objects {a b fields others} :
    HasFields objects a fields → HasFields objects b others →
    objectsAgree agree fields others = some true → FoundEqual objects agree a b
  | string : FoundEqual objects agree .string .string
  | boolean : FoundEqual objects agree .boolean .boolean
  | date : FoundEqual objects agree .date .date
  | bigInt : FoundEqual objects agree .bigInt .bigInt
  | number (integral) : FoundEqual objects agree (.number integral) (.number integral)
  | enumeration {options others} : sameOptions options others = true →
    FoundEqual objects agree (.enumeration options) (.enumeration others)
  | array {a b} : agree a b = some true → FoundEqual objects agree (.array a) (.array b)
  | set {a b} : agree a b = some true → FoundEqual objects agree (.set a) (.set b)
  | tuple {elements others} : elementsAgree agree elements others = some true →
    FoundEqual objects agree (.tuple elements) (.tuple others)
  | map {key value otherKey otherValue} : agree key otherKey = some true →
    agree value otherValue = some true →
    FoundEqual objects agree (.map key value) (.map otherKey otherValue)
  | optional {a b} : agree a b = some true → FoundEqual objects agree (.optional a) (.optional b)
  | nullable {a b} : agree a b = some true → FoundEqual objects agree (.nullable a) (.nullable b)
  | unknown (kind) : FoundEqual objects agree (.unknown kind) (.unknown kind)
  | foreign (value) : FoundEqual objects agree (.foreign value) (.foreign value)

section Comparison

variable {objects : Objects n}

/-- Two comparisons in turn find what they compare equal if each of them does. -/
theorem inTurn_eq_some_true_iff {first next : Option Bool} :
    (do if ← first then next else return false) = some true ↔
      first = some true ∧ next = some true := by
  cases first with
  | none => simp
  | some same => cases same <;> simp

/-- A comparison that finds two schemas equal has found their parts equal. -/
theorem foundEqual_of_equalWithin {depth : Nat} {a b : Schema n}
    (h : equalWithin objects (depth + 1) a b = some true) :
    FoundEqual objects (equalWithin objects depth) a b := by
  unfold equalWithin at h
  split at h
  · exact .objects (.object _) (.object _) h
  · exact .objects (.object _) (.shared _) h
  · exact .objects (.shared _) (.object _) h
  · split at h
    · rename_i heq
      rw [heq]
      exact .itself _
    · exact .objects (.shared _) (.shared _) h
  · exact .array h
  · exact .set h
  · exact .tuple h
  · obtain ⟨hkey, hvalue⟩ := inTurn_eq_some_true_iff.1 h
    exact .map hkey hvalue
  · exact .optional h
  · exact .nullable h
  -- what is left are two schemas without parts, or two of different kinds
  · rename_i hobjects hinner houter hshared harray hset htuple hmap hoptional hnullable
    replace h := Option.some.inj h
    unfold equal at h
    split at h
    · exact (hobjects _ _ rfl rfl).elim
    · exact (hshared _ _ rfl rfl).elim
    · exact .string
    · exact .boolean
    · exact .date
    · exact .bigInt
    · rw [eq_of_beq h]
      exact .number _
    · exact .enumeration h
    · exact (harray _ _ rfl rfl).elim
    · exact (hset _ _ rfl rfl).elim
    · exact (htuple _ _ rfl rfl).elim
    · exact (hmap _ _ _ _ rfl rfl).elim
    · exact (hoptional _ _ rfl rfl).elim
    · exact (hnullable _ _ rfl rfl).elim
    · rw [eq_of_beq h]
      exact .unknown _
    · rw [eq_of_beq h]
      exact .foreign _
    · cases h

/-- What is found equal to the fields of an object is found under their names. -/
theorem exists_of_fieldsAgree {agree : Schema n → Schema n → Option Bool}
    {fields others : List (String × Schema n)} (h : fieldsAgree agree fields others = some true) :
    ∀ field ∈ fields, ∃ other, (field.1, other) ∈ others ∧ agree field.2 other = some true := by
  induction fields with
  | nil => exact fun _ hmem => by cases hmem
  | cons first rest ih =>
    rw [fieldsAgree] at h
    cases hlookup : others.lookup first.1 with
    | none => simp [hlookup] at h
    | some other =>
      rw [hlookup] at h
      obtain ⟨hagree, hrest⟩ := inTurn_eq_some_true_iff.1 h
      intro field hmem
      rcases List.mem_cons.1 hmem with rfl | hmem
      · obtain ⟨before, after, rfl, -⟩ := List.lookup_eq_some_iff.1 hlookup
        exact ⟨other, List.mem_append_right _ List.mem_cons_self, hagree⟩
      · exact ih hrest field hmem

end Comparison

section Keys

variable {objects : Objects n} {schema inner : Schema n} {fields : List (String × Schema n)}

/-- Where no object has a key twice, none has one in a part. -/
theorem KeysDistinct.part (h : schema.KeysDistinct objects) (hinner : inner ∈ schema.subschemas) :
    inner.KeysDistinct objects :=
  ⟨fun _ hpart => h.1 _ (mem_subschemas_trans hinner hpart), h.2⟩

/-- What a shared object holds has no keys twice either. -/
theorem KeysDistinct.object_of_hasFields (h : schema.KeysDistinct objects)
    (hfields : HasFields objects schema fields) :
    (Schema.object fields).KeysDistinct objects := by
  cases hfields with
  | object => exact h
  | shared index => exact ⟨h.2 index, h.2⟩

theorem KeysDistinct.nodup (h : (Schema.object fields).KeysDistinct objects) :
    (fields.map (·.1)).Nodup := by
  simpa [hasDistinctKeys] using h.1 _ (self_mem_subschemas _)

end Keys

section Trees

variable {objects : Objects n} {tree? : Fin n → Option (Schema 0)}

theorem AlikeFields.map_fst {fields others : List (String × Schema n)}
    (h : AlikeFields fields others) : fields.map (·.1) = others.map (·.1) := by
  induction fields generalizing others with
  | nil =>
    cases h
    rfl
  | cons first rest ih =>
    cases h with
    | cons _ hrest => rw [List.map_cons, List.map_cons, ih hrest]

theorem UnfoldsFields.map_fst {fields : List (String × Schema n)}
    {trees : List (String × Schema 0)} (h : UnfoldsFields tree? fields trees) :
    fields.map (·.1) = trees.map (·.1) := by
  induction fields generalizing trees with
  | nil =>
    cases h
    rfl
  | cons first rest ih =>
    cases h with
    | cons _ hrest => rw [List.map_cons, List.map_cons, ih hrest]

/-- The tree of a field is among the trees of the fields, under its name. -/
theorem UnfoldsFields.exists_of_mem {fields : List (String × Schema n)}
    {trees : List (String × Schema 0)} (h : UnfoldsFields tree? fields trees) :
    ∀ field ∈ fields, ∃ tree, (field.1, tree) ∈ trees ∧ Unfolds tree? field.2 tree := by
  induction fields generalizing trees with
  | nil => exact fun _ hmem => by cases hmem
  | cons first rest ih =>
    cases h with
    | cons hfirst hrest =>
      intro field hmem
      rcases List.mem_cons.1 hmem with rfl | hmem
      · exact ⟨_, List.mem_cons_self, hfirst⟩
      · obtain ⟨tree, htree, hunfolds⟩ := ih hrest field hmem
        exact ⟨tree, List.mem_cons_of_mem _ htree, hunfolds⟩

/-- Every tree among the trees of the fields is that of a field of its name. -/
theorem UnfoldsFields.exists_of_mem_trees {fields : List (String × Schema n)}
    {trees : List (String × Schema 0)} (h : UnfoldsFields tree? fields trees) :
    ∀ member ∈ trees, ∃ schema, (member.1, schema) ∈ fields ∧ Unfolds tree? schema member.2 := by
  induction fields generalizing trees with
  | nil =>
    cases h
    exact fun _ hmem => by cases hmem
  | cons first rest ih =>
    cases h with
    | cons hfirst hrest =>
      intro member hmem
      rcases List.mem_cons.1 hmem with rfl | hmem
      · exact ⟨_, List.mem_cons_self, hfirst⟩
      · obtain ⟨schema, hschema, hunfolds⟩ := ih hrest member hmem
        exact ⟨schema, List.mem_cons_of_mem _ hschema, hunfolds⟩

/-- The tree of an object, shared or not, holds the trees of its fields. -/
theorem HasFields.exists_trees (hcopies : AreCopies objects tree?) {schema : Schema n}
    {fields : List (String × Schema n)} (h : HasFields objects schema fields) {tree : Schema 0}
    (htree : Unfolds tree? schema tree) :
    ∃ trees, tree = .object trees ∧ UnfoldsFields tree? fields trees := by
  cases h with
  | object =>
    cases htree with
    | object htrees => exact ⟨_, rfl, htrees⟩
  | shared index =>
    cases htree with
    | shared hcopy => exact hcopies index tree hcopy

/-- Trees that each are like some tree of the same name can be matched with these, one by one. -/
theorem exists_matched {trees others : List (String × Schema 0)}
    (h : ∀ member ∈ trees, ∃ other, (member.1, other) ∈ others ∧ Alike member.2 other) :
    ∃ matched, AlikeFields trees matched ∧ matched ⊆ others := by
  induction trees with
  | nil => exact ⟨[], .nil, List.nil_subset _⟩
  | cons first rest ih =>
    obtain ⟨other, hother, halike⟩ := h first List.mem_cons_self
    obtain ⟨matched, hmatched, hsub⟩ :=
      ih fun member hmember => h member (List.mem_cons_of_mem _ hmember)
    exact ⟨(first.1, other) :: matched, .cons halike hmatched,
      List.cons_subset.2 ⟨hother, hsub⟩⟩

/-- Objects with as many fields, none of which has its name twice, are alike if each field of the
one has a counterpart in the other. -/
theorem alike_object {trees others : List (String × Schema 0)} (hnodup : (trees.map (·.1)).Nodup)
    (hlength : trees.length = others.length)
    (h : ∀ member ∈ trees, ∃ other, (member.1, other) ∈ others ∧ Alike member.2 other) :
    Alike (.object trees) (.object others) := by
  obtain ⟨matched, hmatched, hsub⟩ := exists_matched h
  -- no name twice: nothing is matched twice, so as many fields as there are have been matched
  have hnames : matched.Nodup := by
    rw [hmatched.map_fst] at hnodup
    exact hnodup.of_map _
  have hcount : others.length ≤ matched.length := by
    have hsame := congrArg List.length hmatched.map_fst
    rw [List.length_map, List.length_map] at hsame
    omega
  exact .object hmatched ((hnames.subperm hsub).perm_of_length_le hcount)

section Parts

variable {agree : Schema n → Schema n → Option Bool}
  (hagree : ∀ {a b : Schema n}, a.KeysDistinct objects → agree a b = some true →
    ∀ {tree other : Schema 0}, Unfolds tree? a tree → Unfolds tree? b other → Alike tree other)

include hagree

/-- Objects whose fields are found equal stand for alike trees. -/
theorem alike_of_objectsAgree {fields others : List (String × Schema n)}
    (hkeys : (Schema.object fields).KeysDistinct objects)
    (h : objectsAgree agree fields others = some true)
    {trees otherTrees : List (String × Schema 0)} (htrees : UnfoldsFields tree? fields trees)
    (hothers : UnfoldsFields tree? others otherTrees) :
    Alike (.object trees) (.object otherTrees) := by
  unfold objectsAgree at h
  split at h
  · rename_i hlength
    have hcount := congrArg List.length htrees.map_fst
    have hotherCount := congrArg List.length hothers.map_fst
    simp only [List.length_map] at hcount hotherCount
    refine alike_object (htrees.map_fst ▸ hkeys.nodup) (by omega) fun member hmember => ?_
    obtain ⟨schema, hschema, htree⟩ := htrees.exists_of_mem_trees member hmember
    obtain ⟨other, hother, hsame⟩ := exists_of_fieldsAgree h _ hschema
    obtain ⟨otherTree, hmem, hotherTree⟩ := hothers.exists_of_mem _ hother
    exact ⟨otherTree, hmem,
      hagree (hkeys.part (mem_subschemas_of_mem_members hschema)) hsame htree hotherTree⟩
  · cases h

/-- Elements that are found equal one by one stand for alike trees. -/
theorem alikeElements_of_elementsAgree {elements others : List (Schema n)}
    (hkeys : ∀ element ∈ elements, element.KeysDistinct objects)
    (h : elementsAgree agree elements others = some true) {trees otherTrees : List (Schema 0)}
    (htrees : UnfoldsElements tree? elements trees)
    (hothers : UnfoldsElements tree? others otherTrees) : AlikeElements trees otherTrees := by
  induction elements generalizing others trees otherTrees with
  | nil =>
    cases htrees
    cases hothers with
    | nil => exact .nil
    | cons => cases h
  | cons element rest ih =>
    cases htrees with
    | cons hfirst hrest =>
      cases hothers with
      | nil => cases h
      | cons hother hotherRest =>
        obtain ⟨hsame, hlater⟩ := inTurn_eq_some_true_iff.1 h
        obtain ⟨hkeysFirst, hkeysRest⟩ := List.forall_mem_cons.1 hkeys
        exact .cons (hagree hkeysFirst hsame hfirst hother) (ih hkeysRest hlater hrest hotherRest)

/-- Schemas whose parts are found equal stand for alike trees. -/
theorem alike_of_foundEqual (hcopies : AreCopies objects tree?) {a b : Schema n}
    (hkeys : a.KeysDistinct objects) (h : FoundEqual objects agree a b) {tree other : Schema 0}
    (htree : Unfolds tree? a tree) (hother : Unfolds tree? b other) : Alike tree other := by
  have hpart : ∀ {inner : Schema n} {isMapPart : Bool},
      ⟨inner, isMapPart⟩ ∈ a.directPositions → inner.KeysDistinct objects :=
    fun hinner => hkeys.part (mem_subschemas_of_mem_directPositions hinner)
  cases h with
  | itself index =>
    cases htree with
    | shared hcopy =>
      cases hother with
      | shared hsame =>
        rw [hcopy] at hsame
        cases hsame
        exact .refl tree
  | objects hfields hothers hobjects =>
    obtain ⟨trees, rfl, htrees⟩ := hfields.exists_trees hcopies htree
    obtain ⟨otherTrees, rfl, hotherTrees⟩ := hothers.exists_trees hcopies hother
    exact alike_of_objectsAgree hagree (hkeys.object_of_hasFields hfields) hobjects htrees
      hotherTrees
  | string => cases htree; cases hother; exact .string
  | boolean => cases htree; cases hother; exact .boolean
  | date => cases htree; cases hother; exact .date
  | bigInt => cases htree; cases hother; exact .bigInt
  | number => cases htree; cases hother; exact .number _
  | enumeration => cases htree; cases hother; exact .enumeration _ _
  | unknown => cases htree; cases hother; exact .unknown _
  | foreign => cases htree; cases hother; exact .foreign _
  | array hsame =>
    cases htree with
    | array helement =>
      cases hother with
      | array hotherElement =>
        exact .array (hagree (hpart (List.mem_singleton_self _)) hsame helement hotherElement)
  | set hsame =>
    cases htree with
    | set helement =>
      cases hother with
      | set hotherElement =>
        exact .set (hagree (hpart (List.mem_singleton_self _)) hsame helement hotherElement)
  | optional hsame =>
    cases htree with
    | optional hinner =>
      cases hother with
      | optional hotherInner =>
        exact .optional (hagree (hpart (List.mem_singleton_self _)) hsame hinner hotherInner)
  | nullable hsame =>
    cases htree with
    | nullable hinner =>
      cases hother with
      | nullable hotherInner =>
        exact .nullable (hagree (hpart (List.mem_singleton_self _)) hsame hinner hotherInner)
  | map hkey hvalue =>
    cases htree with
    | map hkeyTree hvalueTree =>
      cases hother with
      | map hotherKey hotherValue =>
        exact .map (hagree (hpart List.mem_cons_self) hkey hkeyTree hotherKey)
          (hagree (hpart (List.mem_cons_of_mem _ List.mem_cons_self)) hvalue hvalueTree hotherValue)
  | tuple helements =>
    cases htree with
    | tuple htrees =>
      cases hother with
      | tuple hotherTrees =>
        exact .tuple (alikeElements_of_elementsAgree hagree
          (fun element hmem => hpart (List.mem_map_of_mem hmem)) helements htrees hotherTrees)

end Parts

/-- Schemas that a comparison of any depth finds equal stand for alike trees. -/
theorem alike_of_equalWithin (hcopies : AreCopies objects tree?) {depth : Nat} {a b : Schema n}
    (hkeys : a.KeysDistinct objects) (h : equalWithin objects depth a b = some true)
    {tree other : Schema 0} (htree : Unfolds tree? a tree) (hother : Unfolds tree? b other) :
    Alike tree other := by
  induction depth generalizing a b tree other with
  | zero => cases h
  | succ depth ih =>
    exact alike_of_foundEqual (fun hinner hsame _ _ hone hanother => ih hinner hsame hone hanother)
      hcopies hkeys (foundEqual_of_equalWithin h) htree hother

/-- Schemas that are found equal expand into alike trees, if into any. -/
theorem alike_of_expand {depth : Nat} {a b : Schema n} (hkeys : a.KeysDistinct objects)
    (h : equalWithin objects depth a b = some true) {tree other : Schema 0}
    (htree : a.expand objects = some tree) (hother : b.expand objects = some other) :
    Alike tree other :=
  alike_of_equalWithin (areCopies_expandShared objects) hkeys h (unfolds_of_expandWith htree)
    (unfolds_of_expandWith hother)

end Trees

end ProtoSchema.Schema
