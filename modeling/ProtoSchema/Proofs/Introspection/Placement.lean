import ProtoSchema.Model.Declaration
import ProtoSchema.Proofs.Introspection.AdmittedRange

/-!
# The place of an annotated integer

An annotation with constraints that is the type of a field is taken apart: its constraints are
gathered in the description of the field, where the extra parts are merged. An annotation further
inside a type is left as it is, and each of its constraints is looked at by itself. As long as no more
than one of the constraints has an extra part, nothing is lost by merging: the markers are all there,
and the extra part of the description is that one. So an annotated integer has the same width as a
field, as an element of a sequence, as a type that may be null and as a value of a dictionary.
-/

namespace ProtoSchema

namespace Extra

theorem absent_merge (second : Extra) : merge .absent second = second := by
  cases second <;> rfl

/-- Nothing is merged with the extra parts that there are not. -/
theorem foldl_merge_of_absent {extras : List Extra} (h : ∀ extra ∈ extras, extra = .absent)
    (first : Extra) : extras.foldl merge first = first := by
  induction extras with
  | nil => rfl
  | cons extra rest ih =>
    rw [List.forall_mem_cons] at h
    rw [List.foldl_cons, h.1, merge_absent]
    exact ih h.2

/-- A single extra part is what all of them are merged into. -/
theorem foldl_merge_eq_iff {extras : List Extra}
    (h : extras.countP (fun extra => extra ≠ .absent) ≤ 1) {extra : Extra}
    (hextra : extra ≠ .absent) : extras.foldl merge .absent = extra ↔ extra ∈ extras := by
  induction extras with
  | nil => exact iff_of_false hextra.symm List.not_mem_nil
  | cons first rest ih =>
    rw [List.foldl_cons, absent_merge, List.mem_cons]
    rw [List.countP_cons] at h
    by_cases hfirst : first = .absent
    · -- the single extra part is among the rest
      rw [hfirst, ih (by omega), or_iff_right hextra]
    · -- there are no extra parts in the rest
      rw [if_pos (by simpa using hfirst)] at h
      have hrest : ∀ later ∈ rest, later = .absent := by
        have hnone := List.countP_eq_zero.1 (Nat.le_zero.1 (Nat.le_of_succ_le_succ h))
        simpa using hnone
      have hnot : extra ∉ rest := fun hmem => hextra (hrest extra hmem)
      rw [foldl_merge_of_absent hrest, or_iff_left hnot]
      exact eq_comm

end Extra

/-- Descriptions are merged part by part: the markers accumulate, and so do the extra parts. -/
theorem FieldInfo.foldl_merge (infos : List FieldInfo) (first : FieldInfo) :
    infos.foldl merge first =
      { extra := (infos.map (·.extra)).foldl Extra.merge first.extra
        markers := first.markers ++ infos.flatMap (·.markers) } := by
  induction infos generalizing first with
  | nil => simp
  | cons info rest ih =>
    rw [List.foldl_cons, ih]
    simp [merge]

namespace Constraint

/-- The extra part of the constraint itself. -/
def extra : Constraint → Extra
  | .field info => info.extra
  | .marker mark => mark.extra

/-- What the constraint contributes to the description that it is gathered in. -/
def contribution : Constraint → FieldInfo
  | .field info => info
  | .marker mark => { markers := [mark] }

/-- Constraints are gathered by merging what they contribute. -/
theorem gather_eq_foldl (constraints : List Constraint) :
    gather constraints = (constraints.map contribution).foldl FieldInfo.merge {} := by
  rw [List.foldl_map, gather]
  congr 1
  funext info constraint
  cases constraint with
  | field added => rfl
  | marker mark =>
    rw [contribution, FieldInfo.merge, Extra.merge_absent]

/-- The markers of the gathered constraints are all there, in order. -/
theorem markers_gather (constraints : List Constraint) :
    (gather constraints).markers = constraints.flatMap (·.contribution.markers) := by
  rw [gather_eq_foldl, FieldInfo.foldl_merge, List.flatMap_map]
  rfl

/-- If no more than one constraint has an extra part, that of the gathered constraints is the one
that a description has. -/
theorem extra_gather_eq_iff {constraints : List Constraint}
    (h : constraints.countP (fun constraint => constraint.extra ≠ .absent) ≤ 1) {extra : Extra}
    (hextra : extra ≠ .absent) :
    (gather constraints).extra = extra ↔ ∃ info, .field info ∈ constraints ∧ info.extra = extra := by
  have hcount : ((constraints.map contribution).map (·.extra)).countP
      (fun extra => extra ≠ .absent) ≤ 1 := by
    rw [List.countP_map, List.countP_map]
    refine Nat.le_trans (List.countP_mono_left fun constraint _ hcontributes => ?_) h
    cases constraint with
    | field info => exact hcontributes
    | marker mark => cases hcontributes
  rw [gather_eq_foldl, FieldInfo.foldl_merge, Extra.foldl_merge_eq_iff hcount hextra]
  rw [List.map_map, List.mem_map]
  constructor
  · rintro ⟨constraint, hmem, rfl⟩
    cases constraint with
    | field info => exact ⟨info, hmem, rfl⟩
    | marker mark => exact absurd rfl hextra
  · rintro ⟨info, hmem, hinfo⟩
    exact ⟨.field info, hmem, hinfo⟩

/-- The loose parts of constraints are their descriptions and the markers that they contribute. -/
theorem mem_looseParts_iff {constraints : List Constraint} {part : Constraint} :
    part ∈ constraints.flatMap (·.looseParts) ↔
      (∃ info, .field info ∈ constraints ∧ part = .field { extra := info.extra }) ∨
        ∃ mark ∈ constraints.flatMap (·.contribution.markers), part = .marker mark := by
  simp only [List.mem_flatMap]
  constructor
  · rintro ⟨constraint, hmem, hpart⟩
    cases constraint with
    | field info =>
      rcases List.mem_cons.1 hpart with rfl | hmarker
      · exact .inl ⟨info, hmem, rfl⟩
      · obtain ⟨mark, hmark, rfl⟩ := List.mem_map.1 hmarker
        exact .inr ⟨mark, ⟨_, hmem, hmark⟩, rfl⟩
    | marker mark =>
      exact .inr ⟨mark, ⟨_, hmem, List.mem_singleton_self mark⟩, List.mem_singleton.1 hpart⟩
  · rintro (⟨info, hmem, rfl⟩ | ⟨mark, ⟨constraint, hmem, hmark⟩, rfl⟩)
    · exact ⟨_, hmem, List.mem_cons_self⟩
    · refine ⟨constraint, hmem, ?_⟩
      cases constraint with
      | field info => exact List.mem_cons_of_mem _ (List.mem_map_of_mem hmark)
      | marker only => exact List.mem_singleton.2 (congrArg marker (List.mem_singleton.1 hmark))

end Constraint

namespace IntegerWidth

/-- A description without markers calls for 64 bits by its extra part alone. -/
theorem extra_ne_of_callsFor64 {extra : Extra}
    (h : callsFor64 (.field { extra }) = true) : extra ≠ .absent := by
  rintro rfl
  cases h

/-- The description in which constraints are gathered, with its markers behind it, calls for 64 bits
exactly if the constraints do, provided that no more than one of these has an extra part. -/
theorem needs64_gather {constraints : List Constraint}
    (h : constraints.countP (fun constraint => constraint.extra ≠ .absent) ≤ 1) :
    needs64 (.field (Constraint.gather constraints) ::
        (Constraint.gather constraints).markers.map .marker) = needs64 constraints := by
  have hdescription : ∀ info, Constraint.field info ∈
      Constraint.field (Constraint.gather constraints) ::
        (Constraint.gather constraints).markers.map .marker ↔
      info = Constraint.gather constraints := by simp
  have hmarker : ∀ mark, mark ∈ (Constraint.field (Constraint.gather constraints) ::
        (Constraint.gather constraints).markers.map .marker).flatMap (·.contribution.markers) ↔
      mark ∈ constraints.flatMap (·.contribution.markers) := by
    intro mark
    have hown : (Constraint.gather constraints).markers.flatMap
        (fun mark => (Constraint.marker mark).contribution.markers) =
        (Constraint.gather constraints).markers := List.flatMap_singleton' _
    rw [List.flatMap_cons, List.flatMap_map, hown, ← Constraint.markers_gather]
    exact List.mem_append.trans or_self_iff
  rw [Bool.eq_iff_iff]
  constructor
  · refine needs64_of_looseParts fun part hpart hcalls => ?_
    rw [Constraint.mem_looseParts_iff] at hpart ⊢
    rcases hpart with ⟨info, hinfo, rfl⟩ | ⟨mark, hmark, rfl⟩
    · -- the extra part of the gathered constraints is that of one of them
      rw [(hdescription info).1 hinfo] at hcalls ⊢
      obtain ⟨given, hgiven, hextra⟩ :=
        (Constraint.extra_gather_eq_iff h (extra_ne_of_callsFor64 hcalls)).1 rfl
      exact .inl ⟨given, hgiven, by rw [hextra]⟩
    · exact .inr ⟨mark, (hmarker mark).1 hmark, rfl⟩
  · refine needs64_of_looseParts fun part hpart hcalls => ?_
    rw [Constraint.mem_looseParts_iff] at hpart ⊢
    rcases hpart with ⟨info, hinfo, rfl⟩ | ⟨mark, hmark, rfl⟩
    · have hextra :=
        (Constraint.extra_gather_eq_iff h (extra_ne_of_callsFor64 hcalls)).2 ⟨info, hinfo, rfl⟩
      exact .inl ⟨_, (hdescription _).2 rfl, by rw [hextra]⟩
    · exact .inr ⟨mark, (hmarker mark).2 hmark, rfl⟩

end IntegerWidth

namespace Introspection

variable {k : Nat}

/-- The schema of an integer class is an integer, and its constraints decide the width. -/
theorem plainSchema_of_integer {type : PlainClass} (h : type.lineage = .integer)
    (constraints : List Constraint) :
    plainSchema type constraints =
      if IntegerWidth.needs64 constraints then .bigInt else .number true := by
  rw [plainSchema, h]

/-- The field that is declared by an annotation alone, and so has to be given. -/
def requiredField (form : TypeForm k) : ModelField k :=
  FieldDeclaration.resolve { form }

/-- The constraints of an annotation that is the type of a field are gathered. -/
theorem requiredField_annotated (inner : TypeForm k) (constraints : List Constraint) :
    requiredField (.annotated inner constraints) =
      { form := some inner, info := Constraint.gather constraints } := by
  simp [requiredField, FieldDeclaration.resolve, TypeForm.asType, TypeForm.split_annotated]

/-- The description of a field whose annotation has no constraints of its own is empty. -/
theorem typeSchema_requiredField (lookup : Fin k → Except SchemaError (Schema 0))
    {form : TypeForm k} (h : form.asType.split = (form, [])) :
    typeSchema lookup (requiredField form) = formSchema lookup [.field {}] form := by
  rw [requiredField, FieldDeclaration.resolve, h]
  rfl

/-- An integer with constraints of which no more than one has an extra part is the same integer
wherever it stands: as the type of a field that has to be given, as the type of the elements of a
sequence, as a type that may be null, and as the type of the values of a dictionary. -/
theorem fieldSchemas_of_annotatedInteger (lookup : Fin k → Except SchemaError (Schema 0))
    {type text : PlainClass} (htype : type.lineage = .integer) (htext : text.lineage = .text)
    {sequence dictionary : Generic} (hsequence : sequence.role = .sequence)
    (hdictionary : dictionary.role = .dictionary) {constraints : List Constraint}
    (hextra : constraints.countP (fun constraint => constraint.extra ≠ .absent) ≤ 1)
    (direct element member value : String) :
    ∃ node, (node = .bigInt ∨ node = .number true) ∧
      formSchema lookup [] (.annotated (.plain type) constraints) = .ok node ∧
      fieldSchemas lookup
          [(direct, requiredField (.annotated (.plain type) constraints)),
            (element, requiredField (.generic sequence [.annotated (.plain type) constraints])),
            (member, requiredField (.union [.annotated (.plain type) constraints, .none])),
            (value, requiredField
              (.generic dictionary [.plain text, .annotated (.plain type) constraints]))] =
        .ok [(direct, node), (element, .array node), (member, .nullable node),
          (value, .map .string node)] := by
  have hnode : ∀ given, IntegerWidth.needs64 given = IntegerWidth.needs64 constraints →
      plainSchema type given = plainSchema type constraints := by
    intro given hgiven
    rw [plainSchema_of_integer htype, plainSchema_of_integer htype, hgiven]
  have hdirect : typeSchema lookup (requiredField (.annotated (.plain type) constraints)) =
      .ok (plainSchema type constraints) := by
    rw [requiredField_annotated]
    exact congrArg Except.ok (hnode _ (IntegerWidth.needs64_gather hextra))
  have helement : typeSchema lookup
      (requiredField (.generic sequence [.annotated (.plain type) constraints])) =
      .ok (.array (plainSchema type constraints)) := by
    rw [typeSchema_requiredField lookup rfl, formSchema, hsequence]
    rfl
  have hmember : typeSchema lookup
      (requiredField (.union [.annotated (.plain type) constraints, .none])) =
      .ok (.nullable (plainSchema type constraints)) := by
    -- the empty description of the field stands in front of the constraints of the member
    have hdescription := hnode (.field {} :: constraints)
      (IntegerWidth.needs64_append [.field {}] constraints)
    rw [typeSchema_requiredField lookup rfl, ← hdescription]
    rfl
  have hvalue : typeSchema lookup (requiredField
      (.generic dictionary [.plain text, .annotated (.plain type) constraints])) =
      .ok (.map .string (plainSchema type constraints)) := by
    have hkey : plainSchema text [] = .string := by rw [plainSchema, htext]
    rw [typeSchema_requiredField lookup rfl, formSchema, hdictionary, ← hkey]
    rfl
  refine ⟨plainSchema type constraints, ?_, ?_, ?_⟩
  · rw [plainSchema_of_integer htype]
    split
    · exact .inl rfl
    · exact .inr rfl
  · rfl
  · simp only [fieldSchemas, hdirect, helement, hmember, hvalue]
    rfl

/-- The constraints of a length: an interval, a description with a width and a bound, and a text. -/
def lengthConstraints : List Constraint :=
  [.marker (.interval { ge := some (.int 0), le := some (.int 1000) }),
    .field ⟨.dictionary (some (.int 64)), [.bound .lt (.int 500)]⟩, .marker (.text "metres")]

/-- The type of a length: an integer with these constraints. -/
def length : TypeForm 0 :=
  .annotated (.plain (PlainClass.named "int")) lengthConstraints

/-- The width that the description of a length declares counts in all four places. -/
theorem fieldSchemas_of_annotatedInteger_lengths :
    lengthConstraints.countP (fun constraint => constraint.extra ≠ .absent) ≤ 1 ∧
      fieldSchemas (fun index : Fin 0 => index.elim0)
          [("total", requiredField length),
            ("steps", requiredField (.generic (Generic.standard .concrete "list") [length])),
            ("climb", requiredField (.union [length, .none])),
            ("stages", requiredField (.generic (Generic.standard .concrete "dict")
              [.plain (PlainClass.named "str"), length]))] =
        .ok [("total", .bigInt), ("steps", .array .bigInt), ("climb", .nullable .bigInt),
          ("stages", .map .string .bigInt)] := by
  have hextra :
      lengthConstraints.countP (fun constraint => constraint.extra ≠ .absent) ≤ 1 := by decide
  have htype : (PlainClass.named "int").lineage = .integer := rfl
  have htext : (PlainClass.named "str").lineage = .text := rfl
  have hsequence : (Generic.standard .concrete "list").role = .sequence := rfl
  have hdictionary : (Generic.standard .concrete "dict").role = .dictionary := rfl
  obtain ⟨node, -, hnode, hfields⟩ :=
    fieldSchemas_of_annotatedInteger (fun index : Fin 0 => index.elim0) htype htext hsequence
      hdictionary hextra "total" "steps" "climb" "stages"
  have hwide : node = .bigInt := (Except.ok.inj hnode).symm
  rw [hwide] at hfields
  exact ⟨hextra, hfields⟩

/-- Of two extra parts, the later one counts for a field; further inside a type both do. -/
example :
    typeSchema (fun index : Fin 0 => index.elim0)
        (requiredField (.annotated (.plain (PlainClass.named "int"))
          [.field ⟨.dictionary (some (.int 64)), []⟩, .field ⟨.dictionary (some (.int 8)), []⟩])) =
      .ok (.number true) ∧
    formSchema (fun index : Fin 0 => index.elim0) []
        (.annotated (.plain (PlainClass.named "int"))
          [.field ⟨.dictionary (some (.int 64)), []⟩, .field ⟨.dictionary (some (.int 8)), []⟩]) =
      .ok .bigInt :=
  ⟨rfl, rfl⟩

end Introspection

end ProtoSchema
