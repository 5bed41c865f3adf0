import ProtoSchema.Proofs.Introspection.Width

/-!
# The integers that bounds admit

Each bound is looked at by itself, yet together the bounds that are passed over close the range: if
an integer with a lower and an upper integer bound is given 32 bits, then every integer that all its
integer bounds admit has 32 bits. Bounds that are no integers do not matter for this.

The decision is made by the parts of the constraints, and one part that calls for 64 bits is enough.
So it is the same for constraints that have the same parts, in whatever order and however often,
and whether a marker stands by itself or is gathered in a description; and further constraints
never take 64 bits back.
-/

namespace ProtoSchema

/-- Whether a bound of that kind at a value admits an integer. -/
def BoundKind.Admits : BoundKind → Int → Int → Prop
  | .ge, value, n => value ≤ n
  | .gt, value, n => value < n
  | .le, value, n => n ≤ value
  | .lt, value, n => n < value

/-- What a bound admits lies on one side of the outermost integer that it admits. -/
theorem BoundKind.admits_iff (kind : BoundKind) (value n : Int) :
    kind.Admits value n ↔
      if kind.isLower = true then kind.outermost value ≤ n else n ≤ kind.outermost value := by
  cases kind with
  | ge => simp [Admits, isLower, outermost]
  | gt =>
    simp only [Admits, isLower, outermost, if_true]
    omega
  | le => simp [Admits, isLower, outermost]
  | lt =>
    simp only [Admits, isLower, outermost, Bool.false_eq_true, if_false]
    omega

/-- The parts of a constraint, each by itself: a description without the markers that it gathers, and
these markers. -/
def Constraint.looseParts : Constraint → List Constraint
  | .field info => .field { info with markers := [] } :: info.markers.map .marker
  | .marker mark => [.marker mark]

namespace IntegerWidth

/-- Whether the constraints have an integer bound of that kind at a value. -/
def HasBound (constraints : List Constraint) (kind : BoundKind) (value : Int) : Prop :=
  ∃ part ∈ constraints.flatMap (·.parts), ∃ literal,
    part.bounds.get kind = some literal ∧ literal.integer? = some value

/-- Whether all the integer bounds of the constraints admit an integer. -/
def Admits (constraints : List Constraint) (n : Int) : Prop :=
  ∀ kind value, HasBound constraints kind value → kind.Admits value n

/-- Where 32 bits are enough, no integer bound lies beyond the range. -/
theorem outermost_of_hasBound {constraints : List Constraint} {kind : BoundKind} {value : Int}
    (hnarrow : needs64 constraints = false) (hbound : HasBound constraints kind value) :
    if kind.isLower = true then least ≤ kind.outermost value
    else kind.outermost value ≤ greatest := by
  obtain ⟨part, hpart, literal, hget, hvalue⟩ := hbound
  have hwithin : isBeyond kind literal ≠ true := by
    intro hbeyond
    have hwide := (needs64_iff constraints).2 ⟨part, hpart, .inr ⟨kind, literal, hget, hbeyond⟩⟩
    rw [hnarrow] at hwide
    cases hwide
  rw [Ne, isBeyond_iff hvalue] at hwithin
  cases hside : kind.isLower with
  | true =>
    rw [if_pos hside] at hwithin
    exact Int.not_lt.1 hwithin
  | false =>
    rw [if_neg (Bool.eq_false_iff.1 hside)] at hwithin
    exact Int.not_lt.1 hwithin

/-- Where 32 bits are enough, what a lower bound admits is not below the range. -/
theorem least_le_of_admits {constraints : List Constraint} {kind : BoundKind} {value n : Int}
    (hnarrow : needs64 constraints = false) (hlower : kind.isLower = true)
    (hbound : HasBound constraints kind value) (hn : Admits constraints n) : least ≤ n := by
  have hrange := outermost_of_hasBound hnarrow hbound
  have hside := (kind.admits_iff value n).1 (hn kind value hbound)
  rw [if_pos hlower] at hrange hside
  exact Int.le_trans hrange hside

/-- Where 32 bits are enough, what an upper bound admits is not above the range. -/
theorem le_greatest_of_admits {constraints : List Constraint} {kind : BoundKind} {value n : Int}
    (hnarrow : needs64 constraints = false) (hupper : kind.isLower = false)
    (hbound : HasBound constraints kind value) (hn : Admits constraints n) : n ≤ greatest := by
  have hrange := outermost_of_hasBound hnarrow hbound
  have hside := (kind.admits_iff value n).1 (hn kind value hbound)
  rw [hupper, if_neg Bool.false_ne_true] at hrange hside
  exact Int.le_trans hside hrange

/-- The markers that a description gathers call for 64 bits as they would by themselves. -/
theorem any_parts (constraint : Constraint) :
    constraint.parts.any callsFor64 = constraint.looseParts.any callsFor64 := by
  cases constraint with
  | field info => rfl
  | marker mark => rfl

/-- The decision is made by the loose parts. -/
theorem needs64_eq_any_looseParts (constraints : List Constraint) :
    needs64 constraints = (constraints.flatMap (·.looseParts)).any callsFor64 := by
  simp only [needs64, List.any_flatMap, any_parts]

/-- Constraints need 64 bits if others do whose parts, as far as they call for 64 bits, are all
among theirs. -/
theorem needs64_of_looseParts {constraints more : List Constraint}
    (h : ∀ part ∈ constraints.flatMap (·.looseParts), callsFor64 part = true →
      part ∈ more.flatMap (·.looseParts))
    (hwide : needs64 constraints = true) : needs64 more = true := by
  rw [needs64_eq_any_looseParts, List.any_eq_true] at hwide ⊢
  obtain ⟨part, hpart, hcalls⟩ := hwide
  exact ⟨part, h part hpart hcalls, hcalls⟩

end IntegerWidth

namespace Introspection

open IntegerWidth (HasBound Admits needs64 least greatest)

variable {k : Nat}

/-- An annotation of integers has a schema under all constraints, an integer in layers of
nullability. If it has 32 bits although there are a lower and an upper integer bound, then every
integer that all the integer bounds admit lies in the range of 32 bits. Two lists of constraints, one
after the other, call for 64 bits exactly if one of them does. Lists with the same loose parts lead
to the same schema, and a list that has all the loose parts of another calls for 64 bits if the
other does. -/
theorem range_of_isIntegerForm (lookup : Fin k → Except SchemaError (Schema 0))
    {form : TypeForm k} {attached : List Constraint} (h : IsIntegerForm form attached) :
    ∃ node : List Constraint → Schema 0,
      (∀ given, formSchema lookup given form = .ok (node given) ∧
        ((node given).strip = .bigInt ∨ (node given).strip = .number true)) ∧
      (∀ given,
        (∃ kind value, kind.isLower = true ∧ HasBound (given ++ attached) kind value) →
        (∃ kind value, kind.isLower = false ∧ HasBound (given ++ attached) kind value) →
        (node given).strip = .number true →
          ∀ n, Admits (given ++ attached) n → least ≤ n ∧ n ≤ greatest) ∧
      (∀ given more, (node (given ++ more)).strip = .bigInt ↔
        (node given).strip = .bigInt ∨ (node more).strip = .bigInt) ∧
      (∀ given more : List Constraint,
        (∀ part, part ∈ given.flatMap (·.looseParts) ↔ part ∈ more.flatMap (·.looseParts)) →
          node given = node more) ∧
      ∀ given more : List Constraint,
        given.flatMap (·.looseParts) ⊆ more.flatMap (·.looseParts) →
          (node given).strip = .bigInt → (node more).strip = .bigInt := by
  obtain ⟨layers, hstrip, hschema⟩ := exists_layers_of_isIntegerForm lookup h
  have hwide : ∀ given, (layers (if needs64 (given ++ attached) then .bigInt
      else .number true)).strip = .bigInt ↔ needs64 given = true ∨ needs64 attached = true := by
    intro given
    rw [hstrip, ← Bool.or_eq_true, ← IntegerWidth.needs64_append]
    by_cases hneeds : needs64 (given ++ attached) = true
    · rw [if_pos hneeds]
      exact iff_of_true rfl hneeds
    · rw [if_neg hneeds]
      exact iff_of_false (fun hstripped => by cases hstripped) hneeds
  refine ⟨_, fun given => ⟨hschema given, ?_⟩, ?_, ?_, ?_, ?_⟩
  · rw [hstrip]
    split
    · exact .inl rfl
    · exact .inr rfl
  · rintro given ⟨lower, _, hlower, hbelow⟩ ⟨upper, _, hupper, habove⟩ hnode n hn
    have hnarrow : needs64 (given ++ attached) = false := by
      rw [hstrip] at hnode
      split at hnode
      · cases hnode
      · exact Bool.eq_false_iff.2 ‹_›
    exact ⟨IntegerWidth.least_le_of_admits hnarrow hlower hbelow hn,
      IntegerWidth.le_greatest_of_admits hnarrow hupper habove hn⟩
  · intro given more
    rw [hwide, hwide, hwide, IntegerWidth.needs64_append, Bool.or_eq_true, or_or_distrib_right]
  · intro given more hparts
    have hsame : needs64 given = needs64 more := by
      rw [Bool.eq_iff_iff]
      exact ⟨IntegerWidth.needs64_of_looseParts fun part hpart _ => (hparts part).1 hpart,
        IntegerWidth.needs64_of_looseParts fun part hpart _ => (hparts part).2 hpart⟩
    simp only [IntegerWidth.needs64_append, hsame]
  · intro given more hparts
    rw [hwide, hwide]
    exact Or.imp_left (IntegerWidth.needs64_of_looseParts fun part hpart _ => hparts hpart)

/-- The constraints of an edge: a description with an exclusive lower bound and a width, and an
interval whose upper bound is no number. -/
def edgeConstraints : List Constraint :=
  [.field ⟨.dictionary (some (.int 32)), [.bound .gt (.int (-2147483649))]⟩,
    .marker (.interval { le := some (.float .nan) })]

/-- The type of an edge: an integer with these constraints, or null. -/
def edge : TypeForm 0 :=
  .union [.annotated (.plain (PlainClass.named "int")) edgeConstraints, .none]

/-- The exclusive upper bound of an edge, which is given from outside. -/
def edgeLimit : Marker :=
  .bound .lt (.int 2147483648)

/-- Exclusive bounds one beyond the range on either side admit the integers of 32 bits and no
others, and 32 bits are enough; the limit may as well be gathered in a description. -/
theorem range_of_isIntegerForm_edge :
    IsIntegerForm edge edgeConstraints ∧
      ∃ node : List Constraint → Schema 0,
        formSchema (fun index : Fin 0 => index.elim0) [.marker edgeLimit] edge =
            .ok (node [.marker edgeLimit]) ∧
          HasBound ([.marker edgeLimit] ++ edgeConstraints) .gt (-2147483649) ∧
          HasBound ([.marker edgeLimit] ++ edgeConstraints) .lt 2147483648 ∧
          (node [.marker edgeLimit]).strip = .number true ∧
          (∀ n, Admits ([.marker edgeLimit] ++ edgeConstraints) n → least ≤ n ∧ n ≤ greatest) ∧
          node [.marker edgeLimit, .field {}] = node [.field ⟨.absent, [edgeLimit]⟩] := by
  have hform : IsIntegerForm edge edgeConstraints :=
    .orNull (.annotated edgeConstraints (.plain rfl))
  obtain ⟨node, hnode, hrange, -, hparts, -⟩ :=
    range_of_isIntegerForm (fun index => index.elim0) hform
  have hlower : HasBound ([.marker edgeLimit] ++ edgeConstraints) .gt (-2147483649) :=
    ⟨.marker (.bound .gt (.int (-2147483649))), by decide, _, rfl, rfl⟩
  have hupper : HasBound ([.marker edgeLimit] ++ edgeConstraints) .lt 2147483648 :=
    ⟨.marker edgeLimit, by decide, _, rfl, rfl⟩
  have hvalue : formSchema (fun index : Fin 0 => index.elim0) [.marker edgeLimit] edge =
      .ok (.nullable (.number true)) := rfl
  have hnarrow : (node [.marker edgeLimit]).strip = .number true := by
    rw [(hnode _).1] at hvalue
    rw [Except.ok.inj hvalue]
    rfl
  refine ⟨hform, node, (hnode _).1, hlower, hupper, hnarrow, ?_, ?_⟩
  · exact hrange _ ⟨.gt, _, rfl, hlower⟩ ⟨.lt, _, rfl, hupper⟩ hnarrow
  · refine hparts _ _ fun part => ?_
    simp [Constraint.looseParts, or_comm]

end Introspection

end ProtoSchema
