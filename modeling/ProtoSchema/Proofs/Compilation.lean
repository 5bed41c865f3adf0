import ProtoSchema.Compilation

/-!
# Laws of compilations

Compilations are put together by doing one after another, and the order in which they are bracketed
does not matter. A compilation made of two succeeds exactly if both do, and it fails exactly if the
first fails, or the second fails where the first has led.
-/

namespace ProtoSchema.Compilation

variable {α β : Type}

@[simp]
theorem outcome_pure (value : α) : (pure value : Compilation α).outcome = .ok value := rfl

/-- Nothing is gained by reporting nothing before or after a compilation. -/
instance : LawfulMonad Compilation :=
  LawfulMonad.mk' Compilation
    (by
      intro α first
      obtain ⟨events, outcome⟩ := first
      cases outcome <;> simp [Functor.map, andThen, done])
    (by
      intro α β value next
      simp [bind, andThen, pure, done])
    (by
      intro α β γ first next last
      obtain ⟨events, outcome⟩ := first
      cases outcome with
      | error cause => rfl
      | ok value =>
        simp only [bind, andThen]
        cases (next value).outcome <;> simp [List.append_assoc])

/-- Nothing follows a compilation that fails at once. -/
@[simp]
theorem fail_bind (cause : SchemaError) (next : α → Compilation β) :
    (fail cause : Compilation α) >>= next = fail cause := rfl

@[simp]
theorem map_fail (cause : SchemaError) (convert : α → β) :
    convert <$> (fail cause : Compilation α) = fail cause := rfl

/-- Two compilations in a row succeed exactly if each of them does. -/
theorem outcome_bind_eq_ok_iff {first : Compilation α} {next : α → Compilation β} {result : β} :
    (first >>= next).outcome = .ok result ↔
      ∃ value, first.outcome = .ok value ∧ (next value).outcome = .ok result := by
  cases h : first.outcome with
  | error cause => simp [bind_of_error h]
  | ok value => simp [bind_of_ok h]

/-- A compilation after one that yields nothing succeeds exactly if both do. -/
theorem outcome_then_eq_ok_iff {first : Compilation Unit} {next : Compilation β} {result : β} :
    (first >>= fun _ => next).outcome = .ok result ↔
      first.outcome = .ok () ∧ next.outcome = .ok result := by
  rw [outcome_bind_eq_ok_iff]
  constructor
  · rintro ⟨⟨⟩, hfirst, hnext⟩
    exact ⟨hfirst, hnext⟩
  · rintro ⟨hfirst, hnext⟩
    exact ⟨(), hfirst, hnext⟩

/-- Two compilations in a row fail for the cause of the first one that fails. -/
theorem outcome_bind_eq_error_iff {first : Compilation α} {next : α → Compilation β}
    {cause : SchemaError} :
    (first >>= next).outcome = .error cause ↔
      first.outcome = .error cause ∨
        ∃ value, first.outcome = .ok value ∧ (next value).outcome = .error cause := by
  cases h : first.outcome with
  | error other => simp [bind_of_error h]
  | ok value => simp [bind_of_ok h]

/-- A result that is only passed on changes neither what happens nor the cause of a failure. -/
theorem outcome_bind_pure_eq_error_iff {first : Compilation α} {result : α → β}
    {cause : SchemaError} :
    (first >>= fun value => pure (result value)).outcome = .error cause ↔
      first.outcome = .error cause := by
  rw [outcome_bind_eq_error_iff]
  simp

/-- A compilation that yields nothing ends as it does when a result is added to it. -/
theorem outcome_then_pure (first : Compilation Unit) (result : β) :
    (first >>= fun _ => pure result).outcome = first.outcome.map fun _ => result := by
  cases h : first.outcome with
  | error cause => rw [bind_of_error h]; rfl
  | ok value => rw [bind_of_ok h]; rfl

/-- The same things happen in a compilation when a result is added to it. -/
theorem events_then_pure (first : Compilation Unit) (result : β) :
    (first >>= fun _ => pure result).events = first.events := by
  cases h : first.outcome with
  | error cause => rw [bind_of_error h]
  | ok value => rw [bind_of_ok h]; exact List.append_nil _

end ProtoSchema.Compilation
