/-!
# Steps that may fail

Steps that are taken one after the other succeed exactly if each of them does, and each goes on with
what the one before it has found. This takes a successful run over a list apart: into the step for the
first member, and the run over the rest.
-/

namespace ProtoSchema

universe u v

variable {ε : Type u} {α β : Type v}

/-- Two steps in a row succeed exactly if each of them does. -/
theorem bind_eq_ok_iff {first : Except ε α} {next : α → Except ε β} {result : β} :
    (first >>= next) = .ok result ↔ ∃ value, first = .ok value ∧ next value = .ok result := by
  cases first with
  | error cause => simp [bind, Except.bind]
  | ok value => simp [bind, Except.bind]

end ProtoSchema
