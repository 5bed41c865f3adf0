/-!
# Selecting a model

A model is selected from candidates by name; the first of that name is taken. Without a name there
has to be exactly one candidate.
-/

namespace ProtoSchema

/-- Why no model is selected. -/
inductive SelectionError where
  /-- No candidate has the name. -/
  | noneNamed (name : String)
  /-- There is no candidate. -/
  | noCandidates
  /-- There are several candidates and no name. -/
  | several (names : List String)
  deriving DecidableEq

/-- The text that reports why no model is selected. -/
def SelectionError.message : SelectionError → String
  | .noneNamed name => "No model named " ++ name
  | .noCandidates => "No Pydantic models found"
  | .several names =>
    "Several models found (" ++ ", ".intercalate names ++ "); choose one with --model"

/-- The selected candidate. -/
def select {α : Type} (nameOf : α → String) (candidates : List α) (name : Option String) :
    Except SelectionError α :=
  match name with
  | some wanted =>
    match candidates.find? (nameOf · = wanted) with
    | some candidate => .ok candidate
    | none => .error (.noneNamed wanted)
  | none =>
    match candidates with
    | [] => .error .noCandidates
    | [only] => .ok only
    | several => .error (.several (several.map nameOf))

theorem select_singleton {α : Type} (nameOf : α → String) (only : α) :
    select nameOf [only] none = .ok only := rfl

/-- A selected candidate is one of the candidates, and has the name that was asked for. -/
theorem select_sound {α : Type} {nameOf : α → String} {candidates : List α} {name : Option String}
    {candidate : α} (h : select nameOf candidates name = .ok candidate) :
    candidate ∈ candidates ∧ ∀ wanted ∈ name, nameOf candidate = wanted := by
  cases name with
  | some wanted =>
    cases hfind : candidates.find? (nameOf · = wanted) with
    | none => simp [select, hfind] at h
    | some found =>
      have he : found = candidate := by simpa [select, hfind] using h
      subst he
      exact ⟨List.mem_of_find?_eq_some hfind, by simpa using List.find?_some hfind⟩
  | none =>
    match candidates, h with
    | [only], h =>
      have he : only = candidate := by simpa [select] using h
      simp [he]

end ProtoSchema
