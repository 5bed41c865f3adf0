import ProtoSchema.Text.Uppercase

/-!
# Uppercase forms of uppercase forms

The uppercase form of a character begins with a character that is its own uppercase form, also where
the form has several characters. It has a full stop only if the character is one. Both are read off
the tables: no capital of a run, and no character with which an expansion begins, has another
uppercase form.
-/

namespace ProtoSchema.Text.Uppercase

namespace Run

/-- The run of a single code point. -/
def single (code : Nat) : Run :=
  ⟨code, code, 1, 0⟩

/-- The code points that a run holds. -/
def codes (run : Run) : List Nat :=
  List.range' run.first ((run.last - run.first) / run.step + 1) run.step

/-- The code point of the capital that a run gives to a code point. -/
def capitalCode (run : Run) (code : Nat) : Nat :=
  (code + run.offset).toNat

/-- Whether no capital of a run is held by another one. Most runs lie apart, which is seen at their
ends; the capitals are looked at one by one only where this does not decide it. -/
def avoids (run other : Run) : Bool :=
  Nat.blt (run.capitalCode run.last) other.first ||
    (Nat.blt other.last (run.capitalCode run.first) ||
      run.codes.all fun code => !other.holds (run.capitalCode code))

variable {run other : Run} {code : Nat}

theorem holds_iff :
    run.holds code = true ↔
      run.first ≤ code ∧ code ≤ run.last ∧ (code - run.first) % run.step = 0 := by
  simp [holds, and_assoc]

theorem holds_single (code : Nat) : (single code).holds code = true := by
  simp [holds_iff, single]

/-- A code point that a run holds is listed among its code points. -/
theorem mem_codes (h : run.holds code = true) : code ∈ run.codes := by
  obtain ⟨hfirst, hlast, hstep⟩ := holds_iff.1 h
  have hspan : (code - run.first) / run.step ≤ (run.last - run.first) / run.step :=
    Nat.div_le_div_right (Nat.sub_le_sub_right hlast _)
  have hcode : run.step * ((code - run.first) / run.step) = code - run.first :=
    Nat.mul_div_cancel' (Nat.dvd_of_mod_eq_zero hstep)
  refine List.mem_range'.2 ⟨(code - run.first) / run.step, Nat.lt_succ_of_le hspan, ?_⟩
  omega

/-- A run that avoids another one gives no capital that the other one holds. -/
theorem holds_capitalCode (h : run.avoids other = true) (hcode : run.holds code = true) :
    other.holds (run.capitalCode code) = false := by
  obtain ⟨hfirst, hlast, -⟩ := holds_iff.1 hcode
  have hlow : run.capitalCode run.first ≤ run.capitalCode code := by
    unfold capitalCode
    omega
  have hhigh : run.capitalCode code ≤ run.capitalCode run.last := by
    unfold capitalCode
    omega
  rw [avoids, Bool.or_eq_true, Bool.or_eq_true, Nat.blt_eq, Nat.blt_eq, List.all_eq_true] at h
  rcases h with hbelow | habove | hnone
  · refine Bool.eq_false_iff.2 fun hother => ?_
    have hleast := (holds_iff.1 hother).1
    omega
  · refine Bool.eq_false_iff.2 fun hother => ?_
    have hgreatest := (holds_iff.1 hother).2.1
    omega
  · simpa using hnone code (mem_codes hcode)

end Run

/-- An expansion that is found is one of the table. -/
theorem mem_expansions {code : Nat} {codes : List Nat} (h : expansions.lookup code = some codes) :
    (code, codes) ∈ expansions := by
  obtain ⟨before, after, hsplit, -⟩ := List.lookup_eq_some_iff.1 h
  rw [hsplit]
  exact List.mem_append_right _ List.mem_cons_self

/-- Runs that hold every code point with another uppercase form than itself, and the full stop. -/
def unsettled : List Run :=
  .single '.'.toNat :: expansions.map (.single ·.1) ++ runs

/-- A code point that is its own uppercase form, and not the full stop. -/
def IsSettled (code : Nat) : Prop :=
  ∀ run ∈ unsettled, run.holds code = false

instance (code : Nat) : Decidable (IsSettled code) :=
  inferInstanceAs (Decidable (∀ run ∈ unsettled, run.holds code = false))

namespace IsSettled

/-- The character of a settled code point is settled, also if no character has that code point. -/
theorem ofNat {code : Nat} (h : IsSettled code) : IsSettled (Char.ofNat code).toNat := by
  by_cases hvalid : code.isValidChar
  · rw [Char.ofNat, dif_pos hvalid]
    exact h
  · have hzero : IsSettled 0 := by decide +kernel
    rw [Char.ofNat, dif_neg hvalid]
    exact hzero

variable {c : Char}

theorem ne_dot (h : IsSettled c.toNat) : c ≠ '.' := by
  rintro rfl
  have hdot := h (.single '.'.toNat) List.mem_cons_self
  rw [Run.holds_single] at hdot
  cases hdot

/-- A settled character is its own uppercase form. -/
theorem upper (h : IsSettled c.toNat) : Uppercase.upper c = [c] := by
  have hexpansion : expansions.lookup c.toNat = none := by
    rw [List.lookup_eq_none_iff]
    intro entry hentry
    have hsingle := h (.single entry.1)
      (List.mem_append_left _ (List.mem_cons_of_mem _ (List.mem_map_of_mem hentry)))
    rw [bne_iff_ne]
    intro hcode
    rw [hcode, Run.holds_single] at hsingle
    cases hsingle
  have hrun : runs.find? (·.holds c.toNat) = none := by
    rw [List.find?_eq_none]
    intro run hrun hholds
    rw [h run (List.mem_append_right _ hrun)] at hholds
    cases hholds
  rw [upper_of_single hexpansion, capital, hrun]

end IsSettled

/-- No capital of a run is held by a run, has an expansion or is the full stop. -/
theorem avoids_of_mem_unsettled {run other : Run} (h : run ∈ runs) (hother : other ∈ unsettled) :
    run.avoids other = true := by
  have hall : (runs.all fun run => unsettled.all run.avoids) = true := by decide +kernel
  exact List.all_eq_true.1 (List.all_eq_true.1 hall run h) other hother

/-- Every expansion begins, with a settled character. -/
theorem isSettled_of_mem_expansions : ∀ entry ∈ expansions, ∃ code ∈ entry.2.head?,
    IsSettled code := by
  decide +kernel

/-- The capital of a character is the character itself or settled. -/
theorem capital_cases (c : Char) : capital c = c ∨ IsSettled (capital c).toNat := by
  unfold capital
  split
  · rename_i run hfind
    refine .inr (IsSettled.ofNat fun other hother => ?_)
    have hholds : run.holds c.toNat = true := by simpa using List.find?_some hfind
    exact Run.holds_capitalCode
      (avoids_of_mem_unsettled (List.mem_of_find?_eq_some hfind) hother) hholds
  · exact .inl rfl

/-- The uppercase form of a character is the character itself or begins with a settled one. -/
theorem upper_cases (c : Char) :
    upper c = [c] ∨ ∃ d rest, upper c = d :: rest ∧ IsSettled d.toNat := by
  cases hexpansion : expansions.lookup c.toNat with
  | none =>
    rw [upper_of_single hexpansion]
    refine (capital_cases c).imp (fun hsame => by rw [hsame]) fun hsettled => ?_
    exact ⟨capital c, [], rfl, hsettled⟩
  | some codes =>
    obtain ⟨code, hcode, hsettled⟩ := isSettled_of_mem_expansions _ (mem_expansions hexpansion)
    obtain ⟨rest, hcodes⟩ : ∃ rest, codes = code :: rest := List.head?_eq_some_iff.1 hcode
    refine .inr ⟨Char.ofNat code, rest.map Char.ofNat, ?_, hsettled.ofNat⟩
    rw [upper_of_expansion hexpansion, hcodes, List.map_cons]

/-- The uppercase form of a character begins with its own uppercase form. -/
theorem exists_upper (c : Char) : ∃ d rest, upper c = d :: rest ∧ upper d = [d] := by
  rcases upper_cases c with hsame | ⟨d, rest, hupper, hsettled⟩
  · exact ⟨c, [], hsame, hsame⟩
  · exact ⟨d, rest, hupper, hsettled.upper⟩

/-- No uppercase form of another character has a full stop. -/
theorem dot_not_mem_upper {c : Char} (h : c ≠ '.') : '.' ∉ upper c := by
  cases hexpansion : expansions.lookup c.toNat with
  | none =>
    rw [upper_of_single hexpansion, List.mem_singleton]
    rcases capital_cases c with hsame | hsettled
    · rw [hsame]
      exact Ne.symm h
    · exact Ne.symm hsettled.ne_dot
  | some codes =>
    have hdots : ∀ entry ∈ expansions, '.' ∉ entry.2.map Char.ofNat := by decide +kernel
    rw [upper_of_expansion hexpansion]
    exact hdots _ (mem_expansions hexpansion)

end ProtoSchema.Text.Uppercase
