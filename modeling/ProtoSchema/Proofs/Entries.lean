import ProtoSchema.Entries

/-!
# Merging named entries

Entries of equal name are merged into one that stands where the first of them stands and has the
value of the last. Putting entries one after the other into an empty list merges them.
-/

namespace ProtoSchema.Entries

variable {α β : Type}

/-- The entries with those of equal name merged. -/
def merged : List (String × α) → List (String × α)
  | [] => []
  | (name, value) :: rest =>
    (name, (rest.reverse.lookup name).getD value) :: (merged rest).filter (·.1 ≠ name)

/-- A put is not seen when the entries under its name are left out. -/
theorem filter_put_self (entries : List (String × α)) (name : String) (value : α) :
    (put entries name value).filter (·.1 ≠ name) = entries.filter (·.1 ≠ name) := by
  induction entries with
  | nil => simp [put]
  | cons entry rest ih =>
    obtain ⟨other, old⟩ := entry
    by_cases hname : other = name
    · simp [put, hname]
    · simp only [put, hname, if_false, List.filter_cons]
      rw [ih]

/-- Entries under another name may be left out before or after a put. -/
theorem filter_put_other (entries : List (String × α)) {name other : String} (h : name ≠ other)
    (value : α) :
    (put entries name value).filter (·.1 ≠ other) =
      put (entries.filter (·.1 ≠ other)) name value := by
  induction entries with
  | nil => simp [put, h]
  | cons entry rest ih =>
    obtain ⟨first, old⟩ := entry
    by_cases hname : first = name
    · simp [put, hname, h]
    · by_cases hother : first = other
      · subst hother
        simp only [put, hname, if_false, List.filter_cons, ne_eq, not_true_eq_false, decide_false,
          Bool.false_eq_true]
        exact ih
      · simp only [put, hname, if_false, List.filter_cons, hother, ne_eq, not_false_eq_true,
          decide_true, if_true]
        exact congrArg ((first, old) :: ·) ih

/-- Entries may get other names before or after a put, as long as no two names become one, and other
values, which may depend on the name. -/
theorem map_put {convert : String → String} (h : Function.Injective convert)
    (value : String → α → β) (entries : List (String × α)) (name : String) (old : α) :
    (put entries name old).map (fun entry => (convert entry.1, value entry.1 entry.2)) =
      put (entries.map fun entry => (convert entry.1, value entry.1 entry.2)) (convert name)
        (value name old) := by
  induction entries with
  | nil => rfl
  | cons entry rest ih =>
    obtain ⟨other, held⟩ := entry
    by_cases hname : other = name
    · simp [put, hname]
    · have hconverted : convert other ≠ convert name := fun heq => hname (h heq)
      simp [put, hname, hconverted, ih]

/-- Merging one more entry is putting it into the merged ones. -/
theorem merged_append_singleton (entries : List (String × α)) (name : String) (value : α) :
    merged (entries ++ [(name, value)]) = put (merged entries) name value := by
  induction entries with
  | nil => simp [merged, put]
  | cons entry rest ih =>
    obtain ⟨other, old⟩ := entry
    rw [List.cons_append, merged, merged, ih, List.reverse_append, List.reverse_singleton,
      List.singleton_append, List.lookup_cons]
    -- the new entry is of the first name, whose value it replaces, or it goes into the rest
    by_cases hname : other = name
    · subst hname
      rw [filter_put_self]
      simp [put]
    · have hne : (other == name) = false := by simpa using hname
      rw [filter_put_other _ (fun h => hname h.symm)]
      simp [put, hname, hne]

/-- Putting entries one after the other into merged entries merges all of them. -/
theorem foldl_put_merged (before entries : List (String × α)) :
    entries.foldl (fun held entry => put held entry.1 entry.2) (merged before) =
      merged (before ++ entries) := by
  induction entries generalizing before with
  | nil => simp
  | cons entry rest ih =>
    obtain ⟨name, value⟩ := entry
    have hrest := ih (before ++ [(name, value)])
    rw [merged_append_singleton, List.append_assoc] at hrest
    exact hrest

/-- A list that is built by putting holds the merged entries. -/
theorem ofList_eq_merged (entries : List (String × α)) : ofList entries = merged entries :=
  foldl_put_merged [] entries

example : merged [("a", 1), ("b", 2), ("a", 3)] = [("a", 3), ("b", 2)] := by decide

/-- Merged entries have different names. -/
theorem nodup_names_merged (entries : List (String × α)) : (names (merged entries)).Nodup := by
  rw [← ofList_eq_merged]
  exact nodup_names_ofList entries

/-- The last entry of a list is what is found under its name when the list is merged. -/
theorem lookup_merged_last (entries : List (String × α)) (name : String) (value : α) :
    (merged (entries ++ [(name, value)])).lookup name = some value := by
  rw [merged_append_singleton]
  exact lookup_put_self _ name value

end ProtoSchema.Entries
