/-!
# Lists of named entries

A list of named entries keeps the order in which its names were first put into it. Putting an entry
under a name that is there replaces the value and leaves the place. A list built by putting holds
every name once.
-/

namespace ProtoSchema.Entries

variable {α : Type}

/-- The names of the entries, in order. -/
def names (entries : List (String × α)) : List String :=
  entries.map (·.1)

/-- The entries with the value put under the name. -/
def put (entries : List (String × α)) (name : String) (value : α) : List (String × α) :=
  match entries with
  | [] => [(name, value)]
  | (other, old) :: rest =>
    if other = name then (name, value) :: rest else (other, old) :: put rest name value

/-- The entries put one after the other into an empty list. -/
def ofList (entries : List (String × α)) : List (String × α) :=
  entries.foldl (fun held entry => put held entry.1 entry.2) []

/-- Whether there is an entry under the name. -/
def holds (entries : List (String × α)) (name : String) : Bool :=
  (names entries).contains name

theorem holds_iff {entries : List (String × α)} {name : String} :
    holds entries name = true ↔ name ∈ names entries := by
  simp [holds]

/-- A new name is added at the end; a name that is there changes no place. -/
theorem names_put (entries : List (String × α)) (name : String) (value : α) :
    names (put entries name value) =
      if name ∈ names entries then names entries else names entries ++ [name] := by
  induction entries with
  | nil => simp [names, put]
  | cons entry rest ih =>
    obtain ⟨other, old⟩ := entry
    by_cases hname : other = name
    · simp [names, put, hname]
    · have hne : ¬name = other := fun h => hname h.symm
      simp only [names, List.map_cons, List.mem_cons, hne, false_or] at ih ⊢
      simp only [put, hname, if_false, List.map_cons]
      split <;> simp_all

/-- What is there after a put is the entry just put or was there before. -/
theorem mem_put {entries : List (String × α)} {name : String} {value : α} {entry : String × α}
    (h : entry ∈ put entries name value) : entry = (name, value) ∨ entry ∈ entries := by
  induction entries with
  | nil => exact .inl (List.mem_singleton.1 h)
  | cons first rest ih =>
    obtain ⟨other, old⟩ := first
    rw [put] at h
    split at h
    · exact (List.mem_cons.1 h).imp_right (List.mem_cons_of_mem _)
    · rcases List.mem_cons.1 h with rfl | hrest
      · exact .inr List.mem_cons_self
      · exact (ih hrest).imp_right (List.mem_cons_of_mem _)

/-- Putting keeps the names distinct. -/
theorem nodup_names_put {entries : List (String × α)} (h : (names entries).Nodup) (name : String)
    (value : α) : (names (put entries name value)).Nodup := by
  rw [names_put]
  split
  · exact h
  · rename_i hnew
    exact List.nodup_append.2
      ⟨h, by simp, fun a ha b hb hab => hnew (by simp_all)⟩

/-- The value found under the name just put is the one put there. -/
theorem lookup_put_self (entries : List (String × α)) (name : String) (value : α) :
    (put entries name value).lookup name = some value := by
  induction entries with
  | nil => simp [put]
  | cons entry rest ih =>
    obtain ⟨other, old⟩ := entry
    by_cases hname : other = name
    · simp [put, hname]
    · have hne : (name == other) = false := by simpa using fun h => hname h.symm
      simp [put, hname, List.lookup_cons, hne, ih]

/-- Putting under one name leaves the values under the others. -/
theorem lookup_put_other (entries : List (String × α)) {name other : String} (h : other ≠ name)
    (value : α) : (put entries name value).lookup other = entries.lookup other := by
  induction entries with
  | nil =>
    have hne : (other == name) = false := by simpa using h
    simp [put, List.lookup_cons, hne]
  | cons entry rest ih =>
    obtain ⟨first, old⟩ := entry
    by_cases hname : first = name
    · have hne : (other == first) = false := by simpa [hname] using h
      have hne' : (other == name) = false := by simpa using h
      simp [put, hname, List.lookup_cons, hne']
    · simp [put, hname, List.lookup_cons, ih]

/-- A list built by putting holds every name once. -/
theorem nodup_names_ofList (entries : List (String × α)) : (names (ofList entries)).Nodup := by
  unfold ofList
  have hfold : ∀ held : List (String × α), (names held).Nodup →
      (names (entries.foldl (fun held entry => put held entry.1 entry.2) held)).Nodup := by
    induction entries with
    | nil => exact fun held h => h
    | cons entry rest ih => exact fun held h => ih _ (nodup_names_put h entry.1 entry.2)
  exact hfold [] (by simp [names])

end ProtoSchema.Entries
