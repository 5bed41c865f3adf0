import ProtoSchema.CommandLine.FileTree

/-!
# What writing a text changes

A text can be written to a path exactly if the path leads to a location that is no directory. It is
there afterwards, and nothing else has changed: the same path leads to the same location, and every
other location has what it had before. A name that is too long leads nowhere, even if nothing else
is asked of it.
-/

namespace ProtoSchema.CommandLine

namespace FilePath

/-- A text without slashes is a single part. -/
theorem segments_of_not_mem : ∀ {cs : List Char}, '/' ∉ cs → segments cs = [cs]
  | [], _ => rfl
  | c :: rest, h => by
    rw [List.mem_cons, not_or] at h
    rw [segments, if_neg (Ne.symm h.1), segments_of_not_mem h.2]

theorem rootOf_of_not_mem {cs : List Char} (h : '/' ∉ cs) : rootOf cs = "" := by
  unfold rootOf
  split <;> simp_all

/-- A text without slashes that says something is a path of a single name. -/
theorem ofText_of_not_mem {text : String} (hslash : '/' ∉ text.toList) (hempty : text ≠ "")
    (hdot : text ≠ ".") : ofText text = ⟨"", [text]⟩ := by
  simp [ofText, rootOf_of_not_mem hslash, segments_of_not_mem hslash, hempty, hdot]

theorem text_single (name : String) : (FilePath.mk "" [name]).text = name := by
  simp [text]

end FilePath

namespace FileTree

/-- The tree with a text at a location. -/
def put (tree : FileTree) (location : Location) (content : String) : FileTree :=
  { tree with files := (location, .text content) :: tree.files.filter (·.1 ≠ location) }

/-- That a text can be written to a path: it leads to a location that is no directory. -/
def IsWritable (tree : FileTree) (path : FilePath) : Prop :=
  ∃ location, tree.locate path = .ok location ∧ tree.entryAt location ≠ .ok .directory

/-- That a text stands at a path, in place of what was there, and all else is as it was. -/
def IsWritten (tree files : FileTree) (path : FilePath) (content : String) : Prop :=
  ∃ location, tree.locate path = .ok location ∧ files.locate path = .ok location ∧
    files.entryAt location = .ok (.file (.text content)) ∧
    ∀ other, other ≠ location → files.entryAt other = tree.entryAt other

/-- What is under another key is found without the entries of a key as well. -/
theorem lookup_filter_ne {α β : Type} [DecidableEq α] {key other : α} (h : other ≠ key)
    (entries : List (α × β)) :
    (entries.filter (·.1 ≠ key)).lookup other = entries.lookup other := by
  induction entries with
  | nil => rfl
  | cons entry rest ih =>
    by_cases hkey : entry.1 = key
    · have hother : (other == entry.1) = false := by simpa [hkey] using h
      rw [List.filter_cons_of_neg (by simpa using hkey), ih, List.lookup_cons, hother]
    · rw [List.filter_cons_of_pos (by simpa using hkey), List.lookup_cons, List.lookup_cons, ih]

theorem entryAt_put (tree : FileTree) (location : Location) (content : String) :
    (tree.put location content).entryAt location = .ok (.file (.text content)) := by
  simp [entryAt, put]

theorem entryAt_put_of_ne (tree : FileTree) {location other : Location} (content : String)
    (h : other ≠ location) : (tree.put location content).entryAt other = tree.entryAt other := by
  have hlookup : (tree.put location content).files.lookup other = tree.files.lookup other := by
    rw [put, List.lookup_cons, beq_false_of_ne h, lookup_filter_ne h]
  unfold entryAt
  rw [hlookup]
  rfl

/-- A step starts from a directory. -/
theorem step_eq_ok_iff {tree : FileTree} {location next : Location} {name : String} :
    tree.step location name = .ok next ↔
      tree.entryAt location = .ok .directory ∧ name.utf8ByteSize ≤ maxNameSize ∧
        location.next name = next := by
  unfold step
  cases tree.entryAt location with
  | error fault => simp [bind, Except.bind]
  | ok entry =>
    cases entry with
    | file content => simp [bind, Except.bind]
    | directory =>
      simp only [bind, Except.bind, pure, Except.pure]
      split
      · rename_i hsize
        simp [hsize]
      · rename_i hsize
        simp [hsize]

/-- What leads somewhere still leads there when a text is put where no directory is. -/
theorem follow_put {tree : FileTree} {location : Location} (content : String)
    (hentry : tree.entryAt location ≠ .ok .directory) :
    ∀ (names : List String) {start target : Location}, tree.follow start names = .ok target →
      (tree.put location content).follow start names = .ok target
  | [], _, _, h => h
  | name :: rest, start, target, h => by
    rw [follow] at h ⊢
    cases hstep : tree.step start name with
    | error fault =>
      rw [hstep] at h
      cases h
    | ok next =>
      rw [hstep] at h
      obtain ⟨hdirectory, hsize, hnext⟩ := step_eq_ok_iff.1 hstep
      -- a step leaves a directory behind, and the text is put where none is
      have hne : start ≠ location := by
        rintro rfl
        exact hentry hdirectory
      have hstep' : (tree.put location content).step start name = .ok next :=
        step_eq_ok_iff.2 ⟨(entryAt_put_of_ne tree content hne).trans hdirectory, hsize, hnext⟩
      rw [hstep']
      exact follow_put content hentry rest h

theorem locate_put {tree : FileTree} {path : FilePath} {location target : Location}
    (content : String) (hentry : tree.entryAt location ≠ .ok .directory)
    (h : tree.locate path = .ok target) :
    (tree.put location content).locate path = .ok target := by
  unfold locate at h ⊢
  split at h
  · cases h
  · rename_i hnull
    split at h
    · cases h
    · rename_i hsize
      rw [if_neg hnull, if_neg hsize]
      exact follow_put content hentry path.names h

/-- A text is written where the path leads, unless that is a directory. -/
theorem write_eq_ok_iff {tree files : FileTree} {path : FilePath} {content : String} :
    tree.write path content = .ok files ↔
      ∃ location, tree.locate path = .ok location ∧ tree.entryAt location ≠ .ok .directory ∧
        tree.put location content = files := by
  unfold write
  cases tree.locate path with
  | error fault => simp [bind, Except.bind]
  | ok location =>
    simp only [bind, Except.bind, pure, Except.pure]
    split
    · rename_i hentry
      simp [hentry]
    · rename_i hentry
      simp only [Except.ok.injEq, exists_eq_left', ne_eq]
      exact ⟨fun h => ⟨hentry, h⟩, fun h => h.2⟩

/-- Whatever the text, it can be written exactly if the path is one that can be written to. -/
theorem exists_write_iff {tree : FileTree} {path : FilePath} (content : String) :
    (∃ files, tree.write path content = .ok files) ↔ tree.IsWritable path := by
  constructor
  · rintro ⟨files, h⟩
    obtain ⟨location, hlocate, hentry, -⟩ := write_eq_ok_iff.1 h
    exact ⟨location, hlocate, hentry⟩
  · rintro ⟨location, hlocate, hentry⟩
    exact ⟨_, write_eq_ok_iff.2 ⟨location, hlocate, hentry, rfl⟩⟩

/-- What is written stands at the path, and all else is as it was. -/
theorem isWritten_of_write {tree files : FileTree} {path : FilePath} {content : String}
    (h : tree.write path content = .ok files) : tree.IsWritten files path content := by
  obtain ⟨location, hlocate, hentry, rfl⟩ := write_eq_ok_iff.1 h
  exact ⟨location, hlocate, locate_put content hentry hlocate, entryAt_put tree location content,
    fun other hne => entryAt_put_of_ne tree content hne⟩

/-- A text that is written can be read back. -/
theorem IsWritten.textAt_eq {tree files : FileTree} {path : FilePath} {content : String}
    (h : tree.IsWritten files path content) : files.textAt path = some content := by
  obtain ⟨location, -, hlocate, hentry, -⟩ := h
  simp [textAt, entry, hlocate, bind, Except.bind, hentry]

/-- A name that is too long leads nowhere from the working directory, not even to something that is
missing. -/
theorem entry_of_long {tree : FileTree} {name : String}
    (hworking : tree.entryAt Location.working = .ok .directory) (hnull : '\x00' ∉ name.toList)
    (hlong : maxNameSize < name.utf8ByteSize) (hfits : name.utf8ByteSize ≤ maxPathSize) :
    tree.entry ⟨"", [name]⟩ = .error .nameTooLong := by
  have hstep : tree.step Location.working name = .error .nameTooLong := by
    simp [step, hworking, bind, Except.bind, Nat.not_le.2 hlong]
  have hlocate : tree.locate ⟨"", [name]⟩ = .error .nameTooLong := by
    simp [locate, FilePath.text_single, String.contains_char_eq, hnull, Nat.not_lt.2 hfits,
      FilePath.start, follow, hstep, bind, Except.bind]
  simp [entry, hlocate, bind, Except.bind]

end FileTree

end ProtoSchema.CommandLine
