import Mathlib.Data.List.Nodup
import ProtoSchema.Proofs.Definitions

/-!
# Warnings

A warning is logged exactly where a definition has the name of an earlier one of its kind. The
warnings of a list of definitions are read off the list, and there are none of them exactly if the
messages have different names and the enums have different names. Then no definition is replaced,
and the messages and the enums of the list are kept as they are. A message and an enum of one name
are no cause for a warning.
-/

namespace ProtoSchema

namespace Entries

variable {α : Type}

/-- The name of an entry is one of the names. -/
theorem mem_names {entries : List (String × α)} {entry : String × α} (h : entry ∈ entries) :
    entry.1 ∈ names entries :=
  List.mem_map_of_mem h

/-- Merging loses no name and adds none. -/
theorem mem_names_merged {entries : List (String × α)} {name : String} :
    name ∈ names (merged entries) ↔ name ∈ names entries := by
  induction entries with
  | nil => simp [merged]
  | cons entry rest ih =>
    obtain ⟨first, value⟩ := entry
    have hfilter : name ∈ names ((merged rest).filter (·.1 ≠ first)) ↔
        name ≠ first ∧ name ∈ names rest := by
      rw [← ih]
      simp only [names, List.mem_map, List.mem_filter, decide_eq_true_eq]
      constructor
      · rintro ⟨other, ⟨hmem, hne⟩, rfl⟩
        exact ⟨hne, other, hmem, rfl⟩
      · rintro ⟨hne, other, hmem, rfl⟩
        exact ⟨other, ⟨hmem, hne⟩, rfl⟩
    rw [merged]
    change name ∈ first :: names _ ↔ name ∈ first :: names rest
    rw [List.mem_cons, List.mem_cons, hfilter]
    by_cases hname : name = first <;> simp [hname]

/-- Entries of different names are merged into themselves. -/
theorem merged_of_nodup {entries : List (String × α)} (h : (names entries).Nodup) :
    merged entries = entries := by
  induction entries with
  | nil => rfl
  | cons entry rest ih =>
    obtain ⟨first, value⟩ := entry
    obtain ⟨hfirst, hrest⟩ : first ∉ names rest ∧ (names rest).Nodup := List.nodup_cons.1 h
    have hlookup : rest.reverse.lookup first = none := by
      rw [List.lookup_eq_none_iff]
      intro other hother
      have hne : first ≠ other.1 := by
        rintro rfl
        exact hfirst (mem_names (List.mem_reverse.1 hother))
      simpa using hne
    have hfilter : rest.filter (·.1 ≠ first) = rest := by
      rw [List.filter_eq_self]
      intro other hother
      have hne : other.1 ≠ first := by
        rintro rfl
        exact hfirst (mem_names hother)
      simpa using hne
    rw [merged, hlookup, ih hrest, hfilter, Option.getD_none]

end Entries

namespace Definition

/-- Whether the definition is one of a message. -/
def isMessage : Definition → Bool
  | .message _ _ => true
  | .enumeration _ _ => false

/-- The name that is defined. -/
def name : Definition → String
  | .message name _ => name
  | .enumeration name _ => name

/-- What makes one definition replace another: the kind and the name. -/
def key (definition : Definition) : Bool × String :=
  (definition.isMessage, definition.name)

/-- The warning that a definition is worth if it replaces another. -/
def warning : Definition → LogEntry
  | .message name _ => .messageRedefined name
  | .enumeration name _ => .enumRedefined name

end Definition

namespace Definitions

/-- The warnings that are logged when the definitions of a list are made after those of another. -/
def warnings (before : List Definition) : List Definition → List LogEntry
  | [] => []
  | definition :: rest =>
    (if definition.key ∈ before.map Definition.key then [definition.warning] else []) ++
      warnings (before ++ [definition]) rest

/-- The warnings of two lists are those of the first and then those of the second after it. -/
theorem warnings_append (before list more : List Definition) :
    warnings before (list ++ more) = warnings before list ++ warnings (before ++ list) more := by
  induction list generalizing before with
  | nil => simp [warnings]
  | cons definition rest ih => simp [warnings, ih]

/-- There are no warnings exactly if no two definitions have the same kind and the same name. -/
theorem warnings_eq_nil_iff {before : List Definition}
    (hbefore : (before.map Definition.key).Nodup) (list : List Definition) :
    warnings before list = [] ↔ ((before ++ list).map Definition.key).Nodup := by
  induction list generalizing before with
  | nil => simpa [warnings] using hbefore
  | cons definition rest ih =>
    by_cases hused : definition.key ∈ before.map Definition.key
    · simp only [warnings, hused, if_true, List.singleton_append, List.cons_ne_nil, false_iff]
      intro hnodup
      rw [List.map_append, List.map_cons] at hnodup
      exact (List.nodup_append.1 hnodup).2.2 _ hused _ List.mem_cons_self rfl
    · have hnext : ((before ++ [definition]).map Definition.key).Nodup := by
        rw [List.map_append]
        refine List.nodup_append.2 ⟨hbefore, by simp, ?_⟩
        rintro key hkey _ hmem rfl
        rw [List.mem_singleton.1 hmem] at hkey
        exact hused hkey
      rw [warnings, if_neg hused, List.nil_append, ih hnext, List.append_assoc,
        List.singleton_append]

/-- A list of definitions is made without a warning exactly if no two of them have the same kind and
the same name. -/
theorem warnings_nil_iff (list : List Definition) :
    warnings [] list = [] ↔ (list.map Definition.key).Nodup :=
  have hnone : (([] : List Definition).map Definition.key).Nodup := List.nodup_nil
  warnings_eq_nil_iff hnone list

/-- The names of the messages of a list are those that it has with the kind of a message. -/
theorem names_message (list : List Definition) :
    Entries.names (list.filterMap Definition.message?) =
      (list.map Definition.key).filterMap fun key => if key.1 then some key.2 else none := by
  rw [Entries.names, List.map_filterMap, List.filterMap_map]
  congr
  funext definition
  cases definition <;> rfl

/-- The names of the enums of a list are those that it has with the kind of an enum. -/
theorem names_enumeration (list : List Definition) :
    Entries.names (list.filterMap Definition.enumeration?) =
      (list.map Definition.key).filterMap fun key => if key.1 then none else some key.2 := by
  rw [Entries.names, List.map_filterMap, List.filterMap_map]
  congr
  funext definition
  cases definition <;> rfl

/-- The messages of a list use a name exactly if one of them is defined by it. -/
theorem holds_message_iff {list : List Definition} {name : String} :
    (ofList list).messages.holds name = true ↔ (true, name) ∈ list.map Definition.key := by
  rw [Catalogue.holds_iff]
  change name ∈ Entries.names (Entries.merged _) ↔ _
  rw [Entries.mem_names_merged, names_message, List.mem_filterMap]
  constructor
  · rintro ⟨⟨isMessage, other⟩, hmem, hname⟩
    cases isMessage <;> simp at hname
    rwa [← hname]
  · intro hmem
    exact ⟨_, hmem, rfl⟩

/-- The enums of a list use a name exactly if one of them is defined by it. -/
theorem holds_enumeration_iff {list : List Definition} {name : String} :
    (ofList list).enums.holds name = true ↔ (false, name) ∈ list.map Definition.key := by
  rw [Catalogue.holds_iff]
  change name ∈ Entries.names (Entries.merged _) ↔ _
  rw [Entries.mem_names_merged, names_enumeration, List.mem_filterMap]
  constructor
  · rintro ⟨⟨isMessage, other⟩, hmem, hname⟩
    cases isMessage <;> simp at hname
    rwa [← hname]
  · intro hmem
    exact ⟨_, hmem, rfl⟩

/-- Recording an event warns if it replaces a definition. -/
theorem shown_record_ofList (before : List Definition) (event : Event) :
    LogEntry.shown false ((ofList before).record event).2 =
      warnings before event.definition?.toList := by
  cases event with
  | message name fields =>
    have hlog : LogEntry.shown false ((ofList before).record (.message name fields)).2 =
        if (ofList before).messages.holds name then [.messageRedefined name] else [] := by
      simp only [record, defineMessage, LogEntry.shown_append]
      split <;> rfl
    rw [hlog]
    simp only [holds_message_iff]
    exact (List.append_nil _).symm
  | enumeration name options =>
    have hlog : LogEntry.shown false ((ofList before).record (.enumeration name options)).2 =
        if (ofList before).enums.holds name then [.enumRedefined name] else [] := by
      simp only [record, defineEnum, LogEntry.shown_append]
      split <;> rfl
    rw [hlog]
    simp only [holds_enumeration_iff]
    exact (List.append_nil _).symm
  | objectCompiled label fieldCount => rfl

/-- Recording events warns of every definition that replaces another. -/
theorem shown_recordAll_ofList (before : List Definition) (events : List Event) :
    LogEntry.shown false ((ofList before).recordAll events).2 =
      warnings before (events.filterMap Event.definition?) := by
  induction events generalizing before with
  | nil => rfl
  | cons event rest ih =>
    have hlist : (event :: rest).filterMap Event.definition? =
        event.definition?.toList ++ rest.filterMap Event.definition? := by
      rw [List.filterMap_cons]
      cases event.definition? <;> rfl
    have hrest := ih (before ++ event.definition?.toList)
    rw [← record_ofList] at hrest
    rw [hlist, warnings_append, ← shown_record_ofList, ← hrest]
    exact LogEntry.shown_append false _ _

section Distinct

variable {list : List Definition}

/-- Where no message replaces another, all messages of a list are kept as they are. -/
theorem entries_messages (h : (list.map Definition.key).Nodup) :
    (ofList list).messages.entries = list.filterMap Definition.message? := by
  refine Entries.merged_of_nodup ?_
  rw [names_message]
  refine h.filterMap ?_
  rintro ⟨_ | _, name⟩ ⟨_ | _, other⟩ found hname hother <;> simp_all

/-- Where no enum replaces another, all enums of a list are kept as they are. -/
theorem entries_enums (h : (list.map Definition.key).Nodup) :
    (ofList list).enums.entries = list.filterMap Definition.enumeration? := by
  refine Entries.merged_of_nodup ?_
  rw [names_enumeration]
  refine h.filterMap ?_
  rintro ⟨_ | _, name⟩ ⟨_ | _, other⟩ found hname hother <;> simp_all

/-- The definitions of a list have different names exactly if no two of one kind have one name and no
enum has the name of a message. -/
theorem nodup_name_iff :
    (list.map Definition.name).Nodup ↔
      (list.map Definition.key).Nodup ∧
        ∀ name ∈ (ofList list).enums.names, name ∉ (ofList list).messages.names := by
  have hnames : list.map Definition.name = (list.map Definition.key).map Prod.snd := by
    rw [List.map_map]
    rfl
  have hclash : (∀ name ∈ (ofList list).enums.names, name ∉ (ofList list).messages.names) ↔
      ∀ name, (false, name) ∈ list.map Definition.key →
        (true, name) ∉ list.map Definition.key := by
    refine forall_congr' fun name => ?_
    rw [← Catalogue.holds_iff, ← Catalogue.holds_iff, holds_enumeration_iff, holds_message_iff]
  rw [hnames, hclash]
  constructor
  · intro hnodup
    refine ⟨hnodup.of_map _, fun name henum hmessage => ?_⟩
    have hsame := List.inj_on_of_nodup_map hnodup henum hmessage rfl
    cases hsame
  · rintro ⟨hkeys, hapart⟩
    refine hkeys.map_on ?_
    rintro ⟨_ | _, name⟩ hfirst ⟨_ | _, _⟩ hsecond rfl
    · rfl
    · exact absurd hsecond (hapart name hfirst)
    · exact absurd hfirst (hapart name hsecond)
    · rfl

end Distinct

end Definitions

end ProtoSchema
