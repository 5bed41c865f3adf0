import ProtoSchema.Proofs.Compile.Clashes
import ProtoSchema.Proofs.Document
import ProtoSchema.Proofs.Inventory

/-!
# No definition is lost without a warning

A definition that is made either comes under a new name or replaces an earlier one of its kind, and
then a warning is logged. Up to their order, the kinds and names of all definitions that are made are
therefore those of the definitions that are kept and those of the warnings. Main statement: what
occurs in a schema is counted by the definitions of its document and the warnings, the messages and
the enums apart, and so is what is defined under any one name.
-/

namespace ProtoSchema

namespace LogEntry

/-- Whether the entry warns of a message that is replaced. -/
def isMessageRedefined : LogEntry → Bool
  | .messageRedefined _ => true
  | _ => false

/-- Whether the entry warns of an enum that is replaced. -/
def isEnumRedefined : LogEntry → Bool
  | .enumRedefined _ => true
  | _ => false

/-- The kind and the name of the definition that is replaced, if the entry warns of one. -/
def replaced? : LogEntry → Option (Bool × String)
  | .messageRedefined name => some (true, name)
  | .enumRedefined name => some (false, name)
  | _ => none

/-- What is replaced is told by the warnings alone. -/
theorem filterMap_replaced_shown (log : List LogEntry) :
    (shown false log).filterMap replaced? = log.filterMap replaced? := by
  change (log.filter isWarning).filterMap replaced? = _
  rw [List.filterMap_filter]
  refine List.filterMap_congr fun entry _ => ?_
  cases entry <;> rfl

/-- The replaced definitions of a sort are counted by the entries that warn of such a one. -/
theorem countP_replaced {sort : Bool × String → Bool} {warns : LogEntry → Bool}
    (h : ∀ entry, warns entry = ((replaced? entry).map sort).getD false) (log : List LogEntry) :
    (log.filterMap replaced?).countP sort = log.countP warns := by
  rw [List.countP_filterMap]
  exact List.countP_congr fun entry _ => by rw [h entry]

end LogEntry

namespace Definitions

/-- The kinds and the names of the definitions. -/
def keys (definitions : Definitions) : List (Bool × String) :=
  definitions.messages.names.map (true, ·) ++ definitions.enums.names.map (false, ·)

section Keys

variable {definitions : Definitions} {list : List Definition} {name : String}

theorem mem_keys_message : (true, name) ∈ definitions.keys ↔ name ∈ definitions.messages.names := by
  simp [keys]

theorem mem_keys_enum : (false, name) ∈ definitions.keys ↔ name ∈ definitions.enums.names := by
  simp [keys]

/-- No two definitions have the same kind and the same name. -/
theorem nodup_keys (definitions : Definitions) : definitions.keys.Nodup := by
  refine List.Nodup.append ?_ ?_ ?_
  · exact definitions.messages.nodup_names.map fun _ _ h => (Prod.mk.inj h).2
  · exact definitions.enums.nodup_names.map fun _ _ h => (Prod.mk.inj h).2
  · intro key hmessage henum
    obtain ⟨name, -, rfl⟩ := List.mem_map.1 hmessage
    simp at henum

theorem countP_keys_message : definitions.keys.countP (·.1) = definitions.messages.size := by
  simp [keys, List.countP_map, Function.comp_def, Catalogue.names, Entries.names, Catalogue.size]

theorem countP_keys_enum : definitions.keys.countP (!·.1) = definitions.enums.size := by
  simp [keys, List.countP_map, Function.comp_def, Catalogue.names, Entries.names, Catalogue.size]

/-- The definitions of a list have the kinds and names of the list. -/
theorem mem_keys_ofList {key : Bool × String} :
    key ∈ (ofList list).keys ↔ key ∈ list.map Definition.key := by
  obtain ⟨isMessage, name⟩ := key
  cases isMessage with
  | true => rw [mem_keys_message, ← Catalogue.holds_iff, holds_message_iff]
  | false => rw [mem_keys_enum, ← Catalogue.holds_iff, holds_enumeration_iff]

/-- One definition more adds its kind and name, unless they are there. -/
theorem perm_keys_concat (list : List Definition) (definition : Definition) :
    (ofList (list ++ [definition])).keys.Perm
      (if definition.key ∈ (ofList list).keys then (ofList list).keys
        else (ofList list).keys ++ [definition.key]) := by
  split
  · rename_i hused
    refine (List.perm_ext_iff_of_nodup (nodup_keys _) (nodup_keys _)).2 fun key => ?_
    rw [mem_keys_ofList] at hused ⊢
    rw [mem_keys_ofList, List.map_append, List.mem_append, List.map_singleton, List.mem_singleton]
    exact or_iff_left_of_imp fun h => h ▸ hused
  · rename_i hnew
    have hnodup : ((ofList list).keys ++ [definition.key]).Nodup :=
      (nodup_keys _).append (List.nodup_singleton _) (List.disjoint_singleton.2 hnew)
    refine (List.perm_ext_iff_of_nodup (nodup_keys _) hnodup).2 fun key => ?_
    rw [mem_keys_ofList, List.map_append, List.mem_append, List.mem_append, mem_keys_ofList]
    rfl

end Keys

/-- A definition that is made after others adds its kind and name, or a warning with them. -/
theorem perm_keys_single (list : List Definition) (definition : Definition) :
    ((ofList list).keys ++ [definition.key]).Perm
      ((ofList (list ++ [definition])).keys ++
        (warnings list [definition]).filterMap LogEntry.replaced?) := by
  have hkeys := perm_keys_concat list definition
  have hwarning : LogEntry.replaced? definition.warning = some definition.key := by
    cases definition <;> rfl
  by_cases hused : definition.key ∈ (ofList list).keys
  · have hwarnings : warnings list [definition] = [definition.warning] := by
      rw [warnings, if_pos (mem_keys_ofList.1 hused)]
      rfl
    rw [if_pos hused] at hkeys
    rw [hwarnings, List.filterMap_cons_some hwarning]
    exact hkeys.symm.append_right _
  · have hwarnings : warnings list [definition] = [] := by
      rw [warnings, if_neg (mt mem_keys_ofList.2 hused)]
      rfl
    rw [if_neg hused] at hkeys
    rw [hwarnings, List.filterMap_nil, List.append_nil]
    exact hkeys.symm

/-- The second and the third of three lists may change places. -/
private theorem perm_append_right_comm {α : Type} (first second third : List α) :
    (first ++ second ++ third).Perm (first ++ third ++ second) := by
  rw [List.append_assoc, List.append_assoc]
  exact List.perm_append_comm.append_left first

/-- Definitions that are made after others add their kinds and names: up to their order, all kinds
and names are then those of the definitions that are kept and those of the warnings. -/
theorem perm_keys_append (before list : List Definition) :
    ((ofList before).keys ++ list.map Definition.key).Perm
      ((ofList (before ++ list)).keys ++ (warnings before list).filterMap LogEntry.replaced?) := by
  induction list generalizing before with
  | nil =>
    rw [List.append_nil]
    exact .refl _
  | cons definition rest ih =>
    have hrest := ih (before ++ [definition])
    have hwarnings := warnings_append before [definition] rest
    rw [List.append_assoc, List.singleton_append] at hrest
    rw [List.singleton_append] at hwarnings
    rw [hwarnings, List.filterMap_append]
    rw [← List.append_assoc]
    have hfirst := (perm_keys_single before definition).append_right (rest.map Definition.key)
    rw [List.append_assoc, List.singleton_append, ← List.map_cons] at hfirst
    -- the warning about the first definition waits behind the definitions that are still to come
    have hmoved := hfirst.trans (perm_append_right_comm _ _ _)
    exact (hmoved.trans (hrest.append_right _)).trans (perm_append_right_comm _ _ _)

section Counts

variable {list : List Definition} {log : List LogEntry}

/-- All kinds and names of a list are those of the definitions that are kept and those of the
warnings that are shown. -/
theorem perm_keys_ofList (hlog : LogEntry.shown false log = warnings [] list) :
    (list.map Definition.key).Perm ((ofList list).keys ++ log.filterMap LogEntry.replaced?) := by
  rw [← LogEntry.filterMap_replaced_shown, hlog]
  exact perm_keys_append [] list

/-- The messages of a list are those that are kept and those of which a warning tells. -/
theorem countP_message (hlog : LogEntry.shown false log = warnings [] list) :
    list.countP (·.isMessage) =
      (ofList list).messages.size + log.countP (·.isMessageRedefined) := by
  have hwarns : ∀ entry : LogEntry,
      entry.isMessageRedefined = ((entry.replaced?).map (·.1)).getD false := by
    intro entry
    cases entry <;> rfl
  rw [← countP_keys_message, ← LogEntry.countP_replaced hwarns, ← List.countP_append,
    ← (perm_keys_ofList hlog).countP_eq, List.countP_map]
  rfl

/-- The enums of a list are those that are kept and those of which a warning tells. -/
theorem countP_enumeration (hlog : LogEntry.shown false log = warnings [] list) :
    list.countP (!·.isMessage) =
      (ofList list).enums.size + log.countP (·.isEnumRedefined) := by
  have hwarns : ∀ entry : LogEntry,
      entry.isEnumRedefined = ((entry.replaced?).map (!·.1)).getD false := by
    intro entry
    cases entry <;> rfl
  rw [← countP_keys_enum, ← LogEntry.countP_replaced hwarns, ← List.countP_append,
    ← (perm_keys_ofList hlog).countP_eq, List.countP_map]
  rfl

/-- One definition of a kind and a name is kept, and a warning tells of every other one. -/
theorem count_key (hlog : LogEntry.shown false log = warnings [] list) (key : Bool × String) :
    (list.map Definition.key).count key =
      (if key ∈ (ofList list).keys then 1 else 0) +
        (log.filterMap LogEntry.replaced?).count key := by
  rw [(perm_keys_ofList hlog).count_eq, List.count_append, (nodup_keys _).count]

/-- One message of a name is kept, and a warning tells of every other one. -/
theorem count_message (hlog : LogEntry.shown false log = warnings [] list) (name : String) :
    (list.map Definition.key).count (true, name) =
      (if name ∈ (ofList list).messages.names then 1 else 0) +
        log.count (.messageRedefined name) := by
  have hwarns : ∀ entry : LogEntry,
      (entry == .messageRedefined name) =
        ((entry.replaced?).map (· == (true, name))).getD false := by
    intro entry
    cases entry <;> simp [LogEntry.replaced?]
  simp only [count_key hlog, mem_keys_message]
  exact congrArg (_ + ·) (LogEntry.countP_replaced hwarns log)

/-- One enum of a name is kept, and a warning tells of every other one. -/
theorem count_enumeration (hlog : LogEntry.shown false log = warnings [] list) (name : String) :
    (list.map Definition.key).count (false, name) =
      (if name ∈ (ofList list).enums.names then 1 else 0) + log.count (.enumRedefined name) := by
  have hwarns : ∀ entry : LogEntry,
      (entry == .enumRedefined name) =
        ((entry.replaced?).map (· == (false, name))).getD false := by
    intro entry
    cases entry <;> simp [LogEntry.replaced?]
  simp only [count_key hlog, mem_keys_enum]
  exact congrArg (_ + ·) (LogEntry.countP_replaced hwarns log)

end Counts

end Definitions

namespace Outline

variable {n : Nat} (options : Options) (members : List (String × Schema n))

/-- There is one definition for each schema of its kind, the root and what occurs in its fields. -/
theorem countP_definitions {sort : Schema n → Bool} {kind : Definition → Bool}
    (hdefined : ∀ schema : Schema n, sort schema = true → schema.isDefined = true)
    (hkind : ∀ occurrence : Occurrence n,
      kind (occurrence.definition options.namer) = sort occurrence.schema)
    (hroot : kind (.message (rootName options) (rootLines options members)) =
      sort (.object members)) :
    (definitions options members).countP kind =
      (Schema.object members).subschemas.countP sort := by
  have hinner : (((memberOccurrences [] members).map (·.definition options.namer))).countP kind =
      ((Schema.fieldPositions members).map (·.schema)).countP sort := by
    rw [List.countP_map, ← countP_memberOccurrences hdefined []]
    exact List.countP_congr fun occurrence _ => by rw [Function.comp_apply, hkind]
  rw [definitions, List.countP_append, hinner, List.countP_singleton, hroot, Schema.subschemas,
    List.countP_cons]
  rfl

/-- There is a message for the root and one for each object and tuple that occurs in its fields. -/
theorem countP_definitions_message :
    (definitions options members).countP (·.isMessage) =
      (Schema.object members).subschemas.countP (·.isMessage) := by
  refine countP_definitions options members ?_ ?_ rfl
  · intro schema h
    rw [Schema.isDefined, h, Bool.true_or]
  · intro occurrence
    cases occurrence <;> rfl

/-- There is an enum for each one that occurs in the fields of the root. -/
theorem countP_definitions_enumeration :
    (definitions options members).countP (!·.isMessage) =
      (Schema.object members).subschemas.countP (·.isEnumeration) := by
  refine countP_definitions options members ?_ ?_ rfl
  · intro schema h
    rw [Schema.isDefined, h, Bool.or_true]
  · intro occurrence
    cases occurrence <;> rfl

end Outline

namespace Source

/-- No definition is lost without a warning. The objects and tuples of the tree that a document is
generated from are as many as the messages of the document and the warnings about messages, and its
enums are as many as the enums of the document and the warnings about enums. Of what is defined
under one name in one kind, the document has one definition, and there is a warning for every
other. -/
theorem definitions_conserved (source : Source) (options : Options) {text : String}
    (h : (source.generate options).document = .ok text) :
    ∃ graph tree members, source.graph = .ok graph ∧
      graph.root.expand graph.objects = some tree ∧ tree.strip = .object members ∧
      tree.subschemas.countP (·.isMessage) =
        (source.generate options).definitions.messages.size +
          (source.generate options).log.countP (·.isMessageRedefined) ∧
      tree.subschemas.countP (·.isEnumeration) =
        (source.generate options).definitions.enums.size +
          (source.generate options).log.countP (·.isEnumRedefined) ∧
      (∀ name, ((Outline.definitions options members).map (·.key)).count (true, name) =
        (if name ∈ (source.generate options).definitions.messages.names then 1 else 0) +
          (source.generate options).log.count (.messageRedefined name)) ∧
      (∀ name, ((Outline.definitions options members).map (·.key)).count (false, name) =
        (if name ∈ (source.generate options).definitions.enums.names then 1 else 0) +
          (source.generate options).log.count (.enumRedefined name)) ∧
      text = "\n\n".intercalate
        (Document.header options.package ::
          ((source.generate options).definitions.enums.entries.map (·.2) ++
            (source.generate options).definitions.messages.entries.map fun message =>
              Definitions.messageText message.1 message.2)) := by
  obtain ⟨graph, tree, members, hgraph, htree, hmembers, hdefinitions, hlog, htext⟩ :=
    outline_of_document source options h
  have hcount : tree.subschemas.countP (·.isMessage) =
      (Outline.definitions options members).countP (·.isMessage) := by
    rw [Outline.countP_definitions_message, ← hmembers]
    exact Schema.countP_subschemas_strip (fun _ => Schema.isMessage_of_isWrapped) tree
  have henums : tree.subschemas.countP (·.isEnumeration) =
      (Outline.definitions options members).countP (!·.isMessage) := by
    rw [Outline.countP_definitions_enumeration, ← hmembers]
    exact Schema.countP_subschemas_strip (fun _ => Schema.isEnumeration_of_isWrapped) tree
  refine ⟨graph, tree, members, hgraph, htree, hmembers, ?_, ?_, ?_, ?_, ?_⟩
  · rw [hcount, hdefinitions, Definitions.countP_message hlog]
  · rw [henums, hdefinitions, Definitions.countP_enumeration hlog]
  · intro name
    rw [hdefinitions, Definitions.count_message hlog name]
  · intro name
    rw [hdefinitions, Definitions.count_enumeration hlog name]
  · -- the root message is there, so that the document ends in a message
    have hmessages : (source.generate options).definitions.messages.entries ≠ [] := by
      intro hnone
      have hlookup := Outline.lookup_rootName options members
      rw [← hdefinitions, hnone] at hlookup
      cases hlookup
    obtain hnone | ⟨before, last, hlast⟩ := List.eq_nil_or_concat
      (source.generate options).definitions.messages.entries
    · exact absurd hnone hmessages
    · rw [htext]
      exact Document.render_eq_intercalate (hlast.trans List.concat_eq_append)

/-- The graph of an object that stands under two keys with one singular, next to a field with the
key of the root. -/
def itemTwice : SchemaGraph where
  size := 1
  objects := fun _ => [("kind", .enumeration [.text "NEW", .text "USED"])]
  root := .object
    [("item", .shared ⟨0, Nat.zero_lt_one⟩), ("items", .array (.shared ⟨0, Nat.zero_lt_one⟩)),
      ("message", .nullable (.tuple [.boolean]))]

/-- The tree that the graph stands for. -/
theorem expand_itemTwice :
    itemTwice.root.expand itemTwice.objects =
      some (.object
        [("item", .object [("kind", .enumeration [.text "NEW", .text "USED"])]),
          ("items", .array (.object [("kind", .enumeration [.text "NEW", .text "USED"])])),
          ("message", .nullable (.tuple [.boolean]))]) := by
  simp [Schema.expand, Schema.expandWith, Schema.expandFields, Schema.expandElements,
    Schema.expandShared, itemTwice]

/-- Two messages and one enum are left of the four messages and the two enums of the graph, and
there is a warning for each of the other three. -/
theorem definitions_conserved_itemTwice :
    (∃ text, ((Source.schema itemTwice).generate {}).document = .ok text) ∧
      4 = ((Source.schema itemTwice).generate {}).definitions.messages.size +
        ((Source.schema itemTwice).generate {}).log.countP (·.isMessageRedefined) ∧
      2 = ((Source.schema itemTwice).generate {}).definitions.enums.size +
        ((Source.schema itemTwice).generate {}).log.countP (·.isEnumRedefined) ∧
      2 = (if "Item" ∈ ((Source.schema itemTwice).generate {}).definitions.messages.names
        then 1 else 0) + ((Source.schema itemTwice).generate {}).log.count
          (.messageRedefined "Item") := by
  obtain ⟨text, htext⟩ : ∃ text, ((Source.schema itemTwice).generate {}).document = .ok text := by
    have houtcome := outcome_schema itemTwice {} expand_itemTwice
    cases hdocument : ((Source.schema itemTwice).generate {}).document with
    | error cause =>
      rw [hdocument] at houtcome
      cases houtcome
    | ok text => exact ⟨text, rfl⟩
  obtain ⟨graph, tree, members, hgraph, htree, hmembers, hmessages, henums, hnames, -, -⟩ :=
    definitions_conserved (.schema itemTwice) {} htext
  cases hgraph
  rw [expand_itemTwice] at htree
  cases htree
  cases hmembers
  refine ⟨⟨text, htext⟩, ?_, ?_, ?_⟩
  · rw [← hmessages]
    decide
  · rw [← henums]
    decide
  · rw [← hnames "Item"]
    decide

end Source

end ProtoSchema
