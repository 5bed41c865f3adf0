import ProtoSchema.Proofs.Compile.Clashes
import ProtoSchema.Proofs.Document

/-!
# Definition before use

The occurrences of a schema are listed so that everything inside an occurrence comes right before
it. In a document without warnings no definition is replaced, so that the messages stand in the
order of the occurrences: the message of an object or a tuple comes after the messages of all that
is inside it, however deep, the root message comes last, and the enums come before all messages.
-/

namespace ProtoSchema

namespace Outline

variable {n : Nat}

namespace Occurrence

/-- The occurrences strictly inside an occurrence, at any depth. -/
def inside : Occurrence n → List (Occurrence n)
  | .object place members => memberOccurrences place.inner members
  | .tuple place elements => elementOccurrences place 0 elements
  | .enumeration _ _ => []

/-- The message that an occurrence leads to, if it is an object or a tuple. -/
def message? (namer : Namer) (occurrence : Occurrence n) : Option (String × List String) :=
  (occurrence.definition namer).message?

/-- An occurrence stands in a list right after all that is inside it. -/
def IsBlockIn (list : List (Occurrence n)) (occurrence : Occurrence n) : Prop :=
  ∃ earlier later, list = earlier ++ (occurrence.inside ++ occurrence :: later)

theorem IsBlockIn.append_left {list : List (Occurrence n)} {occurrence : Occurrence n}
    (h : IsBlockIn list occurrence) (more : List (Occurrence n)) :
    IsBlockIn (more ++ list) occurrence := by
  obtain ⟨earlier, later, rfl⟩ := h
  exact ⟨more ++ earlier, later, by rw [List.append_assoc]⟩

theorem IsBlockIn.append_right {list : List (Occurrence n)} {occurrence : Occurrence n}
    (h : IsBlockIn list occurrence) (more : List (Occurrence n)) :
    IsBlockIn (list ++ more) occurrence := by
  obtain ⟨earlier, later, rfl⟩ := h
  exact ⟨earlier, later ++ more, by simp⟩

/-- What is inside an occurrence comes before it. -/
theorem IsBlockIn.pair_sublist {list : List (Occurrence n)} {upper lower : Occurrence n}
    (h : IsBlockIn list upper) (hlower : lower ∈ upper.inside) : [lower, upper].Sublist list := by
  obtain ⟨earlier, later, rfl⟩ := h
  have hinside : [lower].Sublist upper.inside := List.singleton_sublist.2 hlower
  have hupper : [upper].Sublist (upper :: later) := List.singleton_sublist.2 List.mem_cons_self
  exact (hinside.append hupper).trans (List.sublist_append_right _ _)

end Occurrence

mutual

/-- Every occurrence in a schema comes right after those inside it. -/
theorem isBlockIn_occurrences (place : Place) : ∀ (schema : Schema n) {upper : Occurrence n},
    upper ∈ occurrences place schema → upper.IsBlockIn (occurrences place schema)
  | .optional inner, _, h => isBlockIn_occurrences _ inner h
  | .nullable inner, _, h => isBlockIn_occurrences _ inner h
  | .array element, _, h => isBlockIn_occurrences _ element h
  | .set element, _, h => isBlockIn_occurrences _ element h
  | .map key value, _, h => by
    rcases List.mem_append.1 h with hkey | hvalue
    · exact (isBlockIn_occurrences _ key hkey).append_right _
    · exact (isBlockIn_occurrences _ value hvalue).append_left _
  | .object members, _, h => by
    rcases List.mem_append.1 h with hinner | hself
    · exact (isBlockIn_memberOccurrences _ members hinner).append_right _
    · rw [List.mem_singleton.1 hself]
      exact ⟨[], [], rfl⟩
  | .tuple elements, _, h => by
    rcases List.mem_append.1 h with hinner | hself
    · exact (isBlockIn_elementOccurrences place 0 elements hinner).append_right _
    · rw [List.mem_singleton.1 hself]
      exact ⟨[], [], rfl⟩
  | .enumeration options, _, h => by
    rw [List.mem_singleton.1 h]
    exact ⟨[], [], rfl⟩
termination_by structural schema => schema

/-- Every occurrence in the fields of an object comes right after those inside it. -/
theorem isBlockIn_memberOccurrences (scope : List String) :
    ∀ (members : List (String × Schema n)) {upper : Occurrence n},
      upper ∈ memberOccurrences scope members →
        upper.IsBlockIn (memberOccurrences scope members)
  | (_, schema) :: rest, _, h => by
    rcases List.mem_append.1 h with hfirst | hrest
    · exact (isBlockIn_occurrences _ schema hfirst).append_right _
    · exact (isBlockIn_memberOccurrences scope rest hrest).append_left _
termination_by structural members => members

/-- Every occurrence in the elements of a tuple comes right after those inside it. -/
theorem isBlockIn_elementOccurrences (place : Place) :
    ∀ (position : Nat) (elements : List (Schema n)) {upper : Occurrence n},
      upper ∈ elementOccurrences place position elements →
        upper.IsBlockIn (elementOccurrences place position elements)
  | position, element :: rest, _, h => by
    rcases List.mem_append.1 h with hfirst | hrest
    · exact (isBlockIn_occurrences _ element hfirst).append_right _
    · exact (isBlockIn_elementOccurrences place (position + 1) rest hrest).append_left _
termination_by structural _ elements => elements

end

/-- The messages of an outline are those of its occurrences and then the root message. -/
theorem filterMap_definitions (options : Options) (members : List (String × Schema n)) :
    (definitions options members).filterMap Definition.message? =
      (memberOccurrences [] members).filterMap (·.message? options.namer) ++
        [(rootName options, rootLines options members)] := by
  rw [definitions, List.filterMap_append, List.filterMap_map]
  rfl

section Order

variable {options : Options} {members : List (String × Schema n)} {lower : Occurrence n}
  {lowerMessage : String × List String}

/-- The messages of two occurrences, one inside the other, stand in this order in the outline. -/
theorem sublist_of_inside {upper : Occurrence n} {upperMessage : String × List String}
    (hupper : upper ∈ memberOccurrences [] members) (hlower : lower ∈ upper.inside)
    (hlowerMessage : lower.message? options.namer = some lowerMessage)
    (hupperMessage : upper.message? options.namer = some upperMessage) :
    [lowerMessage, upperMessage].Sublist
      ((definitions options members).filterMap Definition.message?) := by
  have hpair : [lower, upper].Sublist (memberOccurrences [] members) :=
    (isBlockIn_memberOccurrences [] members hupper).pair_sublist hlower
  have hmessages := hpair.filterMap (·.message? options.namer)
  rw [List.filterMap_cons_some hlowerMessage, List.filterMap_cons_some hupperMessage] at hmessages
  rw [filterMap_definitions]
  exact hmessages.trans (List.sublist_append_left _ _)

/-- The message of an occurrence stands before the root message. -/
theorem sublist_root (hlower : lower ∈ memberOccurrences [] members)
    (hlowerMessage : lower.message? options.namer = some lowerMessage) :
    [lowerMessage, (rootName options, rootLines options members)].Sublist
      ((definitions options members).filterMap Definition.message?) := by
  have hmem : lowerMessage ∈
      (memberOccurrences [] members).filterMap (·.message? options.namer) :=
    List.mem_filterMap.2 ⟨lower, hlower, hlowerMessage⟩
  rw [filterMap_definitions]
  exact (List.singleton_sublist.2 hmem).append (List.Sublist.refl _)

end Order

end Outline

namespace Source

open Outline (memberOccurrences rootName rootLines)

/-- Where a document comes without a warning, every message stands after the messages of all
objects and tuples inside it, and the root message stands last. The document has the enums first,
then the messages, in this order. -/
theorem defined_before_use (source : Source) (options : Options) {text : String}
    (h : (source.generate options).document = .ok text)
    (hquiet : LogEntry.shown false (source.generate options).log = []) :
    ∃ graph tree members, source.graph = .ok graph ∧
      graph.root.expand graph.objects = some tree ∧ tree.strip = .object members ∧
      (∀ upper ∈ memberOccurrences [] members, ∀ lower ∈ upper.inside,
        ∀ upperMessage lowerMessage, upper.message? options.namer = some upperMessage →
          lower.message? options.namer = some lowerMessage →
            [lowerMessage, upperMessage].Sublist
              (source.generate options).definitions.messages.entries) ∧
      (∀ lower ∈ memberOccurrences [] members,
        ∀ lowerMessage, lower.message? options.namer = some lowerMessage →
          [lowerMessage, (rootName options, rootLines options members)].Sublist
            (source.generate options).definitions.messages.entries) ∧
      (source.generate options).definitions.messages.entries.getLast? =
        some (rootName options, rootLines options members) ∧
      text = "\n\n".intercalate (Document.header options.package ::
        ((source.generate options).definitions.enums.entries.map (·.2) ++
          (source.generate options).definitions.messages.entries.map
            fun message => Definitions.messageText message.1 message.2)) := by
  obtain ⟨graph, tree, members, hgraph, htree, hmembers, hdefinitions, hwarnings, htext⟩ :=
    outline_of_document source options h
  have hkeys : ((Outline.definitions options members).map Definition.key).Nodup := by
    rwa [hwarnings, Definitions.warnings_nil_iff] at hquiet
  -- nothing is replaced, so that the messages are those of the outline in its order
  have hmessages : (source.generate options).definitions.messages.entries =
      (Outline.definitions options members).filterMap Definition.message? := by
    rw [hdefinitions, Definitions.entries_messages hkeys]
  have hlast : (source.generate options).definitions.messages.entries =
      (memberOccurrences [] members).filterMap (·.message? options.namer) ++
        [(rootName options, rootLines options members)] := by
    rw [hmessages, Outline.filterMap_definitions]
  refine ⟨graph, tree, members, hgraph, htree, hmembers, ?_, ?_, ?_, ?_⟩
  · intro upper hupper lower hlower upperMessage lowerMessage hupperMessage hlowerMessage
    rw [hmessages]
    exact Outline.sublist_of_inside hupper hlower hlowerMessage hupperMessage
  · intro lower hlower lowerMessage hlowerMessage
    rw [hmessages]
    exact Outline.sublist_root hlower hlowerMessage
  · rw [hlast, List.getLast?_concat]
  · rw [htext, Document.render_eq_intercalate hlast, Document.parts]

/-- The tuple in a shared object stands before the object that refers to it, and the root message
stands last. -/
theorem defined_before_use_keysApart :
    (∃ text, ((Source.schema keysApart).generate {}).document = .ok text) ∧
      LogEntry.shown false ((Source.schema keysApart).generate {}).log = [] ∧
      [("Home", ["double home_0 = 1;", "double home_1 = 2;"]),
          ("Team", ["optional Lead lead = 1;"])].Sublist
        ((Source.schema keysApart).generate {}).definitions.messages.entries ∧
      ((Source.schema keysApart).generate {}).definitions.messages.entries.getLast? =
        some ("Message", ["Status status = 1;", "repeated Team teams = 2;"]) := by
  obtain ⟨text, htext⟩ := document_keysApart
  have hquiet : LogEntry.shown false ((Source.schema keysApart).generate {}).log = [] := by
    obtain ⟨graph, tree, members, hgraph, htree, hmembers, -, hwarnings, -⟩ :=
      outline_of_document (.schema keysApart) {} htext
    cases hgraph
    rw [expand_keysApart] at htree
    cases htree
    cases hmembers
    rw [hwarnings]
    decide
  obtain ⟨graph, tree, members, hgraph, htree, hmembers, hinside, -, hlast, -⟩ :=
    defined_before_use (.schema keysApart) {} htext hquiet
  cases hgraph
  rw [expand_keysApart] at htree
  cases htree
  cases hmembers
  -- the occurrences are the enum, the tuple, the shared object and the object that refers to it
  refine ⟨⟨text, htext⟩, hquiet, ?_, hlast⟩
  exact hinside _ (List.mem_cons_of_mem _ (List.mem_cons_of_mem _ (List.mem_cons_of_mem _
    (List.mem_cons_self)))) _ List.mem_cons_self _ _ rfl rfl

end Source

end ProtoSchema
