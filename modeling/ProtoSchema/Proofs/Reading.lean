import Mathlib.Data.List.Basic
import ProtoSchema.Proofs.Document

/-!
# Reading a document back

A document has no escapes, and what is defined in it may look like any line: a name may hold braces,
and a line may be empty. All that stands inside a definition is indented, however, or is one empty
line where there is nothing, so that a line that holds a closing brace and nothing else ends a
definition. Main statement: what a document was made of can be read off its text, whatever it
defines, as long as no line feeds are in it.
-/

namespace ProtoSchema.Document

/-- The text that stands between an opening and a closing. -/
def unwrap? (opening closing text : String) : Option String :=
  (text.toList.dropPrefix? opening.toList).bind fun rest =>
    (rest.dropSuffix? closing.toList).map String.ofList

theorem unwrap?_wrapped (opening inside closing : String) :
    unwrap? opening closing (opening ++ inside ++ closing) = some inside := by
  have hopening : (opening ++ inside ++ closing).toList.dropPrefix? opening.toList =
      some (inside.toList ++ closing.toList) := by
    rw [List.dropPrefix?_eq_some_iff]
    exact ⟨opening.toList, by simp, by simp⟩
  have hclosing : (inside.toList ++ closing.toList).dropSuffix? closing.toList =
      some inside.toList := by
    rw [List.dropSuffix?_eq_some_iff]
    exact ⟨closing.toList, rfl, by simp⟩
  rw [unwrap?, hopening, Option.bind_some, hclosing, Option.map_some, String.ofList_toList]

section Lines

/-- A text without a line feed. -/
def IsLine (text : String) : Prop :=
  '\n' ∉ text.toList

instance (text : String) : Decidable (IsLine text) :=
  inferInstanceAs (Decidable ('\n' ∉ text.toList))

theorem IsLine.append {text other : String} (h : IsLine text) (hother : IsLine other) :
    IsLine (text ++ other) := by
  rw [IsLine, String.toList_append, List.mem_append]
  exact not_or.2 ⟨h, hother⟩

/-- A number is written without line feeds. -/
theorem isLine_toString (number : Nat) : IsLine (toString number) := by
  rw [IsLine, Nat.toString_eq_ofList_toDigits, String.toList_ofList]
  intro h
  have hdigit := Nat.isDigit_of_mem_toDigits (by decide) (by decide) h
  exact absurd hdigit (by decide)

/-- The lines of a text. -/
def linesOf (text : String) : List String :=
  (text.toList.splitOn '\n').map String.ofList

/-- A text that is made of lines consists of these lines. -/
theorem linesOf_intercalate {list : List String} (hne : list ≠ [])
    (h : ∀ line ∈ list, IsLine line) : linesOf ("\n".intercalate list) = list := by
  have hchars : ("\n".intercalate list).toList.splitOn '\n' = list.map String.toList := by
    rw [String.toList_intercalate]
    refine List.splitOn_intercalate '\n' ?_ (by simpa using hne)
    simpa [IsLine] using h
  rw [linesOf, hchars, List.map_map]
  simp [Function.comp_def]

/-- Texts that are made of lines make up a text of all their lines, where an empty line between any
two of the texts is an empty line among them. -/
theorem intercalate_texts {opening : List String} (hopening : opening ≠ [])
    {texts : List (List String)} (h : ∀ text ∈ texts, text ≠ []) :
    "\n\n".intercalate ("\n".intercalate opening :: texts.map ("\n".intercalate ·)) =
      "\n".intercalate (opening ++ texts.flatMap ("" :: ·)) := by
  induction texts generalizing opening with
  | nil => simp
  | cons text rest ih =>
    obtain ⟨htext, hrest⟩ := List.forall_mem_cons.1 h
    have hlineFeeds : "\n\n" = "\n" ++ ("" ++ "\n") := rfl
    have hfirst : "\n".intercalate opening ++ "\n\n" ++ "\n".intercalate text =
        "\n".intercalate (opening ++ "" :: text) := by
      rw [String.intercalate_append_of_ne_nil hopening (List.cons_ne_nil _ _),
        String.intercalate_cons_of_ne_nil htext, hlineFeeds]
      simp only [String.append_assoc]
    rw [List.map_cons, String.intercalate_cons_cons, ← String.intercalate_cons_append, hfirst,
      ih (by simp) hrest, List.flatMap_cons, List.append_assoc, List.cons_append]

end Lines

/-- A definition in a document. -/
inductive Block where
  /-- An enum with the spellings of its options. -/
  | enumeration (name : String) (options : List String)
  /-- A message with the lines that declare its fields. -/
  | message (name : String) (lines : List String)
  deriving DecidableEq

namespace Block

/-- The name and the options, if the definition is an enum. -/
def enumeration? : Block → Option (String × List String)
  | .enumeration name options => some (name, options)
  | .message _ _ => none

/-- The name and the lines, if the definition is a message. -/
def message? : Block → Option (String × List String)
  | .enumeration _ _ => none
  | .message name lines => some (name, lines)

/-- The text of the definition. -/
def text : Block → String
  | .enumeration name options => Definitions.enumText name options
  | .message name lines => Definitions.messageText name lines

/-- The line that a definition opens with. -/
def head : Block → String
  | .enumeration name _ => "enum " ++ name ++ " \x7b"
  | .message name _ => "message " ++ name ++ " \x7b"

/-- The lines of what the definition holds. -/
def values : Block → List String
  | .enumeration _ options => Definitions.enumLines 0 options
  | .message _ lines => lines.map (Definitions.indent ++ ·)

/-- The lines between the opening and the closing, of which there is always one. -/
def body (block : Block) : List String :=
  if block.values = [] then [""] else block.values

/-- The lines of the definition. -/
def lines (block : Block) : List String :=
  block.head :: (block.body ++ ["\x7d"])

theorem body_ne_nil (block : Block) : block.body ≠ [] := by
  unfold body
  split
  · exact List.cons_ne_nil _ _
  · assumption

theorem intercalate_body (block : Block) :
    "\n".intercalate block.body = "\n".intercalate block.values := by
  unfold body
  split <;> simp_all

/-- The text of a definition consists of its lines. -/
theorem text_eq_intercalate (block : Block) : block.text = "\n".intercalate block.lines := by
  have hopening : " \x7b\n" = " \x7b" ++ "\n" := rfl
  have hclosing : "\n\x7d" = "\n" ++ "\x7d" := rfl
  have hlines : "\n".intercalate block.lines =
      block.head ++ "\n" ++ ("\n".intercalate block.values ++ "\n" ++ "\x7d") := by
    rw [lines, String.intercalate_cons_of_ne_nil (by simp),
      String.intercalate_append_of_ne_nil block.body_ne_nil (List.cons_ne_nil _ _),
      String.intercalate_singleton, intercalate_body]
  rw [hlines]
  cases block with
  | enumeration name options =>
    simp only [text, head, values, Definitions.enumText, hopening, hclosing, String.append_assoc]
  | message name lines =>
    simp only [text, head, values, Definitions.messageText, hopening, hclosing, String.append_assoc]

/-- Every value of an enum is indented. -/
theorem exists_of_mem_enumLines {start : Nat} {options : List String} {line : String}
    (h : line ∈ Definitions.enumLines start options) :
    ∃ rest, line = Definitions.indent ++ rest := by
  induction options generalizing start with
  | nil => cases h
  | cons option rest ih =>
    rcases List.mem_cons.1 h with rfl | hrest
    · exact ⟨option ++ (" = " ++ (toString start ++ ";")), by simp only [String.append_assoc]⟩
    · exact ih hrest

/-- What a definition holds is indented. -/
theorem exists_of_mem_values {block : Block} {value : String} (h : value ∈ block.values) :
    ∃ rest, value = Definitions.indent ++ rest := by
  cases block with
  | enumeration name options => exact exists_of_mem_enumLines h
  | message name lines =>
    obtain ⟨line, -, rfl⟩ := List.mem_map.1 h
    exact ⟨line, rfl⟩

/-- What is indented begins with a blank. -/
theorem toList_indent_append (text : String) :
    ∃ rest, (Definitions.indent ++ text).toList = ' ' :: rest := by
  have hindent : Definitions.indent.toList = [' ', ' ', ' ', ' '] := rfl
  rw [String.toList_append, hindent]
  exact ⟨_, rfl⟩

/-- What a definition holds is told by the lines between the opening and the closing. -/
theorem values_eq (block : Block) :
    (if block.body = [""] then [] else block.body) = block.values := by
  by_cases hnone : block.values = []
  · simp [body, hnone]
  · have hbody : block.body = block.values := if_neg hnone
    have hempty : block.values ≠ [""] := by
      intro hvalues
      obtain ⟨text, htext⟩ := exists_of_mem_values (hvalues ▸ List.mem_singleton_self "")
      obtain ⟨rest, hrest⟩ := toList_indent_append text
      rw [← htext] at hrest
      cases hrest
    rw [hbody, if_neg hempty]

/-- No line of a definition but the last is a closing brace, and neither is the empty line before
it. -/
theorem closing_not_mem (block : Block) : "\x7d" ∉ "" :: block.head :: block.body := by
  have hempty : "\x7d" ≠ "" := by decide
  have hhead : "\x7d" ≠ block.head := by
    intro h
    have hchars := congrArg String.toList h
    cases block <;> simp [head] at hchars
  have hbody : "\x7d" ∉ block.body := by
    unfold body
    split
    · exact fun h => hempty (List.mem_singleton.1 h)
    · intro hmem
      obtain ⟨text, htext⟩ := exists_of_mem_values hmem
      obtain ⟨rest, hrest⟩ := toList_indent_append text
      rw [← htext] at hrest
      exact absurd (List.cons.inj hrest).1 (by decide)
  simp [hempty, hhead, hbody]

/-- There is no line feed in the name of a definition and in what it holds. -/
def IsOfLines : Block → Prop
  | .enumeration name options => IsLine name ∧ ∀ option ∈ options, IsLine option
  | .message name lines => IsLine name ∧ ∀ line ∈ lines, IsLine line

instance (block : Block) : Decidable block.IsOfLines :=
  match block with
  | .enumeration name options =>
    inferInstanceAs (Decidable (IsLine name ∧ ∀ option ∈ options, IsLine option))
  | .message name lines =>
    inferInstanceAs (Decidable (IsLine name ∧ ∀ line ∈ lines, IsLine line))

/-- There is no line feed in the values of an enum if there is none in its options. -/
theorem isLine_of_mem_enumLines {start : Nat} {options : List String}
    (h : ∀ option ∈ options, IsLine option) :
    ∀ line ∈ Definitions.enumLines start options, IsLine line := by
  have hindent : IsLine Definitions.indent := by decide
  induction options generalizing start with
  | nil => exact fun _ hline => by cases hline
  | cons option rest ih =>
    obtain ⟨hoption, hrest⟩ := List.forall_mem_cons.1 h
    refine List.forall_mem_cons.2 ⟨?_, ih hrest⟩
    exact (((hindent.append hoption).append (by decide)).append (isLine_toString start)).append
      (by decide)

/-- The lines of a definition are lines. -/
theorem isLine_of_mem_lines {block : Block} (h : block.IsOfLines) :
    ∀ line ∈ block.lines, IsLine line := by
  have hindent : IsLine Definitions.indent := by decide
  have hvalues : ∀ line ∈ block.values, IsLine line := by
    cases block with
    | enumeration name options => exact isLine_of_mem_enumLines h.2
    | message name lines =>
      intro line hline
      obtain ⟨text, htext, rfl⟩ := List.mem_map.1 hline
      exact hindent.append (h.2 text htext)
  have hhead : IsLine block.head := by
    cases block with
    | enumeration name options => exact (IsLine.append (by decide) h.1).append (by decide)
    | message name lines => exact (IsLine.append (by decide) h.1).append (by decide)
  have hbody : ∀ line ∈ block.body, IsLine line := by
    unfold body
    split
    · exact fun line hline => List.mem_singleton.1 hline ▸ by decide
    · exact hvalues
  have hclosing : ∀ line ∈ ["\x7d"], IsLine line := by decide
  exact List.forall_mem_cons.2 ⟨hhead, List.forall_mem_append.2 ⟨hbody, hclosing⟩⟩

/-- The last line of a definition is a brace. -/
theorem toList_text (block : Block) : ∃ front, block.text.toList = front ++ ['\x7d'] := by
  have hlines : block.lines = (block.head :: block.body) ++ ["\x7d"] := rfl
  rw [text_eq_intercalate, hlines,
    String.intercalate_append_of_ne_nil (List.cons_ne_nil _ _) (List.cons_ne_nil _ _),
    String.intercalate_singleton, String.toList_append]
  exact ⟨_, rfl⟩

end Block

/-- What a document is made of. -/
structure Content where
  /-- The package. -/
  package : String
  /-- The names of the enums with the spellings of their options. -/
  enums : List (String × List String)
  /-- The names of the messages with the lines that declare their fields. -/
  messages : List (String × List String)
  deriving DecidableEq

namespace Content

/-- The definitions in the order of a document: enums first, then messages. -/
def blocks (content : Content) : List Block :=
  content.enums.map (fun enum => .enumeration enum.1 enum.2) ++
    content.messages.map fun message => .message message.1 message.2

/-- The lines of a document: the opening, and each definition after an empty line. -/
def lines (content : Content) : List String :=
  ["syntax = \"proto3\";", "package " ++ content.package ++ ";"] ++
    (content.blocks.map Block.lines).flatMap ("" :: ·)

/-- The content of a document is what its definitions and its package are: every enum is the text of
its options. -/
structure Describes (content : Content) (definitions : Definitions) (package : String) : Prop where
  /-- The package is the same. -/
  package : content.package = package
  /-- The enums are the texts of their options. -/
  enums : definitions.enums.entries =
    content.enums.map fun enum => (enum.1, Definitions.enumText enum.1 enum.2)
  /-- The messages have the same lines. -/
  messages : definitions.messages.entries = content.messages

/-- There is no line feed in the package and in the definitions. -/
structure IsOfLines (content : Content) : Prop where
  /-- There is none in the package. -/
  package : IsLine content.package
  /-- There is none in the definitions. -/
  blocks : ∀ block ∈ content.blocks, block.IsOfLines

/-- The lines of a document are lines. -/
theorem isLine_of_mem_lines {content : Content} (h : content.IsOfLines) :
    ∀ line ∈ content.lines, IsLine line := by
  have hfirst : IsLine "syntax = \"proto3\";" := by decide
  have hpackage : IsLine ("package " ++ content.package ++ ";") :=
    (IsLine.append (by decide) h.package).append (by decide)
  refine List.forall_mem_cons.2 ⟨hfirst, List.forall_mem_cons.2 ⟨hpackage, ?_⟩⟩
  intro line hline
  obtain ⟨_, hlines, hmem⟩ := List.mem_flatMap.1 hline
  obtain ⟨block, hblock, rfl⟩ := List.mem_map.1 hlines
  rcases List.mem_cons.1 hmem with rfl | hmem
  · decide
  · exact Block.isLine_of_mem_lines (h.blocks block hblock) line hmem

/-- The enums and the messages are told by the definitions. -/
theorem eq_of_blocks (content : Content) :
    (⟨content.package, content.blocks.filterMap Block.enumeration?,
      content.blocks.filterMap Block.message?⟩ : Content) = content := by
  simp [blocks, List.filterMap_append, List.filterMap_map, Function.comp_def, Block.enumeration?,
    Block.message?]

end Content

/-- The parts of a document are the texts of its definitions. -/
theorem parts_eq {content : Content} {definitions : Definitions} {package : String}
    (h : content.Describes definitions package) :
    parts definitions = content.blocks.map Block.text := by
  rw [parts, h.enums, h.messages, Content.blocks]
  simp [Function.comp_def, Block.text]

/-- Nothing but line feeds is trimmed from a document. -/
theorem render_eq_parts {content : Content} {definitions : Definitions} {package : String}
    (h : content.Describes definitions package) :
    render definitions package = "\n\n".intercalate (header package :: parts definitions) := by
  have hparts := parts_eq h
  rcases List.eq_nil_or_concat content.blocks with hnone | ⟨before, last, hlast⟩
  · have hlist : header package :: parts definitions = [] ++ [header package] := by
      rw [hparts, hnone]
      rfl
    obtain ⟨front, hfront⟩ := toList_header_concat package
    exact render_eq_of_solid hlist hfront (by decide)
  · obtain ⟨front, hfront⟩ := last.toList_text
    have hlist : header package :: parts definitions =
        (header package :: before.map Block.text) ++ [last.text] := by
      rw [hparts, hlast]
      simp
    exact render_eq_of_solid hlist hfront (by decide)

/-- A document consists of the lines of its content. -/
theorem render_eq_lines {content : Content} {definitions : Definitions} {package : String}
    (h : content.Describes definitions package) :
    render definitions package = "\n".intercalate content.lines := by
  have hheader : header package =
      "\n".intercalate ["syntax = \"proto3\";", "package " ++ content.package ++ ";"] := by
    have hopening : "syntax = \"proto3\";\npackage " =
        "syntax = \"proto3\";" ++ ("\n" ++ "package ") := by
      rw [← String.toList_inj, String.toList_append, String.toList_append]
      rfl
    rw [String.intercalate_cons_of_ne_nil (List.cons_ne_nil _ _), String.intercalate_singleton,
      h.package]
    unfold header
    rw [hopening]
    simp only [String.append_assoc]
  have htexts : parts definitions = (content.blocks.map Block.lines).map ("\n".intercalate ·) := by
    rw [parts_eq h, List.map_map]
    exact List.map_congr_left fun block _ => block.text_eq_intercalate
  have hlines : ∀ text ∈ content.blocks.map Block.lines, text ≠ [] := by
    intro text htext
    obtain ⟨block, -, rfl⟩ := List.mem_map.1 htext
    exact List.cons_ne_nil _ _
  rw [render_eq_parts h, hheader, htexts, intercalate_texts (List.cons_ne_nil _ _) hlines,
    Content.lines]

/-- Read the options of an enum from its lines, which are numbered from a start. -/
def readOptions (start : Nat) : List String → Option (List String)
  | [] => some []
  | line :: rest => do
    let option ← unwrap? Definitions.indent (" = " ++ toString start ++ ";") line
    let more ← readOptions (start + 1) rest
    return option :: more

/-- Read the lines of a message. -/
def readLines : List String → Option (List String)
  | [] => some []
  | line :: rest => do
    let text ← unwrap? Definitions.indent "" line
    let more ← readLines rest
    return text :: more

/-- Read a definition from its lines but the last, with an empty line before them. -/
def readBlock : List String → Option Block
  | _ :: head :: body =>
    let values := if body = [""] then [] else body
    match unwrap? "enum " " \x7b" head with
    | some name => (readOptions 0 values).map (.enumeration name)
    | none => do
      let name ← unwrap? "message " " \x7b" head
      let lines ← readLines values
      return .message name lines
  | _ => none

/-- Read one definition after the other. -/
def readBlocks : List (List String) → Option (List Block)
  | [] => some []
  | lines :: rest => do
    let block ← readBlock lines
    let more ← readBlocks rest
    return block :: more

/-- Read what a document is made of: the package in its second line, and a definition up to every
closing brace that stands on a line of its own. -/
def read (text : String) : Option Content :=
  match linesOf text with
  | _ :: opening :: rest => do
    let package ← unwrap? "package " ";" opening
    let blocks ← readBlocks (rest.splitOn "\x7d").dropLast
    return ⟨package, blocks.filterMap Block.enumeration?, blocks.filterMap Block.message?⟩
  | _ => none

theorem readOptions_enumLines (start : Nat) (options : List String) :
    readOptions start (Definitions.enumLines start options) = some options := by
  induction options generalizing start with
  | nil => rfl
  | cons option rest ih =>
    have hline : Definitions.indent ++ option ++ " = " ++ toString start ++ ";" =
        Definitions.indent ++ option ++ (" = " ++ toString start ++ ";") := by
      simp only [String.append_assoc]
    rw [Definitions.enumLines, readOptions, hline, unwrap?_wrapped, ih]
    rfl

theorem readLines_indented (lines : List String) :
    readLines (lines.map (Definitions.indent ++ ·)) = some lines := by
  induction lines with
  | nil => rfl
  | cons line rest ih =>
    have hline := unwrap?_wrapped Definitions.indent line ""
    rw [String.append_empty] at hline
    rw [List.map_cons, readLines, hline, ih]
    rfl

/-- A definition is read from its lines. -/
theorem readBlock_lines (block : Block) :
    readBlock ("" :: block.head :: block.body) = some block := by
  rw [readBlock, Block.values_eq]
  cases block with
  | enumeration name options =>
    rw [Block.head, unwrap?_wrapped, Block.values, readOptions_enumLines]
    rfl
  | message name lines =>
    have hkind : unwrap? "enum " " \x7b" ("message " ++ name ++ " \x7b") = none := by
      simp [unwrap?, List.dropPrefix?]
    rw [Block.head, hkind, unwrap?_wrapped, Block.values, readLines_indented]
    rfl

/-- Definitions are read from their lines, one after the other. -/
theorem readBlocks_lines (blocks : List Block) :
    readBlocks (blocks.map fun block => "" :: block.head :: block.body) = some blocks := by
  induction blocks with
  | nil => rfl
  | cons block rest ih =>
    rw [List.map_cons, readBlocks, readBlock_lines, ih]
    rfl

/-- The lines of definitions are told apart at their closing braces. -/
theorem splitOn_blocks (blocks : List Block) :
    ((blocks.map Block.lines).flatMap ("" :: ·)).splitOn "\x7d" =
      (blocks.map fun block => "" :: block.head :: block.body) ++ [[]] := by
  induction blocks with
  | nil => rfl
  | cons block rest ih =>
    have hlines : ((block :: rest).map Block.lines).flatMap ("" :: ·) =
        ("" :: block.head :: block.body) ++
          "\x7d" :: (rest.map Block.lines).flatMap ("" :: ·) := by
      simp [Block.lines]
    rw [hlines, List.splitOn_append_cons_self_of_not_mem block.closing_not_mem, ih]
    rfl

/-- What a document is made of is read from its lines. -/
theorem read_lines {content : Content} (h : content.IsOfLines) :
    read ("\n".intercalate content.lines) = some content := by
  have hlines : linesOf ("\n".intercalate content.lines) = content.lines :=
    linesOf_intercalate (List.cons_ne_nil _ _) (Content.isLine_of_mem_lines h)
  have hblocks := splitOn_blocks content.blocks
  rw [read, hlines, Content.lines]
  simp only [List.cons_append, List.nil_append, unwrap?_wrapped, hblocks, List.dropLast_concat,
    readBlocks_lines, Option.bind_eq_bind, Option.bind_some, Option.pure_def, Content.eq_of_blocks]

example : read "syntax = \"proto3\";\npackage p;" = some ⟨"p", [], []⟩ := by decide

/-- The content of a document determines its definitions and its package. -/
theorem Content.Describes.unique {content : Content} {definitions others : Definitions}
    {package other : String} (h : content.Describes definitions package)
    (hother : content.Describes others other) : definitions = others ∧ package = other := by
  have hcatalogue : ∀ {α : Type} {catalogue same : Catalogue α},
      catalogue.entries = same.entries → catalogue = same := by
    rintro α ⟨entries, _⟩ ⟨_, _⟩ rfl
    rfl
  have hmessages := hcatalogue (h.messages.trans hother.messages.symm)
  have henums := hcatalogue (h.enums.trans hother.enums.symm)
  refine ⟨?_, h.package.symm.trans hother.package⟩
  cases definitions
  cases others
  exact congrArg₂ Definitions.mk hmessages henums

/-- A document can be read back. Let its package, the names of its definitions, the lines of its
messages and the options of its enums be free of line feeds, and its enums be the texts of their
options. Then the reader finds in it the package, the enums in order with their names and options,
and the messages in order with their names and lines, whatever these look like and if there are
none; nothing but line feeds is trimmed from it; and no other definitions or packages of this kind
have the same document. -/
theorem read_render {content : Content} {definitions : Definitions} {package : String}
    (h : content.Describes definitions package) (hlines : content.IsOfLines) :
    read (render definitions package) = some content ∧
      render definitions package = "\n\n".intercalate (header package :: parts definitions) ∧
      ∀ (otherContent : Content) (others : Definitions) (other : String),
        otherContent.Describes others other → otherContent.IsOfLines →
          render definitions package = render others other →
            definitions = others ∧ package = other := by
  have hread : ∀ {content : Content} {definitions package},
      content.Describes definitions package → content.IsOfLines →
        read (render definitions package) = some content := by
    intro content definitions package h hlines
    rw [render_eq_lines h, read_lines hlines]
  refine ⟨hread h hlines, render_eq_parts h, ?_⟩
  intro otherContent others other hother hotherLines hsame
  have hcontent : some content = some otherContent := by
    rw [← hread h hlines, hsame, hread hother hotherLines]
  cases hcontent
  exact h.unique hother

/-- Definitions whose names, options and lines are empty, blank, or look like other lines of a
document. -/
def lookalikes : Content where
  package := " p "
  enums := [("", []), ("E \x7b", ["", " = 0;", "\x7d"])]
  messages := [(" ", []), ("M", ["", "\x7d", "    message M \x7b", "string name = 1; "])]

/-- The definitions that the lookalikes describe. -/
def lookalikeDefinitions : Definitions where
  messages := ⟨lookalikes.messages, by decide⟩
  enums :=
    ⟨lookalikes.enums.map fun enum => (enum.1, Definitions.enumText enum.1 enum.2), by decide⟩

/-- The lookalikes are read back. -/
theorem read_render_lookalikes :
    lookalikes.Describes lookalikeDefinitions " p " ∧ lookalikes.IsOfLines ∧
      read (render lookalikeDefinitions " p ") = some lookalikes := by
  have hdescribes : lookalikes.Describes lookalikeDefinitions " p " := ⟨rfl, rfl, rfl⟩
  have hlines : lookalikes.IsOfLines := ⟨by decide, by decide⟩
  exact ⟨hdescribes, hlines, (read_render hdescribes hlines).1⟩

end ProtoSchema.Document
