import ProtoSchema.Document

/-!
# What trimming leaves of a document

A document starts with the word that names the version of the language. Where it ends in a character
that is not blank, as a message does, and an enum, and the opening where nothing is defined, trimming
takes away the line feeds at the end alone, and the document is its opening followed by its parts,
with an empty line between any two of them.
-/

namespace ProtoSchema

namespace Text.Blank

/-- Trimming takes away what is blank at the end of a text that neither starts nor ends blank. -/
theorem trim_append_blank {text blanks : String} {first last : Char} {tail front : List Char}
    (hblanks : ∀ c ∈ blanks.toList, isBlank c = true)
    (hstart : text.toList = first :: tail) (hfirst : isBlank first = false)
    (hend : text.toList = front ++ [last]) (hlast : isBlank last = false) :
    trim (text ++ blanks) = text := by
  have hleft : (text.toList ++ blanks.toList).dropWhile isBlank = text.toList ++ blanks.toList := by
    rw [hstart, List.cons_append]
    exact List.dropWhile_cons_of_neg (by simp [hfirst])
  have hright : trimRight (text.toList ++ blanks.toList) = trimRight text.toList := by
    have hreversed : ∀ c ∈ blanks.toList.reverse, isBlank c = true :=
      fun c hc => hblanks c (List.mem_reverse.1 hc)
    rw [trimRight, List.reverse_append, List.dropWhile_append_of_pos hreversed, ← trimRight]
  have hchars : trimChars (text ++ blanks).toList = text.toList := by
    rw [String.toList_append, trimChars, hleft, hright, hend, trimRight_concat_solid hlast]
  rw [trim, hchars, String.ofList_toList]

end Text.Blank

namespace Document

/-- A document starts with the word for the version of its language. -/
theorem toList_header (package : String) :
    ∃ tail, (header package).toList = 's' :: tail := by
  have hopening : "syntax = \"proto3\";\npackage ".toList =
      's' :: "yntax = \"proto3\";\npackage ".toList := rfl
  unfold header
  simp only [String.toList_append, hopening, List.cons_append]
  exact ⟨_, rfl⟩

/-- The opening of a document ends in a semicolon. -/
theorem toList_header_concat (package : String) :
    ∃ front, (header package).toList = front ++ [';'] := by
  have hclosing : ";".toList = [';'] := rfl
  unfold header
  rw [String.toList_append, hclosing]
  exact ⟨_, rfl⟩

/-- A message ends in a brace. -/
theorem toList_messageText (name : String) (lines : List String) :
    ∃ front, (Definitions.messageText name lines).toList = front ++ ['\x7d'] := by
  refine ⟨("message " ++ name ++ " \x7b\n" ++
    "\n".intercalate (lines.map (Definitions.indent ++ ·)) ++ "\n").toList, ?_⟩
  rw [Definitions.messageText]
  simp

/-- Before it is trimmed, a document is its opening and its parts, with an empty line between any two
of them, and line feeds. -/
theorem exists_lineFeeds (opening : String) (texts : List String) :
    ∃ blanks : String, (∀ c ∈ blanks.toList, Text.Blank.isBlank c = true) ∧
      opening ++ "\n\n" ++ "\n\n".intercalate texts ++ "\n" =
        "\n\n".intercalate (opening :: texts) ++ blanks := by
  have hlineFeed : Text.Blank.isBlank '\n' = true := by decide
  cases texts with
  | nil =>
    refine ⟨"\n\n\n", by simp [hlineFeed], ?_⟩
    have hlineFeeds : "\n\n\n" = "\n\n" ++ "\n" := rfl
    rw [String.intercalate_nil, String.intercalate_singleton, String.append_empty, hlineFeeds,
      String.append_assoc]
  | cons text rest =>
    refine ⟨"\n", by simp [hlineFeed], ?_⟩
    rw [String.intercalate_cons_of_ne_nil (List.cons_ne_nil _ _)]

/-- A document whose last part does not end blank is its opening and its parts, with an empty line
between any two of them. -/
theorem render_eq_of_solid {definitions : Definitions} {package : String} {texts : List String}
    {last : String} {front : List Char} {c : Char}
    (htexts : header package :: parts definitions = texts ++ [last])
    (hlast : last.toList = front ++ [c]) (hc : Text.Blank.isBlank c = false) :
    render definitions package = "\n\n".intercalate (header package :: parts definitions) := by
  obtain ⟨blanks, hblanks, htext⟩ := exists_lineFeeds (header package) (parts definitions)
  obtain ⟨start, hstart⟩ : ∃ rest,
      ("\n\n".intercalate (header package :: parts definitions)).toList = 's' :: rest := by
    obtain ⟨tail, htail⟩ := toList_header package
    cases parts definitions with
    | nil => exact ⟨tail, by rw [String.intercalate_singleton, htail]⟩
    | cons part rest =>
      rw [String.intercalate_cons_of_ne_nil (List.cons_ne_nil _ _), String.toList_append,
        String.toList_append, htail]
      exact ⟨_, rfl⟩
  obtain ⟨back, hback⟩ : ∃ rest,
      ("\n\n".intercalate (header package :: parts definitions)).toList = rest ++ [c] := by
    rw [htexts]
    cases texts with
    | nil => exact ⟨front, by rw [List.nil_append, String.intercalate_singleton, hlast]⟩
    | cons text rest =>
      rw [String.intercalate_append_of_ne_nil (List.cons_ne_nil _ _) (List.cons_ne_nil _ _),
        String.intercalate_singleton, String.toList_append, hlast, ← List.append_assoc]
      exact ⟨_, rfl⟩
  rw [render, htext]
  exact Text.Blank.trim_append_blank hblanks hstart (by decide) hback hc

/-- A document whose last definition is a message is its opening and its parts, with an empty line
between any two of them. -/
theorem render_eq_intercalate {definitions : Definitions} {package : String}
    {before : List (String × List String)} {last : String × List String}
    (h : definitions.messages.entries = before ++ [last]) :
    render definitions package =
      "\n\n".intercalate (header package :: parts definitions) := by
  obtain ⟨front, hfront⟩ := toList_messageText last.1 last.2
  obtain ⟨texts, htexts⟩ : ∃ texts,
      parts definitions = texts ++ [Definitions.messageText last.1 last.2] :=
    ⟨definitions.enums.entries.map (·.2) ++
      before.map fun message => Definitions.messageText message.1 message.2, by simp [parts, h]⟩
  have hlist : header package :: parts definitions =
      (header package :: texts) ++ [Definitions.messageText last.1 last.2] := by
    rw [htexts, List.cons_append]
  exact render_eq_of_solid hlist hfront (by decide)

end Document

end ProtoSchema
