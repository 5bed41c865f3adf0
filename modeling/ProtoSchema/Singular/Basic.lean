import ProtoSchema.Singular.Rule
import ProtoSchema.Text.Word

/-!
# The singular of an English word

The singular is found by the first rule that applies. The rules are tried in a fixed order, special
words before general endings, and the last of them drops a closing `s`. A word that ends in an
uncountable noun is its own singular, and so is a word that no rule touches. The rules know
spelling alone: the singular of `s` is empty.
-/

namespace ProtoSchema.Singular

open ProtoSchema.Text.Word (startsAfter)

/-- The nouns that have no plural of their own. -/
def uncountables : List String :=
  ["equipment", "fish", "information", "jeans", "money", "rice", "series", "sheep", "species"]

/-- Whether the word ends in the noun, and the noun starts where a word can start. -/
def endsInNoun (noun : String) (word : List Char) : Bool :=
  let start := word.length - noun.length
  noun.length ≤ word.length && fits (spell noun) (word.drop start) &&
    startsAfter (word.take start).getLast?

/-- Whether the word ends in an uncountable noun. -/
def isUncountable (word : List Char) : Bool :=
  uncountables.any (endsInNoun · word)

/-- The shape that keeps one spelling and drops another. -/
def shape (kept dropped : String) : Shape :=
  ⟨spell kept, spell dropped⟩

/-- The rule that turns the ending `kept ++ dropped` into `kept ++ added`. -/
def turns (kept dropped added : String) : Rule :=
  .ending [shape kept dropped] added

/-- The rule for nouns of Greek origin in `sis`, with the plural in `ses`. -/
def greek (kept before : String) : Rule :=
  .ending [shape kept (before ++ "sis"), shape kept (before ++ "ses")] (before ++ "sis")

/-- The rules of the singular in the order in which they are tried. -/
def rules : List Rule :=
  [turns "z" "ombies" "ombie",
   .ending [⟨[], [.exactly ['k'], .exactly ['i', 'I'], .exactly ['n', 'N'], .exactly ['e', 'E']]⟩] "cow",
   .ending [⟨[], [.exactly ['K'], .exactly ['i', 'I'], .exactly ['n', 'N'], .exactly ['e', 'E']]⟩] "Cow",
   turns "m" "oves" "ove",
   turns "s" "exes" "ex",
   turns "c" "hildren" "hild",
   turns "h" "umans" "uman",
   turns "m" "en" "an",
   turns "p" "eople" "erson",
   turns "database" "s" "",
   turns "quiz" "zes" "",
   turns "matr" "ices" "ix",
   .ending [shape "vert" "ices", shape "ind" "ices"] "ex",
   turns "passer" "sby" "by",
   .opening (shape "ox" "en"),
   .ending [shape "alias" "es", shape "alias" "", shape "status" "es", shape "status" ""] "",
   .ending [shape "octop" "us", shape "octop" "i", shape "vir" "us", shape "vir" "i"] "us",
   .whole [shape "a" "xis", shape "a" "xes"] "xis",
   .ending [shape "cris" "is", shape "cris" "es", shape "test" "is", shape "test" "es"] "is",
   turns "shoe" "s" "",
   turns "o" "es" "",
   .ending [shape "bus" "es", shape "bus" ""] "",
   .ending [shape "m" "ice", shape "l" "ice"] "ouse",
   .ending [shape "x" "es", shape "ch" "es", shape "ss" "es", shape "sh" "es"] "",
   turns "m" "ovies" "ovie",
   turns "s" "eries" "eries",
   .ending [⟨[.other ['a', 'e', 'i', 'o', 'u', 'y']], spell "ies"⟩, shape "qu" "ies"] "y",
   .ending [⟨[.letter ['l', 'r']], spell "ves"⟩] "f",
   turns "tive" "s" "",
   turns "hive" "s" "",
   .ending [⟨[.other ['f']], spell "ves"⟩] "fe",
   greek "t" "he",
   greek "s" "ynop",
   greek "p" "rogno",
   greek "p" "arenthe",
   greek "d" "iagno",
   greek "b" "a",
   greek "a" "naly",
   .ending [⟨[.letter ['t', 'i']], spell "a"⟩] "um",
   turns "n" "ews" "ews",
   turns "ss" "" "",
   turns "" "s" ""]

/-- The singular of a word given by its characters. -/
def singularChars (word : List Char) : List Char :=
  if isUncountable word then word
  else (rules.findSome? (·.singular? word)).getD word

/-- The singular of a word. -/
def singular (word : String) : String :=
  String.ofList (singularChars word.toList)

theorem toList_singular (word : String) : (singular word).toList = singularChars word.toList := by
  simp [singular]

/-- An uncountable noun is its own singular. -/
theorem singularChars_of_uncountable {word : List Char} (h : isUncountable word = true) :
    singularChars word = word := by
  simp [singularChars, h]

/-- The first rule that applies decides the singular of a countable word. -/
theorem singularChars_of_countable {word : List Char} (h : isUncountable word = false) :
    singularChars word = (rules.findSome? (·.singular? word)).getD word := by
  simp [singularChars, h]

end ProtoSchema.Singular
