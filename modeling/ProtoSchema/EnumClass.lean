import ProtoSchema.Literal
import ProtoSchema.Text.Blank

/-!
# Enum classes

An enum class lists named values. A name whose value repeats an earlier one is another name for the
same member. In a flag class, only the values that are a single bit count as members. The members
are what a class contributes to an enumeration; they stand for integers or texts if the class is
one of integers or texts.

Not every name declares a member. Names between pairs of low lines, names that are private to the
class, and a few names between single low lines have a meaning of their own; other names between
single low lines are reserved. A class of integers turns its values into integers, and a class of
texts takes texts alone.
-/

namespace ProtoSchema

/-- The kinds of enum class. -/
inductive EnumKind where
  /-- Members stand for themselves. -/
  | plain
  /-- Members are integers. -/
  | integer
  /-- Members are texts. -/
  | text
  /-- Members are bits and stand for themselves. -/
  | flag
  /-- Members are bits and integers. -/
  | integerFlag
  deriving DecidableEq

/-- Whether the members are single bits. -/
def EnumKind.isFlag : EnumKind → Bool
  | .flag => true
  | .integerFlag => true
  | _ => false

/-- Why an enum class cannot be declared. -/
inductive EnumError where
  /-- The name is reserved. -/
  | reservedName (name : String)
  /-- No member can have the name. -/
  | invalidName (name : String)
  /-- The name has a value already. -/
  | repeatedName (name : String) (value : Literal)
  /-- The value is no text. -/
  | notText (value : Literal)
  /-- No value of that type can be turned into an integer. -/
  | notNumeric (typeName : String)
  /-- The value does not write an integer. -/
  | notInteger (value : Literal)
  /-- The value is no number. -/
  | notNumber
  /-- The value is infinite. -/
  | infinite
  deriving DecidableEq

/-- The text that reports why an enum class cannot be declared. -/
def EnumError.message : EnumError → String
  | .reservedName name =>
    "_sunder_ names, such as " ++ Text.Quoted.text name ++ ", are reserved for future Enum use"
  | .invalidName name => "invalid enum member name(s) " ++ Text.Quoted.text name
  | .repeatedName name value => Text.Quoted.text name ++ " already defined as " ++ value.quoted
  | .notText value => value.quoted ++ " is not a string"
  | .notNumeric typeName =>
    "int() argument must be a string, a bytes-like object or a real number, not " ++
      Text.Quoted.text typeName
  | .notInteger value => "invalid literal for int() with base 10: " ++ value.quoted
  | .notNumber => "cannot convert float NaN to integer"
  | .infinite => "cannot convert float infinity to integer"

/-- The integer that a text writes: a sign, and decimal digits with low lines between them. -/
def EnumKind.integerOfText? (text : String) : Option Int :=
  let (negative, unsigned) := Binary64.signed (Text.Blank.trim text).toList
  match Binary64.digitRun false unsigned with
  | ([], _) => none
  | (digits, []) =>
    some (if negative then -(Binary64.number digits : Int) else Binary64.number digits)
  | _ => none

/-- The integer that a value is turned into. The fraction of a number is dropped. -/
def EnumKind.integerOf (value : Literal) : Except EnumError Int :=
  let written (text : String) : Except EnumError Int :=
    match integerOfText? text with
    | some n => .ok n
    | none => .error (.notInteger value)
  match value.content with
  | .integer n => .ok n
  | .text content => written content
  | .bytes content =>
    written (String.ofList (content.map fun byte => Char.ofNat byte.toNat))
  | .float .nan => .error .notNumber
  | .float (.infinite _) => .error .infinite
  | .float (.finite negative mantissa exponent) =>
    .ok (Binary64.truncated negative mantissa exponent)
  | .null => .error (.notNumeric "NoneType")
  | .member enumName _ => .error (.notNumeric enumName)

/-- The value that a class of that kind keeps for a declared value. -/
def EnumKind.keep (kind : EnumKind) (value : Literal) : Except EnumError Literal :=
  match kind with
  | .integer => (integerOf value).map .int
  | .integerFlag => (integerOf value).map .int
  | .text =>
    match value.content with
    | .text content => .ok (.text content)
    | _ => .error (.notText value)
  | _ => .ok value

/-- What a name in a class declares. -/
inductive EnumName where
  /-- A member. -/
  | member
  /-- Something else. -/
  | other
  /-- Nothing, because the name is reserved. -/
  | reserved

namespace EnumName

/-- The names between single low lines that have a meaning of their own. -/
def special : List String :=
  ["_order_", "_generate_next_value_", "_numeric_repr_", "_missing_", "_ignore_", "_iter_member_",
   "_iter_member_by_value_", "_iter_member_by_def_"]

/-- Whether a name stands between single low lines. -/
def isSingle (cs : List Char) : Bool :=
  match cs, cs.reverse with
  | '_' :: second :: _ :: _, '_' :: last :: _ => second ≠ '_' && last ≠ '_'
  | _, _ => false

/-- Whether a name stands between pairs of low lines. -/
def isDouble (cs : List Char) : Bool :=
  match cs, cs.reverse with
  | '_' :: '_' :: third :: _ :: _ :: _, '_' :: '_' :: last :: _ => third ≠ '_' && last ≠ '_'
  | _, _ => false

/-- Whether a name is private to the class of that name. -/
def isPrivate (enumName name : String) : Bool :=
  let lead := "_" ++ enumName ++ "__"
  lead.isPrefixOf name && lead.length < name.length && !"__".toList.isSuffixOf name.toList

/-- What a name in the class of that name declares. -/
def ofName (enumName name : String) : EnumName :=
  if isPrivate enumName name then .other
  else if isSingle name.toList then if special.contains name then .other else .reserved
  else if isDouble name.toList then .other
  else .member

/-- The names that no member can have. -/
def invalid : List String := ["mro", ""]

end EnumName

/-- An enum class with its names and values. -/
structure EnumClass where
  /-- The name of the class. -/
  name : String
  /-- The kind of the class. -/
  kind : EnumKind
  /-- The names and values in the order in which they are declared. -/
  declared : List (String × Literal)
  deriving DecidableEq

namespace EnumClass

/-- Take one more declaration, unless its name is reserved or has a value already. -/
def declareName (enumName : String) (earlier : List (String × Literal)) (entry : String × Literal) :
    Except EnumError (List (String × Literal)) :=
  match EnumName.ofName enumName entry.1 with
  | .reserved => .error (.reservedName entry.1)
  | .other => .ok earlier
  | .member =>
    match earlier.lookup entry.1 with
    | some value => .error (.repeatedName entry.1 value)
    | none => .ok (earlier ++ [entry])

/-- The class that names and values declare. All names are looked at before any value. -/
def declare (name : String) (kind : EnumKind) (entries : List (String × Literal)) :
    Except EnumError EnumClass := do
  let entries ← entries.foldlM (declareName name) []
  match entries.find? fun entry => EnumName.invalid.contains entry.1 with
  | some entry => .error (.invalidName entry.1)
  | none =>
    let declared ← entries.mapM fun entry => do return (entry.1, ← kind.keep entry.2)
    return ⟨name, kind, declared⟩

/-- The names that are not another name for an earlier member. -/
def canonical (type : EnumClass) : List (String × Literal) :=
  type.declared.foldl
    (fun kept entry => if kept.any (·.2.sameValue entry.2) then kept else kept ++ [entry]) []

/-- Whether the value is a single bit. -/
def isSingleBit (value : Literal) : Bool :=
  match value.integer? with
  | some bits => 0 < bits && bits.toNat == Nat.pow 2 bits.toNat.log2
  | none => false

/-- The names of the members, in the order in which they are declared. -/
def members (type : EnumClass) : List String :=
  (type.canonical.filter fun entry => !type.kind.isFlag || isSingleBit entry.2).map (·.1)

/-- What a member with the given declared value stands for. -/
def standsFor (kind : EnumKind) (value : Literal) : MemberValue :=
  match kind, value.content with
  | .integer, .integer n => .integer n
  | .integerFlag, .integer n => .integer n
  | .text, .text s => .text s
  | _, _ => .itself

/-- The entry whose member has that name, which may be another name for an earlier one. -/
def entry? (type : EnumClass) (name : String) : Option (String × Literal) :=
  match type.canonical.find? (·.1 = name) with
  | some entry => some entry
  | none =>
    (type.declared.lookup name).bind fun value => type.canonical.find? (·.2.sameValue value)

/-- The member of that name. -/
def member? (type : EnumClass) (name : String) : Option EnumMember :=
  (type.entry? name).map fun entry => ⟨type.name, entry.1, standsFor type.kind entry.2⟩

end EnumClass

end ProtoSchema
