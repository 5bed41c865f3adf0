import ProtoSchema.Text.Uppercase

/-!
# Names of generated types

A generated message or enum is named after the key of its field. A key may be dotted: the dots go,
and the first character of each segment takes its uppercase form. The namer adds a fixed text in
front, and it can put the keys of the enclosing objects before the key, so that two fields of one
key in different objects have different types.
-/

namespace ProtoSchema

namespace Naming

open ProtoSchema.Text.Uppercase (upper)

/-- The type name of a key given by its characters; `atStart` tells that a segment begins here. -/
def pascal (atStart : Bool) : List Char → List Char
  | [] => []
  | c :: rest =>
    if c = '.' then pascal true rest
    else if atStart then upper c ++ pascal false rest
    else c :: pascal false rest

/-- The type name of a field key, with nothing in front of it. -/
def typeName (key : String) : String :=
  String.ofList (pascal true key.toList)

theorem toList_typeName (key : String) : (typeName key).toList = pascal true key.toList := by
  simp [typeName]

theorem pascal_nil (atStart : Bool) : pascal atStart [] = [] := rfl

theorem pascal_dot (atStart : Bool) (rest : List Char) :
    pascal atStart ('.' :: rest) = pascal true rest := by
  simp [pascal]

theorem pascal_first {c : Char} (h : c ≠ '.') (rest : List Char) :
    pascal true (c :: rest) = upper c ++ pascal false rest := by
  simp [pascal, h]

theorem pascal_later {c : Char} (h : c ≠ '.') (rest : List Char) :
    pascal false (c :: rest) = c :: pascal false rest := by
  simp [pascal, h]

end Naming

/-- How generated types are named. -/
structure Namer where
  /-- The text in front of every generated name. -/
  lead : String := ""
  /-- Whether the keys of the enclosing objects are part of the name. -/
  qualify : Bool := false
  deriving DecidableEq

namespace Namer

/-- The dotted key under which a field is named, given the keys of the enclosing objects. -/
def dottedKey (namer : Namer) (key : String) (scope : List String) : String :=
  if namer.qualify then ".".intercalate (scope ++ [key]) else key

/-- The name of the type that the field `key` generates inside the objects of `scope`. -/
def nameFor (namer : Namer) (key : String) (scope : List String) : String :=
  namer.lead ++ Naming.typeName (namer.dottedKey key scope)

/-- The name of the root message. -/
def rootName (namer : Namer) (base : String) : String :=
  namer.lead ++ base

theorem nameFor_unqualified {namer : Namer} (h : namer.qualify = false) (key : String)
    (scope : List String) : namer.nameFor key scope = namer.lead ++ Naming.typeName key := by
  simp [nameFor, dottedKey, h]

theorem nameFor_nil (namer : Namer) (key : String) :
    namer.nameFor key [] = namer.lead ++ Naming.typeName key := by
  simp [nameFor, dottedKey]

end Namer

end ProtoSchema
