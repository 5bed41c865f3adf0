import ProtoSchema.Entries
import ProtoSchema.TypeForm.Normal
import ProtoSchema.Model.Basic
import ProtoSchema.Text.Quoted

/-!
# Declaring models

A model is declared by its bases and by its own fields. It has the fields of all its ancestors too.
The ancestors of a model are put into a line in which every class comes before its bases, the bases
of a class keep their order, and the lines of the bases are kept; if there is no such line, the
declaration is refused, and so it is if a base is given twice. The fields are then collected from
the last ancestor to the model itself: a new name comes last, a name that is there is redefined in
its place. What is declared under a name with a leading underscore is no field, and no description
can be assigned to it.

The constraints of a field are those put on its annotation, followed by those of the description
assigned to it.
-/

namespace ProtoSchema

/-- A field as it is declared. -/
structure FieldDeclaration (k : Nat) where
  /-- The annotation of the field. -/
  form : TypeForm k
  /-- The description assigned to the field, if there is one. -/
  assigned : Option FieldInfo := none
  /-- Whether the field has no default. -/
  required : Bool := true

/-- The field that a declaration amounts to. -/
def FieldDeclaration.resolve {k : Nat} (declared : FieldDeclaration k) : ModelField k :=
  let (type, constraints) := declared.form.asType.split
  { form := some type
    info := Constraint.gather (constraints ++ (declared.assigned.map .field).toList)
    required := declared.required }

/-- Whether a name can be that of a field. -/
def FieldDeclaration.isName (name : String) : Bool :=
  !"_".isPrefixOf name

/-- Why the declaration of a model is refused. -/
inductive DeclarationError where
  /-- A description is assigned under a name that cannot be that of a field. -/
  | leadingUnderscore (name : String)
  /-- A base is given twice. -/
  | repeatedBase (name : String)
  /-- No line of ancestors keeps all orders; these classes stand in each other's way. -/
  | inconsistent (names : List String)
  deriving DecidableEq

/-- The text that reports why the declaration of a model is refused. -/
def DeclarationError.message : DeclarationError → String
  | .leadingUnderscore name =>
    let plain := String.ofList (name.toList.dropWhile (· = '_'))
    "Fields must not use names with leading underscores; e.g., use " ++
      Text.Quoted.text (if plain = "" then "my_field" else plain) ++ " instead of " ++
      Text.Quoted.text name ++ "."
  | .repeatedBase name => "duplicate base class " ++ name
  | .inconsistent names =>
    "Cannot create a consistent method resolution\norder (MRO) for bases " ++
      ", ".intercalate names

/-- A model as it is declared. -/
structure ModelDeclaration (k : Nat) where
  /-- The name of the class. -/
  name : String
  /-- The bases of the class, which are declared before it. -/
  bases : List (Fin k) := []
  /-- The fields that the class declares itself. -/
  fields : List (String × FieldDeclaration k) := []
  /-- Whether the class comes from elsewhere than the file that names it. -/
  imported : Bool := false

/-- Every described field has a name that a field can have. -/
def ModelDeclaration.checkNames {k : Nat} (declared : ModelDeclaration k) :
    Except DeclarationError Unit :=
  match declared.fields.find? fun field =>
      !FieldDeclaration.isName field.1 && field.2.assigned.isSome with
  | some field => .error (.leadingUnderscore field.1)
  | none => .ok ()

namespace Ancestry

variable {k : Nat}

/-- Whether a class comes behind the first place of a line. -/
def isBehind (c : Fin k) : List (Fin k) → Bool
  | [] => false
  | _ :: rest => rest.contains c

/-- The first class at the head of a line that comes behind in none. -/
def nextHead? (lines : List (List (Fin k))) : Option (Fin k) :=
  lines.findSome? fun line =>
    line.head?.bind fun c => if lines.any (isBehind c) then none else some c

/-- The lines without a class at their head. -/
def dropHead (c : Fin k) (lines : List (List (Fin k))) : List (List (Fin k)) :=
  (lines.map fun line => if line.head? = some c then line.drop 1 else line).filter (· ≠ [])

/-- The classes at the heads of the lines, each of them once. -/
def heads (lines : List (List (Fin k))) : List (Fin k) :=
  (lines.filterMap List.head?).eraseDups

/-- One line that keeps the order of all lines, in at most so many steps, or the heads of the lines
that are left when there is none. -/
def mergeWithin : Nat → List (List (Fin k)) → Except (List (Fin k)) (List (Fin k))
  | _, [] => .ok []
  | 0, lines => .error (heads lines)
  | steps + 1, lines =>
    match nextHead? lines with
    | none => .error (heads lines)
    | some c => do return c :: (← mergeWithin steps (dropHead c lines))

/-- One line that keeps the order of all lines. -/
def merge (lines : List (List (Fin k))) : Except (List (Fin k)) (List (Fin k)) :=
  mergeWithin lines.flatten.length (lines.filter (· ≠ []))

/-- The first class that is in a list twice. -/
def repeated? : List (Fin k) → Option (Fin k)
  | [] => none
  | c :: rest => if rest.contains c then some c else repeated? rest

/-- The line of ancestors of a class, itself included, given those of the classes before it. -/
def line (declarations : Fin k → ModelDeclaration k) (before : List (List (Fin k))) (c : Fin k) :
    Except DeclarationError (List (Fin k)) :=
  let bases := (declarations c).bases
  match repeated? bases with
  | some base => .error (.repeatedBase (declarations base).name)
  | none =>
    match merge (bases.map (fun base => before.getD base.val []) ++ [bases]) with
    | .ok rest => .ok (c :: rest)
    | .error stuck => .error (.inconsistent (stuck.map fun base => (declarations base).name))

/-- The lines of ancestors of some classes, added to those of the classes before them. -/
def linesFrom (declarations : Fin k → ModelDeclaration k) (before : List (List (Fin k))) :
    List (Fin k) → Except DeclarationError (List (List (Fin k)))
  | [] => .ok before
  | c :: rest => do
    (declarations c).checkNames
    linesFrom declarations (before ++ [← line declarations before c]) rest

/-- The lines of ancestors of all classes in the order in which they are declared. -/
def lines (declarations : Fin k → ModelDeclaration k) :
    Except DeclarationError (List (List (Fin k))) :=
  linesFrom declarations [] (List.finRange k)

end Ancestry

namespace ModelDeclaration

variable {k : Nat}

/-- The fields of a model, collected along its line of ancestors. -/
def collect (declarations : Fin k → ModelDeclaration k) (ancestors : List (Fin k)) :
    List (String × FieldDeclaration k) :=
  Entries.ofList (ancestors.reverse.flatMap fun c =>
    (declarations c).fields.filter fun field => FieldDeclaration.isName field.1)

/-- The family of the declared models, given their lines of ancestors. -/
def familyAlong (declarations : Fin k → ModelDeclaration k) (lines : List (List (Fin k))) :
    Family k := fun i =>
  { name := (declarations i).name
    fields := (collect declarations (lines.getD i.val [])).map fun field =>
      (field.1, field.2.resolve)
    imported := (declarations i).imported }

/-- The family of the declared models, if no declaration is refused. -/
def family (declarations : Fin k → ModelDeclaration k) : Except DeclarationError (Family k) :=
  (Ancestry.lines declarations).map (familyAlong declarations)

/-- No model has two fields of one name. -/
theorem nodup_familyAlong (declarations : Fin k → ModelDeclaration k) (lines : List (List (Fin k)))
    (i : Fin k) : (Entries.names (familyAlong declarations lines i).fields).Nodup := by
  have hnames := Entries.nodup_names_ofList
    ((lines.getD i.val []).reverse.flatMap fun c =>
      (declarations c).fields.filter fun field => FieldDeclaration.isName field.1)
  simpa [familyAlong, collect, Entries.names, Function.comp_def] using hnames

theorem nodup_family {declarations : Fin k → ModelDeclaration k} {models : Family k}
    (h : family declarations = .ok models) (i : Fin k) :
    (Entries.names (models i).fields).Nodup := by
  cases hlines : Ancestry.lines declarations with
  | error cause => simp [family, hlines, Except.map] at h
  | ok lines =>
    have he : familyAlong declarations lines = models := by
      simpa [family, hlines, Except.map] using h
    simpa [← he] using nodup_familyAlong declarations lines i

end ModelDeclaration

end ProtoSchema
