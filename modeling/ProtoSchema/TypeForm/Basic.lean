import ProtoSchema.Constraint
import ProtoSchema.EnumClass

/-!
# Type annotations

A type annotation describes the type of a model field. It is a plain class, an enum class, one of
`k` models, or a form built from other annotations: a generic type with arguments, a union, a
choice of literals, an annotation with constraints. Models are referred to by number, so that they
can refer to each other and to themselves.
-/

namespace ProtoSchema

/-- What a plain class is derived from, as far as it decides the type of a field. -/
inductive Lineage where
  /-- The truth values. -/
  | boolean
  /-- The integers. -/
  | integer
  /-- The binary64 numbers. -/
  | float
  /-- The texts. -/
  | text
  /-- The dates. -/
  | date
  /-- Anything else. -/
  | other
  deriving DecidableEq

/-- A plain class. -/
structure PlainClass where
  /-- The name of the class. -/
  name : String
  /-- What the class is derived from. -/
  lineage : Lineage
  /-- Whether the class is one of the standard ones. -/
  standard : Bool
  deriving DecidableEq

/-- What the arguments of a generic type mean. -/
inductive GenericRole where
  /-- The first argument is the type of the elements of a sequence. -/
  | sequence
  /-- The first argument is the type of the elements of a set. -/
  | set
  /-- The arguments are the types of the elements of a tuple. -/
  | tuple
  /-- The arguments are the types of the keys and of the values. -/
  | dictionary
  /-- The arguments have no meaning here. -/
  | other
  deriving DecidableEq

/-- Where the name of a generic type comes from. -/
inductive GenericOrigin where
  /-- A concrete class. -/
  | concrete
  /-- An abstract class. -/
  | interface
  /-- A second name that exists for annotations alone. -/
  | typing
  deriving DecidableEq

/-- A generic type. -/
structure Generic where
  /-- The name of the type. -/
  name : String
  /-- Where the name comes from. -/
  origin : GenericOrigin
  /-- What the arguments mean. -/
  role : GenericRole
  deriving DecidableEq

/-- A type annotation over `k` models. -/
inductive TypeForm (k : Nat) where
  /-- Any type at all. -/
  | any
  /-- The type of the null value. -/
  | none
  /-- The null value itself. -/
  | nullValue
  /-- The dots that make a tuple variadic. -/
  | ellipsis
  /-- A plain class. -/
  | plain (type : PlainClass)
  /-- An enum class. -/
  | enumeration (type : EnumClass)
  /-- The model of that number. -/
  | model (index : Fin k)
  /-- One of the literals. -/
  | literal (options : List Literal)
  /-- One of the member types. -/
  | union (members : List (TypeForm k))
  /-- A type with constraints. -/
  | annotated (inner : TypeForm k) (constraints : List Constraint)
  /-- A generic type with arguments. -/
  | generic (type : Generic) (arguments : List (TypeForm k))
  /-- Something that is no class, known by its name; `token` tells objects of one name apart. -/
  | named (name : String) (token : Nat)

namespace TypeForm

variable {k : Nat}

/-- Whether this is the type of the null value. -/
def isNone : TypeForm k → Bool
  | .none => true
  | _ => false

/-- Whether two lists of literals hold the same ones, whatever their order. -/
def sameLiterals (as bs : List Literal) : Bool :=
  as.all (fun a => bs.any a.identical) && bs.all (fun b => as.any b.identical)

/-- Whether two lists of constraints agree position by position. -/
def sameConstraints : List Constraint → List Constraint → Bool
  | [], [] => true
  | a :: as, b :: bs => a.same b && sameConstraints as bs
  | _, _ => false

mutual

/-- Whether two annotations are equal. The members of a union and the options of a choice are
compared regardless of their order. -/
def same : TypeForm k → TypeForm k → Bool
  | .any, .any => true
  | .none, .none => true
  | .nullValue, .nullValue => true
  | .ellipsis, .ellipsis => true
  | .plain a, .plain b => a == b
  | .enumeration a, .enumeration b => a == b
  | .model i, .model j => i == j
  | .literal as, .literal bs => sameLiterals as bs
  | .union as, .union bs => as.length == bs.length && within as bs
  | .annotated a cs, .annotated b ds => same a b && sameConstraints cs ds
  | .generic type as, .generic other bs => type == other && sameList as bs
  | .named a i, .named b j => a == b && i == j
  | _, _ => false
termination_by structural form => form

/-- Whether each of the annotations is equal to one of the others. -/
def within : List (TypeForm k) → List (TypeForm k) → Bool
  | [], _ => true
  | a :: as, bs => bs.any (same a) && within as bs
termination_by structural forms => forms

/-- Whether two lists of annotations agree position by position. -/
def sameList : List (TypeForm k) → List (TypeForm k) → Bool
  | [], [] => true
  | a :: as, b :: bs => same a b && sameList as bs
  | _, _ => false
termination_by structural forms => forms

end

end TypeForm

end ProtoSchema
