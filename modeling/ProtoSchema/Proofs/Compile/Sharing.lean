import ProtoSchema.Proofs.Compile.Expansion
import ProtoSchema.Proofs.Compile.Tree
import ProtoSchema.Proofs.Schema.Acyclic
import ProtoSchema.Session

/-!
# Sharing is not seen

Objects are told apart by what they are only where one is about to be entered: a shared object that
is open is refused. In a graph without cycles no walk comes back to an object that is open, so that
it makes no difference whether an object is shared or copied. Main statement: such a graph has a
copy, and whatever is compiled from the graph yields, defines and logs what is compiled from a copy
of it; it is never refused as cyclic.
-/

namespace ProtoSchema

variable {m n : Nat} {α : Type}

/-- Two replies tell the same, whatever the sessions are over: how the call ends, what is defined
afterwards, and what is logged. -/
structure Reply.Agrees (reply : Reply n α) (other : Reply m α) : Prop where
  /-- Both calls yield the same value or fail for the same cause. -/
  outcome : reply.outcome = other.outcome
  /-- The same messages and enums are defined, in the same order. -/
  definitions : reply.session.definitions = other.session.definitions
  /-- The same is logged, in the same order. -/
  log : reply.log = other.log

namespace Compile

/-- No object of a tree is found open when it is entered. -/
theorem compileObject_tree_ne_cyclic (namer : Namer) (path : List (OpenObject 0))
    (scope : List String) (tree : Schema 0) (labels : List String) :
    (compileObject Schema.noObjects namer path scope tree).outcome ≠ .error (.cyclic labels) := by
  intro h
  cases tree with
  | object members =>
    cases hoffence : Schema.firstOffence (Schema.fieldPositions members) with
    | none =>
      rw [compileObject_accepted hoffence] at h
      cases h
    | some kind =>
      rw [compileObject_refused hoffence] at h
      cases h
  | shared index => exact index.elim0
  | _ => cases h

/-- The same holds of a tree that is compiled at a place. -/
theorem compileField_tree_ne_cyclic (namer : Namer) (path : List (OpenObject 0)) (place : Place)
    (tree : Schema 0) (labels : List String) :
    (compileField Schema.noObjects namer path place tree).outcome ≠ .error (.cyclic labels) := by
  rw [compileField, outcome_field]
  cases Schema.firstOffence (tree.positions ++ [⟨tree, false⟩]) <;> simp [verdict, Except.map]

/-- The same holds of a tree that a document is generated from. -/
theorem generate_tree_ne_cyclic (tree : Schema 0) (options : Options) (labels : List String) :
    (generate Schema.noObjects tree options).document ≠ .error (.cyclic labels) := by
  intro h
  have houtcome := Generation.outcome_document Schema.noObjects tree options
  have hobject := compileObject_tree_ne_cyclic options.namer [] [] tree.strip labels
  rw [h, Generation.outcome_compilation] at houtcome
  cases hfields : (compileObject Schema.noObjects options.namer [] [] tree.strip).outcome with
  | ok fields =>
    rw [hfields] at houtcome
    cases houtcome
  | error cause =>
    rw [hfields] at houtcome hobject
    cases houtcome
    exact hobject rfl

end Compile

namespace Session

/-- What is compiled is recorded alike in all sessions with the same definitions. -/
theorem absorb_agrees (session : Session n) (compilation : Compilation α) :
    (session.absorb compilation).Agrees
      ((Session.mk session.definitions [] : Session m).absorb compilation) :=
  ⟨rfl, rfl, rfl⟩

/-- A schema whose shared objects lead nowhere back to themselves has a copy, in which every
reference is replaced by a copy of the object that it names. In a session where no object that the
schema comes to is open, compiling the schema yields, defines and logs what compiling a copy of it
does, as an object and as a field, and so does generating a document. The error of a cyclic schema
is never raised. -/
theorem compile_of_isCopy (objects : Objects n) (schema : Schema n)
    (hacyclic : schema.IsAcyclic objects) :
    (∃ tree, schema.IsCopy objects tree) ∧
      ∀ tree, schema.IsCopy objects tree →
        (∀ session : Session n,
          (∀ index ∈ OpenObject.indices session.path, ¬ schema.Reaches objects index) →
            ∀ namer scope place,
              (session.compileObject objects namer scope schema).Agrees
                  ((Session.mk session.definitions []).compileObject Schema.noObjects namer scope
                    tree) ∧
                (session.compileField objects namer place schema).Agrees
                  ((Session.mk session.definitions []).compileField Schema.noObjects namer place
                    tree) ∧
                ∀ labels,
                  (session.compileObject objects namer scope schema).outcome ≠
                      .error (.cyclic labels) ∧
                    (session.compileField objects namer place schema).outcome ≠
                      .error (.cyclic labels)) ∧
          ∀ options,
            generate objects schema options = generate Schema.noObjects tree options ∧
              ∀ labels, (generate objects schema options).document ≠ .error (.cyclic labels) := by
  refine ⟨Schema.exists_isCopy hacyclic, fun tree hcopy => ⟨?_, ?_⟩⟩
  · intro session hclosed namer scope place
    have hunfolds := Schema.unfolds_of_isCopy hacyclic hclosed hcopy
    have hobject : ProtoSchema.compileObject objects namer session.path scope schema =
        ProtoSchema.compileObject Schema.noObjects namer [] scope tree :=
      Compile.compileObject_of_unfolds (fun _ hi => hi) scope hunfolds
    have hfield : ProtoSchema.compileField objects namer session.path place schema =
        ProtoSchema.compileField Schema.noObjects namer [] place tree :=
      Compile.compileField_of_unfolds (fun _ hi => hi) place hunfolds _
    rw [compileObject, compileField, hobject, hfield]
    refine ⟨absorb_agrees session _, absorb_agrees session _, fun labels => ⟨?_, ?_⟩⟩
    · exact Compile.compileObject_tree_ne_cyclic namer [] scope tree labels
    · exact Compile.compileField_tree_ne_cyclic namer [] place tree labels
  · intro options
    have hgenerate := Compile.generate_of_expand options (Schema.expand_of_isCopy hacyclic hcopy)
    refine ⟨hgenerate, fun labels => ?_⟩
    rw [hgenerate]
    exact Compile.generate_tree_ne_cyclic tree options labels

/-- An address in a country; both are shared. -/
def addressObjects : Objects 2
  | ⟨0, _⟩ => [("street", .string), ("country", .shared ⟨1, Nat.one_lt_two⟩)]
  | ⟨1, _⟩ => [("code", .string)]

/-- A person has an address as the home, in a list, among the values of a map and in a tuple. -/
def person : Schema 2 :=
  let country : Schema 2 := .shared ⟨1, Nat.one_lt_two⟩
  let address : Schema 2 := .shared ⟨0, Nat.zero_lt_two⟩
  .object [("home", address), ("earlier", .array (.optional address)),
    ("offices", .map .string address), ("origin", .tuple [country, address])]

/-- A copy of the country. -/
def copiedCountry : Schema 0 :=
  .object [("code", .string)]

/-- A copy of the address, with a country of its own. -/
def copiedAddress : Schema 0 :=
  .object [("street", .string), ("country", copiedCountry)]

/-- The person with an address and a country of its own in every place. -/
def copiedPerson : Schema 0 :=
  .object [("home", copiedAddress), ("earlier", .array (.optional copiedAddress)),
    ("offices", .map .string copiedAddress), ("origin", .tuple [copiedCountry, copiedAddress])]

/-- The trees of the address and the country. -/
def personCopies : Fin 2 → Option (Schema 0)
  | ⟨0, _⟩ => some copiedAddress
  | ⟨1, _⟩ => some copiedCountry

/-- Four references to the address and two to the country make no difference: the person compiles
like the copy, and these messages are defined. -/
theorem compile_of_isCopy_person :
    person.IsAcyclic addressObjects ∧ person.IsCopy addressObjects copiedPerson ∧
      (∀ index ∈ OpenObject.indices (Session.mk .empty [] : Session 2).path,
        ¬ person.Reaches addressObjects index) ∧
      ((Session.mk .empty [] : Session 2).compileObject addressObjects {} [] person).Agrees
        ((Session.mk .empty [] : Session 0).compileObject Schema.noObjects {} [] copiedPerson) ∧
      ((Session.mk .empty [] : Session 2).compileObject addressObjects {} []
          person).session.definitions.messages.names =
        ["Country", "Home", "Earlier", "OfficesValue", "Origin_0", "Origin_1", "Origin"] := by
  have hacyclic : person.IsAcyclic addressObjects := Schema.isAcyclic_of_lt (by decide) person
  have hcopies : Schema.AreCopies addressObjects personCopies
    | ⟨0, _⟩, _, rfl => ⟨_, rfl, Schema.unfoldsFields_of_expandFields rfl⟩
    | ⟨1, _⟩, _, rfl => ⟨_, rfl, Schema.unfoldsFields_of_expandFields rfl⟩
  have hcopy : person.IsCopy addressObjects copiedPerson :=
    ⟨personCopies, hcopies, Schema.unfolds_of_expandWith rfl⟩
  have hclosed : ∀ index ∈ OpenObject.indices (Session.mk .empty [] : Session 2).path,
      ¬ person.Reaches addressObjects index := fun _ hindex => by cases hindex
  obtain ⟨-, htransparent⟩ := compile_of_isCopy addressObjects person hacyclic
  obtain ⟨hsession, -⟩ := htransparent copiedPerson hcopy
  obtain ⟨hagrees, -, -⟩ := hsession _ hclosed {} [] ⟨"person", [], false, false⟩
  refine ⟨hacyclic, hcopy, hclosed, hagrees, ?_⟩
  rw [hagrees.definitions]
  decide

end Session

end ProtoSchema
