import Mathlib.Logic.Relation
import ProtoSchema.Proofs.Schema.Unfolding

/-!
# Copies of a graph

A copy of a schema is the tree in which every reference is replaced by a copy of the object that it
names. No order is given in which references are to be replaced: the trees of the shared objects
only have to fit one another. A schema has a copy where no shared object that it reaches leads back
to itself, and every copy of it is then the tree that the expansion computes.
-/

namespace ProtoSchema.Schema

open ProtoSchema.Visit (unvisited unvisited_lt)
open Relation (ReflTransGen TransGen)

variable {n : Nat}

/-- Whether the fields of one shared object refer to another. -/
def Leads (objects : Objects n) (index next : Fin n) : Prop :=
  next ∈ fieldReferences (objects index)

/-- Whether a schema refers to a shared object that leads, through others or at once, to a given
one. -/
def Reaches (objects : Objects n) (schema : Schema n) (index : Fin n) : Prop :=
  ∃ first ∈ schema.references, ReflTransGen (Leads objects) first index

/-- Whether no shared object that a schema reaches leads back to itself. -/
def IsAcyclic (objects : Objects n) (schema : Schema n) : Prop :=
  ∀ index, schema.Reaches objects index → ¬ TransGen (Leads objects) index index

/-- The tree that is chosen for a shared object is the object with every reference replaced by the
tree that is chosen for what it names. -/
def AreCopies (objects : Objects n) (copy? : Fin n → Option (Schema 0)) : Prop :=
  ∀ index tree, copy? index = some tree →
    ∃ trees, tree = .object trees ∧ UnfoldsFields copy? (objects index) trees

/-- A tree is a schema with every reference replaced by a copy of the object that it names. -/
def IsCopy (objects : Objects n) (schema : Schema n) (tree : Schema 0) : Prop :=
  ∃ copy?, AreCopies objects copy? ∧ Unfolds copy? schema tree

/-- Every walk from a shared object keeps clear of the objects of a path and of itself. -/
structure StaysClear (objects : Objects n) (path : List (Fin n)) (index : Fin n) : Prop where
  /-- No object that is come to leads back to itself. -/
  acyclic : ∀ next, ReflTransGen (Leads objects) index next → ¬ TransGen (Leads objects) next next
  /-- No object that is come to is on the path. -/
  fresh : ∀ next, ReflTransGen (Leads objects) index next → next ∉ path

section Clear

variable {objects : Objects n}

/-- A walk that goes on from an object also keeps clear of that object. -/
theorem StaysClear.step {path : List (Fin n)} {index next : Fin n}
    (h : StaysClear objects path index) (hnext : Leads objects index next) :
    StaysClear objects (index :: path) next where
  acyclic other hother := h.acyclic other (.head hnext hother)
  fresh other hother hmem := by
    rcases List.mem_cons.1 hmem with rfl | hpath
    · exact h.acyclic other .refl (.head' hnext hother)
    · exact h.fresh other (.head hnext hother) hpath

/-- The shared objects of an acyclic schema keep clear of a path that the schema does not come
to. -/
theorem staysClear_of_mem_references {schema : Schema n} (hacyclic : schema.IsAcyclic objects)
    {path : List (Fin n)} (hfresh : ∀ i ∈ path, ¬ schema.Reaches objects i) {index : Fin n}
    (h : index ∈ schema.references) :
    StaysClear objects path index where
  acyclic other hother := hacyclic other ⟨index, h, hother⟩
  fresh other hother hmem := hfresh other hmem ⟨index, h, hother⟩

/-- A shared object that keeps clear of the objects that are entered before it has a tree. -/
theorem exists_expandShared {path : List (Fin n)} {index : Fin n}
    (h : StaysClear objects path index) :
    ∃ tree, expandShared objects path index = some tree := by
  have hentered : index ∉ path := h.fresh index .refl
  have htrees : ∀ next ∈ fieldReferences (objects index),
      ∃ tree, expandShared objects (index :: path) next = some tree :=
    fun next hnext => exists_expandShared (h.step hnext)
  obtain ⟨trees, hmembers⟩ := exists_unfoldsFields htrees
  exact ⟨_, expandShared_eq_some_iff.2 ⟨hentered, trees, rfl, hmembers⟩⟩
termination_by unvisited path
decreasing_by
  exact unvisited_lt (fun j hj => List.mem_cons_of_mem _ hj) List.mem_cons_self hentered

/-- Every copy of such an object is that tree. -/
theorem expandShared_of_areCopies {copy? : Fin n → Option (Schema 0)}
    (hcopies : AreCopies objects copy?) {path : List (Fin n)} {index : Fin n}
    (h : StaysClear objects path index) {tree : Schema 0} (hcopy : copy? index = some tree) :
    expandShared objects path index = some tree := by
  have hentered : index ∉ path := h.fresh index .refl
  obtain ⟨trees, rfl, htrees⟩ := hcopies index tree hcopy
  have hmembers : UnfoldsFields (expandShared objects (index :: path)) (objects index) trees :=
    htrees.mono fun next hnext _ hother => expandShared_of_areCopies hcopies (h.step hnext) hother
  exact expandShared_eq_some_iff.2 ⟨hentered, trees, rfl, hmembers⟩
termination_by unvisited path
decreasing_by
  exact unvisited_lt (fun j hj => List.mem_cons_of_mem _ hj) List.mem_cons_self hentered

end Clear

section Copy

variable {objects : Objects n} {schema : Schema n} {tree : Schema 0}

/-- The trees that the expansion computes for the shared objects are copies of them. -/
theorem areCopies_expandShared (objects : Objects n) :
    AreCopies objects (expandShared objects []) := by
  intro index tree h
  obtain ⟨-, trees, rfl, htrees⟩ := expandShared_eq_some_iff.1 h
  have hsub : ∀ i ∈ ([] : List (Fin n)), i ∈ [index] := fun _ hi => by cases hi
  exact ⟨trees, rfl, htrees.mono fun _ _ _ hother => expandShared_mono hsub hother⟩

/-- An acyclic schema has a copy. -/
theorem exists_isCopy (h : schema.IsAcyclic objects) : ∃ tree, schema.IsCopy objects tree := by
  have hfresh : ∀ i ∈ ([] : List (Fin n)), ¬ schema.Reaches objects i := fun _ hi => by cases hi
  obtain ⟨tree, htree⟩ := exists_unfolds fun index hindex =>
    exists_expandShared (staysClear_of_mem_references h hfresh hindex)
  exact ⟨tree, expandShared objects [], areCopies_expandShared objects, htree⟩

/-- A copy of an acyclic schema is what the schema unfolds into, also inside objects that it does not
come to. -/
theorem unfolds_of_isCopy (h : schema.IsAcyclic objects) {path : List (Fin n)}
    (hfresh : ∀ i ∈ path, ¬ schema.Reaches objects i) (hcopy : schema.IsCopy objects tree) :
    Unfolds (expandShared objects path) schema tree := by
  obtain ⟨copy?, hcopies, htree⟩ := hcopy
  exact htree.mono fun index hindex _ hother =>
    expandShared_of_areCopies hcopies (staysClear_of_mem_references h hfresh hindex) hother

/-- The copy of an acyclic schema is its expansion. -/
theorem expand_of_isCopy (h : schema.IsAcyclic objects) (hcopy : schema.IsCopy objects tree) :
    schema.expand objects = some tree :=
  expandWith_of_unfolds (unfolds_of_isCopy h (fun _ hi => by cases hi) hcopy)

/-- A schema is acyclic where shared objects only lead to those of higher number. -/
theorem isAcyclic_of_lt (h : ∀ index, ∀ next ∈ fieldReferences (objects index), index < next)
    (schema : Schema n) : schema.IsAcyclic objects := by
  have hlt : ∀ index next, TransGen (Leads objects) index next → index < next := by
    intro index next hwalk
    induction hwalk with
    | single hfirst => exact h index _ hfirst
    | tail _ hlast ih => exact Nat.lt_trans ih (h _ _ hlast)
  exact fun index _ hcycle => Nat.lt_irrefl index (hlt index index hcycle)

end Copy

end ProtoSchema.Schema
