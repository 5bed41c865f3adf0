import ProtoSchema.Proofs.Compile.Walks
import ProtoSchema.Session

/-!
# The detection of cycles

The compilation of an object never has more shared objects open than there are, so that it comes to
an end on every graph. Where it succeeds, every walk from its object comes to an end. Where it
raises the error of a cyclic schema, the labels of the error name the objects of a walk and the one
among them that the walk would enter again.
-/

namespace ProtoSchema

open Compilation (fail)
open ProtoSchema.Visit (unvisited unvisited_lt unvisited_le)
open ObjectGraph (Node Refers Descends nodes last root?)

variable {n : Nat}

namespace Compile

/-- Compiling a shared object that is entered under a scope from inside the objects of a path. -/
abbrev PathCompiler (n : Nat) :=
  List (OpenObject n) → List String → Fin n → Compilation (List NumberedField)

/-- Compile a shared object with at most so many shared ones entered inside one another, where
something else is done for those that are further inside. -/
def sharedWithin (objects : Objects n) (namer : Namer) (beyond : PathCompiler n) :
    Nat → PathCompiler n
  | 0, path, scope, i => beyond path scope i
  | depth + 1, path, scope, i =>
    if (OpenObject.indices path).contains i then
      fail (.cyclic (OpenObject.labels path ++ [OpenObject.labelOf scope]))
    else do
      let here : OpenObject n := ⟨some i, OpenObject.labelOf scope⟩
      let fields ← objectFields
        (fun trail scope j =>
          sharedWithin objects namer beyond depth
            (path ++ [here] ++ trail.map OpenObject.unshared) scope j)
        namer [] scope (objects i)
      finishObject scope fields

/-- Compile the fields of an object that is entered under a scope from inside the objects of a
path, given the compiler of shared objects. -/
def objectBy (shared : PathCompiler n) (namer : Namer) (path : List (OpenObject n))
    (scope : List String) : Schema n → Compilation (List NumberedField)
  | .object members => do
    let fields ← objectFields
      (fun trail scope i => shared (path ++ trail.map OpenObject.unshared) scope i)
      namer [OpenObject.labelOf scope] scope members
    finishObject scope fields
  | .shared i => shared path scope i
  | schema => fail (.unsupported schema.kind)

variable {objects : Objects n} {namer : Namer}

/-- No more shared objects are entered inside one another than are not yet open. -/
theorem sharedWithin_eq (beyond : PathCompiler n) {depth : Nat} {path : List (OpenObject n)}
    (h : unvisited (OpenObject.indices path) < depth) (scope : List String) (i : Fin n) :
    sharedWithin objects namer beyond depth path scope i =
      sharedObject objects namer path scope i := by
  induction depth generalizing path scope i with
  | zero => omega
  | succ depth ih =>
    rw [sharedWithin, sharedObject]
    by_cases hopen : i ∈ OpenObject.indices path
    · rw [if_pos (List.contains_iff_mem.2 hopen), dif_pos hopen]
    · rw [if_neg (fun h => hopen (List.contains_iff_mem.1 h)), dif_neg hopen]
      have hinner : ∀ (trail inside : List String) (j : Fin n),
          sharedWithin objects namer beyond depth
              (path ++ [⟨some i, OpenObject.labelOf scope⟩] ++ trail.map OpenObject.unshared)
              inside j =
            sharedObject objects namer
              (path ++ [⟨some i, OpenObject.labelOf scope⟩] ++ trail.map OpenObject.unshared)
              inside j := by
        intro trail inside j
        refine ih ?_ inside j
        have hindices : OpenObject.indices
            (path ++ [⟨some i, OpenObject.labelOf scope⟩] ++ trail.map OpenObject.unshared) =
              OpenObject.indices path ++ [i] := by
          rw [OpenObject.indices_append, OpenObject.indices_append,
            OpenObject.indices_map_unshared, List.append_nil]
          rfl
        have hlt : unvisited (OpenObject.indices path ++ [i]) <
            unvisited (OpenObject.indices path) :=
          unvisited_lt (fun j hj => List.mem_append_left _ hj)
            (List.mem_append_right _ List.mem_cons_self) hopen
        rw [hindices]
        omega
      simp only [hinner]

/-- An object is compiled as if no more shared objects could be entered inside one another than
there are, and the one that is refused. -/
theorem objectBy_sharedWithin (beyond : PathCompiler n) {depth : Nat} (h : n < depth)
    (path : List (OpenObject n)) (scope : List String) (schema : Schema n) :
    objectBy (sharedWithin objects namer beyond depth) namer path scope schema =
      compileObject objects namer path scope schema := by
  have hshared : sharedWithin objects namer beyond depth = sharedObject objects namer := by
    funext path scope i
    have hle := unvisited_le (OpenObject.indices path)
    exact sharedWithin_eq beyond (by omega) scope i
  rw [hshared]
  cases schema <;> rfl

/-- Where an object is compiled successfully, every walk from it comes to an end. -/
theorem acc_of_compileObject {scope : List String} {schema : Schema n} {root : Node n}
    (hroot : root? objects schema = some root) {fields : List NumberedField}
    (h : (compileObject objects namer [] scope schema).outcome = .ok fields) :
    Acc (fun next before => Refers objects before next) root := by
  have hreferences : ∀ j ∈ schema.references,
      Acc (fun next before => Refers objects before next) ⟨.shared j, objects j⟩ := by
    refine compileObject_induction
      (motive := fun _ j =>
        Acc (fun next before => Refers objects before next) ⟨.shared j, objects j⟩) ?_ h
    intro _ index _ hinner
    exact ObjectGraph.acc_of_references _ _ hinner
  cases schema with
  | object members =>
    cases hroot
    exact ObjectGraph.acc_of_references _ _ hreferences
  | shared index =>
    cases hroot
    exact hreferences index List.mem_cons_self
  | _ => cases hroot

/-- The error of a cyclic schema is raised for objects alone. -/
theorem exists_root_of_cyclic {scope : List String} {schema : Schema n} {labels : List String}
    (h : (compileObject objects namer [] scope schema).outcome = .error (.cyclic labels)) :
    ∃ root, root? objects schema = some root := by
  cases schema with
  | object members => exact ⟨_, rfl⟩
  | shared index => exact ⟨_, rfl⟩
  | _ => cases h

/-- If no reachable position offends, the error of a cyclic schema is raised exactly if a cycle of
the graph can be reached. -/
theorem cyclic_iff {scope : List String} {schema : Schema n} {root : Node n}
    (hroot : root? objects schema = some root)
    (hclear : ∀ node, Relation.ReflTransGen (Refers objects) root node →
      ∀ position ∈ Schema.fieldPositions node.fields, position.offends = false) :
    (∃ labels,
        (compileObject objects namer [] scope schema).outcome = .error (.cyclic labels)) ↔
      ∃ node, Relation.ReflTransGen (Refers objects) root node ∧
        Relation.TransGen (Refers objects) node node := by
  constructor
  · rintro ⟨labels, hlabels⟩
    obtain ⟨chain, key, node, hwalk, hmem, hnode, -⟩ := explains_of_compileObject hroot hlabels
    exact ⟨node, ObjectGraph.reflTransGen_root hwalk.descends hnode,
      ObjectGraph.transGen_of_mem_nodes hwalk.descends hmem hnode⟩
  · rintro ⟨node, hreach, hcycle⟩
    cases houtcome : (compileObject objects namer [] scope schema).outcome with
    | ok fields =>
      have hacc := acc_of_compileObject hroot houtcome
      exact absurd hcycle (Visit.not_transGen_of_acc hacc hreach)
    | error cause =>
      have hcause := explains_of_compileObject hroot houtcome
      cases cause with
      | cyclic labels => exact ⟨labels, rfl⟩
      | unsupported kind =>
        obtain ⟨other, hother, position, hposition, hoffends, -⟩ := hcause
        rw [hclear other hother position hposition] at hoffends
        cases hoffends

end Compile

namespace Session

open Compile (PathCompiler objectBy sharedWithin keys)

/-- In a session without open objects, compiling an object of a finite graph comes to an end: it
never enters more shared objects inside one another than there are. If no position of an object
that is reached offends, the error of a cyclic schema is raised exactly if an object is reached
that is reached from itself. Wherever the error is raised, its labels but the last name different
objects on a walk from the root, each by the scope and the keys that lead to it, and the last names
one of these objects, which is reached from itself. -/
theorem compileObject_cyclic (session : Session n) (hpath : session.path = [])
    (objects : Objects n) (namer : Namer) (scope : List String) (schema : Schema n) :
    (∀ (beyond : PathCompiler n) (depth : Nat), n < depth →
        session.compileObject objects namer scope schema =
          session.absorb
            (objectBy (sharedWithin objects namer beyond depth) namer [] scope schema)) ∧
      (∀ root, root? objects schema = some root →
        (∀ node, Relation.ReflTransGen (Refers objects) root node →
          ∀ position ∈ Schema.fieldPositions node.fields, position.offends = false) →
        ((∃ labels, (session.compileObject objects namer scope schema).outcome =
            .error (.cyclic labels)) ↔
          ∃ node, Relation.ReflTransGen (Refers objects) root node ∧
            Relation.TransGen (Refers objects) node node)) ∧
      ∀ labels, (session.compileObject objects namer scope schema).outcome =
          .error (.cyclic labels) →
        ∃ root chain key node, root? objects schema = some root ∧
          Descends objects root (chain ++ [(key, node)]) ∧
          ((nodes root chain).map (·.id)).Nodup ∧ node ∈ nodes root chain ∧
          Relation.TransGen (Refers objects) node node ∧
          labels = (List.range (chain.length + 2)).map fun depth =>
            OpenObject.labelOf (scope ++ (keys (chain ++ [(key, node)])).take depth) := by
  have hcompile : session.compileObject objects namer scope schema =
      session.absorb (ProtoSchema.compileObject objects namer [] scope schema) := by
    rw [compileObject, hpath]
  have houtcome : (session.compileObject objects namer scope schema).outcome =
      (ProtoSchema.compileObject objects namer [] scope schema).outcome := by
    rw [hcompile]
    rfl
  rw [houtcome]
  refine ⟨?_, ?_, ?_⟩
  · intro beyond depth hdepth
    rw [Compile.objectBy_sharedWithin beyond hdepth, hcompile]
  · intro root hroot hclear
    exact Compile.cyclic_iff hroot hclear
  · intro labels hlabels
    obtain ⟨root, hroot⟩ := Compile.exists_root_of_cyclic hlabels
    obtain ⟨chain, key, node, hwalk, hmem, hnode, rfl⟩ :=
      Compile.explains_of_compileObject hroot hlabels
    refine ⟨root, chain, key, node, hroot,
      ObjectGraph.descends_append_singleton.2 ⟨hwalk.descends, hmem⟩, hwalk.nodup, hnode,
      ObjectGraph.transGen_of_mem_nodes hwalk.descends hmem hnode, ?_⟩
    rw [Compile.labels_openObjects, List.length_append]
    rfl

/-- Two objects, of which the first holds a sequence of the second and the second may hold the
first. -/
def mutualObjects : Objects 2
  | 0 => [("id", .number true), ("items", .array (.shared 1))]
  | 1 => [("owner", .optional (.shared 0))]

/-- Nothing is reached from the first of the two objects but the two. -/
theorem eq_of_reach_mutualObjects {node : Node 2}
    (h : Relation.ReflTransGen (Refers mutualObjects) ⟨.shared 0, mutualObjects 0⟩ node) :
    node = ⟨.shared 0, mutualObjects 0⟩ ∨ node = ⟨.shared 1, mutualObjects 1⟩ := by
  induction h with
  | refl => exact .inl rfl
  | tail _ hstep ih =>
    obtain ⟨key, hmem⟩ := hstep
    rcases ih with rfl | rfl
    · exact .inr (Prod.mk.inj (List.mem_singleton.1 hmem)).2
    · exact .inl (Prod.mk.inj (List.mem_singleton.1 hmem)).2

/-- The first of the two objects is refused as cyclic, and an object that is reached from it is
reached from itself. -/
theorem compileObject_cyclic_mutualObjects :
    ((Session.mk .empty [] : Session 2).compileObject mutualObjects {} [] (.shared 0)).outcome =
        .error (.cyclic ["<root>", "item", "item.owner"]) ∧
      ∃ node, Relation.ReflTransGen (Refers mutualObjects) ⟨.shared 0, mutualObjects 0⟩ node ∧
        Relation.TransGen (Refers mutualObjects) node node := by
  obtain ⟨hdepth, hcycle, -⟩ :=
    compileObject_cyclic (Session.mk .empty []) rfl mutualObjects {} [] (.shared 0)
  have houtcome : ((Session.mk .empty [] : Session 2).compileObject mutualObjects {} []
      (.shared 0)).outcome = .error (.cyclic ["<root>", "item", "item.owner"]) := by
    rw [hdepth (fun _ _ _ => Compilation.fail (.cyclic [])) 3 (by decide)]
    rfl
  have hclear : ∀ node,
      Relation.ReflTransGen (Refers mutualObjects) ⟨.shared 0, mutualObjects 0⟩ node →
        ∀ position ∈ Schema.fieldPositions node.fields, position.offends = false := by
    intro node hreach
    rw [← Schema.firstOffence_eq_none_iff]
    rcases eq_of_reach_mutualObjects hreach with rfl | rfl <;> rfl
  exact ⟨houtcome, (hcycle _ rfl hclear).1 ⟨_, houtcome⟩⟩

end Session

end ProtoSchema
