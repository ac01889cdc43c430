import Disclosure.Yaml.Meaning
import Disclosure.Yaml.Merge

/-!
# Disclosure.Yaml.Assembly — the data that nodes stand for

Every node is made into a datum once, however often it is referred to.  A scalar is made at once; a collection is made
empty and filled later, in the order in which collections were made.  So a collection can hold itself, and of two things
that are wrong the one that is less deep is found first.

* `assemble` gives the data of a document, by the numbers of their nodes.
-/

namespace Disclosure.Yaml

/-- A datum; the parts of a collection are referred to by their numbers. -/
inductive Datum where
  | scalar (s : Scalar)
  | list (items : List NodeId)
  | pairs (items : List (NodeId × NodeId))
  | object (fields : List (Scalar × NodeId))
  | set (members : List Scalar)

/-- The nodes, the number of steps that suffice to merge what they ask for, the data made so far, and the collections
that are still to be filled, last one first. -/
structure Assembly where
  nodes : Array Node
  steps : Nat := mergeSteps nodes
  data : Array (Option Datum) := Array.replicate nodes.size none
  waiting : List NodeId := []

/-- Makes data. -/
abbrev Assembler := StateT Assembly (Except Cause)

/-- The text of a node: its own, or that under the mark `=` of an object.  The number of nodes bounds the number of
objects that are gone through. -/
def textGiven (nodes : Array Node) : Nat → NodeId → Except Cause Text
  | 0, _ => .error (.flaw .endless)
  | fuel + 1, id =>
    match (nodeAt nodes id).content with
    | .text t => .ok t
    | .list _ => .error .wrongKind
    | .object fields =>
      match fields.find? (fun field => (nodeAt nodes field.1).tag = .self) with
      | some field => textGiven nodes fuel field.2
      | none => .error .wrongKind

/-- The scalar that a node stands for.  No object is a date. -/
def scalarAt (nodes : Array Node) (id : NodeId) : Except Cause Scalar := do
  let node := nodeAt nodes id
  let t ← textGiven nodes (nodes.size + 1) id
  match node.tag, node.content with
  | .timestamp, .object _ => throw (.flaw .objectAsTimestamp)
  | tag, _ =>
    match datum? tag id t with
    | some datum => datum
    | none => throw .wrongKind

/-- The empty collection that a tag asks for. -/
def emptyOf : Tag → Option Datum
  | .list => some (.list [])
  | .object => some (.object [])
  | .set => some (.set [])
  | .pairs => some (.pairs [])
  | _ => none

/-- What to call a tag that gives no datum. -/
def Tag.name : Tag → String
  | .merge => commonPrefix ++ "merge"
  | .self => commonPrefix ++ "value"
  | .other name => name
  | _ => ""

/-- Sets the datum of a node. -/
def settle (id : NodeId) (datum : Datum) : Assembler Unit :=
  modify (fun s => { s with data := s.data.setIfInBounds id (some datum) })

/-- Makes the datum of a node, unless it has been made. -/
def make (id : NodeId) : Assembler Datum := do
  match (← get).data[id]?.join with
  | some datum => return datum
  | none =>
    let tag := (nodeAt (← get).nodes id).tag
    let datum ← match emptyOf tag with
      | some empty => do
        modify (fun s => { s with waiting := id :: s.waiting })
        pure empty
      | none =>
        if tag.isScalar then pure (Datum.scalar (← scalarAt (← get).nodes id)) else throw (.unknownTag tag.name)
    settle id datum
    return datum

/-- The name of a field: a scalar. -/
def makeName (id : NodeId) : Assembler Scalar := do
  match ← make id with
  | .scalar s => return s
  | _ => throw .collectionAsName

/-- The fields of an object; of fields with equal names the last value counts, in the place of the first. -/
def makeFields (id : NodeId) : Assembler (List (Scalar × NodeId)) := do
  match (nodeAt (← get).nodes id).content with
  | .object _ =>
    match (mergeInto (← get).steps id).run (← get).nodes with
    | .error cause => throw cause
    | .ok (_, nodes) =>
      modify (fun s => { s with nodes })
      (nodeAt nodes id).content.fields.foldlM
        (fun found field => do
          let name ← makeName field.1
          let _ ← make field.2
          return Scalar.put found name field.2) []
  | _ => throw .wrongKind

/-- The parts of a pair, which is written as an object with one field. -/
def makePair (id : NodeId) : Assembler (NodeId × NodeId) := do
  match (nodeAt (← get).nodes id).content with
  | .object [field] =>
    let _ ← make field.1
    let _ ← make field.2
    return field
  | _ => throw .wrongKind

/-- Fills a collection. -/
def fill (id : NodeId) : Assembler Unit := do
  let node := nodeAt (← get).nodes id
  match node.tag, node.content with
  | .list, .list items =>
    items.forM (fun item => do let _ ← make item)
    settle id (.list items)
  | .pairs, .list items => do settle id (.pairs (← items.mapM makePair))
  | .object, _ => do settle id (.object (← makeFields id))
  | .set, _ => do settle id (.set ((← makeFields id).map Prod.fst))
  | _, _ => throw .wrongKind

/-- Fills the collections that wait, then those that were made by that, and so on.  Every round but the last fills a
collection, and none is filled twice. -/
def fillAll : Nat → Assembler Unit
  | 0 => return
  | rounds + 1 => do
    let waiting := (← get).waiting.reverse
    unless waiting.isEmpty do
      modify (fun s => { s with waiting := [] })
      waiting.forM fill
      fillAll rounds

/-- The data of a document by the numbers of their nodes. -/
def assemble (d : Document) : Except Cause (Array (Option Datum)) := do
  let build : Assembler Unit := do
    let _ ← make d.root
    fillAll (d.nodes.size + 1)
  let (_, s) ← build.run { nodes := d.nodes }
  return s.data

end Disclosure.Yaml
