import Disclosure.Yaml.Node

/-!
# Disclosure.Yaml.Merge — fields that objects take from other objects

A field with the mark `<<` holds an object, or a list of objects, whose fields are merged into the object around it.
They stand before its own fields; of several objects in a list the first one stands last.  An object takes what it
gets from others before it gives its fields away.

* `mergeInto` replaces the marks of an object, and of the objects that it takes fields from.
* `fields_setFields`: an object has the fields that were set.
-/

namespace Disclosure.Yaml

/-- A field of an object: the nodes of its name and its value. -/
abbrev NodeField := NodeId × NodeId

/-- The node with a number. -/
def nodeAt (nodes : Array Node) (id : NodeId) : Node := nodes[id]?.getD default

/-- The fields of an object; other nodes have none. -/
def Content.fields : Content → List NodeField
  | .object fields => fields
  | _ => []

/-- Gives fields to an object. -/
def setFields (nodes : Array Node) (id : NodeId) (fields : List NodeField) : Array Node :=
  nodes.modify id (fun node => { node with content := .object fields })

theorem fields_setFields {nodes : Array Node} {id : NodeId} (h : id < nodes.size) (fields : List NodeField) :
    (nodeAt (setFields nodes id fields) id).content.fields = fields := by
  simp [nodeAt, setFields, h, Array.getElem_modify, Content.fields]

/-- Changes nodes. -/
abbrev Merger := StateT (Array Node) (Except Cause)

/-- The fields of an object, as they are now. -/
def fieldsOf (id : NodeId) : Merger (List NodeField) := return (nodeAt (← get) id).content.fields

/-- The first field with the mark of merged objects: what it holds, and the other fields. -/
def takeMark (nodes : Array Node) : List NodeField → Option (NodeId × List NodeField)
  | [] => none
  | field :: rest =>
    if (nodeAt nodes field.1).tag = .merge then some (field.2, rest)
    else (takeMark nodes rest).map (fun (source, others) => (source, field :: others))

/-- A name that is the mark `=` counts as a text from now on. -/
def nameMark (field : NodeField) : Merger Unit :=
  modify (fun nodes =>
    if (nodeAt nodes field.1).tag = .self then nodes.modify field.1 (fun node => { node with tag := .text }) else nodes)

mutual

/-- Puts the fields that an object takes from others before its own. -/
def mergeInto : Nat → NodeId → Merger Unit
  | 0, _ => throw (.flaw .tooDeep)
  | fuel + 1, id => do
    let taken ← gather fuel id
    let own ← fieldsOf id
    own.forM nameMark
    unless taken.isEmpty do modify (fun nodes => setFields nodes id (taken ++ own))

/-- Takes the marks out of an object, one after another, and gathers the fields that they ask for. -/
def gather : Nat → NodeId → Merger (List NodeField)
  | 0, _ => throw (.flaw .tooDeep)
  | fuel + 1, id => do
    match takeMark (← get) (← fieldsOf id) with
    | none => return []
    | some (source, others) =>
      modify (fun nodes => setFields nodes id others)
      let given ← givenBy fuel source
      return given ++ (← gather fuel id)

/-- The fields that an object, or a list of objects, gives away. -/
def givenBy : Nat → NodeId → Merger (List NodeField)
  | 0, _ => throw (.flaw .tooDeep)
  | fuel + 1, source => do
    match (nodeAt (← get) source).content with
    | .text _ => throw .notMergeable
    | .object _ =>
      mergeInto fuel source
      fieldsOf source
    | .list items =>
      let given ← items.mapM (fun item => do
        match (nodeAt (← get) item).content with
        | .object _ =>
          mergeInto fuel item
          fieldsOf item
        | _ => throw .notMergeable)
      return given.reverse.flatten

end

/-- The number of steps that suffice for all marks: each mark is taken out once. -/
def mergeSteps (nodes : Array Node) : Nat :=
  3 * nodes.foldl (fun n node => n + node.content.fields.length) 5

end Disclosure.Yaml
