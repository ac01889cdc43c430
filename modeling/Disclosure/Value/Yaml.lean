import Disclosure.Value
import Disclosure.Yaml.Assembly

/-!
# Disclosure.Value.Yaml — values from the text of a file

A file is JSON or YAML text.  Its text spells nodes, the nodes stand for data that refer to one another, and the data
are put together to a value.  A list or an object that is reached from itself becomes a knot, and so does every other
one on the way.

* `Value.ofYaml` reads a whole file.
-/

namespace Disclosure

namespace Yaml

/-! ### Data put together -/

/-- The values of the nodes that are complete: no mark in them stands for something outside. -/
abbrev Finished := Array (Option Value)

/-- The labels of several values, each once. -/
def labelsOf (found : List (Value × List NodeId)) : List NodeId :=
  found.foldl (fun labels e => labels ++ e.2.filter (fun id => !labels.contains id)) []

/-- The value of a node, and the labels in it that stand for something outside.  `around` are the nodes that are being
put together; as none of them is among the others, there are at most as many as nodes. -/
def tie (data : Array (Option Datum)) : Nat → List NodeId → NodeId → StateM Finished (Value × List NodeId)
  | 0, _, _ => return (.null, [])
  | fuel + 1, around, id => do
    match (← get)[id]?.join with
    | some v => return (v, [])
    | none =>
      if around.contains id then return (.again id, [id])
      else
        let inside := tie data fuel (id :: around)
        let (v, labels) ← match data[id]?.join with
          | none => pure (Value.null, [])
          | some (.scalar s) => pure (Value.scalar s, [])
          | some (.set members) => pure (Value.set members, [])
          | some (.list items) => do
            let found ← items.mapM inside
            pure (Value.list (found.map Prod.fst), labelsOf found)
          | some (.object fields) => do
            let found ← (fields.map Prod.snd).mapM inside
            pure (Value.object ((fields.map Prod.fst).zip (found.map Prod.fst)), labelsOf found)
          | some (.pairs items) => do
            let firsts ← (items.map Prod.fst).mapM inside
            let seconds ← (items.map Prod.snd).mapM inside
            let pairs := (firsts.zip seconds).map (fun (a, b) => Value.pair a.1 b.1)
            pure (Value.list pairs, labelsOf (firsts ++ seconds))
        let whole := if labels.isEmpty then v else Value.knot id v
        let outside := labels.filter (fun label => label != id)
        if outside.isEmpty then modify (fun finished => finished.setIfInBounds id (some whole))
        return (whole, outside)

/-- The value of a node. -/
def valueOf (data : Array (Option Datum)) (root : NodeId) : Value :=
  ((tie data (data.size + 1) [] root).run (Array.replicate data.size none)).1.1

/-! ### Files -/

/-- Characters that a file may hold. -/
def isAllowed (c : Char) : Bool :=
  let n := c.toNat
  n == 0x09 || n == 0x0a || n == 0x0d || (0x20 ≤ n && n ≤ 0x7e) || n == 0x85 || (0xa0 ≤ n && n ≤ 0xfffd)
    || 0x10000 ≤ n

/-- The fault of a text of which only the start is known, if the start shows one. -/
def startFault? (start : List Char) : Option Fault :=
  match Document.ofLexemes (Lexemes.ofStart start) with
  | .error (.fault f) => some f
  | _ => none

/-- The number of characters that are looked at together with the character number `index`, and before it.  The first
block is twice as long as the others. -/
def blockStart (index : Nat) : Nat := if index < 8192 then 0 else 4096 * (index / 4096)

/-- The fault that is found before anything is made of a text that holds a character which is not allowed.  Such a
character shows when its block is looked at. -/
def forbidden? (chars : List Char) : Option Fault :=
  match chars.findIdx? (fun c => !isAllowed c) with
  | none => none
  | some index =>
    match startFault? (chars.take (blockStart index)) with
    | some f => some f
    | none => some { line := none, cause := .notPrintable (chars.getD index ' ') }

/-- The document that a text spells. -/
def documentOf (chars : List Char) : Except Fault Document :=
  match forbidden? chars with
  | some f => .error f
  | none =>
    match Document.ofLexemes (Lexemes.ofText chars) with
    | .ok d => .ok d
    | .error (.fault f) => .error f
    | .error .exhausted => .error { line := none, cause := .misplaced "the end of the file" }

end Yaml

/-- The value that a text holds. -/
def Value.ofYaml (chars : List Char) : Except Yaml.Fault Value := do
  let document ← Yaml.documentOf chars
  let data ← (Yaml.assemble document).mapError (fun cause => { line := none, cause })
  return Yaml.valueOf data document.root

end Disclosure
