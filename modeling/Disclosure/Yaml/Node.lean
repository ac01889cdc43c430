import Disclosure.Yaml.Layout
import Disclosure.Yaml.Tag

/-!
# Disclosure.Yaml.Node — the nodes of a document

The lexemes of a document spell nodes: texts, lists, and objects whose field names are nodes, too.  Nodes can be named
by an anchor and taken again by an alias, also inside themselves; so nodes refer to one another by number.
`Document.ofLexemes` reads the nodes; a file holds one document at most, and a file without one holds an empty text.

The lexemes are taken only as far as they are needed: a fault in the file counts only when no lexeme before it is out
of place.
-/

namespace Disclosure.Yaml

/-- The number of a node. -/
abbrev NodeId := Nat

/-- What a node holds. -/
inductive Content where
  | text (t : Text)
  | list (items : List NodeId)
  | object (fields : List (NodeId × NodeId))
deriving Repr, DecidableEq

/-- A node: what kind of data it stands for, and what it holds. -/
structure Node where
  tag : Tag
  content : Content
deriving Repr, DecidableEq

instance : Inhabited Node := ⟨⟨.null, .text []⟩⟩

/-- The nodes of a document by their numbers, and the outermost of them. -/
structure Document where
  nodes : Array Node
  root : NodeId

/-- Why a document cannot be read. -/
inductive Stop where
  /-- The lexemes end before the document does. -/
  | exhausted
  | fault (f : Fault)

namespace Document

/-- The lexemes to come, the nodes so far, the names with their nodes, the meanings of the handles, and the number of
collections around the next node. -/
structure State where
  lexemes : List Lexeme
  nodes : Array Node := #[]
  named : List (String × NodeId) := []
  handles : List (String × String) := []
  depth : Nat := 0

/-- A reader of a part of a document. -/
abbrev Reader := StateT State (Except Stop)

/-- What starts with the next lexeme cannot stand here. -/
def refuse {α : Type} (cause : Cause) : Reader α := do
  match (← get).lexemes with
  | [] => throw .exhausted
  | x :: _ => throw (.fault { line := some x.line, cause })

/-- The next token. -/
def peek : Reader Token := do
  match (← get).lexemes with
  | [] => throw .exhausted
  | x :: _ => return x.token

/-- Takes the next lexeme. -/
def advance : Reader Unit := modify (fun s => { s with lexemes := s.lexemes.drop 1 })

/-- The next token is out of place. -/
def misplaced {α : Type} : Reader α := do
  let token ← peek
  refuse (.misplaced token.describe)

/-- Takes the next lexeme if it has the given token. -/
def takes (token : Token) : Reader Bool := do
  if (← peek) = token then
    advance
    return true
  else return false

/-- Takes the next lexeme, which must have the given token. -/
def expect (token : Token) : Reader Unit := do
  unless ← takes token do misplaced

/-- The meaning of a tag; none for the tag without meaning. -/
def meaningOf (handle : Option String) (suffix : String) : Reader String :=
  match handle with
  | none => return suffix
  | some handle => do
    match (← get).handles.lookup handle with
    | some meaning => return meaning ++ suffix
    | none => refuse (.unknownTag (handle ++ suffix))

/-- An anchor, if one comes next. -/
def takeAnchor : Reader (Option String) := do
  match ← peek with
  | .anchor name => advance; return some name
  | _ => return none

/-- A tag, if one comes next. -/
def takeTag : Reader (Option String) := do
  match ← peek with
  | .tag handle suffix => advance; return some (← meaningOf handle suffix)
  | _ => return none

/-- An anchor and a tag, in either order. -/
def takeProperties : Reader (Option String × Option String) := do
  match ← takeAnchor with
  | some name => return (some name, ← takeTag)
  | none =>
    match ← takeTag with
    | some tag => return (← takeAnchor, some tag)
    | none => return (none, none)

/-- The name of the next node must not be taken. -/
def claim : Option String → Reader Unit
  | none => return
  | some name => do
    if ((← get).named.lookup name).isSome then refuse (.badName name)

/-- A new node, with its name if it has one. -/
def add (name : Option String) (node : Node) : Reader NodeId := do
  let id := (← get).nodes.size
  modify (fun s => { s with
    nodes := s.nodes.push node
    named := (name.map (·, id)).toList ++ s.named })
  return id

/-- A tag without the one that says nothing. -/
def meant (tag : Option String) : Option Tag := (tag.filter (· ≠ "!")).map Tag.ofName

/-- A new text.  A text that is plain, or tagged with the tag that says nothing, stands for what its form shows. -/
def addText (name tag : Option String) (plain : Bool) (t : Text) : Reader NodeId :=
  let shown := if (plain && tag.isNone) || tag = some "!" then Tag.ofText t else .text
  add name ⟨(meant tag).getD shown, .text t⟩

/-- What is left out: a plain text without characters. -/
def addAbsent : Reader NodeId := addText none none true []

/-- The greatest number of collections around a node. -/
def deepest : Nat := 488

/-- A new collection; it has its number and its name before its parts are read. -/
def addCollection {α : Type} (name tag : Option String) (kind : Tag) (content : List α → Content)
    (parts : Reader (List α)) : Reader NodeId := do
  let id ← add name ⟨(meant tag).getD kind, content []⟩
  if (← get).depth = deepest then refuse (.flaw .tooDeep)
  modify (fun s => { s with depth := s.depth + 1 })
  let found ← parts
  modify (fun s => { s with
    depth := s.depth - 1
    nodes := s.nodes.modify id (fun node => { node with content := content found }) })
  return id

/-- Tokens that end a part that is left out. -/
def ends (tokens : List Token) : Reader Bool := return tokens.contains (← peek)

mutual

/-- A node.  Lists and objects that indentation shows are allowed in a block only; `marks` allows the marks of a list
that is not indented. -/
def read (block marks : Bool) : Nat → Reader NodeId
  | 0 => misplaced
  | fuel + 1 => do
    match ← peek with
    | .alias name =>
      match (← get).named.lookup name with
      | some id => advance; return id
      | none => refuse (.badName name)
    | _ => do
      let (name, tag) ← takeProperties
      let next ← peek
      claim name
      let leftOut : Reader NodeId := if name.isSome || tag.isSome then addText name tag true [] else misplaced
      match next with
      | .dash => if marks then addCollection name tag .list .list (marksFrom fuel) else leftOut
      | .text t plain => do
        advance
        addText name tag plain t
      | .openList => do
        advance
        addCollection name tag .list .list (flowItems true fuel)
      | .openObject => do
        advance
        addCollection name tag .object .object (flowFields true fuel)
      | .blockListStart =>
        if block then do
          advance
          addCollection name tag .list .list (blockItems fuel)
        else leftOut
      | .blockObjectStart =>
        if block then do
          advance
          addCollection name tag .object .object (blockFields fuel)
        else leftOut
      | _ => leftOut

/-- A node of a block, or the absent node before one of the given tokens. -/
def readUnless (tokens : List Token) (block marks : Bool) : Nat → Reader NodeId
  | 0 => misplaced
  | fuel + 1 => do
    if ← ends tokens then addAbsent
    else read block marks fuel

/-- The items of a list that indentation shows, up to the end of the block. -/
def blockItems : Nat → Reader (List NodeId)
  | 0 => misplaced
  | fuel + 1 => do
    if ← takes .dash then
      let item ← readUnless [.dash, .blockEnd] true false fuel
      return item :: (← blockItems fuel)
    else
      expect .blockEnd
      return []

/-- The items of a list that is not indented; it ends where no list mark comes next. -/
def marksFrom : Nat → Reader (List NodeId)
  | 0 => misplaced
  | fuel + 1 => do
    if ← takes .dash then
      let item ← readUnless [.dash, .key, .colon, .blockEnd] true false fuel
      return item :: (← marksFrom fuel)
    else return []

/-- The fields of an object that indentation shows, up to the end of the block. -/
def blockFields : Nat → Reader (List (NodeId × NodeId))
  | 0 => misplaced
  | fuel + 1 => do
    if ← takes .key then
      let name ← readUnless [.key, .colon, .blockEnd] true true fuel
      let value ← if ← takes .colon then readUnless [.key, .colon, .blockEnd] true true fuel else addAbsent
      return (name, value) :: (← blockFields fuel)
    else
      expect .blockEnd
      return []

/-- The items of a list in brackets, up to the closing one. -/
def flowItems (first : Bool) : Nat → Reader (List NodeId)
  | 0 => misplaced
  | fuel + 1 => do
    if ← takes .closeList then return []
    else
      unless first do expect .comma
      if ← takes .key then
        let item ← addCollection none none .object .object (onlyField fuel)
        return item :: (← flowItems false fuel)
      else if ← takes .closeList then return []
      else
        let item ← read false false fuel
        return item :: (← flowItems false fuel)

/-- The field of an object that is written without braces, as an item of a list. -/
def onlyField : Nat → Reader (List (NodeId × NodeId))
  | 0 => misplaced
  | fuel + 1 => do
    let name ← readUnless [.colon, .comma, .closeList] false false fuel
    let value ← if ← takes .colon then readUnless [.comma, .closeList] false false fuel else addAbsent
    return [(name, value)]

/-- The fields of an object in braces, up to the closing one. -/
def flowFields (first : Bool) : Nat → Reader (List (NodeId × NodeId))
  | 0 => misplaced
  | fuel + 1 => do
    if ← takes .closeObject then return []
    else
      unless first do expect .comma
      if ← takes .key then
        let name ← readUnless [.colon, .comma, .closeObject] false false fuel
        let value ← if ← takes .colon then readUnless [.comma, .closeObject] false false fuel else addAbsent
        return (name, value) :: (← flowFields false fuel)
      else if ← takes .closeObject then return []
      else
        let name ← read false false fuel
        let value ← addAbsent
        return (name, value) :: (← flowFields false fuel)

end

/-! ### Documents -/

/-- The directives before a document: one version of the first kind at most, and no handle twice. -/
def directives (seen : Bool) : Nat → Reader Unit
  | 0 => misplaced
  | fuel + 1 => do
    match ← peek with
    | .version major =>
      if seen || major != 1 then misplaced
      else
        advance
        directives true fuel
    | .tagPrefix handle meaning =>
      if ((← get).handles.lookup handle).isSome then misplaced
      else
        modify (fun s => { s with handles := (handle, meaning) :: s.handles })
        advance
        directives seen fuel
    | .otherDirective =>
      advance
      directives seen fuel
    | _ => return

/-- The handles that have a meaning in every document. -/
def commonHandles : List (String × String) := [("!", "!"), ("!!", "tag:yaml.org,2002:")]

/-- Marks of the end of a document. -/
def documentEnds : Nat → Reader Unit
  | 0 => return
  | fuel + 1 => do
    if ← takes .documentEnd then documentEnds fuel
    else return

/-- The document behind its directives and its start. -/
def explicitDocument (fuel : Nat) : Reader NodeId := do
  directives false fuel
  modify (fun s => { s with handles := s.handles ++ commonHandles })
  expect .documentStart
  match ← peek with
  | .version _ | .tagPrefix .. | .otherDirective | .documentStart | .documentEnd | .fileEnd => addAbsent
  | _ => read true false fuel

/-- The only document of a file: its outermost node. -/
def only (fuel : Nat) : Reader NodeId := do
  let root ← match ← peek with
    | .version _ | .tagPrefix .. | .otherDirective | .documentStart => explicitDocument fuel
    | .fileEnd => addAbsent
    | _ => do
      modify (fun s => { s with handles := commonHandles })
      read true false fuel
  documentEnds fuel
  unless ← takes .fileEnd do
    modify (fun s => { s with handles := [] })
    directives false fuel
    misplaced
  return root

/-- The document that lexemes spell.  A fault that ends the lexemes counts when they do not suffice. -/
def ofLexemes (x : Lexemes) : Except Stop Document :=
  match (only (3 * x.items.length + 8)).run { lexemes := x.items } with
  | .ok (root, s) => .ok ⟨s.nodes, root⟩
  | .error (.fault f) => .error (.fault f)
  | .error .exhausted =>
    match x.fault with
    | some f => .error (.fault f)
    | none => .error .exhausted

end Document

end Disclosure.Yaml
