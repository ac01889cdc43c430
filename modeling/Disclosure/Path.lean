import Disclosure.Text.Pieces

/-!
# Disclosure.Path — names of files

A path is a list of names, from a root or from the working directory on.  Single points and repeated slashes make no
difference to what is shown: `./wallet.yml` and `wallet.yml` are the same path.  They do make one when a file is looked
for, as nothing but a directory has a place inside: `wallet.yml/.` is no file.  So a word is also read step by step,
by `Path.exact`.

* `simplified_exact`: without its single points the exact path of a word is its path.
-/

namespace Disclosure

/-- The name of a file.  The root is empty for a path that starts in the working directory; two slashes at the start
are another root than one, and more count as one. -/
structure Path where
  root : String
  parts : List String
deriving Repr, DecidableEq, Inhabited

namespace Path

/-- The slashes that a text starts with. -/
def rootOf (s : String) : String :=
  match (s.toList.takeWhile (· == '/')).length with
  | 0 => ""
  | 2 => "//"
  | _ => "/"

/-- The names between the slashes of a text. -/
def names (s : String) : List String := (Text.pieces '/' s.toList).map String.ofList

/-- Every step that a text names; a slash at the end is a step inside. -/
def exact (s : String) : Path :=
  { root := rootOf s
    parts := (names s).filter (fun name => name != "")
      ++ (if s.toList.getLast? = some '/' then ["."] else []) }

/-- The path without single points. -/
def simplified (p : Path) : Path := { p with parts := p.parts.filter (fun name => name != ".") }

/-- The path that a text names. -/
def ofText (s : String) : Path :=
  { root := rootOf s, parts := (names s).filter (fun name => name != "" && name != ".") }

theorem simplified_exact (s : String) : (exact s).simplified = ofText s := by
  unfold simplified exact ofText
  simp only [List.filter_append, List.filter_filter]
  congr 1
  split
  · simp [Bool.and_comm]
  · simp [Bool.and_comm]

/-- The names with slashes between them; a single point for the working directory. -/
def text (p : Path) : String :=
  if p.root == "" && p.parts.isEmpty then "." else p.root ++ "/".intercalate p.parts

/-- Whether a name holds the character that ends names elsewhere; no file has such a name. -/
def hasNul (p : Path) : Bool := p.parts.any (fun name => name.toList.contains '\x00')

/-- A path below another one. -/
def join (p q : Path) : Path := if q.root == "" then { p with parts := p.parts ++ q.parts } else q

end Path

end Disclosure
