import GraphStore.Text.Alphanumeric

/-!
References to keys in a query of the backend's own language. A reference is a mark, such as `v.`, and a
name behind it: quoted, a star, or a run of letters, digits and underscores. The mark counts only where a
word can start. `pieces` cuts a query into references and the text between them.
-/
namespace GraphStore.Reference

inductive Piece where
  | text (cs : List Char)
  | name (cs : List Char)
  /-- All fields. -/
  | wildcard
  /-- A quote that is never closed; nothing follows it. -/
  | unterminated
  deriving DecidableEq, Repr

/-- What stands behind a mark. -/
inductive Target where
  | none
  | unterminated
  /-- A piece made of so many characters. -/
  | found (piece : Piece) (length : Nat)
  deriving DecidableEq, Repr

def isNameChar (c : Char) : Bool := isAlphanumeric c || c = '_'

/-- The target of a name: an empty one is none, and a star stands for all fields however it is
written. -/
def Target.ofName (cs : List Char) (length : Nat) : Target :=
  if cs = [] then .none else if cs = ['*'] then .found .wildcard length else .found (.name cs) length

def target : List Char → Target
  | '"' :: rest =>
    let quoted := rest.takeWhile (· ≠ '"')
    if quoted.length = rest.length then .unterminated else .ofName quoted (quoted.length + 2)
  | '*' :: _ => .found .wildcard 1
  | cs => .ofName (cs.takeWhile isNameChar) (cs.takeWhile isNameChar).length

/-- Whether a word can start after a character. -/
def isBoundary (before : Option Char) : Bool := !before.any isAlphanumeric

/-- The pieces of a query whose marks are `first :: others`; `before` is the character in front. -/
def pieces (first : Char) (others : List Char) (before : Option Char) : List Char → List Piece
  | [] => []
  | c :: rest =>
    if c = first && others.isPrefixOf rest then
      let after := rest.drop others.length
      let mark := first :: others
      if isBoundary before then
        match target after with
        | .none => .text mark :: pieces first others mark.getLast? after
        | .unterminated => [.unterminated]
        | .found piece length =>
          piece :: pieces first others (after.take length).getLast? (after.drop length)
      else .text mark :: pieces first others mark.getLast? after
    else .text [c] :: pieces first others (some c) rest
  termination_by cs => cs.length
  decreasing_by all_goals simp only [List.length_cons, List.length_drop]; omega

end GraphStore.Reference
