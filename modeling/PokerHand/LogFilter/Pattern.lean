import PokerHand.LogFilter.Pattern.Group
import PokerHand.LogFilter.Pattern.Mode
import PokerHand.LogFilter.Pattern.Set

/-!
# Reading patterns

`Pattern.ofText?` reads a pattern to the end of a text. `isPattern` holds of a text whose pattern
can be used: its parts do not lie too deep in each other, and its flags allow all of them.
-/
namespace PokerHand.LogFilter

namespace Pattern

/-- What is read of a group. -/
structure Layer where
  /-- The branches before the last one, newest first. -/
  branches : List Pattern
  /-- The parts of the last branch, newest first. -/
  parts : List Pattern
  /-- Whether gaps may stand between the parts that follow. -/
  skips : Bool

namespace Layer

def add (l : Layer) (p : Pattern) : Layer := { l with parts := p :: l.parts }

/-- A new branch begins. -/
def branch (l : Layer) : Layer :=
  { l with branches := ofParts l.parts :: l.branches, parts := [] }

/-- The pattern that the group holds. -/
def pattern (l : Layer) : Pattern :=
  match l.branches with
  | [] => ofParts l.parts
  | branches => choice (ofParts l.parts :: branches).reverse

/-- Repeats the last part; flags cannot be repeated. -/
def repeatLast (l : Layer) : Option Layer :=
  match l.parts with
  | [] | switch _ :: _ => none
  | p :: parts => some { l with parts := repeated p :: parts }

end Layer

/-- How far a pattern is read. -/
structure Draft where
  inner : Layer
  /-- The groups around the innermost one, with the flags that the group inside them has. -/
  outer : List (Switches × Layer)
  /-- The names of groups so far. -/
  names : List (List Char)

namespace Draft

def initial : Draft := ⟨⟨[], [], false⟩, [], []⟩

def add (d : Draft) (p : Pattern) : Draft := { d with inner := d.inner.add p }

/-- A group opens. -/
def enter (d : Draft) (s : Switches) : Draft :=
  { d with
    inner := ⟨[], [], s.apply .blanks d.inner.skips⟩
    outer := (s, d.inner) :: d.outer }

/-- The innermost group closes. -/
def leave (d : Draft) : Option Draft :=
  match d.outer with
  | [] => none
  | (s, l) :: outer => some { d with inner := l.add (group s d.inner.pattern), outer := outer }

/-- Flags are switched for the rest of the innermost group. -/
def switched (d : Draft) (s : Switches) : Draft :=
  { d with inner := { d.inner.add (switch s) with skips := s.apply .blanks d.inner.skips } }

/-- What is read when the text ends, if no group is open. -/
def finish (d : Draft) : Option Pattern :=
  if d.outer.isEmpty then some d.inner.pattern else none

end Draft

/-- Reads one part of a pattern. -/
def part (d : Draft) (cs : List Char) : Option (Draft × List Char) := do
  match cs with
  | [] => none
  | '(' :: rest =>
      match ← opening d.inner.skips rest with
      | (.switch s, rest) => return (d.switched s, rest)
      | (.group s, rest) => return (d.enter s, rest)
      | (.named name, rest) =>
          if d.names.contains name then none
          else return ({ d.enter .keep with names := name :: d.names }, rest)
  | ')' :: rest => return (← d.leave, rest)
  | '|' :: rest => return ({ d with inner := d.inner.branch }, rest)
  | '[' :: rest =>
      let (s, rest) ← letterSet d.inner.skips rest
      return (d.add (set s), rest)
  | '*' :: rest | '+' :: rest | '?' :: rest =>
      let inner ← d.inner.repeatLast
      return ({ d with inner := inner }, if rest.head? = some '?' then rest.tail else rest)
  | '\x7b' :: _ => none
  | '\\' :: rest =>
      let (a, rest) ← escape d.inner.skips rest
      return (d.add (atom a), rest)
  | '.' :: rest => return (d.add (atom .any), rest)
  | '^' :: rest | '$' :: rest => return (d.add (atom .edge), rest)
  | c :: rest => return (d.add (atom (.letter ⟨c, false⟩)), rest)

/-- Reads the rest of a pattern, at most `n` parts of it. -/
def patternRest : Nat → Draft → List Char → Option Pattern
  | 0, _, _ => none
  | n + 1, d, cs =>
      match skipGap d.inner.skips cs with
      | [] => d.finish
      | cs => do
          let (d, rest) ← part d cs
          patternRest n d rest

/-- Reads a pattern. -/
def ofText? (cs : List Char) : Option Pattern := patternRest (cs.length + 1) .initial cs

/-- How deep the parts of a pattern may lie in each other. -/
def greatestDepth : Nat := 250

end Pattern

/-- Whether a text is a pattern that can be used. -/
def isPattern (cs : List Char) : Bool :=
  match Pattern.ofText? cs with
  | some p => p.height ≤ Pattern.greatestDepth && (p.modeAfter? .initial).isSome
  | none => false

end PokerHand.LogFilter
