/-!
# Patterns

A pattern describes texts: letters, classes and sets of letters, places in the text, repetitions,
groups and alternatives. Flags change how a part of a pattern is to be understood. `height` is how
deep the parts of a pattern lie in each other.
-/
namespace PokerHand.LogFilter

structure Letter where
  char : Char
  /-- Whether it is written as a byte, with two hexadecimal digits. -/
  isByte : Bool
  deriving DecidableEq

/-- What may be switched in a part of a pattern. -/
inductive Flag where
  /-- Small and capital letters are alike. -/
  | ignoreCase
  /-- Every line has a start and an end. -/
  | lines
  /-- A dot also stands for the end of a line. -/
  | dotAll
  /-- A repetition prefers few rounds. -/
  | lazy
  /-- Letters are characters, not bytes. -/
  | unicode
  /-- A line may end in a carriage return. -/
  | carriageReturn
  /-- Blanks and comments in the pattern have no meaning. -/
  | blanks
  deriving DecidableEq

/-- The flags that a part of a pattern switches. -/
structure Switches where
  on : List Flag
  off : List Flag
  deriving DecidableEq

namespace Switches

/-- No flag is switched. -/
def keep : Switches := ⟨[], []⟩

/-- The state of a flag that was `before`. -/
def apply (s : Switches) (f : Flag) (before : Bool) : Bool :=
  s.on.contains f || (before && !s.off.contains f)

end Switches

/-- A set of letters. -/
inductive LetterSet where
  | empty
  | letter (l : Letter)
  | range (first last : Letter)
  /-- A class that has a name. -/
  | named (isNegated : Bool)
  /-- The digits, the blanks or the characters of words. -/
  | kind (isNegated : Bool)
  /-- The letters with a property that a standard lists. -/
  | property
  /-- A set in brackets. -/
  | bracketed (isNegated : Bool) (s : LetterSet)
  | union (items : List LetterSet)
  /-- What two sets share, or what only one of them has. -/
  | combined (left right : LetterSet)

namespace LetterSet

mutual

def height : LetterSet → Nat
  | bracketed _ s => s.height + 1
  | union items => greatestHeight items + 1
  | combined left right => max left.height right.height + 1
  | _ => 0

def greatestHeight : List LetterSet → Nat
  | [] => 0
  | s :: rest => max s.height (greatestHeight rest)

end

/-- The set of everything that the items, newest first, hold. -/
def ofItems : List LetterSet → LetterSet
  | [] => empty
  | [s] => s
  | items => union items.reverse

end LetterSet

/-- The least part of a pattern. -/
inductive Atom where
  | letter (l : Letter)
  /-- Any letter. -/
  | any
  /-- The digits, the blanks or the characters of words. -/
  | kind (isNegated : Bool)
  /-- The letters with a property that a standard lists. -/
  | property
  /-- The start or the end of a text or a line. -/
  | edge
  /-- The start or the end of a word, or where there is neither. -/
  | wordEdge
  deriving DecidableEq

inductive Pattern where
  | empty
  | atom (a : Atom)
  | set (s : LetterSet)
  /-- Flags for the rest of the group that they stand in. -/
  | switch (s : Switches)
  | repeated (p : Pattern)
  | group (s : Switches) (p : Pattern)
  | sequence (parts : List Pattern)
  | choice (branches : List Pattern)

namespace Pattern

mutual

def height : Pattern → Nat
  | set s => s.height
  | repeated p => p.height + 1
  | group _ p => p.height + 1
  | sequence parts => greatestHeight parts + 1
  | choice branches => greatestHeight branches + 1
  | _ => 0

def greatestHeight : List Pattern → Nat
  | [] => 0
  | p :: rest => max p.height (greatestHeight rest)

end

/-- The parts, newest first, one after the other. -/
def ofParts : List Pattern → Pattern
  | [] => empty
  | [p] => p
  | parts => sequence parts.reverse

end Pattern

end PokerHand.LogFilter
