import PokerHand.LogFilter.Pattern.Basic

/-!
# Patterns that can be used

A pattern matches whole characters, and it knows no tables of them. So classes such as the digits
and letters without regard to their case exist for bytes only, where they mean ASCII; and what
matches bytes may match those of ASCII only, which rules out negations. Places at the edges of
words exist for bytes only too.

`modeAfter?` is `none` where a pattern holds something that its flags rule out.
-/
namespace PokerHand.LogFilter

/-- The flags that decide what a letter stands for. -/
structure Mode where
  isUnicode : Bool
  ignoresCase : Bool
  deriving DecidableEq

namespace Mode

/-- The mode at the start of a pattern. -/
def initial : Mode := ⟨true, false⟩

def apply (m : Mode) (s : Switches) : Mode :=
  ⟨s.apply .unicode m.isUnicode, s.apply .ignoreCase m.ignoresCase⟩

/-- Whether a class may be used. -/
def allowsKind (m : Mode) (isNegated : Bool) : Bool := !m.isUnicode && !isNegated

/-- Whether a letter may stand in a set. -/
def allowsMember (m : Mode) (l : Letter) : Bool :=
  if m.isUnicode then !m.ignoresCase else l.char.toNat < 0x80

def allows (m : Mode) : Atom → Bool
  | .letter l => if m.isUnicode then !m.ignoresCase else !l.isByte || l.char.toNat < 0x80
  | .any => m.isUnicode
  | .kind isNegated => m.allowsKind isNegated
  | .property => false
  | .edge => true
  | .wordEdge => !m.isUnicode

end Mode

namespace LetterSet

mutual

/-- Whether all members of a set may be used. -/
def isAllowed (m : Mode) : LetterSet → Bool
  | empty => true
  | letter l => m.allowsMember l
  | range first last => m.allowsMember first && m.allowsMember last
  | named isNegated => if m.isUnicode then !m.ignoresCase else !isNegated
  | kind isNegated => m.allowsKind isNegated
  | property => false
  | bracketed isNegated s => (m.isUnicode || !isNegated) && s.isAllowed m
  | union items => areAllowed m items
  | combined left right => left.isAllowed m && right.isAllowed m

def areAllowed (m : Mode) : List LetterSet → Bool
  | [] => true
  | s :: rest => s.isAllowed m && areAllowed m rest

end

end LetterSet

namespace Pattern

mutual

/-- The mode behind a pattern; only what stands in a group of its own leaves it as it is. -/
def modeAfter? (m : Mode) : Pattern → Option Mode
  | empty => some m
  | atom a => if m.allows a then some m else none
  | set s => if s.isAllowed m then some m else none
  | switch s => some (m.apply s)
  | repeated p => modeAfter? m p
  | group s p => (modeAfter? (m.apply s) p).map fun _ => m
  | sequence parts => modeAfterAll? m parts
  | choice branches => modeAfterAll? m branches

def modeAfterAll? (m : Mode) : List Pattern → Option Mode
  | [] => some m
  | p :: rest => do modeAfterAll? (← modeAfter? m p) rest

end

end Pattern

end PokerHand.LogFilter
