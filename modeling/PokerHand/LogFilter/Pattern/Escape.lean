import PokerHand.LogFilter.Pattern.Basic
import PokerHand.Text.Blank
import PokerHand.Text.Numeral

/-!
# Gaps and escapes in a pattern

Where blanks have no meaning, a gap of blanks and comments may stand between the parts of a
pattern; a comment runs from a number sign to the end of its line.

A closing brace ends the value that a pattern is, so what needs one has no complete form: long
escapes, properties with a longer name, counted repetitions.
-/
namespace PokerHand.LogFilter.Pattern

/-- The text behind a gap that may have begun with a comment. -/
def behindGap (inComment : Bool) : List Char → List Char
  | [] => []
  | c :: rest =>
      if inComment then behindGap (c != '\n') rest
      else if c == '#' then behindGap true rest
      else if Text.isBlank c then behindGap false rest
      else c :: rest

/-- The text behind a gap, if there may be one. -/
def skipGap (skips : Bool) (cs : List Char) : List Char :=
  if skips then behindGap false cs else cs

/-- The character whose number is written with `count` more hexadecimal digits. -/
def numbered (skips : Bool) : Nat → Nat → List Char → Option (Char × List Char)
  | 0, n, cs => if n.isValidChar then some (Char.ofNat n, cs) else none
  | count + 1, n, cs =>
      match skipGap skips cs with
      | [] => none
      | c :: rest => do numbered skips count (n * 16 + (← Text.Numeral.digit? 16 c)) rest

/-- The characters that a letter behind a backslash stands for. -/
def controlLetters : List (Char × Char) :=
  [('a', '\x07'), ('f', '\x0c'), ('t', '\t'), ('n', '\n'), ('r', '\r'), ('v', '\x0b')]

/-- What an ASCII character behind a backslash stands for that is no sign of its own. -/
def escaped? (c : Char) : Option Atom :=
  match controlLetters.lookup c with
  | some d => some (.letter ⟨d, false⟩)
  | none => if c.toNat < 0x80 ∧ !c.isAlphanum then some (.letter ⟨c, false⟩) else none

/-- Reads what stands behind a backslash. -/
def escape (skips : Bool) (cs : List Char) : Option (Atom × List Char) :=
  let coded (count : Nat) (rest : List Char) :=
    (numbered skips count 0 rest).map fun r => (Atom.letter ⟨r.1, count == 2⟩, r.2)
  match cs with
  | [] => none
  | c :: rest =>
      match c with
      | 'x' => coded 2 rest
      | 'u' => coded 4 rest
      | 'U' => coded 8 rest
      | 'p' | 'P' =>
          match skipGap skips rest with
          | [] | '\\' :: _ | '\x7b' :: _ => none
          | _ :: rest => some (.property, rest)
      | 'd' | 's' | 'w' => some (.kind false, rest)
      | 'D' | 'S' | 'W' => some (.kind true, rest)
      | 'A' | 'z' => some (.edge, rest)
      | 'b' | 'B' | '<' | '>' => some (.wordEdge, rest)
      | c => (escaped? c).map fun a => (a, rest)

end PokerHand.LogFilter.Pattern
