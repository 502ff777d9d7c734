import PokerHand.LogFilter.Pattern.Escape
import PokerHand.Text.Alphanumeric

/-!
# How a group of a pattern opens

A group may have a name, or flags up to a colon. Flags up to a closing parenthesis make no group
but hold for the rest of the one that they stand in.
-/
namespace PokerHand.LogFilter

/-- The flag that a letter stands for. -/
def Flag.ofLetter? : Char → Option Flag
  | 'i' => some .ignoreCase
  | 'm' => some .lines
  | 's' => some .dotAll
  | 'U' => some .lazy
  | 'u' => some .unicode
  | 'R' => some .carriageReturn
  | 'x' => some .blanks
  | _ => none

/-- Reads flags, each at most once: those to switch on, and behind a minus those to switch off, of
which there has to be one. -/
def Switches.ofText? (cs : List Char) : Option Switches := do
  let on ← (cs.takeWhile fun c => c != '-').mapM Flag.ofLetter?
  let off ← match cs.dropWhile fun c => c != '-' with
    | [] => some []
    | [_] => none
    | _ :: cs => cs.mapM Flag.ofLetter?
  if (on ++ off).Nodup then return ⟨on, off⟩ else none

namespace Pattern

inductive Opening where
  | group (s : Switches)
  | named (name : List Char)
  /-- Flags for the rest of the group that they stand in. -/
  | switch (s : Switches)

/-- Whether a name may begin with `c`. -/
def mayStartName (c : Char) : Bool := c == '_' || Text.Alphabetic.isAlphabetic c

/-- Whether `c` may stand in a name. -/
def mayContinueName (c : Char) : Bool :=
  c == '_' || c == '.' || c == '[' || c == ']' || Text.Alphanumeric.isAlphanumeric c

/-- Reads the name of a group up to its closing angle. -/
def groupName (cs : List Char) : Option (Opening × List Char) :=
  let name := cs.takeWhile fun c => c != '>'
  match name, cs.dropWhile fun c => c != '>' with
  | first :: more, _ :: rest =>
      if mayStartName first && more.all mayContinueName then some (.named name, rest) else none
  | _, _ => none

/-- Reads what follows an opening parenthesis. There is no view of the text around a match. -/
def opening (skips : Bool) (cs : List Char) : Option (Opening × List Char) :=
  match skipGap skips cs with
  | '?' :: 'P' :: '<' :: rest => groupName rest
  | '?' :: '<' :: rest => groupName rest
  | '?' :: rest =>
      let isEnd (c : Char) := c == ':' || c == ')'
      let flags := rest.takeWhile fun c => !isEnd c
      match rest.dropWhile fun c => !isEnd c with
      | [] => none
      | ':' :: rest => (Switches.ofText? flags).map fun s => (.group s, rest)
      | _ :: rest =>
          if flags.isEmpty then none
          else (Switches.ofText? flags).map fun s => (.switch s, rest)
  | rest => some (.group .keep, rest)

end Pattern

end PokerHand.LogFilter
