import PokerHand.LogFilter.Pattern.Escape

/-!
# Sets of letters in a pattern

A set stands in brackets. It holds letters, ranges, classes and other sets; `&&`, `--` and `~~`
combine all that stands before them with what stands behind, up to the next of them. A hyphen at
the start, or a closing bracket where the set would be empty, stands for itself.
-/
namespace PokerHand.LogFilter.Pattern

/-- A set that is being read. -/
structure OpenSet where
  isNegated : Bool
  /-- What stands before the last operator. -/
  left : Option LetterSet
  /-- What stands behind it, newest first. -/
  items : List LetterSet
  /-- Whether there has been nothing but hyphens so far. -/
  isFresh : Bool

namespace OpenSet

/-- Adds an item. -/
def add (s : OpenSet) (item : LetterSet) : OpenSet :=
  { s with items := item :: s.items, isFresh := false }

/-- What the set holds so far. -/
def content (s : OpenSet) : LetterSet :=
  let right := .ofItems s.items
  match s.left with
  | none => right
  | some left => .combined left right

/-- The set after an operator. -/
def combine (s : OpenSet) : OpenSet :=
  { s with left := some s.content, items := [], isFresh := false }

/-- Reads the start of a set behind its bracket. -/
def start (skips : Bool) (cs : List Char) : OpenSet × List Char :=
  match skipGap skips cs with
  | '^' :: rest => (⟨true, none, [], true⟩, rest)
  | cs => (⟨false, none, [], true⟩, cs)

end OpenSet

/-- The names of the classes that stand between `[:` and `:]`. -/
def classNames : List String :=
  ["alnum", "alpha", "ascii", "blank", "cntrl", "digit", "graph", "lower", "print", "punct",
    "space", "upper", "word", "xdigit"]

/-- Reads a named class. -/
def namedClass? (cs : List Char) : Option (LetterSet × List Char) :=
  let name (isNegated : Bool) (cs : List Char) : Option (LetterSet × List Char) :=
    match cs.dropWhile fun c => c != ':' with
    | ':' :: ']' :: rest =>
        if classNames.contains (String.ofList (cs.takeWhile fun c => c != ':')) then
          some (.named isNegated, rest)
        else none
    | _ => none
  match cs with
  | '[' :: ':' :: '^' :: rest => name true rest
  | '[' :: ':' :: rest => name false rest
  | _ => none

/-- Reads one letter or class. -/
def member (skips : Bool) : List Char → Option (LetterSet × List Char)
  | [] => none
  | '\\' :: rest => do
      match ← escape skips rest with
      | (.letter l, rest) => some (.letter l, rest)
      | (.kind isNegated, rest) => some (.kind isNegated, rest)
      | (.property, rest) => some (.property, rest)
      | _ => none
  | c :: rest => some (.letter ⟨c, false⟩, rest)

/-- Two letters make a range if they are in order. -/
def range? : LetterSet → LetterSet → Option LetterSet
  | .letter a, .letter b => if a.char ≤ b.char then some (.range a b) else none
  | _, _ => none

/-- The character that tells whether a hyphen makes a range: the first one behind it that is no
blank, a comment being read as if it were a part of the set. -/
def behindHyphen (skips : Bool) (cs : List Char) : Option Char :=
  if skips then
    let shown := match cs.dropWhile Text.isBlank with
      | '#' :: rest => rest.dropWhile Text.isBlank
      | rest => rest
    shown.head?.or cs.head?
  else cs.head?

/-- Reads a letter, a class or a range. -/
def item (skips : Bool) (cs : List Char) : Option (LetterSet × List Char) := do
  let (first, cs) ← member skips cs
  match skipGap skips cs with
  | '-' :: rest =>
      match behindHyphen skips rest with
      | some ']' | some '-' => return (first, '-' :: rest)
      | _ =>
          let (last, rest) ← member skips (skipGap skips rest)
          return (← range? first last, rest)
  | rest => return (first, rest)

/-- Reads the rest of a set that lies in others, the innermost first, at most `n` parts of it. -/
def setRest (skips : Bool) : Nat → OpenSet → List OpenSet → List Char →
    Option (LetterSet × List Char)
  | 0, _, _, _ => none
  | n + 1, s, outer, cs =>
      let hyphen := LetterSet.letter ⟨'-', false⟩
      match skipGap skips cs with
      | [] => none
      | '-' :: rest =>
          if s.isFresh then setRest skips n { s.add hyphen with isFresh := true } outer rest
          else
            match rest with
            | '-' :: rest => setRest skips n s.combine outer rest
            | _ => do
                let (i, rest) ← item skips ('-' :: rest)
                setRest skips n (s.add i) outer rest
      | ']' :: rest =>
          if s.isFresh && s.items.isEmpty then
            setRest skips n (s.add (.letter ⟨']', false⟩)) outer rest
          else
            let closed := LetterSet.bracketed s.isNegated s.content
            match outer with
            | [] => some (closed, rest)
            | o :: outer => setRest skips n (o.add closed) outer rest
      | '[' :: rest =>
          match namedClass? ('[' :: rest) with
          | some (named, rest) => setRest skips n (s.add named) outer rest
          | none =>
              let (inner, rest) := OpenSet.start skips rest
              setRest skips n inner (s :: outer) rest
      | '&' :: '&' :: rest | '~' :: '~' :: rest => setRest skips n s.combine outer rest
      | cs => do
          let (i, rest) ← item skips cs
          setRest skips n (s.add i) outer rest

/-- Reads a set behind its bracket. -/
def letterSet (skips : Bool) (cs : List Char) : Option (LetterSet × List Char) :=
  let (s, rest) := OpenSet.start skips cs
  setRest skips (rest.length + 1) s [] rest

end PokerHand.LogFilter.Pattern
