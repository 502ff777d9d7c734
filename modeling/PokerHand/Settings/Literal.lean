import PokerHand.Text.Numeral

/-!
# Texts and integers of a settings file

A text stands in double quotes, where escapes have a meaning, or in single quotes, where they have
none; three quotes at both ends let it run over several lines. An integer may have a sign,
underscores between its digits, or a hexadecimal, octal or binary form.

A reader takes what it reads off the front of a text and yields it with the rest.
-/
namespace PokerHand.SettingsFile

/-! ## Lines -/

def isBlank (c : Char) : Bool := c == ' ' || c == '\t'

/-- The text behind blanks and tabs. -/
def skipBlanks (cs : List Char) : List Char := cs.dropWhile isBlank

/-- Characters that may stand in a comment or a text. -/
def isPlain (c : Char) : Bool := c == '\t' || (0x20 ≤ c.toNat && c.toNat != 0x7f)

/-- The text behind a line break. -/
def lineBreak : List Char → Option (List Char)
  | '\n' :: rest => some rest
  | '\r' :: '\n' :: rest => some rest
  | _ => none

/-- The text behind blanks and line breaks. -/
def skipLines : List Char → List Char
  | '\r' :: '\n' :: rest => skipLines rest
  | c :: rest => if isBlank c || c == '\n' then skipLines rest else c :: rest
  | [] => []

/-! ## Texts -/

/-- The character that `count` hexadecimal digits name, with the text behind them. -/
def unicode (count : Nat) (cs : List Char) : Option (Char × List Char) := do
  if cs.length < count then none
  let n ← Text.Numeral.number? 16 (cs.take count)
  if n.isValidChar then return (Char.ofNat n, cs.drop count)
  else none

/-- The character that an escape after its backslash means, with the text behind it. -/
def escape : List Char → Option (Char × List Char)
  | 'b' :: rest => some ('\x08', rest)
  | 't' :: rest => some ('\t', rest)
  | 'n' :: rest => some ('\n', rest)
  | 'f' :: rest => some ('\x0c', rest)
  | 'r' :: rest => some ('\r', rest)
  | 'e' :: rest => some ('\x1b', rest)
  | '"' :: rest => some ('"', rest)
  | '\\' :: rest => some ('\\', rest)
  | 'x' :: rest => unicode 2 rest
  | 'u' :: rest => unicode 4 rest
  | 'U' :: rest => unicode 8 rest
  | _ => none

/-- Reads a text in double quotes behind the opening one, at most `n` characters of it. -/
def quoted : Nat → List Char → Option (List Char × List Char)
  | 0, _ => none
  | _, [] => none
  | n + 1, c :: rest =>
      if c = '"' then some ([], rest)
      else if c = '\\' then do
        let (d, rest) ← escape rest
        let (ds, rest) ← quoted n rest
        return (d :: ds, rest)
      else if isPlain c then do
        let (ds, rest) ← quoted n rest
        return (c :: ds, rest)
      else none

/-- Reads a text in single quotes behind the opening one. -/
def literal (cs : List Char) : Option (List Char × List Char) :=
  match cs.dropWhile fun c => isPlain c && c != '\'' with
  | '\'' :: rest => some (cs.takeWhile fun c => isPlain c && c != '\'', rest)
  | _ => none

/-- Reads the quotes that close a long text: three, after up to two that belong to it. -/
def closing (quote : Char) (cs : List Char) : Option (List Char × List Char) :=
  let quotes := cs.takeWhile fun c => c == quote
  if quotes.length < 3 then none
  else
    let count := min quotes.length 5
    some (quotes.take (count - 3), cs.drop count)

/-- Reads a text of several lines behind its opening quotes, at most `n` parts of it. Where escapes
have a meaning, a backslash at the end of a line takes away what is blank up to the next text. -/
def long (quote : Char) (hasEscapes : Bool) : Nat → List Char → Option (List Char × List Char)
  | 0, _ => none
  | _, [] => none
  | n + 1, c :: rest =>
      match closing quote (c :: rest), lineBreak (c :: rest) with
      | some last, _ => some last
      | none, some rest => do
          let (ds, rest) ← long quote hasEscapes n rest
          return ('\n' :: ds, rest)
      | none, none =>
          if hasEscapes && c == '\\' then
            match lineBreak (skipBlanks rest) with
            | some rest => long quote hasEscapes n (skipLines rest)
            | none => do
                let (d, rest) ← escape rest
                let (ds, rest) ← long quote hasEscapes n rest
                return (d :: ds, rest)
          else if isPlain c then do
            let (ds, rest) ← long quote hasEscapes n rest
            return (c :: ds, rest)
          else none

/-- Reads a text of several lines; a line break right behind the opening quotes is no part of it. -/
def lines (quote : Char) (hasEscapes : Bool) (cs : List Char) : Option (List Char × List Char) :=
  let cs := (lineBreak cs).getD cs
  long quote hasEscapes (cs.length + 1) cs

/-- Reads a text of any of the four forms. -/
def text (cs : List Char) : Option (String × List Char) :=
  let read := match cs with
    | '"' :: '"' :: '"' :: rest => lines '"' true rest
    | '\'' :: '\'' :: '\'' :: rest => lines '\'' false rest
    | '"' :: rest => quoted (rest.length + 1) rest
    | '\'' :: rest => literal rest
    | _ => none
  read.map fun r => (String.ofList r.1, r.2)

/-! ## Integers -/

/-- Takes the underscores out of a run of digits; each has to stand between two digits. -/
def joinDigits : List Char → Option (List Char)
  | [] => some []
  | ['_'] => none
  | '_' :: '_' :: _ => none
  | c :: '_' :: rest => if c = '_' then none else (joinDigits ('_' :: rest)).map (c :: ·)
  | '_' :: rest => joinDigits rest
  | c :: rest => (joinDigits rest).map (c :: ·)

/-- The number of a run of digits that starts with a digit. -/
def digits? (base : Nat) (cs : List Char) : Option Nat := do
  if cs.head? = some '_' then none
  Text.Numeral.number? base (← joinDigits cs)

/-- A decimal number without leading zeros. -/
def decimal? (cs : List Char) : Option Nat :=
  if cs.head? = some '0' ∧ cs ≠ ['0'] then none else digits? 10 cs

def integer? : List Char → Option Int
  | '0' :: 'x' :: cs => (digits? 16 cs).map fun n => (n : Int)
  | '0' :: 'o' :: cs => (digits? 8 cs).map fun n => (n : Int)
  | '0' :: 'b' :: cs => (digits? 2 cs).map fun n => (n : Int)
  | '+' :: cs => (decimal? cs).map fun n => (n : Int)
  | '-' :: cs => (decimal? cs).map fun n => -(n : Int)
  | cs => (decimal? cs).map fun n => (n : Int)

end PokerHand.SettingsFile
