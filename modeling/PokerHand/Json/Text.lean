import PokerHand.Json.Value

/-!
# JSON texts

`compact` writes a value on one line without blanks. `pretty` gives each element its own line,
two blanks deeper than its parent, and writes an empty list or object as an empty pair of
brackets.
-/
namespace PokerHand.Json

/-- A hexadecimal digit. -/
def hexDigit (n : Nat) : Char := Nat.digitChar (n % 16)

/-- How one character stands in a string. -/
def escape (c : Char) : List Char :=
  match c with
  | '"' => ['\\', '"']
  | '\\' => ['\\', '\\']
  | '\x08' => ['\\', 'b']
  | '\x0c' => ['\\', 'f']
  | '\n' => ['\\', 'n']
  | '\r' => ['\\', 'r']
  | '\t' => ['\\', 't']
  | c =>
      if c.toNat < 0x20 then
        ['\\', 'u', '0', '0', hexDigit (c.toNat / 16), hexDigit c.toNat]
      else [c]

/-- A string between quotes. -/
def string (s : String) : String := String.ofList ('"' :: s.toList.flatMap escape ++ ['"'])

/-- A number with a decimal point. -/
def decimalText (digits : Int) (places : Nat) : String :=
  let whole := digits.natAbs / Nat.pow 10 places
  let rest := toString (digits.natAbs % Nat.pow 10 places)
  let zeros := String.ofList (List.replicate (places - rest.length) '0')
  (if digits < 0 then "-" else "") ++ toString whole ++ "." ++ zeros ++ rest

mutual

/-- The text of a value on one line. -/
def compact : Json → String
  | null => "null"
  | bool b => if b then "true" else "false"
  | int n => toString n
  | decimal digits places => decimalText digits places
  | str s => string s
  | arr items => "[" ++ ",".intercalate (compactItems items) ++ "]"
  | obj fields => "\x7b" ++ ",".intercalate (compactFields fields) ++ "\x7d"

def compactItems : List Json → List String
  | [] => []
  | j :: rest => compact j :: compactItems rest

def compactFields : List (String × Json) → List String
  | [] => []
  | (name, j) :: rest => (string name ++ ":" ++ compact j) :: compactFields rest

end

/-- The start of a line at some depth. -/
def indent (depth : Nat) : String := "\n" ++ String.ofList (List.replicate (2 * depth) ' ')

/-- Elements between brackets, each on a line of its own. -/
def block (left right : String) (depth : Nat) (items : List String) : String :=
  if items.isEmpty then left ++ right
  else
    left ++ indent (depth + 1) ++ ("," ++ indent (depth + 1)).intercalate items ++
      indent depth ++ right

mutual

/-- The text of a value that begins at some depth. -/
def prettyAt (depth : Nat) : Json → String
  | null => "null"
  | bool b => if b then "true" else "false"
  | int n => toString n
  | decimal digits places => decimalText digits places
  | str s => string s
  | arr items => block "[" "]" depth (prettyItems (depth + 1) items)
  | obj fields => block "\x7b" "\x7d" depth (prettyFields (depth + 1) fields)

def prettyItems (depth : Nat) : List Json → List String
  | [] => []
  | j :: rest => prettyAt depth j :: prettyItems depth rest

def prettyFields (depth : Nat) : List (String × Json) → List String
  | [] => []
  | (name, j) :: rest => (string name ++ ": " ++ prettyAt depth j) :: prettyFields depth rest

end

/-- The text of a value over several lines. -/
def pretty (j : Json) : String := prettyAt 0 j

end PokerHand.Json
