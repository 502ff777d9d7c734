import PokerHand.Text.Plain

/-!
# Quoted texts in messages

A quoted text stands between double quotes. Quotes and backslashes get a backslash, the usual
control characters their letter, and every other code point that is not shown as it is becomes
`\u` with its hexadecimal number in braces.
-/
namespace PokerHand.Text.Quoted

/-- The lower-case hexadecimal digits of `n`, without padding. -/
def hex (n : Nat) : List Char := Nat.toDigits 16 n

/-- How one character stands inside the quotes. -/
def shown (c : Char) : List Char :=
  match c with
  | '\x00' => ['\\', '0']
  | '\t' => ['\\', 't']
  | '\r' => ['\\', 'r']
  | '\n' => ['\\', 'n']
  | '"' => ['\\', '"']
  | '\\' => ['\\', '\\']
  | c => if Plain.isPlain c then [c] else ['\\', 'u', '{'] ++ hex c.toNat ++ ['}']

/-- The text between quotes. -/
def quote (s : String) : String :=
  String.ofList ('"' :: s.toList.flatMap shown ++ ['"'])

end PokerHand.Text.Quoted
