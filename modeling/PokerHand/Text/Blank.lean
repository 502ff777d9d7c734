/-!
# Blank characters and the pieces between them

`isBlank` is the white space of texts. `runs gap cs` cuts a text into its maximal pieces without
gap characters, so it never yields an empty piece; `trim` takes the blanks off both ends; `lines`
cuts at line feeds and takes the carriage return that stands directly before one with it.
-/
namespace PokerHand.Text

/-- The characters with the Unicode property `White_Space`. -/
def isBlank (c : Char) : Bool :=
  let n := c.toNat
  (0x9 ≤ n && n ≤ 0xd) || n == 0x20 || n == 0x85 || n == 0xa0 || n == 0x1680 ||
    (0x2000 ≤ n && n ≤ 0x200a) || n == 0x2028 || n == 0x2029 || n == 0x202f || n == 0x205f ||
    n == 0x3000

/-- The maximal pieces of a text that hold no `gap` character, in order. -/
def runs (gap : Char → Bool) : List Char → List (List Char)
  | [] => []
  | c :: rest =>
      if gap c then runs gap rest
      else
        match rest, runs gap rest with
        | d :: _, run :: more => if gap d then [c] :: run :: more else (c :: run) :: more
        | _, more => [c] :: more

/-- The words of a text. -/
def words (cs : List Char) : List (List Char) := runs isBlank cs

/-- The text without the blanks at its ends. -/
def trim (cs : List Char) : List Char :=
  ((cs.dropWhile isBlank).reverse.dropWhile isBlank).reverse

/-- The lines of a text; a line feed at the very end opens no further line. -/
def lines : List Char → List (List Char)
  | [] => []
  | '\n' :: rest => [] :: lines rest
  | '\r' :: '\n' :: rest => [] :: lines rest
  | c :: rest =>
      match lines rest with
      | [] => [[c]]
      | line :: more => (c :: line) :: more

/-- The text with its letters `A` to `Z` in lower case. -/
def lower (cs : List Char) : List Char := cs.map Char.toLower

end PokerHand.Text
