import PokerHand.Card
import PokerHand.Fault
import PokerHand.Text.Blank

/-!
# Reading cards

A card symbol is a suit letter and a rank letter, in either case. A card list is any number of
symbols with blanks or commas between and around them; the first piece that is no symbol is
refused by name.
-/
namespace PokerHand.Card

/-- The card with exactly these letters. -/
def ofLetters? : List Char → Option Card
  | [s, r] => do
      let suit ← Suit.ofLetter? s
      let rank ← Rank.ofLetter? r
      return ⟨suit, rank⟩
  | _ => none

/-- Reads one symbol, with blanks around it allowed. -/
def ofText? (text : String) : Option Card := ofLetters? (Text.trim text.toList)

/-- Reads one symbol; a refusal quotes the whole text. -/
def read (text : String) : Except Fault Card :=
  match ofText? text with
  | some card => .ok card
  | none => .error (.badCard text)

/-- The characters that part the symbols of a card list. -/
def isGap (c : Char) : Bool := Text.isBlank c || c == ','

/-- Reads every symbol of a card list; a refusal quotes the first piece that is none. -/
def readList (text : String) : Except Fault (List Card) :=
  (Text.runs isGap text.toList).mapM fun piece => read (String.ofList piece)

end PokerHand.Card
