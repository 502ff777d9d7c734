import PokerHand.Text.Blank
import PokerHand.Text.Numeral

/-!
# Levels of a log filter
-/
namespace PokerHand.LogFilter

/-- How much a directive lets through. -/
inductive Level where
  | off | error | warn | info | debug | trace
  deriving DecidableEq

namespace Level

/-- The levels from the most silent to the most talkative one. -/
def all : List Level := [off, error, warn, info, debug, trace]

def name : Level → String
  | off => "off"
  | error => "error"
  | warn => "warn"
  | info => "info"
  | debug => "debug"
  | trace => "trace"

/-- Reads a level: its place among all, or its name in either case. -/
def ofText? (cs : List Char) : Option Level :=
  match Text.Numeral.count? cs with
  | some n => all[n]?
  | none => all.find? fun l => l.name.toList == Text.lower cs

end Level

end PokerHand.LogFilter
