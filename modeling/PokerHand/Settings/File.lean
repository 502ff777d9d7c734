import PokerHand.Settings.Source
import PokerHand.Settings.Statement

/-!
# Settings files

A settings file gives values to the names of settings. A name that is no setting, or a value of
another kind than the setting's, spoils the whole file. A variant is named by a text, or by the one
entry of a table, which has to be empty.
-/
namespace PokerHand.SettingsFile

/-- The value of a name that holds an integer. -/
def integerFor (name : String) (fits : Int → Bool) (es : Entries) : Option (Option Int) :=
  match es.lookup name with
  | none => some none
  | some (.integer n) => if fits n then some (some n) else none
  | some _ => none

/-- The name that a node gives by itself. -/
def Node.choice? : Node → Option String
  | .text s => some s
  | .table _ [(name, .emptyList)] | .table _ [(name, .table _ [])] => some name
  | _ => none

/-- The value of a name that holds a variant. -/
def variantFor (name : String) (es : Entries) : Option (Option Variant) :=
  match es.lookup name with
  | none => some none
  | some node => (node.choice?.bind Variant.ofName?).map some

/-- The names of settings. -/
def names : List String := ["seed", "ante", "sb", "bb", "variant", "players", "bankroll"]

/-- Reads a settings file. -/
def read? (text : String) : Option Overrides := do
  let es ← entriesOf text
  if es.any fun e => !names.contains e.1 then none
  let amount (name : String) := integerFor name Text.Numeral.isAmount es
  let count (name : String) := do
    let n ← integerFor name Text.Numeral.isCount es
    return n.map Int.toNat
  return {
    seed := ← count "seed"
    ante := ← amount "ante"
    smallBlind := ← amount "sb"
    bigBlind := ← amount "bb"
    variant := ← variantFor "variant" es
    players := ← count "players"
    bankroll := ← amount "bankroll" }

end PokerHand.SettingsFile
