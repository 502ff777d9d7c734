import PokerHand.Settings
import PokerHand.Text.Numeral

/-!
# Where settings come from

Each value comes from the defaults, a settings file or the environment, and later sources win.
-/
namespace PokerHand

/-- Where a value comes from. -/
inductive Origin where
  | preset
  | file
  | environment
  deriving DecidableEq

def Origin.name : Origin → String
  | preset => "default"
  | file => "file"
  | environment => "env"

/-- The values that one source gives. -/
structure Overrides where
  seed : Option Nat
  ante : Option Int
  smallBlind : Option Int
  bigBlind : Option Int
  variant : Option Variant
  players : Option Nat
  bankroll : Option Int
  deriving DecidableEq

/-- Where each value comes from. -/
structure Origins where
  seed : Origin
  ante : Origin
  smallBlind : Origin
  bigBlind : Origin
  variant : Origin
  players : Origin
  bankroll : Origin
  deriving DecidableEq

namespace Origins

/-- Every value comes from the defaults. -/
def preset : Origins := ⟨.preset, .preset, .preset, .preset, .preset, .preset, .preset⟩

/-- Takes `origin` for every value that `o` gives. -/
def overlay (s : Origins) (o : Overrides) (origin : Origin) : Origins where
  seed := if o.seed.isSome then origin else s.seed
  ante := if o.ante.isSome then origin else s.ante
  smallBlind := if o.smallBlind.isSome then origin else s.smallBlind
  bigBlind := if o.bigBlind.isSome then origin else s.bigBlind
  variant := if o.variant.isSome then origin else s.variant
  players := if o.players.isSome then origin else s.players
  bankroll := if o.bankroll.isSome then origin else s.bankroll

end Origins

namespace Overrides

/-- Gives nothing. -/
def none : Overrides := ⟨.none, .none, .none, .none, .none, .none, .none⟩

/-- Reads a variable that holds a number, with blanks around it allowed. An empty variable counts
as unset. -/
def readVariable {α : Type} (environment : String → Option String) (name : String)
    (read : List Char → Option α) : Except SettingsFault (Option α) :=
  match environment name with
  | .none => .ok .none
  | some value =>
      if value.isEmpty then .ok .none
      else
        match read (Text.trim value.toList) with
        | some a => .ok (some a)
        | .none => .error (.badVariable name value)

/-- Reads the variable that holds the variant. -/
def readVariant (environment : String → Option String) : Except SettingsFault (Option Variant) :=
  match environment "HOLDEM_VARIANT" with
  | .none => .ok .none
  | some value =>
      if value.isEmpty then .ok .none
      else
        match Variant.ofText? value with
        | some v => .ok (some v)
        | .none => .error (.badVariant value)

/-- Reads every variable; of several bad ones the first is refused. -/
def ofEnvironment (environment : String → Option String) : Except SettingsFault Overrides := do
  let seed ← readVariable environment "HOLDEM_SEED" Text.Numeral.count?
  let ante ← readVariable environment "HOLDEM_ANTE" Text.Numeral.amount?
  let smallBlind ← readVariable environment "HOLDEM_SB" Text.Numeral.amount?
  let bigBlind ← readVariable environment "HOLDEM_BB" Text.Numeral.amount?
  let variant ← readVariant environment
  let players ← readVariable environment "HOLDEM_PLAYERS" Text.Numeral.count?
  let bankroll ← readVariable environment "HOLDEM_BANKROLL" Text.Numeral.amount?
  return ⟨seed, ante, smallBlind, bigBlind, variant, players, bankroll⟩

end Overrides

namespace Settings

/-- Takes every value that `o` gives. -/
def overlay (s : Settings) (o : Overrides) : Settings where
  seed := o.seed.or s.seed
  ante := o.ante.getD s.ante
  smallBlind := o.smallBlind.getD s.smallBlind
  bigBlind := o.bigBlind.getD s.bigBlind
  variant := o.variant.getD s.variant
  players := o.players.getD s.players
  bankroll := o.bankroll.getD s.bankroll

end Settings

/-- Settings with the source of each value. -/
structure Resolved where
  settings : Settings
  origins : Origins

/-- The settings that the defaults, then a file, then the environment give. -/
def Resolved.ofSources (file environment : Overrides) : Except SettingsFault Resolved := do
  let settings := (Settings.preset.overlay file).overlay environment
  settings.check
  return ⟨settings, (Origins.preset.overlay file .file).overlay environment .environment⟩

end PokerHand
