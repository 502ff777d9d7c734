import PokerHand.Host
import PokerHand.Json.Value
import PokerHand.Settings.File

/-!
# Loading settings

The settings of a host come from the defaults, from the file that its environment names, and from
the environment itself.
-/
namespace PokerHand

/-- One value with its source. -/
def Origin.sourced (origin : Origin) (value : Json) : Json :=
  .obj [("source", .str origin.name), ("value", value)]

/-- The settings with their sources, by name. -/
def Resolved.toJson (r : Resolved) : Json :=
  let s := r.settings
  let o := r.origins
  .obj [("ante", o.ante.sourced (.int s.ante)),
    ("bankroll", o.bankroll.sourced (.int s.bankroll)),
    ("bb", o.bigBlind.sourced (.int s.bigBlind)),
    ("players", o.players.sourced (.nat s.players)),
    ("sb", o.smallBlind.sourced (.int s.smallBlind)),
    ("seed", o.seed.sourced (.ofOption .nat s.seed)),
    ("variant", o.variant.sourced (.str s.variant.name))]

variable {m : Type → Type} [Monad m]

/-- The values that the settings file gives, if the environment names one. -/
def Overrides.ofFile (host : Host m) : m (Except String Overrides) := do
  let path := ((← host.setting "HOLDEM_CONFIG").getD "")
  if path.isEmpty then return .ok .none
  match ← host.readText path with
  | .error fault => return .error s!"cannot read config file: {fault.message}"
  | .ok text =>
      match SettingsFile.read? text with
      | some o => return .ok o
      | .none => return .error ("malformed config file: " ++ host.wording.malformed)

/-- The names of the variables that hold settings. -/
def Overrides.variables : List String :=
  ["HOLDEM_SEED", "HOLDEM_ANTE", "HOLDEM_SB", "HOLDEM_BB", "HOLDEM_VARIANT", "HOLDEM_PLAYERS",
   "HOLDEM_BANKROLL"]

/-- The settings of a host, or what is wrong with them. -/
def Resolved.load (host : Host m) : m (Except String Resolved) := do
  match ← Overrides.ofFile host with
  | .error text => return .error text
  | .ok file =>
      let values ← Overrides.variables.mapM fun name => do return (name, ← host.setting name)
      let resolved := do
        let environment ← Overrides.ofEnvironment fun name => (values.lookup name).bind fun v => v
        Resolved.ofSources file environment
      match resolved with
      | .ok r => return .ok r
      | .error fault => return .error fault.message

end PokerHand
