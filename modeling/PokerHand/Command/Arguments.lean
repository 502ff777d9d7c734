import PokerHand.Text.Numeral

/-!
# Command-line arguments

The first argument names a command; options follow it. An option that takes a value takes it from
behind an equals sign or from the next argument, and no option may be given twice. Arguments are
read from left to right and the first that cannot be accepted decides; a request for help counts
as soon as it is reached.
-/
namespace PokerHand

/-- What the arguments ask for. -/
inductive Command where
  | settings
  | deal (seed : Option Nat)
  | evaluate (cards : String) (shortDeck : Bool)
  | play (script : String) (seed : Option Nat) (journal : Option String)
  deriving DecidableEq

/-- Why no command is run. -/
inductive Halt where
  | help
  | version
  | refused
  deriving DecidableEq

namespace Command

/-- The commands by name. -/
def names : List String := ["cfg", "deal", "eval", "play"]

/-- What the value of an option may be. -/
inductive Kind where
  | flag
  | text
  | path
  | seed
  deriving DecidableEq

/-- An option that a command takes. -/
structure OptionSpec where
  name : String
  kind : Kind
  required : Bool

/-- The options of a command. -/
def optionsOf : String → List OptionSpec
  | "deal" => [⟨"seed", .seed, false⟩]
  | "eval" => [⟨"cards", .text, true⟩, ⟨"short-deck", .flag, false⟩]
  | "play" => [⟨"script", .path, true⟩, ⟨"seed", .seed, false⟩, ⟨"log", .path, false⟩]
  | _ => []

/-- Whether a value is acceptable for a kind of option. -/
def Kind.accepts (k : Kind) (value : String) : Bool :=
  match k with
  | .flag => false
  | .text => true
  | .path => !value.isEmpty
  | .seed => (Text.Numeral.count? value.toList).isSome

/-- Whether an argument is an option and not a value; a lone dash is a value. -/
def isOption (arg : String) : Bool := arg.startsWith "-" && arg != "-"

/-- The name and the attached value of a long option. -/
def split (arg : String) : String × Option String :=
  let body := arg.toList.drop 2
  let name := String.ofList (body.takeWhile fun c => c != '=')
  match body.dropWhile fun c => c != '=' with
  | [] => (name, none)
  | _ :: value => (name, some (String.ofList value))

/-- The options read so far, with their values. -/
abbrev Values := List (String × String)

/-- Notes the value of an option. -/
def note (o : OptionSpec) (value : String) (values : Values) : Except Halt Values :=
  if (values.lookup o.name).isSome then .error .refused
  else if o.kind = .flag ∨ o.kind.accepts value then .ok ((o.name, value) :: values)
  else .error .refused

/-- Reads the options of a command from left to right. -/
def scan (options : List OptionSpec) : List String → Values → Except Halt Values
  | [], values => .ok values
  | ["--"], values => .ok values
  | arg :: rest, values =>
      if !isOption arg ∨ arg = "--" then .error .refused
      else if !arg.startsWith "--" then
        .error (if arg.startsWith "-h" then .help else .refused)
      else
        match split arg with
        | ("help", none) => .error .help
        | (name, attached) =>
            match options.find? (fun o => o.name == name), attached, rest with
            | none, _, _ => .error .refused
            | some ⟨_, .flag, _⟩, some _, _ => .error .refused
            | some ⟨n, .flag, r⟩, none, rest =>
                match note ⟨n, .flag, r⟩ "" values with
                | .ok values => scan options rest values
                | .error halt => .error halt
            | some o, some value, rest =>
                match note o value values with
                | .ok values => scan options rest values
                | .error halt => .error halt
            | some _, none, [] => .error .refused
            | some o, none, value :: rest =>
                if isOption value then .error .refused
                else
                  match note o value values with
                  | .ok values => scan options rest values
                  | .error halt => .error halt

/-- The command with a name and option values. -/
def ofValues (name : String) (values : Values) : Except Halt Command :=
  let seed := (values.lookup "seed").bind fun s => Text.Numeral.count? s.toList
  match name with
  | "cfg" => .ok .settings
  | "deal" => .ok (.deal seed)
  | "eval" =>
      match values.lookup "cards" with
      | some cards => .ok (.evaluate cards (values.lookup "short-deck").isSome)
      | none => .error .refused
  | "play" =>
      match values.lookup "script" with
      | some script => .ok (.play script seed (values.lookup "log"))
      | none => .error .refused
  | _ => .error .refused

/-- Reads all arguments. -/
def ofArguments : List String → Except Halt Command
  | [] => .error .refused
  | first :: rest =>
      if names.contains first then do
        let values ← scan (optionsOf first) rest []
        ofValues first values
      else if first = "help" then
        match rest with
        | [] => .error .help
        | [topic] =>
            .error (if names.contains topic || topic == "help" then .help else .refused)
        | _ => .error .refused
      else if first = "--help" then .error .help
      else if first = "--version" then .error .version
      else if first.startsWith "-h" then .error .help
      else if first.startsWith "-V" then .error .version
      else .error .refused

end Command

end PokerHand
