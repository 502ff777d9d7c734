import PokerHand.Command.Arguments
import PokerHand.Command.Evaluate
import PokerHand.Hand.Advance
import PokerHand.Journal
import PokerHand.Script
import PokerHand.Settings.Load

/-!
# Running commands

`run` reads the arguments, runs the command and yields the exit code: zero on success and two on
any refusal, which is worded on the error stream.
-/
namespace PokerHand.Command

/-- The refusal of a script line. -/
def scriptFault (line : Nat) (fault : ScriptFault) : CommandFault :=
  .input s!"line {line}: {fault.message}"

/-- Reads a script. -/
def readScript (text : String) : Except CommandFault (List ScriptLine) :=
  match Script.read text with
  | .ok lines => .ok lines
  | .error (line, fault) => .error (scriptFault line fault)

variable {m : Type → Type} [Monad m]

/-- A command that may fail. -/
abbrev Attempt (m : Type → Type) := ExceptT CommandFault m

/-- Prints a value over several lines. -/
def printJson (host : Host m) (j : Json) : Attempt m Unit := host.print (j.pretty ++ "\n")

/-- Goes on with a value or fails with a fault. -/
def orFail {ε α : Type} (wrap : ε → CommandFault) (x : Except ε α) : Attempt m α :=
  match x with
  | .ok a => pure a
  | .error e => throw (wrap e)

/-- The settings and the seed for a hand: the given seed, the configured one or a fresh one. -/
def chooseSeed (host : Host m) (given : Option Nat) : Attempt m (Settings × UInt64) := do
  let loaded ← (Resolved.load host : m (Except String Resolved))
  let r ← orFail CommandFault.settings loaded
  let seed ← match given.or r.settings.seed with
    | some seed => pure seed
    | none => host.freshSeed
  return (r.settings, UInt64.ofNat seed)

/-- Deals a hand and takes it to its first decision. -/
def dealHand (host : Host m) (settings : Settings) (seed : UInt64) : Attempt m Hand := do
  let now ← host.now
  let id ← host.freshId
  orFail .hand do (← (Hand.deal (settings.setup seed) id now).outcome).advance now

/-- Writes the record of a hand to the journal, if there is one. -/
def writeRecord (host : Host m) (journal : Option String) (h : Hand) (number : Nat) :
    Attempt m Unit :=
  match journal with
  | none => pure ()
  | some path => do
      let line := (Record.ofHand h number).line (← host.timestamp)
      orFail .file (← host.appendText path (line ++ "\n"))

/-- Plays the lines of a script, numbering the records from `number`. -/
def playLines (host : Host m) (journal : Option String) :
    List ScriptLine → Nat → Hand → Attempt m Hand
  | [], _, h => pure h
  | step :: rest, number, h => do
      if h.isClosed then
        host.complain <|
          s!"WARNING: hand closed before line {step.line}; ignoring " ++
            s!"{rest.length + 1} remaining action(s)\n"
        return h
      let now ← host.now
      match (h.perform now (step.action.toCall h.turn)).outcome with
      | .error fault =>
          host.complain
            s!"Error: line {step.line}: seat {h.turn} cannot {step.action.text}\n"
          throw (.hand fault)
      | .ok h =>
          let h ← orFail .hand (h.advance now)
          writeRecord host journal h number
          playLines host journal rest (number + 1) h

/-- Prints the settings; bad settings are worded here. -/
def runSettings (host : Host m) : m UInt32 := do
  match ← Resolved.load host with
  | .error text =>
      host.complain s!"Error: Invalid configuration: {text}\n"
      return 2
  | .ok r =>
      host.print (r.toJson.pretty ++ "\n")
      return 0

def runDeal (host : Host m) (seed : Option Nat) : Attempt m Unit := do
  let (chosen, seed) ← chooseSeed host seed
  let h ← dealHand host chosen seed
  printJson host h.toJson

def runEvaluate (host : Host m) (cards : String) (shortDeck : Bool) : Attempt m Unit := do
  let cards ← orFail (fun f => .input f.message) (Card.readList cards)
  let made ← orFail (fun f => f) (evaluateCards cards shortDeck)
  printJson host (scoreJson made)

def runPlay (host : Host m) (script : String) (seed : Option Nat) (journal : Option String) :
    Attempt m Unit := do
  let text ← orFail .file (← host.readText script)
  let lines ← orFail (fun f => f) (readScript text)
  let (chosen, seed) ← chooseSeed host seed
  if let some path := journal then orFail .file (← host.createFile path)
  let h ← dealHand host chosen seed
  writeRecord host journal h 1
  let h ← playLines host journal lines 2 h
  match h.result with
  | some result => printJson host result.toJson
  | none =>
      throw <| .input <|
        s!"script ended before the hand closed; seat {h.turn} is to act in {h.phase.name}"

/-- The exit code of a command; a failure is worded on the error stream. -/
def report (host : Host m) (command : Attempt m Unit) : m UInt32 := do
  match ← command.run with
  | .ok () => return 0
  | .error fault =>
      host.complain s!"Error: {fault.message}\n"
      return 2

/-- Runs a command. -/
def execute (host : Host m) : Command → m UInt32
  | .settings => runSettings host
  | .deal seed => report host (runDeal host seed)
  | .evaluate cards shortDeck => report host (runEvaluate host cards shortDeck)
  | .play script seed journal => report host (runPlay host script seed journal)

/-- How the program is used. -/
def usage : String :=
  "Usage: holdem <command> [options]\n\nCommands:\n" ++
    String.join (names.map fun name => s!"  {name}\n") ++
    "\nFor full help, run: holdem --help\n"

/-- The name and the version of the program. -/
def versionText : String := "holdem 0.1.0\n"

/-- Runs the command that the arguments name. -/
def run (host : Host m) (args : List String) : m UInt32 := do
  match ofArguments args with
  | .ok command => execute host command
  | .error .help =>
      host.print host.wording.help
      return 0
  | .error .version =>
      host.print versionText
      return 0
  | .error .refused =>
      host.complain (host.wording.refusal ++ usage)
      return 2

end PokerHand.Command
