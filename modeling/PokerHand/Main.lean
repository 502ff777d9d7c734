import PokerHand.Command.Run
import PokerHand.Host.Moment
import PokerHand.Host.Path
import PokerHand.Json.Text
import Std.Time.DateTime

/-!
# The program

Runs the command line on the real system.
-/
namespace PokerHand

/-- What is wrong with a file, by the system's number for it. Some operations of the system give
the number with a minus sign. -/
def FileFault.ofCode (code : UInt32) (text : String) : FileFault :=
  match code.toInt32.toInt.natAbs with
  | 2 => .missing
  | 17 => .alreadyExists
  | 20 => .notDirectory
  | 21 => .isDirectory
  | 36 => .nameTooLong
  | number => .other s!"{text} (os error {number})"

/-- What an error of the system says about a file. -/
def FileFault.ofError : IO.Error → FileFault
  | .noFileOrDirectory _ code text | .alreadyExists _ code text
  | .inappropriateType _ code text | .invalidArgument _ code text
  | .permissionDenied _ code text => .ofCode code text
  | e => .other (toString e)

/-! Random bytes make the name of a hand, a universally unique identifier, and a seed. -/

namespace Fresh

/-- The number that bytes write in base 256. -/
def number (bytes : List UInt8) : Nat := bytes.foldl (fun n b => n * 256 + b.toNat) 0

/-- The two hexadecimal digits of a byte. -/
def hexPair (b : UInt8) : List Char := [Json.hexDigit (b.toNat / 16), Json.hexDigit b.toNat]

/-- Sixteen random bytes with the marks of a random identifier: the version is four and the
variant starts with the bits one and zero. -/
def marked (bytes : List UInt8) : List UInt8 :=
  bytes.mapIdx fun i b =>
    if i = 6 then b &&& 0x0f ||| 0x40 else if i = 8 then b &&& 0x3f ||| 0x80 else b

/-- The identifier that sixteen bytes make, in five groups of hexadecimal digits. -/
def identifier (bytes : List UInt8) : String :=
  let digits := (marked bytes).flatMap hexPair
  let group (start count : Nat) := String.ofList ((digits.drop start).take count)
  "-".intercalate [group 0 8, group 8 4, group 12 4, group 16 4, group 20 12]

end Fresh

namespace Machine

/-- Runs an operation on files and words its failure. -/
def attempt {α : Type} (act : IO (Except FileFault α)) : IO (Except FileFault α) := do
  try act catch e => return .error (.ofError e)

def readText (path : String) : IO (Except FileFault String) := attempt do
  match String.fromUTF8? (← IO.FS.readBinFile path) with
  | some text => return .ok text
  | none => return .error .notText

def createFile (path : String) : IO (Except FileFault Unit) := attempt do
  let above := (Path.ofText path).parent
  if !above.steps.isEmpty then IO.FS.createDirAll above.text
  IO.FS.writeFile path ""
  return .ok ()

def appendText (path text : String) : IO (Except FileFault Unit) := attempt do
  let file ← IO.FS.Handle.mk path .append
  file.putStr text
  return .ok ()

/-- Seconds since the epoch. -/
def now : IO Int := do
  let moment ← Std.Time.Timestamp.now
  return moment.toSecondsSinceUnixEpoch.val

def randomBytes (count : USize) : IO (List UInt8) := do
  let bytes ← IO.getRandomBytes count
  return bytes.toList

end Machine

/-- The commands with what they do and take. -/
def commandHelp : List (String × String) :=
  [("cfg", "Show the settings and where each value comes from"),
   ("deal", "Deal a hand and print it at its first decision [--seed N]"),
   ("eval", "Score a set of cards --cards CARDS [--short-deck]"),
   ("play", "Play a hand from a script --script FILE [--seed N] [--log FILE]"),
   ("help", "Print this page")]

/-- The help page. -/
def helpText : String :=
  "Inspect and play single poker hands\n\nUsage: holdem <COMMAND>\n\nCommands:\n" ++
    String.join (commandHelp.map fun entry => s!"  {entry.1}  {entry.2}\n")

/-- The wording of the program. -/
def wording : Wording where
  help := helpText
  refusal := "error: these arguments are not understood\n\n"
  malformed := "it holds more than the settings, or something else"

/-- The real system. -/
def machine : Host IO where
  wording := wording
  setting name := IO.getEnv name
  readText := Machine.readText
  createFile := Machine.createFile
  appendText := Machine.appendText
  print text := do (← IO.getStdout).putStr text
  complain text := do (← IO.getStderr).putStr text
  now := Machine.now
  timestamp := Moment.text <$> Machine.now
  freshId := Fresh.identifier <$> Machine.randomBytes 16
  freshSeed := Fresh.number <$> Machine.randomBytes 8

end PokerHand

def main (args : List String) : IO UInt32 := PokerHand.Command.run PokerHand.machine args
