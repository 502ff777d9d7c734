/-!
# What a command needs from its surroundings

A `Host` gives a command its environment, files, streams, clock, fresh ids and seeds. Commands are
written for any monad, so they run on the real system and on a directory kept in memory alike.
-/
namespace PokerHand

/-- Why a file cannot be used. -/
inductive FileFault where
  | missing
  | alreadyExists
  | notDirectory
  | isDirectory
  | nameTooLong
  | nulInName
  | notText
  | other (text : String)
  deriving DecidableEq

def FileFault.message : FileFault → String
  | missing => "No such file or directory (os error 2)"
  | alreadyExists => "File exists (os error 17)"
  | notDirectory => "Not a directory (os error 20)"
  | isDirectory => "Is a directory (os error 21)"
  | nameTooLong => "File name too long (os error 36)"
  | nulInName => "file name contained an unexpected NUL byte"
  | notText => "stream did not contain valid UTF-8"
  | other text => text

/-- How the host words what is not up to a command. -/
structure Wording where
  /-- The help page. -/
  help : String
  /-- What is said of arguments that are refused, before the usage. -/
  refusal : String
  /-- What is said of a settings file that cannot be read. -/
  malformed : String

structure Host (m : Type → Type) where
  wording : Wording
  /-- An environment variable. -/
  setting : String → m (Option String)
  readText : String → m (Except FileFault String)
  /-- Makes an empty file, and the directories above it where they are missing. -/
  createFile : String → m (Except FileFault Unit)
  appendText : String → String → m (Except FileFault Unit)
  /-- Writes to the standard output. -/
  print : String → m Unit
  /-- Writes to the standard error stream. -/
  complain : String → m Unit
  /-- Seconds since the epoch. -/
  now : m Int
  /-- The time as it stands in a journal. -/
  timestamp : m String
  freshId : m String
  freshSeed : m Nat

end PokerHand
