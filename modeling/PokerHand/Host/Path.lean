import PokerHand.Text.Blank

/-!
# Paths

A path is a sequence of steps, parted by slashes, from the root or from the current directory. A
dot stays where it is and two dots lead up; repeated slashes count as one. What a slash follows at
the very end has to be a directory.
-/
namespace PokerHand

/-- One step of a path. -/
inductive Step where
  | here
  | up
  | into (name : String)
  deriving DecidableEq

structure Path where
  isAbsolute : Bool
  steps : List Step
  /-- Whether a slash follows the last step. -/
  endsInSlash : Bool
  deriving DecidableEq

namespace Path

def stepOf (part : String) : Step :=
  if part = "." then .here
  else if part = ".." then .up
  else .into part

/-- Reads a path. -/
def ofText (s : String) : Path where
  isAbsolute := s.startsWith "/"
  steps := (Text.runs (fun c => c == '/') s.toList).map fun part => stepOf (String.ofList part)
  endsInSlash := s.endsWith "/"

/-- The path without its last step; steps that stay where they are do not count. -/
def parent (p : Path) : Path where
  isAbsolute := p.isAbsolute
  steps := (p.steps.filter fun s => s != .here).dropLast
  endsInSlash := false

def stepText : Step → String
  | .here => "."
  | .up => ".."
  | .into name => name

/-- The written form of a path. -/
def text (p : Path) : String :=
  (if p.isAbsolute then "/" else "") ++ "/".intercalate (p.steps.map stepText)

end Path

end PokerHand
