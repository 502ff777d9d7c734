import PokerHand.Host
import PokerHand.Host.Path

/-!
# A host in memory

Files and directories are kept in a list by their places, and both output streams in texts. A place
is the names on the way from the root; what lies on the way to a known place is a directory.

A path is walked step by step. A step can only be taken from a directory that is there, so a path
may lead up from a directory, but not through a file or through what is missing.
-/
namespace PokerHand

/-- What stands at a place. -/
inductive Entity where
  | directory
  | file (bytes : ByteArray)

structure Memory where
  entities : List (List String × Entity)
  /-- The place that relative paths start from. -/
  current : List String
  output : String
  errors : String

namespace Memory

/-! ## Places -/

/-- Whether the way to the first place leads through the second. -/
def leadsThrough (inner outer : List String) : Bool := outer.isPrefixOf inner && inner != outer

/-- What stands at a place; the root is a directory. -/
def find? (m : Memory) (place : List String) : Option Entity :=
  if place.isEmpty || m.entities.any fun e => leadsThrough e.1 place then some .directory
  else m.entities.lookup place

/-- Puts something at a place, instead of what stood there. -/
def put (m : Memory) (place : List String) (e : Entity) : Memory :=
  { m with entities := (place, e) :: m.entities.filter fun old => old.1 != place }

def isDirectory (m : Memory) (place : List String) : Bool :=
  match m.find? place with
  | some .directory => true
  | _ => false

/-! ## Paths -/

/-- The greatest number of bytes in one name. -/
def nameLimit : Nat := 255

/-- The greatest number of bytes in a path. -/
def pathLimit : Nat := 4095

/-- The place that a path starts from. -/
def start (m : Memory) (p : Path) : List String := if p.isAbsolute then [] else m.current

/-- The place that a step leads to. -/
def step (m : Memory) (place : List String) (s : Step) : Except FileFault (List String) :=
  match m.find? place, s with
  | none, _ => .error .missing
  | some (.file _), _ => .error .notDirectory
  | some .directory, .here => .ok place
  | some .directory, .up => .ok place.dropLast
  | some .directory, .into name =>
      if nameLimit < name.utf8ByteSize then .error .nameTooLong else .ok (place ++ [name])

/-- The place that steps lead to; it need not hold anything. -/
def walk (m : Memory) (place : List String) (steps : List Step) :
    Except FileFault (List String) :=
  steps.foldlM m.step place

/-- Reads a path; an empty one names nothing. -/
def pathOf (text : String) : Except FileFault Path :=
  if text.toList.contains '\x00' then .error .nulInName
  else if text.isEmpty then .error .missing
  else if pathLimit < text.utf8ByteSize then .error .nameTooLong
  else .ok (.ofText text)

/-! ## Reading -/

/-- The text of a file. -/
def readText (m : Memory) (path : String) : Except FileFault String := do
  let p ← pathOf path
  let place ← m.walk (m.start p) p.steps
  match m.find? place with
  | none => .error .missing
  | some .directory => .error .isDirectory
  | some (.file bytes) =>
      if p.endsInSlash then .error .notDirectory
      else
        match String.fromUTF8? bytes with
        | some s => .ok s
        | none => .error .notText

/-! ## Writing -/

/-- Makes a directory in one that is there, unless it is there itself. -/
def ensureDirectory (m : Memory) (origin : List String) (above : List Step) (last : Step) :
    Except FileFault Memory := do
  let place ← m.step (← m.walk origin above) last
  match m.find? place with
  | some .directory => .ok m
  | some (.file _) => .error .alreadyExists
  | none => .ok (m.put place .directory)

/-- Makes a directory with those that it lies in, where they are missing. The steps to it are given
from the last one on. -/
def createDirectories (m : Memory) (origin : List String) : List Step → Except FileFault Memory
  | [] => .ok m
  | last :: rest =>
      match m.ensureDirectory origin rest.reverse last with
      | .error .missing => do
          (← m.createDirectories origin rest).ensureDirectory origin rest.reverse last
      | outcome => outcome

/-- Writes a file in a directory that is made where it is missing. -/
def storeFile (m : Memory) (path : String) (bytes : ByteArray) : Except FileFault Memory := do
  let p ← pathOf path
  let origin := m.start p
  let m ← m.createDirectories origin p.parent.steps.reverse
  match p.steps.getLast? with
  | none => .error .isDirectory
  | some last =>
      let above ← m.walk origin p.steps.dropLast
      if p.endsInSlash && m.isDirectory above then .error .isDirectory
      else
        let place ← m.step above last
        if m.isDirectory place then .error .isDirectory else .ok (m.put place (.file bytes))

/-- Makes an empty file in a directory that is made where it is missing. -/
def createFile (m : Memory) (path : String) : Except FileFault Memory := m.storeFile path .empty

/-- Adds text to a file. -/
def appendText (m : Memory) (path text : String) : Except FileFault Memory := do
  let p ← pathOf path
  let place ← m.walk (m.start p) p.steps
  match m.find? place with
  | some (.file bytes) => .ok (m.put place (.file (bytes ++ text.toUTF8)))
  | some .directory => .error .isDirectory
  | none => .error .missing

/-! ## The host -/

/-- Runs an operation that may fail; a failure leaves the memory as it is. -/
def attempt (f : Memory → Except FileFault Memory) : StateM Memory (Except FileFault Unit) :=
  fun m =>
    match f m with
    | .ok m => (.ok (), m)
    | .error fault => (.error fault, m)

/-- The host of a memory, with a clock that stands still. -/
def host (wording : Wording) (environment : String → Option String) (now : Int)
    (timestamp id : String) (seed : Nat) : Host (StateM Memory) where
  wording := wording
  setting name := return environment name
  readText path := do return (← get).readText path
  createFile path := attempt fun m => m.createFile path
  appendText path text := attempt fun m => m.appendText path text
  print text := modify fun m => { m with output := m.output ++ text }
  complain text := modify fun m => { m with errors := m.errors ++ text }
  now := return now
  timestamp := return timestamp
  freshId := return id
  freshSeed := return seed

end Memory

end PokerHand
