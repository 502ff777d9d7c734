import PokerHand.Hand.Call
import PokerHand.Text.Blank
import PokerHand.Text.Numeral

/-!
# Scripts

A script has one betting action per line. What follows a `#` is a comment, and lines with nothing
else are skipped. Verbs may be written in either case; bets and raises take one amount.
-/
namespace PokerHand

inductive ScriptAction where
  | check
  | call
  | fold
  | allin
  | bet (chips : Int)
  /-- Raising to this wager. -/
  | raise (level : Int)
  deriving DecidableEq

/-- An action with the number of its line, from one. -/
structure ScriptLine where
  line : Nat
  action : ScriptAction
  deriving DecidableEq

/-- Why a line is no action. -/
inductive ScriptFault where
  | trailing (content : String)
  | noAmount (verb : String)
  | badAmount (text : String)
  | unrecognized (content : String)
  deriving DecidableEq

def ScriptFault.message : ScriptFault → String
  | trailing content => s!"unexpected trailing input in '{content}'"
  | noAmount verb => s!"'{verb}' needs an amount"
  | badAmount text => s!"invalid amount '{text}'"
  | unrecognized content => s!"unrecognized action '{content}'"

namespace ScriptAction

/-- The written form of an action. -/
def text : ScriptAction → String
  | check => "check"
  | call => "call"
  | fold => "fold"
  | allin => "allin"
  | bet chips => s!"bet {chips}"
  | raise level => s!"raise {level}"

/-- The call that the action makes for a seat. -/
def toCall (seat : Nat) : ScriptAction → Call
  | check => .check seat
  | call => .call seat
  | fold => .fold seat
  | allin => .allin seat
  | bet chips => .bet seat chips
  | raise level => .raise seat level

/-- Reads the amount of a bet or raise. -/
def readAmount (text : List Char) : Except ScriptFault Int :=
  match Text.Numeral.amount? text with
  | some n => .ok n
  | none => .error (.badAmount (String.ofList text))

/-- The action that a verb in lower case and at most one amount make; `content` is quoted when
they make none. -/
def ofVerb (content verb : List Char) (amount : Option (List Char)) :
    Except ScriptFault ScriptAction :=
  match String.ofList verb, amount with
  | "check", none => .ok check
  | "call", none => .ok call
  | "fold", none => .ok fold
  | "allin", none => .ok allin
  | "all-in", none => .ok allin
  | "bet", some text => (readAmount text).map bet
  | "raise", some text => (readAmount text).map raise
  | "bet", none => .error (.noAmount "bet")
  | "raise", none => .error (.noAmount "raise")
  | _, _ => .error (.unrecognized (String.ofList content))

/-- Reads a line without comment and outer blanks. -/
def read (content : List Char) : Except ScriptFault ScriptAction :=
  match Text.words content with
  | [] => ofVerb content [] none
  | [verb] => ofVerb content (Text.lower verb) none
  | [verb, amount] => ofVerb content (Text.lower verb) (some amount)
  | _ => .error (.trailing (String.ofList content))

end ScriptAction

namespace Script

/-- A line without its comment and without blanks around it. -/
def content (line : List Char) : List Char := Text.trim (line.takeWhile fun c => c != '#')

/-- Reads lines that are numbered from `n`; a refusal names its line. -/
def readLines : Nat → List (List Char) → Except (Nat × ScriptFault) (List ScriptLine)
  | _, [] => .ok []
  | n, line :: rest =>
      let c := content line
      if c.isEmpty then readLines (n + 1) rest
      else
        match ScriptAction.read c with
        | .error fault => .error (n, fault)
        | .ok action => (readLines (n + 1) rest).map (⟨n, action⟩ :: ·)

/-- Reads a whole script. -/
def read (text : String) : Except (Nat × ScriptFault) (List ScriptLine) :=
  readLines 1 (Text.lines text.toList)

end Script

end PokerHand
