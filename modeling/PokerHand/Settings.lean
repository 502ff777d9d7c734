import PokerHand.Hand.Terms
import PokerHand.Shuffle
import PokerHand.Text.Blank

/-!
# Settings

Settings choose the deck, the stakes and the table of a hand. Settings that pass `Settings.check`
always make a setup that can be played.
-/
namespace PokerHand

/-- Which deck a hand is played with. -/
inductive Variant where
  | standard
  | short
  deriving DecidableEq

namespace Variant

def all : List Variant := [standard, short]

def name : Variant → String
  | standard => "standard"
  | short => "short"

def ofName? (s : String) : Option Variant := all.find? fun v => v.name == s

/-- Reads a name in either case. -/
def ofText? (s : String) : Option Variant := ofName? (String.ofList (Text.lower s.toList))

/-- The terms of a hand with this deck. -/
def terms : Variant → Terms
  | standard => .standard
  | short => .shortDeck

end Variant

structure Settings where
  seed : Option Nat
  ante : Int
  smallBlind : Int
  bigBlind : Int
  variant : Variant
  players : Nat
  bankroll : Int
  deriving DecidableEq

/-- What is wrong with settings. -/
inductive SettingsFault where
  | badVariable (name value : String)
  | badVariant (value : String)
  | playersOutOfRange
  | noBankroll
  | negativeStake
  deriving DecidableEq

/-- The largest table. -/
def maxPlayers : Nat := 10

def SettingsFault.message : SettingsFault → String
  | badVariable name value => s!"Invalid {name} '{value}'"
  | badVariant value =>
      s!"Invalid HOLDEM_VARIANT '{value}': expected standard or short"
  | playersOutOfRange =>
      s!"Invalid configuration: players must be between 2 and {maxPlayers}"
  | noBankroll => "Invalid configuration: bankroll must be >0"
  | negativeStake => "Invalid configuration: ante and blinds must be >=0"

namespace Settings

/-- Two players with a thousand chips each and blinds of five and ten. -/
def preset : Settings where
  seed := none
  ante := 0
  smallBlind := 5
  bigBlind := 10
  variant := .standard
  players := 2
  bankroll := 1000

/-- Refuses settings that make no playable hand. -/
def check (s : Settings) : Except SettingsFault Unit :=
  if s.players < 2 ∨ s.players > maxPlayers then .error .playersOutOfRange
  else if s.bankroll ≤ 0 then .error .noBankroll
  else if s.ante < 0 ∨ s.smallBlind < 0 ∨ s.bigBlind < 0 then .error .negativeStake
  else .ok ()

/-- The setup for one hand with a deck shuffled by `seed`. -/
def setup (s : Settings) (seed : UInt64) : Setup where
  terms := { s.variant.terms with
    ante := s.ante
    blinds := ⟨0, s.smallBlind, s.bigBlind⟩
    deck := Shuffle.shuffled s.variant.terms.deck seed }
  players := Setup.entries s.players s.bankroll

end Settings

end PokerHand
