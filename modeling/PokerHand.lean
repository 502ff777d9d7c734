import PokerHand.Host.Memory
import PokerHand.LogFilter
import PokerHand.Main
import PokerHand.Proofs.Advance
import PokerHand.Proofs.Betting.Offers
import PokerHand.Proofs.Closing
import PokerHand.Proofs.Confluence
import PokerHand.Proofs.Conservation
import PokerHand.Proofs.Deal
import PokerHand.Proofs.Fairness
import PokerHand.Proofs.Gate.Completion
import PokerHand.Proofs.LiveOdds
import PokerHand.Proofs.Overdraft
import PokerHand.Proofs.Payout
import PokerHand.Proofs.Permission
import PokerHand.Proofs.PhaseOrder
import PokerHand.Proofs.PotLimit
import PokerHand.Proofs.Pots
import PokerHand.Proofs.Progress
import PokerHand.Proofs.Ranking.Arrangement
import PokerHand.Proofs.Ranking.Separation
import PokerHand.Proofs.Ranking.Strength
import PokerHand.Proofs.Reopening
import PokerHand.Proofs.Safety
import PokerHand.Proofs.Secrecy
import PokerHand.Proofs.Settings
import PokerHand.Proofs.Showdown
import PokerHand.Proofs.ShownHands
import PokerHand.Proofs.SidePots
import PokerHand.Proofs.Snapshots
import PokerHand.Proofs.Termination
import PokerHand.Proofs.Ranking.Enumeration
import PokerHand.Proofs.CardList
import PokerHand.Proofs.Shuffle
import PokerHand.Proofs.Script
