import PokerHand.Hand.Flow
import PokerHand.Proofs.Table

/-!
# What is read of the seats

Who deals, what is owed, what lies in the pot and whose turn it is are read off who sits where with
which chips, and off who has acted. Seats that are alike in these are read alike.
-/
namespace PokerHand

namespace Turn

variable {f : Seat → Seat}

theorem nextMovable_map (hf : ∀ s, Seat.Alike s (f s)) (seats : List Seat) (start : Nat) :
    nextMovable (seats.map f) start = nextMovable seats start := by
  have hmovable : ∀ s, (f s).isMovable = s.isMovable := fun s => (hf s).isMovable
  simp only [nextMovable, List.length_map, List.getElem?_map, Option.any_map, hmovable]

theorem isClosed_map (hf : ∀ s, Seat.Alike s (f s)) (hacted : ∀ s, (f s).acted = s.acted)
    (seats : List Seat) (wager : Int) (candidate : Option Nat) :
    isClosed (seats.map f) wager candidate = isClosed seats wager candidate := by
  have hwager : ∀ s, (f s).wager = s.wager := fun s => (hf s).wager
  have hunfolded : (seats.map f).countP (fun s => !s.folded) = seats.countP fun s => !s.folded := by
    simp only [List.countP_map, Function.comp_def, (hf _).folded]
  have hmovable : (seats.map f).filter Seat.isMovable = (seats.filter Seat.isMovable).map f := by
    simp only [List.filter_map, Function.comp_def, (hf _).isMovable]
  have hdone : isDone (seats.map f) wager candidate = isDone seats wager candidate := by
    cases candidate with
    | none => rfl
    | some place =>
        simp only [isDone, List.getElem?_map, Option.all_map, hacted, hwager]
  rw [isClosed, isClosed, hunfolded, hmovable, hdone]
  cases seats.filter Seat.isMovable with
  | nil => rfl
  | cons s rest =>
      cases rest with
      | nil => simp only [List.map_cons, List.map_nil, hwager]
      | cons _ _ => rfl

end Turn

namespace Hand

variable {h h' : Hand} {f : Seat → Seat}

theorem map_alike {α : Type} {field : Seat → α} (hseats : h'.seats = h.seats.map f)
    (hfield : ∀ s, field (f s) = field s) : h'.seats.map field = h.seats.map field := by
  rw [hseats, List.map_map]
  exact List.map_congr_left fun s _ => hfield s

variable (hseats : h'.seats = h.seats.map f) (hf : ∀ s, Seat.Alike s (f s))

include hseats hf

theorem dealerSeat_alike : h'.dealerSeat = h.dealerSeat := by
  have hholds : ∀ s, (f s).holds .dealer = s.holds .dealer := fun s =>
    congrArg (fun e => e.positions.contains .dealer) (hf s).entry
  simp only [dealerSeat, hseats, List.findIdx?_map, Function.comp_def, hholds]

theorem poster_alike :
    (h'.seats.find? fun s => s.holds .bigBlind && s.wager > 0).map Seat.number =
      (h.seats.find? fun s => s.holds .bigBlind && s.wager > 0).map Seat.number := by
  have hholds : ∀ s, (f s).holds .bigBlind = s.holds .bigBlind := fun s =>
    congrArg (fun e => e.positions.contains .bigBlind) (hf s).entry
  simp only [hseats, List.find?_map, Option.map_map, Function.comp_def, hholds, (hf _).wager,
    (hf _).number]

theorem dues_alike {chosen : Seat → Bool} (hchosen : ∀ s, chosen (f s) = chosen s)
    (amount : Int) : h'.dues chosen amount = h.dues chosen amount := by
  simp only [dues, hseats, List.filter_map, List.map_map, Function.comp_def, hchosen,
    (hf _).number, (hf _).stack]

theorem blindTasks_alike (hblinds : h'.terms.blinds = h.terms.blinds) :
    h'.blindTasks = h.blindTasks := by
  have hdues : ∀ position amount, h'.dues (fun s => s.holds position) amount =
      h.dues (fun s => s.holds position) amount := fun position amount =>
    dues_alike hseats hf
      (fun s => congrArg (fun e => e.positions.contains position) (hf s).entry) amount
  simp only [blindTasks, blindTask, hdues, hblinds]

theorem contributions_alike : h'.contributions = h.contributions := by
  simp only [contributions, hseats, List.foldl_map, (hf _).number, (hf _).pot, (hf _).folded]

end Hand

end PokerHand
