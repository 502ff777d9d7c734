import Mathlib.Data.Prod.Lex
import PokerHand.Hand.State
import PokerHand.Proofs.Chips.Sums
import PokerHand.Proofs.Gate.Tasks

/-!
# What is left to happen at a phase

While a hand rests at the same phase, each call that succeeds satisfies an entry of the gate, or
brings chips into play, or folds a hand, or lets a seat act that had not acted. `Hand.tally` counts
these in this order, so it falls with every such call although a raise makes seats act again.
-/
namespace PokerHand.Hand

variable {h h' : Hand} {f : Seat → Seat}

/-- The chips that players can still bring into play. -/
def behind (h : Hand) : Nat := (h.seats.map fun s : Seat => max s.stack 0).sum.toNat

/-- How many seats have not acted since the last full raise. -/
def yetToAct (h : Hand) : Nat := h.seats.countP fun s => !s.acted

/-- What is left to happen, first things first. -/
def tally (h : Hand) : Nat ×ₗ Nat ×ₗ Nat ×ₗ Nat :=
  toLex (Queue.openEntries h.tasks, toLex (h.behind, toLex (h.unfolded, h.yetToAct)))

/-- Satisfying an entry outweighs everything else. -/
theorem tally_lt_of_openEntries (hlt : Queue.openEntries h'.tasks < Queue.openEntries h.tasks) :
    h'.tally < h.tally :=
  Prod.Lex.toLex_lt_toLex.2 (.inl hlt)

theorem behind_map (hseats : h'.seats = h.seats.map f)
    (hstack : ∀ s ∈ h.seats, (f s).stack = s.stack) : h'.behind = h.behind := by
  have hsum := sum_map_congr fun s hs => congrArg (max · 0) (hstack s hs)
  simp only [behind, hseats, List.map_map, Function.comp_def]
  exact congrArg Int.toNat hsum

theorem tally_congr (htasks : h'.tasks = h.tasks) (hseats : h'.seats = h.seats.map f)
    (hf : ∀ s, (f s).stack = s.stack ∧ (f s).folded = s.folded ∧ (f s).acted = s.acted) :
    h'.tally = h.tally := by
  have hbehind : h'.behind = h.behind := behind_map hseats fun s _ => (hf s).1
  have hunfolded : h'.unfolded = h.unfolded := by
    simp only [unfolded, hseats, List.countP_map, Function.comp_def, (hf _).2.1]
  have hyet : h'.yetToAct = h.yetToAct := by
    simp only [yetToAct, hseats, List.countP_map, Function.comp_def, (hf _).2.2]
  rw [tally, tally, htasks, hbehind, hunfolded, hyet]

section Seats

variable (htasks : h'.tasks = h.tasks) (hseats : h'.seats = h.seats.map f) {s : Seat}
  (hs : s ∈ h.seats)

include htasks hseats hs

theorem tally_lt_of_chips
    (hstack : ∀ r ∈ h.seats, max (f r).stack 0 ≤ max r.stack 0)
    (hlt : max (f s).stack 0 < max s.stack 0) : h'.tally < h.tally := by
  have hsum : (h.seats.map fun r => max (f r).stack 0).sum <
      (h.seats.map fun r => max r.stack 0).sum :=
    List.sum_lt_sum _ _ hstack ⟨s, hs, hlt⟩
  have hnonneg : 0 ≤ (h.seats.map fun r => max (f r).stack 0).sum :=
    List.sum_nonneg (List.forall_mem_map.2 fun _ _ => Int.le_max_right _ _)
  have hbehind : h'.behind < h.behind := by
    simp only [behind, hseats, List.map_map, Function.comp_def]
    omega
  refine Prod.Lex.toLex_lt_toLex.2 (.inr ⟨congrArg Queue.openEntries htasks, ?_⟩)
  exact Prod.Lex.toLex_lt_toLex.2 (.inl hbehind)

theorem tally_lt_of_fold (hstack : ∀ r ∈ h.seats, (f r).stack = r.stack)
    (hfolded : ∀ r ∈ h.seats, r.folded = true → (f r).folded = true) (hlive : s.folded = false)
    (hfold : (f s).folded = true) : h'.tally < h.tally := by
  have hbehind : h'.behind = h.behind := behind_map hseats hstack
  have hunfolded : h'.unfolded < h.unfolded := by
    rw [unfolded, unfolded, hseats, List.countP_map]
    refine countP_lt (fun r hr hopen => ?_) hs (by simp [hlive]) (by simp [hfold])
    cases hr' : r.folded with
    | false => rfl
    | true => simp [hfolded r hr hr'] at hopen
  refine Prod.Lex.toLex_lt_toLex.2 (.inr ⟨congrArg Queue.openEntries htasks, ?_⟩)
  refine Prod.Lex.toLex_lt_toLex.2 (.inr ⟨hbehind, ?_⟩)
  exact Prod.Lex.toLex_lt_toLex.2 (.inl hunfolded)

theorem tally_lt_of_acted
    (hsame : ∀ r ∈ h.seats, (f r).stack = r.stack ∧ (f r).folded = r.folded)
    (hacted : ∀ r ∈ h.seats, r.acted = true → (f r).acted = true) (hbefore : s.acted = false)
    (hafter : (f s).acted = true) : h'.tally < h.tally := by
  have hbehind : h'.behind = h.behind := behind_map hseats fun r hr => (hsame r hr).1
  have hunfolded : h'.unfolded = h.unfolded := by
    rw [unfolded, unfolded, hseats, List.countP_map]
    exact List.countP_congr fun r hr => by simp [(hsame r hr).2]
  have hyet : h'.yetToAct < h.yetToAct := by
    rw [yetToAct, yetToAct, hseats, List.countP_map]
    refine countP_lt (fun r hr hopen => ?_) hs (by simp [hbefore]) (by simp [hafter])
    cases hr' : r.acted with
    | false => rfl
    | true => simp [hacted r hr hr'] at hopen
  refine Prod.Lex.toLex_lt_toLex.2 (.inr ⟨congrArg Queue.openEntries htasks, ?_⟩)
  refine Prod.Lex.toLex_lt_toLex.2 (.inr ⟨hbehind, ?_⟩)
  exact Prod.Lex.toLex_lt_toLex.2 (.inr ⟨hunfolded, hyet⟩)

end Seats

end PokerHand.Hand
