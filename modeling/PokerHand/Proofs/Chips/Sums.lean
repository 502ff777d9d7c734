import PokerHand.Proofs.Chips.Counting
import PokerHand.Chips.Payout

/-!
# Sums of chips over lists

The sums that the pots and the payout are made of: sums over two amounts, over chosen entries, over
the seats of a table, and the shares of a pot.
-/
namespace PokerHand

variable {α β : Type}

theorem sum_map_sub (f g : α → Int) (xs : List α) :
    (xs.map fun x => f x - g x).sum = (xs.map f).sum - (xs.map g).sum := by
  have hadd : (xs.map fun x => f x - g x + g x).sum =
      (xs.map fun x => f x - g x).sum + (xs.map g).sum := List.sum_map_add
  simp only [Int.sub_add_cancel] at hadd
  exact eq_sub_of_add_eq hadd.symm

theorem sum_map_congr {f g : α → Int} {xs : List α} (h : ∀ x ∈ xs, f x = g x) :
    (xs.map f).sum = (xs.map g).sum := by
  rw [List.map_congr_left h]

/-- No entry exceeds a sum of amounts of which none is negative. -/
theorem le_sum_map {f : α → Int} {xs : List α} (h : ∀ x ∈ xs, 0 ≤ f x) {y : α} (hy : y ∈ xs) :
    f y ≤ (xs.map f).sum :=
  List.single_le_sum (List.forall_mem_map.2 h) _ (List.mem_map_of_mem hy)

/-- The same amount for every chosen entry. -/
theorem sum_ite_const (p : α → Bool) (chips : Int) (xs : List α) :
    (xs.map fun x => if p x then chips else 0).sum = chips * (xs.filter p).length := by
  induction xs with
  | nil => simp
  | cons x xs ih =>
      by_cases h : p x
      · simp only [List.map_cons, List.sum_cons, ih, h, if_true, List.filter_cons_of_pos,
          List.length_cons, Int.natCast_add, Int.mul_add]
        omega
      · simp [ih, h]

/-- Entries without chips can be left out. -/
theorem sum_filter (f : α → Int) (p : α → Bool) (xs : List α)
    (h : ∀ x ∈ xs, p x = false → f x = 0) : ((xs.filter p).map f).sum = (xs.map f).sum := by
  induction xs with
  | nil => rfl
  | cons x xs ih =>
      have ih := ih fun y hy => h y (List.mem_cons_of_mem _ hy)
      cases hp : p x with
      | true => simp [hp, ih]
      | false => simp [hp, ih, h x List.mem_cons_self hp]

/-- A sum over two lists can be taken in either order. -/
theorem sum_comm (f : α → β → Int) (xs : List α) (ys : List β) :
    (xs.map fun x => (ys.map (f x)).sum).sum =
      (ys.map fun y => (xs.map fun x => f x y).sum).sum := by
  induction xs with
  | nil => exact List.sum_map_zero.symm
  | cons x xs ih => simp only [List.map_cons, List.sum_cons, ih, List.sum_map_add]

/-- One seat of several different ones gets the chips. -/
theorem sum_ite_eq {seats : List Nat} (hnodup : seats.Nodup) {seat : Nat} (hmem : seat ∈ seats)
    (chips : Int) : (seats.map fun s => if seat = s then chips else 0).sum = chips := by
  have hsum := List.sum_map_ite_eq seats (fun _ => chips) (fun _ => 0) seat
  simpa [hnodup.count, hmem, eq_comm] using hsum

namespace Payout

/-- The first `rest` of the seats get a chip more than `each`. -/
theorem sum_uneven (each rest : Int) (seats : List Nat) :
    ((seats.mapIdx fun i seat =>
      (⟨seat, each + if (i : Int) < rest then 1 else 0⟩ : Winner)).map Winner.withdraw).sum =
      each * seats.length + min (max rest 0) seats.length := by
  induction seats generalizing rest with
  | nil =>
      simp only [List.mapIdx_nil, List.map_nil, List.sum_nil, List.length_nil]
      omega
  | cons s seats ih =>
      have hshift : ∀ i : Nat, ((i + 1 : Nat) : Int) < rest ↔ (i : Int) < rest - 1 := by
        intro i
        omega
      have hrest := ih (rest - 1)
      simp only [List.mapIdx_cons, List.map_cons, List.sum_cons, hshift, hrest]
      rw [List.length_cons, Int.natCast_add, Int.mul_add]
      split <;> omega

end Payout

end PokerHand
