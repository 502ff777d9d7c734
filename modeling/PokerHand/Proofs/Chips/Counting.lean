import Mathlib.Algebra.Order.BigOperators.Group.List
import Mathlib.Algebra.Order.Group.Int
import Mathlib.Algebra.Ring.Int.Defs
import PokerHand.Chips.Counting

/-!
# Counting within bounds

Whatever is counted is counted exactly as long as it stays within a bound up to which the way of
counting leaves amounts alone. Words leave alone what they hold.
-/
namespace PokerHand.Counting

/-- Amounts are left alone as far as `bound` on both sides of zero. -/
class Upto [Counting] (bound : Int) : Prop where
  leaves {x : Int} (hlow : -bound ≤ x) (hhigh : x ≤ bound) : fit x = x

/-- A way of counting that leaves alone what a word holds on both sides of zero, whatever it makes
of the rest. -/
abbrev Faithful [Counting] : Prop := Upto 9223372036854775807

instance faithful_words : @Faithful words :=
  @Upto.mk words _ fun hlow hhigh => Int.bmod_eq_of_le_mul_two (by omega) (by omega)

/-- Counts in whole numbers, none of which is too large. -/
abbrev whole : Counting := ⟨fun x => x⟩

@[simp] theorem fit_whole (x : Int) : @fit whole x = x := rfl

instance upto_whole (bound : Int) : @Upto whole bound :=
  @Upto.mk whole bound fun _ _ => rfl

section Bounded

variable [Counting] {bound : Int}

theorem Upto.mono {smaller : Int} (hcount : Upto bound) (hle : smaller ≤ bound) : Upto smaller :=
  ⟨fun hlow hhigh => hcount.leaves (by omega) (by omega)⟩

theorem fit_eq (bound : Int) [hcount : Upto bound] {x : Int} (hlow : -bound ≤ x)
    (hhigh : x ≤ bound) : fit x = x :=
  hcount.leaves hlow hhigh

variable [Upto bound]

/-- Amounts that are not negative are added up exactly as long as their sum is within the bound. -/
theorem total_eq_sum {xs : List Int} (hnonneg : ∀ x ∈ xs, 0 ≤ x) (hsum : xs.sum ≤ bound) :
    total xs = xs.sum := by
  suffices hfrom : ∀ sum, 0 ≤ sum → sum + xs.sum ≤ bound →
      xs.foldl (fun sum x => fit (sum + x)) sum = sum + xs.sum by
    have hzero := hfrom 0 (Int.le_refl 0) (by omega)
    rwa [Int.zero_add] at hzero
  clear hsum
  induction xs with
  | nil => exact fun sum _ _ => (Int.add_zero sum).symm
  | cons x xs ih =>
      intro sum hpos hle
      have hx := hnonneg x List.mem_cons_self
      have hrest : ∀ y ∈ xs, 0 ≤ y := fun y hy => hnonneg y (List.mem_cons_of_mem _ hy)
      have hxs := List.sum_nonneg hrest
      rw [List.sum_cons] at hle ⊢
      have hfit : fit (sum + x) = sum + x := fit_eq bound (by omega) (by omega)
      rw [List.foldl_cons, hfit, ih hrest (sum + x) (by omega) (by omega)]
      omega

end Bounded

end PokerHand.Counting
