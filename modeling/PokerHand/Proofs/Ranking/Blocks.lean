import Mathlib.Data.List.Basic
import PokerHand.Ranking.MadeHand

/-!
# Blocks of scores

An order gives every category a block of scores, and the blocks of stronger categories lie above
those of weaker ones. So two scores compare as their categories do, and as their places within the
block when the categories are the same (`Order.score_lt_iff`). Within a block the digits of equally
many ranks compare as the lists of ranks do (`MadeHand.digitsValue_lt_iff`).
-/
namespace PokerHand

namespace Category

theorem slotSum_append (xs ys : List Category) :
    slotSum (xs ++ ys) = slotSum xs + slotSum ys := by
  induction xs with
  | nil => exact (Nat.zero_add _).symm
  | cons c rest ih => simp only [List.cons_append, slotSum, ih, Nat.add_assoc]

end Category

namespace Order

variable {order : Order} {c d : Category} {x y : Nat}

theorem mem_ranking (order : Order) (c : Category) : c ∈ order.ranking :=
  order.complete.2 c c.mem_all

theorem idxOf_lt (order : Order) (c : Category) : order.ranking.idxOf c < order.ranking.length :=
  List.idxOf_lt_length_of_mem (order.mem_ranking c)

theorem offset_eq (order : Order) (c : Category) :
    order.offset c = Category.slotSum (order.ranking.drop (order.ranking.idxOf c + 1)) := by
  have hplace : (order.ranking.findIdx fun d => !(d != c)) = order.ranking.idxOf c := by
    rw [List.idxOf]
    congr 1
    funext d
    simp [bne]
  rw [offset, List.dropWhile_eq_drop_findIdx_not, hplace, List.drop_drop]

/-- The block of a category ends below the blocks of all that are stronger. -/
theorem offset_add_slotSize_le (hlt : order.ranking.idxOf d < order.ranking.idxOf c) :
    order.offset c + c.slotSize ≤ order.offset d := by
  obtain ⟨gap, hgap⟩ := Nat.exists_eq_add_of_lt hlt
  have hbehind : order.ranking.drop (order.ranking.idxOf c) =
      c :: order.ranking.drop (order.ranking.idxOf c + 1) := by
    rw [List.drop_eq_getElem_cons (order.idxOf_lt c), List.getElem_idxOf]
  have hdrop : order.ranking.idxOf d + 1 + gap = order.ranking.idxOf c := by omega
  have hsplit := List.take_append_drop gap (order.ranking.drop (order.ranking.idxOf d + 1))
  rw [List.drop_drop, hdrop] at hsplit
  rw [offset_eq order d, ← hsplit, hbehind, Category.slotSum_append, Category.slotSum,
    offset_eq order c]
  omega

/-- The stronger category wins, and within a category the place in its block. -/
theorem score_lt_iff (hx : x < c.slotSize) (hy : y < d.slotSize) :
    order.offset c + x < order.offset d + y ↔
      order.ranking.idxOf d < order.ranking.idxOf c ∨ c = d ∧ x < y := by
  rcases Nat.lt_trichotomy (order.ranking.idxOf d) (order.ranking.idxOf c) with hlt | heq | hgt
  · have hbelow := offset_add_slotSize_le hlt
    exact ⟨fun _ => .inl hlt, fun _ => by omega⟩
  · obtain rfl := (List.idxOf_inj (order.mem_ranking d)).1 heq
    simp
  · have habove := offset_add_slotSize_le hgt
    refine ⟨fun h => by omega, ?_⟩
    rintro (hlt | ⟨rfl, -⟩) <;> omega

theorem score_eq_iff (hx : x < c.slotSize) (hy : y < d.slotSize) :
    order.offset c + x = order.offset d + y ↔ c = d ∧ x = y := by
  rcases Nat.lt_trichotomy (order.ranking.idxOf d) (order.ranking.idxOf c) with hlt | heq | hgt
  · have hbelow := offset_add_slotSize_le hlt
    refine ⟨fun h => by omega, ?_⟩
    rintro ⟨rfl, -⟩
    omega
  · obtain rfl := (List.idxOf_inj (order.mem_ranking d)).1 heq
    simp
  · have habove := offset_add_slotSize_le hgt
    refine ⟨fun h => by omega, ?_⟩
    rintro ⟨rfl, -⟩
    omega

end Order

namespace MadeHand

/-- Numbers below and at a unit compare as their leading digit does, then as the rest does. -/
theorem digit_lt_iff {unit a b x y : Nat} (hx : x < unit) (hy : y < unit) :
    a * unit + x < b * unit + y ↔ a < b ∨ a = b ∧ x < y := by
  rcases Nat.lt_trichotomy a b with hlt | rfl | hgt
  · have hstep : (a + 1) * unit ≤ b * unit := Nat.mul_le_mul_right unit hlt
    rw [Nat.succ_mul] at hstep
    exact ⟨fun _ => .inl hlt, fun _ => by omega⟩
  · simp
  · have hstep : (b + 1) * unit ≤ a * unit := Nat.mul_le_mul_right unit hgt
    rw [Nat.succ_mul] at hstep
    exact ⟨fun h => by omega, fun h => by omega⟩

/-- What the values of ranks satisfy. -/
def RankValues (values : List Nat) : Prop := ∀ v ∈ values, 2 ≤ v ∧ v ≤ 14

theorem digitsValue_lt {values : List Nat} (hvalues : RankValues values) (n : Nat) :
    digitsValue n values < Nat.pow 13 n := by
  induction n generalizing values with
  | zero => exact Nat.one_pos
  | succ n ih =>
      have hunit : Nat.pow 13 (n + 1) = Nat.pow 13 n * 13 := rfl
      cases values with
      | nil =>
          have hpos : digitsValue n [] < Nat.pow 13 n := ih hvalues
          simp only [digitsValue, hunit]
          omega
      | cons v rest =>
          have hrest := ih fun w hw => hvalues w (List.mem_cons_of_mem v hw)
          have hdigit : v - 2 ≤ 12 := by have := hvalues v List.mem_cons_self; omega
          have hlead := Nat.mul_le_mul_right (Nat.pow 13 n) hdigit
          simp only [digitsValue, hunit]
          omega

theorem digitsValue_lt_iff {n : Nat} {vs ws : List Nat} (hvs : RankValues vs)
    (hws : RankValues ws) (hlength : vs.length = ws.length) (hn : vs.length ≤ n) :
    digitsValue n vs < digitsValue n ws ↔ vs < ws := by
  induction vs generalizing n ws with
  | nil =>
      obtain rfl := List.eq_nil_of_length_eq_zero hlength.symm
      simp
  | cons v vs ih =>
      cases ws with
      | nil => simp at hlength
      | cons w ws =>
          cases n with
          | zero => simp at hn
          | succ n =>
              obtain ⟨hv, hvs⟩ := List.forall_mem_cons.1 hvs
              obtain ⟨hw, hws⟩ := List.forall_mem_cons.1 hws
              have hrest := ih hvs hws (by simpa using hlength) (by simpa using hn)
              have hless : v - 2 < w - 2 ↔ v < w := by omega
              have hsame : v - 2 = w - 2 ↔ v = w := by omega
              rw [digitsValue, digitsValue, List.cons_lt_cons_iff,
                digit_lt_iff (digitsValue_lt hvs n) (digitsValue_lt hws n), hrest, hless, hsame]

end MadeHand

end PokerHand
