import PokerHand.Hand.Terms

/-!
# What forced bets leave of a stack

Antes and blinds are paid one after the other, each as far as the stack went when it was asked for.
Only a seat without any chips is excused, so a seat that owes several blinds can pay more than it
has. `Terms.afterBlinds` says what is left then.
-/
namespace PokerHand

/-- What dues leave of `left` chips when they are paid in order; a seat without chips pays none. -/
def leftAfter : Int → List Int → Int
  | left, [] => left
  | left, due :: dues => leftAfter (if left = 0 then 0 else left - due) dues

@[simp] theorem leftAfter_nil (left : Int) : leftAfter left [] = left := rfl

@[simp] theorem leftAfter_zero (dues : List Int) : leftAfter 0 dues = 0 := by
  induction dues with
  | nil => rfl
  | cons due dues ih => simp [leftAfter, ih]

theorem leftAfter_cons {left : Int} (h : left ≠ 0) (due : Int) (dues : List Int) :
    leftAfter left (due :: dues) = leftAfter (left - due) dues := by
  simp [leftAfter, h]

/-- An overdrawn stack does not recover. -/
theorem leftAfter_le {left : Int} {dues : List Int} (hleft : left < 0)
    (hdues : ∀ due ∈ dues, 0 ≤ due) : leftAfter left dues ≤ left := by
  induction dues generalizing left with
  | nil => exact Int.le_refl left
  | cons due dues ih =>
      have hdue := hdues due List.mem_cons_self
      have hrest := @ih (left - due) (by omega) fun d hd =>
        hdues d (List.mem_cons_of_mem _ hd)
      rw [leftAfter_cons (by omega)]
      omega

/-- Dues of at most `most` overdraw a stack by no more than that for each of them. -/
theorem le_leftAfter {left most : Int} (hmost : 0 ≤ most) {dues : List Int}
    (hdues : ∀ due ∈ dues, due ≤ most) :
    min left 0 - most * dues.length ≤ leftAfter left dues := by
  induction dues generalizing left with
  | nil =>
      simp only [List.length_nil, leftAfter_nil]
      omega
  | cons due dues ih =>
      have hdue := hdues due List.mem_cons_self
      have hrest := @ih (if left = 0 then 0 else left - due) fun d hd =>
        hdues d (List.mem_cons_of_mem _ hd)
      rw [List.length_cons, Int.natCast_add, Int.mul_add, leftAfter]
      refine Int.le_trans ?_ hrest
      split <;> omega

namespace Terms

/-- What the ante leaves of a bankroll. -/
def afterAnte (t : Terms) (bankroll : Int) : Int := bankroll - min t.ante bankroll

/-- The positive blinds that a holder of `positions` posts, in the order in which they are
asked for. -/
def blindsOf (t : Terms) (positions : List Position) : List Int :=
  ([(Position.dealer, t.blinds.dealer), (.smallBlind, t.blinds.small),
    (.bigBlind, t.blinds.big)].filter fun b => positions.contains b.1 && b.2 > 0).map Prod.snd

/-- What the ante and the blinds leave of a player's bankroll. -/
def afterBlinds (t : Terms) (e : Entry) : Int :=
  let stack := t.afterAnte e.bankroll
  leftAfter stack ((t.blindsOf e.positions).map fun blind => min blind stack)

theorem afterAnte_nonneg (t : Terms) (bankroll : Int) : 0 ≤ t.afterAnte bankroll := by
  unfold afterAnte
  omega

/-- Without an ante every bankroll stays whole. -/
theorem afterAnte_of_zero {t : Terms} (hante : t.ante = 0) {bankroll : Int} (hpos : 0 < bankroll) :
    t.afterAnte bankroll = bankroll := by
  rw [afterAnte, hante]
  omega

/-- Nobody posts anything when no blind is positive. -/
theorem blindsOf_of_none {t : Terms} (h : t.blinds.anyPositive = false)
    (positions : List Position) : t.blindsOf positions = [] := by
  simp only [Blinds.anyPositive, gt_iff_lt, Bool.or_eq_false_iff, decide_eq_false_iff_not,
    Int.not_lt] at h
  obtain ⟨⟨hdealer, hsmall⟩, hbig⟩ := h
  simp [blindsOf, Int.not_lt.2 hdealer, Int.not_lt.2 hsmall, Int.not_lt.2 hbig]

/-- A lone big blind is posted by its holders. -/
theorem blindsOf_of_big {t : Terms} (hdealer : t.blinds.dealer = 0) (hsmall : t.blinds.small = 0)
    (hbig : 0 < t.blinds.big) (positions : List Position) :
    t.blindsOf positions = if positions.contains .bigBlind then [t.blinds.big] else [] := by
  by_cases hholds : Position.bigBlind ∈ positions <;>
    simp [blindsOf, hdealer, hsmall, hbig, hholds]

/-- A single blind is covered by the stack that it is asked of. -/
theorem afterBlinds_nonneg {t : Terms} {e : Entry} (hone : (t.blindsOf e.positions).length ≤ 1) :
    0 ≤ t.afterBlinds e := by
  have hante := t.afterAnte_nonneg e.bankroll
  unfold afterBlinds
  cases hblinds : t.blindsOf e.positions with
  | nil => exact hante
  | cons blind rest =>
      obtain rfl : rest = [] := by
        rw [hblinds, List.length_cons] at hone
        exact List.eq_nil_of_length_eq_zero (by omega)
      simp only [List.map_cons, List.map_nil, leftAfter]
      split <;> omega

/-- Three blinds, of which the stack covers each by itself, overdraw it by twice its chips at
most. -/
theorem le_afterBlinds {t : Terms} {e : Entry} (hpos : 0 < e.bankroll) (hante : 0 ≤ t.ante) :
    -(2 * e.bankroll) ≤ t.afterBlinds e := by
  have hstack := t.afterAnte_nonneg e.bankroll
  have hle : t.afterAnte e.bankroll ≤ e.bankroll := by unfold afterAnte; omega
  have hthree : (t.blindsOf e.positions).length ≤ 3 := by
    rw [blindsOf, List.length_map]
    exact List.length_filter_le _ _
  simp only [afterBlinds]
  generalize t.afterAnte e.bankroll = stack at hstack hle ⊢
  cases hblinds : t.blindsOf e.positions with
  | nil =>
      rw [List.map_nil, leftAfter_nil]
      omega
  | cons blind rest =>
      have hdues : ∀ due ∈ rest.map fun blind => min blind stack, due ≤ stack :=
        List.forall_mem_map.2 fun _ _ => Int.min_le_right _ _
      have hrest :=
        @le_leftAfter (if stack = 0 then 0 else stack - min blind stack) _ hstack _ hdues
      rw [hblinds, List.length_cons] at hthree
      rw [List.length_map] at hrest
      have hmul : stack * (rest.length : Int) ≤ stack * 2 :=
        Int.mul_le_mul_of_nonneg_left (by omega) hstack
      rw [List.map_cons, leftAfter]
      refine Int.le_trans ?_ hrest
      split <;> omega

theorem minBet_pos (t : Terms) : 0 < t.minBet := by
  unfold minBet
  cases hfind : [t.blinds.big, t.blinds.small, t.blinds.dealer, t.ante].find? fun v => v > 0 with
  | none => simp
  | some v => simpa using List.find?_some hfind

end Terms

end PokerHand
