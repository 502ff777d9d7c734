import PokerHand.Proofs.Ranking.Strength

/-!
# Hands that grow

A further card raises the number of cards of its rank by one. If the rank is new, the hand keeps
what its equal ranks make and a rank is put into the list that it counts (`Rules.place_le_concat`);
otherwise the equal ranks make something stronger, in the standard order and in that of the short
deck. So up to five cards a hand never loses by a card more (`MadeHand.power_le_append`), also where
the fifth one completes a straight or a flush.
-/
namespace PokerHand

namespace Order

/-- The orders that games are played with. -/
def usual : List Order := [standard, shortDeck]

end Order

namespace MadeHand

/-- A digit in front of no greater ones adds to the number. -/
theorem digitsValue_le_cons {v : Nat} {values : List Nat}
    (hfall : (v :: values).Pairwise (· ≥ ·)) (n : Nat) :
    digitsValue n values ≤ digitsValue n (v :: values) := by
  induction values generalizing v n with
  | nil => cases n <;> simp [digitsValue]
  | cons w rest ih =>
      obtain ⟨hv, hrest⟩ := List.pairwise_cons.1 hfall
      cases n with
      | zero => exact Nat.le_refl _
      | succ n =>
          have hdigit : w - 2 ≤ v - 2 := Nat.sub_le_sub_right (hv w List.mem_cons_self) 2
          exact Nat.add_le_add (Nat.mul_le_mul_right _ hdigit) (ih hrest n)

/-- Also behind other digits. -/
theorem digitsValue_le_insert {v : Nat} {back : List Nat} (hfall : (v :: back).Pairwise (· ≥ ·))
    (front : List Nat) (n : Nat) :
    digitsValue n (front ++ back) ≤ digitsValue n (front ++ v :: back) := by
  induction front generalizing n with
  | nil => exact digitsValue_le_cons hfall n
  | cons w front ih =>
      cases n with
      | zero => exact Nat.le_refl _
      | succ n => exact Nat.add_le_add_left (ih n) _

end MadeHand

namespace Rules

open MadeHand

variable {cards : List Card} {c : Card} {order : Order}

theorem multiplicity_concat (cards : List Card) (c : Card) (r : Rank) :
    multiplicity (cards ++ [c]) r = multiplicity cards r + if c.rank = r then 1 else 0 := by
  simp [multiplicity, List.count_append, List.count_cons]

/-- The shape `ys` has a card more than `xs`, of a rank that had `m` cards. -/
def Adds (m : Nat) (xs ys : List Nat) : Prop :=
  ∀ k ∈ [1, 2, 3, 4], ys.count k + (if m = k then 1 else 0) =
    xs.count k + if m + 1 = k then 1 else 0

instance (m : Nat) (xs ys : List Nat) : Decidable (Adds m xs ys) :=
  inferInstanceAs (Decidable (∀ k ∈ [1, 2, 3, 4], ys.count k + (if m = k then 1 else 0) =
    xs.count k + if m + 1 = k then 1 else 0))

/-- Only the number of cards of the rank of the new card changes. -/
theorem adds_concat (cards : List Card) (c : Card) :
    Adds (multiplicity cards c.rank) (shape cards) (shape (cards ++ [c])) := by
  intro k hk
  have hpos : 0 < k := by
    have hall : ∀ k ∈ [1, 2, 3, 4], 0 < k := by decide
    exact hall k hk
  have hranks : Rank.all.Perm (c.rank :: Rank.all.erase c.rank) :=
    List.perm_cons_erase c.rank.mem_all
  have hothers : ((Rank.all.erase c.rank).countP fun r => multiplicity (cards ++ [c]) r == k) =
      (Rank.all.erase c.rank).countP fun r => multiplicity cards r == k := by
    refine List.countP_congr fun r hr => ?_
    have hnodup : Rank.all.Nodup := by decide
    have hne := ((List.Nodup.mem_erase_iff hnodup).1 hr).1
    rw [multiplicity_concat, if_neg hne.symm, Nat.add_zero]
  rw [← ranksWith_eq hpos, ← ranksWith_eq hpos, ranksWith, ranksWith, hranks.countP_eq,
    hranks.countP_eq, List.countP_cons, List.countP_cons, hothers, multiplicity_concat, if_pos rfl]
  simp only [beq_iff_eq]
  omega

theorem topOfStraight?_of_lt (hfour : cards.length < 5) : topOfStraight? cards = none :=
  if_neg (Nat.ne_of_lt hfour)

/-- Fewer than five cards make what their equal ranks make. -/
theorem classify_of_lt (hfour : cards.length < 5) : classify cards = classifyRanks cards := by
  have hflush : Rules.isFlush cards = false := by
    rw [Rules.isFlush, beq_eq_false_iff_ne.2 (Nat.ne_of_lt hfour), Bool.false_and]
  rw [classify, topOfStraight?_of_lt hfour, hflush]

/-- A card of a new rank leaves what the equal ranks make. -/
theorem ofSizes_of_adds_zero {xs ys : List Nat} (hxs : xs ∈ shapes) (hys : ys ∈ shapes)
    (hadds : Adds 0 xs ys) : ofSizes ys = ofSizes xs := by
  have hshapes : ∀ xs ∈ shapes, ∀ ys ∈ shapes, Adds 0 xs ys → ofSizes ys = ofSizes xs := by decide
  exact hshapes xs hxs ys hys hadds

/-- A card of a rank that is there makes something stronger. -/
theorem stronger_of_adds_succ (husual : order ∈ Order.usual) {m : Nat} (hm : m + 1 < 4)
    {xs ys : List Nat} (hxs : xs ∈ shapes) (hys : ys ∈ shapes) (hadds : Adds (m + 1) xs ys) :
    order.ranking.idxOf (ofSizes ys) < order.ranking.idxOf (ofSizes xs) := by
  have hshapes : ∀ order ∈ Order.usual, ∀ m < 3, ∀ xs ∈ shapes, ∀ ys ∈ shapes,
      Adds (m + 1) xs ys →
      order.ranking.idxOf (ofSizes ys) < order.ranking.idxOf (ofSizes xs) := by decide +kernel
  exact hshapes order husual m (by omega) xs hxs ys hys hadds

/-- A card short of five single ones there is nothing but a high card. -/
theorem ofSizes_of_adds_ones {m : Nat} (hm : m < 4) {xs : List Nat} (hxs : xs ∈ shapes)
    (hadds : Adds m xs ones) : ofSizes xs = .highCard := by
  have hshapes : ∀ m < 4, ∀ xs ∈ shapes, Adds m xs ones → ofSizes xs = .highCard := by decide
  exact hshapes m hm xs hxs hadds

/-- A new rank is put into the list of the ranks. -/
theorem rankList_concat (hnew : multiplicity cards c.rank = 0) :
    rankList cards = (rankList (cards ++ [c])).erase c.rank := by
  have hsame : ∀ {r}, r ≠ c.rank → multiplicity (cards ++ [c]) r = multiplicity cards r := by
    intro r hne
    rw [multiplicity_concat, if_neg hne.symm, Nat.add_zero]
  have hmem : ∀ {r}, r ∈ (rankList (cards ++ [c])).erase c.rank ↔
      r ≠ c.rank ∧ r ∈ rankList (cards ++ [c]) :=
    List.Nodup.mem_erase_iff (nodup_rankList _)
  refine (eq_rankList ?_ ?_).symm
  · have hall : Rank.all.Nodup := by decide
    refine (List.perm_ext_iff_of_nodup ((nodup_rankList _).erase _) (hall.filter _)).2 fun r => ?_
    rw [hmem, mem_rankList, List.mem_filter, decide_eq_true_eq, and_iff_right r.mem_all]
    by_cases hr : r = c.rank
    · simp [hr, hnew]
    · simp [hr, hsame hr]
  · refine ((pairwise_leads _).sublist (List.erase_sublist ..)).imp_of_mem fun {r s} hr hs h => ?_
    rw [leads_iff, hsame (hmem.1 hr).1, hsame (hmem.1 hs).1] at h
    exact leads_iff.2 h

/-- A new rank adds to the number that the ranks are counted as. -/
theorem digitsValue_le_concat (hnew : multiplicity cards c.rank = 0) (n : Nat) :
    digitsValue n ((rankList cards).map Rank.value) ≤
      digitsValue n ((rankList (cards ++ [c])).map Rank.value) := by
  have hone : multiplicity (cards ++ [c]) c.rank = 1 := by
    rw [multiplicity_concat, if_pos rfl, hnew]
  have hmem : c.rank ∈ rankList (cards ++ [c]) := by
    rw [mem_rankList, hone]
    exact Nat.one_pos
  obtain ⟨front, back, -, hsplit, herase⟩ := List.exists_erase_eq hmem
  have hleads := pairwise_leads (cards ++ [c])
  rw [hsplit] at hleads
  have hback := (List.pairwise_append.1 hleads).2.1
  -- behind a single rank all others are single too, and fall
  have hsingle : ∀ r ∈ c.rank :: back, multiplicity (cards ++ [c]) r = 1 := by
    intro r hr
    rcases List.mem_cons.1 hr with rfl | hr
    · exact hone
    · have hle := leads_iff.1 ((List.pairwise_cons.1 hback).1 r hr)
      have hthere : r ∈ rankList (cards ++ [c]) := by
        rw [hsplit]
        exact List.mem_append_right _ (List.mem_cons_of_mem _ hr)
      have hpos := mem_rankList.1 hthere
      omega
  have hfall : ((c.rank :: back).map Rank.value).Pairwise (· ≥ ·) := by
    refine List.pairwise_map.2 (hback.imp_of_mem fun {r s} hr hs h => ?_)
    rw [leads_iff, hsingle r hr, hsingle s hs] at h
    omega
  rw [rankList_concat hnew, herase, hsplit, List.map_append, List.map_append]
  exact digitsValue_le_insert hfall _ n

end Rules

namespace MadeHand

open Rules

variable {cards : List Card} {c : Card} {order : Order}

/-- In the usual orders a card more never makes a hand of up to five cards weaker. -/
theorem power_le_concat (husual : order ∈ Order.usual) (hnodup : (cards ++ [c]).Nodup)
    (hfive : (cards ++ [c]).length ≤ 5) :
    (evaluate cards order).power ≤ (evaluate (cards ++ [c]) order).power := by
  have hnodup' : cards.Nodup := hnodup.sublist (List.sublist_append_left _ _)
  have hfour : cards.length < 5 := by
    rw [List.length_append, List.length_singleton] at hfive
    omega
  have htop := topOfStraight?_of_lt hfour
  have hclass : classify cards = ofSizes (shape cards) :=
    (classify_of_lt hfour).trans (classifyRanks_eq hnodup' (Nat.le_of_lt hfour))
  have hxs := shape_mem hnodup' (Nat.le_of_lt hfour)
  have hys := shape_mem hnodup hfive
  have hadds := adds_concat cards c
  have hm : multiplicity cards c.rank < 4 := by
    have hle := multiplicity_le_four hnodup c.rank
    rw [multiplicity_concat, if_pos rfl] at hle
    omega
  rw [(evaluate_eq hnodup' (Nat.le_of_lt hfour) order).2, (evaluate_eq hnodup hfive order).2]
  -- it is enough that the hand is worth more, or the same with no lower place
  have hstronger : order.ranking.idxOf (classify (cards ++ [c])) <
      order.ranking.idxOf (classify cards) →
      order.offset (classify cards) + place cards ≤
        order.offset (classify (cards ++ [c])) + place (cards ++ [c]) := fun hlt =>
    Nat.le_of_lt ((Order.score_lt_iff (place_lt _) (place_lt _)).2 (.inl hlt))
  rcases classify_cases hnodup hfive with ⟨hones, hmade⟩ | ⟨htop', -, hclass'⟩
  · apply hstronger
    rw [hones] at hadds
    rw [hclass, ofSizes_of_adds_ones hm hxs hadds]
    have horders : ∀ order ∈ Order.usual, ∀ made ∈ [Category.straight, .flush, .straightFlush],
        order.ranking.idxOf made < order.ranking.idxOf Category.highCard := by decide
    exact horders order husual _ hmade
  · cases hcount : multiplicity cards c.rank with
    | zero =>
        rw [hcount] at hadds
        have hsame : classify (cards ++ [c]) = classify cards := by
          rw [hclass, hclass', ofSizes_of_adds_zero hxs hys hadds]
        have hplace : place cards ≤ place (cards ++ [c]) := by
          simp only [place, key, htop, htop', hsame]
          exact digitsValue_le_concat hcount _
        rw [hsame]
        exact Nat.add_le_add_left hplace _
    | succ m =>
        rw [hcount] at hadds hm
        apply hstronger
        rw [hclass, hclass']
        exact stronger_of_adds_succ husual hm hxs hys hadds

/-- Nor do several. -/
theorem power_le_append (husual : order ∈ Order.usual) {more : List Card}
    (hnodup : (cards ++ more).Nodup) (hfive : (cards ++ more).length ≤ 5) :
    (evaluate cards order).power ≤ (evaluate (cards ++ more) order).power := by
  induction more generalizing cards with
  | nil => simp
  | cons c rest ih =>
      rw [List.append_cons] at hnodup hfive ⊢
      have hfirst := List.sublist_append_left (cards ++ [c]) rest
      exact Nat.le_trans
        (power_le_concat husual (hnodup.sublist hfirst) (Nat.le_trans hfirst.length_le hfive))
        (ih hnodup hfive)

end MadeHand

end PokerHand
