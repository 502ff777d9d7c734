import PokerHand.Proofs.Ranking.Straights

/-!
# Scores rank hands as the rules do

The score of up to five cards lies in the block of the category that the rules give them, at a place
that rises with their key (`evaluate_eq`). So the higher score is the better hand, whatever the
order of categories, and equal scores are hands of one category with the same ranks.
-/
namespace PokerHand

namespace Rules

open MadeHand

variable {a b cards : List Card}

/-- The place of a hand within the block of its category. -/
def place (cards : List Card) : Nat :=
  match topOfStraight? cards with
  | some top => top - 5
  | none => digitsValue (classify cards).digits (key cards)

/-- Straights and flushes have no equal ranks, and the ranks make any other category. -/
theorem classify_cases (hnodup : cards.Nodup) (hfive : cards.length ≤ 5) :
    (shape cards = ones ∧ classify cards ∈ [.straight, .flush, .straightFlush]) ∨
      (topOfStraight? cards = none ∧ Rules.isFlush cards = false ∧
        classify cards = ofSizes (shape cards)) := by
  unfold classify
  cases htop : topOfStraight? cards with
  | some top =>
      have hones := (values_of_topOfStraight? hnodup htop).1
      exact .inl ⟨hones, by cases Rules.isFlush cards <;> simp⟩
  | none =>
      cases hflush : Rules.isFlush cards with
      | true => exact .inl ⟨shape_of_isFlush hnodup hflush, by simp⟩
      | false => exact .inr ⟨rfl, rfl, classifyRanks_eq hnodup hfive⟩

/-- The scoring sees the straights of the rules. -/
theorem straightTop?_values (hnodup : cards.Nodup) (hfive : cards.length = 5)
    (hones : shape cards = ones) :
    straightTop? (values (groups cards)) = topOfStraight? cards := by
  rw [values_groups]
  refine Option.ext fun top => ?_
  rw [straightTop?_eq_some_iff (falling_of_ones hones) (rankValues cards),
    topOfStraight?_eq_some_iff hnodup hfive]

/-- The score of a hand is its place in the block of its category. -/
theorem evaluate_eq (hnodup : cards.Nodup) (hfive : cards.length ≤ 5) (order : Order) :
    (evaluate cards order).category = classify cards ∧
      (evaluate cards order).power = order.offset (classify cards) + place cards := by
  have hsizes : (groups cards).map List.length = shape cards := sizes_groups cards
  simp only [evaluate, hsizes]
  split
  · next hplain =>
    obtain ⟨hlength, hhigh⟩ := hplain
    have hones := (ofSizes_eq_highCard_iff hnodup hlength).1 hhigh
    have hranks := classifyRanks_eq hnodup hfive
    rw [straightTop?_values hnodup hlength hones, ← isFlush_eq hlength]
    cases htop : topOfStraight? cards with
    | some top => cases hflush : Rules.isFlush cards <;> simp [place, classify, htop, hflush]
    | none =>
        cases hflush : Rules.isFlush cards <;>
          simp [place, classify, key, htop, hflush, hranks, hhigh, values_groups]
  · next hplain =>
    rcases classify_cases hnodup hfive with ⟨hones, -⟩ | ⟨htop, -, hclass⟩
    · have hlength : cards.length = 5 := by rw [← size_shape, hones]; rfl
      exact absurd ⟨hlength, (ofSizes_eq_highCard_iff hnodup hlength).2 hones⟩ hplain
    · simp [place, key, htop, hclass, values_groups]

/-- There are at most as many ranks as digits. -/
theorem length_rankList_le (hnodup : cards.Nodup) (hfive : cards.length ≤ 5)
    (htop : topOfStraight? cards = none) : (rankList cards).length ≤ (classify cards).digits := by
  have hshapes : ∀ sizes ∈ shapes, sizes.length ≤ (ofSizes sizes).digits := by decide
  have hlength : (rankList cards).length = (shape cards).length := (List.length_map _).symm
  rw [hlength]
  cases hflush : Rules.isFlush cards with
  | true =>
      have hclass : classify cards = .flush := by simp [classify, htop, hflush]
      rw [hclass, shape_of_isFlush hnodup hflush]
      exact Nat.le_refl 5
  | false =>
      have hclass : classify cards = ofSizes (shape cards) := by
        simp [classify, htop, hflush, classifyRanks_eq hnodup hfive]
      rw [hclass]
      exact hshapes _ (shape_mem hnodup hfive)

theorem place_lt (cards : List Card) : place cards < (classify cards).slotSize := by
  unfold place
  cases htop : topOfStraight? cards with
  | some top =>
      have htops : ∀ top ∈ tops,
          top - 5 < Category.straight.slotSize ∧ top - 5 < Category.straightFlush.slotSize := by
        decide
      have hlt := htops top (mem_tops_of_topOfStraight? htop).2.1
      cases hflush : Rules.isFlush cards with
      | true => simpa [classify, htop, hflush] using hlt.2
      | false => simpa [classify, htop, hflush] using hlt.1
  | none =>
      refine digitsValue_lt ?_ _
      simpa [key, htop] using rankValues cards

/-- Equally many cards of one category have the same shape. -/
theorem shape_eq (ha : a.Nodup) (hb : b.Nodup) (hlength : a.length = b.length)
    (hfive : a.length ≤ 5) (hclass : classify a = classify b) : shape a = shape b := by
  have hplain : ∀ sizes ∈ shapes,
      ofSizes sizes ∉ [Category.straight, .flush, .straightFlush] := by decide
  have hfive' : b.length ≤ 5 := hlength ▸ hfive
  have hsize : size (shape a) = size (shape b) := by rw [size_shape, size_shape, hlength]
  rcases classify_cases ha hfive with ⟨hones, hmem⟩ | ⟨-, -, hmade⟩ <;>
    rcases classify_cases hb hfive' with ⟨hones', hmem'⟩ | ⟨-, -, hmade'⟩
  · exact hones.trans hones'.symm
  · exact absurd (hmade' ▸ hclass ▸ hmem) (hplain _ (shape_mem hb hfive'))
  · exact absurd (hmade ▸ hclass.symm ▸ hmem') (hplain _ (shape_mem ha hfive))
  · exact eq_of_ofSizes (shape_mem ha hfive) (shape_mem hb hfive') hsize
      (hmade.symm.trans (hclass.trans hmade'))

theorem classifyRanks_ne (cards : List Card) :
    classifyRanks cards ≠ .straight ∧ classifyRanks cards ≠ .straightFlush := by
  unfold classifyRanks
  repeat' split
  all_goals decide

/-- A straight is known by its category. -/
theorem isSome_topOfStraight? (cards : List Card) :
    (topOfStraight? cards).isSome = true ↔
      classify cards = .straight ∨ classify cards = .straightFlush := by
  obtain ⟨hstraight, hstraightFlush⟩ := classifyRanks_ne cards
  unfold classify
  cases topOfStraight? cards <;> cases Rules.isFlush cards <;> simp [hstraight, hstraightFlush]

/-- Hands of one category have the same key when they have the same ranks in the same order. -/
theorem key_eq_iff (ha : a.Nodup) (hb : b.Nodup) (hclass : classify a = classify b) :
    key a = key b ↔ rankList a = rankList b := by
  have hvalues : (rankList a).map Rank.value = (rankList b).map Rank.value ↔
      rankList a = rankList b :=
    List.map_inj_right fun _ _ => Rank.value_injective
  have hsame : (topOfStraight? a).isSome = (topOfStraight? b).isSome := by
    rw [Bool.eq_iff_iff, isSome_topOfStraight?, isSome_topOfStraight?, hclass]
  unfold key
  cases hta : topOfStraight? a with
  | some top =>
      cases htb : topOfStraight? b with
      | none => simp [hta, htb] at hsame
      | some other =>
          have hfirst := (mem_tops_of_topOfStraight? hta).2.1
          have hsecond := (mem_tops_of_topOfStraight? htb).2.1
          rw [← hvalues, ← (values_of_topOfStraight? ha hta).2,
            ← (values_of_topOfStraight? hb htb).2]
          simp only [List.cons.injEq, and_true]
          exact ⟨fun h => h ▸ rfl, places_injective hfirst hsecond⟩
  | none =>
      cases htb : topOfStraight? b with
      | some other => simp [hta, htb] at hsame
      | none => exact hvalues

section Pair

variable (ha : a.Nodup) (hb : b.Nodup) (hlength : a.length = b.length) (hfive : a.length ≤ 5)
  (hclass : classify a = classify b)

include ha hb hlength hfive hclass

/-- Within a category the place rises with the key. -/
theorem place_lt_iff : place a < place b ↔ key a < key b := by
  have hsame : (topOfStraight? a).isSome = (topOfStraight? b).isSome := by
    rw [Bool.eq_iff_iff, isSome_topOfStraight?, isSome_topOfStraight?, hclass]
  unfold place key
  cases hta : topOfStraight? a with
  | some top =>
      cases htb : topOfStraight? b with
      | none => simp [hta, htb] at hsame
      | some other =>
          have htops : ∀ top ∈ tops, 5 ≤ top := by decide
          have hfirst := htops top (mem_tops_of_topOfStraight? hta).2.1
          have hsecond := htops other (mem_tops_of_topOfStraight? htb).2.1
          simp only [List.cons_lt_cons_iff, List.lt_irrefl, and_false, or_false]
          omega
  | none =>
      cases htb : topOfStraight? b with
      | some other => simp [hta, htb] at hsame
      | none =>
          have hranks := congrArg List.length (shape_eq ha hb hlength hfive hclass)
          simp only [shape, List.length_map] at hranks
          have hdigits := length_rankList_le ha hfive hta
          rw [← hclass]
          refine digitsValue_lt_iff (rankValues a) (rankValues b) ?_ ?_
          · rw [List.length_map, List.length_map, hranks]
          · rwa [List.length_map]

theorem place_eq_iff : place a = place b ↔ key a = key b := by
  have hab := place_lt_iff ha hb hlength hfive hclass
  have hba := place_lt_iff hb ha hlength.symm (hlength ▸ hfive) hclass.symm
  constructor
  · intro hplace
    have hnot : ¬ key a < key b := fun hlt => Nat.ne_of_lt (hab.2 hlt) hplace
    have hnot' : ¬ key b < key a := fun hlt => Nat.ne_of_lt (hba.2 hlt) hplace.symm
    exact List.le_antisymm (List.not_lt.1 hnot') (List.not_lt.1 hnot)
  · intro hkey
    have hnot : ¬ place a < place b := fun hlt => List.lt_irrefl _ (hkey ▸ hab.1 hlt)
    have hnot' : ¬ place b < place a := fun hlt => List.lt_irrefl _ (hkey ▸ hba.1 hlt)
    omega

/-- The ranks in their order are the ranks with their numbers. -/
theorem rankList_eq_iff : rankList a = rankList b ↔ (a.map Card.rank).Perm (b.map Card.rank) := by
  have hshape := shape_eq ha hb hlength hfive hclass
  constructor
  · intro hlist
    refine List.perm_iff_count.2 fun r => ?_
    show multiplicity a r = multiplicity b r
    by_cases hr : r ∈ rankList a
    · rw [shape, shape, ← hlist] at hshape
      exact List.map_inj_left.1 hshape r hr
    · have hnone : multiplicity a r = 0 := by simpa [mem_rankList] using hr
      have hnone' : multiplicity b r = 0 := by
        rw [hlist] at hr
        simpa [mem_rankList] using hr
      rw [hnone, hnone']
  · intro hperm
    exact rankList_congr (funext fun r => hperm.count_eq r)

end Pair

end Rules

namespace MadeHand

open Rules

/-- Of two hands of equally many cards the one with the stronger category has the higher score, and
within a category the one with the higher key; the scores are the same when the categories and the
ranks are. -/
theorem power_ranks_hands (order : Order) {a b : List Card} (ha : a.Nodup) (hb : b.Nodup)
    (hlength : a.length = b.length) (hfive : a.length ≤ 5) :
    (evaluate a order).category = classify a ∧ (evaluate b order).category = classify b ∧
      ((evaluate a order).power < (evaluate b order).power ↔
        order.ranking.idxOf (classify b) < order.ranking.idxOf (classify a) ∨
          (classify a = classify b ∧ key a < key b)) ∧
      ((evaluate a order).power = (evaluate b order).power ↔
        classify a = classify b ∧ (a.map Card.rank).Perm (b.map Card.rank)) := by
  obtain ⟨hclassA, hpowerA⟩ := evaluate_eq ha hfive order
  obtain ⟨hclassB, hpowerB⟩ := evaluate_eq hb (hlength ▸ hfive) order
  refine ⟨hclassA, hclassB, ?_, ?_⟩
  · rw [hpowerA, hpowerB, Order.score_lt_iff (place_lt a) (place_lt b)]
    refine or_congr_right (and_congr_right fun hclass => ?_)
    exact place_lt_iff ha hb hlength hfive hclass
  · rw [hpowerA, hpowerB, Order.score_eq_iff (place_lt a) (place_lt b)]
    refine and_congr_right fun hclass => ?_
    rw [place_eq_iff ha hb hlength hfive hclass, key_eq_iff ha hb hclass,
      rankList_eq_iff ha hb hlength hfive hclass]

/-- The lowest straight, in which the ace plays low, against the next one. -/
theorem power_ranks_hands_wheel :
    let wheel : List Card := [⟨.spades, .ace⟩, ⟨.hearts, .two⟩, ⟨.diamonds, .three⟩,
      ⟨.clubs, .four⟩, ⟨.spades, .five⟩]
    let sixHigh : List Card := [⟨.spades, .two⟩, ⟨.hearts, .three⟩, ⟨.diamonds, .four⟩,
      ⟨.clubs, .five⟩, ⟨.spades, .six⟩]
    classify wheel = .straight ∧ classify sixHigh = .straight ∧ key wheel = [5] ∧
      key sixHigh = [6] ∧
      (evaluate wheel .shortDeck).power < (evaluate sixHigh .shortDeck).power := by
  intro wheel sixHigh
  obtain ⟨-, -, hlt, -⟩ := power_ranks_hands .shortDeck (a := wheel) (b := sixHigh) (by decide)
    (by decide) rfl (by decide)
  exact ⟨by decide, by decide, by decide, by decide, hlt.2 (.inr ⟨by decide, by decide⟩)⟩

end MadeHand

end PokerHand
