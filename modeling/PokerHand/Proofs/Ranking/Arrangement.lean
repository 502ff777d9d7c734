import PokerHand.Proofs.Ranking.Straights

/-!
# How scored cards are arranged

A hand is worth what its cards are worth in any order (`MadeHand.evaluate_perm`). It shows all of
them, rank by rank, those of which there are most in front (`MadeHand.Arranged`); only where an ace
plays as a one, below the two, it stands last (`MadeHand.cards_of_aceLow`).
-/
namespace PokerHand

namespace Rules

variable {cards : List Card}

/-- The ranks of the lowest straight, highest first, where the ace plays as a one. -/
def lowRanks : List Rank := [.five, .four, .three, .two, .ace]

/-- Five cards that make the lowest straight. -/
def AceLow (cards : List Card) : Prop := (cards.map Card.rank).Perm lowRanks

/-- Five cards make the lowest straight when their ranks are, the ace in front where it counts
most. -/
theorem aceLow_iff :
    AceLow cards ↔ cards.length = 5 ∧ rankList cards = [.ace, .five, .four, .three, .two] := by
  constructor
  · intro hlow
    refine ⟨by simpa [lowRanks] using hlow.length_eq, Eq.symm (eq_rankList ?_ ?_)⟩
    · have hcount : multiplicity cards = fun r => lowRanks.count r :=
        funext fun r => hlow.count_eq r
      rw [hcount]
      decide
    · have hleads : leads cards = fun r s => lowRanks.count s < lowRanks.count r ||
          (lowRanks.count s == lowRanks.count r && s.value ≤ r.value) := by
        funext r s
        simp only [leads, multiplicity, hlow.count_eq]
      rw [hleads]
      decide
  · rintro ⟨hfive, hranks⟩
    have hsub : lowRanks ⊆ cards.map Card.rank := by
      intro r hr
      have hmem : r ∈ rankList cards := by
        rw [hranks]
        revert r
        decide
      obtain ⟨c, hc, rfl⟩ := exists_of_mem_rankList hmem
      exact List.mem_map_of_mem hc
    have hnodup : lowRanks.Nodup := by decide
    refine ((hnodup.subperm hsub).perm_of_length_le ?_).symm
    rw [List.length_map, hfive]
    decide

end Rules

namespace MadeHand

open Rules

variable {a b cards : List Card}

/-- All cards have one suit when some suit is that of each of them. -/
theorem isFlush_iff : isFlush cards = true ↔ ∃ s, ∀ c ∈ cards, c.suit = s := by
  cases cards with
  | nil => exact ⟨fun _ => ⟨.clubs, nofun⟩, fun _ => rfl⟩
  | cons first rest =>
      simp only [isFlush, List.all_eq_true, beq_iff_eq, List.forall_mem_cons]
      constructor
      · intro h
        exact ⟨first.suit, rfl, h⟩
      · rintro ⟨s, hfirst, h⟩ c hc
        exact (h c hc).trans hfirst.symm

theorem isFlush_perm (hperm : a.Perm b) : isFlush a = isFlush b := by
  rw [Bool.eq_iff_iff, isFlush_iff, isFlush_iff]
  simp only [hperm.mem_iff]

/-- The order of the cards does not matter to what they are worth. -/
theorem evaluate_perm (hperm : a.Perm b) (order : Order) :
    (evaluate a order).category = (evaluate b order).category ∧
      (evaluate a order).power = (evaluate b order).power := by
  have hcount : multiplicity a = multiplicity b :=
    funext fun r => (hperm.map Card.rank).count_eq r
  have hranks : rankList a = rankList b := rankList_congr hcount
  simp only [evaluate, sizes_groups, values_groups, hranks, hcount, isFlush_perm hperm,
    hperm.length_eq]
  split
  · split <;> exact ⟨rfl, rfl⟩
  · exact ⟨rfl, rfl⟩

/-- Cards of one rank stand together, ranks of more cards before those of fewer, and of ranks of
equally many cards the higher one in front. -/
structure Arranged (cards : List Card) : Prop where
  together : ∀ front c between d back, cards = front ++ c :: (between ++ d :: back) →
    c.rank = d.rank → ∀ e ∈ between, e.rank = c.rank
  falling : cards.Pairwise fun c d => c.rank ≠ d.rank →
    multiplicity cards d.rank < multiplicity cards c.rank ∨
      multiplicity cards d.rank = multiplicity cards c.rank ∧ d.rank.value < c.rank.value

/-- Cards are arranged when they stand as the rules list their ranks. -/
theorem arranged_of_leads (hleads : cards.Pairwise fun c d => leads cards c.rank d.rank = true) :
    Arranged cards where
  together := by
    rintro front c between d back rfl hsame e he
    have hrest := List.pairwise_cons.1 (List.pairwise_append.1 hleads).2.1
    have hce := hrest.1 e (List.mem_append_left _ he)
    have hed := (List.pairwise_append.1 hrest.2).2.2 e he d List.mem_cons_self
    exact leads_antisymm (hsame ▸ hed) hce
  falling := hleads.imp fun {c d} hcd hne => by
    have hvalue : d.rank.value ≠ c.rank.value := fun heq => hne (Rank.value_injective heq.symm)
    rw [leads_iff] at hcd
    omega

/-- Before an ace is put last, the cards stand as the rules list their ranks. -/
theorem leads_flatten_groups (cards : List Card) :
    (groups cards).flatten.Pairwise fun c d => leads cards c.rank d.rank = true := by
  rw [groups_eq, List.pairwise_flatten]
  refine ⟨fun group hgroup => ?_, List.pairwise_map.2 ((pairwise_leads cards).imp ?_)⟩
  · obtain ⟨r, -, rfl⟩ := List.mem_map.1 hgroup
    refine List.pairwise_of_forall_mem_list fun c hc d hd => ?_
    rw [rank_of_mem_ofRank hc, rank_of_mem_ofRank hd, leads_iff]
    exact .inr ⟨rfl, Nat.le_refl _⟩
  · intro r s hrs c hc d hd
    rwa [rank_of_mem_ofRank hc, rank_of_mem_ofRank hd]

theorem map_rotateLeft {α β : Type} (f : α → β) (xs : List α) (n : Nat) :
    (xs.rotateLeft n).map f = (xs.map f).rotateLeft n := by
  simp only [List.rotateLeft, List.length_map]
  split
  · rfl
  · simp [List.map_append, List.map_drop, List.map_take]

/-- The top of a straight is a five only if its cards are the five lowest. -/
theorem values_of_top_five {values : List Nat} (hvalues : RankValues values)
    (htop : straightTop? values = some 5) : values = [14, 5, 4, 3, 2] := by
  unfold straightTop? at htop
  split at htop
  · rfl
  · next a _ _ _ e _ =>
    split at htop
    · next hrun =>
      have hlow : 2 ≤ e := (hvalues e (by simp)).1
      have hfive : a = 5 := Option.some.inj htop
      omega
    · cases htop
  · cases htop

theorem values_lowest_iff : values (groups cards) = [14, 5, 4, 3, 2] ↔
    rankList cards = [.ace, .five, .four, .three, .two] := by
  have hlowest : [14, 5, 4, 3, 2] = [Rank.ace, .five, .four, .three, .two].map Rank.value := rfl
  rw [values_groups, hlowest]
  exact List.map_inj_right fun _ _ => Rank.value_injective

/-- Unless an ace plays low, the cards are shown as the rules list their ranks. -/
theorem cards_of_not_aceLow (hlow : ¬ AceLow cards) (order : Order) :
    (evaluate cards order).cards = (groups cards).flatten := by
  have hvalues : RankValues (values (groups cards)) := by
    rw [values_groups]
    exact Rules.rankValues cards
  simp only [evaluate]
  split
  · next hfive =>
    split
    · next top htop =>
      have hne : top ≠ 5 := by
        rintro rfl
        exact hlow (aceLow_iff.2 ⟨hfive.1, values_lowest_iff.1 (values_of_top_five hvalues htop)⟩)
      exact if_neg hne
    · rfl
  · rfl

/-- An ace that plays low is shown last, and the cards make a straight. -/
theorem cards_of_aceLow (hlow : AceLow cards) (order : Order) :
    (evaluate cards order).cards.map Card.rank = lowRanks ∧
      (evaluate cards order).category ∈ [.straight, .straightFlush] := by
  obtain ⟨hfive, hranks⟩ := aceLow_iff.1 hlow
  have hcount : multiplicity cards = fun r => lowRanks.count r := funext fun r => hlow.count_eq r
  have hsizes : (groups cards).map List.length = [1, 1, 1, 1, 1] := by
    rw [sizes_groups, hranks, hcount]
    decide
  have hvalues : values (groups cards) = [14, 5, 4, 3, 2] := values_lowest_iff.2 hranks
  have htop : straightTop? [14, 5, 4, 3, 2] = some 5 := rfl
  have hranked : (groups cards).flatten.map Card.rank = [.ace, .five, .four, .three, .two] := by
    rw [ranks_groups, hranks, hcount]
    decide
  simp only [evaluate, hsizes, hvalues, htop, hfive, ofSizes, and_self, if_true]
  refine ⟨?_, by split <;> simp⟩
  rw [map_rotateLeft, hranked]
  rfl

/-- In whatever order cards of any number come, with repeats or without, they have the same category
and the same power. All of them are shown, and arranged by rank, except that the ace comes last
where it plays low. -/
theorem any_order_scores_alike (cards : List Card) (order : Order) :
    (∀ shuffled : List Card, shuffled.Perm cards →
        (evaluate shuffled order).category = (evaluate cards order).category ∧
          (evaluate shuffled order).power = (evaluate cards order).power) ∧
      (evaluate cards order).cards.Perm cards ∧
      (AceLow cards → (evaluate cards order).cards.map Card.rank = lowRanks ∧
        (evaluate cards order).category ∈ [.straight, .straightFlush]) ∧
      (¬ AceLow cards → Arranged (evaluate cards order).cards) := by
  refine ⟨fun shuffled hperm => evaluate_perm hperm order, cards_evaluate_perm cards order,
    fun hlow => cards_of_aceLow hlow order, fun hlow => ?_⟩
  have hcount : multiplicity (evaluate cards order).cards = multiplicity cards :=
    funext fun r => ((cards_evaluate_perm cards order).map Card.rank).count_eq r
  have hleads : leads (evaluate cards order).cards = leads cards := by
    unfold leads
    rw [hcount]
  refine arranged_of_leads ?_
  rw [hleads, cards_of_not_aceLow hlow order]
  exact leads_flatten_groups cards

/-- Six cards of two packs in two orders: three nines, one of them twice, come before two queens. -/
theorem any_order_scores_alike_twoPacks :
    let cards : List Card := [⟨.hearts, .queen⟩, ⟨.spades, .nine⟩, ⟨.clubs, .ace⟩,
      ⟨.diamonds, .queen⟩, ⟨.spades, .nine⟩, ⟨.clubs, .nine⟩]
    let wheel : List Card := [⟨.hearts, .three⟩, ⟨.spades, .ace⟩, ⟨.hearts, .five⟩,
      ⟨.clubs, .two⟩, ⟨.spades, .four⟩]
    cards.reverse.Perm cards ∧
      (evaluate cards .standard).category = .fullHouse ∧
      (evaluate cards.reverse .standard).power = (evaluate cards .standard).power ∧
      ¬ AceLow cards ∧ Arranged (evaluate cards .standard).cards ∧
      (evaluate cards .standard).cards.map Card.rank =
        [.nine, .nine, .nine, .queen, .queen, .ace] ∧
      AceLow wheel ∧ (evaluate wheel .standard).cards.map Card.rank = lowRanks := by
  intro cards wheel
  have hperm : cards.reverse.Perm cards := List.reverse_perm cards
  have hhigh : ¬ AceLow cards := by unfold AceLow; decide
  have hlow : AceLow wheel := by unfold AceLow; decide
  obtain ⟨halike, -, -, harranged⟩ := any_order_scores_alike cards .standard
  obtain ⟨-, -, hlast, -⟩ := any_order_scores_alike wheel .standard
  exact ⟨hperm, by decide, (halike _ hperm).2, hhigh, harranged hhigh, by decide, hlow,
    (hlast hlow).1⟩

end MadeHand

end PokerHand
