import PokerHand.Proofs.Ranking.Blocks
import PokerHand.Proofs.Ranking.Shapes

/-!
# Straights and flushes

Five cards make a straight when their ranks are those of the five places, which the scoring sees in
the falling list of their values (`straightTop?_values`). Straights and flushes have no equal ranks.
-/
namespace PokerHand

/-- Falling lists are the same when one holds all the entries of another that is no shorter. -/
theorem eq_of_falling {xs ys : List Nat} (hxs : xs.Pairwise (· > ·)) (hys : ys.Pairwise (· > ·))
    (hsub : xs ⊆ ys) (hlength : ys.length ≤ xs.length) : xs = ys := by
  have hnodup : xs.Nodup := hxs.imp fun h => Nat.ne_of_gt h
  have hperm : xs.Perm ys := (hnodup.subperm hsub).perm_of_length_le hlength
  exact hperm.eq_of_pairwise (fun _ _ _ _ h h' => absurd h (Nat.not_lt_of_gt h')) hxs hys

namespace Rules

open MadeHand

variable {cards : List Card} {top : Nat}

/-- The values of the ranks of a straight; the ace that plays low stands in front. -/
def places (top : Nat) : List Nat :=
  if top = 5 then [14, 5, 4, 3, 2] else [top, top - 1, top - 2, top - 3, top - 4]

theorem places_falling (htop : top ∈ tops) : (places top).Pairwise (· > ·) := by
  have htops : ∀ top ∈ tops, (places top).Pairwise (· > ·) := by decide
  exact htops top htop

theorem length_places (top : Nat) : (places top).length = 5 := by
  unfold places
  split <;> rfl

theorem places_injective {other : Nat} (htop : top ∈ tops) (hother : other ∈ tops)
    (heq : places top = places other) : top = other := by
  have htops : ∀ top ∈ tops, ∀ other ∈ tops, places top = places other → top = other := by decide
  exact htops top htop other hother heq

theorem rank_value_bounds (r : Rank) : 2 ≤ r.value ∧ r.value ≤ 14 := by
  cases r <;> decide

theorem rankValues (cards : List Card) : RankValues ((rankList cards).map Rank.value) := by
  intro v hv
  obtain ⟨r, -, rfl⟩ := List.mem_map.1 hv
  exact rank_value_bounds r

theorem value_mem_iff {c : Card} (hc : c ∈ cards) : c.rank ∈ rankList cards := by
  rw [mem_rankList, multiplicity, List.count_pos_iff]
  exact List.mem_map_of_mem hc

theorem exists_of_mem_rankList {r : Rank} (hr : r ∈ rankList cards) : ∃ c ∈ cards, c.rank = r := by
  rw [mem_rankList, multiplicity, List.count_pos_iff] at hr
  simpa using hr

/-- A place is filled by a rank of its value, and the first by the ace. -/
theorem any_fills_iff (v : Nat) : (cards.any fun c => fills c.rank v) = true ↔
    v ∈ (rankList cards).map Rank.value ∨ v = 1 ∧ 14 ∈ (rankList cards).map Rank.value := by
  have hace : ∀ r : Rank, r = .ace ↔ r.value = 14 := fun r => by cases r <;> decide
  simp only [List.any_eq_true, fills, Bool.or_eq_true, Bool.and_eq_true, beq_iff_eq, hace,
    List.mem_map]
  constructor
  · rintro ⟨c, hc, heq | ⟨hhigh, hlow⟩⟩
    · exact .inl ⟨c.rank, value_mem_iff hc, heq⟩
    · exact .inr ⟨hlow, c.rank, value_mem_iff hc, hhigh⟩
  · rintro (⟨r, hr, heq⟩ | ⟨hlow, r, hr, hhigh⟩)
    · obtain ⟨c, hc, rfl⟩ := exists_of_mem_rankList hr
      exact ⟨c, hc, .inl heq⟩
    · obtain ⟨c, hc, rfl⟩ := exists_of_mem_rankList hr
      exact ⟨c, hc, .inr ⟨hhigh, hlow⟩⟩

theorem reaches_iff (htop : top ∈ tops) :
    reaches cards top = true ↔ places top ⊆ (rankList cards).map Rank.value := by
  have hone : 1 ∉ (rankList cards).map Rank.value := fun hmem =>
    absurd (rankValues cards 1 hmem).1 (by decide)
  have hfirst : top ≠ 5 → 5 < top := by
    intro hne
    have htops : ∀ top ∈ tops, 5 ≤ top := by decide
    have := htops top htop
    omega
  simp only [reaches, List.all_cons, List.all_nil, Bool.and_true, Bool.and_eq_true, any_fills_iff]
  unfold places
  by_cases hfive : top = 5
  · subst hfive
    simp [hone, List.subset_def]
    tauto
  · have hhigh := hfirst hfive
    have hlow : top ≠ 1 ∧ top - 1 ≠ 1 ∧ top - 2 ≠ 1 ∧ top - 3 ≠ 1 ∧ top - 4 ≠ 1 := by omega
    obtain ⟨h0, h1, h2, h3, h4⟩ := hlow
    simp [hfive, h0, h1, h2, h3, h4, List.subset_def]

/-- Five cards that fill the places of a straight have its ranks. -/
theorem values_of_reaches (hnodup : cards.Nodup) (hfive : cards.length = 5) (htop : top ∈ tops)
    (hreaches : reaches cards top = true) :
    shape cards = ones ∧ places top = (rankList cards).map Rank.value := by
  have hsub := (reaches_iff htop).1 hreaches
  have hnodup' : (places top).Nodup := (places_falling htop).imp fun h => Nat.ne_of_gt h
  have hranks : 5 ≤ (rankList cards).length := by
    have hle := (hnodup'.subperm hsub).length_le
    rw [length_places, List.length_map] at hle
    exact hle
  have hones := shape_eq_ones hnodup hfive hranks
  have hlength : (rankList cards).length = 5 := by
    have hsizes := congrArg List.length hones
    rwa [shape, List.length_map] at hsizes
  refine ⟨hones, eq_of_falling (places_falling htop) (falling_of_ones hones) hsub ?_⟩
  rw [List.length_map, length_places]
  exact Nat.le_of_eq hlength

theorem mem_tops_of_topOfStraight? (h : topOfStraight? cards = some top) :
    cards.length = 5 ∧ top ∈ tops ∧ reaches cards top = true := by
  unfold topOfStraight? at h
  split at h
  · next hfive => exact ⟨hfive, List.mem_of_find?_eq_some h, List.find?_some h⟩
  · simp at h

/-- The ranks of a straight are known by its top. -/
theorem values_of_topOfStraight? (hnodup : cards.Nodup) (h : topOfStraight? cards = some top) :
    shape cards = ones ∧ places top = (rankList cards).map Rank.value := by
  obtain ⟨hfive, htop, hreaches⟩ := mem_tops_of_topOfStraight? h
  exact values_of_reaches hnodup hfive htop hreaches

theorem topOfStraight?_eq_some_iff (hnodup : cards.Nodup) (hfive : cards.length = 5) :
    topOfStraight? cards = some top ↔
      top ∈ tops ∧ places top = (rankList cards).map Rank.value := by
  refine ⟨fun h => ?_, fun ⟨htop, hvalues⟩ => ?_⟩
  · exact ⟨(mem_tops_of_topOfStraight? h).2.1, (values_of_topOfStraight? hnodup h).2⟩
  · have hreaches : reaches cards top = true := (reaches_iff htop).2 (hvalues ▸ fun _ hv => hv)
    cases hfind : topOfStraight? cards with
    | none =>
        rw [topOfStraight?, if_pos hfive] at hfind
        exact absurd hreaches (List.find?_eq_none.1 hfind top htop)
    | some other =>
        have hother := (mem_tops_of_topOfStraight? hfind).2.1
        have hvalues' := (values_of_topOfStraight? hnodup hfind).2
        rw [places_injective htop hother (hvalues.trans hvalues'.symm)]

/-- A falling list of five rank values makes a straight when it lists its places. -/
theorem straightTop?_eq_some_iff {values : List Nat} (hfall : values.Pairwise (· > ·))
    (hvalues : RankValues values) :
    straightTop? values = some top ↔ top ∈ tops ∧ places top = values := by
  have hplaces : ∀ top ∈ tops, straightTop? (places top) = some top := by decide
  refine ⟨fun h => ?_, fun ⟨htop, heq⟩ => heq ▸ hplaces top htop⟩
  unfold straightTop? at h
  split at h
  · obtain rfl := Option.some.inj h
    exact ⟨by decide, rfl⟩
  · next a b c d e _ =>
    split at h
    · next hrun =>
      obtain rfl := Option.some.inj h
      have hlow : 2 ≤ e := (hvalues e (by simp)).1
      have hhigh : a ≤ 14 := (hvalues a (by simp)).2
      simp only [List.pairwise_cons, List.mem_cons, forall_eq_or_imp] at hfall
      have hrest : b = a - 1 ∧ c = a - 2 ∧ d = a - 3 ∧ e = a - 4 := by omega
      obtain ⟨rfl, rfl, rfl, rfl⟩ := hrest
      have hfive : a ≠ 5 := by omega
      refine ⟨?_, by simp [places, hfive]⟩
      simp only [tops, List.mem_cons, List.not_mem_nil, or_false]
      omega
    · simp at h
  · simp at h

/-- Five cards are of one suit when they all have the suit of the first. -/
theorem isFlush_eq (hfive : cards.length = 5) : Rules.isFlush cards = MadeHand.isFlush cards := by
  cases cards with
  | nil => simp at hfive
  | cons first rest =>
      have hall := first.suit.mem_all
      rw [Bool.eq_iff_iff, Rules.isFlush, MadeHand.isFlush]
      simp only [hfive, beq_self_eq_true, Bool.true_and, List.any_eq_true, List.all_eq_true,
        List.forall_mem_cons, beq_iff_eq]
      refine ⟨fun ⟨s, _, hfirst, hrest⟩ c hc => (hrest c hc).trans hfirst.symm, fun h => ?_⟩
      exact ⟨first.suit, hall, rfl, h⟩

/-- Different cards of one suit have different ranks. -/
theorem shape_of_isFlush (hnodup : cards.Nodup) (h : Rules.isFlush cards = true) :
    shape cards = ones := by
  simp only [Rules.isFlush, Bool.and_eq_true, beq_iff_eq, List.any_eq_true, List.all_eq_true] at h
  obtain ⟨hfive, s, -, hsuit⟩ := h
  have hranks : (cards.map Card.rank).Nodup := by
    refine List.pairwise_map.2 (hnodup.imp_of_mem fun {c d} hc hd hne hrank => hne ?_)
    cases c
    cases d
    exact Card.mk.injEq .. ▸ ⟨(hsuit _ hc).trans (hsuit _ hd).symm, hrank⟩
  refine shape_eq_ones hnodup hfive ?_
  have hsub : cards.map Card.rank ⊆ rankList cards := by
    intro r hr
    obtain ⟨c, hc, rfl⟩ := List.mem_map.1 hr
    exact value_mem_iff hc
  have hle := (hranks.subperm hsub).length_le
  rwa [List.length_map, hfive] at hle

end Rules

end PokerHand
