import Mathlib.Data.List.Perm.Subperm
import PokerHand.Proofs.Lists
import PokerHand.Proofs.Ranking.Rules
import PokerHand.Ranking.MadeHand

/-!
# Groups of equal rank

The groups that a hand is scored by are the cards of each of its ranks, in the order of the ranks
that the rules give (`groups_eq`). They hold every card once (`flatten_groups_perm`).
-/
namespace PokerHand

namespace Rules

variable {cards : List Card} {r s : Rank}

theorem multiplicity_eq_length (cards : List Card) (r : Rank) :
    multiplicity cards r = (cards.filter fun c => c.rank == r).length := by
  rw [multiplicity, List.count_eq_countP, List.countP_map, List.countP_eq_length_filter]
  rfl

theorem leads_iff : leads cards r s = true ↔ multiplicity cards s < multiplicity cards r ∨
    multiplicity cards s = multiplicity cards r ∧ s.value ≤ r.value := by
  simp [leads]

theorem leads_total (cards : List Card) (r s : Rank) :
    (leads cards r s || leads cards s r) = true := by
  rw [Bool.or_eq_true, leads_iff, leads_iff]
  omega

theorem leads_trans (cards : List Card) (r s t : Rank) (hrs : leads cards r s = true)
    (hst : leads cards s t = true) : leads cards r t = true := by
  rw [leads_iff] at hrs hst ⊢
  omega

theorem leads_antisymm (hrs : leads cards r s = true) (hsr : leads cards s r = true) : r = s := by
  rw [leads_iff] at hrs hsr
  exact Rank.value_injective (by omega)

theorem mem_rankList : r ∈ rankList cards ↔ 0 < multiplicity cards r := by
  rw [rankList, List.mem_mergeSort, List.mem_filter]
  simp [r.mem_all]

theorem pairwise_leads (cards : List Card) :
    (rankList cards).Pairwise fun r s => leads cards r s = true :=
  List.pairwise_mergeSort (leads_trans cards) (leads_total cards) _

theorem nodup_rankList (cards : List Card) : (rankList cards).Nodup := by
  have hall : Rank.all.Nodup := by decide
  exact (List.mergeSort_perm _ _).nodup_iff.2 (hall.filter _)

/-- The list of ranks depends on nothing but how many cards each rank has. -/
theorem rankList_congr {a b : List Card} (hcount : multiplicity a = multiplicity b) :
    rankList a = rankList b := by
  have hleads : leads a = leads b := by
    unfold leads
    rw [hcount]
  unfold rankList
  rw [hcount, hleads]

/-- There is one way to list ranks as the rules have it. -/
theorem eq_rankList {ranks : List Rank}
    (hperm : ranks.Perm (Rank.all.filter fun r => 0 < multiplicity cards r))
    (hleads : ranks.Pairwise fun r s => leads cards r s = true) : ranks = rankList cards :=
  (hperm.trans (List.mergeSort_perm _ _).symm).eq_of_pairwise
    (fun _ _ _ _ hrs hsr => leads_antisymm hrs hsr) hleads (pairwise_leads cards)

end Rules

namespace MadeHand

open Rules

/-- The cards of one rank. -/
def ofRank (cards : List Card) (r : Rank) : List Card := cards.filter fun c => c.rank == r

theorem length_ofRank (cards : List Card) (r : Rank) :
    (ofRank cards r).length = multiplicity cards r :=
  (multiplicity_eq_length cards r).symm

theorem rank_of_mem_ofRank {cards : List Card} {c : Card} {r : Rank} (hc : c ∈ ofRank cards r) :
    c.rank = r := by
  simpa using (List.mem_filter.1 hc).2

theorem sorted_perm (cards : List Card) : (sorted cards).Perm cards := Lists.sortBy_perm _ cards

/-- The ranks fall from one card to the next. -/
theorem pairwise_sorted (cards : List Card) :
    (sorted cards).Pairwise fun c d => d.rank.value ≤ c.rank.value := by
  have h : (sorted cards).Pairwise fun c d => decide (d.rank.value ≤ c.rank.value) = true :=
    Lists.pairwise_sortBy (fun c d => by simpa using Nat.le_total _ _)
    (fun c d e hcd hde => by simp only [decide_eq_true_eq] at *; omega) cards
  exact h.imp of_decide_eq_true

/-- Cards of one rank stay in their given order. -/
theorem ofRank_sorted (cards : List Card) (r : Rank) : ofRank (sorted cards) r = ofRank cards r :=
  Lists.filter_sortBy (fun c d hc hd => by simp_all) cards

/-- The ranks of the groups are the ranks of the cards, each once and falling. -/
theorem ranks_byRank (cards : List Card) :
    (Lists.gather Card.rank (sorted cards)).map Prod.fst =
      Rank.all.reverse.filter fun r => 0 < multiplicity cards r := by
  have hfalling : ((Lists.gather Card.rank (sorted cards)).map Prod.fst).Pairwise
      fun r s => s.value ≤ r.value :=
    (List.pairwise_map.2 (pairwise_sorted cards)).sublist (Lists.map_fst_gather_sublist _ _)
  have hstrict := (hfalling.and (Lists.nodup_map_fst_gather _ _)).imp fun {r s} h =>
    Nat.lt_of_le_of_ne h.1 fun he => h.2 (Rank.value_injective he).symm
  have hall : (Rank.all.reverse.filter fun r => 0 < multiplicity cards r).Pairwise
      fun r s => s.value < r.value :=
    List.Pairwise.filter _ (by decide)
  have : Std.Irrefl fun r s : Rank => s.value < r.value := ⟨fun r => Nat.lt_irrefl r.value⟩
  refine hstrict.eq_of_mem_iff hall fun r => ?_
  rw [Lists.mem_map_fst_gather, ((sorted_perm cards).map _).mem_iff, List.mem_filter,
    List.mem_reverse, decide_eq_true_eq, Rules.multiplicity, List.count_pos_iff]
  simp [r.mem_all]

/-- The groups that the sorted cards are gathered into are the cards of each rank. -/
theorem byRank_eq (cards : List Card) :
    byRank cards =
      (Rank.all.reverse.filter fun r => 0 < multiplicity cards r).map (ofRank cards) := by
  rw [← ranks_byRank, List.map_map, byRank]
  refine List.map_congr_left fun g hg => ?_
  have hgroup : g.2 = ofRank (sorted cards) g.1 :=
    (Lists.snd_of_mem_gather hg).trans (List.filter_congr fun c _ => by simp [beq_eq_decide])
  rw [hgroup, ofRank_sorted, Function.comp_apply]

/-- The groups stand in the order that the rules give their ranks. -/
theorem groups_eq (cards : List Card) : groups cards = (rankList cards).map (ofRank cards) := by
  have hfalling : (Rank.all.reverse.filter fun r => 0 < multiplicity cards r).Pairwise
      fun r s => s.value ≤ r.value :=
    List.Pairwise.filter _ (by decide)
  -- among falling ranks the longer groups are those that lead
  have hleads : (Rank.all.reverse.filter fun r => 0 < multiplicity cards r).Pairwise fun r s =>
      decide ((ofRank cards s).length ≤ (ofRank cards r).length) = leads cards r s :=
    hfalling.imp fun {r s} hvalue => by
      rw [Bool.eq_iff_iff, decide_eq_true_eq, leads_iff, length_ofRank, length_ofRank]
      omega
  rw [groups, byRank_eq, Lists.sortBy_map, Lists.sortBy_congr hleads]
  refine congrArg _ (eq_rankList ?_ ?_)
  · exact (Lists.sortBy_perm _ _).trans ((List.reverse_perm _).filter _)
  · exact Lists.pairwise_sortBy (fun r s => (Bool.or_eq_true _ _).mp (leads_total cards r s))
      (leads_trans cards) _

/-- Each group tells its rank. -/
theorem values_groups (cards : List Card) :
    values (groups cards) = (rankList cards).map Rank.value := by
  rw [groups_eq, values, List.filterMap_map, ← List.filterMap_eq_map]
  refine List.filterMap_congr fun r hr => ?_
  have hpos : 0 < (ofRank cards r).length := by
    rw [length_ofRank]
    exact mem_rankList.1 hr
  cases hgroup : ofRank cards r with
  | nil => simp [hgroup] at hpos
  | cons c rest =>
      have hmem : c ∈ ofRank cards r := hgroup ▸ List.mem_cons_self
      simp [hgroup, rank_of_mem_ofRank hmem]

theorem sizes_groups (cards : List Card) :
    (groups cards).map List.length = (rankList cards).map (multiplicity cards) := by
  rw [groups_eq, List.map_map]
  exact List.map_congr_left fun r _ => length_ofRank cards r

/-- Card by card the groups have the ranks as the rules list them, each as often as it occurs. -/
theorem ranks_groups (cards : List Card) : (groups cards).flatten.map Card.rank =
    (rankList cards).flatMap fun r => List.replicate (multiplicity cards r) r := by
  rw [groups_eq, List.map_flatten, List.map_map, List.flatMap_def]
  refine congrArg List.flatten (List.map_congr_left fun r _ => ?_)
  refine List.eq_replicate_iff.2 ⟨?_, fun s hs => ?_⟩
  · rw [Function.comp_apply, List.length_map, length_ofRank]
  · obtain ⟨c, hc, rfl⟩ := List.mem_map.1 hs
    exact rank_of_mem_ofRank hc

/-- Ranks of their own, each with its cards, hold all cards of these ranks. -/
theorem flatten_ofRank_perm {ranks : List Rank} (hnodup : ranks.Nodup) (cards : List Card) :
    ((ranks.map (ofRank cards)).flatten).Perm (cards.filter fun c => c.rank ∈ ranks) := by
  induction ranks with
  | nil => simp
  | cons r rest ih =>
      obtain ⟨hr, hrest⟩ := List.nodup_cons.1 hnodup
      have hsplit := List.filter_append_perm (fun c : Card => c.rank == r)
        (cards.filter fun c => c.rank ∈ r :: rest)
      rw [List.filter_filter, List.filter_filter] at hsplit
      refine List.Perm.trans ?_ hsplit
      rw [List.map_cons, List.flatten_cons]
      have hfirst : (cards.filter fun c => c.rank == r && decide (c.rank ∈ r :: rest)) =
          ofRank cards r := List.filter_congr fun c _ => by
        by_cases h : c.rank = r <;> simp [h]
      have hothers : (cards.filter fun c => !(c.rank == r) && decide (c.rank ∈ r :: rest)) =
          cards.filter fun c => c.rank ∈ rest := List.filter_congr fun c _ => by
        by_cases h : c.rank = r <;> simp [h, hr]
      rw [hfirst, hothers]
      exact (ih hrest).append_left _

/-- The groups hold the cards of the hand. -/
theorem flatten_groups_perm (cards : List Card) : (groups cards).flatten.Perm cards := by
  rw [groups_eq]
  refine (flatten_ofRank_perm (nodup_rankList cards) cards).trans (.of_eq ?_)
  refine List.filter_eq_self.2 fun c hc => ?_
  rw [decide_eq_true_eq, mem_rankList, Rules.multiplicity, List.count_pos_iff]
  exact List.mem_map_of_mem hc

/-- A scored hand shows the cards that were scored. -/
theorem cards_evaluate_perm (cards : List Card) (order : Order) :
    (evaluate cards order).cards.Perm cards := by
  have hgroups := flatten_groups_perm cards
  have hturned : ∀ xs : List Card, (xs.rotateLeft 1).Perm xs := fun xs => by
    simp only [List.rotateLeft]
    split
    · exact .refl _
    · exact List.perm_append_comm.trans (.of_eq (List.take_append_drop _ _))
  simp only [evaluate]
  split
  · split
    · simp only
      split
      · exact (hturned _).trans hgroups
      · exact hgroups
    · exact hgroups
  · exact hgroups

end MadeHand

end PokerHand
