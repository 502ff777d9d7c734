import Mathlib.Data.List.Dedup
import Mathlib.Data.List.Induction
import PokerHand.Proofs.Chips.Layers

/-!
# Side pots of any reports

What the seats have committed is reported in any order, with any amounts and again and again. The
last report for a seat counts, and only if its amount is positive
(`Contributions.mem_entries_reported`). However it was reported, there is one pot for each distinct
stake, and as long as a machine word holds all stakes together every pot takes from each seat what
its stake has between two neighbouring levels.
-/
namespace PokerHand

/-- A report of what a seat has committed. -/
structure Report where
  seat : Nat
  amount : Int
  folded : Bool

namespace Report

/-- The last report for a seat. -/
def lastFor? (reports : List Report) (seat : Nat) : Option Report :=
  reports.reverse.find? fun r => r.seat == seat

/-- What a seat has at stake: the amount of the last report for it, if that is positive. -/
def stakeOf (reports : List Report) (seat : Nat) : Int :=
  max (((lastFor? reports seat).map amount).getD 0) 0

/-- Whether a seat has folded, by the last report for it. -/
def hasFolded (reports : List Report) (seat : Nat) : Bool :=
  ((lastFor? reports seat).map folded).getD false

/-- The seats that there are reports for. -/
def seats (reports : List Report) : List Nat := (reports.map seat).dedup

theorem lastFor?_concat (reports : List Report) (r : Report) (seat : Nat) :
    lastFor? (reports ++ [r]) seat = if seat = r.seat then some r else lastFor? reports seat := by
  by_cases h : seat = r.seat
  · simp [lastFor?, h]
  · simp [lastFor?, h, Ne.symm h]

theorem stakeOf_nonneg (reports : List Report) (seat : Nat) : 0 ≤ stakeOf reports seat :=
  Int.le_max_right _ _

theorem mem_seats_of_stakeOf {reports : List Report} {seat : Nat}
    (hstake : 0 < stakeOf reports seat) : seat ∈ seats reports := by
  cases hlast : lastFor? reports seat with
  | none => simp [stakeOf, hlast] at hstake
  | some r =>
      have hmem := List.mem_of_find?_eq_some hlast
      have hseat : r.seat = seat := by simpa using List.find?_some hlast
      rw [seats, List.mem_dedup, ← hseat]
      exact List.mem_map_of_mem (List.mem_reverse.1 hmem)

end Report

namespace Contributions

open Report

variable {reports : List Report}

/-- What is committed after several reports. -/
def reported (reports : List Report) : Contributions :=
  reports.foldl (fun c r => c.contribute r.seat r.amount r.folded) SeatMap.empty

theorem find?_contribute (c : Contributions) (r : Report) (seat : Nat) :
    (c.contribute r.seat r.amount r.folded).find? seat =
      if seat = r.seat then if 0 < r.amount then some ⟨r.amount, r.folded⟩ else none
      else c.find? seat := by
  unfold contribute
  by_cases hnone : r.amount ≤ 0
  · rw [if_pos hnone, SeatMap.find?_erase, if_neg (Int.not_lt.2 hnone)]
  · rw [if_neg hnone, SeatMap.find?_insert, if_pos (Int.not_le.1 hnone)]

/-- Of the reports for a seat the last one counts. -/
theorem find?_reported (reports : List Report) (seat : Nat) :
    (reported reports).find? seat = (lastFor? reports seat).bind fun r =>
      if 0 < r.amount then some ⟨r.amount, r.folded⟩ else none := by
  induction reports using List.reverseRecOn with
  | nil => rfl
  | append_singleton reports r ih =>
      rw [reported, List.foldl_append, ← reported, List.foldl_cons, List.foldl_nil,
        find?_contribute, lastFor?_concat, ih]
      split <;> rfl

/-- Every seat with a stake has an entry, and nobody else. -/
theorem mem_entries_reported {seat : Nat} {value : Contribution} :
    (seat, value) ∈ (reported reports).entries ↔
      0 < stakeOf reports seat ∧ value = ⟨stakeOf reports seat, hasFolded reports seat⟩ := by
  rw [SeatMap.mem_entries_iff, find?_reported, stakeOf, hasFolded]
  cases lastFor? reports seat with
  | none => simp
  | some r =>
      by_cases hpos : 0 < r.amount
      · have hmax : max r.amount 0 = r.amount := by omega
        simp [hpos, hmax, eq_comm]
      · have hmax : max r.amount 0 = 0 := by omega
        simp [hpos, hmax]

theorem amount_pos_reported : ∀ e ∈ (reported reports).entries, 0 < e.2.amount := by
  intro e he
  obtain ⟨hpos, hvalue⟩ := mem_entries_reported.1 he
  rwa [hvalue]

/-- A sum over what is committed is a sum over the stakes of all seats. -/
theorem sum_reported (reports : List Report) {f : Int → Int} (hzero : f 0 = 0) :
    ((reported reports).entries.map fun e => f e.2.amount).sum =
      ((seats reports).map fun seat => f (stakeOf reports seat)).sum := by
  have hstaked : (reported reports).seats.Perm
      ((seats reports).filter fun seat => 0 < stakeOf reports seat) := by
    have hnodup : (reported reports).seats.Nodup :=
      (List.pairwise_map.2 (reported reports).ascending).imp Nat.ne_of_lt
    refine (List.perm_ext_iff_of_nodup hnodup ((List.nodup_dedup _).filter _)).2 fun seat => ?_
    rw [List.mem_filter, decide_eq_true_eq]
    constructor
    · intro hseat
      obtain ⟨e, he, rfl⟩ := List.mem_map.1 hseat
      have hpos := (mem_entries_reported.1 he).1
      exact ⟨mem_seats_of_stakeOf hpos, hpos⟩
    · rintro ⟨-, hpos⟩
      exact List.mem_map_of_mem (mem_entries_reported.2 ⟨hpos, rfl⟩)
  calc
    ((reported reports).entries.map fun e => f e.2.amount).sum
        = ((reported reports).entries.map fun e => f (stakeOf reports e.1)).sum :=
      sum_map_congr fun e he => by rw [(mem_entries_reported.1 he).2]
    _ = ((reported reports).seats.map fun seat => f (stakeOf reports seat)).sum := by
      rw [SeatMap.seats, List.map_map]
      rfl
    _ = (((seats reports).filter fun seat => 0 < stakeOf reports seat).map fun seat =>
          f (stakeOf reports seat)).sum :=
      List.Perm.sum_eq (hstaked.map _)
    _ = ((seats reports).map fun seat => f (stakeOf reports seat)).sum :=
      sum_filter _ _ _ fun seat _ hnone => by
        have hnonneg := stakeOf_nonneg reports seat
        have hnone : stakeOf reports seat = 0 := by
          simp only [decide_eq_false_iff_not] at hnone
          omega
        rw [hnone, hzero]

/-- The pots end where stakes do. -/
theorem mem_levels_reported {level : Int} :
    level ∈ (reported reports).levels ↔ 0 < level ∧ ∃ seat, stakeOf reports seat = level := by
  rw [mem_levels]
  constructor
  · rintro ⟨e, he, rfl⟩
    obtain ⟨hpos, hvalue⟩ := mem_entries_reported.1 he
    rw [hvalue]
    exact ⟨hpos, e.1, rfl⟩
  · rintro ⟨hpos, seat, rfl⟩
    exact ⟨_, mem_entries_reported.2 ⟨hpos, rfl⟩, rfl⟩

/-- What is committed is what the seats have at stake. -/
theorem staked_reported (reports : List Report) :
    (reported reports).staked = ((seats reports).map (stakeOf reports)).sum :=
  sum_reported reports (f := fun stake => stake) rfl

variable [Counting]

/-- The layers lie one on top of the other, and no stake ends inside of one. -/
theorem forall₂_layersFrom {c : Contributions} {floor : Int} {levels : List Int}
    (hfloor : 0 ≤ floor) (hasc : (floor :: levels).Pairwise (· < ·))
    (hends : ∀ e ∈ c.entries, e.2.amount ≤ floor ∨ e.2.amount ∈ levels) :
    List.Forall₂ (fun below p => p = c.layer below p.level ∧ 0 ≤ below ∧ below < p.level ∧
        p.level ∈ levels ∧ ∀ e ∈ c.entries, e.2.amount ≤ below ∨ p.level ≤ e.2.amount)
      (floor :: levels).dropLast (c.layersFrom floor levels) := by
  induction levels generalizing floor with
  | nil => exact .nil
  | cons level rest ih =>
      obtain ⟨habove, hrest⟩ := List.pairwise_cons.1 hasc
      obtain ⟨hlevel, -⟩ := List.pairwise_cons.1 hrest
      have hfirst := habove level List.mem_cons_self
      have hlater := ih (by omega) hrest fun e he => ?_
      · refine .cons ⟨rfl, hfloor, hfirst, List.mem_cons_self, fun e he => ?_⟩
          (hlater.imp fun below p hp =>
            ⟨hp.1, hp.2.1, hp.2.2.1, List.mem_cons_of_mem _ hp.2.2.2.1, hp.2.2.2.2⟩)
        refine (hends e he).imp_right fun hmem => ?_
        rcases List.mem_cons.1 hmem with heq | hmem
        · exact Int.le_of_eq heq.symm
        · exact Int.le_of_lt (hlevel _ hmem)
      · rcases hends e he with hle | hmem
        · exact .inl (by omega)
        · exact (List.mem_cons.1 hmem).imp_left Int.le_of_eq

end Contributions

namespace SidePot

open Contributions Report

/-- The pot takes from every seat what its stake has between `below` and the level of the pot, and
the unfolded seats that reach the level can win it. -/
structure SplitsStakes (reports : List Report) (below : Int) (p : SidePot) : Prop where
  wager : p.wager = p.level - below
  total : p.total = ((seats reports).map fun seat =>
    min (stakeOf reports seat) p.level - min (stakeOf reports seat) below).sum
  ascending : p.contributors.Pairwise (· < ·)
  mem_contributors : ∀ seat, seat ∈ p.contributors ↔
    p.level ≤ stakeOf reports seat ∧ hasFolded reports seat = false

section Counted

open Counting

variable [Counting] {reports : List Report} {below level : Int}

/-- A layer takes that much, as long as all stakes together are within the bound of counting. -/
theorem layer_reported {bound : Int} [Upto bound] (hbound : (reported reports).staked ≤ bound)
    (hbelow : 0 ≤ below) (hlt : below < level) (hend : level ∈ (reported reports).levels)
    (hgap : ∀ e ∈ (reported reports).entries, e.2.amount ≤ below ∨ level ≤ e.2.amount) :
    ((reported reports).layer below level).wager = level - below ∧
      ((reported reports).layer below level).total = ((seats reports).map fun seat =>
        min (stakeOf reports seat) level - min (stakeOf reports seat) below).sum := by
  have hzero : min 0 level - min 0 below = 0 := by omega
  obtain ⟨hwager, htotal⟩ :=
    total_layer amount_pos_reported hbound hbelow (Int.le_of_lt hlt) hend
  refine ⟨hwager, htotal.trans ?_⟩
  calc
    ((reported reports).entries.map fun e =>
          if e.2.amount ≥ level then level - below else 0).sum
        = ((reported reports).entries.map fun e =>
            min e.2.amount level - min e.2.amount below).sum :=
      sum_map_congr fun e he => by
        have := hgap e he
        split <;> omega
    _ = ((seats reports).map fun seat =>
          min (stakeOf reports seat) level - min (stakeOf reports seat) below).sum :=
      sum_reported reports (f := fun stake => min stake level - min stake below) hzero

theorem splitsStakes_layer {bound : Int} [Upto bound] (hbound : (reported reports).staked ≤ bound)
    (hbelow : 0 ≤ below) (hlt : below < level) (hend : level ∈ (reported reports).levels)
    (hgap : ∀ e ∈ (reported reports).entries, e.2.amount ≤ below ∨ level ≤ e.2.amount) :
    SplitsStakes reports below ((reported reports).layer below level) where
  wager := (layer_reported hbound hbelow hlt hend hgap).1
  total := (layer_reported hbound hbelow hlt hend hgap).2
  ascending := by
    refine List.pairwise_map.2 (List.Pairwise.filter _ (List.Pairwise.filter _ ?_))
    exact (reported reports).ascending
  mem_contributors seat := by
    simp only [layer, reaching, List.filter_filter, List.mem_map, List.mem_filter, Bool.and_eq_true,
      Bool.not_eq_true', decide_eq_true_eq]
    constructor
    · rintro ⟨e, ⟨he, hlive, hreach⟩, rfl⟩
      rw [(mem_entries_reported.1 he).2] at hlive hreach
      exact ⟨hreach, hlive⟩
    · rintro ⟨hreach, hlive⟩
      exact ⟨_, ⟨mem_entries_reported.2 ⟨by omega, rfl⟩, hlive, hreach⟩, rfl⟩

end Counted

end SidePot

end PokerHand
