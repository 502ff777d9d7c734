import Mathlib.Data.List.Pairwise
import PokerHand.Hand.Dealing
import PokerHand.Proofs.Chips.Sums
import PokerHand.Proofs.SeatMap

/-!
# The layers of the pot

What the seats of a table have in the pot is a list of stakes by ascending seat, and the layers
that it is split into hold exactly those stakes.
-/
namespace PokerHand

open Counting

namespace Contributions

/-- The stake of a seat with the number of the seat. -/
def stake (s : Seat) : Nat × Contribution := (s.number, ⟨s.pot, s.folded⟩)

theorem entries_contribute_of_gt {c : Contributions} {s : Seat}
    (h : ∀ e ∈ c.entries, e.1 < s.number) :
    (c.contribute s.number s.pot s.folded).entries =
      c.entries ++ ([s].filter fun s => 0 < s.pot).map stake := by
  unfold contribute
  by_cases hpot : s.pot ≤ 0
  · simp [hpot, SeatMap.entries_erase_of_gt h, Int.not_lt.2 hpot]
  · have hpos : 0 < s.pot := by omega
    simp [hpot, SeatMap.insert, SeatMap.put_of_gt h, hpos, stake]

theorem entries_foldl_contribute {seats : List Seat} (c : Contributions)
    (hasc : (seats.map Seat.number).Pairwise (· < ·))
    (h : ∀ e ∈ c.entries, ∀ s ∈ seats, e.1 < s.number) :
    (seats.foldl (fun c s => c.contribute s.number s.pot s.folded) c).entries =
      c.entries ++ (seats.filter fun s => 0 < s.pot).map stake := by
  induction seats generalizing c with
  | nil => simp
  | cons s rest ih =>
      obtain ⟨hfirst, hrest⟩ := List.pairwise_cons.1 hasc
      have hs := entries_contribute_of_gt fun e he => h e he s List.mem_cons_self
      rw [List.foldl_cons, ih _ hrest, hs]
      · simp only [List.append_assoc, ← List.map_append, ← List.filter_append,
          List.singleton_append]
      · intro e he s' hs'
        rw [hs] at he
        rcases List.mem_append.1 he with he | he
        · exact h e he s' (List.mem_cons_of_mem _ hs')
        · obtain ⟨x, hx, rfl⟩ := List.mem_map.1 he
          obtain rfl : x = s := by simpa using (List.mem_filter.1 hx).1
          exact hfirst s'.number (List.mem_map_of_mem hs')

theorem mem_insertLevel {x level : Int} {levels : List Int} :
    x ∈ insertLevel level levels ↔ x = level ∨ x ∈ levels := by
  induction levels with
  | nil => simp [insertLevel]
  | cons l rest ih =>
      simp only [insertLevel]
      split
      · simp
      · split
        · next h => simp [h]
        · simp only [List.mem_cons, ih]
          grind

theorem pairwise_insertLevel {level : Int} {levels : List Int} (h : levels.Pairwise (· < ·)) :
    (insertLevel level levels).Pairwise (· < ·) := by
  induction levels with
  | nil => simp [insertLevel]
  | cons l rest ih =>
      obtain ⟨hl, hrest⟩ := List.pairwise_cons.1 h
      simp only [insertLevel]
      split
      · next hlt =>
        refine List.pairwise_cons.2 ⟨fun x hx => ?_, h⟩
        rcases List.mem_cons.1 hx with rfl | hx
        · exact hlt
        · exact Int.lt_trans hlt (hl x hx)
      · split
        · exact h
        · next hlt hne =>
          refine List.pairwise_cons.2 ⟨fun x hx => ?_, ih hrest⟩
          rcases mem_insertLevel.1 hx with rfl | hx
          · omega
          · exact hl x hx

theorem mem_levels {c : Contributions} {x : Int} :
    x ∈ c.levels ↔ ∃ e ∈ c.entries, e.2.amount = x := by
  unfold levels
  induction c.entries with
  | nil => simp
  | cons e rest ih => simp [mem_insertLevel, ih, eq_comm]

theorem pairwise_levels (c : Contributions) : c.levels.Pairwise (· < ·) := by
  unfold levels
  induction c.entries with
  | nil => simp
  | cons e rest ih => exact pairwise_insertLevel ih

theorem levels_pos {c : Contributions} (hpos : ∀ e ∈ c.entries, 0 < e.2.amount) :
    ∀ l ∈ c.levels, 0 < l := by
  intro l hl
  obtain ⟨e, he, rfl⟩ := mem_levels.1 hl
  exact hpos e he

/-- Where a stake ends, no higher level is reached by the same seats. -/
theorem reachedBy_ne {c : Contributions} {e : Nat × Contribution} (he : e ∈ c.entries) {level : Int}
    (hlt : e.2.amount < level) : c.reachedBy level ≠ c.reachedBy e.2.amount := by
  intro hsame
  have hmem : e.1 ∈ c.reachedBy e.2.amount :=
    List.mem_map_of_mem (List.mem_filter.2 ⟨he, by simp⟩)
  rw [← hsame] at hmem
  obtain ⟨other, hother, hseat⟩ := List.mem_map.1 hmem
  obtain ⟨hin, hreach⟩ := List.mem_filter.1 hother
  have hvalue := SeatMap.mem_entries_iff.1 he
  rw [← hseat, SeatMap.mem_entries_iff.1 hin, Option.some.injEq] at hvalue
  have := of_decide_eq_true hreach
  rw [hvalue] at this
  omega

/-- All stakes together, counted without bounds. -/
def staked (c : Contributions) : Int := (c.entries.map fun e => e.2.amount).sum

variable [Counting]

/-- One layer for each of the ascending `levels` above `floor`. -/
def layersFrom (c : Contributions) : Int → List Int → List SidePot
  | _, [] => []
  | floor, level :: rest => c.layer floor level :: layersFrom c level rest

theorem potsFrom_eq {c : Contributions} {floor : Int} {levels : List Int}
    (hasc : (floor :: levels).Pairwise (· < ·))
    (hends : ∀ l ∈ floor :: levels, ∃ e ∈ c.entries, e.2.amount = l) (top : SidePot) :
    c.potsFrom top floor levels = top :: c.layersFrom floor levels := by
  induction levels generalizing floor top with
  | nil => rfl
  | cons level rest ih =>
      obtain ⟨hfloor, hrest⟩ := List.pairwise_cons.1 hasc
      obtain ⟨⟨e, he, rfl⟩, hendsRest⟩ := List.forall_mem_cons.1 hends
      have hne := reachedBy_ne he (hfloor level List.mem_cons_self)
      rw [potsFrom, if_neg hne, ih hrest hendsRest, layersFrom]

/-- No two layers join: there is a pot for each level. -/
theorem pots_eq_layersFrom (c : Contributions) : c.pots = c.layersFrom 0 c.levels := by
  have hasc := pairwise_levels c
  have hends : ∀ l ∈ c.levels, ∃ e ∈ c.entries, e.2.amount = l := fun _ hl => mem_levels.1 hl
  unfold pots
  cases hlevels : c.levels with
  | nil => rfl
  | cons level rest =>
      rw [hlevels] at hasc hends
      exact potsFrom_eq hasc hends _

/-- Each layer lies between two levels. -/
theorem exists_layer_of_mem_layersFrom {c : Contributions} {floor : Int} {levels : List Int}
    (hasc : levels.Pairwise (· < ·)) (habove : ∀ l ∈ levels, floor < l) {p : SidePot}
    (hp : p ∈ c.layersFrom floor levels) :
    ∃ bottom level, floor ≤ bottom ∧ bottom < level ∧ level ∈ levels ∧
      p = c.layer bottom level := by
  induction levels generalizing floor with
  | nil => simp [layersFrom] at hp
  | cons level rest ih =>
      obtain ⟨hlevel, hrest⟩ := List.pairwise_cons.1 hasc
      have hfloor := habove level List.mem_cons_self
      rcases List.mem_cons.1 hp with rfl | hp
      · exact ⟨floor, level, Int.le_refl _, hfloor, List.mem_cons_self, rfl⟩
      · obtain ⟨bottom, top, hbottom, htop, hmem, rfl⟩ := ih hrest hlevel hp
        exact ⟨bottom, top, by omega, htop, List.mem_cons_of_mem _ hmem, rfl⟩

theorem map_level_layersFrom (c : Contributions) (floor : Int) (levels : List Int) :
    (c.layersFrom floor levels).map SidePot.level = levels := by
  induction levels generalizing floor with
  | nil => rfl
  | cons level rest ih => rw [layersFrom, List.map_cons, ih]; rfl

theorem map_level_pots (c : Contributions) : c.pots.map SidePot.level = c.levels := by
  rw [pots_eq_layersFrom, map_level_layersFrom]

/-- What a layer takes from each stake, if the stakes are within the bound of counting. -/
theorem total_layer {bound : Int} [Upto bound] {c : Contributions}
    (hpos : ∀ e ∈ c.entries, 0 < e.2.amount) (hbound : c.staked ≤ bound) {floor level : Int}
    (hfloor : 0 ≤ floor) (hlevel : floor ≤ level) (hend : level ∈ c.levels) :
    (c.layer floor level).wager = level - floor ∧
      (c.layer floor level).total =
        (c.entries.map fun e => if e.2.amount ≥ level then level - floor else 0).sum := by
  have hcount := sum_ite_const (fun e : Nat × Contribution => decide (e.2.amount ≥ level))
    (level - floor) c.entries
  simp only [decide_eq_true_eq] at hcount
  have htake : (c.entries.map fun e => if e.2.amount ≥ level then level - floor else 0).sum ≤
      c.staked :=
    List.sum_le_sum fun e he => by
      have := hpos e he
      split <;> omega
  have hnonneg : 0 ≤ (c.entries.map fun e => if e.2.amount ≥ level then level - floor else 0).sum :=
    List.sum_nonneg (List.forall_mem_map.2 fun e _ => by split <;> omega)
  obtain ⟨e, he, hamount⟩ := mem_levels.1 hend
  have hle : e.2.amount ≤ c.staked :=
    le_sum_map (f := fun e : Nat × Contribution => e.2.amount)
      (fun r hr => Int.le_of_lt (hpos r hr)) he
  have hwager : fit (level - floor) = level - floor := fit_eq bound (by omega) (by omega)
  refine ⟨hwager, ?_⟩
  rw [hcount] at hnonneg htake ⊢
  simp only [layer, reaching, hwager]
  exact fit_eq bound (by omega) (by omega)

/-- Layers above `floor` hold up to a cap what lies between the two, when every stake ends at
`floor` or at a level, and so does the cap. -/
theorem total_layersFrom_upTo {bound : Int} [Upto bound] {c : Contributions}
    (hpos : ∀ e ∈ c.entries, 0 < e.2.amount) (hbound : c.staked ≤ bound)
    {floor cap : Int} {levels : List Int} (hfloor : 0 ≤ floor)
    (hasc : levels.Pairwise (· < ·)) (habove : ∀ l ∈ levels, floor < l)
    (hlevels : ∀ l ∈ levels, l ∈ c.levels)
    (hends : ∀ e ∈ c.entries, e.2.amount ≤ floor ∨ e.2.amount ∈ levels)
    (hcap : cap ≤ floor ∨ cap ∈ levels) :
    ((c.layersFrom floor levels).map fun p => if p.level ≤ cap then p.total else 0).sum =
      (c.entries.map fun e => max (min e.2.amount cap - floor) 0).sum := by
  induction levels generalizing floor with
  | nil =>
      have hzero : ∀ e ∈ c.entries, max (min e.2.amount cap - floor) 0 = 0 := by
        intro e he
        have := hends e he
        simp at this
        omega
      rw [sum_map_congr hzero, List.sum_map_zero]
      rfl
  | cons level rest ih =>
      obtain ⟨hlevel, hrest⟩ := List.pairwise_cons.1 hasc
      obtain ⟨hin, hinRest⟩ := List.forall_mem_cons.1 hlevels
      have hgrow := habove level List.mem_cons_self
      have hends' : ∀ e ∈ c.entries, e.2.amount ≤ level ∨ e.2.amount ∈ rest := by
        intro e he
        rcases hends e he with h | h
        · exact .inl (by omega)
        · exact (List.mem_cons.1 h).imp_left Int.le_of_eq
      have hcap' : cap ≤ level ∨ cap ∈ rest := by
        rcases hcap with h | h
        · exact .inl (by omega)
        · exact (List.mem_cons.1 h).imp_left Int.le_of_eq
      -- what stays below `level` does not reach above the floor
      have hgap : ∀ amount, amount ≤ floor ∨ amount ∈ level :: rest →
          amount ≤ floor ∨ level ≤ amount := by
        intro amount h
        refine h.imp_right fun h => ?_
        rcases List.mem_cons.1 h with h | h
        · exact Int.le_of_eq h.symm
        · exact Int.le_of_lt (hlevel amount h)
      have htotal := (total_layer hpos hbound hfloor (Int.le_of_lt hgrow) hin).2
      rw [layersFrom, List.map_cons, List.sum_cons,
        ih (by omega) hrest hlevel hinRest hends' hcap', htotal]
      by_cases hreach : level ≤ cap
      · rw [if_pos (show (c.layer floor level).level ≤ cap from hreach), ← List.sum_map_add]
        refine sum_map_congr fun e he => ?_
        have := hgap _ (hends e he)
        split <;> omega
      · have hlow := hgap cap hcap
        rw [if_neg (show ¬ (c.layer floor level).level ≤ cap from hreach), Int.zero_add]
        exact sum_map_congr fun e _ => by omega

/-- The pots up to a level hold what lies below it of all stakes. -/
theorem total_pots_upTo {bound : Int} [Upto bound] {c : Contributions}
    (hpos : ∀ e ∈ c.entries, 0 < e.2.amount) (hbound : c.staked ≤ bound) {cap : Int}
    (hcap : cap ≤ 0 ∨ cap ∈ c.levels) :
    (c.pots.map fun p => if p.level ≤ cap then p.total else 0).sum =
      (c.entries.map fun e => max (min e.2.amount cap) 0).sum := by
  rw [pots_eq_layersFrom, total_layersFrom_upTo hpos hbound (Int.le_refl 0) (pairwise_levels c)
    (levels_pos hpos) (fun _ hl => hl) (fun e he => .inr (mem_levels.2 ⟨e, he, rfl⟩)) hcap]
  simp only [Int.sub_zero]

/-- The pots hold all that the seats have committed. -/
theorem sum_total_pots {bound : Int} [Upto bound] {c : Contributions}
    (hpos : ∀ e ∈ c.entries, 0 < e.2.amount) (hbound : c.staked ≤ bound) :
    (c.pots.map SidePot.total).sum = c.staked := by
  by_cases hnil : c.levels = []
  · have hentries : c.entries = [] := by
      refine List.eq_nil_iff_forall_not_mem.2 fun e he => ?_
      have hmem := mem_levels.2 ⟨e, he, rfl⟩
      rw [hnil] at hmem
      cases hmem
    rw [pots_eq_layersFrom, hnil, staked, hentries]
    rfl
  · have htop : ∀ l ∈ c.levels, l ≤ c.levels.getLast hnil := fun l hl =>
      ((pairwise_levels c).imp Int.le_of_lt).rel_getLast hl
    have hbelow : ∀ p ∈ c.pots, p.level ≤ c.levels.getLast hnil := by
      intro p hp
      apply htop
      rw [← map_level_pots]
      exact List.mem_map_of_mem hp
    calc
      (c.pots.map SidePot.total).sum
          = (c.pots.map fun p =>
              if p.level ≤ c.levels.getLast hnil then p.total else 0).sum :=
        sum_map_congr fun p hp => (if_pos (hbelow p hp)).symm
      _ = (c.entries.map fun e => max (min e.2.amount (c.levels.getLast hnil)) 0).sum :=
        total_pots_upTo hpos hbound (.inr (List.getLast_mem hnil))
      _ = c.staked :=
        sum_map_congr fun e he => by
          have hlast := htop _ (mem_levels.2 ⟨e, he, rfl⟩)
          have := hpos e he
          omega

end Contributions

/-- Of several seats one has as much in the pot as any. -/
theorem exists_max_pot {seats : List Seat} (hne : seats ≠ []) :
    ∃ s ∈ seats, (seats.map Seat.pot).max? = some s.pot ∧ ∀ r ∈ seats, r.pot ≤ s.pot := by
  obtain ⟨first, hfirst⟩ := List.exists_mem_of_ne_nil _ hne
  have hpot : first.pot ∈ seats.map Seat.pot := List.mem_map_of_mem hfirst
  obtain ⟨most, hmost⟩ := Option.isSome_iff_exists.1 (List.isSome_max?_of_mem hpot)
  obtain ⟨hmem, hle⟩ := List.max?_eq_some_iff.1 hmost
  obtain ⟨s, hs, rfl⟩ := List.mem_map.1 hmem
  exact ⟨s, hs, hmost, fun r hr => hle r.pot (List.mem_map_of_mem hr)⟩

namespace Hand

theorem contributions_entries {h : Hand} (hasc : (h.seats.map Seat.number).Pairwise (· < ·)) :
    h.contributions.entries = (h.seats.filter fun s => 0 < s.pot).map Contributions.stake := by
  simpa [contributions, SeatMap.empty] using
    Contributions.entries_foldl_contribute SeatMap.empty hasc (by simp [SeatMap.empty])

theorem amount_pos {h : Hand} (hasc : (h.seats.map Seat.number).Pairwise (· < ·)) :
    ∀ e ∈ h.contributions.entries, 0 < e.2.amount := by
  intro e he
  rw [contributions_entries hasc] at he
  obtain ⟨s, hs, rfl⟩ := List.mem_map.1 he
  simpa [Contributions.stake] using (List.mem_filter.1 hs).2

/-- A layer ends wherever the pot of a seat does that has put something in. -/
theorem mem_levels_iff {h : Hand} (hasc : (h.seats.map Seat.number).Pairwise (· < ·))
    {level : Int} :
    level ∈ h.contributions.levels ↔ 0 < level ∧ ∃ s ∈ h.seats, s.pot = level := by
  simp only [Contributions.mem_levels, contributions_entries hasc, List.mem_map, List.mem_filter,
    decide_eq_true_eq]
  constructor
  · rintro ⟨_, ⟨s, ⟨hs, hpos⟩, rfl⟩, rfl⟩
    exact ⟨hpos, s, hs, rfl⟩
  · rintro ⟨hpos, s, hs, rfl⟩
    exact ⟨_, ⟨s, ⟨hs, hpos⟩, rfl⟩, rfl⟩

theorem level_pos {h : Hand} (hasc : (h.seats.map Seat.number).Pairwise (· < ·)) :
    ∀ l ∈ h.contributions.levels, 0 < l := fun _ hl => ((mem_levels_iff hasc).1 hl).1

/-- The unfolded seats that have at least `level` chips in the pot. -/
def reaching (h : Hand) (level : Int) : List Seat :=
  h.seats.filter fun s => !s.folded && level ≤ s.pot

/-- The stakes that reach a layer are those of the seats that do. -/
theorem stakes_reaching {h : Hand} (hasc : (h.seats.map Seat.number).Pairwise (· < ·))
    {level : Int} (hlevel : 0 < level) :
    h.contributions.reaching level =
      (h.seats.filter fun s => level ≤ s.pot).map Contributions.stake := by
  rw [Contributions.reaching, contributions_entries hasc, List.filter_map, List.filter_filter]
  congr 1
  refine List.filter_congr fun s _ => ?_
  simp only [Function.comp_apply, Contributions.stake, ge_iff_le]
  by_cases hreach : level ≤ s.pot
  · have hpos : 0 < s.pot := by omega
    simp [hreach, hpos]
  · simp [hreach]

/-- What the seats have in the pot without bounds of counting. -/
theorem staked_contributions {h : Hand} (hasc : (h.seats.map Seat.number).Pairwise (· < ·))
    (hpot : ∀ s ∈ h.seats, 0 ≤ s.pot) :
    h.contributions.staked = (h.seats.map Seat.pot).sum := by
  calc
    h.contributions.staked
        = ((h.seats.filter fun s => 0 < s.pot).map Seat.pot).sum := by
      rw [Contributions.staked, contributions_entries hasc, List.map_map]
      rfl
    _ = (h.seats.map Seat.pot).sum :=
      sum_filter _ _ _ fun s hs hzero => by
        have := hpot s hs
        simp at hzero
        omega

variable [Counting]

/-- A layer can be won by the unfolded seats that reach its top. -/
theorem contributors_layer {h : Hand} (hasc : (h.seats.map Seat.number).Pairwise (· < ·))
    {floor level : Int} (hlevel : 0 < level) :
    (h.contributions.layer floor level).contributors = (h.reaching level).map Seat.number := by
  simp only [Contributions.layer, stakes_reaching hasc hlevel, List.filter_map, List.map_map,
    List.filter_filter, reaching]
  rfl

/-- The unfolded seats that reach the top of a layer of the pot can win it. -/
theorem contributors_of_mem_pots {h : Hand} (hasc : (h.seats.map Seat.number).Pairwise (· < ·))
    {p : SidePot} (hp : p ∈ h.contributions.pots) :
    p.contributors = (h.reaching p.level).map Seat.number := by
  rw [Contributions.pots_eq_layersFrom] at hp
  obtain ⟨bottom, level, hbottom, hlt, -, rfl⟩ := Contributions.exists_layer_of_mem_layersFrom
    (Contributions.pairwise_levels _) (level_pos hasc) hp
  exact contributors_layer hasc (by omega)

/-- A layer ends where the pot of a seat ends. -/
theorem exists_pot_of_mem_pots {h : Hand} (hasc : (h.seats.map Seat.number).Pairwise (· < ·))
    {p : SidePot} (hp : p ∈ h.contributions.pots) : ∃ s ∈ h.seats, s.pot = p.level := by
  rw [Contributions.pots_eq_layersFrom] at hp
  obtain ⟨bottom, level, -, -, hlevel, rfl⟩ := Contributions.exists_layer_of_mem_layersFrom
    (Contributions.pairwise_levels _) (level_pos hasc) hp
  exact ((mem_levels_iff hasc).1 hlevel).2

/-- A pot into which nobody has put anything has no layers. -/
theorem pots_eq_nil {h : Hand} (hasc : (h.seats.map Seat.number).Pairwise (· < ·))
    (hzero : ∀ s ∈ h.seats, s.pot = 0) : h.contributions.pots = [] := by
  have hnil : h.contributions.levels = [] := by
    refine List.eq_nil_iff_forall_not_mem.2 fun level hlevel => ?_
    obtain ⟨hpos, s, hs, rfl⟩ := (mem_levels_iff hasc).1 hlevel
    have := hzero s hs
    omega
  rw [Contributions.pots_eq_layersFrom, hnil, Contributions.layersFrom]

/-! Chips in the pot, as long as all of them are within the bound of counting. -/

variable {bound : Int} [Upto bound]

theorem wager_layer_eq {h : Hand} (hasc : (h.seats.map Seat.number).Pairwise (· < ·))
    (hpot : ∀ s ∈ h.seats, 0 ≤ s.pot) (hbound : (h.seats.map Seat.pot).sum ≤ bound)
    {floor level : Int} (hfloor : 0 ≤ floor) (hlevel : floor < level)
    (hend : level ∈ h.contributions.levels) :
    (h.contributions.layer floor level).wager = level - floor := by
  rw [← staked_contributions hasc hpot] at hbound
  exact (Contributions.total_layer (amount_pos hasc) hbound hfloor (Int.le_of_lt hlevel) hend).1

/-- A layer takes as much from every seat that reaches its top. -/
theorem total_layer_eq {h : Hand} (hasc : (h.seats.map Seat.number).Pairwise (· < ·))
    (hpot : ∀ s ∈ h.seats, 0 ≤ s.pot) (hbound : (h.seats.map Seat.pot).sum ≤ bound)
    {floor level : Int} (hfloor : 0 ≤ floor) (hlevel : floor < level)
    (hend : level ∈ h.contributions.levels) :
    (h.contributions.layer floor level).total =
      (level - floor) * (h.seats.countP fun s => level ≤ s.pot : Nat) := by
  have hpos := amount_pos hasc
  rw [← staked_contributions hasc hpot] at hbound
  have hcount := sum_ite_const (fun e : Nat × Contribution => decide (e.2.amount ≥ level))
    (level - floor) h.contributions.entries
  simp only [decide_eq_true_eq] at hcount
  have hreaching := stakes_reaching hasc (show 0 < level by omega)
  rw [(Contributions.total_layer hpos hbound hfloor (by omega) hend).2, hcount,
    List.countP_eq_length_filter, ← List.length_map (f := Contributions.stake), ← hreaching]
  rfl

/-- No layer of the pot holds a negative amount. -/
theorem total_nonneg_of_mem_pots {h : Hand} (hasc : (h.seats.map Seat.number).Pairwise (· < ·))
    (hpot : ∀ s ∈ h.seats, 0 ≤ s.pot) (hbound : (h.seats.map Seat.pot).sum ≤ bound)
    {p : SidePot} (hp : p ∈ h.contributions.pots) : 0 ≤ p.total := by
  rw [Contributions.pots_eq_layersFrom] at hp
  obtain ⟨bottom, level, hbottom, hlt, hend, rfl⟩ := Contributions.exists_layer_of_mem_layersFrom
    (Contributions.pairwise_levels _) (level_pos hasc) hp
  rw [total_layer_eq hasc hpot hbound hbottom hlt hend]
  exact Int.mul_nonneg (by omega) (by omega)

/-- The layers up to the pot of a seat hold what everybody has put in up to that much. -/
theorem sum_pots_upTo {h : Hand} (hasc : (h.seats.map Seat.number).Pairwise (· < ·))
    (hpot : ∀ s ∈ h.seats, 0 ≤ s.pot) (hbound : (h.seats.map Seat.pot).sum ≤ bound)
    {s : Seat} (hs : s ∈ h.seats) :
    (h.contributions.pots.map fun p => if p.level ≤ s.pot then p.total else 0).sum =
      (h.seats.map fun r => min s.pot r.pot).sum := by
  have hpos := amount_pos hasc
  have hs0 := hpot s hs
  rw [← staked_contributions hasc hpot] at hbound
  have hcap : s.pot ≤ 0 ∨ s.pot ∈ h.contributions.levels := by
    by_cases hzero : s.pot ≤ 0
    · exact .inl hzero
    · exact .inr ((mem_levels_iff hasc).2 ⟨Int.not_le.1 hzero, s, hs, rfl⟩)
  calc
    (h.contributions.pots.map fun p => if p.level ≤ s.pot then p.total else 0).sum
        = (h.contributions.entries.map fun e => max (min e.2.amount s.pot) 0).sum :=
      Contributions.total_pots_upTo hpos hbound hcap
    _ = (h.contributions.entries.map fun e => min s.pot e.2.amount).sum :=
      sum_map_congr fun e he => by have := hpos e he; omega
    _ = ((h.seats.filter fun r => 0 < r.pot).map fun r => min s.pot r.pot).sum := by
      rw [contributions_entries hasc, List.map_map]
      rfl
    _ = (h.seats.map fun r => min s.pot r.pot).sum :=
      sum_filter _ _ _ fun r hr hzero => by have := hpot r hr; simp at hzero; omega

/-- The layers hold all chips in the pot. -/
theorem sum_pots {h : Hand} (hasc : (h.seats.map Seat.number).Pairwise (· < ·))
    (hpot : ∀ s ∈ h.seats, 0 ≤ s.pot) (hbound : (h.seats.map Seat.pot).sum ≤ bound) :
    (h.contributions.pots.map SidePot.total).sum = (h.seats.map Seat.pot).sum := by
  rw [← staked_contributions hasc hpot] at hbound ⊢
  exact Contributions.sum_total_pots (amount_pos hasc) hbound

end Hand

end PokerHand
