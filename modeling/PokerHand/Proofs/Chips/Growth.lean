import PokerHand.Proofs.Stage

/-!
# How the layers of the pot grow

While nobody puts more into the pot but the seats that have most in it, the layers below the last
stay as they are, the last may grow, and new ones only come above it (`Hand.extends_pots`). A seat
that folds in between drops out of what it could win.
-/
namespace PokerHand

namespace SidePot

/-- The pot `q` in the place of `p` is nowhere smaller, and nobody new can win it. -/
structure Grown (p q : SidePot) : Prop where
  level : p.level ≤ q.level
  wager : p.wager ≤ q.wager
  total : p.total ≤ q.total
  contributors : q.contributors ⊆ p.contributors

/-- The pots take the same from the seats. -/
def SameStake (p q : SidePot) : Prop := q.level = p.level ∧ q.wager = p.wager ∧ q.total = p.total

theorem Grown.refl (p : SidePot) : p.Grown p :=
  ⟨Int.le_refl _, Int.le_refl _, Int.le_refl _, List.Subset.refl _⟩

theorem Grown.trans {p q r : SidePot} (hpq : p.Grown q) (hqr : q.Grown r) : p.Grown r where
  level := Int.le_trans hpq.level hqr.level
  wager := Int.le_trans hpq.wager hqr.wager
  total := Int.le_trans hpq.total hqr.total
  contributors := List.Subset.trans hqr.contributors hpq.contributors

theorem SameStake.grown {p q : SidePot} (hsame : p.SameStake q)
    (hcontributors : q.contributors ⊆ p.contributors) : p.Grown q :=
  ⟨Int.le_of_eq hsame.1.symm, Int.le_of_eq hsame.2.1.symm, Int.le_of_eq hsame.2.2.symm,
    hcontributors⟩

theorem SameStake.trans {p q r : SidePot} (hpq : p.SameStake q) (hqr : q.SameStake r) :
    p.SameStake r :=
  ⟨hqr.1.trans hpq.1, hqr.2.1.trans hpq.2.1, hqr.2.2.trans hpq.2.2⟩

/-- The pots `new` extend the last of `old` at most, and append others to them. -/
structure Extends (old new : List SidePot) : Prop where
  length_le : old.length ≤ new.length
  grown : ∀ i p, old[i]? = some p →
    ∃ q, new[i]? = some q ∧ p.Grown q ∧ (i + 1 < old.length → p.SameStake q)

namespace Extends

variable {old new later : List SidePot}

theorem nil (new : List SidePot) : Extends [] new :=
  ⟨Nat.zero_le _, by simp⟩

theorem refl (pots : List SidePot) : Extends pots pots :=
  ⟨Nat.le_refl _, fun _ p hp => ⟨p, hp, .refl p, fun _ => ⟨rfl, rfl, rfl⟩⟩⟩

theorem trans (hfirst : Extends old new) (hrest : Extends new later) : Extends old later where
  length_le := Nat.le_trans hfirst.length_le hrest.length_le
  grown := by
    intro i p hp
    obtain ⟨q, hq, hpq, hsame⟩ := hfirst.grown i p hp
    obtain ⟨r, hr, hqr, hsame'⟩ := hrest.grown i q hq
    have hle := hfirst.length_le
    exact ⟨r, hr, hpq.trans hqr, fun hlt => (hsame hlt).trans (hsame' (by omega))⟩

theorem cons {p q : SidePot} (hpq : p.Grown q) (hsame : old ≠ [] → p.SameStake q)
    (h : Extends old new) : Extends (p :: old) (q :: new) where
  length_le := Nat.succ_le_succ h.length_le
  grown := by
    intro i p' hp'
    cases i with
    | zero =>
        obtain rfl : p = p' := by simpa using hp'
        refine ⟨q, rfl, hpq, fun hlt => hsame (List.ne_nil_of_length_pos ?_)⟩
        simpa using hlt
    | succ i =>
        obtain ⟨q', hq', hgrown, hrest⟩ := h.grown i p' (by simpa using hp')
        exact ⟨q', by simpa using hq', hgrown, fun hlt => hrest (by simpa using hlt)⟩

/-- Nothing extends to nothing but nothing. -/
theorem eq_nil (h : Extends old []) : old = [] :=
  List.eq_nil_of_length_eq_zero (Nat.le_zero.1 h.length_le)

end Extends

end SidePot

namespace Hand

open SidePot (Extends Grown SameStake)

variable {h h' : Hand} {f : Seat → Seat}

/-- Nobody comes back, and nobody's pot grows but that of the seats with the most in the pot. -/
structure Grows (h : Hand) (f : Seat → Seat) : Prop where
  number : ∀ s ∈ h.seats, (f s).number = s.number
  folded : ∀ s ∈ h.seats, s.folded = true → (f s).folded = true
  pot : ∀ s ∈ h.seats, (f s).pot = s.pot ∨ h.Tops s ∧ s.pot ≤ (f s).pot

/-- Levels that agree below a bound above the first of them begin with the same one and agree
thereafter. -/
theorem levels_agree {level level' bound : Int} {rest rest' : List Int}
    (hlow : ∀ l ∈ rest, level < l) (hlow' : ∀ l ∈ rest', level' < l) (hlt : level < bound)
    (hsame : ∀ l < bound, l ∈ level' :: rest' ↔ l ∈ level :: rest) :
    level' = level ∧ ∀ l < bound, l ∈ rest' ↔ l ∈ rest := by
  have hle : level' ≤ level := by
    rcases List.mem_cons.1 ((hsame level hlt).2 List.mem_cons_self) with heq | hmem
    · exact Int.le_of_eq heq.symm
    · exact Int.le_of_lt (hlow' _ hmem)
  have hge : level ≤ level' := by
    rcases List.mem_cons.1 ((hsame level' (by omega)).1 List.mem_cons_self) with heq | hmem
    · exact Int.le_of_eq heq.symm
    · exact Int.le_of_lt (hlow _ hmem)
  obtain rfl := Int.le_antisymm hle hge
  refine ⟨rfl, fun l hl => ?_⟩
  have hmem := hsame l hl
  have hnot : l ∈ rest → l ≠ level' := fun hl => Int.ne_of_gt (hlow l hl)
  have hnot' : l ∈ rest' → l ≠ level' := fun hl => Int.ne_of_gt (hlow' l hl)
  simp only [List.mem_cons] at hmem
  tauto

namespace Grows

variable (hg : h.Grows f) {t : Seat} (ht : t ∈ h.seats) {floor level : Int}

include hg

theorem ascending (hseats : h'.seats = h.seats.map f)
    (hasc : (h.seats.map Seat.number).Pairwise (· < ·)) :
    (h'.seats.map Seat.number).Pairwise (· < ·) := by
  have hsame : h'.seats.map Seat.number = h.seats.map Seat.number := by
    rw [hseats, List.map_map]
    exact List.map_congr_left hg.number
  rwa [hsame]

include ht

/-- Up to a pot that there was the same seats reach a level. -/
theorem reach_iff {s : Seat} (hs : s ∈ h.seats) (hle : level ≤ t.pot) :
    level ≤ (f s).pot ↔ level ≤ s.pot := by
  rcases hg.pot s hs with hsame | ⟨htop, hgrown⟩
  · rw [hsame]
  · have := htop t ht
    omega

/-- Below a pot that there was the pots of the seats end where they did. -/
theorem ends_iff (hlt : level < t.pot) :
    (∃ s ∈ h.seats, (f s).pot = level) ↔ ∃ s ∈ h.seats, s.pot = level := by
  refine exists_congr fun s => and_congr_right fun hs => ?_
  rcases hg.pot s hs with hsame | ⟨htop, hgrown⟩
  · rw [hsame]
  · have := htop t ht
    omega

theorem mem_levels_iff (hseats : h'.seats = h.seats.map f)
    (hasc : (h.seats.map Seat.number).Pairwise (· < ·)) (hlt : level < t.pot) :
    level ∈ h'.contributions.levels ↔ level ∈ h.contributions.levels := by
  rw [Hand.mem_levels_iff hasc, Hand.mem_levels_iff (hg.ascending hseats hasc),
    ← hg.ends_iff ht hlt, hseats]
  simp

variable [Counting]

section Layers

variable (hseats : h'.seats = h.seats.map f) (hasc : (h.seats.map Seat.number).Pairwise (· < ·))

include hseats hasc

/-- Nobody new can win what takes the place of a layer. -/
theorem contributors_subset (hpos : 0 < level) (hle : level ≤ t.pot) {floor' top : Int}
    (htop : level ≤ top) :
    (h'.contributions.layer floor' top).contributors ⊆
      (h.contributions.layer floor level).contributors := by
  rw [contributors_layer hasc hpos, contributors_layer (hg.ascending hseats hasc) (by omega)]
  intro seat hseat
  obtain ⟨s', hs', rfl⟩ := List.mem_map.1 hseat
  rw [reaching, hseats, List.mem_filter] at hs'
  obtain ⟨hmem, hreach⟩ := hs'
  obtain ⟨s, hs, rfl⟩ := List.mem_map.1 hmem
  simp only [Bool.and_eq_true, Bool.not_eq_true', decide_eq_true_eq] at hreach
  have hlive : s.folded = false :=
    Bool.eq_false_iff.2 fun hfolded => by simp [hg.folded s hs hfolded] at hreach
  have hlevel := (hg.reach_iff ht hs hle).1 (Int.le_trans htop hreach.2)
  rw [hg.number s hs]
  exact List.mem_map_of_mem (List.mem_filter.2 ⟨hs, by simp [hlive, hlevel]⟩)

/-- Between levels that there were the layer is the same. -/
theorem sameStake_layer (hpos : 0 < level) (hle : level ≤ t.pot) :
    (h.contributions.layer floor level).SameStake (h'.contributions.layer floor level) := by
  have hcount : (h'.contributions.reaching level).length =
      (h.contributions.reaching level).length := by
    rw [stakes_reaching hasc hpos, stakes_reaching (hg.ascending hseats hasc) hpos, hseats,
      List.length_map, List.length_map, ← List.countP_eq_length_filter,
      ← List.countP_eq_length_filter, List.countP_map]
    exact List.countP_congr fun s hs => by simpa using hg.reach_iff ht hs hle
  exact ⟨rfl, rfl, by simp only [Contributions.layer, hcount]⟩

/-! The last layer, as long as the chips in the pot are within the bound of counting before and
after. -/

variable {bound : Int} [Counting.Upto bound]
  (hpot : ∀ s ∈ h.seats, 0 ≤ s.pot) (hbound : (h.seats.map Seat.pot).sum ≤ bound)
  (hpot' : ∀ s ∈ h'.seats, 0 ≤ s.pot) (hbound' : (h'.seats.map Seat.pot).sum ≤ bound)

include hpot hbound hpot' hbound'

/-- The last layer grows to the first level above it. -/
theorem grown_layer (hzero : 0 ≤ floor) (hfloor : floor < t.pot) {top : Int} (htop : t.pot ≤ top)
    (hlevel : top ∈ h'.contributions.levels)
    (hends : ∀ s ∈ h.seats, t.pot ≤ (f s).pot → top ≤ (f s).pot) :
    (h.contributions.layer floor t.pot).Grown (h'.contributions.layer floor top) := by
  have hasc' := hg.ascending hseats hasc
  have hend : t.pot ∈ h.contributions.levels :=
    (Hand.mem_levels_iff hasc).2 ⟨by omega, t, ht, rfl⟩
  have hcount : (h.seats.countP fun s => t.pot ≤ s.pot) ≤
      h'.seats.countP fun s => top ≤ s.pot := by
    rw [hseats, List.countP_map]
    refine List.countP_mono_left fun s hs hreach => ?_
    have hafter := (hg.reach_iff ht hs (Int.le_refl _)).2 (by simpa using hreach)
    simpa using hends s hs hafter
  constructor
  · exact htop
  · rw [wager_layer_eq hasc hpot hbound hzero hfloor hend,
      wager_layer_eq hasc' hpot' hbound' hzero (by omega) hlevel]
    omega
  · rw [total_layer_eq hasc hpot hbound hzero hfloor hend,
      total_layer_eq hasc' hpot' hbound' hzero (by omega) hlevel]
    exact Int.mul_le_mul (by omega) (by omega) (by omega) (by omega)
  · exact hg.contributors_subset ht hseats hasc (by omega) (Int.le_refl _) htop

/-- The last layer grows, up to the first level that is left. -/
theorem extends_last {levels : List Int} (hzero : 0 ≤ floor) (hfloor : floor < t.pot)
    (hlevels : levels.Pairwise (· < ·)) (hin : ∀ l ∈ levels, l ∈ h'.contributions.levels)
    (hge : ∀ l ∈ levels, t.pot ≤ l)
    (hends : ∀ s ∈ h.seats, t.pot ≤ (f s).pot → (f s).pot ∈ levels) :
    Extends (h.contributions.layersFrom floor [t.pot])
      (h'.contributions.layersFrom floor levels) := by
  have htop := hends t ht ((hg.reach_iff ht ht (Int.le_refl _)).2 (Int.le_refl _))
  cases levels with
  | nil => cases htop
  | cons first rest =>
      obtain ⟨hlow, -⟩ := List.pairwise_cons.1 hlevels
      have hgrown := hg.grown_layer ht hseats hasc hpot hbound hpot' hbound' hzero hfloor
        (hge first List.mem_cons_self) (hin first List.mem_cons_self)
      refine .cons (hgrown fun s hs hreach => ?_) (absurd rfl) (.nil _)
      rcases List.mem_cons.1 (hends s hs hreach) with heq | hmem
      · exact Int.le_of_eq heq.symm
      · exact Int.le_of_lt (hlow _ hmem)

/-- The layers between levels up to the highest pot there was, and those that take their place. -/
theorem extends_layersFrom {levels levels' : List Int} (hlevels : levels.Pairwise (· < ·))
    (hlevels' : levels'.Pairwise (· < ·)) (hin : ∀ l ∈ levels', l ∈ h'.contributions.levels)
    (hzero : 0 ≤ floor) (hle : ∀ l ∈ levels, l ≤ t.pot) (hfloor : ∀ l ∈ levels, floor < l)
    (hlast : t.pot ∈ levels) (hsame : ∀ l < t.pot, l ∈ levels' ↔ l ∈ levels)
    (hends : ∀ s ∈ h.seats, t.pot ≤ (f s).pot → (f s).pot ∈ levels') :
    Extends (h.contributions.layersFrom floor levels)
      (h'.contributions.layersFrom floor levels') := by
  induction levels generalizing floor levels' with
  | nil => exact Extends.nil _
  | cons level rest ih =>
      obtain ⟨hlow, hrest⟩ := List.pairwise_cons.1 hlevels
      obtain ⟨hfirstLe, hleRest⟩ := List.forall_mem_cons.1 hle
      have habove := hfloor level List.mem_cons_self
      rcases List.mem_cons.1 hlast with rfl | hlater
      · have hnil : rest = [] := by
          refine List.eq_nil_iff_forall_not_mem.2 fun l hl => ?_
          have := hlow l hl
          have := hleRest l hl
          omega
        subst hnil
        refine hg.extends_last ht hseats hasc hpot hbound hpot' hbound' hzero habove hlevels' hin
          (fun l hl => ?_) hends
        by_contra hlt
        have := List.mem_singleton.1 ((hsame l (Int.not_le.1 hlt)).1 hl)
        omega
      · have hlt := hlow _ hlater
        cases levels' with
        | nil => cases (hsame level hlt).2 List.mem_cons_self
        | cons level' rest' =>
            obtain ⟨hlow', hrest'⟩ := List.pairwise_cons.1 hlevels'
            obtain ⟨-, hinRest⟩ := List.forall_mem_cons.1 hin
            obtain ⟨rfl, hsameRest⟩ := levels_agree hlow hlow' hlt hsame
            have hpos : 0 < level' := by omega
            have hkept : (h.contributions.layer floor level').SameStake
                (h'.contributions.layer floor level') :=
              hg.sameStake_layer ht hseats hasc hpos hfirstLe
            have hcontributors : (h'.contributions.layer floor level').contributors ⊆
                (h.contributions.layer floor level').contributors :=
              hg.contributors_subset ht hseats hasc hpos hfirstLe (Int.le_refl _)
            refine .cons (hkept.grown hcontributors) (fun _ => hkept) ?_
            refine ih hrest hrest' hinRest (Int.le_of_lt hpos) hleRest hlow hlater hsameRest
              fun s hs hreach => ?_
            exact (List.mem_cons.1 (hends s hs hreach)).resolve_left (by omega)

end Layers

end Grows

/-- While nobody puts more into the pot but the seats that have most in it, and the chips in the pot
stay within the bound of counting, the pot is only extended. -/
theorem extends_pots [Counting] {bound : Int} [Counting.Upto bound] (hg : h.Grows f)
    (hseats : h'.seats = h.seats.map f) (hasc : (h.seats.map Seat.number).Pairwise (· < ·))
    (hpot : ∀ s ∈ h.seats, 0 ≤ s.pot) (hbound : (h.seats.map Seat.pot).sum ≤ bound)
    (hpot' : ∀ s ∈ h'.seats, 0 ≤ s.pot) (hbound' : (h'.seats.map Seat.pot).sum ≤ bound) :
    Extends h.contributions.pots h'.contributions.pots := by
  have hasc' := hg.ascending hseats hasc
  cases hlevels : h.contributions.levels with
  | nil =>
      rw [Contributions.pots_eq_layersFrom, hlevels]
      exact Extends.nil _
  | cons level rest =>
      have hlevel : level ∈ h.contributions.levels := by rw [hlevels]; exact List.mem_cons_self
      obtain ⟨hpos, s, hs, hlast⟩ := (mem_levels_iff hasc).1 hlevel
      obtain ⟨t, ht, -, htops⟩ := exists_max_pot (List.ne_nil_of_mem hs)
      have htop : 0 < t.pot := by
        have := htops s hs
        omega
      rw [Contributions.pots_eq_layersFrom, Contributions.pots_eq_layersFrom]
      refine hg.extends_layersFrom ht hseats hasc hpot hbound hpot' hbound'
        (Contributions.pairwise_levels _) (Contributions.pairwise_levels _) (fun _ hl => hl)
        (Int.le_refl 0) (fun l hl => ?_) (level_pos hasc)
        ((mem_levels_iff hasc).2 ⟨htop, t, ht, rfl⟩)
        (fun l hl => hg.mem_levels_iff ht hseats hasc hl) fun s hs hreach => ?_
      · obtain ⟨-, r, hr, rfl⟩ := (mem_levels_iff hasc).1 hl
        exact htops r hr
      · refine (mem_levels_iff hasc').2 ⟨by omega, f s, ?_, rfl⟩
        rw [hseats]
        exact List.mem_map_of_mem hs

end Hand

end PokerHand
