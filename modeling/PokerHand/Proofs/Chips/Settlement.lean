import Mathlib.Data.List.Nodup
import PokerHand.Proofs.Chips.Layers
import PokerHand.Proofs.Lists
import PokerHand.Proofs.Outcome
import PokerHand.Proofs.Table.Places

/-!
# How the layers of the pot are paid out

At a table with fresh pots and scored hands the payout is never refused: each layer is paid to the
best of its claimants. `Hand.settle_eq_ok` gives the payout in closed form.
-/
namespace PokerHand

namespace Payout

/-- With one entrant for a seat, that one is found. -/
theorem entrantAt_eq_ok_iff {entrants : List Entrant} {e : Entrant} {seat : Nat}
    (hseats : (entrants.map Entrant.seat).Nodup) :
    entrantAt entrants seat = .ok e ↔ e ∈ entrants ∧ e.seat = seat := by
  unfold entrantAt
  constructor
  · intro h
    split at h
    · next r hfind =>
      obtain rfl := Except.ok.inj h
      have hseat := List.find?_some hfind
      exact ⟨List.mem_reverse.1 (List.mem_of_find?_eq_some hfind), by simpa using hseat⟩
    · cases h
  · rintro ⟨he, rfl⟩
    cases hfind : entrants.reverse.find? fun r => r.seat == e.seat with
    | none => simpa using List.find?_eq_none.1 hfind e (List.mem_reverse.2 he)
    | some r =>
        have hr := List.mem_reverse.1 (List.mem_of_find?_eq_some hfind)
        have hsame : r.seat = e.seat := by simpa using List.find?_some hfind
        rw [List.inj_on_of_nodup_map hseats hr he hsame]

/-- Whoever has a score that nobody eligible exceeds wins. -/
theorem mem_topSeats {eligible : List Entrant} {seat : Nat} :
    seat ∈ topSeats eligible ↔ ∃ e ∈ eligible, e.seat = seat ∧ ∃ best, e.score = some best ∧
      ∀ r ∈ eligible, ∀ score, r.score = some score → score ≤ best := by
  have hmem : ∀ {e : Entrant} {score : Nat}, e ∈ eligible → e.score = some score →
      score ∈ eligible.filterMap Entrant.score := fun he hscore =>
    List.mem_filterMap.2 ⟨_, he, hscore⟩
  unfold topSeats
  split
  · next hnone =>
    have hnobody := List.max?_eq_none_iff.1 hnone
    refine iff_of_false List.not_mem_nil ?_
    rintro ⟨e, he, -, best, hscore, -⟩
    simpa [hnobody] using hmem he hscore
  · next best hbest =>
    obtain ⟨hbestMem, hbestLe⟩ := List.max?_eq_some_iff.1 hbest
    simp only [(Lists.sortBy_perm _ _).mem_iff, List.mem_map, List.mem_filter, beq_iff_eq]
    constructor
    · rintro ⟨e, ⟨he, hscore⟩, rfl⟩
      exact ⟨e, he, rfl, best, hscore, fun r hr score hr' => hbestLe score (hmem hr hr')⟩
    · rintro ⟨e, he, rfl, score, hscore, htop⟩
      obtain ⟨r, hr, hrScore⟩ := List.mem_filterMap.1 hbestMem
      have hle := hbestLe score (hmem he hscore)
      have hge := htop r hr best hrScore
      exact ⟨e, ⟨he, hscore.trans (congrArg some (Nat.le_antisymm hle hge))⟩, rfl⟩

/-- The winners stand in the order of their seats. -/
theorem pairwise_topSeats {eligible : List Entrant} (hnodup : (eligible.map Entrant.seat).Nodup) :
    (topSeats eligible).Pairwise (· < ·) := by
  unfold topSeats
  split
  · exact List.Pairwise.nil
  · next best _ =>
    have hdistinct : ((eligible.filter fun e => e.score == some best).map Entrant.seat).Nodup :=
      hnodup.sublist (List.filter_sublist.map _)
    generalize (eligible.filter fun e => e.score == some best).map Entrant.seat = seats at *
    have hsorted : (Lists.sortBy (fun a b : Nat => a ≤ b) seats).Pairwise
        fun a b => decide (a ≤ b) = true :=
      Lists.pairwise_sortBy (fun a b => by simpa using Nat.le_total a b)
        (fun a b c => by simpa using Nat.le_trans) seats
    refine (hsorted.and ((Lists.sortBy_perm _ _).nodup_iff.2 hdistinct)).imp ?_
    rintro a b ⟨hle, hne⟩
    exact Nat.lt_of_le_of_ne (of_decide_eq_true hle) hne

/-- Somebody with a score wins. -/
theorem topSeats_ne_nil {eligible : List Entrant} {e : Entrant} (he : e ∈ eligible)
    (hscore : e.score.isSome) : topSeats eligible ≠ [] := by
  obtain ⟨score, hscore⟩ := Option.isSome_iff_exists.1 hscore
  have hmem : score ∈ eligible.filterMap Entrant.score := List.mem_filterMap.2 ⟨e, he, hscore⟩
  unfold topSeats
  split
  · next hnone => simp [List.max?_eq_none_iff.1 hnone] at hmem
  · next best hbest =>
    obtain ⟨top, htop, htopScore⟩ := List.mem_filterMap.1 (List.max?_mem hbest)
    refine List.ne_nil_of_mem (a := top.seat) ((Lists.sortBy_perm _ _).mem_iff.2 ?_)
    exact List.mem_map_of_mem (List.mem_filter.2 ⟨htop, by simp [htopScore]⟩)

/-- What a seat takes out of a pot, as a sum over the winners. -/
theorem sum_filter_seat (winners : List Winner) (seat : Nat) :
    ((winners.filter fun w => w.seat == seat).map Winner.withdraw).sum =
      (winners.map fun w => if w.seat = seat then w.withdraw else 0).sum := by
  induction winners with
  | nil => rfl
  | cons w rest ih =>
      by_cases h : w.seat = seat
      · simp [h, ih]
      · simp [h, ih]

/-- What `seat` takes out of `pots`, counted without bounds. -/
def withdrawn (pots : List PaidPot) (seat : Nat) : Int :=
  (pots.map fun p => ((p.winners.filter fun w => w.seat == seat).map Winner.withdraw).sum).sum

/-- What all winners of `pots` take together. -/
def paidOut (pots : List PaidPot) : Int :=
  (pots.map fun p => (p.winners.map Winner.withdraw).sum).sum

theorem withdrawn_flatMap (pots : List PaidPot) (seat : Nat) :
    ((pots.flatMap PaidPot.winners).map fun w => if w.seat = seat then w.withdraw else 0).sum =
      withdrawn pots seat := by
  rw [withdrawn]
  induction pots with
  | nil => rfl
  | cons p rest ih =>
      rw [List.flatMap_cons, List.map_append, List.sum_append, ih, List.map_cons, List.sum_cons,
        sum_filter_seat]

/-- What the seats take out of pots that are won at the table is what the winners are paid. -/
theorem sum_withdrawn {pots : List PaidPot} {seats : List Nat} (hnodup : seats.Nodup)
    (hseats : ∀ p ∈ pots, ∀ w ∈ p.winners, w.seat ∈ seats) :
    (seats.map (withdrawn pots)).sum = paidOut pots := by
  have hwithdrawn : withdrawn pots = fun seat => (pots.map fun p =>
      (p.winners.map fun w => if w.seat = seat then w.withdraw else 0).sum).sum :=
    funext fun seat => by simp only [withdrawn, sum_filter_seat]
  rw [hwithdrawn, sum_comm]
  refine sum_map_congr fun p hp => ?_
  rw [sum_comm]
  refine sum_map_congr fun w hw => ?_
  exact sum_ite_eq hnodup (hseats p hp w hw) w.withdraw

theorem withdrawn_eq_zero {pots : List PaidPot} {seat : Nat}
    (h : ∀ p ∈ pots, ∀ w ∈ p.winners, w.seat ≠ seat) : withdrawn pots seat = 0 := by
  have hzero : ∀ p ∈ pots,
      ((p.winners.filter fun w => w.seat == seat).map Winner.withdraw).sum = 0 := by
    intro p hp
    rw [List.filter_eq_nil_iff.2 fun w hw => by simpa using h p hp w hw]
    rfl
  rw [withdrawn, sum_map_congr hzero, List.sum_map_zero]

/-- Nobody takes out more than is paid. -/
theorem withdrawn_le {pots : List PaidPot} (hpaid : ∀ p ∈ pots, ∀ w ∈ p.winners, 0 ≤ w.withdraw)
    (seat : Nat) : 0 ≤ withdrawn pots seat ∧ withdrawn pots seat ≤ paidOut pots := by
  simp only [withdrawn, paidOut, sum_filter_seat]
  constructor
  · refine List.sum_nonneg (List.forall_mem_map.2 fun p hp => ?_)
    refine List.sum_nonneg (List.forall_mem_map.2 fun w hw => ?_)
    have := hpaid p hp w hw
    split <;> omega
  · refine List.sum_le_sum fun p hp => List.sum_le_sum fun w hw => ?_
    have := hpaid p hp w hw
    split <;> omega

variable [Counting]

/-- The shares name the seats in their order. -/
theorem map_seat_share (total : Int) (seats : List Nat) :
    (share total seats).map Winner.seat = seats := by
  refine List.ext_getElem? fun i => ?_
  simp only [share, List.getElem?_map, List.getElem?_mapIdx, Option.map_map]
  cases seats[i]? <;> rfl

/-! What is counted is what is paid, as long as all of it is within the bound of counting. -/

open Counting

variable {bound : Int} [Upto bound]

theorem withdrawnBy_eq {p : Payout} (hpaid : ∀ q ∈ p.pots, ∀ w ∈ q.winners, 0 ≤ w.withdraw)
    (hbound : paidOut p.pots ≤ bound) (seat : Nat) :
    p.withdrawnBy seat = withdrawn p.pots seat := by
  have hsum := (sum_filter_seat (p.pots.flatMap PaidPot.winners) seat).trans
    (withdrawn_flatMap p.pots seat)
  have hle := (withdrawn_le hpaid seat).2
  have hwithin := Int.le_trans (Int.le_of_eq hsum) (Int.le_trans hle hbound)
  rw [withdrawnBy, total_eq_sum ?_ hwithin, hsum]
  refine List.forall_mem_map.2 fun w hw => ?_
  obtain ⟨q, hq, hw⟩ := List.mem_flatMap.1 (List.mem_filter.1 hw).1
  exact hpaid q hq w hw

/-- What a seat has drawn is what it had before and all that it is paid. -/
theorem find?_foldl_draw {winners : List Winner} (hpaid : ∀ w ∈ winners, 0 ≤ w.withdraw)
    {before : SeatMap Int} {seat : Nat} (hbefore : 0 ≤ (before.find? seat).getD 0)
    (hbound : (before.find? seat).getD 0 +
      (winners.map fun w => if w.seat = seat then w.withdraw else 0).sum ≤ bound) :
    ((winners.foldl draw before).find? seat).getD 0 = (before.find? seat).getD 0 +
      (winners.map fun w => if w.seat = seat then w.withdraw else 0).sum := by
  induction winners generalizing before with
  | nil => simp
  | cons w rest ih =>
      obtain ⟨hw, hrest⟩ := List.forall_mem_cons.1 hpaid
      have hmore : 0 ≤ (rest.map fun w => if w.seat = seat then w.withdraw else 0).sum :=
        List.sum_nonneg (List.forall_mem_map.2 fun r hr => by
          have := hrest r hr
          split <;> omega)
      rw [List.map_cons, List.sum_cons] at hbound ⊢
      have hdraw : ((draw before w).find? seat).getD 0 =
          (before.find? seat).getD 0 + if w.seat = seat then w.withdraw else 0 := by
        rw [draw, SeatMap.find?_insert]
        by_cases h : w.seat = seat
        · subst h
          simp only [if_true, Option.getD_some] at hbound ⊢
          exact fit_eq bound (by omega) (by omega)
        · rw [if_neg h, if_neg (Ne.symm h), Int.add_zero]
      have hkept : 0 ≤ ((draw before w).find? seat).getD 0 := by
        rw [hdraw]
        split <;> omega
      rw [List.foldl_cons, ih hrest hkept (by rw [hdraw]; omega), hdraw]
      omega

/-- What a seat draws is what it takes out of the pots. -/
theorem find?_drawn {pots : List PaidPot} (hpaid : ∀ p ∈ pots, ∀ w ∈ p.winners, 0 ≤ w.withdraw)
    (hbound : paidOut pots ≤ bound) (seat : Nat) :
    ((drawn pots).find? seat).getD 0 = withdrawn pots seat := by
  have hle := (withdrawn_le hpaid seat).2
  have hwinners : ∀ w ∈ pots.flatMap PaidPot.winners, 0 ≤ w.withdraw := fun w hw => by
    obtain ⟨p, hp, hw⟩ := List.mem_flatMap.1 hw
    exact hpaid p hp w hw
  have hsum := withdrawn_flatMap pots seat
  have hbefore : ((SeatMap.empty : SeatMap Int).find? seat).getD 0 = 0 := rfl
  have hwithin : ((SeatMap.empty : SeatMap Int).find? seat).getD 0 + ((pots.flatMap
      PaidPot.winners).map fun w => if w.seat = seat then w.withdraw else 0).sum ≤ bound := by
    rw [hbefore, hsum]
    omega
  rw [drawn, find?_foldl_draw hwinners (Int.le_of_eq hbefore.symm) hwithin, hsum, hbefore,
    Int.zero_add]

/-- The shares of a pot are all but even. -/
theorem share_eq {total : Int} (htotal : 0 ≤ total) (hbound : total ≤ bound) (seats : List Nat) :
    share total seats = seats.mapIdx fun i seat =>
      ⟨seat, total.tdiv seats.length + if (i : Int) < total.tmod seats.length then 1 else 0⟩ := by
  unfold share
  refine List.ext_getElem (by simp) fun i hi _ => ?_
  simp only [List.length_mapIdx] at hi
  have hrest := Int.tmod_nonneg (seats.length : Int) htotal
  have heach := Int.tdiv_nonneg htotal (Int.natCast_nonneg seats.length)
  have hdiv := Int.mul_tdiv_add_tmod total seats.length
  have hle : 1 * total.tdiv seats.length ≤ seats.length * total.tdiv seats.length :=
    Int.mul_le_mul_of_nonneg_right (by omega) heach
  have hfit : ∀ chips : Int, 0 ≤ chips → chips ≤ total → fit chips = chips :=
    fun chips hlow hhigh => fit_eq bound (by omega) (by omega)
  simp only [List.getElem_mapIdx, Winner.mk.injEq, true_and]
  rw [hfit _ (by split <;> omega) (by split <;> omega)]
  congr 1
  refine if_congr ?_ rfl rfl
  omega

/-- The shares of a pot add up to the pot. -/
theorem sum_share {total : Int} (htotal : 0 ≤ total) (hbound : total ≤ bound) {seats : List Nat}
    (hne : seats ≠ []) : ((share total seats).map Winner.withdraw).sum = total := by
  have hpos : 0 < seats.length := List.length_pos_iff.2 hne
  have hrest := Int.tmod_nonneg (seats.length : Int) htotal
  have hlt := Int.tmod_lt_of_pos total (b := (seats.length : Int)) (by omega)
  have hdiv := Int.mul_tdiv_add_tmod total seats.length
  have hcomm := Int.mul_comm (total.tdiv seats.length) seats.length
  rw [share_eq htotal hbound, sum_uneven]
  omega

/-- No share is less than a later one, or more than a chip above it. -/
theorem pairwise_share {total : Int} (htotal : 0 ≤ total) (hbound : total ≤ bound)
    (seats : List Nat) :
    ((share total seats).map Winner.withdraw).Pairwise fun a b => b ≤ a ∧ a ≤ b + 1 := by
  rw [share_eq htotal hbound]
  refine List.pairwise_map.2 (List.pairwise_iff_getElem.2 fun i j hi hj hij => ?_)
  simp only [List.getElem_mapIdx]
  split <;> split <;> omega

theorem withdraw_nonneg {total : Int} (htotal : 0 ≤ total) (hbound : total ≤ bound)
    {seats : List Nat} {w : Winner} (hw : w ∈ share total seats) : 0 ≤ w.withdraw := by
  rw [share_eq htotal hbound] at hw
  obtain ⟨i, hi, rfl⟩ := List.mem_mapIdx.1 hw
  have heach := Int.tdiv_nonneg htotal (Int.natCast_nonneg seats.length)
  show 0 ≤ total.tdiv seats.length + _
  split <;> omega

/-- What the payout does to the bankroll of an entrant is within the bound of counting. -/
structure Covers (bound : Int) (pots : List PaidPot) (e : Entrant) : Prop where
  left_ge : -bound ≤ e.bankroll - e.committed
  final_le : e.bankroll - e.committed + paidOut pots ≤ bound
  committed_le : e.committed ≤ bound
  changed_le : paidOut pots - e.committed ≤ bound

/-- What the payout does to the bankroll of an entrant. -/
theorem balance_of_covers {pots : List PaidPot} {e : Entrant}
    (hpaid : ∀ p ∈ pots, ∀ w ∈ p.winners, 0 ≤ w.withdraw) (hbound : paidOut pots ≤ bound)
    (hcovers : Covers bound pots e) : balance pots e =
      ⟨e.seat, e.bankroll - e.committed + withdrawn pots e.seat,
        withdrawn pots e.seat - e.committed⟩ := by
  obtain ⟨hleft, hfinal, hcommitted, hchanged⟩ := hcovers
  obtain ⟨hzero, hmost⟩ := withdrawn_le hpaid e.seat
  have hfitLeft : fit (e.bankroll - e.committed) = e.bankroll - e.committed :=
    fit_eq bound (by omega) (by omega)
  have hfitFinal : fit (e.bankroll - e.committed + withdrawn pots e.seat) =
      e.bankroll - e.committed + withdrawn pots e.seat := fit_eq bound (by omega) (by omega)
  have hfitChanged : fit (e.bankroll - e.committed + withdrawn pots e.seat - e.bankroll) =
      withdrawn pots e.seat - e.committed := by
    rw [fit_eq bound (by omega) (by omega)]
    omega
  simp only [balance, find?_drawn hpaid hbound, hfitLeft, hfitFinal, hfitChanged]

end Payout

/-- A seat as the payout sees it. -/
def Seat.entrant [Counting] (s : Seat) : Entrant :=
  ⟨s.number, s.bankroll, s.committed, s.made.map MadeHand.power⟩

/-- The seat shows a stronger hand than the other. -/
def Seat.Beats (s t : Seat) : Prop :=
  ∃ m n, s.made = some m ∧ t.made = some n ∧ n.power < m.power

namespace Hand

variable {h : Hand}

/-- The seats that may win the layer up to `level`: the unfolded ones that reach it, or all
unfolded ones when none does. -/
def claimants (h : Hand) (level : Int) : List Seat :=
  if h.reaching level = [] then h.seats.filter fun s => !s.folded else h.reaching level

theorem mem_claimants {level : Int} {s : Seat} (hs : s ∈ h.claimants level) :
    s ∈ h.seats ∧ s.folded = false := by
  unfold claimants at hs
  split at hs
  · simpa using hs
  · have := List.mem_filter.1 hs
    simp only [Bool.and_eq_true, Bool.not_eq_true'] at this
    exact ⟨this.1, this.2.1⟩

theorem claimants_ne_nil (hlive : 1 ≤ h.unfolded) (level : Int) : h.claimants level ≠ [] := by
  unfold claimants
  split
  · obtain ⟨s, hs, hfolded⟩ := List.countP_pos_iff.1 hlive
    exact List.ne_nil_of_mem (List.mem_filter.2 ⟨hs, hfolded⟩)
  · assumption

variable [Counting]

theorem entrants_eq (h : Hand) : h.entrants = h.seats.map Seat.entrant := rfl

theorem numbers_entrants (seats : List Seat) :
    (seats.map Seat.entrant).map Entrant.seat = seats.map Seat.number := by
  rw [List.map_map]
  rfl

/-- Everybody at the table is found by number. -/
theorem entrantAt_eq_ok (hn : Numbered h.seats) {s : Seat} (hs : s ∈ h.seats) :
    Payout.entrantAt h.entrants s.number = .ok s.entrant := by
  have hseats : (h.entrants.map Entrant.seat).Nodup := by
    rw [entrants_eq, numbers_entrants]
    exact hn.nodup
  exact (Payout.entrantAt_eq_ok_iff hseats).2 ⟨List.mem_map_of_mem hs, rfl⟩

theorem score_isSome (hmade : ∀ s ∈ h.seats, s.made = h.madeBy s) {s : Seat} (hs : s ∈ h.seats) :
    s.entrant.score.isSome = !s.folded := by
  simp only [Seat.entrant, Option.isSome_map, hmade s hs, madeBy]
  cases s.folded <;> rfl

theorem eligible_eq_ok (hn : Numbered h.seats) (hmade : ∀ s ∈ h.seats, s.made = h.madeBy s)
    {p : SidePot} (hp : p ∈ h.contributions.pots) :
    Payout.eligible h.entrants p = .ok ((h.claimants p.level).map Seat.entrant) := by
  have hcontributors := contributors_of_mem_pots hn.ascending hp
  unfold Payout.eligible claimants
  rw [hcontributors]
  by_cases hreach : h.reaching p.level = []
  · simp only [hreach, List.map_nil, List.isEmpty_nil, if_true, entrants_eq, List.filter_map]
    congr 2
    exact List.filter_congr fun s hs => score_isSome hmade hs
  · simp only [List.isEmpty_map, List.isEmpty_iff, hreach, if_false, List.mapM_map]
    exact Outcome.mapM_eq_map fun s hs =>
      entrantAt_eq_ok hn (List.mem_filter.1 hs).1

/-- The seats that win the layer up to `level`. -/
def winners (h : Hand) (level : Int) : List Nat :=
  Payout.topSeats ((h.claimants level).map Seat.entrant)

/-- What is paid out of a layer. -/
def payment (h : Hand) (p : SidePot) : PaidPot :=
  ⟨p.level, p.total, Payout.share p.total (h.winners p.level)⟩

theorem winners_ne_nil (hmade : ∀ s ∈ h.seats, s.made = h.madeBy s) (hlive : 1 ≤ h.unfolded)
    (level : Int) : h.winners level ≠ [] := by
  obtain ⟨s, hs⟩ := List.exists_mem_of_ne_nil _ (claimants_ne_nil hlive level)
  obtain ⟨hmem, hfolded⟩ := mem_claimants hs
  refine Payout.topSeats_ne_nil (List.mem_map_of_mem hs) ?_
  rw [score_isSome hmade hmem, hfolded]
  rfl

/-- Winners claim the layer, and no claimant beats them. -/
theorem unbeaten_of_mem_winners {level : Int} {seat : Nat} (hw : seat ∈ h.winners level) :
    ∃ s ∈ h.claimants level, s.number = seat ∧ ∀ r ∈ h.claimants level, ¬ r.Beats s := by
  obtain ⟨e, he, rfl, best, hbest, htop⟩ := Payout.mem_topSeats.1 hw
  obtain ⟨s, hs, rfl⟩ := List.mem_map.1 he
  refine ⟨s, hs, rfl, ?_⟩
  rintro r hr ⟨m, n, hm, hn, hlt⟩
  have hle := htop r.entrant (List.mem_map_of_mem hr) m.power (by simp [Seat.entrant, hm])
  have hpower : n.power = best := by simpa [Seat.entrant, hn] using hbest
  omega

/-- Winners sit at the table and have not folded. -/
theorem mem_winners {level : Int} {seat : Nat} (hw : seat ∈ h.winners level) :
    ∃ s ∈ h.seats, s.folded = false ∧ s.number = seat := by
  obtain ⟨s, hs, hnumber, -⟩ := unbeaten_of_mem_winners hw
  obtain ⟨hmem, hfolded⟩ := mem_claimants hs
  exact ⟨s, hmem, hfolded, hnumber⟩

theorem payPot_eq_ok (hn : Numbered h.seats) (hmade : ∀ s ∈ h.seats, s.made = h.madeBy s)
    (hlive : 1 ≤ h.unfolded) {p : SidePot} (hp : p ∈ h.contributions.pots) :
    Payout.payPot h.entrants p = .ok (h.payment p) := by
  have hne : Payout.topSeats ((h.claimants p.level).map Seat.entrant) ≠ [] :=
    winners_ne_nil hmade hlive p.level
  simp [Payout.payPot, eligible_eq_ok hn hmade hp, hne, payment, winners]

/-- The payout of fresh pots to scored hands. -/
theorem settle_eq_ok (hn : Numbered h.seats) (hmade : ∀ s ∈ h.seats, s.made = h.madeBy s)
    (hlive : 1 ≤ h.unfolded) (hpots : h.pots = h.contributions.pots) :
    Payout.settle h.pots h.entrants =
      .ok ⟨h.entrants.map (Payout.balance (h.pots.map h.payment)), h.pots.map h.payment⟩ := by
  have hpaid : h.pots.mapM (Payout.payPot h.entrants) = .ok (h.pots.map h.payment) :=
    Outcome.mapM_eq_map fun p hp => payPot_eq_ok hn hmade hlive (hpots ▸ hp)
  simp [Payout.settle, hpaid]

end Hand

end PokerHand
