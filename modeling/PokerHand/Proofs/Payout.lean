import Mathlib.Data.List.Sort
import PokerHand.Proofs.Chips.Settlement

/-!
# Paying out any pots

Who wins a pot is said without the way in which the winners are found (`Payout.Wins`). The payout is
refused exactly when one of the pots can be paid to nobody (`Payout.Unpayable`); otherwise every pot
goes to those who win it, and no order in which entrants or contributors are given plays a part. The
shares are near equal and exhaust the pot as long as the chips are within the bound of counting
(`Payout.Within`).
-/
namespace PokerHand.Payout

open Counting

section Settling

variable {entrants entrants' : List Entrant} {p p' : SidePot} {e : Entrant} {seat : Nat}

/-- Who may win a pot: its contributors, or everybody when it has none. -/
def Claims (entrants : List Entrant) (p : SidePot) (e : Entrant) : Prop :=
  e ∈ entrants ∧ (p.contributors = [] ∨ e.seat ∈ p.contributors)

/-- Whose score no claimant exceeds. -/
def Wins (entrants : List Entrant) (p : SidePot) (seat : Nat) : Prop :=
  ∃ e, Claims entrants p e ∧ e.seat = seat ∧ ∃ best, e.score = some best ∧
    ∀ r, Claims entrants p r → ∀ score, r.score = some score → score ≤ best

/-- A contributor of the pot takes no part, or nobody who may win it has a score. -/
def Unpayable (entrants : List Entrant) (p : SidePot) : Prop :=
  (∃ seat ∈ p.contributors, ∀ e ∈ entrants, e.seat ≠ seat) ∨
    ∀ e, Claims entrants p e → e.score = none

theorem entrantAt_eq_error (hstranger : ∀ e ∈ entrants, e.seat ≠ seat) :
    entrantAt entrants seat = .error (.inconsistent (.strangerInPot seat)) := by
  have hnone : (entrants.reverse.find? fun e => e.seat == seat) = none :=
    List.find?_eq_none.2 fun e he => by simpa using hstranger e (List.mem_reverse.1 he)
  rw [entrantAt, hnone]

theorem seats_of_found {seats : List Nat} {found : List Entrant}
    (hfound : List.Forall₂ (fun seat e => e.seat = seat ∧ e ∈ entrants) seats found) :
    found.map Entrant.seat = seats ∧ ∀ e ∈ found, e ∈ entrants := by
  induction hfound with
  | nil => simp
  | cons hhead _ ih =>
      exact ⟨by rw [List.map_cons, hhead.1, ih.1], List.forall_mem_cons.2 ⟨hhead.2, ih.2⟩⟩

/-- When all contributors take part, the claimants are found; those without a score may be left
out. -/
theorem exists_eligible (hseats : (entrants.map Entrant.seat).Nodup)
    (hcontributors : p.contributors.Nodup)
    (hknown : ∀ seat ∈ p.contributors, ∃ e ∈ entrants, e.seat = seat) :
    ∃ claimants, eligible entrants p = .ok claimants ∧ (claimants.map Entrant.seat).Nodup ∧
      ∀ e, e.score.isSome → (e ∈ claimants ↔ Claims entrants p e) := by
  unfold eligible
  by_cases hnil : p.contributors = []
  · rw [hnil]
    refine ⟨_, rfl, hseats.sublist (List.filter_sublist.map _), fun e hscore => ?_⟩
    simp [Claims, hnil, hscore]
  · have hfind : ∀ seat ∈ p.contributors, ∃ e, entrantAt entrants seat = .ok e ∧
        e.seat = seat ∧ e ∈ entrants := by
      intro seat hseat
      obtain ⟨e, he, hsame⟩ := hknown seat hseat
      exact ⟨e, (entrantAt_eq_ok_iff hseats).2 ⟨he, hsame⟩, hsame, he⟩
    obtain ⟨found, heq, hfound⟩ := Outcome.exists_mapM hfind
    obtain ⟨hmap, hmem⟩ := seats_of_found hfound
    rw [if_neg (by simpa using hnil)]
    refine ⟨found, heq, hmap ▸ hcontributors, fun e _ => ?_⟩
    constructor
    · intro he
      exact ⟨hmem e he, .inr (hmap ▸ List.mem_map_of_mem he)⟩
    · rintro ⟨he, hclaim⟩
      have hseat := hclaim.resolve_left hnil
      rw [← hmap] at hseat
      obtain ⟨r, hr, hsame⟩ := List.mem_map.1 hseat
      have hfirst := (entrantAt_eq_ok_iff hseats).2 ⟨hmem r hr, hsame⟩
      rw [(entrantAt_eq_ok_iff hseats).2 ⟨he, rfl⟩] at hfirst
      rwa [Except.ok.inj hfirst]

theorem mem_topSeats_iff {claimants : List Entrant}
    (hclaimants : ∀ e, e.score.isSome → (e ∈ claimants ↔ Claims entrants p e)) :
    seat ∈ topSeats claimants ↔ Wins entrants p seat := by
  rw [mem_topSeats]
  constructor
  · rintro ⟨e, he, rfl, best, hscore, htop⟩
    refine ⟨e, (hclaimants e (by simp [hscore])).1 he, rfl, best, hscore, fun r hr score hs => ?_⟩
    exact htop r ((hclaimants r (by simp [hs])).2 hr) score hs
  · rintro ⟨e, he, rfl, best, hscore, htop⟩
    refine ⟨e, (hclaimants e (by simp [hscore])).2 he, rfl, best, hscore, fun r hr score hs => ?_⟩
    exact htop r ((hclaimants r (by simp [hs])).1 hr) score hs

/-- Every winner of a pot, and nobody else, is paid, in the order of the seats. -/
structure PaysTo (entrants : List Entrant) (p : SidePot) (q : PaidPot) : Prop where
  level : q.level = p.level
  total : q.total = p.total
  ascending : (q.winners.map Winner.seat).Pairwise (· < ·)
  mem_winners : ∀ seat, seat ∈ q.winners.map Winner.seat ↔ Wins entrants p seat

/-- The winners share all of the pot, as near to each other as chips allow and with the odd chips in
front. -/
structure PaysOut (entrants : List Entrant) (p : SidePot) (q : PaidPot) : Prop
    extends PaysTo entrants p q where
  sum : (q.winners.map Winner.withdraw).sum = p.total
  falling : (q.winners.map Winner.withdraw).Pairwise fun a b => b ≤ a ∧ a ≤ b + 1
  nonneg : ∀ w ∈ q.winners, 0 ≤ w.withdraw

/-- Whoever is paid takes part. -/
theorem PaysTo.seat_mem {q : PaidPot} (hpays : PaysTo entrants p q) {w : Winner}
    (hw : w ∈ q.winners) : w.seat ∈ entrants.map Entrant.seat := by
  obtain ⟨e, ⟨he, -⟩, hseat, -⟩ := (hpays.mem_winners w.seat).1 (List.mem_map_of_mem hw)
  exact hseat ▸ List.mem_map_of_mem he

theorem seats_mem_of_paysTo {pots : List SidePot} {paid : List PaidPot}
    (hpays : List.Forall₂ (PaysTo entrants) pots paid) :
    ∀ q ∈ paid, ∀ w ∈ q.winners, w.seat ∈ entrants.map Entrant.seat := by
  induction hpays with
  | nil => simp
  | cons hhead _ ih => exact List.forall_mem_cons.2 ⟨fun _ => hhead.seat_mem, ih⟩

/-- The winners are paid what the pots hold, and nobody loses anything by it. -/
theorem paidOut_eq {pots : List SidePot} {paid : List PaidPot}
    (hpays : List.Forall₂ (PaysOut entrants) pots paid) :
    paidOut paid = (pots.map SidePot.total).sum ∧ ∀ q ∈ paid, ∀ w ∈ q.winners, 0 ≤ w.withdraw := by
  induction hpays with
  | nil => exact ⟨rfl, by simp⟩
  | @cons p q pots paid hhead _ ih =>
      have hsum := hhead.sum
      have hrest : paidOut paid = (pots.map SidePot.total).sum := ih.1
      refine ⟨?_, List.forall_mem_cons.2 ⟨hhead.nonneg, ih.2⟩⟩
      rw [paidOut] at hrest ⊢
      rw [List.map_cons, List.sum_cons, List.map_cons, List.sum_cons, hsum, hrest]

/-- The same pot, whose contributors are given in another order. -/
structure Reordered (p' p : SidePot) : Prop where
  level : p'.level = p.level
  total : p'.total = p.total
  contributors : p'.contributors.Perm p.contributors

section Reordering

variable (hentrants : entrants'.Perm entrants) (hpot : Reordered p' p)

include hentrants hpot

theorem claims_reordered : Claims entrants' p' e ↔ Claims entrants p e := by
  have hnil : p'.contributors = [] ↔ p.contributors = [] := by
    rw [← List.length_eq_zero_iff, hpot.contributors.length_eq, List.length_eq_zero_iff]
  rw [Claims, Claims, hentrants.mem_iff, hpot.contributors.mem_iff, hnil]

theorem wins_reordered : Wins entrants' p' seat ↔ Wins entrants p seat := by
  simp only [Wins, claims_reordered hentrants hpot]

theorem unpayable_reordered : Unpayable entrants' p' ↔ Unpayable entrants p := by
  simp only [Unpayable, claims_reordered hentrants hpot, hentrants.mem_iff,
    hpot.contributors.mem_iff]

end Reordering

variable [Counting]

/-- A pot that can be paid goes to those who win it, in the order of their seats. -/
theorem exists_payPot (hseats : (entrants.map Entrant.seat).Nodup)
    (hcontributors : p.contributors.Nodup) (hpayable : ¬ Unpayable entrants p) :
    ∃ seats, payPot entrants p = .ok ⟨p.level, p.total, share p.total seats⟩ ∧ seats ≠ [] ∧
      seats.Pairwise (· < ·) ∧ ∀ seat, seat ∈ seats ↔ Wins entrants p seat := by
  simp only [Unpayable, not_or, not_exists, not_and, not_forall] at hpayable
  obtain ⟨hknown, scorer, hclaims, hscore⟩ := hpayable
  obtain ⟨claimants, heligible, hnodup, hclaimants⟩ :=
    exists_eligible hseats hcontributors fun seat hseat => by simpa using hknown seat hseat
  have hsome : scorer.score.isSome := Option.isSome_iff_ne_none.2 hscore
  have hne : topSeats claimants ≠ [] :=
    topSeats_ne_nil ((hclaimants scorer hsome).2 hclaims) hsome
  refine ⟨topSeats claimants, ?_, hne, pairwise_topSeats hnodup, fun seat =>
    mem_topSeats_iff hclaimants⟩
  simp [payPot, heligible, hne]

/-- A pot that can be paid to nobody is refused. -/
theorem payPot_of_unpayable (hseats : (entrants.map Entrant.seat).Nodup)
    (hcontributors : p.contributors.Nodup) (hun : Unpayable entrants p) :
    ∃ why, payPot entrants p = .error (.inconsistent why) := by
  by_cases hknown : ∀ seat ∈ p.contributors, ∃ e ∈ entrants, e.seat = seat
  · obtain ⟨claimants, heligible, -, hclaimants⟩ := exists_eligible hseats hcontributors hknown
    have hnobody : ∀ e, Claims entrants p e → e.score = none := by
      refine hun.resolve_left ?_
      rintro ⟨seat, hseat, hstranger⟩
      obtain ⟨e, he, hsame⟩ := hknown seat hseat
      exact hstranger e he hsame
    have hnil : topSeats claimants = [] := by
      refine List.eq_nil_iff_forall_not_mem.2 fun seat hseat => ?_
      obtain ⟨e, hclaims, -, best, hscore, -⟩ := (mem_topSeats_iff hclaimants).1 hseat
      rw [hnobody e hclaims] at hscore
      cases hscore
    exact ⟨.noWinner p.level, by simp [payPot, heligible, hnil]⟩
  · simp only [not_forall, not_exists, not_and] at hknown
    obtain ⟨seat, hseat, hstranger⟩ := hknown
    have hrefusal : ∀ seat ∈ p.contributors, ∀ fault, entrantAt entrants seat = .error fault →
        ∃ why, fault = .inconsistent why := by
      intro seat _ fault hfault
      unfold entrantAt at hfault
      split at hfault
      · cases hfault
      · exact ⟨_, (Except.error.inj hfault).symm⟩
    obtain ⟨fault, hmap, why, rfl⟩ :=
      Outcome.mapM_eq_error hrefusal hseat (entrantAt_eq_error hstranger)
    have hne : p.contributors ≠ [] := List.ne_nil_of_mem hseat
    exact ⟨why, by simp [payPot, eligible, hne, hmap]⟩

theorem paysTo_share {seats : List Nat} (hasc : seats.Pairwise (· < ·))
    (hwins : ∀ seat, seat ∈ seats ↔ Wins entrants p seat) :
    PaysTo entrants p ⟨p.level, p.total, share p.total seats⟩ where
  level := rfl
  total := rfl
  ascending := by rwa [map_seat_share]
  mem_winners seat := by rw [map_seat_share, hwins]

theorem paysOut_share {bound : Int} [Upto bound] (htotal : 0 ≤ p.total) (hbound : p.total ≤ bound)
    {seats : List Nat} (hne : seats ≠ []) (hasc : seats.Pairwise (· < ·))
    (hwins : ∀ seat, seat ∈ seats ↔ Wins entrants p seat) :
    PaysOut entrants p ⟨p.level, p.total, share p.total seats⟩ where
  toPaysTo := paysTo_share hasc hwins
  sum := sum_share htotal hbound hne
  falling := pairwise_share htotal hbound seats
  nonneg := fun _ hw => withdraw_nonneg htotal hbound hw

theorem payPot_reordered (hentrants : entrants'.Perm entrants) (hpot : Reordered p' p)
    (hseats : (entrants.map Entrant.seat).Nodup) (hcontributors : p.contributors.Nodup)
    (hpayable : ¬ Unpayable entrants p) :
    payPot entrants' p' = payPot entrants p := by
  have hseats' : (entrants'.map Entrant.seat).Nodup := (hentrants.map _).nodup_iff.2 hseats
  have hcontributors' := hpot.contributors.nodup_iff.2 hcontributors
  have hpayable' := fun hun => hpayable ((unpayable_reordered hentrants hpot).1 hun)
  obtain ⟨seats, hpaid, -, hasc, hwins⟩ := exists_payPot hseats hcontributors hpayable
  obtain ⟨seats', hpaid', -, hasc', hwins'⟩ := exists_payPot hseats' hcontributors' hpayable'
  have hsame : seats' = seats := hasc'.eq_of_mem_iff hasc fun seat => by
    rw [hwins, hwins', wins_reordered hentrants hpot]
  rw [hpaid, hpaid', hsame, hpot.level, hpot.total]

section Pots

variable {pots : List SidePot} (hcontributors : ∀ p ∈ pots, p.contributors.Nodup)
  (hseats : (entrants.map Entrant.seat).Nodup)

include hcontributors hseats

theorem mapM_payPot_of_unpayable (hp : p ∈ pots) (hun : Unpayable entrants p) :
    ∃ why, pots.mapM (payPot entrants) = .error (.inconsistent why) := by
  have hrefusal : ∀ p ∈ pots, ∀ fault, payPot entrants p = .error fault →
      ∃ why, fault = .inconsistent why := by
    intro p hp fault hfault
    by_cases hun : Unpayable entrants p
    · obtain ⟨why, hrefused⟩ := payPot_of_unpayable hseats (hcontributors p hp) hun
      rw [hfault] at hrefused
      exact ⟨why, Except.error.inj hrefused⟩
    · obtain ⟨seats, hpaid, -⟩ := exists_payPot hseats (hcontributors p hp) hun
      rw [hfault] at hpaid
      cases hpaid
  obtain ⟨why, hrefused⟩ := payPot_of_unpayable hseats (hcontributors p hp) hun
  obtain ⟨fault, hmap, why, rfl⟩ := Outcome.mapM_eq_error hrefusal hp hrefused
  exact ⟨why, hmap⟩

/-- The order in which entrants and contributors are given does not change what is paid. -/
theorem mapM_payPot_reordered (hpayable : ∀ p ∈ pots, ¬ Unpayable entrants p)
    (hentrants : entrants'.Perm entrants) {pots' : List SidePot}
    (hpots : List.Forall₂ Reordered pots' pots) :
    pots'.mapM (payPot entrants') = pots.mapM (payPot entrants) := by
  induction hpots with
  | nil => rfl
  | cons hpot _ ih =>
      obtain ⟨hfirst, hrest⟩ := List.forall_mem_cons.1 hcontributors
      obtain ⟨hpays, hpaysRest⟩ := List.forall_mem_cons.1 hpayable
      rw [List.mapM_cons, List.mapM_cons, payPot_reordered hentrants hpot hseats hfirst hpays,
        ih hrest hpaysRest]

/-- When all pots can be paid, they are, and the shares exhaust them as long as all pots together
are within the bound of counting. -/
theorem exists_paid (htotals : ∀ p ∈ pots, 0 ≤ p.total)
    (hpayable : ∀ p ∈ pots, ¬ Unpayable entrants p) (bound : Int) [Upto bound] :
    ∃ paid, pots.mapM (payPot entrants) = .ok paid ∧ List.Forall₂ (PaysTo entrants) pots paid ∧
      ((pots.map SidePot.total).sum ≤ bound → List.Forall₂ (PaysOut entrants) pots paid) := by
  have hpay : ∀ p ∈ pots, ∃ q, payPot entrants p = .ok q ∧ PaysTo entrants p q ∧
      ((pots.map SidePot.total).sum ≤ bound → PaysOut entrants p q) := by
    intro p hp
    obtain ⟨seats, hpaid, hne, hasc, hwins⟩ :=
      exists_payPot hseats (hcontributors p hp) (hpayable p hp)
    have hle := le_sum_map htotals hp
    exact ⟨_, hpaid, paysTo_share hasc hwins, fun hbound =>
      paysOut_share (htotals p hp) (hle.trans hbound) hne hasc hwins⟩
  obtain ⟨paid, hpaid, hpays⟩ := Outcome.exists_mapM hpay
  exact ⟨paid, hpaid, hpays.imp fun _ _ h => h.1, fun hbound => hpays.imp fun _ _ h => h.2 hbound⟩

end Pots

/-- All pots together are within the bound of counting, and so is what an entrant has and has
committed with them. -/
structure Within (bound : Int) (pots : List SidePot) (entrants : List Entrant) : Prop where
  pots_le : (pots.map SidePot.total).sum ≤ bound
  entrants_le : ∀ e ∈ entrants,
    e.bankroll.natAbs + e.committed.natAbs + (pots.map SidePot.total).sum ≤ bound

section Paid

variable {pots : List SidePot} {paid : List PaidPot}

variable {bound : Int} [Upto bound] (hwithin : Within bound pots entrants)
  (hpays : List.Forall₂ (PaysOut entrants) pots paid)

include hwithin hpays

/-- What the payout does to the bankroll of an entrant. -/
theorem balance_eq (he : e ∈ entrants) : balance paid e =
    ⟨e.seat, e.bankroll + (withdrawn paid e.seat - e.committed),
      withdrawn paid e.seat - e.committed⟩ := by
  obtain ⟨htotal, hnonneg⟩ := paidOut_eq hpays
  have hle := hwithin.entrants_le e he
  have hbound := hwithin.pots_le
  obtain ⟨hzero, hmost⟩ := withdrawn_le hnonneg e.seat
  rw [← htotal] at hle hbound
  have hcovers : Covers bound paid e := ⟨by omega, by omega, by omega, by omega⟩
  rw [balance_of_covers hnonneg hbound hcovers, Balance.mk.injEq]
  exact ⟨rfl, by omega, rfl⟩

/-- All final bankrolls together. -/
theorem sum_final (hseats : (entrants.map Entrant.seat).Nodup) :
    ((entrants.map (balance paid)).map Balance.final).sum =
      (entrants.map Entrant.bankroll).sum - (entrants.map Entrant.committed).sum +
        (pots.map SidePot.total).sum := by
  have hmember := seats_mem_of_paysTo (hpays.imp fun _ _ h => h.toPaysTo)
  have hfinal : ∀ e ∈ entrants, (balance paid e).final =
      e.bankroll - e.committed + withdrawn paid e.seat := fun e he => by
    rw [balance_eq hwithin hpays he]
    simp only
    omega
  have hdrawn : (entrants.map fun e => withdrawn paid e.seat).sum = paidOut paid := by
    rw [← sum_withdrawn hseats hmember, List.map_map]
    rfl
  rw [List.map_map, ← (paidOut_eq hpays).1, ← hdrawn, ← sum_map_sub, ← List.sum_map_add]
  exact sum_map_congr hfinal

end Paid

end Settling

end PokerHand.Payout
