import PokerHand.Proofs.Gate.Upshot
import PokerHand.Proofs.Play

/-!
# What leaves the pot alone

The pots are split afresh in three phases only (`Phase.counting`), and apart from these phases and
from the ante nothing that stands in the pot changes (`react_standing`, `Served.standing`).
-/
namespace PokerHand

/-- The phases that split the chips in the pot afresh. -/
def Phase.counting : List Phase := [antePaid, roundClosed, settlementRequested]

namespace Hand

variable {setup : Setup} {h h' : Hand} {f : Seat → Seat} {r : Hand × Option Phase}

/-- The pots, and the stakes of the seats that they are made of. -/
def standing (h : Hand) : List SidePot × List (Nat × Contribution) :=
  (h.pots, h.seats.map Contributions.stake)

theorem contributions_congr
    (hstakes : h'.seats.map Contributions.stake = h.seats.map Contributions.stake) :
    h'.contributions = h.contributions := by
  have hfold : ∀ g : Hand, g.contributions = (g.seats.map Contributions.stake).foldl
      (fun c e => c.contribute e.1 e.2.amount e.2.folded) .empty := by
    intro g
    rw [List.foldl_map]
    rfl
  rw [hfold, hfold, hstakes]

theorem standing_mapSeats (hf : ∀ s, Contributions.stake (f s) = Contributions.stake s) :
    (h.mapSeats f).standing = h.standing := by
  simp only [standing, mapSeats, List.map_map, Function.comp_def, hf]

theorem standing_openGate (h : Hand) (tasks : List Task) :
    (h.openGate tasks).standing = h.standing :=
  standing_mapSeats (h := { h with tasks := tasks }) fun _ => rfl

theorem standing_dealHole (hd : h.dealHole = .ok h') : h'.standing = h.standing := by
  obtain ⟨dealer, cards, -, rfl⟩ := dealHole_inv hd
  have hstakes : (h.seats.mapIdx fun place s => { s with
      hole := s.hole ++ share cards h.seats.length h.terms.holeCount dealer place }).map
        Contributions.stake = h.seats.map Contributions.stake := by
    refine List.ext_getElem? fun i => ?_
    simp only [List.getElem?_map, List.getElem?_mapIdx, Option.map_map]
    rfl
  exact congrArg (h.pots, ·) hstakes

theorem standing_dealBoard {street : Street} (hd : h.dealBoard street = .ok h') :
    h'.standing = h.standing := by
  obtain ⟨burned, board, rfl⟩ := dealBoard_inv hd
  rfl

variable [Counting]

theorem standing_giveTurn (h : Hand) (seat : Nat) : (h.giveTurn seat).standing = h.standing :=
  standing_mapSeats (h := h) fun _ => rfl

theorem standing_passing (h : Hand) (start : Nat) :
    (h.passing start).1.standing = h.standing := by
  rcases passing_eq h start with ⟨-, heq⟩ | ⟨seat, -, -, heq⟩ <;> rw [heq]
  exact standing_giveTurn h seat

/-- A phase that does not split the pots afresh leaves alone what stands in the pot. -/
theorem react_standing (hcounting : h.phase ∉ Phase.counting) (hr : h.react = .ok r) :
    r.1.standing = h.standing := by
  cases hp : h.phase with
  | antePaid | roundClosed | settlementRequested =>
      exact absurd hp fun hp => hcounting (by simp [hp, Phase.counting])
  | started | readiness | gameCompleted | settlementCompleted =>
      rw [react_eq hp, reaction, Except.ok.injEq] at hr
      subst hr
      rfl
  | initialized | blindsPaid =>
      rw [react_eq hp, reaction] at hr
      obtain ⟨_, -, hr⟩ := Outcome.ok_of_bind hr
      obtain rfl := Except.ok.inj hr
      rfl
  | prepared =>
      rw [react_eq hp, reaction] at hr
      obtain ⟨dealt, hdeal, hr⟩ := Outcome.ok_of_bind hr
      obtain rfl := Except.ok.inj hr
      exact standing_dealHole hdeal
  | entered street =>
      rw [react_eq hp, reaction] at hr
      split at hr
      · obtain rfl := Except.ok.inj hr
        rfl
      · obtain ⟨dealt, hdeal, hr⟩ := Outcome.ok_of_bind hr
        obtain rfl := Except.ok.inj hr
        exact standing_dealBoard (h := { h with street := some street }) hdeal
  | readyRequested | anteRequested =>
      rw [react_eq hp, reaction, Except.ok.injEq] at hr
      subst hr
      exact standing_openGate h _
  | blindsRequested =>
      rw [react_eq hp, reaction] at hr
      split at hr
      · obtain rfl := Except.ok.inj hr
        rfl
      · obtain rfl := Except.ok.inj hr
        exact standing_openGate h _
  | roundInitialized =>
      rw [react_eq hp, reaction] at hr
      obtain ⟨dealer, -, hr⟩ := Outcome.ok_of_bind hr
      have hreset : (h.resetBy dealer).standing = h.standing :=
        standing_mapSeats (h := h) fun _ => rfl
      have hposted : (h.resetBy dealer).postBigBlind.standing = (h.resetBy dealer).standing :=
        standing_mapSeats fun s => by split <;> rfl
      simp only at hr
      repeat' split at hr
      · cases hr
        exact hreset
      · cases hr
        exact hreset
      · cases hr
        exact hposted.trans hreset
      · cases hr
        exact hreset
  | roundPrepared =>
      rw [react_eq hp, reaction, Except.ok.injEq] at hr
      subst hr
      exact standing_mapSeats (h := h) fun _ => rfl
  | roundStarted =>
      rw [react_eq hp, reaction, Except.ok.injEq] at hr
      subst hr
      exact standing_passing _ _
  | gameClosed =>
      rw [react_eq hp, reaction, Except.ok.injEq] at hr
      subst hr
      exact standing_mapSeats (h := h) fun _ => rfl

/-! Gates. -/

theorem stake_answered {t : Task} (hdue : t.isPayment = true → t.due ≠ .ante) (s : Seat) :
    Contributions.stake (s.answered t) = Contributions.stake s := by
  unfold Seat.answered
  split
  · rfl
  · split
    · next hpayment =>
      simp only [if_neg (hdue hpayment)]
      rfl
    · rfl

theorem stake_upshot {tasks : List Task} (hdue : ∀ t ∈ tasks, t.isPayment = true → t.due ≠ .ante)
    (s : Seat) : Contributions.stake (s.upshot tasks) = Contributions.stake s := by
  induction tasks generalizing s with
  | nil => rfl
  | cons t rest ih =>
      obtain ⟨ht, hrest⟩ := List.forall_mem_cons.1 hdue
      rw [Seat.upshot_cons, ih hrest]
      split
      · exact stake_answered ht s
      · rfl

/-- Only the ante goes into the pot. -/
theorem standing_upshot (hdue : ∀ t ∈ h.tasks, t.isPayment = true → t.due ≠ .ante) :
    h.upshot.standing = h.standing := by
  have hstakes : h.upshot.seats.map Contributions.stake = h.seats.map Contributions.stake := by
    show ((h.seats.map (Seat.upshot h.tasks)).map Seat.bare).map Contributions.stake = _
    rw [List.map_map, List.map_map]
    exact List.map_congr_left fun s _ => stake_upshot hdue s
  exact congrArg (h.pots, ·) hstakes

theorem Collecting.due_ne_ante (hc : h.Collecting setup) (hp : h.phase ≠ .anteRequested) :
    ∀ t ∈ h.tasks, t.isPayment = true → t.due ≠ .ante := by
  rcases hc.isGate with hready | hante | hblinds
  · intro t ht hpayment
    rw [((collecting_ready hready).1 hc).1 t ht] at hpayment
    cases hpayment
  · exact absurd hante hp
  · exact fun t ht _ => ((collecting_blinds hblinds).1 hc).1 t ht

/-- Whatever is satisfied at a gate but an ante leaves alone what stands in the pot. -/
theorem Served.standing (hserved : Served h r) (hg : h.AtGate setup)
    (hp : h.phase ≠ .anteRequested) : r.1.standing = h.standing := by
  have hafter : ∀ t ∈ r.1.tasks, t.isPayment = true → t.due ≠ .ante := by
    obtain ⟨g, next⟩ := r
    obtain ⟨hnone, hphase⟩ | ⟨-, hnil⟩ := hserved.leaves
    · obtain rfl : next = none := hnone
      have hrested : g.Resting setup := (hserved.launched hg).carries
      have hgate := hrested.waits (hphase ▸ hg.gated.collecting.isGate)
      exact hgate.gated.collecting.due_ne_ante (hphase ▸ hp)
    · simp [show g.tasks = [] from hnil]
  calc r.1.standing = r.1.upshot.standing := (standing_upshot hafter).symm
    _ = h.upshot.standing := congrArg Hand.standing (hserved.upshot hg)
    _ = h.standing := standing_upshot (hg.gated.collecting.due_ne_ante hp)

/-- No gate splits the pots afresh. -/
theorem Served.pots_eq (hserved : Served h r) (hg : h.AtGate setup) : r.1.pots = h.pots := by
  have hsame : r.1.upshot.pots = h.upshot.pots := congrArg Hand.pots (hserved.upshot hg)
  exact hsame

end Hand

end PokerHand
