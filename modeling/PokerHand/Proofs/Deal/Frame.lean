import PokerHand.Proofs.Flow.Blinds
import PokerHand.Proofs.Launch

/-!
# What leaves the cards alone

No call moves a card, and of the phases only the deal and the entry of a street do
(`launch_layout`, `react_layout`).
-/
namespace PokerHand

/-- Where the cards of a hand lie, and what is read to deal more. -/
structure Layout where
  terms : Terms
  street : Option Street
  dealt : Nat
  burned : List Card
  board : List Card
  holes : List (List Card)

namespace Hand

variable {h g : Hand} {f : Seat → Seat} {place : Nat} {call : Call} {r : Hand × Option Phase}

def layout (h : Hand) : Layout :=
  ⟨h.terms, h.street, h.dealt, h.burned, h.board, h.seats.map Seat.hole⟩

theorem layout_mapSeats (hf : ∀ s, (f s).hole = s.hole) : (h.mapSeats f).layout = h.layout := by
  simp [layout, mapSeats, Function.comp_def, hf]

theorem layout_modifySeat (hm : h.modifySeat place f = .ok g) (hf : ∀ s, (f s).hole = s.hole) :
    g.layout = h.layout := by
  unfold modifySeat at hm
  split at hm
  · obtain rfl := Except.ok.inj hm
    have hseats : (h.seats.modify place f).map Seat.hole = h.seats.map Seat.hole := by
      refine List.ext_getElem? fun i => ?_
      rw [List.getElem?_map, List.getElem?_modify, List.getElem?_map]
      cases h.seats[i]? with
      | none => rfl
      | some s => by_cases hi : place = i <;> simp [hi, hf]
    simp [layout, hseats]
  · cases hm

theorem layout_record {action : Action} {value : Int}
    (hr : (h.record place action value).outcome = .ok g) : g.layout = h.layout := by
  simp only [record, Traced.outcome_bind, Traced.outcome_note, Outcome.ok_bind,
    Traced.outcome_liftM] at hr
  obtain ⟨noted, hnoted, hr⟩ := Outcome.ok_of_bind hr
  obtain rfl := Except.ok.inj hr
  have hsame : noted.layout = h.layout := layout_modifySeat hnoted fun _ => rfl
  exact hsame

theorem layout_openGate (h : Hand) (tasks : List Task) : (h.openGate tasks).layout = h.layout :=
  layout_mapSeats (h := { h with tasks := tasks }) fun _ => rfl

theorem layout_resetBy (h : Hand) (dealer : Nat) : (h.resetBy dealer).layout = h.layout :=
  layout_mapSeats (h := h) fun _ => rfl

theorem layout_runQueue (hr : h.runQueue = .ok r) : r.1.layout = h.layout := by
  simp only [runQueue] at hr
  split at hr
  · split at hr
    all_goals cases hr <;> rfl
  · obtain rfl := Except.ok.inj hr
    exact layout_mapSeats (h := { h with tasks := _ }) fun _ => rfl

/-- Whether a phase deals cards. -/
def Deals (phase : Phase) : Prop := phase = .prepared ∨ ∃ street, phase = .entered street

variable [Counting]

/-! Bids. -/

theorem layout_raiseTo (h : Hand) (place : Nat) : (h.raiseTo place).layout = h.layout :=
  layout_mapSeats (h := h) fun s => by split <;> rfl

theorem layout_afterAllin (h : Hand) (place : Nat) : (h.afterAllin place).layout = h.layout := by
  simp only [afterAllin]
  split
  · rfl
  · split
    · exact layout_raiseTo h place
    · rfl

theorem layout_moveChips {move : Move} (hm : h.moveChips place move = .ok g) :
    g.layout = h.layout := by
  cases move with
  | fold => exact layout_modifySeat hm fun _ => rfl
  | check =>
      obtain rfl := Except.ok.inj hm
      rfl
  | call chips => exact layout_modifySeat hm fun _ => rfl
  | bet chips | raise chips =>
      obtain ⟨paid, hpaid, hm⟩ := Outcome.ok_of_bind hm
      obtain rfl := Except.ok.inj hm
      exact (layout_raiseTo paid place).trans (layout_modifySeat hpaid fun _ => rfl)
  | allin chips =>
      obtain ⟨paid, hpaid, hm⟩ := Outcome.ok_of_bind hm
      obtain rfl := Except.ok.inj hm
      exact (layout_afterAllin paid place).trans (layout_modifySeat hpaid fun _ => rfl)

theorem layout_made {move : Move} (hm : h.made place move = .ok g) : g.layout = h.layout := by
  obtain ⟨moved, hmoved, hm⟩ := Outcome.ok_of_bind hm
  obtain ⟨acted, hacted, hm⟩ := Outcome.ok_of_bind hm
  rw [layout_record hm, layout_modifySeat hacted fun _ => rfl, layout_moveChips hmoved]

theorem layout_bidden {b : Bid} (hb : h.bidden b = .ok g) : g.layout = h.layout := by
  obtain ⟨s, -, hb⟩ := Outcome.ok_of_bind hb
  obtain ⟨move, -, hb⟩ := Outcome.ok_of_bind hb
  exact layout_made hb

theorem layout_giveTurn (h : Hand) (seat : Nat) : (h.giveTurn seat).layout = h.layout :=
  layout_mapSeats (h := h) fun _ => rfl

theorem layout_passing (h : Hand) (start : Nat) : (h.passing start).1.layout = h.layout := by
  unfold passing
  split
  · split
    · rfl
    · exact layout_giveTurn _ _
  · rfl

/-! Gates. -/

theorem layout_takePayment {due : Due} {chips : Int}
    (ht : h.takePayment place due chips = .ok g) : g.layout = h.layout :=
  layout_modifySeat ht fun s => by split <;> rfl

theorem layout_clearEntry {phase : Phase} (hc : (h.clearEntry phase).outcome = .ok g) :
    g.layout = h.layout := by
  unfold clearEntry at hc
  split at hc
  · cases hc
  · simp only [Traced.outcome_bind, Traced.outcome_liftM] at hc
    obtain ⟨⟨i, t⟩, -, hc⟩ := Outcome.ok_of_bind hc
    obtain ⟨s, -, hc⟩ := Outcome.ok_of_bind hc
    simp only at hc
    split at hc
    · exact layout_record (h := h.setTask i _) hc
    · split at hc
      · simp only [Traced.outcome_bind, Traced.outcome_liftM] at hc
        obtain ⟨t', -, hc⟩ := Outcome.ok_of_bind hc
        exact layout_record (h := h.setTask i t') hc
      · split at hc
        · cases hc
        · simp only [Traced.outcome_bind, Traced.outcome_liftM] at hc
          obtain ⟨t', -, hc⟩ := Outcome.ok_of_bind hc
          obtain ⟨paid, hpaid, hc⟩ := Outcome.ok_of_bind hc
          exact (layout_record hc).trans (layout_takePayment (h := h.setTask i t') hpaid)

theorem layout_drain {n : Nat} {phase : Phase} (hd : drain n phase h = .ok r) :
    r.1.layout = h.layout := by
  induction n generalizing h with
  | zero => cases hd
  | succ n ih =>
      obtain ⟨cleared, hcleared, hd⟩ := Outcome.ok_of_bind hd
      obtain ⟨⟨left, next⟩, hrun, hd⟩ := Outcome.ok_of_bind hd
      have hleft := (layout_runQueue hrun).trans (layout_clearEntry hcleared)
      split at hd
      · cases hd
        exact hleft
      · exact (ih hd).trans hleft

theorem layout_drainGate {phase : Phase} (hd : h.drainGate phase = .ok r) :
    r.1.layout = h.layout := by
  obtain ⟨_, -, hd⟩ := Outcome.ok_of_bind hd
  exact layout_drain hd

/-- No call moves a card before the hand enters a phase. -/
theorem launch_layout (hl : h.launch call = .ok r) : r.1.layout = h.layout := by
  have hbid : ∀ b, h.bid? call = some b → r.1.layout = h.layout := by
    intro b hb
    simp only [launch, hb] at hl
    obtain ⟨bidden, hbidden, hl⟩ := Outcome.ok_of_bind hl
    obtain rfl := Except.ok.inj hl
    exact (layout_passing bidden b.place).trans (layout_bidden hbidden)
  cases call with
  | fold place | check place | call place | bet place chips | raise place level | allin place =>
      exact hbid _ rfl
  | start =>
      obtain ⟨_, -, hl⟩ := Outcome.ok_of_bind hl
      obtain rfl := Except.ok.inj hl
      rfl
  | ready place =>
      obtain ⟨_, -, hl⟩ := Outcome.ok_of_bind hl
      obtain ⟨⟨i, t⟩, -, hl⟩ := Outcome.ok_of_bind hl
      obtain ⟨t', -, hl⟩ := Outcome.ok_of_bind hl
      obtain ⟨noted, hnoted, hl⟩ := Outcome.ok_of_bind hl
      exact (layout_runQueue hl).trans (layout_record (h := h.setTask i t') hnoted)
  | pay place chips =>
      obtain ⟨_, -, hl⟩ := Outcome.ok_of_bind hl
      obtain ⟨⟨i, t⟩, -, hl⟩ := Outcome.ok_of_bind hl
      obtain ⟨t', -, hl⟩ := Outcome.ok_of_bind hl
      split at hl
      · cases hl
      · obtain ⟨paid, hpaid, hl⟩ := Outcome.ok_of_bind hl
        obtain ⟨noted, hnoted, hl⟩ := Outcome.ok_of_bind hl
        rw [layout_runQueue hl, layout_record hnoted,
          layout_takePayment (h := h.setTask i t') hpaid]
        rfl
  | pass place =>
      obtain ⟨_, -, hl⟩ := Outcome.ok_of_bind hl
      obtain ⟨⟨i, t⟩, -, hl⟩ := Outcome.ok_of_bind hl
      obtain ⟨noted, hnoted, hl⟩ := Outcome.ok_of_bind hl
      exact (layout_runQueue hl).trans (layout_record (h := h.setTask i _) hnoted)
  | readyAll | payAntes | payBlinds => exact layout_drainGate hl
  | next =>
      simp only [launch, bid?, launchOther] at hl
      repeat' split at hl
      all_goals cases hl <;> rfl

/-! Phases. -/

theorem layout_postBigBlind (h : Hand) : h.postBigBlind.layout = h.layout :=
  layout_mapSeats fun s => by split <;> rfl

/-- Only the deal and the entry of a street move cards. -/
theorem react_layout (hdeals : ¬ Deals h.phase) (hr : h.react = .ok r) :
    r.1.layout = h.layout := by
  cases hp : h.phase with
  | started | readiness | antePaid | gameCompleted | settlementCompleted =>
      rw [react_eq hp, reaction, Except.ok.injEq] at hr
      subst hr
      rfl
  | initialized | blindsPaid =>
      rw [react_eq hp, reaction] at hr
      obtain ⟨_, -, hr⟩ := Outcome.ok_of_bind hr
      obtain rfl := Except.ok.inj hr
      rfl
  | prepared => exact absurd (.inl hp) hdeals
  | entered street => exact absurd (.inr ⟨street, hp⟩) hdeals
  | readyRequested | anteRequested =>
      rw [react_eq hp, reaction, Except.ok.injEq] at hr
      subst hr
      exact layout_openGate h _
  | blindsRequested =>
      rw [react_eq hp, reaction] at hr
      split at hr
      · obtain rfl := Except.ok.inj hr
        rfl
      · obtain rfl := Except.ok.inj hr
        exact layout_openGate h _
  | roundInitialized =>
      rw [react_eq hp, reaction] at hr
      obtain ⟨dealer, -, hr⟩ := Outcome.ok_of_bind hr
      have hreset := layout_resetBy h dealer
      simp only at hr
      repeat' split at hr
      · cases hr
        exact hreset
      · cases hr
        exact hreset
      · cases hr
        exact (layout_postBigBlind (h.resetBy dealer)).trans hreset
      · cases hr
        exact hreset
  | roundPrepared =>
      rw [react_eq hp, reaction, Except.ok.injEq] at hr
      subst hr
      exact layout_mapSeats (h := h) fun _ => rfl
  | roundStarted =>
      rw [react_eq hp, reaction, Except.ok.injEq] at hr
      subst hr
      exact layout_passing _ _
  | roundClosed =>
      rw [react_eq hp, reaction, Except.ok.injEq] at hr
      subst hr
      exact layout_mapSeats (h := h) fun _ => rfl
  | settlementRequested =>
      rw [react_eq hp, reaction] at hr
      obtain ⟨_, -, hr⟩ := Outcome.ok_of_bind hr
      obtain rfl := Except.ok.inj hr
      exact layout_mapSeats (h := h) fun _ => rfl
  | gameClosed =>
      rw [react_eq hp, reaction, Except.ok.injEq] at hr
      subst hr
      exact layout_mapSeats (h := h) fun _ => rfl

end Hand

end PokerHand
