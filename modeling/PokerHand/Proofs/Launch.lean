import PokerHand.Hand.Call
import PokerHand.Proofs.Flow.Reaction

/-!
# What a call does before the first phase

A call first changes the hand as it is asked to, and then the hand either rests or enters a phase
and goes on from there. `launch` is the first part, `follow` the second (`attempt_outcome`), and
`Path` lists the hands of the second part, each as it has just entered its phase.
-/
namespace PokerHand

/-- A call in a betting round: the seat it is for, the action that the seat has to be offered, and
the move that it comes to. -/
structure Bid where
  place : Nat
  action : Action
  settle : Seat → Except Fault Move

namespace Hand

variable [Counting]

/-- The calls in a betting round. -/
def bid? (h : Hand) : Call → Option Bid
  | .fold place => some ⟨place, .fold, fun _ => .ok .fold⟩
  | .check place => some ⟨place, .check, fun _ => .ok .check⟩
  | .call place => some ⟨place, .call, fun s => .ok (h.stakes.callMove s)⟩
  | .bet place chips => some ⟨place, .bet, fun s => h.stakes.betMove s chips⟩
  | .raise place level => some ⟨place, .raise, fun s => h.stakes.raiseMove s level⟩
  | .allin place => some ⟨place, .allin, fun s => .ok (.allin s.stack)⟩
  | _ => none

/-- The hand once a move is made and noted, before the turn passes on. -/
def made (h : Hand) (place : Nat) (move : Move) : Except Fault Hand := do
  let h ← h.moveChips place move
  let h ← h.modifySeat place fun s => { s with acted := true }
  let value := match move with
    | .raise _ => h.wagerAt place
    | move => move.chips
  (h.record place move.action value).outcome

/-- The hand once a bid is made, before the turn passes on. -/
def bidden (h : Hand) (b : Bid) : Except Fault Hand := do
  let s ← h.allowedSeat b.place b.action
  let move ← b.settle s
  h.made b.place move

/-- The phase that follows a gate. -/
def exitOf : Phase → Phase
  | .readyRequested => .readiness
  | .anteRequested => .antePaid
  | _ => .blindsPaid

/-- Runs the queue of a gate, and leaves the gate once it drains. -/
def runQueue (h : Hand) : Except Fault (Hand × Option Phase) :=
  let r := Queue.run h.tasks
  if r.drained then
    match h.phase with
    | .readyRequested | .anteRequested | .blindsRequested =>
        .ok ({ h with tasks := [] }, some (exitOf h.phase))
    | phase => .error (.noSuchTask (.noGate phase))
  else .ok ({ h with tasks := r.tasks }.refreshGate, none)

/-- Satisfies the entries of a gate one after the other until its queue drains. -/
def drain : Nat → Phase → Hand → Except Fault (Hand × Option Phase)
  | 0, phase, _ => .error (.inconsistent (.nobodyToClear phase))
  | n + 1, phase, h => do
      let h ← (h.clearEntry phase).outcome
      let r ← h.runQueue
      if r.2.isSome then return r else drain n phase r.1

/-- Satisfies the whole gate. -/
def drainGate (h : Hand) (phase : Phase) : Except Fault (Hand × Option Phase) := do
  h.expectPhase phase
  drain (Queue.openEntries h.tasks + 1) phase h

/-- What a call that is no bid does before the hand rests or enters a phase. -/
def launchOther (h : Hand) : Call → Except Fault (Hand × Option Phase)
  | .start => do
      h.expectPhase .started
      return (h, some .started)
  | .ready place => do
      let _ ← h.allowedSeat place .ready
      let (i, t) ← h.taskFor place
      let t ← t.markReady place
      let h ← ((h.setTask i t).record place .ready 0).outcome
      h.runQueue
  | .pay place chips => do
      let _ ← h.allowedSeat place .pay
      let (i, t) ← h.taskFor place
      let t ← t.recordPayment place chips
      if t.due = .ready then throw (.noSuchTask (.wrongKind t.due))
      else
        let h ← (h.setTask i t).takePayment place t.due chips
        let h ← (h.record place .pay chips).outcome
        h.runQueue
  | .pass place => do
      let _ ← h.allowedSeat place .pass
      let (i, t) ← h.taskFor place
      let h ← ((h.setTask i (t.waive place)).record place .pass 0).outcome
      h.runQueue
  | .readyAll => h.drainGate .readyRequested
  | .payAntes => h.drainGate .anteRequested
  | .payBlinds => h.drainGate .blindsRequested
  -- the only other call that `launch` leaves to this is `next`
  | _ =>
      if h.phase = .roundClosed then
        match h.street.bind Street.next? with
        | some street => .ok (h, some (.entered street))
        | none => .error .noNextRound
      else if h.isClosed then .error .handClosed
      else .error (.roundNotClosed h.phase)

/-- What a call does before the hand rests or enters a phase. -/
def launch (h : Hand) (call : Call) : Except Fault (Hand × Option Phase) :=
  match h.bid? call with
  | some b => do
      let g ← h.bidden b
      return g.passing b.place
  | none => h.launchOther call

theorem apply_outcome (h : Hand) (place : Nat) (move : Move) :
    (h.apply place move).outcome = h.made place move >>= fun g => follow (g.passing place) := by
  cases move <;>
    simp only [apply, made, Traced.outcome_bind, Traced.outcome_liftM, passTurn_outcome, bind_assoc]

/-- Running the queue of a gate is what the hand does before the next phase, if any. -/
theorem runGate_outcome (h : Hand) :
    h.runGate.outcome = h.runQueue >>= fun r => follow r >>= fun g => .ok (g, r.2.isSome) := by
  unfold runGate runQueue
  cases hdrained : (Queue.run h.tasks).drained with
  | false => simp [hdrained, follow]
  | true =>
      simp only [hdrained, if_true, leaveGate, Traced.outcome_bind, Traced.outcome_noteAll,
        Outcome.ok_bind, Traced.outcome_pure]
      cases h.phase <;> simp [follow, flow, exitOf]

theorem clearEntries_outcome (n : Nat) (phase : Phase) (h : Hand) :
    (clearEntries n phase h).outcome = drain n phase h >>= follow := by
  induction n generalizing h with
  | zero => rfl
  | succ n ih =>
      simp only [clearEntries, drain, Traced.outcome_bind, runGate_outcome, bind_assoc]
      congr 1
      funext cleared
      congr 1
      funext r
      obtain ⟨g, next⟩ := r
      cases next with
      | none => simp [follow, ih]
      | some next => simp

theorem clearGate_outcome (h : Hand) (phase : Phase) :
    (h.clearGate phase).outcome = h.drainGate phase >>= follow := by
  simp [clearGate, drainGate, clearEntries_outcome, bind_assoc]

/-- A call is its launch and the phases that follow. -/
theorem attempt_outcome (h : Hand) (call : Call) :
    (h.attempt call).outcome = h.launch call >>= follow := by
  cases call with
  | start => simp [attempt, launch, bid?, launchOther, follow, flow, bind_assoc]
  | ready place =>
      simp [attempt, launch, bid?, launchOther, ready, runGate_outcome, bind_assoc]
  | pay place chips =>
      simp only [attempt, launch, bid?, launchOther, pay, bind_assoc, Traced.outcome_bind,
        Traced.outcome_liftM]
      congr 1
      funext s
      congr 1
      funext found
      congr 1
      funext t
      split <;> simp [runGate_outcome, bind_assoc]
  | pass place =>
      simp [attempt, launch, bid?, launchOther, pass, runGate_outcome, bind_assoc]
  | readyAll | payAntes | payBlinds =>
      simp [attempt, launch, bid?, launchOther, clearGate_outcome]
  | fold place | check place | call place | bet place chips | raise place level | allin place =>
      simp [attempt, launch, bid?, bidden, apply_outcome, bind_assoc]
  | next =>
      simp only [attempt, launch, bid?, launchOther, nextStreet]
      by_cases hp : h.phase = .roundClosed
      · cases hnext : h.street.bind Street.next? <;> simp [hp, follow, flow]
      · cases hclosed : h.isClosed <;> simp [hp]

/-! The phases that follow. -/

/-- The hands that enter a phase from `r` on until the hand rests as `h'`, each as it has just
entered its phase. -/
inductive Path : Hand × Option Phase → List Hand → Hand → Prop where
  | rest (h : Hand) : Path (h, none) [] h
  | enter {h h' : Hand} {phase : Phase} {r : Hand × Option Phase} {path : List Hand}
      (hreact : { h with phase := phase }.react = .ok r) (hpath : Path r path h') :
      Path (h, some phase) ({ h with phase := phase } :: path) h'

theorem exists_path_of_flow {h h' : Hand} (phase : Phase)
    (hflow : (flow phase h).outcome = .ok h') : ∃ path, Path (h, some phase) path h' := by
  rw [flow_outcome] at hflow
  obtain ⟨⟨g, next⟩, hreact, hfollow⟩ := Outcome.ok_of_bind hflow
  cases next with
  | none =>
      obtain rfl : g = h' := Except.ok.inj hfollow
      exact ⟨_, .enter hreact (.rest g)⟩
  | some next =>
      have hlt : next.rank < phase.rank := react_rank hreact
      obtain ⟨path, hpath⟩ := exists_path_of_flow next hfollow
      exact ⟨_, .enter hreact hpath⟩
termination_by phase.rank

theorem Path.follow_eq_ok {r : Hand × Option Phase} {path : List Hand} {h' : Hand}
    (hpath : Path r path h') : follow r = .ok h' := by
  induction hpath with
  | rest h => rfl
  | @enter h h' phase r path hreact _ ih =>
      show (flow phase h).outcome = .ok h'
      rw [flow_outcome, hreact]
      exact ih

/-- Going on succeeds along a path. -/
theorem follow_eq_ok_iff {r : Hand × Option Phase} {h' : Hand} :
    follow r = .ok h' ↔ ∃ path, Path r path h' := by
  refine ⟨fun hfollow => ?_, fun ⟨_, hpath⟩ => hpath.follow_eq_ok⟩
  obtain ⟨h, next⟩ := r
  cases next with
  | none =>
      obtain rfl : h = h' := Except.ok.inj hfollow
      exact ⟨[], .rest h⟩
  | some phase => exact exists_path_of_flow phase hfollow

/-- What every reaction keeps holds all along a path and where the hand rests. -/
theorem Path.keeps {I J : Hand → Prop}
    (step : ∀ h, I h → ∀ r, h.react = .ok r → Carries I J r) {r : Hand × Option Phase}
    {path : List Hand} {h' : Hand} (hpath : Path r path h') (hr : Carries I J r) :
    (∀ g ∈ path, I g) ∧ J h' := by
  induction hpath with
  | rest h => exact ⟨fun _ hg => absurd hg List.not_mem_nil, hr⟩
  | @enter h h' phase r path hreact _ ih =>
      obtain ⟨hall, hrest⟩ := ih (step _ hr r hreact)
      exact ⟨List.forall_mem_cons.2 ⟨hr, hall⟩, hrest⟩

/-- A path only ever leads on. -/
theorem Path.rank_le {r : Hand × Option Phase} {path : List Hand} {h' : Hand}
    (hpath : Path r path h') : h'.phase.rank ≤ (r.2.getD r.1.phase).rank := by
  induction hpath with
  | rest h => exact Nat.le_refl _
  | @enter h h' phase r path hreact _ ih =>
      obtain ⟨g, next⟩ := r
      cases next with
      | none =>
          have hphase : g.phase = phase := (react_leads hreact).1
          exact hphase ▸ ih
      | some next => exact Nat.le_trans ih (Nat.le_of_lt (react_rank hreact))

/-- The call lets the hand enter phases along `path` until it rests as `h'`. -/
def Runs (h : Hand) (call : Call) (path : List Hand) (h' : Hand) : Prop :=
  ∃ r, h.launch call = .ok r ∧ Path r path h'

theorem attempt_eq_ok_iff {h h' : Hand} {call : Call} :
    (h.attempt call).outcome = .ok h' ↔ ∃ path, h.Runs call path h' := by
  rw [attempt_outcome]
  constructor
  · intro hattempt
    obtain ⟨r, hlaunch, hfollow⟩ := Outcome.ok_of_bind hattempt
    obtain ⟨path, hpath⟩ := follow_eq_ok_iff.1 hfollow
    exact ⟨path, r, hlaunch, hpath⟩
  · rintro ⟨path, r, hlaunch, hpath⟩
    rw [hlaunch]
    exact hpath.follow_eq_ok

end Hand

end PokerHand
