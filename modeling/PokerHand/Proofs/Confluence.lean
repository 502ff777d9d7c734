import PokerHand.Proofs.Gate.Upshot
import PokerHand.Proofs.Play

/-!
# Gates are confluent

The seats may satisfy the entries of a gate in any order, on their own or through the calls that
clear the gate for all of them. Whatever drains the queue leaves the gate with its upshot, and the
phases that follow do not look at anything else (`Drains.flow_upshot`).
-/
namespace PokerHand.Hand

section Gates

variable [Counting] {setup : Setup} {h h' : Hand}

/-- The calls, each at its time, succeed one after the other until the queue at which the hand rests
has drained: the last of them lets the hand enter the next phase, and none before it does. -/
inductive Drains : Hand → List (Int × Call) → Hand → Prop where
  | last {h h' : Hand} {now : Int} {call : Call} (hok : (h.perform now call).outcome = .ok h')
      (hleaves : (h.perform now call).entered ≠ []) : Drains h [(now, call)] h'
  | more {h g h' : Hand} {now : Int} {call : Call} {calls : List (Int × Call)}
      (hok : (h.perform now call).outcome = .ok g) (hwaits : (h.perform now call).entered = [])
      (hrest : Drains g calls h') : Drains h ((now, call) :: calls) h'

/-- A call that succeeds at a gate satisfies entries there and goes on along its path. -/
theorem AtGate.served_of_perform (hg : h.AtGate setup) {now : Int} {call : Call}
    (hok : (h.perform now call).outcome = .ok h') :
    ∃ r rested, Served h r ∧ follow r = .ok rested ∧ h' = { rested with updatedAt := now } ∧
      ((h.perform now call).entered = [] ↔ r.2 = none) := by
  obtain ⟨path, rested, ⟨r, hlaunch, hpath⟩, heq, hentered⟩ := exists_runs_of_perform hok
  refine ⟨r, rested, hg.served hlaunch, hpath.follow_eq_ok, heq, ?_⟩
  rw [hentered]
  cases hpath <;> simp

/-- A call that enters no phase leaves the hand at its gate, with the same upshot. -/
theorem AtGate.stays_of_perform (ha : setup.Accepted) (hg : h.AtGate setup) {now : Int}
    {call : Call} (hok : (h.perform now call).outcome = .ok h')
    (hwaits : (h.perform now call).entered = []) :
    h'.AtGate setup ∧ h'.phase = h.phase ∧ h'.upshot = h.upshot := by
  have hrested := after_resting ha hg.resting now call
  rw [after_of_perform hok] at hrested
  obtain ⟨⟨rested, next⟩, _, hserved, hfollow, rfl, hentered⟩ := hg.served_of_perform hok
  obtain rfl : next = none := hentered.1 hwaits
  obtain rfl := Except.ok.inj hfollow
  obtain ⟨-, hphase⟩ | ⟨hsome, -⟩ := hserved.leaves
  · have hgate := hg.gated.collecting.isGate
    exact ⟨Resting.waits hrested (hphase ▸ hgate), hphase, hserved.upshot hg⟩
  · cases hsome

/-- A call that enters a phase has drained the queue, and the phases go on from the upshot. -/
theorem AtGate.leaves_of_perform (hg : h.AtGate setup) {now : Int} {call : Call}
    (hok : (h.perform now call).outcome = .ok h') (hleaves : (h.perform now call).entered ≠ []) :
    undated <$> (flow (exitOf h.phase) h.upshot).outcome = .ok h'.undated := by
  obtain ⟨⟨g, next⟩, rested, hserved, hfollow, rfl, hentered⟩ := hg.served_of_perform hok
  obtain ⟨hnone, -⟩ | ⟨hsome, htasks⟩ := hserved.leaves
  · exact absurd (hentered.2 hnone) hleaves
  · obtain rfl : next = some _ := hsome
    have hflow : (flow _ g).outcome = .ok rested := hfollow
    have hupshot := hserved.upshot hg
    rw [upshot_of_tasks htasks] at hupshot
    rw [← hupshot, flow_bare, hflow]
    rfl

/-- However its queue is drained, a gate comes to what follows from its upshot. -/
theorem Drains.flow_upshot {calls : List (Int × Call)} (hd : Drains h calls h')
    (ha : setup.Accepted) (hg : h.AtGate setup) :
    undated <$> (flow (exitOf h.phase) h.upshot).outcome = .ok h'.undated := by
  induction hd with
  | last hok hleaves => exact hg.leaves_of_perform hok hleaves
  | more hok hwaits _ ih =>
      obtain ⟨hgate, hphase, hupshot⟩ := hg.stays_of_perform ha hok hwaits
      rw [← hphase, ← hupshot]
      exact ih hgate

/-- Whichever calls drain a gate, and in whatever order, the hand comes to the same state apart from
its last action and the time of its last change. -/
theorem gate_confluent {id : String} {now : Int} (hc : create setup id now = .ok h)
    (calls : List (Int × Call)) (hp : (h.play calls).phase ∈ Phase.gates)
    {xs ys : List (Int × Call)} {h₁ h₂ : Hand} (hfirst : (h.play calls).Drains xs h₁)
    (hsecond : (h.play calls).Drains ys h₂) :
    h₁ = { h₂ with last := h₁.last, updatedAt := h₁.updatedAt } := by
  have ha := (fresh_of_create hc).accepted
  have hg := (resting_of_create hc calls).waits (Phase.mem_gates.1 hp)
  have hsame : h₁.undated = h₂.undated :=
    Except.ok.inj ((hfirst.flow_upshot ha hg).symm.trans (hsecond.flow_upshot ha hg))
  exact congrArg (fun h => { h with last := h₁.last, updatedAt := h₁.updatedAt }) hsame

end Gates

/-- Two blinds, posted by one player after the other or for both at once. -/
theorem gate_confluent_headsUp :
    ∃ h gate h₁ h₂, create ⟨.standard, Setup.entries 2 100⟩ "" 0 = .ok h ∧
      h.play [(1, .start), (2, .readyAll)] = gate ∧ gate.phase ∈ Phase.gates ∧
      gate.play [(3, .pay 1 10), (4, .pay 0 5)] = h₁ ∧ gate.play [(5, .payBlinds)] = h₂ ∧
      gate.Drains [(3, .pay 1 10), (4, .pay 0 5)] h₁ ∧ gate.Drains [(5, .payBlinds)] h₂ ∧
      h₁ = { h₂ with last := h₁.last, updatedAt := h₁.updatedAt } := by
  have hc : create ⟨.standard, Setup.entries 2 100⟩ "" 0 = .ok _ := rfl
  have hconfluent := @gate_confluent _ _ _ _ _ hc [(1, .start), (2, .readyAll)]
    (List.elem_iff.1 rfl)
  refine ⟨_, _, _, _, hc, rfl, List.elem_iff.1 rfl, rfl, rfl, ?first, ?second,
    hconfluent ?first ?second⟩
  case first =>
    exact .more (perform_eq_after rfl) rfl (.last (perform_eq_after rfl) (by decide))
  case second => exact .last (perform_eq_after rfl) (by decide)

end PokerHand.Hand
