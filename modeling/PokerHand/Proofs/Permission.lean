import PokerHand.Proofs.Closing
import PokerHand.Proofs.Course
import PokerHand.Proofs.Progress

/-!
# Who may act

What a seat is offered is read off the state alone: at a gate it is the answer to the first task
that still lacks something of the seat, in a betting round it is for the seat whose turn it is, and
elsewhere nobody is offered anything. For this no offer and no task may outlive its gate; the tasks
are followed along the course of the hand (`chronicle_tasks`), the offers are part of `Resting`.
-/
namespace PokerHand

namespace Task

/-- Whether the task has an entry for `seat` that is not satisfied. -/
def lacks (t : Task) (seat : Nat) : Bool := t.isParticipant seat && !t.isSatisfiedBy seat

/-- The action by which a seat satisfies its entry. -/
def answer (t : Task) (s : Seat) : Action :=
  if s.isAllIn then .pass else if t.isPayment then .pay else .ready

/-- The task is marked as completed only when it is satisfied. -/
def Honest (t : Task) : Prop := t.completed = true → t.isSatisfied = true

variable {t : Task} {seat : Nat}

theorem Honest.of_open (hopen : t.completed = false) : t.Honest := by
  simp [Honest, hopen]

theorem Honest.awaits_eq (ht : t.Honest) (seat : Nat) : t.awaits seat = t.lacks seat := by
  unfold awaits lacks
  cases hcompleted : t.completed with
  | false => simp
  | true =>
      cases hasked : t.isParticipant seat with
      | false => simp
      | true =>
          have hsatisfied := List.all_eq_true.1 (ht hcompleted) seat (isParticipant_iff.1 hasked)
          simp [hsatisfied]

end Task

namespace Queue

variable {tasks : List Task} {seat : Nat}

theorem honest_run (hh : ∀ t ∈ tasks, t.Honest) : ∀ t ∈ (run tasks).tasks, t.Honest := by
  induction tasks with
  | nil => simp [run]
  | cons t rest ih =>
      obtain ⟨ht, hrest⟩ := List.forall_mem_cons.1 hh
      unfold run
      split
      · exact List.forall_mem_cons.2 ⟨ht, ih hrest⟩
      · split
        · next hsatisfied => exact List.forall_mem_cons.2 ⟨fun _ => hsatisfied, ih hrest⟩
        · exact hh

/-- The first task that waits for a seat is the first that lacks something of it. -/
theorem find?_lacks (hh : ∀ t ∈ tasks, t.Honest) (seat : Nat) :
    tasks.find? (·.lacks seat) = (firstFor? tasks seat).bind fun i => tasks[i]? := by
  have hsame : tasks.find? (·.lacks seat) = tasks.find? (·.awaits seat) := by
    induction tasks with
    | nil => rfl
    | cons t rest ih =>
        obtain ⟨ht, hrest⟩ := List.forall_mem_cons.1 hh
        rw [List.find?_cons, List.find?_cons, ht.awaits_eq, ih hrest]
  rw [hsame, firstFor?, List.find?_eq_bind_findIdx?_getElem?]

end Queue

namespace Hand

variable {setup : Setup} {h h' : Hand} {s : Seat}

/-- The tasks of a hand at rest: none but at a gate, and there marked honestly. -/
structure Tasked (h : Hand) : Prop where
  honest : ∀ t ∈ h.tasks, t.Honest
  none_of_not_gate : h.phase ∉ Phase.gates → h.tasks = []

theorem tasked_of_nil (hnil : h.tasks = []) : h.Tasked :=
  ⟨by simp [hnil], fun _ => hnil⟩

theorem carries_of_nil {r : Hand × Option Phase} (hnil : r.1.tasks = []) :
    Carries (fun h => h.tasks = []) Tasked r := by
  obtain ⟨g, next⟩ := r
  cases next with
  | none => exact tasked_of_nil hnil
  | some phase => exact hnil

theorem tasked_openGate {tasks : List Task} (hp : h.phase ∈ Phase.gates)
    (hopen : ∀ t ∈ tasks, t.completed = false) : (h.openGate tasks).Tasked :=
  ⟨fun t ht => .of_open (hopen t ht), fun hno => absurd hp hno⟩

/-- Running the queue leaves honest tasks, or none once it drains. -/
theorem runQueue_honest {r : Hand × Option Phase} (hh : ∀ t ∈ h.tasks, t.Honest)
    (hr : h.runQueue = .ok r) : ∀ t ∈ r.1.tasks, t.Honest := by
  simp only [runQueue] at hr
  split at hr
  · split at hr
    all_goals cases hr <;> simp
  · obtain rfl := Except.ok.inj hr
    exact Queue.honest_run hh

section Course

variable [Counting]

/-- No task outlives its gate: a phase that is entered without tasks leads on without tasks, or to a
gate with tasks none of which has completed. -/
theorem react_tasked {r : Hand × Option Phase} (hnil : h.tasks = []) (hr : h.react = .ok r) :
    Carries (fun h => h.tasks = []) Tasked r := by
  have hgate : ∀ tasks, h.phase ∈ Phase.gates → (∀ t ∈ tasks, t.completed = false) →
      Carries (fun h => h.tasks = []) Tasked (h.openGate tasks, none) :=
    fun tasks hp hopen => tasked_openGate hp hopen
  cases hp : h.phase with
  | started | readiness | antePaid | gameCompleted | settlementCompleted | roundPrepared
  | roundClosed | gameClosed =>
      rw [react_eq hp, reaction, Except.ok.injEq] at hr
      subst hr
      exact carries_of_nil hnil
  | initialized | blindsPaid | settlementRequested =>
      rw [react_eq hp, reaction] at hr
      obtain ⟨_, -, hr⟩ := Outcome.ok_of_bind hr
      obtain rfl := Except.ok.inj hr
      exact carries_of_nil hnil
  | prepared =>
      rw [react_eq hp, reaction] at hr
      obtain ⟨dealt, hdeal, hr⟩ := Outcome.ok_of_bind hr
      obtain rfl := Except.ok.inj hr
      exact carries_of_nil ((dealHole_keeps hdeal).2.2.trans hnil)
  | entered street =>
      rw [react_eq hp, reaction] at hr
      split at hr
      · obtain rfl := Except.ok.inj hr
        exact carries_of_nil hnil
      · obtain ⟨dealt, hdeal, hr⟩ := Outcome.ok_of_bind hr
        obtain rfl := Except.ok.inj hr
        exact carries_of_nil ((dealBoard_keeps hdeal).2.2.trans hnil)
  | readyRequested | anteRequested =>
      rw [react_eq hp, reaction, Except.ok.injEq] at hr
      subst hr
      refine hgate _ (by simp [hp, Phase.gates]) fun t ht => ?_
      obtain rfl := List.mem_singleton.1 ht
      rfl
  | blindsRequested =>
      rw [react_eq hp, reaction] at hr
      split at hr
      · obtain rfl := Except.ok.inj hr
        exact carries_of_nil hnil
      · obtain rfl := Except.ok.inj hr
        refine hgate _ (by simp [hp, Phase.gates]) fun t ht => ?_
        obtain ⟨due, position, amount, -, -, -, rfl, -⟩ := exists_of_mem_blindTasks ht
        rfl
  | roundInitialized =>
      rw [react_eq hp, reaction] at hr
      obtain ⟨dealer, -, hr⟩ := Outcome.ok_of_bind hr
      simp only at hr
      repeat' split at hr
      all_goals
        cases hr
        exact carries_of_nil hnil
  | roundStarted =>
      rw [react_eq hp, reaction, Except.ok.injEq] at hr
      subst hr
      refine carries_of_nil ?_
      rcases passing_eq { h with tasks := [] } h.raiser with ⟨-, heq⟩ | ⟨seat, -, -, heq⟩ <;>
        exact heq ▸ rfl

/-- Satisfying an entry leaves the tasks marked honestly, since a task that waits has not
completed. -/
theorem Serves.honest (hserves : h.Serves s h') (hh : ∀ t ∈ h.tasks, t.Honest) :
    ∀ t ∈ h'.tasks, t.Honest := by
  have hset : ∀ {i : Nat} {t t' : Task}, t.awaits s.number = true → t.Settles s.number t' →
      ∀ u ∈ h.tasks.set i t', u.Honest := by
    intro i t t' hawaits hsettles
    have hopen := (Task.awaits_iff.1 hawaits).1
    exact Queue.forall_mem_set hh (.of_open (hsettles.completed.trans hopen))
  cases hserves with
  | excused _ _ hawaits hsettles _ => exact hset hawaits hsettles
  | paid _ _ hawaits hsettles _ _ _ => exact hset hawaits hsettles

theorem Served.honest {r : Hand × Option Phase} (hserved : Served h r)
    (hh : ∀ t ∈ h.tasks, t.Honest) : ∀ t ∈ r.1.tasks, t.Honest := by
  induction hserved with
  | once _ hserves hrun => exact runQueue_honest (hserves.honest hh) hrun
  | more _ hserves hrun _ ih => exact ih (runQueue_honest (hserves.honest hh) hrun)

/-- Without tasks no call leaves any before the hand enters a phase. -/
theorem Resting.launch_tasks {r : Hand × Option Phase} {call : Call} (hr : h.Resting setup)
    (hp : h.phase ∉ Phase.gates) (hnil : h.tasks = []) (hlaunch : h.launch call = .ok r) :
    r.1.tasks = [] := by
  rcases hr.launch_cases hlaunch with ⟨hg, -⟩ | ⟨b, g, hbid, hbidden, rfl⟩ | ⟨phase, rfl⟩
  · exact absurd (Phase.mem_gates.2 hg.gated.collecting.isGate) hp
  · have htasks := (hr.moved_of_bidden hbid hbidden).1.tasks.trans hnil
    rcases passing_eq g b.place with ⟨-, heq⟩ | ⟨seat, -, -, heq⟩ <;> rw [heq] <;> exact htasks
  · exact hnil

/-- A call keeps the tasks in order. -/
theorem Tasked.launch {r : Hand × Option Phase} {call : Call} (hr : h.Resting setup)
    (ht : h.Tasked) (hlaunch : h.launch call = .ok r) :
    Carries (fun h => h.tasks = []) Tasked r := by
  by_cases hp : h.phase ∈ Phase.gates
  · have hserved := (hr.waits (Phase.mem_gates.1 hp)).served hlaunch
    obtain ⟨g, next⟩ := r
    obtain ⟨hnone, hphase⟩ | ⟨hsome, hnil⟩ := hserved.leaves
    · obtain rfl : next = none := hnone
      exact ⟨hserved.honest ht.honest, fun hno => absurd (hphase ▸ hp) hno⟩
    · obtain rfl : next = some _ := hsome
      exact hnil
  · exact carries_of_nil (hr.launch_tasks hp (ht.none_of_not_gate hp) hlaunch)

theorem chronicle_tasks :
    Chronicle setup (fun _ h => h.tasks = []) (fun _ h => h.Tasked) where
  react := fun _ hnil hr => react_tasked hnil hr
  launch := fun hr ht hlaunch => ht.launch hr hlaunch
  withTime := fun _ ht => ⟨ht.honest, ht.none_of_not_gate⟩

theorem tasked_of_create {id : String} {now : Int} (hc : create setup id now = .ok h)
    (calls : List (Int × Call)) : (h.play calls).Tasked := by
  have hf := fresh_of_create hc
  have hnil : h.tasks = [] := by
    obtain ⟨_, -, hc⟩ := Outcome.ok_of_bind hc
    obtain rfl := Except.ok.inj hc
    rfl
  exact chronicle_tasks.play hf.accepted hf.resting (tasked_of_nil hnil) calls

/-- At a gate a seat is offered the answer to the first task that lacks something of it. -/
theorem AtGate.allowed_eq (hg : h.AtGate setup) (ht : h.Tasked) (hs : s ∈ h.seats) :
    s.allowed = match h.tasks.find? (·.lacks s.number) with
      | none => []
      | some t => [t.answer s] := by
  have hunfolded := hg.gated.collecting.folded hs
  rw [hg.offers s hs, gateOffer, Queue.find?_lacks ht.honest]
  cases hi : Queue.firstFor? h.tasks s.number with
  | none => rfl
  | some i =>
      obtain ⟨t, hfind, -⟩ := Queue.exists_of_firstFor? hi
      simp only [hunfolded, Bool.false_or, Option.bind_some, hfind, Task.answer]
      split
      · rfl
      · split <;> rfl

/-- In a betting round only the seat whose turn it is is offered anything. -/
theorem AtTurn.allowed_iff (ht : h.AtTurn setup) {place : Nat} (hs : h.seats[place]? = some s) :
    s.allowed ≠ [] ↔ place = h.turn := by
  have hnumber := ht.inRound.table.numbered.number_of_getElem? hs
  have hmem := List.mem_of_getElem? hs
  constructor
  · intro hoffered
    by_contra hne
    rw [ht.offers s hmem, if_neg (hnumber ▸ hne)] at hoffered
    exact hoffered rfl
  · intro hturn
    obtain ⟨r, hr, hmay⟩ := ht.exists_allin
    have hsame := (ht.eq_turn hr hmay).1.trans (hturn.symm.trans hnumber.symm)
    exact ht.inRound.table.numbered.eq_of_number hr hmem hsame ▸ allowed_ne_nil hmay

/-- However a hand is played, in a betting round exactly the seat whose turn it is is offered
actions, and it has chips and something left to decide; at a gate there are tasks, and each seat is
offered the answer to the first of them that lacks something of it; elsewhere nobody is offered
anything; and beyond the gates there are no tasks. -/
theorem play_permits {id : String} {now : Int} (hc : create setup id now = .ok h)
    (calls : List (Int × Call)) :
    ((h.play calls).phase = .roundStarted →
        ∃ s, (h.play calls).seats[(h.play calls).turn]? = some s ∧ s.folded = false ∧
          0 < s.stack ∧ ¬ (s.acted = true ∧ (h.play calls).wager ≤ s.wager) ∧
          ∀ place r, (h.play calls).seats[place]? = some r →
            (r.allowed ≠ [] ↔ place = (h.play calls).turn)) ∧
      ((h.play calls).phase ∈ Phase.gates →
        (h.play calls).tasks ≠ [] ∧
          ∀ s ∈ (h.play calls).seats,
            s.allowed = match (h.play calls).tasks.find? (·.lacks s.number) with
              | none => []
              | some t => [t.answer s]) ∧
      ((h.play calls).phase ∈ [Phase.started, .roundClosed, .gameClosed] →
        ∀ s ∈ (h.play calls).seats, s.allowed = []) ∧
      ((h.play calls).phase ∉ Phase.gates → (h.play calls).tasks = []) := by
  have hr := resting_of_create hc calls
  have ht := tasked_of_create hc calls
  refine ⟨fun hp => ?_, fun hp => ?_, fun hp => ?_, ht.none_of_not_gate⟩
  · rw [Resting, hp] at hr
    have hfind := List.getElem?_eq_getElem hr.turn_lt
    have hmem := List.mem_of_getElem? hfind
    have hnumber := hr.inRound.table.numbered.number_of_getElem? hfind
    have hmovable := hr.movable _ hmem hnumber
    simp only [Seat.isMovable, Bool.and_eq_true, Bool.not_eq_true', decide_eq_true_eq] at hmovable
    exact ⟨_, hfind, hmovable.1, hmovable.2, hr.undone _ hmem hnumber,
      fun place r hs => hr.allowed_iff hs⟩
  · have hg := hr.waits (Phase.mem_gates.1 hp)
    obtain ⟨t, hmem, -⟩ := hg.waiting
    exact ⟨List.ne_nil_of_mem hmem, fun s hs => hg.allowed_eq ht hs⟩
  · simp only [List.mem_cons, List.not_mem_nil, or_false] at hp
    rcases hp with hp | hp | hp <;> rw [Resting, hp] at hr <;> exact hr.2

end Course

/-- Two players whose blinds are due, and then the first turn. -/
theorem play_permits_headsUp :
    ∃ h gate turn, create ⟨.standard, Setup.entries 2 100⟩ "" 0 = .ok h ∧
      h.play [(1, .start), (2, .readyAll)] = gate ∧ gate.phase = .blindsRequested ∧
      gate.tasks ≠ [] ∧
      (∀ s ∈ gate.seats, s.allowed = match gate.tasks.find? (·.lacks s.number) with
        | none => []
        | some t => [t.answer s]) ∧
      h.play [(1, .start), (2, .readyAll), (3, .payBlinds), (4, .readyAll)] = turn ∧
      turn.phase = .roundStarted ∧ turn.tasks = [] ∧
      ∃ s, turn.seats[turn.turn]? = some s ∧ s.folded = false ∧ 0 < s.stack ∧
        ¬ (s.acted = true ∧ turn.wager ≤ s.wager) ∧
        ∀ place r, turn.seats[place]? = some r → (r.allowed ≠ [] ↔ place = turn.turn) := by
  have hc : create ⟨.standard, Setup.entries 2 100⟩ "" 0 = .ok _ := rfl
  obtain ⟨-, hgate, -, -⟩ := play_permits hc [(1, .start), (2, .readyAll)]
  obtain ⟨hturn, -, -, htasks⟩ := play_permits hc
    [(1, .start), (2, .readyAll), (3, .payBlinds), (4, .readyAll)]
  obtain ⟨hne, hallowed⟩ := hgate (List.elem_iff.1 rfl)
  exact ⟨_, _, _, hc, rfl, rfl, hne, hallowed, rfl, rfl, htasks (by decide), hturn rfl⟩

end Hand

end PokerHand
