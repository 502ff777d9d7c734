import PokerHand.Proofs.Gate.Entries
import PokerHand.Proofs.Launched

/-!
# Calls at a gate

Every way to satisfy an entry of a gate leaves the hand in order: at the gate while it waits, and
past it once its queue has drained. Satisfying the whole gate on behalf of the seats succeeds.
-/
namespace PokerHand.Hand

variable {setup : Setup} {h h' : Hand} {s : Seat}

/-- The hand with an applied action noted. -/
def noted (h : Hand) (place : Nat) (action : Action) (value : Int) : Hand :=
  { h.mapSeats fun s => if s.number = place then { s with did := some action } else s with
    last := some ⟨place, action, value⟩ }

theorem record_outcome (hn : Numbered h.seats) {place : Nat} (hlt : place < h.seats.length)
    (action : Action) (value : Int) :
    (h.record place action value).outcome = .ok (h.noted place action value) := by
  simp [record, modifySeat_eq_ok hn hlt, noted]

theorem noted_alike (place : Nat) (action : Action) (s : Seat) :
    s.Alike (if s.number = place then { s with did := some action } else s) := by
  split <;> exact s.alike_update _ _ _ _ _

/-- While the queue waits the gate stays; once it drains no task is left, and the gate is left. -/
theorem runQueue_leaves {r : Hand × Option Phase} (hr : h.runQueue = .ok r) :
    r.2 = none ∧ r.1.phase = h.phase ∨ r.2 = some (exitOf h.phase) ∧ r.1.tasks = [] := by
  simp only [runQueue] at hr
  split at hr
  · split at hr
    all_goals cases hr <;> exact .inr ⟨rfl, rfl⟩
  · obtain rfl := Except.ok.inj hr
    exact .inl ⟨rfl, rfl⟩

theorem taskFor_eq_ok {i : Nat} {t : Task} {seat : Nat}
    (hi : Queue.firstFor? h.tasks seat = some i) (ht : h.tasks[i]? = some t) :
    h.taskFor seat = .ok (i, t) := by
  simp [taskFor, hi, ht]

theorem mem_of_mayDo {a b : Action} (hmay : s.mayDo a = true) (hb : s.allowed = [b]) : a = b := by
  simpa [Seat.mayDo, hb] using hmay

theorem allowed_ne_nil {a : Action} (hmay : s.mayDo a = true) : s.allowed ≠ [] := by
  intro hnil
  simp [Seat.mayDo, hnil] at hmay

variable [Counting]

theorem Gated.noted (hg : h.Gated setup) (place : Nat) (action : Action) (value : Int) :
    (h.noted place action value).Gated setup where
  collecting := hg.collecting.alike rfl rfl rfl rfl (noted_alike place action) fun s => by
    split <;> rfl
  proper := by
    show ∀ t ∈ h.tasks, t.Proper (h.seats.map _).length
    rw [List.length_map]
    exact hg.proper
  fair := hg.fair

theorem Nearer.noted (hnear : h.Nearer setup h') (place : Nat) (action : Action) (value : Int) :
    h.Nearer setup (h'.noted place action value) :=
  ⟨hnear.gated.noted place action value, hnear.phase, hnear.street, hnear.openEntries_lt⟩

/-- The seat `s` satisfies its entry in the first task that waits for it, which is noted: it passes
without chips, says that it is ready, or pays what it owes. -/
inductive Serves (h : Hand) (s : Seat) : Hand → Prop where
  | excused {i : Nat} {t t' : Task} {action : Action}
      (hi : Queue.firstFor? h.tasks s.number = some i) (ht : h.tasks[i]? = some t)
      (hawaits : t.awaits s.number = true) (hsettles : t.Settles s.number t')
      (haction : action = .pass ∧ s.stack = 0 ∨
        action = .ready ∧ s.stack ≠ 0 ∧ t.isPayment = false) :
      Serves h s ((h.setTask i t').noted s.number action 0)
  | paid {i : Nat} {t t' : Task} {chips : Int}
      (hi : Queue.firstFor? h.tasks s.number = some i) (ht : h.tasks[i]? = some t)
      (hawaits : t.awaits s.number = true) (hsettles : t.Settles s.number t')
      (hstack : s.stack ≠ 0) (hpayment : t.isPayment = true)
      (howed : t.owedBy s.number = some chips) :
      Serves h s (((h.setTask i t').mapSeats (paidBy s.number t.due chips)).noted s.number .pay
        chips)

/-- A seat that satisfies an entry leaves the gate in order. -/
theorem Serves.nearer (hserves : h.Serves s h') (hg : h.Gated setup) (hs : s ∈ h.seats) :
    h.Nearer setup h' := by
  cases hserves with
  | excused hi ht hawaits hsettles haction =>
      have hfree := haction.imp (fun hpass => hpass.2) fun hready => hready.2.2
      exact (gated_excused hg hs hi ht hawaits hsettles hfree).noted _ _ _
  | paid hi ht hawaits hsettles hstack hpayment howed =>
      exact (gated_paid hg hs hi ht hsettles howed hstack hawaits hpayment).noted _ _ _

theorem Serves.phase_eq (hserves : h.Serves s h') : h'.phase = h.phase := by
  cases hserves <;> rfl

/-! Running the queue. -/

theorem exitOf_mem_exits (hc : h.Collecting setup) : exitOf h.phase ∈ h.phase.exits h.street := by
  rcases hc.isGate with hp | hp | hp <;> rw [hp] <;> exact List.mem_singleton_self _

/-- With nothing owed any more the gate can be left. -/
theorem Collecting.entering_exit (hc : h.Collecting setup)
    (hdues : ∀ seat, Queue.duesOf h.tasks seat = []) :
    { h with tasks := [], phase := exitOf h.phase }.Entering setup := by
  have hsame : h.seats = h.seats.map fun r => r := (List.map_id' _).symm
  rcases hc.isGate with hp | hp | hp
  · rw [hp]
    exact ((collecting_ready hp).1 hc).2.alike rfl hsame Seat.Alike.refl fun _ => rfl
  · rw [hp]
    refine ((collecting_ante hp).1 hc).2.alike rfl hsame Seat.Alike.refl fun s _ ho => ?_
    rwa [hdues] at ho
  · rw [hp]
    refine ((collecting_blinds hp).1 hc).2.alike rfl hsame Seat.Alike.refl (fun _ => rfl)
      fun s _ ho => ?_
    rwa [hdues] at ho

/-- Completed tasks do not change what a gate collects. -/
theorem Gated.run (hg : h.Gated setup) :
    { h with tasks := (Queue.run h.tasks).tasks }.Gated setup := by
  have hkinds : ∀ u ∈ (Queue.run h.tasks).tasks,
      ∃ t ∈ h.tasks, u.due = t.due ∧ u.isPayment = t.isPayment :=
    Queue.forall_mem_run (fun _ hu => hu) fun t ht => ⟨t, ht, rfl, rfl⟩
  refine ⟨hg.collecting.withTasks hkinds fun s _ => ?_,
    Queue.forall_mem_run (fun t ht => ht.complete) hg.proper,
    Queue.forall_mem_run (fun _ hf => hf) hg.fair⟩
  rw [Queue.duesOf_run]

/-- Running the queue leads past the gate when it drains, and else leaves the hand at the gate with
as many entries open. -/
theorem runQueue_eq_ok (hg : h.Gated setup) :
    (∃ g, h.runQueue = .ok (g, some (exitOf h.phase)) ∧ g.street = h.street ∧
        { g with phase := exitOf h.phase }.Entering setup) ∨
      ∃ g, h.runQueue = .ok (g, none) ∧ g.AtGate setup ∧ g.phase = h.phase ∧
        g.street = h.street ∧ Queue.openEntries g.tasks = Queue.openEntries h.tasks := by
  have hrun := hg.run
  unfold runQueue
  cases hdrained : (Queue.run h.tasks).drained with
  | true =>
      have hdues : ∀ seat, Queue.duesOf h.tasks seat = [] := fun seat =>
        Queue.duesOf_of_drained hdrained seat
      refine .inl ⟨{ h with tasks := [] }, ?_, rfl, hg.collecting.entering_exit hdues⟩
      rcases hg.collecting.isGate with hp | hp | hp <;> simp [hdrained, hp]
  | false =>
      have hat := hrun.refreshGate (Queue.waiting_of_not_drained hdrained)
      exact .inr ⟨_, by simp [hdrained], hat, rfl, rfl, Queue.openEntries_run h.tasks⟩

/-- Running the queue after an entry was satisfied. -/
theorem Nearer.launched (hg : h.Gated setup) (hnear : h.Nearer setup h') :
    ∃ r, h'.runQueue = .ok r ∧ h.Launched setup r := by
  rcases runQueue_eq_ok hnear.gated with
    ⟨g, hrun, hstreet, hentering⟩ | ⟨g, hrun, hat, hphase, hstreet, hsame⟩
  · rw [hnear.phase] at hrun hentering
    exact ⟨_, hrun, launched_goes hentering (hstreet.trans hnear.street)
      (exitOf_mem_exits hg.collecting)⟩
  · have hfewer := hnear.openEntries_lt
    exact ⟨_, hrun, launched_stays hat.resting (hphase.trans hnear.phase)
      (hstreet.trans hnear.street) (tally_lt_of_openEntries (by omega))⟩

/-! What a gate asks of a seat. -/

/-- A seat that is offered something at a gate is offered one action, by the first task that waits
for it: to pass without chips, else to pay or to be ready. -/
theorem AtGate.asked (hg : h.AtGate setup) (hs : s ∈ h.seats) (hoffered : s.allowed ≠ []) :
    ∃ i t, Queue.firstFor? h.tasks s.number = some i ∧ h.tasks[i]? = some t ∧
      t.awaits s.number = true ∧
      ((s.allowed = [.pass] ∧ s.stack = 0) ∨
        (s.allowed = [.pay] ∧ s.stack ≠ 0 ∧ t.isPayment = true) ∨
        (s.allowed = [.ready] ∧ s.stack ≠ 0 ∧ t.isPayment = false)) := by
  have hallowed := hg.offers s hs
  have hunfolded := hg.gated.collecting.folded hs
  rw [hallowed] at hoffered ⊢
  unfold gateOffer at hoffered ⊢
  cases hi : Queue.firstFor? h.tasks s.number with
  | none => simp [hi] at hoffered
  | some i =>
      obtain ⟨t, ht, hawaits⟩ := Queue.exists_of_firstFor? hi
      refine ⟨i, t, rfl, ht, hawaits, ?_⟩
      by_cases hstack : s.stack = 0
      · simp [hunfolded, Seat.isAllIn, hstack]
      · cases hpayment : t.isPayment <;>
          simp [hunfolded, Seat.isAllIn, hstack, ht, hpayment]

/-! Calls that satisfy one entry. -/

/-- Noting an action of a seat of the table, once the gate has changed for it. -/
theorem Nearer.record_outcome (hnear : h.Nearer setup h') (hg : h.Gated setup) (hs : s ∈ h.seats)
    (action : Action) (value : Int) :
    (h'.record s.number action value).outcome = .ok (h'.noted s.number action value) :=
  have ht' := hnear.gated.collecting.table
  Hand.record_outcome ht'.numbered (hg.collecting.table.number_lt ht' hs) action value

section Offered

variable (hg : h.AtGate setup) (hs : s ∈ h.seats)

include hg hs

theorem ready_serves (hmay : s.mayDo .ready = true) :
    ∃ h', h.Serves s h' ∧ h.launch (.ready s.number) = h'.runQueue := by
  have hallowed := hg.resting.allowedSeat_eq_ok hs hmay
  obtain ⟨i, t, hi, ht, hawaits, hask⟩ := hg.asked hs (allowed_ne_nil hmay)
  rcases hask with ⟨hoffer, -⟩ | ⟨hoffer, -⟩ | ⟨-, hstack, hready⟩
  · cases mem_of_mayDo hmay hoffer
  · cases mem_of_mayDo hmay hoffer
  · obtain ⟨t', hmark, hsettles⟩ := Task.markReady_eq_ok hawaits hready
    have hnear := gated_excused hg.gated hs hi ht hawaits hsettles (.inr hready)
    have hnoted := hnear.record_outcome hg.gated hs .ready 0
    refine ⟨_, .excused hi ht hawaits hsettles (.inr ⟨rfl, hstack, hready⟩), ?_⟩
    simp [launch, bid?, launchOther, hallowed, taskFor_eq_ok hi ht, hmark, hnoted]

theorem pass_serves (hmay : s.mayDo .pass = true) :
    ∃ h', h.Serves s h' ∧ h.launch (.pass s.number) = h'.runQueue := by
  have hallowed := hg.resting.allowedSeat_eq_ok hs hmay
  obtain ⟨i, t, hi, ht, hawaits, hask⟩ := hg.asked hs (allowed_ne_nil hmay)
  rcases hask with ⟨-, hstack⟩ | ⟨hoffer, -⟩ | ⟨hoffer, -⟩
  · have hsettles := Task.waive_settles hawaits
    have hnear := gated_excused hg.gated hs hi ht hawaits hsettles (.inl hstack)
    have hnoted := hnear.record_outcome hg.gated hs .pass 0
    refine ⟨_, .excused hi ht hawaits hsettles (.inl ⟨rfl, hstack⟩), ?_⟩
    simp [launch, bid?, launchOther, hallowed, taskFor_eq_ok hi ht, hnoted]
  · cases mem_of_mayDo hmay hoffer
  · cases mem_of_mayDo hmay hoffer

/-- Exactly the chips that are owed can be paid. -/
theorem pay_serves (hmay : s.mayDo .pay = true) :
    ∃ owed h', h.owedBy s.number = some owed ∧ h.Serves s h' ∧
      h.launch (.pay s.number owed) = h'.runQueue ∧
      ∀ chips, chips ≠ owed → h.launch (.pay s.number chips) = .error (.badPayment owed chips) := by
  have hallowed := hg.resting.allowedSeat_eq_ok hs hmay
  obtain ⟨i, t, hi, ht, hawaits, hask⟩ := hg.asked hs (allowed_ne_nil hmay)
  rcases hask with ⟨hoffer, -⟩ | ⟨-, hstack, hpayment⟩ | ⟨hoffer, -⟩
  · cases mem_of_mayDo hmay hoffer
  · obtain ⟨owed, t', howed, hsettles, hrecord⟩ := Task.recordPayment_eq hawaits hpayment
    have hproper := hg.gated.proper t (List.mem_of_getElem? ht)
    have hdue : t.due ≠ .ready := hproper.due_ne_ready hpayment
    have hnear := gated_paid hg.gated hs hi ht hsettles howed hstack hawaits hpayment
    have htake := takePayment_eq_ok (h := h.setTask i t')
      hg.gated.collecting.table.numbered hs t.due owed
    have hnoted := hnear.record_outcome hg.gated hs .pay owed
    refine ⟨owed, _, by simp [owedBy, hi, ht, howed],
      .paid hi ht hawaits hsettles hstack hpayment howed, ?_, fun chips hchips => ?_⟩
    · simp [launch, bid?, launchOther, hallowed, taskFor_eq_ok hi ht, hrecord, hsettles.due, hdue,
        htake, hnoted]
    · simp [launch, bid?, launchOther, hallowed, taskFor_eq_ok hi ht, hrecord, hchips]
  · cases mem_of_mayDo hmay hoffer

end Offered

theorem Serves.launched (hserves : h.Serves s h') (hg : h.AtGate setup) (hs : s ∈ h.seats) :
    ∃ r, h'.runQueue = .ok r ∧ h.Launched setup r :=
  (hserves.nearer hg.gated hs).launched hg.gated

/-- While the queue waits the hand stays at its gate. -/
theorem Serves.stays {g : Hand} (hserves : h.Serves s h') (hg : h.AtGate setup) (hs : s ∈ h.seats)
    (hrun : h'.runQueue = .ok (g, none)) : g.AtGate setup ∧ h.Launched setup (g, none) := by
  obtain ⟨r, hrun', hlaunched⟩ := hserves.launched hg hs
  obtain rfl := Except.ok.inj (hrun.symm.trans hrun')
  have hrested : g.Resting setup := hlaunched.carries
  have hgate := hg.gated.collecting.isGate
  rw [← (hlaunched.stays rfl).1] at hgate
  exact ⟨hrested.waits hgate, hlaunched⟩

theorem ready_launched (hg : h.AtGate setup) (hs : s ∈ h.seats) (hmay : s.mayDo .ready = true) :
    ∃ r, h.launch (.ready s.number) = .ok r ∧ h.Launched setup r := by
  obtain ⟨h', hserves, hlaunch⟩ := ready_serves hg hs hmay
  exact hlaunch ▸ hserves.launched hg hs

theorem pass_launched (hg : h.AtGate setup) (hs : s ∈ h.seats) (hmay : s.mayDo .pass = true) :
    ∃ r, h.launch (.pass s.number) = .ok r ∧ h.Launched setup r := by
  obtain ⟨h', hserves, hlaunch⟩ := pass_serves hg hs hmay
  exact hlaunch ▸ hserves.launched hg hs

theorem pay_launched (hg : h.AtGate setup) (hs : s ∈ h.seats) (hmay : s.mayDo .pay = true) :
    ∃ owed r, h.owedBy s.number = some owed ∧ h.launch (.pay s.number owed) = .ok r ∧
      h.Launched setup r ∧
      ∀ chips, chips ≠ owed → h.launch (.pay s.number chips) = .error (.badPayment owed chips) := by
  obtain ⟨owed, h', howed, hserves, hlaunch, hother⟩ := pay_serves hg hs hmay
  obtain ⟨r, hrun, hlaunched⟩ := hserves.launched hg hs
  exact ⟨owed, r, howed, hlaunch.trans hrun, hlaunched, hother⟩

/-! Whoever is not offered the action is refused. -/

theorem ready_fair (hr : h.Resting setup) (place : Nat) :
    Outcome.Fair (h.Launched setup) (h.launch (.ready place)) := by
  rcases hr.offered_or_mild place .ready with ⟨s, hs, rfl, hmay⟩ | ⟨fault, herror, hmild⟩
  · exact .of_ok (ready_launched (hr.atGate hs hmay (.inl rfl)) hs hmay)
  · simpa [launch, bid?, launchOther, herror] using hmild

theorem pass_fair (hr : h.Resting setup) (place : Nat) :
    Outcome.Fair (h.Launched setup) (h.launch (.pass place)) := by
  rcases hr.offered_or_mild place .pass with ⟨s, hs, rfl, hmay⟩ | ⟨fault, herror, hmild⟩
  · exact .of_ok (pass_launched (hr.atGate hs hmay (.inr (.inr rfl))) hs hmay)
  · simpa [launch, bid?, launchOther, herror] using hmild

theorem pay_fair (hr : h.Resting setup) (place : Nat) (chips : Int) :
    Outcome.Fair (h.Launched setup) (h.launch (.pay place chips)) := by
  rcases hr.offered_or_mild place .pay with ⟨s, hs, rfl, hmay⟩ | ⟨fault, herror, hmild⟩
  · have hg := hr.atGate hs hmay (.inr (.inl rfl))
    obtain ⟨owed, r, -, hlaunch, hlaunched, hother⟩ := pay_launched hg hs hmay
    by_cases hchips : chips = owed
    · subst hchips
      exact .of_ok ⟨r, hlaunch, hlaunched⟩
    · rw [hother chips hchips]
      exact .inl rfl
  · simpa [launch, bid?, launchOther, herror] using hmild

end PokerHand.Hand
