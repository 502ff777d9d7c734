import PokerHand.Proofs.Gate.Calls

/-!
# Clearing a gate

A gate that waits always has a seat to act for, and each entry that is satisfied on its behalf
leaves fewer open. So clearing a gate succeeds within the bound on its steps. Whatever is done at a
gate, one entry after the other is satisfied (`Served`).
-/
namespace PokerHand.Hand

variable {setup : Setup} {h h' : Hand} {s : Seat}

theorem gateOffer_ne_nil {tasks : List Task} {t : Task} (ht : t ∈ tasks)
    (hawaits : t.awaits s.number = true) : gateOffer tasks s ≠ [] := by
  unfold gateOffer
  cases hi : Queue.firstFor? tasks s.number with
  | none =>
      have := Queue.firstFor?_eq_none.1 hi t ht
      simp [this] at hawaits
  | some i =>
      obtain ⟨first, hfirst, -⟩ := Queue.exists_of_firstFor? hi
      simp only [hfirst]
      split
      · simp
      · split <;> simp

variable [Counting]

/-- Entries are satisfied one after the other and the queue runs after each, until it comes to
`r`. -/
inductive Served : Hand → Hand × Option Phase → Prop where
  | once {h h' : Hand} {s : Seat} {r : Hand × Option Phase} (hs : s ∈ h.seats)
      (hserves : h.Serves s h') (hrun : h'.runQueue = .ok r) : Served h r
  | more {h h' g : Hand} {s : Seat} {r : Hand × Option Phase} (hs : s ∈ h.seats)
      (hserves : h.Serves s h') (hrun : h'.runQueue = .ok (g, none)) (hrest : Served g r) :
      Served h r

/-- Somebody at a gate has something to do. -/
theorem AtGate.exists_actionable (hg : h.AtGate setup) :
    ∃ s ∈ h.seats, s.allowed ≠ [] ∧ ∃ rest, h.actionable = s.number :: rest := by
  obtain ⟨t, ht, seat, hawaits⟩ := hg.waiting
  have hlt := (hg.gated.proper t ht).asked_lt seat (Task.awaits_iff.1 hawaits).2.1
  have hnumber := hg.gated.collecting.table.numbered.number_of_getElem?
    (List.getElem?_eq_getElem hlt)
  have hoffered : (h.seats[seat]).allowed ≠ [] := by
    rw [hg.offers _ (List.getElem_mem hlt)]
    exact gateOffer_ne_nil ht (hnumber.symm ▸ hawaits)
  have hne : h.seats.filter (fun s => !s.allowed.isEmpty) ≠ [] :=
    List.ne_nil_of_mem (List.mem_filter.2 ⟨List.getElem_mem hlt, by simpa using hoffered⟩)
  obtain ⟨s, rest, heq⟩ := List.exists_cons_of_ne_nil hne
  have hs : s ∈ h.seats.filter fun s => !s.allowed.isEmpty := heq ▸ List.mem_cons_self
  obtain ⟨hmem, hallowed⟩ := List.mem_filter.1 hs
  exact ⟨s, hmem, by simpa using hallowed, _, by rw [actionable, heq, List.map_cons]⟩

/-- Satisfying one entry on behalf of the seats succeeds. -/
theorem clearEntry_serves (hg : h.AtGate setup) (phase : Phase) :
    ∃ s ∈ h.seats, ∃ h', h.Serves s h' ∧ (h.clearEntry phase).outcome = .ok h' := by
  obtain ⟨s, hs, hoffered, rest, hactionable⟩ := hg.exists_actionable
  obtain ⟨i, t, hi, ht, hawaits, hask⟩ := hg.asked hs hoffered
  have htable := hg.gated.collecting.table
  have hown : h.ownSeat s.number = .ok s := by
    rw [ownSeat, htable.numbered.getElem?_number hs]
  refine ⟨s, hs, ?_⟩
  simp only [clearEntry, hactionable, taskFor_eq_ok hi ht, hown, Traced.outcome_bind,
    Traced.outcome_liftM, Outcome.ok_bind]
  rcases hask with ⟨hoffer, hstack⟩ | ⟨hoffer, hstack, hpayment⟩ | ⟨hoffer, hstack, hready⟩
  · have hpass : s.mayDo .pass = true := by simp [Seat.mayDo, hoffer]
    have hsettles := Task.waive_settles hawaits
    have hnear := gated_excused hg.gated hs hi ht hawaits hsettles (.inl hstack)
    rw [if_pos hpass]
    exact ⟨_, .excused hi ht hawaits hsettles (.inl ⟨rfl, hstack⟩),
      hnear.record_outcome hg.gated hs .pass 0⟩
  · have hpass : ¬ s.mayDo .pass = true := by simp [Seat.mayDo, hoffer]
    have hready : ¬ s.mayDo .ready = true := by simp [Seat.mayDo, hoffer]
    obtain ⟨owed, t', howed, hsettles, hrecord⟩ := Task.recordPayment_eq hawaits hpayment
    have htake := takePayment_eq_ok (h := h.setTask i t') htable.numbered hs t.due owed
    have hnear := gated_paid hg.gated hs hi ht hsettles howed hstack hawaits hpayment
    rw [if_neg hpass, if_neg hready]
    simp only [howed, hrecord, if_true, Traced.outcome_bind, Traced.outcome_liftM,
      Outcome.ok_bind, hsettles.due, htake]
    exact ⟨_, .paid hi ht hawaits hsettles hstack hpayment howed,
      hnear.record_outcome hg.gated hs .pay owed⟩
  · have hpass : ¬ s.mayDo .pass = true := by simp [Seat.mayDo, hoffer]
    have hmay : s.mayDo .ready = true := by simp [Seat.mayDo, hoffer]
    obtain ⟨t', hmark, hsettles⟩ := Task.markReady_eq_ok hawaits hready
    have hnear := gated_excused hg.gated hs hi ht hawaits hsettles (.inr hready)
    rw [if_neg hpass, if_pos hmay]
    simp only [hmark, Traced.outcome_bind, Traced.outcome_liftM, Outcome.ok_bind]
    exact ⟨_, .excused hi ht hawaits hsettles (.inr ⟨rfl, hstack, hready⟩),
      hnear.record_outcome hg.gated hs .ready 0⟩

/-- What comes of satisfying entries of a gate in order. -/
theorem Served.launched {r : Hand × Option Phase} (hserved : Served h r) (hg : h.AtGate setup) :
    h.Launched setup r := by
  induction hserved with
  | once hs hserves hrun =>
      obtain ⟨r, hrun', hlaunched⟩ := hserves.launched hg hs
      exact Except.ok.inj (hrun.symm.trans hrun') ▸ hlaunched
  | more hs hserves hrun _ ih =>
      obtain ⟨hgate, hfirst⟩ := hserves.stays hg hs hrun
      exact hfirst.trans (ih hgate)

/-- Satisfying entries one after the other stays at the gate, or drains the queue and leaves it. -/
theorem Served.leaves {r : Hand × Option Phase} (hserved : Served h r) :
    r.2 = none ∧ r.1.phase = h.phase ∨ r.2 = some (exitOf h.phase) ∧ r.1.tasks = [] := by
  induction hserved with
  | once _ hserves hrun => exact hserves.phase_eq ▸ runQueue_leaves hrun
  | more _ hserves hrun _ ih =>
      obtain ⟨-, hphase⟩ | ⟨hsome, -⟩ := runQueue_leaves hrun
      · exact (hphase.trans hserves.phase_eq) ▸ ih
      · cases hsome

/-- The bound on the steps exceeds the entries that are open, and keeps doing so. -/
theorem drain_served (n : Nat) (phase : Phase) (hg : h.AtGate setup)
    (hn : Queue.openEntries h.tasks < n) :
    ∃ g, drain n phase h = .ok (g, some (exitOf h.phase)) ∧
      Served h (g, some (exitOf h.phase)) := by
  induction n generalizing h with
  | zero => omega
  | succ n ih =>
      obtain ⟨s, hs, cleared, hserves, hclear⟩ := clearEntry_serves hg phase
      have hnear := hserves.nearer hg.gated hs
      simp only [drain, hclear, Outcome.ok_bind]
      rcases runQueue_eq_ok hnear.gated with
        ⟨g, hrun, -, -⟩ | ⟨g, hrun, hat, hphase, -, hsame⟩
      · rw [hnear.phase] at hrun
        exact ⟨g, by simp [hrun], .once hs hserves hrun⟩
      · have hlt := hnear.openEntries_lt
        obtain ⟨last, hdrain, hserved⟩ := ih hat (by omega)
        rw [hphase.trans hnear.phase] at hdrain hserved
        exact ⟨last, by simp [hrun, hdrain], .more hs hserves hrun hserved⟩

/-- Draining a gate succeeds only in the phase of that gate. -/
theorem phase_of_drainGate {phase : Phase} {r : Hand × Option Phase}
    (hdrain : h.drainGate phase = .ok r) : h.phase = phase := by
  obtain ⟨_, hexpect, -⟩ := Outcome.ok_of_bind hdrain
  have hfair := expectPhase_fair h phase
  rwa [hexpect] at hfair

/-- Clearing the gate at which a hand rests leads past it. -/
theorem drainGate_served (hg : h.AtGate setup) :
    ∃ g, h.drainGate h.phase = .ok (g, some (exitOf h.phase)) ∧
      Served h (g, some (exitOf h.phase)) := by
  simp only [drainGate, expectPhase, if_true, Outcome.ok_bind]
  exact drain_served _ h.phase hg (Nat.lt_succ_self _)

theorem drainGate_launched (hg : h.AtGate setup) :
    ∃ r, h.drainGate h.phase = .ok r ∧ h.Launched setup r := by
  obtain ⟨g, hdrain, hserved⟩ := drainGate_served hg
  exact ⟨_, hdrain, hserved.launched hg⟩

theorem drainGate_fair (hr : h.Resting setup) {phase : Phase}
    (hphase : phase = .readyRequested ∨ phase = .anteRequested ∨ phase = .blindsRequested) :
    Outcome.Fair (h.Launched setup) (h.drainGate phase) := by
  by_cases hp : h.phase = phase
  · subst hp
    exact .of_ok (drainGate_launched (hr.waits hphase))
  · unfold drainGate
    exact (expectPhase_fair h phase).bind fun _ heq => absurd heq hp

/-- The hand `h'` is what comes of the gate at which `h` rests once its queue drains. -/
def Exits (setup : Setup) (h h' : Hand) : Prop :=
  ∃ g : Hand, { g with phase := exitOf h.phase }.Entering setup ∧ g.street = h.street ∧
    (flow (exitOf h.phase) g).outcome = .ok h'

/-- Clearing the gate at which a hand rests leads on from its exit. -/
theorem clearGate_eq (hg : h.AtGate setup) :
    ∃ g : Hand, { g with phase := exitOf h.phase }.Entering setup ∧ g.street = h.street ∧
      (h.clearGate h.phase).outcome = (flow (exitOf h.phase) g).outcome := by
  obtain ⟨g, hdrain, hserved⟩ := drainGate_served hg
  have hl := hserved.launched hg
  refine ⟨g, hl.carries, hl.street, ?_⟩
  rw [clearGate_outcome, hdrain]
  rfl

theorem clearGate_exits (ha : setup.Accepted) (hstocked : setup.Stocked) (hg : h.AtGate setup) :
    ∃ h', (h.clearGate h.phase).outcome = .ok h' ∧ h.Exits setup h' := by
  obtain ⟨g, hentering, hstreet, hclear⟩ := clearGate_eq hg
  obtain ⟨h', hflow⟩ := flow_eq_ok ha hstocked hentering
  exact ⟨h', hclear.trans hflow, g, hentering, hstreet, hflow⟩

end PokerHand.Hand
