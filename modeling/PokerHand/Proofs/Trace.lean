import PokerHand.Proofs.Launch

/-!
# The phases in the trace

A successful call notes the phases that the hand enters, in their order: the trace tells the path of
the call (`Runs.entered_eq`).
-/
namespace PokerHand

/-- The phase that a note says was entered, with the street that was open. -/
def Note.phase? : Note → Option (Phase × Option Street)
  | .entered phase street => some (phase, street)
  | _ => none

namespace Traced

variable {α β : Type}

/-- The phases noted as entered. -/
def entered (x : Traced α) : List (Phase × Option Street) := x.notes.filterMap Note.phase?

@[simp] theorem entered_pure (a : α) : (pure a : Traced α).entered = [] := rfl

@[simp] theorem entered_refuse (fault : Fault) : (refuse fault : Traced α).entered = [] := rfl

@[simp] theorem entered_liftM (x : Except Fault α) : (liftM x : Traced α).entered = [] := rfl

@[simp] theorem entered_note (n : Note) : (note n).entered = n.phase?.toList := by
  cases n <;> rfl

/-- Notes of another kind enter nothing. -/
theorem entered_noteAll {f : β → Note} (hf : ∀ x, (f x).phase? = none) (xs : List β) :
    (noteAll (xs.map f)).entered = [] := by
  simp [entered, noteAll, List.filterMap_map, hf]

/-- What is entered by what follows, if anything does. -/
def enteredBy (x : Except Fault α) (f : α → List (Phase × Option Street)) :
    List (Phase × Option Street) :=
  match x with
  | .ok a => f a
  | .error _ => []

@[simp] theorem enteredBy_ok (a : α) (f : α → List (Phase × Option Street)) :
    enteredBy (.ok a) f = f a := rfl

@[simp] theorem enteredBy_error (fault : Fault) (f : α → List (Phase × Option Street)) :
    enteredBy (.error fault) f = [] := rfl

theorem enteredBy_bind (x : Except Fault α) (f : α → Except Fault β)
    (k : β → List (Phase × Option Street)) :
    enteredBy (x >>= f) k = enteredBy x fun a => enteredBy (f a) k := by
  cases x <;> rfl

theorem enteredBy_eq_nil (x : Except Fault α) {f : α → List (Phase × Option Street)}
    (hf : ∀ a, f a = []) : enteredBy x f = [] := by
  cases x with
  | ok a => exact hf a
  | error fault => rfl

@[simp] theorem enteredBy_nil (x : Except Fault α) : enteredBy x (fun _ => []) = [] := by
  cases x <;> rfl

@[simp] theorem entered_bind (x : Traced α) (f : α → Traced β) :
    (x >>= f).entered = x.entered ++ enteredBy x.outcome fun a => (f a).entered := by
  show (Traced.bind x f).notes.filterMap Note.phase? = _
  unfold Traced.bind
  cases hx : x.outcome <;> simp [entered]

end Traced

namespace Hand

open Traced

@[simp] theorem entered_enter (phase : Phase) (h : Hand) :
    (h.enter phase).entered = [(phase, h.street)] := by
  simp [enter, Note.phase?]

@[simp] theorem entered_record (h : Hand) (place : Nat) (action : Action) (value : Int) :
    (h.record place action value).entered = [] := by
  simp [record, Note.phase?]

variable [Counting]

/-- What is entered when the hand goes on with the phase that follows, if any. -/
def followed (r : Hand × Option Phase) : List (Phase × Option Street) :=
  match r.2 with
  | none => []
  | some phase => (flow phase r.1).entered

theorem passTurn_entered (h : Hand) (start : Nat) :
    (h.passTurn start).entered = followed (h.passing start) := by
  unfold passTurn passing
  cases Turn.nextMovable h.seats start with
  | none => rfl
  | some seat =>
      by_cases hc : Turn.isClosed h.seats h.wager (some seat) <;> simp [hc, followed, flow]

theorem flow_entered (phase : Phase) (h : Hand) :
    (flow phase h).entered =
      (phase, h.street) :: enteredBy { h with phase := phase }.react followed := by
  have hreact : { h with phase := phase }.react = reaction phase { h with phase := phase } := rfl
  rw [hreact]
  cases phase with
  | started => simp [flow, start, reaction, followed]
  | initialized => simp [flow, setStakes, reaction, followed, enteredBy_bind]
  | prepared =>
      simp only [flow, prepare, reaction, entered_bind, entered_enter, outcome_enter, enteredBy_ok,
        entered_liftM, Traced.outcome_liftM, enteredBy_bind, List.nil_append, List.singleton_append]
      congr 2
      funext h'
      by_cases ha : 0 < h'.terms.ante <;> simp [ha, followed, flow]
  | anteRequested => simp [flow, requestAntes, reaction, followed]
  | antePaid => simp [flow, acceptAntes, reaction, followed]
  | blindsRequested =>
      generalize hh : { h with phase := Phase.blindsRequested } = h'
      by_cases hb : h'.blindTasks = [] <;> simp [flow, requestBlinds, reaction, followed, hh, hb]
  | blindsPaid => simp [flow, acceptBlinds, reaction, followed, enteredBy_bind]
  | readyRequested => simp [flow, requestReadiness, reaction, followed]
  | readiness => cases hs : h.street <;> simp [flow, acceptReadiness, reaction, followed, hs]
  | entered street =>
      by_cases hs : street = .preflop <;>
        simp [flow, enterStreet, reaction, followed, hs, enteredBy_bind]
  | roundInitialized =>
      simp only [flow, openRound, reaction, entered_bind, entered_enter, outcome_enter,
        enteredBy_ok, entered_liftM, Traced.outcome_liftM, enteredBy_bind, List.nil_append,
        List.singleton_append]
      congr 2
      funext dealer
      simp only [mapSeats]
      by_cases hs : h.street = some .preflop
      · by_cases hb : h.terms.blinds.anyPositive
        · by_cases hl : h.terms.blinds.dealer = 0 ∧ h.terms.blinds.small = 0 <;>
            simp [followed, flow, hs, hb, hl]
        · simp [followed, flow, hs, hb]
      · simp [followed, flow, hs]
  | roundPrepared => simp [flow, prepareRound, reaction, followed]
  | roundStarted => simp [flow, startRound, reaction, passTurn_entered]
  | roundClosed =>
      simp only [flow, closeRound, reaction, entered_bind, entered_enter, outcome_enter,
        enteredBy_ok, List.singleton_append]
      split <;> simp [followed, flow, *]
  | gameCompleted => simp [flow, complete, reaction, followed]
  | settlementRequested =>
      have hpaid := entered_noteAll (f := paidNote) fun _ => rfl
      simp [flow, settle, reaction, followed, enteredBy_bind, hpaid]
  | settlementCompleted => simp [flow, completeSettlement, reaction, followed]
  | gameClosed => simp [flow, closeHand, reaction, followed]

/-! Before the first phase nothing is entered. -/

theorem apply_entered (h : Hand) (place : Nat) (move : Move) :
    (h.apply place move).entered =
      enteredBy (h.made place move) fun g => followed (g.passing place) := by
  cases move <;>
    simp only [apply, made, entered_bind, entered_liftM, entered_record, Traced.outcome_liftM,
      passTurn_entered, enteredBy_bind, List.nil_append]

theorem clearEntry_entered (h : Hand) (phase : Phase) : (h.clearEntry phase).entered = [] := by
  unfold clearEntry
  cases h.actionable with
  | nil => rfl
  | cons seat rest =>
      simp only [entered_bind, entered_liftM, List.nil_append]
      refine enteredBy_eq_nil _ fun found => enteredBy_eq_nil _ fun s => ?_
      split
      · exact entered_record _ _ _ _
      · split
        · simp
        · split <;> simp

theorem runGate_entered (h : Hand) : h.runGate.entered = enteredBy h.runQueue followed := by
  have hcompleted := entered_noteAll (f := Note.completed) fun _ => rfl
  unfold runGate runQueue
  cases hdrained : (Queue.run h.tasks).drained with
  | false => simp [hdrained, followed, hcompleted]
  | true =>
      simp only [hdrained, if_true, leaveGate, entered_bind, hcompleted, Traced.outcome_noteAll,
        enteredBy_ok, entered_pure, List.nil_append, enteredBy_nil, List.append_nil]
      cases h.phase <;> simp [followed, flow, exitOf]

theorem clearEntries_entered (n : Nat) (phase : Phase) (h : Hand) :
    (clearEntries n phase h).entered = enteredBy (drain n phase h) followed := by
  induction n generalizing h with
  | zero => rfl
  | succ n ih =>
      simp only [clearEntries, drain, entered_bind, clearEntry_entered, List.nil_append,
        runGate_entered, runGate_outcome, enteredBy_bind]
      congr 1
      funext cleared
      cases hrun : cleared.runQueue with
      | error fault => rfl
      | ok r =>
          obtain ⟨g, next⟩ := r
          cases next with
          | none => simp [follow, followed, ih]
          | some next => simp

theorem attempt_entered (h : Hand) (call : Call) :
    (h.attempt call).entered = enteredBy (h.launch call) followed := by
  cases call with
  | start =>
      simp [attempt, launch, bid?, launchOther, followed, flow, enteredBy_bind]
  | ready place =>
      simp [attempt, launch, bid?, launchOther, ready, runGate_entered, enteredBy_bind]
  | pay place chips =>
      simp only [attempt, launch, bid?, launchOther, pay, enteredBy_bind, entered_bind,
        entered_liftM, Traced.outcome_liftM, List.nil_append]
      congr 1
      funext s
      congr 1
      funext found
      congr 1
      funext t
      split <;> simp [runGate_entered, enteredBy_bind]
  | pass place =>
      simp [attempt, launch, bid?, launchOther, pass, runGate_entered, enteredBy_bind]
  | readyAll | payAntes | payBlinds =>
      simp [attempt, launch, bid?, launchOther, clearGate, drainGate, clearEntries_entered,
        enteredBy_bind]
  | fold place | check place | call place | bet place chips | raise place level | allin place =>
      simp [attempt, launch, bid?, bidden, apply_entered, enteredBy_bind]
  | next =>
      simp only [attempt, launch, bid?, launchOther, nextStreet]
      by_cases hp : h.phase = .roundClosed
      · cases hnext : h.street.bind Street.next? <;> simp [hp, followed, flow]
      · cases hclosed : h.isClosed <;> simp [hp]

theorem Path.followed_eq {r : Hand × Option Phase} {path : List Hand} {h' : Hand}
    (hpath : Path r path h') : followed r = path.map fun g => (g.phase, g.street) := by
  induction hpath with
  | rest h => rfl
  | @enter h h' phase r path hreact _ ih =>
      show (flow phase h).entered = _
      rw [flow_entered, hreact, enteredBy_ok, ih]
      rfl

/-- The trace of a call tells the phases along which it runs. -/
theorem Runs.entered_eq {h h' : Hand} {call : Call} {path : List Hand}
    (hruns : h.Runs call path h') :
    (h.attempt call).entered = path.map fun g => (g.phase, g.street) := by
  obtain ⟨r, hlaunch, hpath⟩ := hruns
  rw [attempt_entered, hlaunch, enteredBy_ok, hpath.followed_eq]

theorem step_outcome (h : Hand) (call : Call) :
    (h.step call).outcome = (h.attempt call).outcome := by
  unfold step
  cases hattempt : (h.attempt call).outcome <;> simp [hattempt]

/-- A successful call runs along the path that its trace tells. -/
theorem exists_runs_of_perform {h h' : Hand} {now : Int} {call : Call}
    (hok : (h.perform now call).outcome = .ok h') :
    ∃ path rested, h.Runs call path rested ∧ h' = { rested with updatedAt := now } ∧
      (h.perform now call).entered = path.map fun g => (g.phase, g.street) := by
  simp only [perform, Traced.outcome_bind, step_outcome] at hok
  obtain ⟨rested, hattempt, hok⟩ := Outcome.ok_of_bind hok
  obtain ⟨path, hruns⟩ := attempt_eq_ok_iff.1 hattempt
  refine ⟨path, rested, hruns, (Except.ok.inj hok).symm, ?_⟩
  rw [← hruns.entered_eq]
  simp [perform, step, hattempt]

end Hand

end PokerHand
