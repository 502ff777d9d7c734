import PokerHand.Hand.Advance
import PokerHand.Proofs.Flow.Purses
import PokerHand.Proofs.Posting
import PokerHand.Proofs.Progress
import PokerHand.Proofs.Termination

/-!
# Going on arrives

`Advances` is the loop of `advance` without a bound: call after call for as long as there is one to
make. Each call brings the hand nearer to its end, and there are few places to stop at on the way
(`Phase.stops`), so the loop ends before its bound. On the way nobody folds and nobody pays anything
but forced bets, since neither the calls nor the phases change `Hand.prospect`.
-/
namespace PokerHand

/-- Where a hand may rest without a player having anything to decide, and the street that is open
there. -/
def Phase.stops : List (Phase × Option Street) :=
  [(readyRequested, none), (anteRequested, none), (blindsRequested, some .preflop),
    (readyRequested, some .preflop), (roundClosed, some .preflop), (roundClosed, some .flop),
    (roundClosed, some .turn)]

/-- What leads to a gate is a gate. -/
theorem Phase.gate_of_ahead_lt : ∀ stop ∈ stops, ∀ next ∈ stops, next.1 ∈ gates →
    next.1.ahead next.2 < stop.1.ahead stop.2 → stop.1 ∈ gates := by
  decide

/-- The start of a hand comes before all of them. -/
theorem Phase.ahead_lt_of_mem_stops : ∀ stop ∈ stops, stop.1.ahead stop.2 < 99 := by
  decide

namespace Hand

section Advancing

variable {setup : Setup} {h h' g : Hand} {call : Call} {calls : List Call} {now : Int}

theorem onward_of_advancing {phase : Phase} (hcall : advancing? phase = some call) :
    phase.onward = some call := by
  cases phase <;> simp_all [advancing?, Phase.onward]

theorem mem_of_advancing {phase : Phase} (hcall : advancing? phase = some call) :
    call ∈ [.readyAll, .payAntes, .payBlinds, .next] := by
  cases phase <;> cases hcall <;> decide

/-- A hand can rest without there being a call to go on with only where a player has to act, or at
its end. -/
theorem eq_of_advancing_eq_none {phase : Phase} (hstop : advancing? phase = none)
    (hrest : phase.isResting = true) : phase = .roundStarted ∨ phase = .gameClosed := by
  cases phase <;> simp_all [advancing?, Phase.isResting]

/-- Leaving a gate the hand has paid its forced bets, or they are still due. -/
theorem exitOf_owing_or_posted (phase : Phase) (street : Option Street) :
    (exitOf phase).owing street = true ∨ exitOf phase ∈ Phase.posted := by
  unfold exitOf
  split <;> simp [Phase.owing, Phase.posted]

theorem folds_runQueue {r : Hand × Option Phase} (hrun : h.runQueue = .ok r) :
    r.1.folds = h.folds := by
  simp only [runQueue] at hrun
  split at hrun
  · split at hrun
    all_goals cases hrun <;> rfl
  · obtain rfl := Except.ok.inj hrun
    exact folds_mapSeats (h := h) fun _ => rfl

/-! How often the loop goes round. -/

/-- How many of the stops may still lie before the hand. -/
def stopsLeft (h : Hand) : Nat :=
  Phase.stops.countP fun stop => stop.1.ahead stop.2 ≤ h.phase.ahead h.street

theorem stopsLeft_le (h : Hand) : h.stopsLeft ≤ 7 :=
  List.countP_le_length

/-- A hand that comes nearer to its end leaves the stop behind at which it rests. -/
theorem stopsLeft_lt (hstop : (h.phase, h.street) ∈ Phase.stops)
    (hlt : g.phase.ahead g.street < h.phase.ahead h.street) : g.stopsLeft < h.stopsLeft := by
  refine countP_lt (fun stop _ hle => ?_) hstop ?_ ?_
  · rw [decide_eq_true_eq] at hle ⊢
    omega
  · exact decide_eq_true (Nat.le_refl _)
  · exact decide_eq_false (Nat.not_le.2 hlt)

variable [Counting]

/-! The loop. -/

/-- The hand goes on with calls at time `now`, and then there is none to go on with. -/
inductive Advances (now : Int) : Hand → List Call → Hand → Prop where
  | stop {h : Hand} (hstop : advancing? h.phase = none) (hrest : h.phase.isResting = true) :
      Advances now h [] h
  | go {h g h' : Hand} {call : Call} {calls : List Call} (hcall : advancing? h.phase = some call)
      (hok : (h.perform now call).outcome = .ok g) (hrest : Advances now g calls h') :
      Advances now h (call :: calls) h'

/-- A bound that exceeds the calls is not noticed. -/
theorem advanceWithin_of_advances {n : Nat} (hadvances : Advances now h calls h')
    (hn : calls.length < n) : advanceWithin now n h = .ok h' := by
  induction hadvances generalizing n with
  | stop hstop hrest =>
      cases n with
      | zero => cases hn
      | succ n => simp [advanceWithin, hstop, hrest]
  | go hcall hok _ ih =>
      cases n with
      | zero => cases hn
      | succ n =>
          have hadvance := ih (Nat.lt_of_succ_lt_succ hn)
          simp [advanceWithin, hcall, hok, hadvance]

theorem Resting.phase_isResting (hr : h.Resting setup) (hp : h.phase ≠ .started) :
    h.phase.isResting = true := by
  unfold Resting at hr
  split at hr <;> simp_all [Phase.isResting]

/-- Where the hand can go on it rests at one of the stops. -/
theorem Resting.mem_stops (hr : h.Resting setup) (hcall : advancing? h.phase = some call) :
    (h.phase, h.street) ∈ Phase.stops := by
  have hgate : h.phase ∈ Phase.gates → h.Collecting setup := fun hp =>
    (hr.waits (Phase.mem_gates.1 hp)).gated.collecting
  cases hp : h.phase with
  | readyRequested =>
      rcases ((collecting_ready hp).1 (hgate (by rw [hp]; decide))).2 with ⟨hb, -⟩ | ⟨hpre, -⟩
      · rw [hb.scene.street]
        decide
      · rw [hpre.before.scene.street]
        decide
  | anteRequested =>
      rw [((collecting_ante hp).1 (hgate (by rw [hp]; decide))).2.scene.street]
      decide
  | blindsRequested =>
      rw [((collecting_blinds hp).1 (hgate (by rw [hp]; decide))).2.before.scene.street]
      decide
  | roundClosed =>
      rw [Resting, hp] at hr
      obtain ⟨⟨street, hriver, hb⟩, -⟩ := hr
      rw [hb.onStreet.scene.street]
      cases street with
      | river => exact absurd rfl hriver
      | preflop | flop | turn => decide
  | _ => simp [hp, advancing?] at hcall

theorem folds_paidBy (h : Hand) (place : Nat) (due : Due) (chips : Int) :
    (h.mapSeats (paidBy place due chips)).folds = h.folds :=
  folds_mapSeats (h := h) fun s => by
    rw [paidBy]
    split_ifs <;> rfl

/-- Whoever satisfies an entry does not fold. -/
theorem Serves.folds_eq {s : Seat} (hserves : h.Serves s h') : h'.folds = h.folds := by
  have hnoted : ∀ (k : Hand) (place : Nat) (action : Action) (value : Int),
      (k.noted place action value).folds = k.folds := fun k place action value =>
    folds_mapSeats (h := k) fun s => by split <;> rfl
  cases hserves with
  | excused => exact hnoted _ _ _ _
  | paid => exact (hnoted _ _ _ _).trans (folds_paidBy _ _ _ _)

theorem Served.folds_eq {r : Hand × Option Phase} (hserved : Served h r) : r.1.folds = h.folds := by
  induction hserved with
  | once _ hserves hrun => exact (folds_runQueue hrun).trans hserves.folds_eq
  | more _ hserves hrun _ ih => exact ih.trans ((folds_runQueue hrun).trans hserves.folds_eq)

/-- How a hand that has entered its phase compares with the hand `h`: nobody has folded since, and
the seats will be left with as much, as long as the forced bets that are due are counted exactly. -/
structure Onward (setup : Setup) (h k : Hand) : Prop where
  folds : k.folds = h.folds
  prospect : (h.phase ∈ Phase.gates → setup.Counted) → k.prospect setup = h.prospect setup
  owing : k.phase.owing k.street = true → h.phase ∈ Phase.gates

/-- Clearing a gate folds nobody and leaves alone what the seats will be left with. -/
theorem AtGate.drainGate_onward (hg : h.AtGate setup) {r : Hand × Option Phase}
    (hdrain : h.drainGate h.phase = .ok r) :
    ∃ g phase, r = (g, some phase) ∧ Onward setup h { g with phase := phase } := by
  obtain ⟨g, hok, hserved⟩ := drainGate_served hg
  obtain rfl := Except.ok.inj (hdrain.symm.trans hok)
  have hgate : h.phase ∈ Phase.gates := Phase.mem_gates.2 hg.gated.collecting.isGate
  refine ⟨g, _, rfl, hserved.folds_eq, fun hcounted => ?_, fun _ => hgate⟩
  have := hcounted hgate
  rw [hg.prospect_eq]
  exact Entering.prospect_eq (hserved.launched hg).carries (exitOf_owing_or_posted h.phase _)

/-- A call that goes on enters a phase. -/
theorem Resting.launch_of_advancing (hr : h.Resting setup) (hcall : advancing? h.phase = some call)
    {r : Hand × Option Phase} (hlaunch : h.launch call = .ok r) :
    ∃ g phase, r = (g, some phase) ∧ Onward setup h { g with phase := phase } := by
  cases hp : h.phase <;>
    simp only [hp, advancing?, Option.some.injEq, reduceCtorEq] at hcall <;> subst hcall
  case roundClosed =>
    rcases hr.launch_cases hlaunch with ⟨hg, -⟩ | ⟨b, _, hbid, -⟩ | ⟨phase, rfl⟩
    · simpa [hp] using hg.gated.collecting.isGate
    · cases hbid
    · have hexit := (Launched.of_launch hr hlaunch).goes phase rfl
      simp only [hp, Phase.exits, List.mem_map, Option.mem_toList] at hexit
      obtain ⟨next, hnext, rfl⟩ := hexit
      obtain ⟨street, -, hnext⟩ := Option.bind_eq_some_iff.1 hnext
      have howing : (Phase.entered next).owing h.street = false := by
        cases street <;> cases hnext <;> rfl
      refine ⟨h, _, rfl, rfl, fun _ => ?_, fun hdue => Bool.noConfusion (howing.symm.trans hdue)⟩
      rw [prospect_of_not_owing howing, prospect_of_not_owing (by rw [hp]; rfl)]
      rfl
  all_goals
    refine AtGate.drainGate_onward ?_ (by rw [hp]; exact hlaunch)
    simpa only [Resting, hp] using hr

/-- A phase that is entered on the way goes on as the call did. -/
theorem Onward.react {k : Hand} (ho : Onward setup h k) (ha : setup.Accepted)
    (he : k.Entering setup) {r : Hand × Option Phase} (hreact : k.react = .ok r) :
    Carries (Onward setup h) (Onward setup h) r := by
  have hfolds := (react_folds_purses hreact).1.trans ho.folds
  have hprospect := fun hcounted => react_prospect hcounted hreact
    ((proceeds_of_entering ha he).carries r hreact)
  obtain ⟨g, next⟩ := r
  obtain ⟨hphase, hstreet, hnext⟩ := react_leads hreact
  have hearlier : ∀ phase : Phase, phase.owing g.street = true →
      (k.phase.owing k.street = false → phase.owing g.street = false) → h.phase ∈ Phase.gates :=
    fun phase howing hlater => ho.owing (by
      cases hbefore : k.phase.owing k.street with
      | true => rfl
      | false => exact absurd (howing.symm.trans (hlater hbefore)) (by decide))
  cases next with
  | none =>
      refine ⟨hfolds, fun hcounted => ?_, fun howing => hearlier _ howing fun hbefore => ?_⟩
      · exact (hprospect fun howing => hcounted (ho.owing howing)).trans (ho.prospect hcounted)
      · rw [hphase, hstreet, Phase.owing_rest hnext, hbefore]
  | some next =>
      refine ⟨hfolds, fun hcounted => ?_, fun howing => hearlier next howing fun hbefore => ?_⟩
      · exact (hprospect fun howing => hcounted (ho.owing howing)).trans (ho.prospect hcounted)
      · rw [hstreet]
        exact Phase.owing_successor hnext hbefore

/-- One step of the loop. -/
theorem Resting.advance_step (ha : setup.Accepted) (hr : h.Resting setup)
    (hcall : advancing? h.phase = some call) (hok : (h.perform now call).outcome = .ok g) :
    g.Resting setup ∧ g.phase.ahead g.street < h.phase.ahead h.street ∧ Onward setup h g := by
  obtain ⟨path, rested, hruns, rfl, -⟩ := exists_runs_of_perform hok
  have hrested := (hruns.entering ha hr).2.withTime now
  obtain ⟨r, hlaunch, hpath⟩ := hruns
  have hl := Launched.of_launch hr hlaunch
  obtain ⟨k, phase, rfl, honward⟩ := hr.launch_of_advancing hcall hlaunch
  refine ⟨hrested, ?_, ?_⟩
  · have hle := hpath.ahead_le
    have hstreet : k.street = h.street := hl.street
    rcases Phase.ahead_lt_of_mem_exits (hl.goes phase rfl) with hlt | ⟨-, hstarted⟩
    · exact (hstreet ▸ hle).trans_lt hlt
    · rw [hstarted] at hcall
      cases hcall
  · have hkeeps := hpath.keeps (I := fun k => k.Entering setup ∧ Onward setup h k)
      (J := fun k => k.Resting setup ∧ Onward setup h k) (fun k hk r hreact =>
        ((proceeds_of_entering ha hk.1).carries r hreact).and (hk.2.react ha hk.1 hreact))
      ⟨hl.carries, honward⟩
    obtain ⟨hfolds, hprospect, howing⟩ := hkeeps.2.2
    exact ⟨hfolds, hprospect, howing⟩

/-- The hand goes on until it arrives, with no more calls than there are stops. -/
theorem Resting.exists_advances (ha : setup.Accepted) (hstocked : setup.Stocked)
    (hr : h.Resting setup) (hp : h.phase ≠ .started) (now : Int) :
    ∃ calls h', Advances now h calls h' ∧ calls.length ≤ h.stopsLeft := by
  induction hn : h.stopsLeft using Nat.strong_induction_on generalizing h with
  | _ n ih =>
      cases hcall : advancing? h.phase with
      | none => exact ⟨[], h, .stop hcall (hr.phase_isResting hp), Nat.zero_le n⟩
      | some call =>
          have hstop := hr.mem_stops hcall
          obtain ⟨g, hok⟩ := hr.onward_succeeds ha hstocked (onward_of_advancing hcall) now
          obtain ⟨hrested, hlt, -⟩ := hr.advance_step ha hcall hok
          have hfewer := stopsLeft_lt hstop hlt
          have hstarted : g.phase ≠ .started := by
            intro hback
            have hfirst : g.phase.ahead g.street = 99 := by rw [hback]; rfl
            have hbound : h.phase.ahead h.street < 99 := Phase.ahead_lt_of_mem_stops _ hstop
            omega
          obtain ⟨calls, h', hadvances, hlength⟩ :=
            ih g.stopsLeft (hn ▸ hfewer) hrested hstarted rfl
          refine ⟨call :: calls, h', .go hcall hok hadvances, ?_⟩
          rw [List.length_cons]
          omega

/-- A hand that goes on to a gate has come from one. -/
theorem Resting.gate_of_advance_step (hr : h.Resting setup) (hcall : advancing? h.phase = some call)
    (hrested : g.Resting setup) (hlt : g.phase.ahead g.street < h.phase.ahead h.street)
    (hgate : g.phase ∈ Phase.gates) : h.phase ∈ Phase.gates := by
  have hlater : ∃ later, advancing? g.phase = some later := by
    rcases Phase.mem_gates.1 hgate with hp | hp | hp <;> rw [hp] <;> exact ⟨_, rfl⟩
  obtain ⟨later, hlater⟩ := hlater
  exact Phase.gate_of_ahead_lt _ (hr.mem_stops hcall) _ (hrested.mem_stops hlater) hgate hlt

/-- Where the hand arrives it is in order, nobody has folded on the way, and the seats are left with
what they were to be. -/
theorem Advances.arrives (ha : setup.Accepted) (hr : h.Resting setup)
    (hadvances : Advances now h calls h') :
    h'.Resting setup ∧ (h'.phase = .roundStarted ∨ h'.phase = .gameClosed) ∧
      (∀ call ∈ calls, call ∈ [Call.readyAll, .payAntes, .payBlinds, .next]) ∧
      h'.folds = h.folds ∧
      ((h.phase ∈ Phase.gates → setup.Counted) → h'.prospect setup = h.prospect setup) := by
  induction hadvances with
  | stop hstop hrest => exact ⟨hr, eq_of_advancing_eq_none hstop hrest, by simp, rfl, fun _ => rfl⟩
  | go hcall hok _ ih =>
      obtain ⟨hrested, hlt, honward⟩ := hr.advance_step ha hcall hok
      obtain ⟨hlast, hphase, hcalls, hfolds, hprospect⟩ := ih hrested
      refine ⟨hlast, hphase, List.forall_mem_cons.2 ⟨mem_of_advancing hcall, hcalls⟩,
        hfolds.trans honward.folds, fun hcounted => ?_⟩
      have hlater := fun hgate => hcounted (hr.gate_of_advance_step hcall hrested hlt hgate)
      exact (hprospect hlater).trans (honward.prospect hcounted)

/-- A hand that has arrived stays as it is. -/
theorem Advances.eq_self (hadvances : Advances now h calls h')
    (hp : h.phase = .roundStarted ∨ h.phase = .gameClosed) : h' = h := by
  cases hadvances with
  | stop hstop hrest => rfl
  | go hcall hok hrest => rcases hp with hp | hp <;> rw [hp] at hcall <;> cases hcall

/-- A hand that has been dealt is in order and asks for readiness. -/
theorem resting_of_deal {id : String} {created : Int}
    (hd : (deal setup id created).outcome = .ok h) :
    setup.Accepted ∧ h.Resting setup ∧ h.phase = .readyRequested ∧ h.street = none := by
  simp only [deal, Traced.outcome_bind, Traced.outcome_liftM] at hd
  obtain ⟨fresh, hc, hstart⟩ := Outcome.ok_of_bind hd
  have hf := fresh_of_create hc
  rw [← after_of_perform hstart]
  exact ⟨hf.accepted, after_start hf.accepted hf created⟩

/-! What the seats of a hand at rest will be left with. -/

/-- Once a hand is started and past its gates no forced bet is due. -/
theorem Resting.not_owing (hr : h.Resting setup) (hstarted : h.phase ≠ .started)
    (hgate : h.phase ∉ Phase.gates) : h.phase.owing h.street = false := by
  unfold Resting at hr
  split at hr <;> simp_all [Phase.gates, Phase.owing]

/-- At a gate the seats will be left with what the forced bets leave, as long as these are counted
exactly, and elsewhere with what they have. -/
theorem Resting.prospect_eq (hr : h.Resting setup) (hstarted : h.phase ≠ .started)
    (hcounted : h.phase ∈ Phase.gates → setup.Counted) :
    h.prospect setup =
      if h.phase ∈ Phase.gates then setup.players.map setup.terms.afterBlinds
      else h.seats.map Seat.stack := by
  split
  · next hgate =>
    have := hcounted hgate
    exact (hr.waits (Phase.mem_gates.1 hgate)).prospect_eq
  · next hgate => exact prospect_of_not_owing (hr.not_owing hstarted hgate)

end Advancing

end Hand

end PokerHand
