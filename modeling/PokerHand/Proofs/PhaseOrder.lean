import PokerHand.Proofs.Gate.Upshot
import PokerHand.Proofs.Progress
import PokerHand.Proofs.Route

/-!
# The order of the phases

However a hand is played, the phases on its course are the beginning of a route. It leaves the
betting rounds for the payout as soon as a round closes with at most one player left or the river is
played, in the same call and at no other time; every call ends where somebody has to call for the
next step; and a hand has a result exactly when it is closed, from where no call leads on.
-/
namespace PokerHand.Hand

variable {setup : Setup} {h h' g : Hand} {r : Hand × Option Phase} {phase next : Phase}
  {path before after : List Hand}

/-- What a call goes on with may follow on the route, unless the hand has not even started. -/
theorem exits_follows (hexit : next ∈ h.phase.exits h.street) (hstarted : h.phase ≠ .started) :
    next ∈ h.phase.follows h.terms h.street := by
  cases hp : h.phase <;> simp_all [Phase.exits, Phase.follows]

theorem streetAfter_of_exits {street : Option Street} (hexit : next ∈ phase.exits street) :
    phase.streetAfter street = street := by
  cases phase with
  | entered s => cases hexit
  | _ => rfl

theorem streetAfter_of_rest {street : Option Street} (hrest : none ∈ phase.successors street) :
    phase.streetAfter street = street := by
  cases phase with
  | entered s => simp [Phase.successors] at hrest
  | _ => rfl

theorem result_of_create {id : String} {now : Int} (hc : create setup id now = .ok h) :
    h.result = none := by
  obtain ⟨_, -, hc⟩ := Outcome.ok_of_bind hc
  obtain rfl := Except.ok.inj hc
  rfl

theorem roundClosed_of_completes {street : Option Street}
    (hnext : some .gameCompleted ∈ phase.successors street) : phase = .roundClosed := by
  cases phase <;> grind [Phase.successors]

theorem isResting_of_rest {street : Option Street} (hrest : none ∈ phase.successors street) :
    phase.isResting = true := by
  cases phase <;> grind [Phase.successors, Phase.isResting]

section Course

variable [Counting]

/-! Phases and calls lead on along the route. -/

theorem next_of_prepared (hp : h.phase = .prepared) (hr : h.react = .ok r) :
    r.2 = some (if 0 < h.terms.ante then .anteRequested else .entered .preflop) := by
  rw [react_eq hp, reaction] at hr
  obtain ⟨dealt, hdeal, hr⟩ := Outcome.ok_of_bind hr
  obtain ⟨dealer, cards, -, rfl⟩ := dealHole_inv hdeal
  obtain rfl := Except.ok.inj hr
  rfl

theorem next_of_roundInitialized (hp : h.phase = .roundInitialized)
    (hstreet : h.street = some .preflop) (hr : h.react = .ok r) :
    r.2 = (Phase.posting h.terms.blinds).head? := by
  rw [react_eq hp, reaction] at hr
  obtain ⟨dealer, -, hr⟩ := Outcome.ok_of_bind hr
  simp only [mapSeats, hstreet, ne_eq, not_true, if_false] at hr
  by_cases hb : h.terms.blinds.anyPositive
  · by_cases hlone : h.terms.blinds.dealer = 0 ∧ h.terms.blinds.small = 0 <;>
      simp only [hb, hlone, Bool.not_true, Bool.false_eq_true, if_false] at hr <;>
      obtain rfl := Except.ok.inj hr <;> simp [Phase.posting, hb, hlone]
  · simp only [hb, Bool.not_false, if_true] at hr
    obtain rfl := Except.ok.inj hr
    simp [Phase.posting, hb]

/-- What follows a phase in a call may follow it on the route. -/
theorem react_follows (hr : h.react = .ok (g, some next)) :
    next ∈ h.phase.follows h.terms h.street := by
  have hsucc := (react_leads hr).2.2
  cases hp : h.phase with
  | prepared =>
      have hnext := next_of_prepared hp hr
      exact List.mem_singleton.2 (Option.some.inj hnext)
  | roundInitialized =>
      by_cases hstreet : h.street = some .preflop
      · have hnext := next_of_roundInitialized hp hstreet hr
        simpa [Phase.follows, hstreet] using hnext.symm
      · simpa [Phase.follows, Phase.successors, hp, hstreet] using hsucc
  | _ => simp_all [Phase.successors, Phase.follows]

/-- The phases seen lead along the route to the hand at rest. -/
def Come (setup : Setup) (seen : List Phase) (h : Hand) : Prop :=
  h.phase = .started ∧ seen = [] ∨
    h.phase ≠ .started ∧
      ∃ before, seen = before ++ [h.phase] ∧ Phase.History setup.terms h.street h.phase before

/-- Along its course a hand keeps to the route. -/
theorem chronicle_route : Chronicle setup
    (fun seen h => Phase.History setup.terms h.street h.phase seen) (Come setup) where
  react := by
    intro seen h r he hi hr
    obtain ⟨g, next⟩ := r
    obtain ⟨hphase, hstreet, hsucc⟩ := react_leads hr
    cases next with
    | some next =>
        have hnext := hi.follow (he.table.terms ▸ react_follows hr)
        rwa [← hstreet] at hnext
    | none =>
        have hstarted : h.phase ≠ .started := by
          intro hp
          simp [hp, Phase.successors] at hsucc
        refine .inr ⟨hphase ▸ hstarted, seen, by rw [hphase], ?_⟩
        rw [hphase, hstreet, streetAfter_of_rest hsucc]
        exact hi
  launch := by
    intro seen h call r hr hj hlaunch
    have hl := Launched.of_launch hr hlaunch
    obtain ⟨g, next⟩ := r
    have hstreet : g.street = h.street := hl.street
    cases next with
    | none =>
        have hphase : g.phase = h.phase := (hl.stays rfl).1
        rwa [Carries, Come, hphase, hstreet]
    | some next =>
        have hexit := hl.goes next rfl
        show Phase.History setup.terms g.street next seen
        rw [hstreet]
        rcases hj with ⟨hstarted, rfl⟩ | ⟨hstarted, before, rfl, hbefore⟩
        · rw [Resting, hstarted] at hr
          obtain rfl : next = .started := by simpa [hstarted, Phase.exits] using hexit
          rw [hr.1.street]
          exact .dealing rfl
        · have hnext := hbefore.follow (hr.table.terms ▸ exits_follows hexit hstarted)
          rwa [streetAfter_of_exits hexit] at hnext
  withTime := fun now hj => hj

/-! Results. -/

theorem result_passing (h : Hand) (start : Nat) : (h.passing start).1.result = h.result := by
  rcases passing_eq h start with ⟨-, heq⟩ | ⟨seat, -, -, heq⟩ <;> rw [heq]
  rfl

theorem result_moved (h : Hand) (place : Nat) (move : Move) :
    (h.moved place move).result = h.result := by
  cases move with
  | allin chips =>
      simp only [moved, afterAllin]
      split
      · rfl
      · split <;> rfl
  | _ => rfl

/-- Only the payout leaves a result. -/
theorem react_result (hopen : h.phase ≠ .settlementRequested) (hr : h.react = .ok r) :
    r.1.result = h.result := by
  cases hp : h.phase with
  | settlementRequested => exact absurd hp hopen
  | started | readiness | antePaid | roundPrepared | roundClosed | readyRequested | anteRequested
  | gameCompleted | settlementCompleted | gameClosed =>
      rw [react_eq hp, reaction, Except.ok.injEq] at hr
      subst hr
      rfl
  | initialized | blindsPaid =>
      rw [react_eq hp, reaction] at hr
      obtain ⟨_, -, hr⟩ := Outcome.ok_of_bind hr
      obtain rfl := Except.ok.inj hr
      rfl
  | prepared =>
      rw [react_eq hp, reaction] at hr
      obtain ⟨dealt, hdeal, hr⟩ := Outcome.ok_of_bind hr
      obtain ⟨dealer, cards, -, rfl⟩ := dealHole_inv hdeal
      obtain rfl := Except.ok.inj hr
      rfl
  | entered street =>
      rw [react_eq hp, reaction] at hr
      split at hr
      · obtain rfl := Except.ok.inj hr
        rfl
      · obtain ⟨dealt, hdeal, hr⟩ := Outcome.ok_of_bind hr
        obtain ⟨burned, board, rfl⟩ := dealBoard_inv hdeal
        obtain rfl := Except.ok.inj hr
        rfl
  | roundInitialized =>
      rw [react_eq hp, reaction] at hr
      obtain ⟨dealer, -, hr⟩ := Outcome.ok_of_bind hr
      simp only at hr
      repeat' split at hr
      all_goals
        obtain rfl := Except.ok.inj hr
        rfl
  | blindsRequested =>
      rw [react_eq hp, reaction] at hr
      split at hr
      all_goals
        obtain rfl := Except.ok.inj hr
        rfl
  | roundStarted =>
      rw [react_eq hp, reaction, Except.ok.injEq] at hr
      subst hr
      exact result_passing _ _

theorem launch_result {call : Call} (hr : h.Resting setup) (hlaunch : h.launch call = .ok r) :
    r.1.result = h.result := by
  rcases hr.launch_cases hlaunch with ⟨hg, hserved⟩ | ⟨b, g, hbid, hbidden, rfl⟩ | ⟨phase, rfl⟩
  · have hsame : r.1.upshot.result = h.upshot.result := congrArg Hand.result (hserved.upshot hg)
    exact hsame
  · obtain ⟨s, hs, -, hf, -, move, value, -, -, rfl⟩ := hr.exists_settledBy hbid hbidden
    exact (result_passing _ _).trans (result_moved h s.number move)
  · rfl

/-- Before the payout there is no result. -/
theorem chronicle_result : Chronicle setup
    (fun _ h => h.phase ∉ [Phase.settlementCompleted, .gameClosed] → h.result = none)
    (fun _ h => h.phase ≠ .gameClosed → h.result = none) where
  react := by
    intro seen h r he hi hr
    obtain ⟨g, next⟩ := r
    obtain ⟨hphase, -, hsucc⟩ := react_leads hr
    have hnone : h.phase ≠ .settlementRequested →
        h.phase ∉ [Phase.settlementCompleted, .gameClosed] → g.result = none :=
      fun hpay hopen => (react_result hpay hr).trans (hi hopen)
    cases next with
    | none =>
        intro hopen
        rw [hphase] at hopen
        refine hnone ?_ ?_ <;> cases hp : h.phase <;> simp_all [Phase.successors]
    | some next =>
        intro hopen
        refine hnone ?_ ?_ <;> cases hp : h.phase <;> simp_all [Phase.successors]
  launch := by
    intro seen h call r hr hj hlaunch
    have hl := Launched.of_launch hr hlaunch
    have hsame := launch_result hr hlaunch
    obtain ⟨g, next⟩ := r
    cases next with
    | none => exact fun hopen => hsame.trans (hj ((hl.stays rfl).1 ▸ hopen))
    | some next =>
        intro _
        refine hsame.trans (hj fun hclosed => ?_)
        have hexit := hl.goes next rfl
        rw [hclosed] at hexit
        cases hexit
  withTime := fun now hj => hj

/-! The end of a hand. -/

/-- No betting round follows the one that is on. -/
def Decided (h : Hand) : Prop := h.unfolded ≤ 1 ∨ h.street = some .river

instance (h : Hand) : Decidable h.Decided := inferInstanceAs (Decidable (_ ∨ _))

/-- The closed round leads to the end of the hand exactly when it is decided. -/
theorem next_of_roundClosed (hp : h.phase = .roundClosed) (hr : h.react = .ok r) :
    r.2 = if h.Decided then some .gameCompleted else none := by
  rw [react_eq hp, reaction, Except.ok.injEq] at hr
  subst hr
  have hunfolded : h.collectWagers.refreshPots.unfolded = h.unfolded :=
    unfolded_map rfl fun _ _ => rfl
  show (if _ ∨ _ then _ else _) = _
  rw [hunfolded]
  rfl

theorem Path.exists_react (hpath : Path (h, some phase) path h') :
    ∃ r rest, path = { h with phase := phase } :: rest ∧ { h with phase := phase }.react = .ok r ∧
      Path r rest h' := by
  cases hpath with
  | enter hreact hrest => exact ⟨_, _, rfl, hreact, hrest⟩

/-- Where a single phase may follow the path leads to it. -/
theorem Path.exists_next (hpath : Path (h, some phase) path h')
    (hsucc : phase.successors h.street = [some next]) :
    ∃ g rest, path = { h with phase := phase } :: rest ∧ Path (g, some next) rest h' := by
  obtain ⟨⟨g, q⟩, rest, rfl, hreact, hrest⟩ := hpath.exists_react
  have hmem := (react_leads hreact).2.2
  rw [hsucc] at hmem
  obtain rfl := List.mem_singleton.1 hmem
  exact ⟨g, rest, rfl, hrest⟩

/-- A completed hand goes on until it is closed. -/
theorem Path.ending (hpath : Path (h, some .gameCompleted) path h') :
    path.map Hand.phase = Phase.ending := by
  obtain ⟨_, _, rfl, hpaying⟩ := hpath.exists_next rfl
  obtain ⟨_, _, rfl, hpaid⟩ := hpaying.exists_next rfl
  obtain ⟨_, _, rfl, hclosing⟩ := hpaid.exists_next rfl
  obtain ⟨⟨_, next⟩, _, rfl, hreact, hclosed⟩ := hclosing.exists_react
  obtain rfl : next = none := List.mem_singleton.1 (react_leads hreact).2.2
  cases hclosed
  rfl

/-- After the close of a round the hand goes on to its end if it is decided, and rests if not. -/
theorem Path.after_roundClosed {r : Hand × Option Phase} (hpath : Path r path h')
    (hsplit : path = before ++ g :: after) (hp : g.phase = .roundClosed) :
    after.map Hand.phase = if g.Decided then Phase.ending else [] := by
  induction hpath generalizing before with
  | rest h => simp at hsplit
  | @enter h h' phase r path hreact hpath ih =>
      cases before with
      | cons first before => exact ih (List.cons.inj hsplit).2
      | nil =>
          obtain ⟨rfl, rfl⟩ := List.cons.inj hsplit
          have hnext := next_of_roundClosed hp hreact
          obtain ⟨closed, next⟩ := r
          split at hnext
          · next hdecided =>
            obtain rfl : next = some .gameCompleted := hnext
            exact (if_pos hdecided).symm ▸ hpath.ending
          · next hopen =>
            obtain rfl : next = none := hnext
            cases hpath
            exact (if_neg hopen).symm

/-- Only a closed round that decides the hand completes it. -/
theorem Path.before_gameCompleted {r : Hand × Option Phase} (hpath : Path r path h')
    (hsplit : path = before ++ g :: after) (hp : g.phase = .gameCompleted) :
    (before = [] ∧ r.2 = some .gameCompleted) ∨
      ∃ earlier closed, before = earlier ++ [closed] ∧ closed.phase = .roundClosed ∧
        closed.Decided := by
  induction hpath generalizing before with
  | rest h => simp at hsplit
  | @enter h h' phase r path hreact hpath ih =>
      cases before with
      | nil =>
          obtain ⟨rfl, rfl⟩ := List.cons.inj hsplit
          exact .inl ⟨rfl, congrArg some hp⟩
      | cons first before =>
          obtain ⟨rfl, hrest⟩ := List.cons.inj hsplit
          rcases ih hrest with ⟨rfl, hnext⟩ | ⟨earlier, closed, rfl, hclosed⟩
          · refine .inr ⟨[], _, rfl, ?_⟩
            have hphase := roundClosed_of_completes (hnext ▸ (react_leads hreact).2.2)
            refine ⟨hphase, ?_⟩
            have hdecided := hnext.symm.trans (next_of_roundClosed hphase hreact)
            by_contra hopen
            rw [if_neg hopen] at hdecided
            cases hdecided
          · exact .inr ⟨_ :: earlier, closed, rfl, hclosed⟩

/-- The path turns to the end of the hand right after a closed round that decides it, and nowhere
else. -/
def EndsWhenDecided (path : List Hand) : Prop :=
  ∀ before g after, path = before ++ g :: after →
    (g.phase = .roundClosed → after.map Hand.phase = if g.Decided then Phase.ending else []) ∧
      (g.phase = .gameCompleted →
        ∃ earlier closed, before = earlier ++ [closed] ∧ closed.phase = .roundClosed ∧
          closed.Decided)

theorem Runs.endsWhenDecided {call : Call} (hr : h.Resting setup) (hruns : h.Runs call path h') :
    EndsWhenDecided path := by
  obtain ⟨r, hlaunch, hpath⟩ := hruns
  refine fun before g after hsplit => ⟨hpath.after_roundClosed hsplit, fun hp => ?_⟩
  rcases hpath.before_gameCompleted hsplit hp with ⟨-, hnext⟩ | hclosed
  · have hexit := (Launched.of_launch hr hlaunch).goes _ hnext
    cases hphase : h.phase <;> simp [hphase, Phase.exits] at hexit
  · exact hclosed

/-! Points of rest. -/

theorem Path.isResting {r : Hand × Option Phase} (hpath : Path r path h')
    (hr : r.2 = none → r.1.phase.isResting = true) : h'.phase.isResting = true := by
  induction hpath with
  | rest h => exact hr rfl
  | @enter h h' phase r path hreact _ ih =>
      obtain ⟨g, next⟩ := r
      obtain ⟨hphase, -, hsucc⟩ := react_leads hreact
      refine ih fun hnone => ?_
      obtain rfl : next = none := hnone
      rw [hphase]
      exact isResting_of_rest hsucc

/-- A call after which the hand stays where it was is made at a gate or at a turn. -/
theorem Resting.isResting_of_launch (hr : h.Resting setup) {call : Call}
    (hlaunch : h.launch call = .ok r) (hnone : r.2 = none) : r.1.phase.isResting = true := by
  rw [((Launched.of_launch hr hlaunch).stays hnone).1]
  rcases hr.launch_cases hlaunch with ⟨hg, -⟩ | ⟨b, g, hbid, hbidden, -⟩ | ⟨phase, rfl⟩
  · rcases hg.gated.collecting.isGate with hp | hp | hp <;> rw [hp] <;> rfl
  · obtain ⟨s, -, -, hf, -⟩ := hr.exists_settledBy hbid hbidden
    rw [hf.phase]
    rfl
  · cases hnone

theorem Runs.isResting {call : Call} (hr : h.Resting setup) (hruns : h.Runs call path h') :
    h'.phase.isResting = true := by
  obtain ⟨r, hlaunch, hpath⟩ := hruns
  exact hpath.isResting (hr.isResting_of_launch hlaunch)

/-- However a hand is played, the phases on its course are the beginning of a route, which turns to
the end of the hand exactly when a closed round decides it. Every call that succeeds leaves the hand
at a point of rest. The hand has a result exactly when it is closed, and then no call succeeds. -/
theorem phases_in_order {id : String} {now : Int} (hc : create setup id now = .ok h)
    (calls : List (Int × Call)) :
    (∃ last, h.course calls <+: Phase.route setup.terms last) ∧
      (∀ later call h', ((h.play calls).perform later call).outcome = .ok h' →
        h'.phase.isResting = true ∧
        ∃ path rested, (h.play calls).Runs call path rested ∧
          h' = { rested with updatedAt := later } ∧
          ((h.play calls).perform later call).entered = path.map (fun g => (g.phase, g.street)) ∧
          EndsWhenDecided path) ∧
      ((h.play calls).result.isSome ↔ (h.play calls).phase = .gameClosed) ∧
      ((h.play calls).phase = .gameClosed → ∀ later call,
        ((h.play calls).perform later call).outcome = .error .handClosed ∧
          (h.play calls).after later call = h.play calls) := by
  have hf := fresh_of_create hc
  have hr := resting_of_create hc calls
  refine ⟨?_, fun later call h' hok => ?_, ⟨fun hsome => ?_, fun hp => ?_⟩, fun hp later call => ?_⟩
  · have hcome := chronicle_route.play hf.accepted hf.resting (.inl ⟨hf.phase, rfl⟩) calls
    rcases hcome with ⟨-, hnil⟩ | ⟨-, before, hseen, hhistory⟩
    · exact ⟨.preflop, hnil ▸ List.nil_prefix⟩
    · exact hseen ▸ hhistory.exists_route
  · obtain ⟨path, rested, hruns, rfl, hentered⟩ := exists_runs_of_perform hok
    have hresting : rested.phase.isResting = true := hruns.isResting hr
    exact ⟨hresting, path, rested, hruns, rfl, hentered, hruns.endsWhenDecided hr⟩
  · by_contra hopen
    have hnone := chronicle_result.play hf.accepted hf.resting (fun _ => result_of_create hc) calls
      hopen
    rw [hnone] at hsome
    cases hsome
  · rw [Resting, hp] at hr
    obtain ⟨result, hresult, -⟩ := hr.1.result
    rw [hresult]
    rfl
  · have hrefused := attempt_of_closed hp call
    constructor
    · simp [perform, step_outcome, hrefused]
    · simp [after, perform, step_outcome, hrefused]

end Course

/-- The dealer folds after the blinds: the hand goes the whole route of a hand that ends before the
flop, and from there no call leads on. -/
theorem phases_in_order_headsUp :
    ∃ h closed, create ⟨.standard, Setup.entries 2 100⟩ "" 0 = .ok h ∧
      h.play [(1, .start), (2, .readyAll), (3, .payBlinds), (4, .readyAll), (5, .fold 0)] =
        closed ∧
      h.course [(1, .start), (2, .readyAll), (3, .payBlinds), (4, .readyAll), (5, .fold 0)] =
        Phase.route .standard .preflop ∧
      closed.phase = .gameClosed ∧ closed.result.isSome = true ∧
      (closed.perform 6 .next).outcome = .error .handClosed := by
  have hc : create ⟨.standard, Setup.entries 2 100⟩ "" 0 = .ok _ := rfl
  obtain ⟨-, -, hresult, hclosed⟩ := phases_in_order hc
    [(1, .start), (2, .readyAll), (3, .payBlinds), (4, .readyAll), (5, .fold 0)]
  exact ⟨_, _, hc, rfl, rfl, rfl, hresult.2 rfl, (hclosed rfl 6 .next).1⟩

end PokerHand.Hand
