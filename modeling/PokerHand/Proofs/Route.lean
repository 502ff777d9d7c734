import Mathlib.Data.List.Chain
import PokerHand.Proofs.Course
import PokerHand.Proofs.Deal.Spread

/-!
# The route of a hand

`Phase.route` lists the phases of a hand that ends with a given street; the terms say which phases
of the forced bets are among them. `History` says where on a route a phase lies: whatever may follow
a phase comes next on the route (`History.follow`), so what a hand has been through is always the
beginning of a route (`History.exists_route`).
-/
namespace PokerHand

namespace Street

/-- The street that is opened after those up to an open one. -/
def after? : Option Street → Option Street
  | none => some preflop
  | some street => street.next?

theorem upTo_after {street : Option Street} {next : Street} (hnext : after? street = some next) :
    upTo (some next) = upTo street ++ [next] := by
  cases street with
  | none =>
      obtain rfl := Option.some.inj hnext
      rfl
  | some last => exact upTo_next hnext

end Street

namespace Phase

/-- The phases up to the deal, and those of the antes if there are any. -/
def dealing (t : Terms) : List Phase :=
  [started, initialized, readyRequested, readiness, prepared] ++
    if 0 < t.ante then [anteRequested, antePaid] else []

/-- The phases in which blinds are posted and everybody is asked for readiness. A lone big blind is
posted without being asked for. -/
def posting (b : Blinds) : List Phase :=
  (if b.anyPositive then
      if b.dealer = 0 ∧ b.small = 0 then [blindsPaid] else [blindsRequested, blindsPaid]
    else []) ++
    [readyRequested, readiness]

/-- The phases of a betting round. -/
def round (t : Terms) (street : Street) : List Phase :=
  [entered street, roundInitialized] ++ (if street = .preflop then posting t.blinds else []) ++
    [roundPrepared, roundStarted, roundClosed]

/-- The phases after the last betting round. -/
def ending : List Phase := [gameCompleted, settlementRequested, settlementCompleted, gameClosed]

/-- The phases of a hand that ends with a street. -/
def route (t : Terms) (last : Street) : List Phase :=
  dealing t ++ (Street.upTo (some last)).flatMap (round t) ++ ending

/-- The phases that may come next, be it at once or by a call. -/
def follows (t : Terms) (street : Option Street) : Phase → List Phase
  | started => [initialized]
  | initialized => [readyRequested]
  | readyRequested => [readiness]
  | readiness => [if street = none then prepared else roundPrepared]
  | prepared => [if 0 < t.ante then anteRequested else entered .preflop]
  | anteRequested => [antePaid]
  | antePaid => [entered .preflop]
  | entered _ => [roundInitialized]
  | roundInitialized =>
      if street = some .preflop then (posting t.blinds).head?.toList else [roundPrepared]
  | blindsRequested => [blindsPaid]
  | blindsPaid => [readyRequested]
  | roundPrepared => [roundStarted]
  | roundStarted => [roundClosed]
  | roundClosed => gameCompleted :: (street.bind Street.next?).toList.map entered
  | gameCompleted => [settlementRequested]
  | settlementRequested => [settlementCompleted]
  | settlementCompleted => [gameClosed]
  | gameClosed => []

variable {t : Terms} {street : Option Street} {s : Street} {phase next : Phase} {seen : List Phase}

/-- The phases before one that a hand enters with a street open: those of the streets so far, and
those before it in the stretch of the route on which it lies. -/
inductive History (t : Terms) : Option Street → Phase → List Phase → Prop where
  | dealing {phase : Phase} {before after : List Phase}
      (hsplit : dealing t = before ++ phase :: after) : History t none phase before
  | entered {street : Option Street} {s : Street} (hopen : Street.after? street = some s) :
      History t street (entered s) (Phase.dealing t ++ (Street.upTo street).flatMap (round t))
  | round {street : Option Street} {s : Street} {phase : Phase} {before after : List Phase}
      (hopen : Street.after? street = some s)
      (hsplit : round t s = Phase.entered s :: before ++ phase :: after) :
      History t (some s) phase (Phase.dealing t ++ (Street.upTo street).flatMap (Phase.round t) ++
        Phase.entered s :: before)
  | ending {s : Street} {phase : Phase} {before after : List Phase}
      (hsplit : ending = before ++ phase :: after) :
      History t (some s) phase
        (Phase.dealing t ++ (Street.upTo (some s)).flatMap (Phase.round t) ++ before)

/-- The phase leaves the street as it is and is followed by no other than the next. -/
def Onward (t : Terms) (street : Option Street) (phase next : Phase) : Prop :=
  phase.streetAfter street = street ∧ ∀ other ∈ phase.follows t street, other = next

theorem onward_dealing {before after : List Phase}
    (hsplit : dealing t ++ [entered .preflop] = before ++ phase :: next :: after) :
    Onward t none phase next := by
  refine List.isChain_iff_forall_rel_of_append_cons_cons.1 ?_ hsplit
  unfold dealing
  split <;> simp [Onward, streetAfter, follows, *]

theorem onward_round {before after : List Phase}
    (hsplit : (round t s).tail = before ++ phase :: next :: after) :
    Onward t (some s) phase next := by
  refine List.isChain_iff_forall_rel_of_append_cons_cons.1 ?_ hsplit
  unfold round
  split
  · subst s
    unfold posting
    split
    · split <;> simp [Onward, streetAfter, follows, posting, *]
    · simp [Onward, streetAfter, follows, posting, *]
  · simp [Onward, streetAfter, follows, *]

theorem onward_ending {before after : List Phase}
    (hsplit : ending = before ++ phase :: next :: after) : Onward t street phase next := by
  refine List.isChain_iff_forall_rel_of_append_cons_cons.1 ?_ hsplit
  simp [ending, Onward, streetAfter, follows]

/-- A round ends with its close. -/
theorem eq_roundClosed {before : List Phase} (hsplit : (round t s).tail = before ++ [phase]) :
    phase = roundClosed := by
  have hlast := congrArg List.getLast? hsplit
  simpa [round, List.getLast?_cons, List.getLast?_append] using hlast.symm

/-- Whatever may follow a phase comes next on the route. -/
theorem History.follow (hh : History t street phase seen)
    (hnext : next ∈ phase.follows t street) :
    History t (phase.streetAfter street) next (seen ++ [phase]) := by
  cases hh with
  | @dealing _ _ after hsplit =>
      have hlonger : Phase.dealing t ++ [Phase.entered .preflop] =
          seen ++ phase :: (after ++ [Phase.entered .preflop]) := by
        simp [hsplit]
      cases after with
      | nil =>
          obtain ⟨hsame, honly⟩ := onward_dealing hlonger
          obtain rfl := honly next hnext
          have hopened : History t none (Phase.entered .preflop) (Phase.dealing t ++ []) :=
            .entered rfl
          rwa [List.append_nil, hsplit, ← hsame] at hopened
      | cons q after =>
          obtain ⟨hsame, honly⟩ := onward_dealing hlonger
          obtain rfl := honly next hnext
          have hnext : Phase.dealing t = (seen ++ [phase]) ++ next :: after := by simp [hsplit]
          rw [hsame]
          exact .dealing hnext
  | @entered _ s hopen =>
      obtain rfl := List.mem_singleton.1 hnext
      exact .round hopen rfl
  | @round street s _ before after hopen hsplit =>
      have htail : (Phase.round t s).tail = before ++ phase :: after := by rw [hsplit]; rfl
      cases after with
      | nil =>
          obtain rfl := eq_roundClosed htail
          have hseen : Phase.dealing t ++ (Street.upTo street).flatMap (Phase.round t) ++
              Phase.entered s :: before ++ [roundClosed] =
                Phase.dealing t ++ (Street.upTo (some s)).flatMap (Phase.round t) := by
            simp [Street.upTo_after hopen, hsplit]
          rw [hseen]
          rcases List.mem_cons.1 hnext with rfl | hentered
          · have hended : History t (some s) gameCompleted (_ ++ []) := .ending rfl
            rwa [List.append_nil] at hended
          · obtain ⟨later, hlater, rfl⟩ := List.mem_map.1 hentered
            exact .entered (Option.mem_toList.1 hlater)
      | cons q after =>
          obtain ⟨hsame, honly⟩ := onward_round htail
          obtain rfl := honly next hnext
          have hnext : Phase.round t s =
              Phase.entered s :: (before ++ [phase]) ++ next :: after := by
            simp [hsplit]
          rw [hsame, List.append_assoc]
          exact .round hopen hnext
  | @ending s _ before after hsplit =>
      cases after with
      | nil =>
          obtain rfl : phase = gameClosed := by
            have hlast := congrArg List.getLast? hsplit
            simpa [Phase.ending] using hlast.symm
          cases hnext
      | cons q after =>
          obtain ⟨hsame, honly⟩ : Onward t (some s) phase q := onward_ending hsplit
          obtain rfl := honly next hnext
          have hnext : Phase.ending = (before ++ [phase]) ++ next :: after := by simp [hsplit]
          rw [hsame, List.append_assoc]
          exact .ending hnext

/-- Whatever a hand has been through is the beginning of a route. -/
theorem History.exists_route (hh : History t street phase seen) :
    ∃ last, seen ++ [phase] <+: route t last := by
  cases hh with
  | @dealing _ before after hsplit =>
      refine ⟨.preflop, ?_⟩
      simp [route, hsplit]
  | @entered _ s hopen =>
      refine ⟨s, ?_⟩
      simp [route, Street.upTo_after hopen, Phase.round]
  | @round street s _ before after hopen hsplit =>
      refine ⟨s, ?_⟩
      simp [route, Street.upTo_after hopen, hsplit]
  | @ending s _ before after hsplit =>
      refine ⟨s, ?_⟩
      simp [route, hsplit]

end Phase

end PokerHand
