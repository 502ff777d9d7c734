import PokerHand.Proofs.Play
import PokerHand.Proofs.Veil.Flow

/-!
# Play does not depend on the cards

Two hands that differ in their decks only, and of which the same is asked, do the same: every call
succeeds on both or is refused by both for the same reason, and afterwards they differ in nothing
but their cards and what hangs on them (`Hand.veil`). So nobody learns anything about the cards
from what the others may do, whose turn it is, or what lies in the pots.
-/
namespace PokerHand

/-- The same setup with another deck. -/
def Setup.withDeck (setup : Setup) (deck : List Card) : Setup :=
  { setup with terms := { setup.terms with deck := deck } }

namespace Hand

variable {setup setup' : Setup} {h g : Hand}

/-- The two calls succeed and leave hands that differ in their cards only, or they are refused for
the same reason. -/
def SameOutcome (x y : Except Fault Hand) : Prop :=
  (∃ h g, x = .ok h ∧ y = .ok g ∧ h.veil = g.veil) ∨ ∃ fault, x = .error fault ∧ y = .error fault

theorem create_veil {deck : List Card} {id id' : String} {now now' : Int}
    (hc : create setup id now = .ok h) (hc' : create (setup.withDeck deck) id' now' = .ok g) :
    h.veil = g.veil := by
  obtain ⟨_, -, hc⟩ := Outcome.ok_of_bind hc
  obtain ⟨_, -, hc'⟩ := Outcome.ok_of_bind hc'
  obtain rfl := Except.ok.inj hc
  obtain rfl := Except.ok.inj hc'
  rfl

section Stocked

variable [Counting] (ha : setup.Accepted) (ha' : setup'.Accepted) (hstocked : setup.Stocked)
  (hstocked' : setup'.Stocked) (hr : h.Resting setup) (hr' : g.Resting setup')
  (hsame : h.veil = g.veil)

include ha ha' hstocked hstocked' hr hr' hsame

/-- One call on hands that differ in their cards only. -/
theorem perform_veil (now now' : Int) (call : Call) :
    SameOutcome (h.perform now call).outcome (g.perform now' call).outcome := by
  have hlaunches : veiled <$> h.launch call = veiled <$> g.launch call := by
    rw [← launch_veil, ← launch_veil, hsame]
  simp only [perform, Traced.outcome_bind, step_outcome, attempt_outcome]
  rcases Outcome.cases_of_map_eq hlaunches with
    ⟨r, r', hlaunch, hlaunch', hlaunched⟩ | ⟨fault, herror, herror'⟩
  · obtain ⟨h', hfollow⟩ := (Launched.of_launch hr hlaunch).succeeds ha hstocked
    obtain ⟨g', hfollow'⟩ := (Launched.of_launch hr' hlaunch').succeeds ha' hstocked'
    obtain ⟨path, hpath⟩ := follow_eq_ok_iff.1 hfollow
    obtain ⟨path', hpath'⟩ := follow_eq_ok_iff.1 hfollow'
    have hrested : h'.veil = g'.veil := hpath.veil hpath' hlaunched
    rw [hlaunch, hlaunch', Outcome.ok_bind, Outcome.ok_bind, hfollow, hfollow']
    exact .inl ⟨_, _, rfl, rfl, hrested⟩
  · rw [herror, herror']
    exact .inr ⟨fault, rfl, rfl⟩

theorem after_veil (now now' : Int) (call : Call) :
    (h.after now call).veil = (g.after now' call).veil := by
  unfold after
  rcases perform_veil ha ha' hstocked hstocked' hr hr' hsame now now' call with
    ⟨h', g', hok, hok', hsame'⟩ | ⟨fault, herror, herror'⟩
  · rw [hok, hok']
    exact hsame'
  · rw [herror, herror']
    exact hsame

theorem play_veil {calls calls' : List (Int × Call)}
    (hcalls : calls.map Prod.snd = calls'.map Prod.snd) :
    (h.play calls).veil = (g.play calls').veil := by
  unfold play
  induction calls generalizing h g calls' with
  | nil =>
      obtain rfl : calls' = [] := List.map_eq_nil_iff.1 hcalls.symm
      exact hsame
  | cons first rest ih =>
      cases calls' with
      | nil => cases hcalls
      | cons first' rest' =>
          obtain ⟨hcall, hrest⟩ := List.cons.inj hcalls
          have hnext := after_veil ha ha' hstocked hstocked' hr hr' hsame first.1 first'.1 first.2
          rw [hcall] at hnext
          rw [List.foldl_cons, List.foldl_cons, hcall]
          exact ih (after_resting ha hr _ _) (after_resting ha' hr' _ _) hnext hrest

end Stocked

end Hand

end PokerHand
