import PokerHand.Proofs.Play

/-!
# The course of a hand

`Hand.course` lists the phases that a hand enters while it is played, as the traces of its calls
tell them. A `Chronicle` is a pair of conditions on a hand and the phases that it has seen, one for
the hand that has just entered a phase and one for the hand at rest, which every phase and every
call hand on to each other; it holds however the hand is played (`Chronicle.play`).
-/
namespace PokerHand.Hand

variable [Counting]

/-- The phases that a call lets the hand enter; a refused call lets it enter none. -/
def passed (h : Hand) (now : Int) (call : Call) : List Phase :=
  match (h.perform now call).outcome with
  | .ok _ => (h.perform now call).entered.map Prod.fst
  | .error _ => []

/-- The phases that the hand enters while it is played. -/
def course (h : Hand) : List (Int × Call) → List Phase
  | [] => []
  | call :: calls => h.passed call.1 call.2 ++ (h.after call.1 call.2).course calls

/-- What calls and phases hand on to each other: `I` of the phases seen before and the hand that has
just entered one more, `J` of the phases seen and the hand at rest. -/
structure Chronicle (setup : Setup) (I J : List Phase → Hand → Prop) : Prop where
  react : ∀ {seen h r}, h.Entering setup → I seen h → h.react = .ok r →
    Carries (I (seen ++ [h.phase])) (J (seen ++ [h.phase])) r
  launch : ∀ {seen h call r}, h.Resting setup → J seen h → h.launch call = .ok r →
    Carries (I seen) (J seen) r
  withTime : ∀ {seen h} now, J seen h → J seen { h with updatedAt := now }

namespace Chronicle

variable {setup : Setup} {I J I' J' : List Phase → Hand → Prop} {seen : List Phase} {h h' : Hand}

/-- What is handed on may rest on what a chronicle hands on already. -/
theorem and (hc : Chronicle setup I J)
    (react : ∀ {seen h r}, h.Entering setup → I seen h → I' seen h → h.react = .ok r →
      Carries (I' (seen ++ [h.phase])) (J' (seen ++ [h.phase])) r)
    (launch : ∀ {seen h call r}, h.Resting setup → J seen h → J' seen h → h.launch call = .ok r →
      Carries (I' seen) (J' seen) r)
    (withTime : ∀ {seen h} now, J' seen h → J' seen { h with updatedAt := now }) :
    Chronicle setup (fun seen h => I seen h ∧ I' seen h) (fun seen h => J seen h ∧ J' seen h) where
  react := fun he hi hr => (hc.react he hi.1 hr).and (react he hi.1 hi.2 hr)
  launch := fun hr hj hlaunch => (hc.launch hr hj.1 hlaunch).and (launch hr hj.1 hj.2 hlaunch)
  withTime := fun now hj => ⟨hc.withTime now hj.1, withTime now hj.2⟩

theorem path (hc : Chronicle setup I J) {r : Hand × Option Phase} {path : List Hand}
    (hpath : Path r path h') (hentering : ∀ g ∈ path, g.Entering setup)
    (hr : Carries (I seen) (J seen) r) : J (seen ++ path.map Hand.phase) h' := by
  induction hpath generalizing seen with
  | rest h =>
      rw [List.map_nil, List.append_nil]
      exact hr
  | enter hreact _ ih =>
      obtain ⟨hfirst, hrest⟩ := List.forall_mem_cons.1 hentering
      simpa using ih hrest (hc.react hfirst hr hreact)

theorem after (hc : Chronicle setup I J) (ha : setup.Accepted) (hr : h.Resting setup)
    (hj : J seen h) (now : Int) (call : Call) :
    J (seen ++ h.passed now call) (h.after now call) := by
  unfold passed Hand.after
  cases hok : (h.perform now call).outcome with
  | error fault => simpa using hj
  | ok h' =>
      obtain ⟨path, rested, hruns, rfl, hentered⟩ := exists_runs_of_perform hok
      have hentering := (hruns.entering ha hr).1
      obtain ⟨r, hlaunch, hpath⟩ := hruns
      have hrested := hc.path hpath hentering (hc.launch hr hj hlaunch)
      simpa [hentered, Function.comp_def] using hc.withTime now hrested

/-- However the hand is played, the phases on its course are those that it has seen. -/
theorem play (hc : Chronicle setup I J) (ha : setup.Accepted) (hr : h.Resting setup) (hj : J [] h)
    (calls : List (Int × Call)) : J (h.course calls) (h.play calls) := by
  suffices hall : ∀ seen h, h.Resting setup → J seen h →
      J (seen ++ h.course calls) (h.play calls) by
    simpa using hall [] h hr hj
  unfold Hand.play
  induction calls with
  | nil => intro seen h _ hj; simpa [course] using hj
  | cons call calls ih =>
      intro seen h hr hj
      have hnext := ih _ _ (after_resting ha hr call.1 call.2) (hc.after ha hr hj call.1 call.2)
      simpa [course] using hnext

end Chronicle

end PokerHand.Hand
