import Mathlib.Order.OrderIsoNat
import PokerHand.Proofs.Play

/-!
# Every hand ends

The phases of a hand follow one another towards the last one, street after street, and while the
hand rests at a phase each successful call takes something from what is left to happen there. So
`Hand.remaining` falls with every call that succeeds, and nobody can go on making such calls.
-/
namespace PokerHand

namespace Phase

/-- How many streets may still follow. The phases of a round come with a street open; without one
they would count as coming before the deal. -/
def streetsLeft : Option Street → Nat
  | none => 5
  | some .preflop => 3
  | some .flop => 2
  | some .turn => 1
  | some .river => 0

@[grind =] theorem streetsLeft_none : streetsLeft none = 5 := rfl

theorem streetsLeft_some_le (street : Street) : streetsLeft (some street) ≤ 3 := by
  cases street <;> decide

/-- How many phases may follow at most while `street` is open. Readiness is asked for twice: before
the deal, and with the first street open. -/
def ahead (street : Option Street) : Phase → Nat
  | started => 99
  | initialized => 98
  | readyRequested => if street = none then 97 else 20 * streetsLeft street + 8
  | readiness => if street = none then 96 else 20 * streetsLeft street + 7
  | prepared => 95
  | anteRequested => 94
  | antePaid => 93
  | entered next => 20 * streetsLeft (some next) + 12
  | roundInitialized => 20 * streetsLeft street + 11
  | blindsRequested => 20 * streetsLeft street + 10
  | blindsPaid => 20 * streetsLeft street + 9
  | roundPrepared => 20 * streetsLeft street + 6
  | roundStarted => 20 * streetsLeft street + 5
  | roundClosed => 20 * streetsLeft street + 4
  | gameCompleted => 20 * streetsLeft street + 3
  | settlementRequested => 20 * streetsLeft street + 2
  | settlementCompleted => 20 * streetsLeft street + 1
  | gameClosed => 20 * streetsLeft street

variable {street : Option Street} {phase next : Phase}

theorem ahead_streetAfter : phase.ahead (phase.streetAfter street) = phase.ahead street := by
  cases phase <;> rfl

theorem ahead_lt_of_mem_successors (hn : some next ∈ phase.successors street) :
    next.ahead (phase.streetAfter street) < phase.ahead street := by
  have hle := streetsLeft_some_le
  cases phase <;> cases street <;> grind [successors, streetAfter, ahead]

/-- A call leads on to a phase that is nearer to the end, unless it starts the hand. -/
theorem ahead_lt_of_mem_exits (hn : next ∈ phase.exits street) :
    next.ahead street < phase.ahead street ∨ next = started ∧ phase = started := by
  cases phase with
  | roundClosed =>
      obtain ⟨s, hs, rfl⟩ := List.mem_map.1 hn
      obtain ⟨last, rfl, hlast⟩ := Option.bind_eq_some_iff.1 (Option.mem_toList.1 hs)
      cases last <;> simp only [Street.next?, Option.some.injEq, reduceCtorEq] at hlast <;>
        subst hlast <;> simp [ahead, streetsLeft]
  | _ => grind [exits, ahead]

end Phase

namespace Hand

/-- What is left to happen in the hand: the phases, and what is left at the one it rests at. -/
def remaining (h : Hand) : Nat ×ₗ Nat ×ₗ Nat ×ₗ Nat ×ₗ Nat :=
  toLex (h.phase.ahead h.street, h.tally)

section Counted

variable [Counting] {setup : Setup} {h h' : Hand} {call : Call}

/-- A path leads to a phase no farther from the end than the one that it begins with. -/
theorem Path.ahead_le {r : Hand × Option Phase} {path : List Hand} (hpath : Path r path h') :
    h'.phase.ahead h'.street ≤ (r.2.getD r.1.phase).ahead r.1.street := by
  induction hpath with
  | rest h => exact Nat.le_refl _
  | @enter h h' phase r path hreact _ ih =>
      obtain ⟨g, next⟩ := r
      obtain ⟨hphase, hstreet, hnext⟩ := react_leads hreact
      rw [hstreet] at ih
      cases next with
      | none =>
          calc h'.phase.ahead h'.street
              ≤ g.phase.ahead (phase.streetAfter h.street) := ih
            _ = phase.ahead h.street := by rw [hphase]; exact Phase.ahead_streetAfter
      | some next => exact ih.trans (Phase.ahead_lt_of_mem_successors hnext).le

/-- A call that is not refused brings the hand nearer to its end, or leaves it where it rests. -/
theorem Launched.ahead_cases {r : Hand × Option Phase} (hl : h.Launched setup r) {path : List Hand}
    (hpath : Path r path h') :
    h'.phase.ahead h'.street < h.phase.ahead h.street ∨
      r = (h', none) ∧ h'.phase.ahead h'.street = h.phase.ahead h.street := by
  obtain ⟨g, next⟩ := r
  have hle := hpath.ahead_le
  have hstreet : g.street = h.street := hl.street
  cases next with
  | none =>
      have hphase := (hl.stays rfl).1
      cases hpath
      exact .inr ⟨rfl, by rw [hphase, hstreet]⟩
  | some phase =>
      refine .inl ?_
      rcases Phase.ahead_lt_of_mem_exits (hl.goes phase rfl) with hlt | ⟨rfl, hstarted⟩
      · exact (hstreet ▸ hle).trans_lt hlt
      · -- The hand starts by entering its phase once more, which leads on at once.
        cases hpath with
        | enter hreact hpath =>
            have hnext := List.mem_singleton.1 (react_leads hreact).2.2
            have hle := hpath.ahead_le
            rw [hnext] at hle
            rw [hstarted]
            exact hle.trans_lt (Nat.lt_succ_self 98)

/-- However it is played, a hand comes no farther from its end. -/
theorem ahead_play_le (ha : setup.Accepted) (hr : h.Resting setup) (calls : List (Int × Call)) :
    (h.play calls).phase.ahead (h.play calls).street ≤ h.phase.ahead h.street := by
  unfold play
  induction calls generalizing h with
  | nil => exact Nat.le_refl _
  | cons call calls ih =>
      refine (ih (after_resting ha hr call.1 call.2)).trans ?_
      unfold after
      split
      · next g hok =>
        obtain ⟨path, rested, ⟨r, hlaunch, hpath⟩, rfl, -⟩ := exists_runs_of_perform hok
        rcases (Launched.of_launch hr hlaunch).ahead_cases hpath with hlt | ⟨-, heq⟩
        · exact hlt.le
        · exact heq.le
      · exact Nat.le_refl _

/-- A call that is not refused takes something from what is left to happen. -/
theorem Launched.remaining_lt [setup.Counted] {r : Hand × Option Phase} (hl : h.Launched setup r)
    {path : List Hand} (hpath : Path r path h') : h'.remaining < h.remaining := by
  rcases hl.ahead_cases hpath with hlt | ⟨rfl, heq⟩
  · exact Prod.Lex.toLex_lt_toLex.2 (.inl hlt)
  · have hlt : h'.tally < h.tally := (hl.stays rfl).2
    exact Prod.Lex.toLex_lt_toLex.2 (.inr ⟨heq, hlt⟩)

theorem Resting.remaining_lt [setup.Counted] (hr : h.Resting setup) {now : Int}
    (hok : (h.perform now call).outcome = .ok h') : h'.remaining < h.remaining := by
  obtain ⟨path, rested, ⟨r, hlaunch, hpath⟩, rfl, -⟩ := exists_runs_of_perform hok
  have hlt := (Launched.of_launch hr hlaunch).remaining_lt hpath
  exact hlt

end Counted

end Hand

end PokerHand
