import PokerHand.Proofs.Flow.Reaction
import PokerHand.Proofs.Gate.Opening

/-!
# Reactions that open a gate

A gate opens with tasks that wait for somebody, and offers every seat what they ask of it.
-/
namespace PokerHand

/-- The phases at which a hand waits for its tasks. -/
def Phase.gates : List Phase := [readyRequested, anteRequested, blindsRequested]

theorem Phase.mem_gates {phase : Phase} :
    phase ∈ gates ↔ phase = readyRequested ∨ phase = anteRequested ∨ phase = blindsRequested := by
  simp [gates]

namespace Hand

variable [Counting] {setup : Setup} {h : Hand}

/-- Once everybody is offered what the tasks ask the hand rests. -/
theorem Gated.refreshGate (hg : h.Gated setup) (hw : Queue.Waiting h.tasks) :
    h.refreshGate.AtGate setup where
  gated := ⟨hg.collecting.alike rfl rfl rfl rfl (fun s => s.alike_update _ _ _ _ _)
      fun _ => rfl,
    by simpa [Hand.refreshGate, mapSeats] using hg.proper, hg.fair⟩
  waiting := hw
  offers := by
    intro s hs
    obtain ⟨r, hr, rfl⟩ := List.mem_map.1 hs
    rfl

theorem AtGate.resting (hg : h.AtGate setup) : h.Resting setup := by
  unfold Resting
  rcases hg.gated.collecting.isGate with hp | hp | hp <;> rw [hp] <;> exact hg

theorem Resting.waits (hr : h.Resting setup)
    (hp : h.phase = .readyRequested ∨ h.phase = .anteRequested ∨ h.phase = .blindsRequested) :
    h.AtGate setup := by
  rcases hp with hp | hp | hp <;> simpa only [Resting, hp] using hr

theorem Readying.scene (hr : h.Readying setup) :
    ∃ street dealt, h.Scene setup street dealt := by
  rcases hr with ⟨hb, -⟩ | ⟨hp, -⟩
  · exact ⟨_, _, hb.scene⟩
  · exact ⟨_, _, hp.before.scene⟩

theorem rests_readyRequested (ha : setup.Accepted) (hp : h.phase = .readyRequested)
    (hr : h.Readying setup) :
    (h.openGate [.forReadiness (h.seats.map Seat.number)]).Resting setup := by
  obtain ⟨street, dealt, hs⟩ := hr.scene
  have hn := hs.table.numbered
  obtain ⟨first, hmem⟩ := List.exists_mem_of_ne_nil _ (hs.table.seats_ne_nil ha)
  refine (Gated.refreshGate ⟨?_, ?_, fun t ht => ?_⟩ ?_).resting
  · refine (collecting_ready (h := { h with tasks := [.forReadiness _] }) hp).2 ⟨?_, ?_⟩
    · simp [Task.forReadiness, Task.isPayment]
    · exact hr.alike rfl (List.map_id _).symm Seat.Alike.refl fun _ => rfl
  · intro t ht
    obtain rfl := List.mem_singleton.1 ht
    refine Task.proper_forReadiness hn.ascending fun seat hseat => ?_
    obtain ⟨r, hr, rfl⟩ := List.mem_map.1 hseat
    exact hn.number_lt hr
  · obtain rfl := List.mem_singleton.1 ht
    exact Task.fair_forReadiness _
  · exact ⟨_, List.mem_singleton_self _, first.number,
      Task.awaits_forReadiness hn.ascending (List.mem_map_of_mem hmem)⟩

/-- Before the ante is paid every chip lies in its stack. -/
theorem Before.stack_eq [setup.Counted] {street : Option Street} {dealt : Nat}
    (hb : h.Before setup street dealt Seat.Untouched) {s : Seat} (hs : s ∈ h.seats) :
    s.stack = s.bankroll := by
  have hbalanced := (hb.scene.table.sound s hs).balanced
  obtain ⟨hwager, hpot⟩ : s.Untouched := (hb.seats s hs).2
  omega

theorem rests_anteRequested (ha : setup.Accepted) (hp : h.phase = .anteRequested)
    (hb : h.Before setup none setup.holeCards Seat.Untouched) :
    (h.openGate [.forPayment .ante (h.dues (fun _ => true) h.terms.ante)]).Resting setup := by
  have ht := hb.scene.table
  have hn := ht.numbered
  obtain ⟨first, hmem⟩ := List.exists_mem_of_ne_nil _ (ht.seats_ne_nil ha)
  refine (Gated.refreshGate ⟨?_, ?_, fun t hasked => ?_⟩ ?_).resting
  · refine (collecting_ante (h := { h with tasks := [.forPayment .ante _] }) hp).2
      ⟨by simp [Task.forPayment], hb.scene.of_frame rfl (ht.congr rfl rfl), fun s hs => ?_⟩
    refine ⟨(hb.seats s hs).1, ?_⟩
    intro _
    obtain ⟨hwager, -⟩ : s.Untouched := (hb.seats s hs).2
    have hpos := ht.bankroll_pos ha hs
    refine ⟨hwager, ?_⟩
    rw [duesOf_forPayment hn hs, hb.stack_eq hs, if_pos rfl, leftAfter_cons (by omega),
      leftAfter_nil, ht.terms]
    rfl
  · intro t hmem
    obtain rfl := List.mem_singleton.1 hmem
    exact proper_dues hn (by simp)
  · obtain rfl := List.mem_singleton.1 hasked
    refine fair_dues hn (ht.terms ▸ ha.ante_nonneg) fun s hs => ?_
    rw [hb.stack_eq hs]
    exact Int.le_of_lt (ht.bankroll_pos ha hs)
  · refine ⟨_, List.mem_singleton_self _, first.number, ?_⟩
    rw [Task.awaits_forPayment]
    exact contains_dues hn hmem

theorem Preflop.owesBlinds [setup.Counted] {s : Seat}
    (hp : h.Preflop setup (Seat.OwesAnte setup.terms [])) (hs : s ∈ h.seats) :
    s.OwesBlinds setup.terms (Queue.duesOf h.blindTasks s.number) := by
  have ht := hp.before.scene.table
  rw [duesOf_blindTasks ht.numbered hs, ht.terms]
  have howes : s.OwesAnte setup.terms [] := (hp.before.seats s hs).2
  exact howes.owesBlinds (ht.sound s hs)

theorem rests_blindsRequested (hp : h.phase = .blindsRequested)
    (hpre : h.Preflop setup (Seat.OwesAnte setup.terms [])) (hne : h.blindTasks ≠ []) :
    (h.openGate h.blindTasks).Resting setup := by
  have ht := hpre.before.scene.table
  refine (Gated.refreshGate ⟨?_, ?_, fun t hmem => ?_⟩ ?_).resting
  · refine (collecting_blinds (h := { h with tasks := h.blindTasks }) hp).2
      ⟨fun t hmem => ?_, ⟨hpre.before.scene.of_frame rfl (ht.congr rfl rfl), fun s hs => ?_⟩,
        hpre.counted, hpre.raiseSize, hpre.unacted⟩
    · obtain ⟨due, position, amount, -, hante, -, rfl, -⟩ := exists_of_mem_blindTasks hmem
      exact hante
    · exact ⟨(hpre.before.seats s hs).1, hpre.owesBlinds hs⟩
  · intro t hmem
    obtain ⟨due, position, amount, hready, -, -, rfl, -⟩ := exists_of_mem_blindTasks hmem
    exact proper_dues ht.numbered hready
  · obtain ⟨due, position, amount, -, -, hamount, rfl, -⟩ := exists_of_mem_blindTasks hmem
    refine fair_dues ht.numbered hamount fun s hs => ?_
    have howes : s.OwesAnte setup.terms [] := (hpre.before.seats s hs).2
    exact howes.stack_nonneg
  · obtain ⟨t, hmem⟩ := List.exists_mem_of_ne_nil _ hne
    obtain ⟨due, position, amount, -, -, -, rfl, hentries⟩ := exists_of_mem_blindTasks hmem
    exact ⟨_, hmem, waiting_forPayment hentries⟩

end Hand

end PokerHand
