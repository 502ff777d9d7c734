import PokerHand.Hand.Gate
import PokerHand.Proofs.Flow.Rounds

/-!
# Satisfying the entries of a gate

Whoever satisfies an open entry, by a call or on behalf of the seats, leaves the gate in order with
fewer entries open: `gated_excused` is the step without chips, `gated_paid` the payment. Running the
queue then opens the gate or leaves it waiting.
-/
namespace PokerHand.Hand

variable {setup : Setup} {h h' : Hand} {s : Seat} {t t' : Task} {i : Nat}

/-- What the seats will have once they paid their dues, when one of them is excused from a due. -/
theorem leftAfter_excused (hn : Numbered h.seats) (hs : s ∈ h.seats)
    (hi : Queue.firstFor? h.tasks s.number = some i) (ht : h.tasks[i]? = some t)
    (hsettles : t.Settles s.number t') (hfree : s.stack = 0 ∨ t.owedBy s.number = none) :
    ∀ r ∈ h.seats, leftAfter r.stack (Queue.duesOf (h.tasks.set i t') r.number) =
      leftAfter r.stack (Queue.duesOf h.tasks r.number) := by
  intro r hr
  by_cases hnumber : r.number = s.number
  · obtain rfl := hn.eq_of_number hr hs hnumber
    rw [Queue.duesOf_set_self hi ht hsettles]
    rcases hfree with hstack | howed
    · rw [hstack, leftAfter_zero, leftAfter_zero]
    · rw [howed, Option.toList_none, List.nil_append]
  · rw [Queue.duesOf_set_other ht hsettles hnumber]

/-- The first of its dues comes off what a seat has, and the others are still to come. -/
theorem leftAfter_due (hi : Queue.firstFor? h.tasks s.number = some i) (ht : h.tasks[i]? = some t)
    (hsettles : t.Settles s.number t') {chips : Int} (howed : t.owedBy s.number = some chips)
    (hstack : s.stack ≠ 0) : leftAfter s.stack (Queue.duesOf h.tasks s.number) =
      leftAfter (s.stack - chips) (Queue.duesOf (h.tasks.set i t') s.number) := by
  rw [Queue.duesOf_set_self hi ht hsettles, howed, Option.toList_some, List.singleton_append,
    leftAfter_cons hstack]

variable [Counting]

/-- The gate is in order and fewer of its entries are open. -/
structure Nearer (setup : Setup) (h h' : Hand) : Prop where
  gated : h'.Gated setup
  phase : h'.phase = h.phase
  street : h'.street = h.street
  openEntries_lt : Queue.openEntries h'.tasks < Queue.openEntries h.tasks

/-- The dues of a gate overdraw a seat no further than its forced bets do. -/
theorem Gated.overdraft_le [setup.Counted] (hg : h.Gated setup) (hs : s ∈ h.seats) :
    min 0 (setup.terms.afterBlinds s.entry) ≤
      leftAfter s.stack (Queue.duesOf h.tasks s.number) := by
  rcases hg.collecting.isGate with hp | hp | hp
  · have hready := ((collecting_ready hp).1 hg.collecting).1
    have hnone : Queue.duesOf h.tasks s.number = [] :=
      List.filterMap_eq_nil_iff.2 fun t ht => by
        simp [(hg.proper t ht).owes_nothing (hready t ht)]
    rw [hnone, leftAfter_nil]
    exact (hg.collecting.table.sound s hs).overdraft_le
  · have hb := ((collecting_ante hp).1 hg.collecting).2
    have howes : s.OwesAnte setup.terms (Queue.duesOf h.tasks s.number) := (hb.seats s hs).2
    have hnonneg := setup.terms.afterAnte_nonneg s.bankroll
    have hleft := howes.2
    omega
  · have hpre := ((collecting_blinds hp).1 hg.collecting).2
    have howes : s.OwesBlinds setup.terms (Queue.duesOf h.tasks s.number) :=
      (hpre.before.seats s hs).2
    have hleft := howes.2
    omega

theorem gated_excused (hg : h.Gated setup) (hs : s ∈ h.seats)
    (hi : Queue.firstFor? h.tasks s.number = some i) (ht : h.tasks[i]? = some t)
    (hawaits : t.awaits s.number = true) (hsettles : t.Settles s.number t')
    (hfree : s.stack = 0 ∨ t.isPayment = false) : h.Nearer setup (h.setTask i t') := by
  have hmem := List.mem_of_getElem? ht
  have hproper := hg.proper t hmem
  have hleft := leftAfter_excused hg.collecting.table.numbered hs hi ht hsettles <|
    hfree.imp_right fun hready => hproper.owes_nothing hready s.number
  have hkinds : ∀ u ∈ h.tasks.set i t', ∃ v ∈ h.tasks, u.due = v.due ∧ u.isPayment = v.isPayment :=
    Queue.forall_mem_set (fun u hu => ⟨u, hu, rfl, rfl⟩)
      ⟨t, hmem, hsettles.due, hsettles.isPayment⟩
  exact ⟨⟨hg.collecting.withTasks hkinds hleft,
    Queue.forall_mem_set hg.proper (hproper.settles hsettles),
    Queue.forall_mem_set hg.fair (Task.Fair.settles (hg.fair t hmem) hsettles)⟩, rfl, rfl,
    Queue.openEntries_set_lt ht hawaits hsettles⟩

/-- The seats when the one numbered `seat` pays. -/
def paidBy (seat : Nat) (due : Due) (chips : Int) (r : Seat) : Seat :=
  if r.number = seat then if due = .ante then r.putInPot chips else r.putIn chips else r

theorem paidBy_stack [setup.Counted] (hsound : s.Sound setup) (due : Due) {chips : Int}
    (hchips : 0 ≤ chips) (hcovered : min 0 (setup.terms.afterBlinds s.entry) ≤ s.stack - chips) :
    (paidBy s.number due chips s).stack = s.stack - chips := by
  rw [paidBy, if_pos rfl]
  split
  · exact congrArg Seat.stack (hsound.putInPot_eq hchips hcovered)
  · exact congrArg Seat.stack (hsound.putIn_eq hchips hcovered)

theorem takePayment_eq_ok (hn : Numbered h.seats) (hs : s ∈ h.seats) (due : Due) (chips : Int) :
    h.takePayment s.number due chips = .ok (h.mapSeats (paidBy s.number due chips)) :=
  modifySeat_eq_ok hn (hn.number_lt hs) _

theorem paidBy_same (seat : Nat) (due : Due) (chips : Int) (r : Seat) :
    (paidBy seat due chips r).entry = r.entry ∧ (paidBy seat due chips r).number = r.number ∧
      (paidBy seat due chips r).folded = r.folded ∧ (paidBy seat due chips r).acted = r.acted ∧
      (due = .ante → (paidBy seat due chips r).wager = r.wager) ∧
      (due ≠ .ante → (paidBy seat due chips r).pot = r.pot) := by
  unfold paidBy
  split
  · split
    · next hante => exact ⟨rfl, rfl, rfl, rfl, fun _ => rfl, fun h => absurd hante h⟩
    · next hante => exact ⟨rfl, rfl, rfl, rfl, fun h => absurd h hante, fun _ => rfl⟩
  · exact ⟨rfl, rfl, rfl, rfl, fun _ => rfl, fun _ => rfl⟩

section Payment

variable {chips : Int} (hg : h.Gated setup) (hs : s ∈ h.seats)
  (hi : Queue.firstFor? h.tasks s.number = some i) (ht : h.tasks[i]? = some t)
  (hsettles : t.Settles s.number t') (howed : t.owedBy s.number = some chips)
  (hstack : s.stack ≠ 0)

include hg hs hi ht hsettles howed hstack

/-- A payment overdraws the stack only as far as the forced bets exceed it. -/
theorem overdraft_paid [setup.Counted] :
    0 ≤ chips ∧ min 0 (setup.terms.afterBlinds s.entry) ≤ s.stack - chips := by
  have hfair := Task.Fair.settles (hg.fair t (List.mem_of_getElem? ht)) hsettles
  have hdues : ∀ due ∈ Queue.duesOf (h.tasks.set i t') s.number, 0 ≤ due :=
    Queue.duesOf_nonneg (Queue.forall_mem_set hg.fair hfair)
  have hleft := hg.overdraft_le hs
  rw [leftAfter_due hi ht hsettles howed hstack] at hleft
  refine ⟨hg.fair t (List.mem_of_getElem? ht) s.number chips howed, ?_⟩
  by_cases hneg : s.stack - chips < 0
  · exact hleft.trans (leftAfter_le hneg hdues)
  · omega

theorem leftAfter_paid [setup.Counted] : ∀ r ∈ h.seats,
    leftAfter (paidBy s.number t.due chips r).stack (Queue.duesOf (h.tasks.set i t') r.number) =
      leftAfter r.stack (Queue.duesOf h.tasks r.number) := by
  intro r hr
  by_cases hnumber : r.number = s.number
  · obtain rfl := hg.collecting.table.numbered.eq_of_number hr hs hnumber
    obtain ⟨hchips, hcovered⟩ := overdraft_paid hg hs hi ht hsettles howed hstack
    rw [leftAfter_due hi ht hsettles howed hstack,
      paidBy_stack (hg.collecting.table.sound r hr) t.due hchips hcovered]
  · rw [Queue.duesOf_set_other ht hsettles hnumber, paidBy, if_neg hnumber]

/-- A payment keeps the seats sound. -/
theorem table_paid : Table setup ((h.setTask i t').mapSeats (paidBy s.number t.due chips)) := by
  have htable := hg.collecting.table
  refine htable.map rfl rfl (fun r => (paidBy_same _ _ _ r).1)
    (fun r => (paidBy_same _ _ _ r).2.1) ?_
  intro _ r hr
  obtain ⟨hchips, hcovered⟩ := overdraft_paid hg hs hi ht hsettles howed hstack
  have hsound := htable.sound r hr
  unfold paidBy
  split
  · next hnumber =>
    obtain rfl := htable.numbered.eq_of_number hr hs hnumber
    split
    · exact hsound.putInPot hchips hcovered
    · exact hsound.putIn hchips hcovered
  · exact hsound

theorem owesAnte_paid [setup.Counted] (hante : t.due = .ante) {r : Seat} (hr : r ∈ h.seats)
    (ho : r.OwesAnte setup.terms (Queue.duesOf h.tasks r.number)) :
    (paidBy s.number t.due chips r).OwesAnte setup.terms
      (Queue.duesOf (h.tasks.set i t') (paidBy s.number t.due chips r).number) := by
  obtain ⟨hentry, hnumber, -, -, hwager, -⟩ := paidBy_same s.number t.due chips r
  have hbankroll : (paidBy s.number t.due chips r).bankroll = r.bankroll :=
    congrArg Entry.bankroll hentry
  have hleft := leftAfter_paid hg hs hi ht hsettles howed hstack r hr
  refine ⟨(hwager hante).trans ho.1, ?_⟩
  rw [hnumber, hbankroll, hleft]
  exact ho.2

theorem owesBlinds_paid [setup.Counted] (hblind : t.due ≠ .ante) {r : Seat} (hr : r ∈ h.seats)
    (ho : r.OwesBlinds setup.terms (Queue.duesOf h.tasks r.number)) :
    (paidBy s.number t.due chips r).OwesBlinds setup.terms
      (Queue.duesOf (h.tasks.set i t') (paidBy s.number t.due chips r).number) := by
  obtain ⟨hentry, hnumber, -, -, -, hpot⟩ := paidBy_same s.number t.due chips r
  have hbankroll : (paidBy s.number t.due chips r).bankroll = r.bankroll :=
    congrArg Entry.bankroll hentry
  have hleft := leftAfter_paid hg hs hi ht hsettles howed hstack r hr
  refine ⟨?_, ?_⟩
  · rw [hpot hblind, hbankroll]
    exact ho.1
  · rw [hnumber, hentry, hleft]
    exact ho.2

theorem collecting_paid (hpayment : t.isPayment = true) :
    ((h.setTask i t').mapSeats (paidBy s.number t.due chips)).Collecting setup := by
  have hmem := List.mem_of_getElem? ht
  have htable := table_paid hg hs hi ht hsettles howed hstack
  have hfolded : ∀ r, (paidBy s.number t.due chips r).folded = r.folded := fun r =>
    (paidBy_same s.number t.due chips r).2.2.1
  rcases hg.collecting.isGate with hp | hp | hp
  · have hready := ((collecting_ready hp).1 hg.collecting).1 t hmem
    simp [hready] at hpayment
  · obtain ⟨htasks, hb⟩ := (collecting_ante hp).1 hg.collecting
    have hante := htasks t hmem
    refine (collecting_ante (h := (h.setTask i t').mapSeats _) hp).2
      ⟨?_, hb.scene.of_frame rfl htable, fun r' hr' => ?_⟩
    · exact Queue.forall_mem_set htasks (hsettles.due.trans hante)
    · obtain ⟨r, hr, rfl⟩ := List.mem_map.1 hr'
      exact ⟨(hfolded r).trans (hb.seats r hr).1,
        owesAnte_paid hg hs hi ht hsettles howed hstack hante hr (hb.seats r hr).2⟩
  · obtain ⟨htasks, hpre⟩ := (collecting_blinds hp).1 hg.collecting
    have hblind := htasks t hmem
    have hpots : ∀ r ∈ h.seats, (paidBy s.number t.due chips r).pot = r.pot := fun r _ =>
      (paidBy_same s.number t.due chips r).2.2.2.2.2 hblind
    refine (collecting_blinds (h := (h.setTask i t').mapSeats _) hp).2
      ⟨?_, ⟨hpre.before.scene.of_frame rfl htable, fun r' hr' => ?_⟩,
        hpre.counted.map rfl rfl hpots, hpre.raiseSize,
        hpre.unacted.map rfl fun r => (paidBy_same s.number t.due chips r).2.2.2.1⟩
    · exact Queue.forall_mem_set htasks (hsettles.due.symm ▸ hblind)
    · obtain ⟨r, hr, rfl⟩ := List.mem_map.1 hr'
      exact ⟨(hfolded r).trans (hpre.before.seats r hr).1,
        owesBlinds_paid hg hs hi ht hsettles howed hstack hblind hr (hpre.before.seats r hr).2⟩

theorem gated_paid (hawaits : t.awaits s.number = true) (hpayment : t.isPayment = true) :
    h.Nearer setup ((h.setTask i t').mapSeats (paidBy s.number t.due chips)) := by
  have hmem := List.mem_of_getElem? ht
  have hproper := hg.proper t hmem
  refine ⟨⟨collecting_paid hg hs hi ht hsettles howed hstack hpayment, ?_, ?_⟩, rfl, rfl,
    Queue.openEntries_set_lt ht hawaits hsettles⟩
  swap
  · exact Queue.forall_mem_set hg.fair (Task.Fair.settles (hg.fair t hmem) hsettles)
  show ∀ u ∈ h.tasks.set i t', u.Proper (h.seats.map _).length
  rw [List.length_map]
  exact Queue.forall_mem_set hg.proper (hproper.settles hsettles)

end Payment

end PokerHand.Hand
