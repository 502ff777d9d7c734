import PokerHand.Hand.Bet
import PokerHand.Proofs.Betting.Moves
import PokerHand.Proofs.Flow.Rounds

/-!
# Moves within a round

A move that fits keeps the betting round in order: nobody is above the wager to match, and the last
raise stays a full one.
-/
namespace PokerHand.Hand

variable {setup : Setup} {h h' : Hand} {s : Seat} {f : Seat → Seat}

/-- The seats when all others than the one numbered `place` have to act again. -/
def reopenBy (place : Nat) (r : Seat) : Seat :=
  if r.number != place && r.isMovable then { r with acted := false } else r

theorem reopenBy_alike (place : Nat) (r : Seat) : r.Alike (reopenBy place r) := by
  unfold reopenBy
  split <;> exact r.alike_update _ _ _ _ _

/-- One fold leaves all but one of the players. -/
theorem countP_modify_le {α : Type} (p : α → Bool) (f : α → α) (xs : List α) (i : Nat) :
    xs.countP p ≤ (xs.modify i f).countP p + 1 := by
  induction xs generalizing i with
  | nil => simp
  | cons x xs ih =>
      cases i with
      | zero =>
          simp only [List.modify_zero_cons, List.countP_cons]
          split <;> split <;> omega
      | succ i =>
          have := ih i
          simp only [List.modify_succ_cons, List.countP_cons]
          omega

/-- The seats when the one numbered `place` folds. -/
def foldBy (place : Nat) (r : Seat) : Seat :=
  if r.number = place then { r with folded := true } else r

theorem foldBy_same (place : Nat) (r : Seat) :
    (foldBy place r).entry = r.entry ∧ (foldBy place r).number = r.number ∧
      (foldBy place r).pot = r.pot ∧ (foldBy place r).wager = r.wager ∧
      (foldBy place r).stack = r.stack := by
  unfold foldBy
  split <;> exact ⟨rfl, rfl, rfl, rfl, rfl⟩

variable [Counting]

/-- The seats when the one numbered `place` puts in chips. -/
def betBy (place : Nat) (chips : Int) (r : Seat) : Seat :=
  if r.number = place then r.putIn chips else r

theorem betBy_same (place : Nat) (chips : Int) (r : Seat) :
    (betBy place chips r).entry = r.entry ∧ (betBy place chips r).number = r.number ∧
      (betBy place chips r).pot = r.pot ∧ (betBy place chips r).folded = r.folded := by
  unfold betBy
  split <;> exact ⟨rfl, rfl, rfl, rfl⟩

/-! The chips of a move. -/

/-- The hand once the chips of a move are moved. -/
def moved (h : Hand) (place : Nat) : Move → Hand
  | .fold => h.mapSeats (foldBy place)
  | .check => h
  | .call chips => h.mapSeats (betBy place chips)
  | .bet chips | .raise chips => (h.mapSeats (betBy place chips)).raiseTo place
  | .allin chips => (h.mapSeats (betBy place chips)).afterAllin place

theorem moveChips_eq_ok (hn : Numbered h.seats) {place : Nat} (hlt : place < h.seats.length)
    (move : Move) : h.moveChips place move = .ok (h.moved place move) := by
  have hputIn := fun chips => modifySeat_eq_ok hn hlt fun r => r.putIn chips
  cases move with
  | fold => exact modifySeat_eq_ok hn hlt _
  | check => rfl
  | call chips => exact hputIn chips
  | bet chips | raise chips | allin chips =>
      simp only [moveChips, hputIn chips, Outcome.ok_bind, Outcome.pure_eq]
      rfl

/-- What a move does to the chips and the cards of the seats. -/
def movedBy (place : Nat) : Move → Seat → Seat
  | .fold => foldBy place
  | .check => fun r => r
  | .call chips | .bet chips | .raise chips | .allin chips => betBy place chips

theorem movedBy_same (place : Nat) (move : Move) (r : Seat) :
    (movedBy place move r).entry = r.entry ∧ (movedBy place move r).number = r.number ∧
      (movedBy place move r).pot = r.pot := by
  cases move with
  | fold => exact ⟨(foldBy_same place r).1, (foldBy_same place r).2.1, (foldBy_same place r).2.2.1⟩
  | check => exact ⟨rfl, rfl, rfl⟩
  | call chips | bet chips | raise chips | allin chips =>
      exact ⟨(betBy_same place chips r).1, (betBy_same place chips r).2.1,
        (betBy_same place chips r).2.2.1⟩

/-- Apart from its chips a move changes only who has to act again. -/
theorem exists_moved_seats (h : Hand) (place : Nat) (move : Move) :
    ∃ f : Seat → Seat, (∀ r : Seat, r.Alike (f r)) ∧
      (h.moved place move).seats = (h.seats.map (movedBy place move)).map f := by
  have hself : ∃ f : Seat → Seat, (∀ r : Seat, r.Alike (f r)) ∧
      h.seats.map (movedBy place move) = (h.seats.map (movedBy place move)).map f :=
    ⟨fun r => r, Seat.Alike.refl, (List.map_id' _).symm⟩
  cases move with
  | fold | call => exact hself
  | check => exact ⟨fun r => r, Seat.Alike.refl, by simp [moved, movedBy]⟩
  | bet | raise => exact ⟨reopenBy place, reopenBy_alike place, rfl⟩
  | allin =>
      simp only [moved, afterAllin]
      split
      · exact hself
      · split
        · exact ⟨reopenBy place, reopenBy_alike place, rfl⟩
        · exact hself

theorem moved_frame (h : Hand) (place : Nat) (move : Move) :
    (h.moved place move).phase = h.phase ∧ (h.moved place move).street = h.street ∧
      (h.moved place move).tasks = h.tasks := by
  cases move with
  | allin chips =>
      simp only [moved, afterAllin]
      split
      · exact ⟨rfl, rfl, rfl⟩
      · split <;> exact ⟨rfl, rfl, rfl⟩
  | _ => exact ⟨rfl, rfl, rfl⟩

theorem moved_ledger (h : Hand) (place : Nat) (move : Move) :
    (h.moved place move).frame = h.frame ∧ (h.moved place move).pots = h.pots := by
  cases move with
  | allin chips =>
      simp only [moved, afterAllin]
      split
      · exact ⟨rfl, rfl⟩
      · split <;> exact ⟨rfl, rfl⟩
  | _ => exact ⟨rfl, rfl⟩

/-- Whoever is behind the wager does not lead and can fold. -/
theorem Staked.fold (hc : h.Staked setup) (ht : Table setup h) (hs : s ∈ h.seats)
    (hbehind : s.wager < h.wager) : (h.mapSeats (foldBy s.number)).Staked setup := by
  have hpot : ∀ r ∈ h.seats, (foldBy s.number r).pot = r.pot := fun r _ =>
    (foldBy_same s.number r).2.2.1
  refine ⟨?_, hc.minBet_le, hc.raiseSize_le, ?_, ?_⟩
  · intro r' hr'
    obtain ⟨r, hr, rfl⟩ := List.mem_map.1 hr'
    rw [(foldBy_same s.number r).2.2.2.1]
    exact hc.wager_le r hr
  · refine hc.level.map rfl hpot fun r _ hact => ?_
    unfold foldBy at hact
    split at hact
    · simp [Seat.isMovable] at hact
    · exact hact
  · obtain ⟨r, hr, hfolded, hmatched, htops⟩ := hc.leader
    have hnumber : r.number ≠ s.number := by
      intro hnumber
      obtain rfl := ht.numbered.eq_of_number hr hs hnumber
      omega
    refine ⟨foldBy s.number r, List.mem_map_of_mem hr, ?_, ?_, htops.map rfl hpot hr⟩
    · rw [foldBy, if_neg hnumber]
      exact hfolded
    · rw [(foldBy_same s.number r).2.2.2.1]
      exact hmatched

/-! A move that fits is counted exactly. -/

section Counted

variable [setup.Counted] {chips : Int}

theorem betBy_self_eq (ht : Table setup h) (hs : s ∈ h.seats) (hpos : 0 ≤ chips)
    (hle : chips ≤ s.stack) : betBy s.number chips s =
      { s with stack := s.stack - chips, wager := s.wager + chips } := by
  rw [betBy, if_pos rfl]
  exact (ht.sound s hs).putIn_eq hpos (by omega)

theorem betBy_sound (ht : Table setup h) (hs : s ∈ h.seats) (hpos : 0 ≤ chips)
    (hle : chips ≤ s.stack) : ∀ r ∈ h.seats, (betBy s.number chips r).Sound setup := by
  intro r hr
  unfold betBy
  split
  · next hnumber =>
    obtain rfl := ht.numbered.eq_of_number hr hs hnumber
    exact (ht.sound r hr).putIn hpos (by omega)
  · exact ht.sound r hr

theorem movedBy_sound (ht : Table setup h) (hs : s ∈ h.seats) {k : Stakes} {move : Move}
    (hfits : move.Fits k s) : ∀ r ∈ h.seats, (movedBy s.number move r).Sound setup := by
  cases move with
  | fold =>
      intro r hr
      obtain ⟨hbankroll, hoverdraft, hbalanced, hw, hp, hle, hstack⟩ := ht.sound r hr
      simp only [movedBy, foldBy]
      split <;> exact ⟨hbankroll, hoverdraft, hbalanced, hw, hp, hle, hstack⟩
  | check => exact ht.sound
  | call chips | bet chips | raise chips =>
      exact betBy_sound ht hs (Int.le_of_lt hfits.1) hfits.2.1
  | allin chips => exact betBy_sound ht hs (Int.le_of_lt hfits.1) (Int.le_of_eq hfits.2)

theorem wagerAt_bet (ht : Table setup h) (hs : s ∈ h.seats) (hpos : 0 ≤ chips)
    (hle : chips ≤ s.stack) :
    (h.mapSeats (betBy s.number chips)).wagerAt s.number = s.wager + chips := by
  have hself := betBy_self_eq ht hs hpos hle
  simp [wagerAt, mapSeats, ht.numbered.getElem?_number hs, hself]

/-- How far a wager exceeds the one to match is counted exactly. -/
theorem Staked.fit_increment (hc : h.Staked setup) (ht : Table setup h) (hs : s ∈ h.seats)
    (hpos : 0 ≤ chips) (hle : chips ≤ s.stack) :
    Counting.fit (s.wager + chips - h.wager) = s.wager + chips - h.wager ∧
      s.wager + chips ≤ 3 * setup.bankrolls ∧ 0 ≤ h.wager := by
  obtain ⟨leader, hleader, -, hmatched, -⟩ := hc.leader
  have hbound := setup.bankrolls_lt_bound
  have hbankrolls := ht.bankrolls_nonneg
  have hlead := ht.sound leader hleader
  have hown := ht.sound s hs
  have hwithin := hlead.within
  have hbankroll := hlead.bankroll_le
  have hwager := hlead.wager_nonneg
  have hpot := hlead.pot_nonneg
  have hown_bankroll := hown.bankroll_le
  have hown_balanced := hown.balanced
  have hown_wager := hown.wager_nonneg
  have hown_pot := hown.pot_nonneg
  exact ⟨Counting.fit_eq setup.bound (by omega) (by omega), by omega, by omega⟩

/-- Chips that a seat puts in keep the stakes in order once the wager to match takes account of
them. -/
theorem Staked.bet (hc : h.Staked setup) (ht : Table setup h) (hs : s ∈ h.seats)
    (hmovable : s.isMovable = true) (hpos : 0 < chips) (hle : chips ≤ s.stack)
    (hminBet : h'.minBet = h.minBet)
    (hseats : h'.seats = (h.mapSeats (betBy s.number chips)).seats.map f)
    (hf : ∀ r, Seat.Alike r (f r)) (hwager : h'.wager = max h.wager (s.wager + chips))
    (hsize : h.minBet ≤ h'.raiseSize ∧ h'.raiseSize ≤ 3 * setup.bankrolls + h.minBet) :
    h'.Staked setup := by
  have hbet := betBy_self_eq ht hs (Int.le_of_lt hpos) hle
  have hmap : h'.seats = h.seats.map fun r => f (betBy s.number chips r) := by
    rw [hseats, mapSeats, List.map_map]
    rfl
  have hpot : ∀ r ∈ h.seats, (f (betBy s.number chips r)).pot = r.pot := fun r _ =>
    (hf _).pot.trans (betBy_same _ _ r).2.2.1
  have hself : (f (betBy s.number chips s)).wager = s.wager + chips := by
    rw [(hf _).wager, hbet]
  have hother : ∀ r, r.number ≠ s.number → (f (betBy s.number chips r)).wager = r.wager := by
    intro r hnumber
    rw [(hf _).wager, betBy, if_neg hnumber]
  refine ⟨?_, ?_, ?_, ?_, ?_⟩
  · rw [hmap, List.forall_mem_map]
    refine ht.numbered.forall_of_self hs (by omega) fun r hr hnumber => ?_
    rw [hother r hnumber]
    have := hc.wager_le r hr
    omega
  · rw [hminBet]
    exact hsize.1
  · rw [hminBet]
    exact hsize.2
  · -- nobody gets chips back, so nobody can act who could not
    refine hc.level.map hmap hpot (ht.numbered.forall_of_self hs ?_ fun r _ hnumber hact => ?_)
    · exact fun _ => hmovable
    · rw [(hf _).isMovable, betBy, if_neg hnumber] at hact
      exact hact
  · by_cases hraised : h.wager < s.wager + chips
    · -- the seat takes the lead
      have htops := hc.level s hs hmovable
      simp only [Seat.isMovable, Bool.and_eq_true, Bool.not_eq_true'] at hmovable
      refine ⟨f (betBy s.number chips s), hmap ▸ List.mem_map_of_mem hs, ?_, by omega, ?_⟩
      · exact ((hf _).folded.trans (betBy_same _ _ s).2.2.2).trans hmovable.1
      · exact htops.map hmap hpot hs
    · obtain ⟨r, hr, hfolded, hmatched, htops⟩ := hc.leader
      have hnumber : r.number ≠ s.number := by
        intro hnumber
        obtain rfl := ht.numbered.eq_of_number hr hs hnumber
        omega
      refine ⟨f (betBy s.number chips r), hmap ▸ List.mem_map_of_mem hr, ?_, ?_, ?_⟩
      · exact ((hf _).folded.trans (betBy_same _ _ r).2.2.2).trans hfolded
      · rw [hother r hnumber]
        omega
      · exact htops.map hmap hpot hr

theorem Staked.raiseTo (hc : h.Staked setup) (ht : Table setup h) (hs : s ∈ h.seats)
    (hmovable : s.isMovable = true) (hpos : 0 < chips) (hle : chips ≤ s.stack)
    (hmin : h.minBet ≤ s.wager + chips - h.wager) (hminBet : 0 < h.minBet) :
    ((h.mapSeats (betBy s.number chips)).raiseTo s.number).Staked setup := by
  have hlevel := wagerAt_bet ht hs (Int.le_of_lt hpos) hle
  obtain ⟨hfit, hmost, hwager⟩ := hc.fit_increment ht hs (Int.le_of_lt hpos) hle
  have hnow : ((h.mapSeats (betBy s.number chips)).raiseTo s.number).wager = s.wager + chips :=
    hlevel
  have hraise : ((h.mapSeats (betBy s.number chips)).raiseTo s.number).raiseSize =
      s.wager + chips - h.wager := by
    rw [← hfit, ← hlevel]
    rfl
  exact hc.bet ht hs hmovable hpos hle rfl rfl (reopenBy_alike s.number) (by omega) (by omega)

theorem Staked.afterAllin (hc : h.Staked setup) (ht : Table setup h) (hs : s ∈ h.seats)
    (hmovable : s.isMovable = true) (hpos : 0 < chips) (hle : chips ≤ s.stack)
    (hminBet : 0 < h.minBet) :
    ((h.mapSeats (betBy s.number chips)).afterAllin s.number).Staked setup := by
  have hlevel := wagerAt_bet ht hs (Int.le_of_lt hpos) hle
  obtain ⟨hfit, -, -⟩ := hc.fit_increment ht hs (Int.le_of_lt hpos) hle
  have hsame : (h.mapSeats (betBy s.number chips)).wager = h.wager := rfl
  have hraiseSize : (h.mapSeats (betBy s.number chips)).raiseSize = h.raiseSize := rfl
  have hself : (h.mapSeats (betBy s.number chips)).seats =
      (h.mapSeats (betBy s.number chips)).seats.map fun r => r := (List.map_id' _).symm
  have hsize := And.intro hc.minBet_le hc.raiseSize_le
  unfold Hand.afterAllin
  simp only [hlevel, hsame, hraiseSize, hfit]
  split
  · exact hc.bet ht hs hmovable hpos hle rfl hself Seat.Alike.refl (by rw [hsame]; omega) hsize
  · split
    · exact hc.raiseTo ht hs hmovable hpos hle (by omega) hminBet
    · exact hc.bet ht hs hmovable hpos hle rfl hself Seat.Alike.refl (by simp only; omega) hsize

theorem Staked.moved (hc : h.Staked setup) (ht : Table setup h) (hs : s ∈ h.seats)
    (hmovable : s.isMovable = true) (hminBet : 0 < h.minBet) {move : Move}
    (hfits : move.Fits h.stakes s) : (h.moved s.number move).Staked setup := by
  cases move with
  | fold => exact hc.fold ht hs hfits
  | check => exact hc
  | call chips =>
      obtain ⟨hpos, hle, hmatch⟩ := hfits
      have hwager : h.wager = max h.wager (s.wager + chips) := by
        have hmatch : s.wager + chips = h.wager := hmatch
        omega
      exact hc.bet ht hs hmovable hpos hle rfl (List.map_id' _).symm Seat.Alike.refl hwager
        ⟨hc.minBet_le, hc.raiseSize_le⟩
  | bet chips | raise chips =>
      obtain ⟨hpos, hle, hmin⟩ := hfits
      exact hc.raiseTo ht hs hmovable hpos hle hmin hminBet
  | allin chips =>
      obtain ⟨hpos, hall⟩ := hfits
      exact hc.afterAllin ht hs hmovable hpos (Int.le_of_eq hall) hminBet

end Counted

/-- At most one of the seats folds with a move. -/
theorem unfolded_moved (hn : Numbered h.seats) (place : Nat) (move : Move) :
    h.unfolded ≤ (h.moved place move).unfolded + 1 := by
  obtain ⟨f, hf, hseats⟩ := exists_moved_seats h place move
  have hmoved : (h.moved place move).unfolded =
      (h.seats.map (movedBy place move)).countP fun r => !r.folded := by
    rw [unfolded, hseats, List.countP_map]
    exact List.countP_congr fun r _ => by simp [(hf r).folded]
  rw [hmoved]
  have hsame : ∀ g : Seat → Seat, (∀ r, (g r).folded = r.folded) →
      (h.seats.map g).countP (fun r => !r.folded) = h.unfolded := by
    intro g hg
    rw [List.countP_map]
    exact List.countP_congr fun r _ => by simp [hg r]
  cases move with
  | fold =>
      have hle := countP_modify_le (fun r : Seat => !r.folded) (fun r => { r with folded := true })
        h.seats place
      rw [hn.modify_eq_map] at hle
      exact hle
  | check => exact Nat.le_succ_of_le (Nat.le_of_eq (hsame _ fun _ => rfl).symm)
  | call chips | bet chips | raise chips | allin chips =>
      exact Nat.le_succ_of_le
        (Nat.le_of_eq (hsame _ fun r => (betBy_same place chips r).2.2.2).symm)

/-- Moving the chips of a move that fits keeps the round in order. -/
theorem inRound_moved (hr : h.InRound setup) (htwo : 2 ≤ h.unfolded) (hs : s ∈ h.seats)
    (hmovable : s.isMovable = true) {move : Move}
    (hfits : [setup.Counted] → move.Fits h.stakes s) :
    (h.moved s.number move).InRound setup := by
  obtain ⟨⟨street, ho⟩, hlive, hstaked⟩ := hr
  have ht := ho.scene.table
  have hminBet : 0 < h.minBet := by
    rw [ho.scene.minBet]
    exact Terms.minBet_pos _
  obtain ⟨f, hf, hseats⟩ := exists_moved_seats h s.number move
  obtain ⟨hframe, hpots⟩ := moved_ledger h s.number move
  have hsame := movedBy_same s.number move
  rw [List.map_map] at hseats
  have htable : Table setup (h.moved s.number move) := by
    refine ht.map (terms_of_frame hframe) hseats (fun r => (hf _).entry.trans (hsame r).1)
      (fun r => (hf _).number.trans (hsame r).2.1) ?_
    intro _ r hr
    exact (movedBy_sound ht hs hfits r hr).alike (hf _)
  refine ⟨⟨street, ho.scene.of_frame hframe htable, ho.counted.map hpots hseats fun r _ =>
    (hf _).pot.trans (hsame r).2.2⟩, ?_, ?_⟩
  · have hfewer := unfolded_moved ht.numbered s.number move
    omega
  · exact Staked.moved hstaked ht hs hmovable hminBet hfits

end PokerHand.Hand
