import PokerHand.Proofs.Betting.Rounds
import PokerHand.Proofs.Gate.Calls

/-!
# What a move leaves to the others

`Effect` is what every move does to the seats: the others keep their chips, and they stay as they
are or have all to act again. From it follow both the order of play after the move and that less is
left to happen in the round.
-/
namespace PokerHand.Hand

variable {setup : Setup} {h h' g : Hand} {s : Seat} {f : Seat → Seat}

/-- What a move of the seat `s` does to the seats and to the wager to match. -/
structure Effect (h h' : Hand) (s : Seat) (f : Seat → Seat) : Prop where
  seats : h'.seats = h.seats.map f
  number : ∀ r, (f r).number = r.number
  others : ∀ r, r.number ≠ s.number → (f r).stack = r.stack ∧ (f r).folded = r.folded
  order : (h'.wager = h.wager ∧ ∀ r, r.number ≠ s.number → f r = r) ∨
    ∀ r ∈ h.seats, r.number ≠ s.number → (f r).isMovable = true → ¬ (f r).Done h'.wager
  matched : (f s).isMovable = true → h'.wager ≤ (f s).wager
  spent : (0 ≤ (f s).stack ∧ (f s).stack < s.stack) ∨
    ((f s).stack = s.stack ∧ (f s).folded = true) ∨ ((∀ r, f r = r) ∧ h.wager ≤ s.wager)

theorem effect_fold (h : Hand) (s : Seat) :
    Effect h (h.mapSeats (foldBy s.number)) s (foldBy s.number) where
  seats := rfl
  number := fun r => (foldBy_same s.number r).2.1
  others := fun r hne => by rw [foldBy, if_neg hne]; exact ⟨rfl, rfl⟩
  order := .inl ⟨rfl, fun r hne => if_neg hne⟩
  matched := by simp [foldBy, Seat.isMovable]
  spent := .inr (.inl (by simp [foldBy]))

theorem effect_check (hmatched : h.wager ≤ s.wager) : Effect h h s fun r => r where
  seats := (List.map_id' _).symm
  number := fun _ => rfl
  others := fun _ _ => ⟨rfl, rfl⟩
  order := .inl ⟨rfl, fun _ _ => rfl⟩
  matched := fun _ => hmatched
  spent := .inr (.inr ⟨fun _ => rfl, hmatched⟩)

/-- The seats when the one numbered `place` has acted. -/
def actBy (place : Nat) (r : Seat) : Seat :=
  if r.number = place then { r with acted := true } else r

theorem actBy_alike (place : Nat) (r : Seat) : r.Alike (actBy place r) := by
  unfold actBy
  split <;> exact r.alike_update _ _ _ _ _

theorem actBy_self (r : Seat) : actBy r.number r = { r with acted := true } := if_pos rfl

theorem actBy_other {place : Nat} {r : Seat} (hne : r.number ≠ place) : actBy place r = r :=
  if_neg hne

variable [Counting]

theorem betBy_other {place : Nat} {r : Seat} (hne : r.number ≠ place) (chips : Int) :
    betBy place chips r = r :=
  if_neg hne

section Chips

variable [setup.Counted] (ht : Table setup h) (hs : s ∈ h.seats) {chips : Int} (hpos : 0 < chips)
  (hle : chips ≤ s.stack)

include ht hs hpos hle

/-- Chips that leave everybody with the wager to match that they had, or nobody with the higher
one. -/
theorem effect_bet (hseats : h'.seats = h.seats.map (betBy s.number chips))
    (hwager : h'.wager = h.wager ∨ ∀ r ∈ h.seats, r.wager < h'.wager)
    (hmatched : chips < s.stack → h'.wager ≤ s.wager + chips) :
    Effect h h' s (betBy s.number chips) where
  seats := hseats
  number := fun r => (betBy_same s.number chips r).2.1
  others := fun r hne => by rw [betBy_other hne]; exact ⟨rfl, rfl⟩
  order := by
    rcases hwager with hsame | hraised
    · exact .inl ⟨hsame, fun r hne => betBy_other hne chips⟩
    · refine .inr fun r hr hne _ hdone => ?_
      rw [betBy_other hne] at hdone
      exact absurd hdone.2 (Int.not_le.2 (hraised r hr))
  matched := by
    intro hmovable
    simp only [betBy_self_eq ht hs (Int.le_of_lt hpos) hle, Seat.isMovable, Bool.and_eq_true,
      decide_eq_true_eq] at hmovable ⊢
    exact hmatched (by omega)
  spent := by
    refine .inl ?_
    rw [betBy_self_eq ht hs (Int.le_of_lt hpos) hle]
    exact ⟨Int.sub_nonneg_of_le hle, Int.sub_lt_self _ hpos⟩

/-- A full raise makes all others act again. -/
theorem effect_raiseTo :
    Effect h ((h.mapSeats (betBy s.number chips)).raiseTo s.number) s
      fun r => reopenBy s.number (betBy s.number chips r) where
  seats := by
    show (h.seats.map (betBy s.number chips)).map (reopenBy s.number) = _
    rw [List.map_map]
    rfl
  number := fun r => (reopenBy_alike _ _).number.trans (betBy_same s.number chips r).2.1
  others := fun r hne => by
    rw [betBy_other hne]
    exact ⟨(reopenBy_alike _ _).stack, (reopenBy_alike _ _).folded⟩
  order := by
    refine .inr fun r _ hne hmovable hdone => ?_
    rw [betBy_other hne] at hmovable hdone
    rw [(reopenBy_alike _ _).isMovable] at hmovable
    have hacted := hdone.1
    simp [reopenBy, hne, hmovable] at hacted
  matched := by
    intro _
    have hwager : ((h.mapSeats (betBy s.number chips)).raiseTo s.number).wager =
        s.wager + chips := wagerAt_bet ht hs (Int.le_of_lt hpos) hle
    rw [(reopenBy_alike _ _).wager, betBy_self_eq ht hs (Int.le_of_lt hpos) hle, hwager]
  spent := by
    refine .inl ?_
    rw [(reopenBy_alike _ _).stack, betBy_self_eq ht hs (Int.le_of_lt hpos) hle]
    exact ⟨Int.sub_nonneg_of_le hle, Int.sub_lt_self _ hpos⟩

end Chips

/-- A move that fits has one of these effects. -/
theorem effect_moved [setup.Counted] (hr : h.InRound setup) (hs : s ∈ h.seats) {move : Move}
    (hfits : move.Fits h.stakes s) : ∃ f, Effect h (h.moved s.number move) s f := by
  have ht := hr.table
  have hstaked : h.Staked setup := hr.staked
  cases move with
  | fold => exact ⟨_, effect_fold h s⟩
  | check => exact ⟨_, effect_check hfits⟩
  | call chips =>
      obtain ⟨hpos, hle, hmatch⟩ := hfits
      exact ⟨_, effect_bet ht hs hpos hle rfl (.inl rfl) fun _ => Int.le_of_eq hmatch.symm⟩
  | bet chips | raise chips =>
      obtain ⟨hpos, hle, -⟩ := hfits
      exact ⟨_, effect_raiseTo ht hs hpos hle⟩
  | allin chips =>
      obtain ⟨hpos, hall⟩ := hfits
      have hle := Int.le_of_eq hall
      have hlevel := wagerAt_bet ht hs (Int.le_of_lt hpos) hle
      have hsame : (h.mapSeats (betBy s.number chips)).wager = h.wager := rfl
      obtain ⟨hfit, -, -⟩ := hstaked.fit_increment ht hs (Int.le_of_lt hpos) hle
      simp only [moved, afterAllin, hlevel, hsame, hfit]
      split
      · exact ⟨_, effect_bet ht hs hpos hle rfl (.inl rfl) fun hlt => by omega⟩
      · split
        · exact ⟨_, effect_raiseTo ht hs hpos hle⟩
        · next hraised _ =>
          refine ⟨_, effect_bet ht hs hpos hle rfl (.inr fun r hr' => ?_) fun hlt => by omega⟩
          have hround := hstaked.wager_le r hr'
          simp only
          omega

/-! The move is noted, and the turn passes on. -/

/-- What a move at a turn leaves before the turn passes on. -/
structure Moved (setup : Setup) (h g : Hand) : Prop where
  inRound : g.InRound setup
  phase : g.phase = h.phase
  street : g.street = h.street
  tasks : g.tasks = h.tasks
  paced : [setup.Counted] → Turn.Paced g.wager (g.seats.rotate (h.turn + 1))
  tally_lt : [setup.Counted] → g.tally < h.tally

section Turn

variable (ht : h.AtTurn setup) (hs : s ∈ h.seats) (hturn : s.number = h.turn)
  (he : Effect h h' s f)

include ht hs hturn he

/-- The seat that acted goes last, and whoever has to act again comes before it. -/
theorem paced_of_effect [setup.Counted] :
    Turn.Paced h'.wager ((h'.seats.map (actBy s.number)).rotate (h.turn + 1)) := by
  have hn := ht.inRound.table.numbered
  have hfind := hn.getElem?_number hs
  rw [hturn] at hfind
  obtain ⟨rest, hplay, hnext⟩ := Turn.exists_rotate_eq_cons hfind
  have hpaced : Turn.Paced h.wager (h.seats.rotate h.turn) := ht.paced
  rw [hplay] at hpaced
  have hnodup : ((s :: rest).map Seat.number).Nodup := by
    rw [← hplay, List.map_rotate]
    exact List.nodup_rotate.2 hn.nodup
  have hothers : ∀ r ∈ rest, r.number ≠ s.number := by
    intro r hr hnumber
    have hnot := (List.nodup_cons.1 hnodup).1
    exact hnot (hnumber ▸ List.mem_map_of_mem hr)
  have hmem : ∀ r ∈ rest, r ∈ h.seats := by
    intro r hr
    have hseated : r ∈ h.seats.rotate h.turn := hplay ▸ List.mem_cons_of_mem s hr
    exact List.mem_rotate.1 hseated
  have hacts : actBy s.number (f s) = { f s with acted := true } := by
    rw [← he.number s]
    exact actBy_self (f s)
  have hothers' : ∀ r ∈ rest, actBy s.number (f r) = f r := fun r hr =>
    actBy_other ((he.number r).symm ▸ hothers r hr)
  rw [he.seats, List.map_map, ← List.map_rotate, hnext]
  refine hpaced.play ?_ ?_
  · simp only [Function.comp_apply, hacts]
    exact fun hmovable => ⟨rfl, he.matched hmovable⟩
  · rcases he.order with ⟨hwager, hsame⟩ | hagain
    · refine .inl ⟨hwager, fun r hr => ?_⟩
      rw [Function.comp_apply, hothers' r hr]
      exact hsame r (hothers r hr)
    · refine .inr fun r hr => ?_
      rw [Function.comp_apply, hothers' r hr]
      exact hagain r (hmem r hr) (hothers r hr)

/-- A move puts chips in or folds, or the seat acts that had not acted. -/
theorem tally_lt_of_effect (htasks : g.tasks = h.tasks)
    (hseats : g.seats = h.seats.map fun r => actBy s.number (f r)) : g.tally < h.tally := by
  have hmovable := ht.movable s hs hturn
  simp only [Seat.isMovable, Bool.and_eq_true, Bool.not_eq_true', decide_eq_true_eq] at hmovable
  have hstack : ∀ r, (actBy s.number (f r)).stack = (f r).stack := fun r => (actBy_alike _ _).stack
  have hfolded : ∀ r, (actBy s.number (f r)).folded = (f r).folded := fun r =>
    (actBy_alike _ _).folded
  have hn := ht.inRound.table.numbered
  rcases he.spent with ⟨hnonneg, hlt⟩ | ⟨hsame, hfold⟩ | ⟨hsame, hmatched⟩
  · have hless : max (actBy s.number (f s)).stack 0 < max s.stack 0 := by
      rw [hstack]
      omega
    refine tally_lt_of_chips htasks hseats hs (hn.forall_of_self hs (Int.le_of_lt hless) ?_) hless
    intro r _ hnumber
    rw [hstack, (he.others r hnumber).1]
  · refine tally_lt_of_fold htasks hseats hs (hn.forall_of_self hs ?_ ?_)
      (hn.forall_of_self hs ?_ ?_) hmovable.1 ((hfolded s).trans hfold)
    · exact (hstack s).trans hsame
    · exact fun r _ hnumber => (hstack r).trans (he.others r hnumber).1
    · exact fun _ => (hfolded s).trans hfold
    · exact fun r _ hnumber hgone =>
        (hfolded r).trans ((he.others r hnumber).2.trans hgone)
  · have hacted : s.acted = false :=
      Bool.eq_false_iff.2 fun hacted => ht.undone s hs hturn ⟨hacted, hmatched⟩
    refine tally_lt_of_acted htasks hseats hs (fun r _ => ?_) (fun r _ hdid => ?_) hacted ?_
    · rw [hstack, hfolded, hsame r]
      exact ⟨rfl, rfl⟩
    · rw [hsame r, actBy]
      split
      · rfl
      · exact hdid
    · rw [hsame s, actBy_self]

end Turn

/-- The hand once a move of the seat numbered `place` is made and noted with `value`. -/
def settledBy (h : Hand) (place : Nat) (move : Move) (value : Int) : Hand :=
  ((h.moved place move).mapSeats (actBy place)).noted place move.action value

/-- A move that fits is made. -/
theorem made_eq (ht : h.AtTurn setup) (hs : s ∈ h.seats) (hturn : s.number = h.turn)
    {move : Move} (hfits : [setup.Counted] → move.Fits h.stakes s) :
    ∃ value, h.made s.number move = .ok (h.settledBy s.number move value) := by
  have hround := inRound_moved ht.inRound ht.two_le_unfolded hs (ht.movable s hs hturn) hfits
  have hlt : ∀ later : Hand, later.InRound setup → s.number < later.seats.length :=
    fun _ hr => ht.inRound.table.number_lt hr.table hs
  have hmove := moveChips_eq_ok ht.inRound.table.numbered (hlt h ht.inRound) move
  unfold settledBy
  generalize h.moved s.number move = moved at *
  have hact : moved.modifySeat s.number (fun r => { r with acted := true }) =
      .ok (moved.mapSeats (actBy s.number)) :=
    modifySeat_eq_ok hround.table.numbered (hlt _ hround) _
  have hacted : (moved.mapSeats (actBy s.number)).InRound setup :=
    hround.alike rfl rfl (actBy_alike s.number)
  have hnote := record_outcome hacted.table.numbered (hlt _ hacted) move.action
  simp only [made, hmove, hact, Outcome.ok_bind]
  exact ⟨_, hnote _⟩

/-- A move that fits leaves the round in order for the next seat. -/
theorem moved_settledBy (ht : h.AtTurn setup) (hs : s ∈ h.seats) (hturn : s.number = h.turn)
    {move : Move} (hfits : [setup.Counted] → move.Fits h.stakes s) (value : Int) :
    h.Moved setup (h.settledBy s.number move value) := by
  have heffect : [setup.Counted] → ∃ f, Effect h (h.moved s.number move) s f :=
    effect_moved ht.inRound hs hfits
  have hround := inRound_moved ht.inRound ht.two_le_unfolded hs (ht.movable s hs hturn) hfits
  obtain ⟨hphase, hstreet, htasks⟩ := moved_frame h s.number move
  unfold settledBy
  generalize h.moved s.number move = moved at *
  have hacted : (moved.mapSeats (actBy s.number)).InRound setup :=
    hround.alike rfl rfl (actBy_alike s.number)
  refine ⟨hacted.alike rfl rfl (noted_alike s.number move.action), hphase, hstreet, htasks, ?_, ?_⟩
  · intro _
    obtain ⟨f, he⟩ := heffect
    have hpaced := paced_of_effect ht hs hturn he
    show Turn.Paced _ (((moved.seats.map (actBy s.number)).map _).rotate _)
    rw [← List.map_rotate]
    refine hpaced.map fun r => ?_
    split <;> exact ⟨rfl, rfl, rfl⟩
  · intro _
    obtain ⟨f, he⟩ := heffect
    have hfewer : (moved.mapSeats (actBy s.number)).tally < h.tally := by
      refine tally_lt_of_effect ht hs hturn he htasks ?_
      rw [mapSeats, he.seats, List.map_map]
      rfl
    have hsame : ((moved.mapSeats (actBy s.number)).noted s.number move.action value).tally =
        (moved.mapSeats (actBy s.number)).tally :=
      tally_congr rfl rfl fun r => by split <;> exact ⟨rfl, rfl, rfl⟩
    exact hsame ▸ hfewer

/-- A move that fits is made, and leaves the round in order for the next seat. -/
theorem made_eq_ok (ht : h.AtTurn setup) (hs : s ∈ h.seats) (hturn : s.number = h.turn)
    {move : Move} (hfits : [setup.Counted] → move.Fits h.stakes s) :
    ∃ g, h.made s.number move = .ok g ∧ h.Moved setup g := by
  obtain ⟨value, hmade⟩ := made_eq ht hs hturn hfits
  exact ⟨_, hmade, moved_settledBy ht hs hturn hfits value⟩

/-- After a move the turn passes on or the round is over. -/
theorem passing_launched (hp : h.phase = .roundStarted) (hm : h.Moved setup g) :
    h.Launched setup (g.passing h.turn) := by
  have hcarries := passing_carries (hm.phase.trans hp) hm.inRound hm.paced
  rcases passing_eq g h.turn with ⟨-, heq⟩ | ⟨seat, -, -, heq⟩ <;> rw [heq] at hcarries ⊢
  · refine launched_goes hcarries hm.street ?_
    rw [hp]
    exact List.mem_singleton_self _
  · refine launched_stays hcarries hm.phase hm.street ?_
    intro _
    have hsame : (g.giveTurn seat).tally = g.tally := tally_congr rfl rfl fun _ => ⟨rfl, rfl, rfl⟩
    rw [hsame]
    exact hm.tally_lt

end PokerHand.Hand
