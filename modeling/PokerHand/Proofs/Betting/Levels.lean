import PokerHand.Proofs.Course

/-!
# The level of the betting

`Lifts` says what a bid does to the wager to match: it leaves it, or lifts it by at least the last
full raise and makes everybody act again, or lifts it by less with the last chips of the seat.
`Wagered` is what a betting round goes by besides: whoever has wagered in it came into it with as
much in the pot as anybody, and until somebody has wagered the least raise is the least bet. It
holds all along the betting (`chronicle_wagered`).
-/
namespace PokerHand

/-- The phases of a betting round. -/
def Phase.betting : List Phase := [roundPrepared, roundStarted, roundClosed]

/-- What leads to the betting: readiness with a street open, or a later street. -/
theorem Phase.before_betting {street : Option Street} {phase next : Phase}
    (hn : some next ∈ phase.successors street) (hmem : next ∈ betting) :
    phase = readiness ∧ street ≠ none ∨ phase = roundInitialized ∧ street ≠ some .preflop ∨
      phase = roundPrepared ∨ phase = roundStarted := by
  cases phase <;> grind [successors, betting]

theorem Phase.exits_betting {street : Option Street} {phase next : Phase}
    (hn : next ∈ phase.exits street) (hmem : next ∈ betting) : phase = roundStarted := by
  cases phase <;> grind [exits, betting]

namespace Hand

variable {setup : Setup} {h g : Hand} {s : Seat} {f : Seat → Seat} {place : Nat} {move : Move}

/-! What a move leaves as it is. -/

/-- What a move of the seat numbered `place` leaves as it is: all that lies in the pot, and the
wagers of the others. Nobody who has folded comes back. -/
structure Spares (h g : Hand) (place : Nat) (f : Seat → Seat) : Prop where
  seats : g.seats = h.seats.map f
  pots : g.pots = h.pots
  minBet : g.minBet = h.minBet
  number : ∀ r, (f r).number = r.number
  pot : ∀ r, (f r).pot = r.pot
  folded : ∀ r, r.folded = true → (f r).folded = true
  wager : ∀ r, r.number ≠ place → (f r).wager = r.wager

theorem Spares.alike {k : Hand} {f' : Seat → Seat} (hs : Spares h g place f)
    (hpots : k.pots = g.pots) (hminBet : k.minBet = g.minBet) (hseats : k.seats = g.seats.map f')
    (hf : ∀ r, Seat.Alike r (f' r)) : Spares h k place fun r => f' (f r) where
  seats := by
    rw [hseats, hs.seats, List.map_map]
    rfl
  pots := hpots.trans hs.pots
  minBet := hminBet.trans hs.minBet
  number := fun r => (hf _).number.trans (hs.number r)
  pot := fun r => (hf _).pot.trans (hs.pot r)
  folded := fun r hfolded => (hf _).folded.trans (hs.folded r hfolded)
  wager := fun r hne => (hf _).wager.trans (hs.wager r hne)

/-! What a move does to the wager to match. -/

/-- What a bid of the seat numbered `place` does to the wager to match. -/
inductive Lifts (h : Hand) (place : Nat) (g : Hand) : Prop where
  /-- The wager stays, and the last full raise with it. -/
  | kept (hwager : g.wager = h.wager) (hsize : g.raiseSize = h.raiseSize)
      (hraiser : g.raiser = h.raiser)
  /-- The wager grows by a full raise, and all others who can still act have to act again. -/
  | full (hgrows : h.raiseSize ≤ g.wager - h.wager) (hsize : g.raiseSize = g.wager - h.wager)
      (hraiser : g.raiser = place)
      (hreopens : ∀ r ∈ g.seats, r.number ≠ place → r.isMovable = true → r.acted = false)
  /-- The wager grows by less, and the seat has nothing left. -/
  | short (hgrows : h.wager < g.wager) (hless : g.wager - h.wager < h.raiseSize)
      (hsize : g.raiseSize = h.raiseSize) (hraiser : g.raiser = h.raiser)
      (hspent : ∃ r, g.seats[place]? = some r ∧ r.stack = 0)

/-- What a hand says of the wager to match. -/
def bar (h : Hand) : Int × Int × Nat := (h.wager, h.raiseSize, h.raiser)

/-- Only the bar, who can act and what the others have done matters. -/
theorem Lifts.map {k : Hand} (hl : h.Lifts place g) (hbar : k.bar = g.bar)
    (hseats : k.seats = g.seats.map f) (hf : ∀ r, Seat.Alike r (f r))
    (hacted : ∀ r, r.number ≠ place → (f r).acted = r.acted) : h.Lifts place k := by
  simp only [bar, Prod.mk.injEq] at hbar
  obtain ⟨hwager', hsize', hraiser'⟩ := hbar
  cases hl with
  | kept hwager hsize hraiser =>
      exact .kept (hwager'.trans hwager) (hsize'.trans hsize) (hraiser'.trans hraiser)
  | full hgrows hsize hraiser hreopens =>
      refine .full (hwager' ▸ hgrows) (by rw [hsize', hsize, hwager']) (hraiser'.trans hraiser) ?_
      rw [hseats, List.forall_mem_map]
      intro r hr hne hmovable
      rw [(hf r).number] at hne
      rw [(hf r).isMovable] at hmovable
      exact (hacted r hne).trans (hreopens r hr hne hmovable)
  | short hgrows hless hsize hraiser hspent =>
      obtain ⟨r, hr, hstack⟩ := hspent
      refine .short (hwager' ▸ hgrows) (hwager' ▸ hless) (hsize'.trans hsize)
        (hraiser'.trans hraiser) ⟨f r, ?_, (hf r).stack.trans hstack⟩
      rw [hseats, List.getElem?_map, hr]
      rfl

/-- The last full raise never gets smaller. -/
theorem Lifts.raiseSize_le (hl : h.Lifts place g) : h.raiseSize ≤ g.raiseSize := by
  cases hl with
  | kept _ hsize _ => exact Int.le_of_eq hsize.symm
  | full hgrows hsize _ _ => exact hsize ▸ hgrows
  | short _ _ hsize _ _ => exact Int.le_of_eq hsize.symm

/-! What a betting round goes by. -/

/-- Whoever has wagered in the round came into it with as much in the pot as anybody, and until
somebody has wagered the least raise is the least bet. -/
structure Wagered (h : Hand) : Prop where
  tops : ∀ s ∈ h.seats, 0 < s.wager → h.Tops s
  unraised : h.wager = 0 → h.raiseSize = h.minBet

theorem Wagered.alike (hw : h.Wagered) (hledger : g.ledger = h.ledger)
    (hseats : g.seats = h.seats.map f) (hf : ∀ s, Seat.Alike s (f s)) : g.Wagered where
  tops := by
    rw [hseats, List.forall_mem_map]
    intro s hs hwager
    rw [(hf s).wager] at hwager
    exact (hw.tops s hs hwager).map hseats (fun r _ => (hf r).pot) hs
  unraised := by
    have hminBet : g.minBet = h.minBet := congrArg (·.1.2.1) hledger
    have hwager : g.wager = h.wager := congrArg (·.2.2.1) hledger
    have hraiseSize : g.raiseSize = h.raiseSize := congrArg (·.2.2.2) hledger
    rw [hminBet, hwager, hraiseSize]
    exact hw.unraised

theorem Wagered.withPhase (hw : h.Wagered) (phase : Phase) : { h with phase := phase }.Wagered :=
  ⟨hw.tops, hw.unraised⟩

variable [Counting]

/-! Moves and bids. -/

theorem spares_bet (h : Hand) (place : Nat) (chips : Int) :
    Spares h (h.mapSeats (betBy place chips)) place (betBy place chips) where
  seats := rfl
  pots := rfl
  minBet := rfl
  number := fun r => (betBy_same place chips r).2.1
  pot := fun r => (betBy_same place chips r).2.2.1
  folded := fun r => (betBy_same place chips r).2.2.2.trans
  wager := fun _ hne => congrArg Seat.wager (betBy_other hne chips)

theorem moved_spares (h : Hand) (place : Nat) (move : Move) :
    ∃ f, Spares h (h.moved place move) place f := by
  have hraise : ∀ chips,
      ∃ f, Spares h ((h.mapSeats (betBy place chips)).raiseTo place) place f := fun chips =>
    ⟨_, (spares_bet h place chips).alike rfl rfl rfl (reopenBy_alike place)⟩
  cases move with
  | fold =>
      refine ⟨foldBy place, rfl, rfl, rfl, fun r => (foldBy_same place r).2.1,
        fun r => (foldBy_same place r).2.2.1, fun r hfolded => ?_,
        fun r _ => (foldBy_same place r).2.2.2.1⟩
      unfold foldBy
      split
      · rfl
      · exact hfolded
  | check =>
      exact ⟨fun r => r, (List.map_id' _).symm, rfl, rfl, fun _ => rfl, fun _ => rfl,
        fun _ hfolded => hfolded, fun _ _ => rfl⟩
  | call chips => exact ⟨_, spares_bet h place chips⟩
  | bet chips | raise chips => exact hraise chips
  | allin chips =>
      simp only [moved, afterAllin]
      split
      · exact ⟨_, spares_bet h place chips⟩
      · split
        · exact hraise chips
        · exact ⟨_, (spares_bet h place chips).alike rfl rfl (List.map_id' _).symm Seat.Alike.refl⟩

theorem settledBy_spares (h : Hand) (place : Nat) (move : Move) (value : Int) :
    ∃ f, Spares h (h.settledBy place move value) place f := by
  obtain ⟨f, hmoved⟩ := moved_spares h place move
  have hacted := hmoved.alike (k := (h.moved place move).mapSeats (actBy place)) rfl rfl rfl
    (actBy_alike place)
  exact ⟨_, hacted.alike rfl rfl rfl (noted_alike place move.action)⟩

/-- To whom the turn passes, and when, does not matter. -/
theorem Lifts.giveTurn (hl : h.Lifts place g) (seat : Nat) (now : Int) :
    h.Lifts place { g.giveTurn seat with updatedAt := now } :=
  hl.map rfl rfl (fun s => s.alike_update _ _ _ _ _) fun _ _ => rfl

section Moves

variable [setup.Counted] (hc : h.Staked setup) (ht : Table setup h) (hs : s ∈ h.seats)

include hc ht hs

theorem lifts_raiseTo {chips : Int} (hpos : 0 ≤ chips) (hle : chips ≤ s.stack)
    (hfull : h.raiseSize ≤ s.wager + chips - h.wager) :
    h.Lifts s.number ((h.mapSeats (betBy s.number chips)).raiseTo s.number) := by
  have hlevel := wagerAt_bet ht hs hpos hle
  obtain ⟨hfit, -, -⟩ := hc.fit_increment ht hs hpos hle
  refine .full ?_ ?_ rfl ?_
  · show h.raiseSize ≤ (h.mapSeats (betBy s.number chips)).wagerAt s.number - h.wager
    rwa [hlevel]
  · show Counting.fit ((h.mapSeats (betBy s.number chips)).wagerAt s.number - h.wager) =
      (h.mapSeats (betBy s.number chips)).wagerAt s.number - h.wager
    rw [hlevel, hfit]
  · intro r' hr' hne hmovable
    obtain ⟨r, -, rfl⟩ := List.mem_map.1 hr'
    have halike := reopenBy_alike s.number r
    have hne : r.number ≠ s.number := fun heq => hne (halike.number.trans heq)
    have hmovable : r.isMovable = true := halike.isMovable.symm.trans hmovable
    show (reopenBy s.number r).acted = false
    simp [reopenBy, hne, hmovable]

theorem moved_lifts (hfits : move.Fits h.stakes s) (hfull : move.Full h.stakes s) :
    h.Lifts s.number (h.moved s.number move) := by
  cases move with
  | fold | check | call chips => exact .kept rfl rfl rfl
  | bet chips | raise chips => exact lifts_raiseTo hc ht hs (Int.le_of_lt hfits.1) hfits.2.1 hfull
  | allin chips =>
      obtain ⟨hpos, hall⟩ := hfits
      have hnonneg := Int.le_of_lt hpos
      have hle := Int.le_of_eq hall
      have hbet := betBy_self_eq ht hs hnonneg hle
      have hlevel := wagerAt_bet ht hs hnonneg hle
      obtain ⟨hfit, -, -⟩ := hc.fit_increment ht hs hnonneg hle
      have hwager : (h.mapSeats (betBy s.number chips)).wager = h.wager := rfl
      have hsize : (h.mapSeats (betBy s.number chips)).raiseSize = h.raiseSize := rfl
      simp only [moved, afterAllin, hlevel, hwager, hsize, hfit]
      split
      · exact .kept rfl rfl rfl
      · split
        · exact lifts_raiseTo hc ht hs hnonneg hle (by omega)
        · refine .short (by simp only; omega) (by simp only; omega) rfl rfl
            ⟨betBy s.number chips s, ?_, ?_⟩
          · show (h.seats.map (betBy s.number chips))[s.number]? = _
            rw [List.getElem?_map, ht.numbered.getElem?_number hs]
            rfl
          · rw [hbet]
            simp only
            omega

theorem settledBy_lifts (hfits : move.Fits h.stakes s) (hfull : move.Full h.stakes s)
    (value : Int) : h.Lifts s.number (h.settledBy s.number move value) := by
  have hacted := (moved_lifts hc ht hs hfits hfull).map
    (k := (h.moved s.number move).mapSeats (actBy s.number)) rfl rfl (actBy_alike s.number)
    fun r hne => congrArg Seat.acted (actBy_other hne)
  exact hacted.map rfl rfl (noted_alike s.number move.action) fun r hne => by rw [if_neg hne]

end Moves

theorem wagered_resetBy {street : Street} (hb : h.Between setup street) (dealer : Nat) :
    (h.resetBy dealer).Wagered := by
  refine ⟨fun s' hs' hwager => ?_, fun _ => rfl⟩
  obtain ⟨s, hs, rfl⟩ := List.mem_map.1 hs'
  have hzero : s.wager = 0 := hb.wager_eq_zero s hs
  have hpos : 0 < s.wager := hwager
  omega

section Counted

variable [setup.Counted]

/-- The wager to match is the wager of a seat, so it is not negative. -/
theorem InRound.wager_nonneg (hr : h.InRound setup) : 0 ≤ h.wager := by
  obtain ⟨s, hs, -, hmatched, -⟩ := (hr.staked).leader
  exact hmatched ▸ (hr.table.sound s hs).wager_nonneg

theorem InRound.raiseSize_pos (hr : h.InRound setup) : 0 < h.raiseSize := by
  obtain ⟨street, ho⟩ := hr.onStreet
  have hpos := setup.terms.minBet_pos
  have hle := (hr.staked).minBet_le
  rw [ho.scene.minBet] at hle
  omega

/-- Only a seat that can act wagers, and those are level when the round begins. -/
theorem Wagered.settledBy (hw : h.Wagered) (hr : h.InRound setup) (hs : s ∈ h.seats)
    (hmovable : s.isMovable = true) (hfits : move.Fits h.stakes s)
    (hfull : move.Full h.stakes s) (value : Int) : (h.settledBy s.number move value).Wagered := by
  have hstaked : h.Staked setup := hr.staked
  have hlifts := settledBy_lifts hstaked hr.table hs hfits hfull value
  obtain ⟨f, hspares⟩ := settledBy_spares h s.number move value
  generalize h.settledBy s.number move value = g at *
  refine ⟨?_, fun hzero => ?_⟩
  · rw [hspares.seats, List.forall_mem_map]
    refine hr.table.numbered.forall_of_self hs (fun _ => ?_) fun r hr' hne hwager => ?_
    · exact (hstaked.level s hs hmovable).map hspares.seats (fun r _ => hspares.pot r) hs
    · rw [hspares.wager r hne] at hwager
      exact (hw.tops r hr' hwager).map hspares.seats (fun r _ => hspares.pot r) hr'
  · have hnonneg := hr.wager_nonneg
    have hpos := hr.raiseSize_pos
    rw [hspares.minBet]
    cases hlifts with
    | kept hwager hsize _ => exact hsize.trans (hw.unraised (hwager.symm.trans hzero))
    | full hgrows _ _ _ => omega
    | short hgrows _ _ _ _ => omega

/-- Passing the turn does not change the wagers. -/
theorem Wagered.passing (hw : h.Wagered) (start : Nat) : (h.passing start).1.Wagered := by
  rcases passing_eq h start with ⟨-, heq⟩ | ⟨seat, -, -, heq⟩ <;> rw [heq]
  · exact hw
  · exact hw.alike rfl rfl fun s => s.alike_update _ _ _ _ _

theorem wagered_readiness (hr : h.Readying setup) (hstreet : h.street ≠ none) : h.Wagered := by
  rcases hr with ⟨hb, -⟩ | ⟨hp, -⟩
  · exact absurd hb.scene.street hstreet
  · exact ⟨fun s hs hwager => hp.tops hs (.inr hwager), fun _ => hp.raiseSize⟩

/-- What a phase of the betting, or one that leads to it, leaves. -/
theorem react_wagered {r : Hand × Option Phase} (he : h.Entering setup)
    (hw : h.phase ∈ Phase.betting → h.Wagered) (hr : h.react = .ok r) :
    Carries (fun g => g.phase ∈ Phase.betting → g.Wagered)
      (fun g => g.phase = .roundStarted → g.Wagered) r := by
  have hstarted : h.phase = .roundStarted → r.1.Wagered := by
    intro hp
    rw [react_eq hp, reaction, Except.ok.injEq] at hr
    have hbetting := hw (by simp [hp, Phase.betting])
    have hcleared : { h with tasks := [] }.Wagered := ⟨hbetting.tops, hbetting.unraised⟩
    exact hr ▸ hcleared.passing h.raiser
  obtain ⟨g, next⟩ := r
  obtain ⟨hphase, -, hnext⟩ := react_leads hr
  cases next with
  | none => exact fun hp => hstarted (hphase.symm.trans hp)
  | some next =>
      refine fun hmem => Wagered.withPhase ?_ next
      rcases Phase.before_betting hnext hmem with
        ⟨hp, hstreet⟩ | ⟨hp, hstreet⟩ | hp | hp
      · rw [Entering, hp] at he
        rw [react_eq hp, reaction, Except.ok.injEq, Prod.mk.injEq] at hr
        exact hr.1 ▸ wagered_readiness he hstreet
      · rw [Entering, hp] at he
        rw [react_eq hp, reaction] at hr
        obtain ⟨dealer, -, hr⟩ := Outcome.ok_of_bind hr
        rcases he with ⟨hb, -⟩ | ⟨street, -, hb⟩
        · exact absurd hb.scene.street hstreet
        · have hreset := wagered_resetBy hb dealer
          have hlater : (h.mapSeats Seat.resetRound).street ≠ some .preflop := hstreet
          simp only [ne_eq, hlater, not_false_eq_true, if_true, Outcome.pure_eq, Except.ok.injEq,
            Prod.mk.injEq] at hr
          exact hr.1 ▸ hreset
      · rw [react_eq hp, reaction, Except.ok.injEq, Prod.mk.injEq] at hr
        have hbetting := hw (by simp [hp, Phase.betting])
        exact hr.1 ▸ hbetting.alike (g := h.refreshMade) rfl rfl
          fun s => s.alike_update _ _ _ _ _
      · exact hstarted hp

/-- What a bid is settled into is full where it has to be. -/
theorem settle_full {call : Call} {b : Bid} (hbid : h.bid? call = some b) (hf : h.Faces setup s)
    (hgrant : h.stakes.Grants s b.action) (hw : h.Wagered) (hsettle : b.settle s = .ok move) :
    move.Full h.stakes s := by
  have hwithin : h.stakes.Within setup.bound s := hf.within
  cases call <;> simp only [bid?, Option.some.injEq, reduceCtorEq] at hbid <;> subst hbid
  case fold place | check place | allin place =>
    obtain rfl := Except.ok.inj hsettle
    trivial
  case call place =>
    obtain rfl := Except.ok.inj hsettle
    exact Stakes.callMove_full h.stakes s
  case bet place chips =>
    exact Stakes.betMove_full (hw.unraised hgrant.2.1) hgrant.2.1 hwithin.wager_nonneg hsettle
  case raise place level => exact Stakes.raiseMove_full hwithin hsettle

theorem launch_wagered {r : Hand × Option Phase} {call : Call} (hr : h.Resting setup)
    (hw : h.phase = .roundStarted → h.Wagered) (hlaunch : h.launch call = .ok r) :
    Carries (fun g => g.phase ∈ Phase.betting → g.Wagered)
      (fun g => g.phase = .roundStarted → g.Wagered) r := by
  have hstarted : h.phase = .roundStarted → r.1.Wagered := by
    intro hp
    rcases hr.launch_cases hlaunch with ⟨hg, -⟩ | ⟨b, g, hbid, hbidden, rfl⟩ | ⟨phase, rfl⟩
    · have hgate := hg.gated.collecting.isGate
      simp [hp] at hgate
    · obtain ⟨s, hs, -, hf, hgrant, move, value, hsettle, hfits, rfl⟩ :=
        hr.exists_settledBy hbid hbidden
      have hfull := settle_full hbid hf hgrant (hw hp) hsettle
      have ht := hf.atTurn
      exact ((hw hp).settledBy ht.inRound hs (ht.movable s hs hf.turn) hfits hfull value).passing _
    · exact hw hp
  have hl := Launched.of_launch hr hlaunch
  obtain ⟨g, next⟩ := r
  cases next with
  | none => exact fun hp => hstarted ((hl.stays rfl).1.symm.trans hp)
  | some next =>
      exact fun hmem => (hstarted (Phase.exits_betting (hl.goes next rfl) hmem)).withPhase next

theorem chronicle_wagered :
    Chronicle setup (fun _ h => h.phase ∈ Phase.betting → h.Wagered)
      (fun _ h => h.phase = .roundStarted → h.Wagered) where
  react := fun he hw hr => react_wagered he hw hr
  launch := fun hr hw hlaunch => launch_wagered hr hw hlaunch
  withTime := fun _ hw hp => ⟨(hw hp).tops, (hw hp).unraised⟩

theorem wagered_of_create {id : String} {now : Int} (hc : create setup id now = .ok h)
    (calls : List (Int × Call)) (hp : (h.play calls).phase = .roundStarted) :
    (h.play calls).Wagered := by
  have hf := fresh_of_create hc
  refine chronicle_wagered.play hf.accepted hf.resting (fun hstarted => ?_) calls hp
  rw [hf.phase] at hstarted
  cases hstarted

end Counted

end Hand

end PokerHand
