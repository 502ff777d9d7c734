import PokerHand.Hand.Flow
import PokerHand.Proofs.Betting.Order
import PokerHand.Proofs.Chips.Layers
import PokerHand.Proofs.Gate.Tasks
import PokerHand.Proofs.Table

/-!
# How far a hand has come

`Entering` says what holds of a hand that has just entered a phase, `Resting` what holds of one
that rests there. Both name the cards that are dealt, what each seat has paid and still owes, and
what the pots hold. How the hand goes on does not depend on how its chips are counted; what it says
of chips is said for chips that are counted exactly.
-/
namespace PokerHand

namespace Setup

/-- How many cards the players hold together. -/
def holeCards (s : Setup) : Nat := s.terms.holeCount * s.players.length

/-- How many cards are dealt once a street is open. -/
def dealtBy (s : Setup) : Street → Nat
  | .preflop => s.holeCards
  | .flop => s.holeCards + (s.terms.burnCount + 3)
  | .turn => s.holeCards + (2 * s.terms.burnCount + 4)
  | .river => s.holeCards + (3 * s.terms.burnCount + 5)

/-- A street takes its cards after those of the street before it. -/
theorem dealtBy_next {s : Setup} {last street : Street} (h : last.next? = some street) :
    s.dealtBy last + s.terms.burnCount + street.boardCards = s.dealtBy street := by
  cases last <;> simp only [Street.next?, Option.some.injEq, reduceCtorEq] at h <;> subst h <;>
    simp only [dealtBy, Street.boardCards] <;> omega

theorem dealtBy_le {s : Setup} (hdeck : s.Stocked) (street : Street) :
    s.dealtBy street ≤ s.terms.deck.length := by
  have hcomm := Nat.mul_comm s.terms.holeCount s.players.length
  unfold Stocked Terms.cardsTaken at hdeck
  cases street <;> simp only [dealtBy, holeCards] <;> omega

end Setup

namespace Seat

/-- No chip of the seat has moved. -/
def Untouched (s : Seat) : Prop := s.wager = 0 ∧ s.pot = 0

/-- Once it has paid `dues` the seat has paid the ante and nothing else. -/
def OwesAnte (t : Terms) (dues : List Int) (s : Seat) : Prop :=
  s.wager = 0 ∧ leftAfter s.stack dues = t.afterAnte s.bankroll

/-- Once it has paid `dues` the seat has paid the ante and its blinds and nothing else. -/
def OwesBlinds (t : Terms) (dues : List Int) (s : Seat) : Prop :=
  s.pot = s.bankroll - t.afterAnte s.bankroll ∧ leftAfter s.stack dues = t.afterBlinds s.entry

end Seat

namespace Hand

/-- Nobody has acted in the round. -/
def Unacted (h : Hand) : Prop := ∀ s ∈ h.seats, s.acted = false

/-- Nobody has more in the pot than the seat. -/
def Tops (h : Hand) (s : Seat) : Prop := ∀ r ∈ h.seats, r.pot ≤ s.pot

/-- Whoever can still act has as much in the pot as anybody. -/
def Level (h : Hand) : Prop := ∀ s ∈ h.seats, s.isMovable = true → h.Tops s

/-- Somebody who has not folded has as much in the pot as anybody. -/
def Led (h : Hand) : Prop := ∃ s ∈ h.seats, s.folded = false ∧ h.Tops s

/-- The wager to match is the highest one on the table. -/
structure Highest (h : Hand) : Prop where
  wager_le : ∀ s ∈ h.seats, s.wager ≤ h.wager
  exists_wager : ∃ s ∈ h.seats, s.wager = h.wager

/-- No seat exceeds the wager to match, one of the leading seats has matched it, and the last raise
is a full one. -/
structure Staked (setup : Setup) (h : Hand) : Prop where
  wager_le : ∀ s ∈ h.seats, s.wager ≤ h.wager
  minBet_le : h.minBet ≤ h.raiseSize
  raiseSize_le : h.raiseSize ≤ 3 * setup.bankrolls + h.minBet
  level : h.Level
  leader : ∃ s ∈ h.seats, s.folded = false ∧ s.wager = h.wager ∧ h.Tops s

/-- What stays as it is while a street is played. -/
def frame (h : Hand) : Terms × Int × Option Street × Nat := (h.terms, h.minBet, h.street, h.dealt)

/-- What a hand says of its stakes apart from its seats. -/
def ledger (h : Hand) : (Terms × Int × Option Street × Nat) × List SidePot × Int × Int :=
  (h.frame, h.pots, h.wager, h.raiseSize)

section Changes

variable {h h' : Hand} {f : Seat → Seat}

theorem terms_of_frame (hframe : h'.frame = h.frame) : h'.terms = h.terms :=
  congrArg (·.1) hframe

theorem unfolded_map (hseats : h'.seats = h.seats.map f)
    (hf : ∀ s ∈ h.seats, (f s).folded = s.folded) : h'.unfolded = h.unfolded := by
  rw [unfolded, unfolded, hseats, List.countP_map]
  exact List.countP_congr fun s hs => by simp [hf s hs]

theorem unfolded_eq_length (hf : ∀ s ∈ h.seats, s.folded = false) :
    h.unfolded = h.seats.length :=
  List.countP_eq_length.2 fun s hs => by simp [hf s hs]

theorem Unacted.map (hu : h.Unacted) (hseats : h'.seats = h.seats.map f)
    (hf : ∀ s, (f s).acted = s.acted) : h'.Unacted := by
  rw [Unacted, hseats]
  intro s hs
  obtain ⟨r, hr, rfl⟩ := List.mem_map.1 hs
  exact (hf r).trans (hu r hr)

theorem Tops.map {s : Seat} (ht : h.Tops s) (hseats : h'.seats = h.seats.map f)
    (hf : ∀ r ∈ h.seats, (f r).pot = r.pot) (hs : s ∈ h.seats) : h'.Tops (f s) := by
  rw [Tops, hseats]
  intro r' hr'
  obtain ⟨r, hr, rfl⟩ := List.mem_map.1 hr'
  rw [hf r hr, hf s hs]
  exact ht r hr

/-- Seats that can act no longer do not matter. -/
theorem Level.map (hl : h.Level) (hseats : h'.seats = h.seats.map f)
    (hf : ∀ s ∈ h.seats, (f s).pot = s.pot)
    (hmovable : ∀ s ∈ h.seats, (f s).isMovable = true → s.isMovable = true) : h'.Level := by
  rw [Level, hseats]
  intro s' hs' hact
  obtain ⟨s, hs, rfl⟩ := List.mem_map.1 hs'
  exact (hl s hs (hmovable s hs hact)).map hseats hf hs

theorem Led.map (hl : h.Led) (hseats : h'.seats = h.seats.map f)
    (hf : ∀ s ∈ h.seats, (f s).pot = s.pot ∧ (f s).folded = s.folded) : h'.Led := by
  obtain ⟨s, hs, hfolded, htops⟩ := hl
  refine ⟨f s, hseats ▸ List.mem_map_of_mem hs, (hf s hs).2.trans hfolded, ?_⟩
  exact htops.map hseats (fun r hr => (hf r hr).1) hs

theorem Highest.map (hh : h.Highest) (hwager : h'.wager = h.wager)
    (hseats : h'.seats = h.seats.map f) (hf : ∀ s ∈ h.seats, (f s).wager = s.wager) :
    h'.Highest := by
  refine ⟨?_, ?_⟩
  · rw [hseats, hwager]
    intro s' hs'
    obtain ⟨s, hs, rfl⟩ := List.mem_map.1 hs'
    exact hf s hs ▸ hh.wager_le s hs
  · obtain ⟨s, hs, htop⟩ := hh.exists_wager
    exact ⟨f s, hseats ▸ List.mem_map_of_mem hs, (hf s hs).trans (htop.trans hwager.symm)⟩

theorem exists_tops (hne : h.seats ≠ []) : ∃ s ∈ h.seats, h.Tops s := by
  obtain ⟨s, hs, -, htops⟩ := exists_max_pot hne
  exact ⟨s, hs, htops⟩

end Changes

variable [Counting]

/-- The layers of the pot hold what the seats have in it. -/
def PotsCounted (h : Hand) : Prop := h.potTotal = (h.seats.map Seat.pot).sum

/-- The table of the setup with a street open and so many cards dealt. -/
structure Scene (setup : Setup) (street : Option Street) (dealt : Nat) (h : Hand) : Prop where
  table : Table setup h
  minBet : h.minBet = setup.terms.minBet
  street : h.street = street
  dealt : h.dealt = dealt

/-- Nobody has bet or folded. -/
structure Before (setup : Setup) (street : Option Street) (dealt : Nat) (P : Seat → Prop)
    (h : Hand) : Prop where
  scene : h.Scene setup street dealt
  seats : ∀ s ∈ h.seats, s.folded = false ∧ ([setup.Counted] → P s)

/-- The stakes are not even fixed. -/
structure Undealt (setup : Setup) (h : Hand) : Prop where
  table : Table setup h
  street : h.street = none
  dealt : h.dealt = 0
  counted : [setup.Counted] → h.PotsCounted
  seats : ∀ s ∈ h.seats, s.folded = false ∧ s.Untouched

/-- The first street is open, nobody has bet, and the pots are counted. -/
structure Preflop (setup : Setup) (P : Seat → Prop) (h : Hand) : Prop where
  before : h.Before setup (some .preflop) setup.holeCards P
  counted : [setup.Counted] → h.PotsCounted
  raiseSize : h.raiseSize = h.minBet
  unacted : h.Unacted

/-- Everybody is asked for readiness, before the deal or before the first betting round. -/
def Readying (setup : Setup) (h : Hand) : Prop :=
  (h.Before setup none 0 Seat.Untouched ∧ ([setup.Counted] → h.PotsCounted)) ∨
    (h.Preflop setup (Seat.OwesBlinds setup.terms []) ∧ ([setup.Counted] → h.Highest))

structure OnStreet (setup : Setup) (street : Street) (h : Hand) : Prop where
  scene : h.Scene setup (some street) (setup.dealtBy street)
  counted : [setup.Counted] → h.PotsCounted

/-- A betting round is over and another may follow. -/
structure Between (setup : Setup) (street : Street) (h : Hand) : Prop where
  onStreet : h.OnStreet setup street
  two_le_unfolded : 2 ≤ h.unfolded
  wager_eq_zero : ∀ s ∈ h.seats, s.wager = 0
  level : [setup.Counted] → h.Level
  led : [setup.Counted] → h.Led

/-- A betting round is on. -/
structure InRound (setup : Setup) (h : Hand) : Prop where
  onStreet : ∃ street, h.OnStreet setup street
  one_le_unfolded : 1 ≤ h.unfolded
  staked : [setup.Counted] → h.Staked setup

/-- The betting of a round is over, and the wagers still lie on the table. -/
structure Closed (setup : Setup) (h : Hand) : Prop where
  inRound : h.InRound setup
  finished : [setup.Counted] → Turn.Finished h.seats h.wager

/-- A betting round has come to its end. -/
structure Closing (setup : Setup) (h : Hand) : Prop where
  onStreet : ∃ street, h.OnStreet setup street
  one_le_unfolded : 1 ≤ h.unfolded

/-- The betting is over for good. -/
structure Over (setup : Setup) (h : Hand) : Prop where
  closing : h.Closing setup
  wager_eq_zero : ∀ s ∈ h.seats, s.wager = 0
  led : [setup.Counted] → h.Led

/-- The result pays out the pots as they are to the hands as they are. -/
structure Settled (setup : Setup) (h : Hand) : Prop where
  finished : h.Over setup
  pots : h.pots = h.contributions.pots
  made : ∀ s ∈ h.seats, s.made = h.madeBy s
  result : ∃ r, h.result = some r ∧ Payout.settle h.pots h.entrants = .ok r

/-- What holds of a hand that has just entered its phase. -/
def Entering (setup : Setup) (h : Hand) : Prop :=
  match h.phase with
  | .started | .initialized => h.Undealt setup
  | .prepared => h.Before setup none 0 Seat.Untouched ∧ ([setup.Counted] → h.PotsCounted)
  | .anteRequested => h.Before setup none setup.holeCards Seat.Untouched
  | .antePaid => h.Before setup none setup.holeCards (Seat.OwesAnte setup.terms [])
  | .entered .preflop =>
      h.Before setup none setup.holeCards (Seat.OwesAnte setup.terms []) ∧
        ([setup.Counted] → h.PotsCounted)
  | .entered street => ∃ last, last.next? = some street ∧ h.Between setup last
  | .roundInitialized =>
      (h.Before setup (some .preflop) setup.holeCards (Seat.OwesAnte setup.terms []) ∧
        ([setup.Counted] → h.PotsCounted)) ∨
      ∃ street, street ≠ .preflop ∧ h.Between setup street
  | .blindsRequested => h.Preflop setup (Seat.OwesAnte setup.terms [])
  | .blindsPaid => h.Preflop setup (Seat.OwesBlinds setup.terms [])
  | .readyRequested | .readiness => h.Readying setup
  | .roundPrepared | .roundStarted => h.InRound setup ∧ h.Unacted
  | .roundClosed => h.Closed setup
  | .gameCompleted | .settlementRequested => h.Over setup
  | .settlementCompleted | .gameClosed => h.Settled setup

/-- What a gate waits for and what the seats that it has heard have paid. -/
def Collecting (setup : Setup) (h : Hand) : Prop :=
  match h.phase with
  | .readyRequested => (∀ t ∈ h.tasks, t.isPayment = false) ∧ h.Readying setup
  | .anteRequested =>
      (∀ t ∈ h.tasks, t.due = .ante) ∧
        h.Before setup none setup.holeCards fun s =>
          s.OwesAnte setup.terms (Queue.duesOf h.tasks s.number)
  | .blindsRequested =>
      (∀ t ∈ h.tasks, t.due ≠ .ante) ∧
        h.Preflop setup fun s => s.OwesBlinds setup.terms (Queue.duesOf h.tasks s.number)
  | _ => False

theorem collecting_ready {setup : Setup} {h : Hand} (hp : h.phase = .readyRequested) :
    h.Collecting setup ↔ (∀ t ∈ h.tasks, t.isPayment = false) ∧ h.Readying setup := by
  rw [Collecting, hp]

theorem collecting_ante {setup : Setup} {h : Hand} (hp : h.phase = .anteRequested) :
    h.Collecting setup ↔ (∀ t ∈ h.tasks, t.due = .ante) ∧
      h.Before setup none setup.holeCards fun s =>
        s.OwesAnte setup.terms (Queue.duesOf h.tasks s.number) := by
  rw [Collecting, hp]

theorem collecting_blinds {setup : Setup} {h : Hand} (hp : h.phase = .blindsRequested) :
    h.Collecting setup ↔ (∀ t ∈ h.tasks, t.due ≠ .ante) ∧
      h.Preflop setup fun s => s.OwesBlinds setup.terms (Queue.duesOf h.tasks s.number) := by
  rw [Collecting, hp]

theorem Collecting.isGate {setup : Setup} {h : Hand} (hc : h.Collecting setup) :
    h.phase = .readyRequested ∨ h.phase = .anteRequested ∨ h.phase = .blindsRequested := by
  unfold Collecting at hc
  split at hc <;> simp_all

theorem Collecting.table {setup : Setup} {h : Hand} (hc : h.Collecting setup) : Table setup h := by
  rcases hc.isGate with hp | hp | hp
  · rcases ((collecting_ready hp).1 hc).2 with ⟨hb, -⟩ | ⟨hpre, -⟩
    · exact hb.scene.table
    · exact hpre.before.scene.table
  · exact ((collecting_ante hp).1 hc).2.scene.table
  · exact ((collecting_blinds hp).1 hc).2.before.scene.table

/-- Nobody has folded at a gate. -/
theorem Collecting.folded {setup : Setup} {h : Hand} {s : Seat} (hc : h.Collecting setup)
    (hs : s ∈ h.seats) : s.folded = false := by
  rcases hc.isGate with hp | hp | hp
  · rcases ((collecting_ready hp).1 hc).2 with ⟨hb, -⟩ | ⟨hpre, -⟩
    · exact (hb.seats s hs).1
    · exact (hpre.before.seats s hs).1
  · exact (((collecting_ante hp).1 hc).2.seats s hs).1
  · exact (((collecting_blinds hp).1 hc).2.before.seats s hs).1

theorem InRound.table {setup : Setup} {h : Hand} (hr : h.InRound setup) : Table setup h := by
  obtain ⟨street, ho⟩ := hr.onStreet
  exact ho.scene.table

theorem Settled.table {setup : Setup} {h : Hand} (hs : h.Settled setup) : Table setup h := by
  obtain ⟨street, ho⟩ := hs.finished.closing.onStreet
  exact ho.scene.table

/-- A gate with its tasks in order. -/
structure Gated (setup : Setup) (h : Hand) : Prop where
  collecting : h.Collecting setup
  proper : ∀ t ∈ h.tasks, t.Proper h.seats.length
  fair : [setup.Counted] → ∀ t ∈ h.tasks, t.Fair

/-- The hand rests at a gate that still waits for somebody. -/
structure AtGate (setup : Setup) (h : Hand) : Prop where
  gated : h.Gated setup
  waiting : Queue.Waiting h.tasks
  offers : ∀ s ∈ h.seats, s.allowed = gateOffer h.tasks s

/-- The hand rests at the turn of a seat that can act and has something to decide; in the order of
play nobody who still has to decide comes after somebody who is done. -/
structure AtTurn (setup : Setup) (h : Hand) : Prop where
  inRound : h.InRound setup
  two_le_unfolded : 2 ≤ h.unfolded
  offers : ∀ s ∈ h.seats, s.allowed = if s.number = h.turn then h.stakes.offers s else []
  turn_lt : h.turn < h.seats.length
  movable : ∀ s ∈ h.seats, s.number = h.turn → s.isMovable = true
  undone : ∀ s ∈ h.seats, s.number = h.turn → ¬ s.Done h.wager
  paced : [setup.Counted] → Turn.Paced h.wager (h.seats.rotate h.turn)

/-- Nobody is offered anything. -/
def Silent (h : Hand) : Prop := ∀ s ∈ h.seats, s.allowed = []

/-- What holds of a hand between two calls. -/
def Resting (setup : Setup) (h : Hand) : Prop :=
  match h.phase with
  | .started => h.Undealt setup ∧ h.Silent
  | .readyRequested | .anteRequested | .blindsRequested => h.AtGate setup
  | .roundStarted => h.AtTurn setup
  | .roundClosed => (∃ street, street ≠ .river ∧ h.Between setup street) ∧ h.Silent
  | .gameClosed => h.Settled setup ∧ h.Silent
  | _ => False

/-! Changes that keep what has been said. -/

variable {setup : Setup} {h h' : Hand} {f : Seat → Seat} {P Q : Seat → Prop}
  {street : Option Street} {dealt : Nat}

theorem PotsCounted.map (hc : h.PotsCounted) (hpots : h'.pots = h.pots)
    (hseats : h'.seats = h.seats.map f) (hf : ∀ s ∈ h.seats, (f s).pot = s.pot) :
    h'.PotsCounted := by
  have hsum : h'.seats.map Seat.pot = h.seats.map Seat.pot := by
    rw [hseats, List.map_map]
    exact List.map_congr_left hf
  simpa only [PotsCounted, potTotal, hpots, hsum] using hc

theorem Scene.of_frame (hs : h.Scene setup street dealt) (hframe : h'.frame = h.frame)
    (ht : Table setup h') : h'.Scene setup street dealt := by
  simp only [frame, Prod.mk.injEq] at hframe
  obtain ⟨-, hminBet, hstreet, hdealt⟩ := hframe
  exact ⟨ht, hminBet.trans hs.minBet, hstreet.trans hs.street, hdealt.trans hs.dealt⟩

theorem Scene.alike (hs : h.Scene setup street dealt) (hframe : h'.frame = h.frame)
    (hseats : h'.seats = h.seats.map f) (hf : ∀ s, Seat.Alike s (f s)) :
    h'.Scene setup street dealt :=
  hs.of_frame hframe (hs.table.alike (terms_of_frame hframe) hseats hf)

theorem Before.alike (hb : h.Before setup street dealt P) (hframe : h'.frame = h.frame)
    (hseats : h'.seats = h.seats.map f) (hf : ∀ s, Seat.Alike s (f s))
    (hP : ∀ s ∈ h.seats, P s → Q (f s)) : h'.Before setup street dealt Q where
  scene := hb.scene.alike hframe hseats hf
  seats := by
    rw [hseats]
    intro s hs
    obtain ⟨r, hr, rfl⟩ := List.mem_map.1 hs
    obtain ⟨hfolded, hp⟩ := hb.seats r hr
    exact ⟨(hf r).folded.trans hfolded, hP r hr hp⟩

end Hand

namespace Seat

variable {setup : Setup} {t : Terms} {s s' : Seat} {dues : List Int}

theorem Untouched.alike (hu : s.Untouched) (ha : s.Alike s') : s'.Untouched :=
  ⟨ha.wager.trans hu.1, ha.pot.trans hu.2⟩

theorem OwesAnte.alike (ho : s.OwesAnte t dues) (ha : s.Alike s') : s'.OwesAnte t dues := by
  rw [OwesAnte, ha.wager, ha.stack, ha.bankroll]
  exact ho

theorem OwesAnte.stack_nonneg (ho : s.OwesAnte t []) : 0 ≤ s.stack := by
  have hstack : s.stack = t.afterAnte s.bankroll := ho.2
  rw [hstack]
  exact t.afterAnte_nonneg s.bankroll

/-- Once the ante is in the pot the blinds are due from what it left. -/
theorem OwesAnte.owesBlinds (ho : s.OwesAnte setup.terms []) (hs : s.Sound setup) :
    s.OwesBlinds setup.terms
      ((setup.terms.blindsOf s.positions).map fun blind => min blind s.stack) := by
  have hbalanced := hs.balanced
  obtain ⟨hwager, hstack⟩ := ho
  rw [leftAfter_nil] at hstack
  refine ⟨by omega, ?_⟩
  rw [hstack]
  rfl

/-- Whoever posts nothing but the big blind posts it as far as the stack goes. -/
theorem OwesAnte.postBig [Counting] [setup.Counted] (ho : s.OwesAnte setup.terms [])
    (hs : s.Sound setup) (hblinds : setup.terms.blindsOf s.positions = [setup.terms.blinds.big])
    (hbig : 0 < setup.terms.blinds.big) :
    (s.putIn (min setup.terms.blinds.big s.stack)).Sound setup ∧
      (s.putIn (min setup.terms.blinds.big s.stack)).OwesBlinds setup.terms [] := by
  have hstack := ho.stack_nonneg
  have hchips : 0 ≤ min setup.terms.blinds.big s.stack := by omega
  have hcovered : min 0 (setup.terms.afterBlinds s.entry) ≤
      s.stack - min setup.terms.blinds.big s.stack := by omega
  obtain ⟨hpot, hleft⟩ := ho.owesBlinds hs
  refine ⟨hs.putIn hchips hcovered, ?_⟩
  rw [hblinds, List.map_singleton] at hleft
  rw [hs.putIn_eq hchips hcovered]
  refine ⟨hpot, ?_⟩
  have hentry : ∀ stack wager, ({ s with stack := stack, wager := wager } : Seat).entry = s.entry :=
    fun _ _ => rfl
  rw [leftAfter_nil, hentry, ← hleft]
  simp only [leftAfter]
  split <;> omega

theorem OwesBlinds.alike (ho : s.OwesBlinds t dues) (ha : s.Alike s') : s'.OwesBlinds t dues := by
  rw [OwesBlinds, ha.pot, ha.stack, ha.bankroll, ha.entry]
  exact ho

theorem OwesBlinds.pot_le_ante (ho : s.OwesBlinds t dues) : s.pot ≤ t.ante := by
  have hpot := ho.1
  unfold Terms.afterAnte at hpot
  omega

/-- Whoever has chips left to bet with has paid the whole ante. -/
theorem OwesBlinds.pot_eq_ante (ho : s.OwesBlinds setup.terms []) (hs : s.Sound setup)
    (hlive : 0 < s.stack ∨ 0 < s.wager) : s.pot = setup.terms.ante := by
  obtain ⟨hpot, hstack⟩ := ho
  have hbalanced := hs.balanced
  have hnonneg := setup.terms.afterAnte_nonneg s.bankroll
  rw [leftAfter_nil] at hstack
  by_cases hbroke : setup.terms.afterAnte s.bankroll = 0
  · have hzero : setup.terms.afterBlinds s.entry = 0 := by
      have hentry : s.entry.bankroll = s.bankroll := rfl
      rw [Terms.afterBlinds, hentry, hbroke]
      exact leftAfter_zero _
    omega
  · unfold Terms.afterAnte at hpot hbroke
    omega

end Seat

namespace Hand

/-! A hand whose seats are alike and whose ledger is the same stands where it stood. -/

variable {setup : Setup} {h h' : Hand} {f : Seat → Seat} {P Q : Seat → Prop}

theorem Staked.alike (hc : h.Staked setup) (hledger : h'.ledger = h.ledger)
    (hseats : h'.seats = h.seats.map f) (hf : ∀ s, Seat.Alike s (f s)) : h'.Staked setup := by
  have hwager : h'.wager = h.wager := congrArg (·.2.2.1) hledger
  have hminBet : h'.minBet = h.minBet := congrArg (·.1.2.1) hledger
  have hraiseSize : h'.raiseSize = h.raiseSize := congrArg (·.2.2.2) hledger
  refine ⟨?_, ?_, ?_, ?_, ?_⟩
  · intro s hs
    rw [hseats] at hs
    obtain ⟨r, hmem, rfl⟩ := List.mem_map.1 hs
    rw [(hf r).wager, hwager]
    exact hc.wager_le r hmem
  · rw [hminBet, hraiseSize]
    exact hc.minBet_le
  · rw [hminBet, hraiseSize]
    exact hc.raiseSize_le
  · exact hc.level.map hseats (fun s _ => (hf s).pot) fun s _ hact => (hf s).isMovable ▸ hact
  · obtain ⟨s, hs, hfolded, hmatched, htops⟩ := hc.leader
    refine ⟨f s, hseats ▸ List.mem_map_of_mem hs, (hf s).folded.trans hfolded, ?_, ?_⟩
    · rw [(hf s).wager, hwager, hmatched]
    · exact htops.map hseats (fun r _ => (hf r).pot) hs

variable [Counting]

theorem OnStreet.alike {street : Street} (ho : h.OnStreet setup street)
    (hledger : h'.ledger = h.ledger)
    (hseats : h'.seats = h.seats.map f) (hf : ∀ s, Seat.Alike s (f s)) : h'.OnStreet setup street :=
  ⟨ho.scene.alike (congrArg (·.1) hledger) hseats hf,
    ho.counted.map (congrArg (·.2.1) hledger) hseats fun s _ => (hf s).pot⟩

theorem Preflop.alike (hp : h.Preflop setup P) (hledger : h'.ledger = h.ledger)
    (hseats : h'.seats = h.seats.map f) (hf : ∀ s, Seat.Alike s (f s))
    (hacted : ∀ s, (f s).acted = s.acted) (hP : ∀ s ∈ h.seats, P s → Q (f s)) :
    h'.Preflop setup Q where
  before := hp.before.alike (congrArg (·.1) hledger) hseats hf hP
  counted := hp.counted.map (congrArg (·.2.1) hledger) hseats fun s _ => (hf s).pot
  raiseSize :=
    (congrArg (·.2.2.2) hledger).trans <| hp.raiseSize.trans (congrArg (·.1.2.1) hledger).symm
  unacted := hp.unacted.map hseats hacted

/-- Whoever leads the pot reaches every layer of it. -/
theorem reaching_ne_nil (hasc : (h.seats.map Seat.number).Pairwise (· < ·)) (hled : h.Led)
    {p : SidePot} (hp : p ∈ h.contributions.pots) : h.reaching p.level ≠ [] := by
  obtain ⟨r, hr, hlevel⟩ := exists_pot_of_mem_pots hasc hp
  obtain ⟨s, hs, hlive, htops⟩ := hled
  refine List.ne_nil_of_mem (a := s) (List.mem_filter.2 ⟨hs, ?_⟩)
  simpa [hlive] using hlevel ▸ htops r hr

/-- Before the first betting round nobody with chips to bet with is short of the ante. -/
theorem Preflop.tops [setup.Counted] (hp : h.Preflop setup (Seat.OwesBlinds setup.terms []))
    {s : Seat} (hs : s ∈ h.seats) (hlive : 0 < s.stack ∨ 0 < s.wager) : h.Tops s := by
  have hpot := (hp.before.seats s hs).2.pot_eq_ante (hp.before.scene.table.sound s hs) hlive
  intro r hr
  rw [hpot]
  exact (hp.before.seats r hr).2.pot_le_ante

theorem Readying.alike (hr : h.Readying setup) (hledger : h'.ledger = h.ledger)
    (hseats : h'.seats = h.seats.map f) (hf : ∀ s, Seat.Alike s (f s))
    (hacted : ∀ s, (f s).acted = s.acted) : h'.Readying setup := by
  rcases hr with ⟨hb, hc⟩ | ⟨hp, hw⟩
  · exact .inl ⟨hb.alike (congrArg (·.1) hledger) hseats hf fun s _ hu => hu.alike (hf s),
      hc.map (congrArg (·.2.1) hledger) hseats fun s _ => (hf s).pot⟩
  · exact .inr ⟨hp.alike hledger hseats hf hacted fun s _ ho => ho.alike (hf s),
      hw.map (congrArg (·.2.2.1) hledger) hseats fun s _ => (hf s).wager⟩

theorem InRound.alike (hr : h.InRound setup) (hledger : h'.ledger = h.ledger)
    (hseats : h'.seats = h.seats.map f) (hf : ∀ s, Seat.Alike s (f s)) :
    h'.InRound setup where
  onStreet := by
    obtain ⟨street, ho⟩ := hr.onStreet
    exact ⟨street, ho.alike hledger hseats hf⟩
  one_le_unfolded := by
    rw [unfolded_map hseats fun s _ => (hf s).folded]
    exact hr.one_le_unfolded
  staked := Staked.alike hr.staked hledger hseats hf

theorem Collecting.alike (hc : h.Collecting setup) (hphase : h'.phase = h.phase)
    (htasks : h'.tasks = h.tasks) (hledger : h'.ledger = h.ledger)
    (hseats : h'.seats = h.seats.map f) (hf : ∀ s, Seat.Alike s (f s))
    (hacted : ∀ s, (f s).acted = s.acted) : h'.Collecting setup := by
  unfold Collecting at hc ⊢
  rw [hphase, htasks]
  split at hc
  · exact ⟨hc.1, hc.2.alike hledger hseats hf hacted⟩
  · refine ⟨hc.1, hc.2.alike (congrArg (·.1) hledger) hseats hf fun s _ ho => ?_⟩
    rw [(hf s).number]
    exact ho.alike (hf s)
  · refine ⟨hc.1, hc.2.alike hledger hseats hf hacted fun s _ ho => ?_⟩
    rw [(hf s).number]
    exact ho.alike (hf s)
  · exact hc

/-- Other tasks keep what a gate collects when they are of the same kinds and leave every seat as
much once it has paid. -/
theorem Collecting.withTasks {tasks : List Task} (hc : h.Collecting setup)
    (hkinds : ∀ t' ∈ tasks, ∃ t ∈ h.tasks, t'.due = t.due ∧ t'.isPayment = t.isPayment)
    (hleft : ∀ s ∈ h.seats, leftAfter s.stack (Queue.duesOf tasks s.number) =
      leftAfter s.stack (Queue.duesOf h.tasks s.number)) :
    { h with tasks := tasks }.Collecting setup := by
  have hsame : h.seats = h.seats.map fun r => r := (List.map_id' _).symm
  generalize hafter : { h with tasks := tasks } = after
  have hphase : after.phase = h.phase := hafter ▸ rfl
  have htasks : after.tasks = tasks := hafter ▸ rfl
  have hledger : after.ledger = h.ledger := hafter ▸ rfl
  have hseats : after.seats = h.seats.map fun r => r := hafter ▸ hsame
  unfold Collecting at hc ⊢
  rw [hphase, htasks]
  split at hc
  · refine ⟨fun t' ht' => ?_, hc.2.alike hledger hseats Seat.Alike.refl fun _ => rfl⟩
    obtain ⟨t, ht, -, hpayment⟩ := hkinds t' ht'
    exact hpayment.trans (hc.1 t ht)
  · refine ⟨fun t' ht' => ?_, hc.2.alike (congrArg (·.1) hledger) hseats Seat.Alike.refl ?_⟩
    · obtain ⟨t, ht, hdue, -⟩ := hkinds t' ht'
      exact hdue.trans (hc.1 t ht)
    · exact fun s hs ho => ⟨ho.1, (hleft s hs).trans ho.2⟩
  · refine ⟨fun t' ht' => ?_, hc.2.alike hledger hseats Seat.Alike.refl (fun _ => rfl) ?_⟩
    · obtain ⟨t, ht, hdue, -⟩ := hkinds t' ht'
      exact hdue ▸ hc.1 t ht
    · exact fun s hs ho => ⟨ho.1, (hleft s hs).trans ho.2⟩
  · exact hc

end Hand

end PokerHand
