import PokerHand.Proofs.Flow.Purses

/-!
# The pot limit

Under the pot limit the last wager and the last raise together are a ceiling for what a seat may
come to with a bet or a raise (`Hand.ceiling`). As long as the chips are counted exactly the one way
past it is a raise by less than the last one: it cannot stand and becomes an all-in, and no limit
applies to an all-in.
-/
namespace PokerHand

namespace Stakes

section Counted

open Counting

variable [Counting] {bound : Int} [Upto bound] {k : Stakes} {s : Seat} {move : Move}
  (hb : k.Within bound s)

include hb

theorem capped_of_pot (hlimit : k.limit = .pot) (level : Int) :
    k.capped level = min level (k.wager + k.raiseSize) := by
  rw [capped, hlimit, hb.fit_least]

/-- A bet stays within the pot limit even if it is made an all-in. -/
theorem betMove_within (hlimit : k.limit = .pot) (hgrant : k.Grants s .bet) {chips : Int}
    (hbet : k.betMove s chips = .ok move) : s.wager + move.chips ≤ k.wager + k.raiseSize := by
  have hwager := hb.wager_le
  obtain ⟨-, hopen, -⟩ := hgrant
  obtain ⟨-, hcases⟩ := betMove_cases hbet
  rw [capped_of_pot hb hlimit] at hcases
  obtain ⟨hcovers, rfl⟩ | ⟨-, -, rfl⟩ := hcases
  · simp only [Move.chips]
    omega
  · simp only [Move.chips]
    omega

/-- A call takes no more than what is missing to the wager. -/
theorem callMove_within : s.wager + (k.callMove s).chips ≤ k.wager := by
  rw [callMove_eq hb]
  split <;> simp only [Move.chips] <;> omega

/-- A raise that is less than the last one is an all-in. -/
theorem raiseMove_short (hlimit : k.limit = .pot) {level : Int} (habove : k.wager < level)
    (hshort : level < k.wager + k.raiseSize) (hraise : k.raiseMove s level = .ok move) :
    move = .allin s.stack := by
  have hcapped : k.capped level = level := by
    rw [capped_of_pot hb hlimit]
    omega
  obtain ⟨-, -, hcases⟩ := raiseMove_cases hb hraise
  rw [hcapped] at hcases
  obtain ⟨heven, -⟩ | ⟨-, ⟨-, hallin⟩ | ⟨-, hfull, -⟩⟩ := hcases
  · omega
  · exact hallin
  · omega

/-- Any other raise stays within the pot limit, whatever it is made. -/
theorem raiseMove_within (hlimit : k.limit = .pot) {level : Int}
    (hfull : ¬ (k.wager < level ∧ level < k.wager + k.raiseSize))
    (hraise : k.raiseMove s level = .ok move) : s.wager + move.chips ≤ k.wager + k.raiseSize := by
  have hwager := hb.wager_le
  have hsize := hb.raiseSize_nonneg
  obtain ⟨-, hlevel, hcases⟩ := raiseMove_cases hb hraise
  rw [capped_of_pot hb hlimit] at hcases
  obtain ⟨-, ⟨-, rfl⟩ | ⟨-, rfl⟩⟩ | ⟨huneven, ⟨hallin, rfl⟩ | ⟨-, -, rfl⟩⟩ := hcases
  · simp only [Move.chips]
    omega
  · have hcall := callMove_within hb
    omega
  · simp only [Move.chips]
    omega
  · simp only [Move.chips]
    omega

/-- A raise is only offered to a seat that has the chips to go above the ceiling. -/
theorem ceiling_lt_of_grants (hgrant : k.Grants s .raise) :
    k.wager + k.raiseSize < s.wager + s.stack := by
  have hwager := hb.wager_le
  rw [grants_raise_iff hb] at hgrant
  omega

end Counted

end Stakes

namespace Hand

section Ceiling

variable {setup : Setup} {h h' g : Hand} {s : Seat} {b : Bid} {call : Call} {place : Nat}

/-- The stack of the seat at a place. -/
def stackAt (h : Hand) (place : Nat) : Int := (h.seats[place]?.map Seat.stack).getD 0

/-- What the seat at a place comes to with its wager in `h` and the chips that have left its stack
since then. -/
def reached (h h' : Hand) (place : Nat) : Int :=
  h.wagerAt place + (h.stackAt place - h'.stackAt place)

/-- The highest wager that the pot limit permits. -/
def ceiling (h : Hand) : Int := h.wager + h.raiseSize

/-! Nothing but a move takes chips from a stack in a betting round. -/

theorem stackAt_map {f : Seat → Seat} (hseats : h'.seats = h.seats.map f)
    (hf : ∀ r, (f r).stack = r.stack) (place : Nat) : h'.stackAt place = h.stackAt place := by
  simp only [stackAt, hseats, List.getElem?_map, Option.map_map, Function.comp_def, hf]

variable [Counting]

/-- From the end of a betting round on no stack changes. -/
theorem stackAt_react {r : Hand × Option Phase} (hrank : h.phase.rank ≤ Phase.roundClosed.rank)
    (hr : h.react = .ok r) : r.1.stackAt place = h.stackAt place := by
  have howing : h.phase.owing h.street = false := by
    cases hp : h.phase <;> simp_all [Phase.rank, Phase.owing]
  have hstack : ∀ k : Hand, k.stackAt place = (k.purses[place]?).getD 0 := fun k => by
    rw [stackAt, purses, List.getElem?_map]
  rw [hstack, hstack, (react_folds_purses hr).2 howing]

theorem Path.stackAt_eq {path : List Hand} (hpath : Path (g, some .roundClosed) path h') :
    h'.stackAt place = g.stackAt place := by
  have hkeeps := hpath.keeps
    (I := fun k => k.phase.rank ≤ Phase.roundClosed.rank ∧ k.stackAt place = g.stackAt place)
    (J := fun k => k.stackAt place = g.stackAt place) (fun k hk r hreact => ?_)
    ⟨Nat.le_refl _, rfl⟩
  · exact hkeeps.2
  · have hstack := (stackAt_react hk.1 hreact).trans hk.2
    obtain ⟨k', next⟩ := r
    cases next with
    | none => exact hstack
    | some phase => exact ⟨(Nat.le_of_lt (react_rank hreact)).trans hk.1, hstack⟩

/-- Passing the turn on takes chips from nobody, even if the round and the hand end with it. -/
theorem stackAt_of_passing {path : List Hand} {start : Nat}
    (hpath : Path (g.passing start) path h') : h'.stackAt place = g.stackAt place := by
  rcases passing_eq g start with ⟨-, heq⟩ | ⟨seat, -, -, heq⟩ <;> rw [heq] at hpath
  · exact hpath.stackAt_eq
  · cases hpath
    refine stackAt_map rfl (fun _ => ?_) place
    rfl

section Counted

variable [setup.Counted]

theorem stackAt_bet (ht : Table setup h) (hs : s ∈ h.seats) {chips : Int} (hpos : 0 ≤ chips)
    (hle : chips ≤ s.stack) :
    (h.mapSeats (betBy s.number chips)).stackAt s.number = s.stack - chips := by
  have hself := betBy_self_eq ht hs hpos hle
  simp [stackAt, mapSeats, ht.numbered.getElem?_number hs, hself]

/-- A move takes its chips from the stack of the seat that makes it. -/
theorem stackAt_moved (ht : Table setup h) (hs : s ∈ h.seats) {move : Move}
    (hfits : move.Fits h.stakes s) :
    (h.moved s.number move).stackAt s.number = s.stack - move.chips := by
  have hstack : h.stackAt s.number = s.stack := by simp [stackAt, ht.numbered.getElem?_number hs]
  have hbet : ∀ chips, 0 < chips → chips ≤ s.stack →
      (h.mapSeats (betBy s.number chips)).stackAt s.number = s.stack - chips :=
    fun chips hpos hle => stackAt_bet ht hs (Int.le_of_lt hpos) hle
  have hraise : ∀ chips, 0 < chips → chips ≤ s.stack →
      ((h.mapSeats (betBy s.number chips)).raiseTo s.number).stackAt s.number = s.stack - chips :=
    fun chips hpos hle =>
      (stackAt_map rfl (fun r => (reopenBy_alike s.number r).stack) s.number).trans
        (hbet chips hpos hle)
  cases move with
  | fold =>
      rw [Move.chips, Int.sub_zero, ← hstack]
      exact stackAt_map rfl (fun r => (foldBy_same s.number r).2.2.2.2) s.number
  | check => rw [Move.chips, Int.sub_zero, ← hstack, moved]
  | call chips => exact hbet chips hfits.1 hfits.2.1
  | bet chips | raise chips => exact hraise chips hfits.1 hfits.2.1
  | allin chips =>
      have hle := Int.le_of_eq hfits.2
      simp only [moved, afterAllin]
      split
      · exact hbet chips hfits.1 hle
      · split
        · exact hraise chips hfits.1 hle
        · exact hbet chips hfits.1 hle

theorem stackAt_settledBy (ht : Table setup h) (hs : s ∈ h.seats) {move : Move}
    (hfits : move.Fits h.stakes s) (value : Int) :
    (h.settledBy s.number move value).stackAt s.number = s.stack - move.chips := by
  have hnoted : (h.settledBy s.number move value).stackAt s.number =
      ((h.moved s.number move).mapSeats (actBy s.number)).stackAt s.number :=
    stackAt_map rfl (fun r => (noted_alike s.number move.action r).stack) s.number
  have hacted : ((h.moved s.number move).mapSeats (actBy s.number)).stackAt s.number =
      (h.moved s.number move).stackAt s.number :=
    stackAt_map rfl (fun r => (actBy_alike s.number r).stack) s.number
  rw [hnoted, hacted, stackAt_moved ht hs hfits]

/-- A successful bid is settled into a move of the seat whose turn it is, and what this seat comes
to is its wager and the chips of the move. -/
theorem Resting.exists_reached (hr : h.Resting setup) (hbid : h.bid? call = some b) {now : Int}
    (hok : (h.perform now call).outcome = .ok h') :
    ∃ s, h.Faces setup s ∧ h.stakes.Grants s b.action ∧
      ∃ move, b.settle s = .ok move ∧ h.reached h' b.place = s.wager + move.chips ∧
        h'.stackAt b.place = s.stack - move.chips := by
  obtain ⟨path, rested, ⟨r, hlaunch, hpath⟩, rfl, -⟩ := exists_runs_of_perform hok
  rw [launch_of_bid hbid] at hlaunch
  obtain ⟨g, hbidden, hlaunch⟩ := Outcome.ok_of_bind hlaunch
  obtain rfl := Except.ok.inj hlaunch
  obtain ⟨s, hs, hplace, hf, hgrant, move, value, hsettle, hfits, rfl⟩ :=
    hr.exists_settledBy hbid hbidden
  have hafter : rested.stackAt b.place = s.stack - move.chips := by
    rw [stackAt_of_passing hpath, ← hplace]
    exact stackAt_settledBy hr.table hs hfits value
  refine ⟨s, hf, hgrant, move, hsettle, ?_, hafter⟩
  have hbefore : h.seats[b.place]? = some s := hplace ▸ hr.table.numbered.getElem?_number hs
  have hreached : h.reached rested b.place = s.wager + (s.stack - rested.stackAt b.place) := by
    simp [reached, wagerAt, stackAt, hbefore]
  show h.reached rested b.place = _
  rw [hreached, hafter]
  omega

end Counted

/-- As long as a machine word holds the chips of the hand: under the pot limit no bet brings a seat
above the ceiling, and no raise does unless it asks for less than the last raise on top of the
wager. Such a raise takes the whole stack and always goes above the ceiling. -/
theorem pot_limit_caps [Counting.Faithful] {id : String} {created : Int}
    (hc : create setup id created = .ok h) (hmodest : setup.Modest)
    (hlimit : setup.terms.limit = .pot) (calls : List (Int × Call)) (now : Int) (place : Nat) :
    (∀ chips h', ((h.play calls).perform now (.bet place chips)).outcome = .ok h' →
        (h.play calls).reached h' place ≤ (h.play calls).ceiling) ∧
      ∀ level h', ((h.play calls).perform now (.raise place level)).outcome = .ok h' →
        if (h.play calls).wager < level ∧ level < (h.play calls).ceiling then
          h'.stackAt place = 0 ∧ (h.play calls).ceiling < (h.play calls).reached h' place
        else (h.play calls).reached h' place ≤ (h.play calls).ceiling := by
  have := hmodest.counted
  have hr := resting_of_create hc calls
  generalize h.play calls = turn at *
  have hpot : turn.stakes.limit = .pot := (congrArg Terms.limit hr.table.terms).trans hlimit
  refine ⟨fun chips h' hok => ?_, fun level h' hok => ?_⟩
  · obtain ⟨s, hf, hgrant, move, hsettle, hreached, -⟩ := hr.exists_reached rfl hok
    have hwithin : turn.stakes.Within setup.bound s := hf.within
    rw [hreached]
    exact Stakes.betMove_within hwithin hpot hgrant hsettle
  · obtain ⟨s, hf, hgrant, move, hsettle, hreached, hstack⟩ := hr.exists_reached rfl hok
    have hwithin : turn.stakes.Within setup.bound s := hf.within
    rw [hreached, hstack]
    split
    · next hshort =>
      obtain rfl := Stakes.raiseMove_short hwithin hpot hshort.1 hshort.2 hsettle
      have hoffered := Stakes.ceiling_lt_of_grants hwithin hgrant
      exact ⟨Int.sub_self _, hoffered⟩
    · next hfull => exact Stakes.raiseMove_within hwithin hpot hfull hsettle

end Ceiling

/-- The dealer of two players asks for a raise from 10 to 60 and comes to 20. -/
theorem pot_limit_caps_headsUp :
    ∃ h turn raised,
      create ⟨{ Terms.standard with limit := .pot }, Setup.entries 2 100⟩ "" 0 = .ok h ∧
      h.play [(1, .start), (2, .readyAll), (3, .payBlinds), (4, .readyAll)] = turn ∧
      (turn.perform 5 (.raise 0 60)).outcome = .ok raised ∧
      turn.ceiling = 20 ∧ turn.reached raised 0 = 20 ∧ turn.reached raised 0 ≤ turn.ceiling := by
  have hc : create ⟨{ Terms.standard with limit := .pot }, Setup.entries 2 100⟩ "" 0 =
    .ok _ := rfl
  obtain ⟨-, hraise⟩ := pot_limit_caps hc (by decide) rfl
    [(1, .start), (2, .readyAll), (3, .payBlinds), (4, .readyAll)] 5 0
  exact ⟨_, _, _, hc, rfl, rfl, rfl, rfl, hraise 60 _ rfl⟩

/-- The pot limit does not cap every raise: the same dealer asks for a raise from 10 to 15, which is
less than the last raise, and goes all in with 100 chips above the ceiling of 20. -/
theorem short_raise_above_ceiling :
    ∃ h turn raised,
      create ⟨{ Terms.standard with limit := .pot }, Setup.entries 2 100⟩ "" 0 = .ok h ∧
      h.play [(1, .start), (2, .readyAll), (3, .payBlinds), (4, .readyAll)] = turn ∧
      (turn.perform 5 (.raise 0 15)).outcome = .ok raised ∧
      turn.wager + turn.raiseSize = 20 ∧ turn.reached raised 0 = 100 ∧
      ¬ turn.reached raised 0 ≤ turn.wager + turn.raiseSize :=
  ⟨_, _, _, rfl, rfl, rfl, rfl, rfl, by decide⟩

end Hand

end PokerHand
