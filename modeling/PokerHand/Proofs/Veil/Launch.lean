import PokerHand.Proofs.Launch
import PokerHand.Proofs.Table.Reading

/-!
# Calls do not look at cards

`Hand.veil` takes from a hand its cards and what hangs on them: what the seats can show and who wins
the pots. No call looks at any of it before the hand enters a phase (`launch_veil`): a veiled hand
makes of a call what the hand makes of it, or refuses it for the same reason.
-/
namespace PokerHand

/-- The seat without its cards. -/
def Seat.veil (s : Seat) : Seat := { s with hole := [], made := none }

theorem Seat.veil_alike (s : Seat) : s.Alike s.veil := s.alike_update _ _ _ _ _

/-- The payout without who wins. -/
def Payout.veil (p : Payout) : Payout := ⟨[], p.pots.map fun pot => { pot with winners := [] }⟩

namespace Hand

/-- The hand without its cards and what hangs on them, and without its name and its times. -/
def veil (h : Hand) : Hand :=
  { h.mapSeats Seat.veil with
    id := ""
    createdAt := 0
    updatedAt := 0
    terms := { h.terms with deck := [] }
    board := []
    burned := []
    result := h.result.map Payout.veil }

/-- What a call or a phase leads to, without cards. -/
def veiled (r : Hand × Option Phase) : Hand × Option Phase := (r.1.veil, r.2)

variable {h : Hand} {f : Seat → Seat} {place : Nat} {call : Call}

/-! Seats. -/

theorem mapSeats_veil (hf : ∀ s, f s.veil = (f s).veil) :
    h.veil.mapSeats f = (h.mapSeats f).veil := by
  have hseats : (h.seats.map Seat.veil).map f = (h.seats.map f).map Seat.veil := by
    rw [List.map_map, List.map_map]
    exact List.map_congr_left fun s _ => hf s
  simp only [mapSeats, veil, hseats]

theorem modifySeat_veil (hf : ∀ s, f s.veil = (f s).veil) :
    h.veil.modifySeat place f = veil <$> h.modifySeat place f := by
  have hseats : (h.seats.map Seat.veil).modify place f =
      (h.seats.modify place f).map Seat.veil := by
    refine List.ext_getElem? fun i => ?_
    simp only [List.getElem?_modify, List.getElem?_map]
    by_cases hi : place = i <;> cases h.seats[i]? <;> simp [hi, hf]
  have hlength : h.veil.seats.length = h.seats.length := List.length_map _
  unfold modifySeat
  rw [hlength]
  split
  · exact congrArg (fun seats => Except.ok { h.veil with seats := seats }) hseats
  · rfl

theorem seatAt_veil : h.veil.seatAt place = Seat.veil <$> h.seatAt place := by
  have hfind : h.veil.seats[place]? = h.seats[place]?.map Seat.veil := List.getElem?_map ..
  unfold seatAt
  rw [hfind]
  cases h.seats[place]? <;> rfl

theorem ownSeat_veil : h.veil.ownSeat place = Seat.veil <$> h.ownSeat place := by
  have hfind : h.veil.seats[place]? = h.seats[place]?.map Seat.veil := List.getElem?_map ..
  unfold ownSeat
  rw [hfind]
  cases h.seats[place]? <;> rfl

theorem wagerAt_veil (h : Hand) (place : Nat) : h.veil.wagerAt place = h.wagerAt place := by
  have hfind : h.veil.seats[place]? = h.seats[place]?.map Seat.veil := List.getElem?_map ..
  unfold wagerAt
  rw [hfind, Option.map_map]
  rfl

theorem actionable_veil (h : Hand) : h.veil.actionable = h.actionable := by
  show ((h.seats.map Seat.veil).filter _).map Seat.number = _
  rw [List.filter_map, List.map_map]
  rfl

theorem allowedSeat_veil {action : Action} :
    h.veil.allowedSeat place action = Seat.veil <$> h.allowedSeat place action := by
  have hclosed : h.veil.isClosed = h.isClosed := rfl
  simp only [allowedSeat, hclosed, seatAt_veil]
  split
  · rfl
  · rw [bind_map_left, map_bind]
    refine congrArg _ (funext fun s => ?_)
    show (if s.mayDo action then _ else _) = _
    split <;> rfl

theorem record_veil {action : Action} {value : Int} :
    (h.veil.record place action value).outcome =
      veil <$> (h.record place action value).outcome := by
  simp only [record, Traced.outcome_bind, Traced.outcome_note, Outcome.ok_bind,
    Traced.outcome_liftM, Traced.outcome_pure]
  rw [modifySeat_veil (f := fun s => { s with did := some action }) fun _ => rfl, bind_map_left,
    map_bind]
  rfl

theorem runQueue_veil (h : Hand) : h.veil.runQueue = veiled <$> h.runQueue := by
  have htasks : h.veil.tasks = h.tasks := rfl
  have hphase : h.veil.phase = h.phase := rfl
  simp only [runQueue, htasks, hphase]
  split
  · split <;> rfl
  · have hrefresh := mapSeats_veil (h := { h with tasks := (Queue.run h.tasks).tasks })
      (f := fun s => { s with allowed := gateOffer (Queue.run h.tasks).tasks s }) fun _ => rfl
    exact congrArg (fun g => Except.ok (g, none)) hrefresh

theorem setTask_veil (h : Hand) (i : Nat) (t : Task) :
    h.veil.setTask i t = (h.setTask i t).veil := rfl

theorem taskFor_veil (h : Hand) (place : Nat) : h.veil.taskFor place = h.taskFor place := rfl

theorem expectPhase_veil (h : Hand) (phase : Phase) :
    h.veil.expectPhase phase = h.expectPhase phase := rfl

variable [Counting]

/-! Bids. -/

theorem raiseTo_veil (h : Hand) (place : Nat) :
    h.veil.raiseTo place = (h.raiseTo place).veil := by
  have hreopen : h.veil.reopen place = (h.reopen place).veil := mapSeats_veil fun s => by
    show (if s.number != place && s.isMovable then _ else _) = _
    split <;> rfl
  simp only [raiseTo, hreopen, wagerAt_veil]
  rfl

theorem afterAllin_veil (h : Hand) (place : Nat) :
    h.veil.afterAllin place = (h.afterAllin place).veil := by
  have hwager : h.veil.wager = h.wager := rfl
  have hraiseSize : h.veil.raiseSize = h.raiseSize := rfl
  simp only [afterAllin, wagerAt_veil, hwager, hraiseSize, raiseTo_veil]
  split
  · rfl
  · split <;> rfl

theorem moveChips_veil (move : Move) :
    h.veil.moveChips place move = veil <$> h.moveChips place move := by
  have hputIn : ∀ chips, h.veil.modifySeat place (fun s => s.putIn chips) =
      veil <$> h.modifySeat place fun s => s.putIn chips := fun chips =>
    modifySeat_veil fun _ => rfl
  cases move with
  | fold => exact modifySeat_veil fun _ => rfl
  | check => rfl
  | call chips => exact hputIn chips
  | bet chips | raise chips =>
      simp only [moveChips, hputIn, bind_map_left, map_bind, raiseTo_veil]
      rfl
  | allin chips =>
      simp only [moveChips, hputIn, bind_map_left, map_bind, afterAllin_veil]
      rfl

theorem made_veil (move : Move) : h.veil.made place move = veil <$> h.made place move := by
  have hact : ∀ g : Hand, g.veil.modifySeat place (fun s => { s with acted := true }) =
      veil <$> g.modifySeat place fun s => { s with acted := true } := fun g =>
    modifySeat_veil fun _ => rfl
  simp only [made, moveChips_veil, hact, bind_map_left, map_bind, wagerAt_veil, record_veil]

theorem bid?_veil (h : Hand) (call : Call) : h.veil.bid? call = h.bid? call := by
  cases call <;> rfl

theorem settle_veil {b : Bid} (hbid : h.bid? call = some b) (s : Seat) :
    b.settle s.veil = b.settle s := by
  cases call <;> simp only [bid?, Option.some.injEq, reduceCtorEq] at hbid <;> subst hbid <;> rfl

theorem bidden_veil {b : Bid} (hbid : h.bid? call = some b) :
    h.veil.bidden b = veil <$> h.bidden b := by
  simp only [bidden, allowedSeat_veil, bind_map_left, map_bind, settle_veil hbid, made_veil]

theorem giveTurn_veil (h : Hand) (seat : Nat) : h.veil.giveTurn seat = (h.giveTurn seat).veil :=
  mapSeats_veil (h := { h with turn := seat }) fun _ => rfl

theorem passing_veil (h : Hand) (start : Nat) :
    h.veil.passing start = veiled (h.passing start) := by
  have hnext : Turn.nextMovable h.veil.seats start = Turn.nextMovable h.seats start :=
    Turn.nextMovable_map Seat.veil_alike h.seats start
  have hclosed : ∀ candidate, Turn.isClosed h.veil.seats h.veil.wager candidate =
      Turn.isClosed h.seats h.wager candidate :=
    Turn.isClosed_map Seat.veil_alike (fun _ => rfl) h.seats h.wager
  simp only [passing, hnext, hclosed]
  split
  · split
    · rfl
    · exact congrArg (·, none) (giveTurn_veil h _)
  · rfl

/-! Gates. -/

theorem takePayment_veil {due : Due} {chips : Int} :
    h.veil.takePayment place due chips = veil <$> h.takePayment place due chips :=
  modifySeat_veil fun s => by split <;> rfl

theorem clearEntry_veil (h : Hand) (phase : Phase) :
    (h.veil.clearEntry phase).outcome = veil <$> (h.clearEntry phase).outcome := by
  unfold clearEntry
  rw [actionable_veil]
  cases h.actionable with
  | nil => rfl
  | cons seat rest =>
      have hmay : ∀ (s : Seat) a, s.veil.mayDo a = s.mayDo a := fun _ _ => rfl
      simp only [Traced.outcome_bind, Traced.outcome_liftM, taskFor_veil, ownSeat_veil,
        bind_map_left, map_bind, hmay, setTask_veil]
      congr 1
      funext found
      congr 1
      funext s
      split
      · exact record_veil
      · split
        · simp only [Traced.outcome_bind, Traced.outcome_liftM, map_bind, record_veil]
        · split
          · rfl
          · simp only [Traced.outcome_bind, Traced.outcome_liftM, takePayment_veil, bind_map_left,
              map_bind, record_veil]

theorem drain_veil (n : Nat) (phase : Phase) (h : Hand) :
    drain n phase h.veil = veiled <$> drain n phase h := by
  induction n generalizing h with
  | zero => rfl
  | succ n ih =>
      simp only [drain, clearEntry_veil, bind_map_left, map_bind, runQueue_veil]
      congr 1
      funext cleared
      congr 1
      funext r
      show (if r.2.isSome then _ else drain n phase r.1.veil) = _
      split
      · rfl
      · exact ih r.1

theorem drainGate_veil (h : Hand) (phase : Phase) :
    h.veil.drainGate phase = veiled <$> h.drainGate phase := by
  have htasks : h.veil.tasks = h.tasks := rfl
  simp only [drainGate, expectPhase_veil, htasks, drain_veil, map_bind]

theorem launchOther_veil (h : Hand) (call : Call) :
    h.veil.launchOther call = veiled <$> h.launchOther call := by
  cases call with
  | start =>
      simp only [launchOther, expectPhase_veil, map_bind]
      rfl
  | readyAll | payAntes | payBlinds => exact drainGate_veil h _
  | ready place | pass place =>
      simp only [launchOther, allowedSeat_veil, taskFor_veil, setTask_veil, record_veil,
        bind_map_left, map_bind, runQueue_veil]
  | pay place chips =>
      simp only [launchOther, allowedSeat_veil, taskFor_veil, setTask_veil, bind_map_left, map_bind]
      congr 1
      funext s
      congr 1
      funext found
      congr 1
      funext t
      split
      · rfl
      · simp only [takePayment_veil, record_veil, bind_map_left, map_bind, runQueue_veil]
  | fold | check | call | bet | raise | allin | next =>
      have hphase : h.veil.phase = h.phase := rfl
      have hstreet : h.veil.street = h.street := rfl
      have hclosed : h.veil.isClosed = h.isClosed := rfl
      simp only [launchOther, hphase, hstreet, hclosed]
      split
      · cases h.street.bind Street.next? <;> rfl
      · split <;> rfl

/-- A call does the same to a hand whatever its cards. -/
theorem launch_veil (h : Hand) (call : Call) : h.veil.launch call = veiled <$> h.launch call := by
  unfold launch
  rw [bid?_veil]
  cases hbid : h.bid? call with
  | none => exact launchOther_veil h call
  | some b =>
      simp only [bidden_veil hbid, bind_map_left, map_bind, passing_veil]
      rfl

end Hand

end PokerHand
