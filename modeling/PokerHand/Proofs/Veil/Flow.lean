import PokerHand.Proofs.Flow.Bare
import PokerHand.Proofs.Veil.Launch

/-!
# Phases told without cards

What a phase does to a hand can be told without looking at its cards: `Hand.blindly` deals so many
cards without saying which, and pays out the pots without saying to whom. Whatever a phase makes of
a hand, it makes of the veiled hand blindly (`blindly_veil`).
-/
namespace PokerHand

/-- Whether cards, or what hangs on them, matter in a phase. -/
def Phase.seesCards : Phase → Bool
  | prepared | entered _ | roundPrepared | settlementRequested => true
  | _ => false

namespace Hand

/-- The pots as they are paid out, without the winners. -/
def amounts (pots : List SidePot) : Payout := ⟨[], pots.map fun p => ⟨p.level, p.total, []⟩⟩

/-- What a phase does to a veiled hand that has just entered it. -/
def blindly [Counting] (phase : Phase) (h : Hand) : Except Fault (Hand × Option Phase) :=
  match phase with
  | .prepared =>
      .ok ({ h with dealt := h.dealt + h.terms.holeCount * h.seats.length },
        some (if h.terms.ante > 0 then .anteRequested else .entered .preflop))
  | .entered street =>
      .ok ({ h with
          street := some street
          dealt := if street = .preflop then h.dealt
            else h.dealt + h.terms.burnCount + street.boardCards },
        some .roundInitialized)
  | .roundPrepared => .ok (h, some .roundStarted)
  | .settlementRequested =>
      let h := h.refreshPots
      .ok ({ h with result := some (amounts h.pots) }, some .settlementCompleted)
  | phase => reaction phase h

variable {h g : Hand} {phase : Phase} {r r' : Hand × Option Phase}

theorem dealerSeat_veil (h : Hand) : h.veil.dealerSeat = h.dealerSeat :=
  dealerSeat_alike rfl Seat.veil_alike

theorem openGate_veil (h : Hand) (tasks : List Task) :
    h.veil.openGate tasks = (h.openGate tasks).veil :=
  mapSeats_veil (h := { h with tasks := tasks }) fun _ => rfl

theorem veil_refreshMade (h : Hand) : h.refreshMade.veil = h.veil := by
  have hseats : (h.seats.map fun s => { s with made := h.madeBy s }).map Seat.veil =
      h.seats.map Seat.veil := by
    rw [List.map_map]
    rfl
  exact congrArg (fun seats => { h.veil with seats := seats }) hseats

theorem veil_dealHole {h' : Hand} (hd : h.dealHole = .ok h') :
    h'.veil = { h.veil with dealt := h.dealt + h.terms.holeCount * h.seats.length } := by
  obtain ⟨dealer, cards, -, rfl⟩ := dealHole_inv hd
  have hseats : (h.seats.mapIdx fun place s => { s with
      hole := s.hole ++ share cards h.seats.length h.terms.holeCount dealer place }).map Seat.veil =
        h.seats.map Seat.veil := by
    refine List.ext_getElem? fun i => ?_
    simp only [List.getElem?_map, List.getElem?_mapIdx, Option.map_map]
    rfl
  exact congrArg (fun seats => { h.veil with
    dealt := h.dealt + h.terms.holeCount * h.seats.length, seats := seats }) hseats

theorem veil_dealBoard {h' : Hand} {street : Street} (hd : h.dealBoard street = .ok h') :
    h'.veil = { h.veil with dealt := h.dealt + h.terms.burnCount + street.boardCards } := by
  obtain ⟨burned, board, rfl⟩ := dealBoard_inv hd
  rfl

variable [Counting]

theorem refreshPots_veil (h : Hand) : h.veil.refreshPots = h.refreshPots.veil := by
  have hsame : h.veil.contributions = h.contributions := contributions_alike rfl Seat.veil_alike
  rw [refreshPots, hsame]
  rfl

theorem postBigBlind_veil (h : Hand) : h.veil.postBigBlind = h.postBigBlind.veil :=
  mapSeats_veil fun s => by
    show (if s.holds .bigBlind then _ else _) = _
    split <;> rfl

theorem opening_veil (h : Hand) : h.veil.opening = veiled <$> h.opening := by
  have hstreet : h.veil.street = h.street := rfl
  have hblinds : h.veil.terms.blinds = h.terms.blinds := rfl
  simp only [opening, hstreet, hblinds, postBigBlind_veil]
  split
  · rfl
  · split
    · rfl
    · split <;> rfl

/-- A phase in which no card matters does the same to a hand whatever its cards. -/
theorem reaction_veil (hplain : phase.seesCards = false) (h : Hand) :
    reaction phase h.veil = veiled <$> reaction phase h := by
  cases phase with
  | prepared | entered street | roundPrepared | settlementRequested => cases hplain
  | started | readiness | gameCompleted | settlementCompleted => rfl
  | initialized =>
      rw [reaction, reaction, dealerSeat_veil, map_bind]
      rfl
  | readyRequested =>
      have hseats : h.veil.seats.map Seat.number = h.seats.map Seat.number :=
        map_alike rfl fun _ => rfl
      rw [reaction, hseats, openGate_veil]
      rfl
  | anteRequested =>
      have hdues : h.veil.dues (fun _ => true) h.terms.ante = h.dues (fun _ => true) h.terms.ante :=
        dues_alike rfl Seat.veil_alike (fun _ => rfl) _
      show Except.ok (h.veil.openGate [.forPayment .ante (h.veil.dues _ h.terms.ante)], none) = _
      rw [hdues, openGate_veil]
      rfl
  | antePaid =>
      rw [reaction, refreshPots_veil]
      rfl
  | blindsRequested =>
      have htasks : h.veil.blindTasks = h.blindTasks := blindTasks_alike rfl Seat.veil_alike rfl
      rw [reaction, reaction, htasks]
      split
      · rfl
      · rw [openGate_veil]
        rfl
  | blindsPaid =>
      have hwagers : h.veil.seats.map Seat.wager = h.seats.map Seat.wager :=
        map_alike rfl fun _ => rfl
      have hposter : (h.veil.seats.find? fun s => s.holds .bigBlind && s.wager > 0).map
          Seat.number = (h.seats.find? fun s => s.holds .bigBlind && s.wager > 0).map Seat.number :=
        poster_alike rfl Seat.veil_alike
      simp only [reaction, dealerSeat_veil, hwagers, hposter, map_bind]
      rfl
  | roundInitialized =>
      rw [reaction, reaction, dealerSeat_veil, map_bind]
      refine congrArg _ (funext fun dealer => ?_)
      have hreset : h.veil.resetBy dealer = (h.resetBy dealer).veil := mapSeats_veil
        (h := { h with wager := 0, raiseSize := h.minBet, raiser := dealer }) fun _ => rfl
      show (h.veil.resetBy dealer).opening = veiled <$> (h.resetBy dealer).opening
      rw [hreset]
      exact opening_veil _
  | roundStarted => exact congrArg Except.ok (passing_veil { h with tasks := [] } _)
  | roundClosed =>
      have hcollect : h.veil.collectWagers = h.collectWagers.veil :=
        mapSeats_veil (h := { h with wager := 0 }) fun _ => rfl
      have hunfolded : h.collectWagers.refreshPots.veil.unfolded =
          h.collectWagers.refreshPots.unfolded := unfolded_map rfl fun _ _ => rfl
      simp only [reaction, hcollect, refreshPots_veil, hunfolded]
      rfl
  | gameClosed => exact congrArg (fun g => Except.ok (g, none)) (mapSeats_veil fun _ => rfl)

theorem blindly_of_plain (hplain : phase.seesCards = false) (h : Hand) :
    blindly phase h = reaction phase h := by
  cases phase with
  | prepared | entered street | roundPrepared | settlementRequested => cases hplain
  | _ => rfl

theorem payPot_amount {pot : SidePot} {entrants : List Entrant} {paid : PaidPot}
    (hpaid : Payout.payPot entrants pot = .ok paid) :
    ({ paid with winners := [] } : PaidPot) = ⟨pot.level, pot.total, []⟩ := by
  obtain ⟨eligible, -, hpaid⟩ := Outcome.ok_of_bind hpaid
  obtain ⟨-, hpaid⟩ := Outcome.ok_of_guard hpaid
  obtain rfl := Except.ok.inj hpaid
  rfl

theorem payPots_amounts {pots : List SidePot} {entrants : List Entrant} {paid : List PaidPot}
    (hpaid : pots.mapM (Payout.payPot entrants) = .ok paid) :
    paid.map (fun pot => { pot with winners := [] }) =
      pots.map fun pot => (⟨pot.level, pot.total, []⟩ : PaidPot) := by
  induction pots generalizing paid with
  | nil =>
      obtain rfl := Except.ok.inj hpaid
      rfl
  | cons pot rest ih =>
      rw [List.mapM_cons] at hpaid
      obtain ⟨first, hfirst, hpaid⟩ := Outcome.ok_of_bind hpaid
      obtain ⟨later, hlater, hpaid⟩ := Outcome.ok_of_bind hpaid
      obtain rfl := Except.ok.inj hpaid
      rw [List.map_cons, List.map_cons, payPot_amount hfirst, ih hlater]

theorem veil_settle {pots : List SidePot} {entrants : List Entrant} {result : Payout}
    (hsettle : Payout.settle pots entrants = .ok result) : result.veil = amounts pots := by
  obtain ⟨paid, hpaid, hsettle⟩ := Outcome.ok_of_bind hsettle
  obtain rfl := Except.ok.inj hsettle
  exact congrArg (Payout.mk []) (payPots_amounts hpaid)

/-- Whatever a phase makes of a hand it makes of the veiled hand without looking at cards. -/
theorem blindly_veil (hr : h.react = .ok r) : blindly h.phase h.veil = .ok (veiled r) := by
  cases hcards : h.phase.seesCards with
  | false =>
      rw [blindly_of_plain hcards, reaction_veil hcards]
      exact congrArg (veiled <$> ·) hr
  | true =>
      cases hp : h.phase with
      | prepared =>
          rw [react_eq hp, reaction] at hr
          obtain ⟨dealt, hdeal, hr⟩ := Outcome.ok_of_bind hr
          obtain rfl := Except.ok.inj hr
          have hveil := veil_dealHole hdeal
          have hante : dealt.terms.ante = h.terms.ante := congrArg (·.terms.ante) hveil
          have hlength : h.veil.seats.length = h.seats.length := List.length_map _
          simp only [blindly, veiled, hveil, hante, hlength]
          rfl
      | entered street =>
          rw [react_eq hp, reaction] at hr
          split at hr
          · next hpre =>
            obtain rfl := Except.ok.inj hr
            simp only [blindly, hpre, if_true]
            rfl
          · next hpre =>
            obtain ⟨dealt, hdeal, hr⟩ := Outcome.ok_of_bind hr
            obtain rfl := Except.ok.inj hr
            have hveil := veil_dealBoard hdeal
            simp only [blindly, veiled, hpre, if_false, hveil]
            rfl
      | roundPrepared =>
          rw [react_eq hp, reaction, Except.ok.injEq] at hr
          subst hr
          exact congrArg (fun g => Except.ok (g, some Phase.roundStarted)) (veil_refreshMade h).symm
      | settlementRequested =>
          rw [react_eq hp, reaction] at hr
          obtain ⟨result, hsettle, hr⟩ := Outcome.ok_of_bind hr
          obtain rfl := Except.ok.inj hr
          have hmade : h.refreshMade.refreshPots.veil = h.veil.refreshPots := by
            rw [← refreshPots_veil, veil_refreshMade]
          have hpots : h.refreshMade.refreshPots.veil.pots = h.veil.refreshPots.pots :=
            congrArg Hand.pots hmade
          have hamounts : amounts h.veil.refreshPots.pots = result.veil := by
            rw [← hpots]
            exact (veil_settle hsettle).symm
          have hpaid := congrArg (fun g : Hand => { g with result := some result.veil }) hmade
          simp only [blindly, hamounts]
          exact congrArg (fun g => Except.ok (g, some Phase.settlementCompleted)) hpaid.symm
      | _ => simp [hp, Phase.seesCards] at hcards

/-- Hands that differ in their cards only are led to hands that do. -/
theorem react_veil (hsame : h.veil = g.veil) (hr : h.react = .ok r) (hr' : g.react = .ok r') :
    veiled r = veiled r' := by
  have hphase : h.veil.phase = g.veil.phase := congrArg Hand.phase hsame
  have hblind := blindly_veil hr
  rw [show h.phase = g.phase from hphase, hsame, blindly_veil hr'] at hblind
  exact (Except.ok.inj hblind).symm

/-- So do the points of rest to which they come. -/
theorem Path.veil {path path' : List Hand} {h' g' : Hand} (hpath : Path r path h')
    (hpath' : Path r' path' g') (hsame : veiled r = veiled r') : h'.veil = g'.veil := by
  induction hpath generalizing r' path' with
  | rest h =>
      cases hpath' with
      | rest g => exact congrArg Prod.fst hsame
      | enter _ _ => cases congrArg Prod.snd hsame
  | @enter h h' phase r path hreact _ ih =>
      cases hpath' with
      | rest g => cases congrArg Prod.snd hsame
      | @enter g _ phase' s _ hreact' hrest =>
          obtain rfl : phase = phase' := Option.some.inj (congrArg Prod.snd hsame)
          have hentered : { h with phase := phase }.veil = { g with phase := phase }.veil :=
            congrArg (fun r => { r.1 with phase := phase }) hsame
          exact ih hrest (react_veil hentered hreact hreact')

end Hand

end PokerHand
