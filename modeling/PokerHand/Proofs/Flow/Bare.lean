import PokerHand.Proofs.Flow.Blinds
import PokerHand.Proofs.Table.Reading

/-!
# What the phases do not look at

No phase looks at what is offered, at the last action or at the time, and a phase at which the hand
rests makes its offers afresh. So hands that are the same apart from all of these (`bare`) come to
rest as hands that are the same apart from the last action and the time (`undated`).
`reaction_bare` says so of one phase, `flow_bare` of a whole run.
-/
namespace PokerHand

/-- The seat without what it is offered. -/
def Seat.bare (s : Seat) : Seat := { s with allowed := [] }

theorem Seat.bare_alike (s : Seat) : s.Alike s.bare := s.alike_update _ _ _ _ _

namespace Hand

/-- The hand without its last action and the time of its last change. -/
def undated (h : Hand) : Hand := { h with last := none, updatedAt := 0 }

/-- The hand without its last action, the time of its last change and its offers. -/
def bare (h : Hand) : Hand := (h.mapSeats Seat.bare).undated

/-- What counts of the outcome of a phase: the offers only where the hand rests. -/
def blurred (r : Hand × Option Phase) : Hand × Option Phase :=
  match r.2 with
  | none => (r.1.undated, none)
  | some phase => (r.1.bare, some phase)

variable {h : Hand} {f : Seat → Seat}

theorem blurred_bare (h : Hand) (phase : Phase) :
    blurred (h.bare, some phase) = blurred (h, some phase) := by
  simp [blurred, bare, undated, mapSeats, Function.comp_def, Seat.bare]

theorem blurred_of_undated {g : Hand} (hu : h.undated = g.undated) (next : Option Phase) :
    blurred (h, next) = blurred (g, next) := by
  cases next with
  | none => exact congrArg (·, none) hu
  | some phase => exact congrArg (fun h => (h.bare, some phase)) hu

/-! What reads the seats sees no difference. -/

theorem map_bare {α : Type} {f : Seat → α} (hf : ∀ s, f s.bare = f s) :
    h.bare.seats.map f = h.seats.map f :=
  map_alike rfl hf

theorem dealerSeat_bare (h : Hand) : h.bare.dealerSeat = h.dealerSeat :=
  dealerSeat_alike rfl Seat.bare_alike

theorem dues_bare (h : Hand) {chosen : Seat → Bool} (hchosen : ∀ s, chosen s.bare = chosen s)
    (amount : Int) : h.bare.dues chosen amount = h.dues chosen amount :=
  dues_alike rfl Seat.bare_alike hchosen amount

theorem blindTasks_bare (h : Hand) : h.bare.blindTasks = h.blindTasks :=
  blindTasks_alike rfl Seat.bare_alike rfl

theorem contributions_bare (h : Hand) : h.bare.contributions = h.contributions :=
  contributions_alike rfl Seat.bare_alike

theorem poster_bare (h : Hand) :
    (h.bare.seats.find? fun s => s.holds .bigBlind && s.wager > 0).map Seat.number =
      (h.seats.find? fun s => s.holds .bigBlind && s.wager > 0).map Seat.number :=
  poster_alike rfl Seat.bare_alike

/-! What changes the seats and makes no offers. -/

theorem mapSeats_bare (hf : ∀ s, f s.bare = (f s).bare) :
    h.bare.mapSeats f = (h.mapSeats f).bare := by
  have hseats : (h.seats.map Seat.bare).map f = (h.seats.map f).map Seat.bare := by
    rw [List.map_map, List.map_map]
    exact List.map_congr_left fun s _ => hf s
  simp only [mapSeats, bare, undated, hseats]

theorem refreshMade_bare (h : Hand) : h.bare.refreshMade = h.refreshMade.bare :=
  mapSeats_bare fun _ => rfl

theorem take_bare (h : Hand) (n : Nat) :
    h.bare.take n = (fun r => (r.1, r.2.bare)) <$> h.take n := by
  show (if n = 0 ∨ h.dealt + n ≤ h.terms.deck.length then _ else _) = _
  unfold take
  split <;> rfl

theorem dealBoard_bare (h : Hand) (street : Street) :
    h.bare.dealBoard street = bare <$> h.dealBoard street := by
  have hterms : h.bare.terms = h.terms := rfl
  simp only [dealBoard_eq, hterms, take_bare, map_bind, bind_map_left]
  rfl

theorem mapIdx_bare {f : Nat → Seat → Seat} (hf : ∀ i s, f i s.bare = (f i s).bare)
    (seats : List Seat) : (seats.map Seat.bare).mapIdx f = (seats.mapIdx f).map Seat.bare := by
  refine List.ext_getElem? fun i => ?_
  simp only [List.getElem?_mapIdx, List.getElem?_map, Option.map_map]
  exact congrArg (fun g => Option.map g seats[i]?) (funext fun s => hf i s)

theorem dealHole_bare (h : Hand) : h.bare.dealHole = bare <$> h.dealHole := by
  have hterms : h.bare.terms = h.terms := rfl
  have hlength : h.bare.seats.length = h.seats.length := List.length_map _
  simp only [dealHole_eq, dealerSeat_bare, hterms, hlength, take_bare, map_bind, bind_map_left]
  refine congrArg (h.dealerSeat >>= ·) (funext fun dealer => ?_)
  refine congrArg (h.take (h.terms.holeCount * h.seats.length) >>= ·) (funext fun r => ?_)
  have hserved := mapIdx_bare (f := fun place s =>
    { s with hole := s.hole ++ share r.1 h.seats.length h.terms.holeCount dealer place })
    (fun _ _ => rfl) r.2.seats
  exact congrArg (fun seats => Except.ok { r.2.bare with seats := seats }) hserved

/-! What makes its offers afresh. -/

theorem mapSeats_bare_undated (hf : ∀ s, f s.bare = f s) :
    (h.bare.mapSeats f).undated = (h.mapSeats f).undated := by
  have hseats : (h.seats.map Seat.bare).map f = h.seats.map f := map_bare hf
  simp only [mapSeats, bare, undated, hseats]

theorem openGate_bare (h : Hand) (tasks : List Task) :
    (h.bare.openGate tasks).undated = (h.openGate tasks).undated :=
  mapSeats_bare_undated (h := { h with tasks := tasks }) fun _ => rfl

variable [Counting]

theorem entrants_bare (h : Hand) : h.bare.entrants = h.entrants := map_bare fun _ => rfl

theorem refreshPots_bare (h : Hand) : h.bare.refreshPots = h.refreshPots.bare := by
  rw [refreshPots, contributions_bare]
  rfl

theorem postBigBlind_bare (h : Hand) : h.bare.postBigBlind = h.postBigBlind.bare :=
  mapSeats_bare fun s => by
    show (if s.holds .bigBlind then _ else _) = _
    split <;> rfl

theorem passing_bare (h : Hand) (start : Nat) :
    blurred (h.bare.passing start) = blurred (h.passing start) := by
  have hnext : Turn.nextMovable h.bare.seats start = Turn.nextMovable h.seats start :=
    Turn.nextMovable_map Seat.bare_alike h.seats start
  have hclosed : ∀ candidate, Turn.isClosed h.bare.seats h.bare.wager candidate =
      Turn.isClosed h.seats h.wager candidate :=
    Turn.isClosed_map Seat.bare_alike (fun _ => rfl) h.seats h.wager
  simp only [passing, hnext, hclosed]
  split
  · next seat _ =>
    split
    · exact blurred_bare h _
    · have hoffers : (h.bare.giveTurn seat).undated = (h.giveTurn seat).undated :=
        mapSeats_bare_undated (h := { h with turn := seat }) fun _ => rfl
      exact blurred_of_undated hoffers none
  · exact blurred_bare h _

/-- What the initialization of a round goes on with once its seats are reset. -/
def opening (h : Hand) : Except Fault (Hand × Option Phase) :=
  if h.street ≠ some .preflop then .ok (h, some .roundPrepared)
  else if !h.terms.blinds.anyPositive then .ok (h, some .readyRequested)
  else if h.terms.blinds.dealer = 0 ∧ h.terms.blinds.small = 0 then
    .ok (h.postBigBlind, some .blindsPaid)
  else .ok (h, some .blindsRequested)

theorem opening_bare (h : Hand) : blurred <$> h.bare.opening = blurred <$> h.opening := by
  have hstreet : h.bare.street = h.street := rfl
  have hterms : h.bare.terms = h.terms := rfl
  simp only [opening, hstreet, hterms, postBigBlind_bare]
  split_ifs <;> exact congrArg Except.ok (blurred_bare _ _)

theorem reaction_bare (phase : Phase) (h : Hand) :
    blurred <$> reaction phase h.bare = blurred <$> reaction phase h := by
  cases phase with
  | started | gameCompleted | settlementCompleted | readiness =>
      exact congrArg Except.ok (blurred_bare h _)
  | antePaid =>
      rw [reaction, refreshPots_bare]
      exact congrArg Except.ok (blurred_bare h.refreshPots _)
  | roundPrepared =>
      rw [reaction, refreshMade_bare]
      exact congrArg Except.ok (blurred_bare h.refreshMade _)
  | initialized =>
      rw [reaction, reaction, dealerSeat_bare]
      exact Outcome.map_bind_congr _ fun dealer _ => congrArg Except.ok <| blurred_bare
        { h with minBet := h.terms.minBet, raiseSize := h.terms.minBet, raiser := dealer } _
  | blindsPaid =>
      rw [reaction, reaction, dealerSeat_bare, map_bare fun _ => rfl]
      refine Outcome.map_bind_congr _ fun dealer _ => ?_
      simp only [poster_bare]
      exact congrArg Except.ok (blurred_bare { h with
        wager := (h.seats.map Seat.wager).max?.getD 0
        raiser := ((h.seats.find? fun s => s.holds .bigBlind && s.wager > 0).map Seat.number).getD
          dealer } _)
  | readyRequested =>
      rw [reaction, map_bare fun _ => rfl]
      exact congrArg Except.ok (blurred_of_undated (openGate_bare h _) none)
  | anteRequested =>
      rw [reaction, dues_bare h fun _ => rfl]
      exact congrArg Except.ok (blurred_of_undated (openGate_bare h _) none)
  | blindsRequested =>
      rw [reaction, reaction, blindTasks_bare]
      split
      · exact congrArg Except.ok (blurred_bare h _)
      · exact congrArg Except.ok (blurred_of_undated (openGate_bare h _) none)
  | prepared =>
      rw [reaction, reaction, dealHole_bare, bind_map_left]
      exact Outcome.map_bind_congr _ fun dealt _ => congrArg Except.ok (blurred_bare dealt _)
  | entered street =>
      have hdeal := dealBoard_bare { h with street := some street } street
      rw [reaction, reaction]
      split
      · exact congrArg Except.ok (blurred_bare { h with street := some street } _)
      · show _ <$> ({ h with street := some street }.bare.dealBoard street >>= _) = _
        rw [hdeal, bind_map_left]
        exact Outcome.map_bind_congr _ fun dealt _ => congrArg Except.ok (blurred_bare dealt _)
  | roundInitialized =>
      rw [reaction, reaction, dealerSeat_bare]
      refine Outcome.map_bind_congr _ fun dealer _ => ?_
      have hreset : h.bare.resetBy dealer = (h.resetBy dealer).bare := mapSeats_bare
        (h := { h with wager := 0, raiseSize := h.minBet, raiser := dealer }) fun _ => rfl
      show blurred <$> (h.bare.resetBy dealer).opening = blurred <$> (h.resetBy dealer).opening
      rw [hreset]
      exact opening_bare _
  | roundStarted => exact congrArg Except.ok (passing_bare { h with tasks := [] } _)
  | roundClosed =>
      -- whether the hand rests here or not, nobody is offered anything any more
      have hcollect : h.bare.collectWagers.undated = h.collectWagers.undated :=
        mapSeats_bare_undated (h := { h with wager := 0 }) fun _ => rfl
      have hpots : h.bare.collectWagers.refreshPots.undated =
          h.collectWagers.refreshPots.undated := congrArg refreshPots hcollect
      have hunfolded : h.bare.collectWagers.refreshPots.unfolded =
          h.collectWagers.refreshPots.unfolded := congrArg (·.unfolded) hpots
      have hstreet : h.bare.collectWagers.refreshPots.street =
          h.collectWagers.refreshPots.street := rfl
      simp only [reaction, hunfolded, hstreet]
      exact congrArg Except.ok (blurred_of_undated hpots _)
  | settlementRequested =>
      rw [reaction, reaction, refreshMade_bare, refreshPots_bare]
      simp only [entrants_bare]
      exact Outcome.map_bind_congr _ fun result _ => congrArg Except.ok <| blurred_bare
        { h.refreshMade.refreshPots with result := some result } _
  | gameClosed =>
      exact congrArg Except.ok (blurred_of_undated (mapSeats_bare_undated fun _ => rfl) none)

/-- Hands that are the same apart from offers, last action and time come to rest as hands that are
the same apart from last action and time. -/
theorem flow_bare (phase : Phase) (h : Hand) :
    undated <$> (flow phase h.bare).outcome = undated <$> (flow phase h).outcome := by
  have hblur : ∀ g : Hand, undated <$> (flow phase g).outcome =
      undated <$> ((blurred <$> { g with phase := phase }.react) >>= follow) := by
    intro g
    rw [flow_outcome, bind_map_left]
    refine Outcome.map_bind_congr _ fun r hreact => ?_
    obtain ⟨g', next⟩ := r
    cases next with
    | none => rfl
    | some next =>
        have hlt : next.rank < phase.rank := react_rank hreact
        exact (flow_bare next g').symm
  have hreact : blurred <$> { h.bare with phase := phase }.react =
      blurred <$> { h with phase := phase }.react := reaction_bare phase { h with phase := phase }
  rw [hblur, hblur, hreact]
termination_by phase.rank

end Hand

end PokerHand
