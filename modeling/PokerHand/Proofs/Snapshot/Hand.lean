import PokerHand.Proofs.Snapshot.Chips
import PokerHand.Proofs.Snapshot.Gate
import PokerHand.Proofs.Snapshot.Seat
import PokerHand.Snapshot.Hand

/-!
# Hands survive a snapshot

The terms of a hand and of a setup are read by one function from the first columns. A hand is read
in two steps: first everything but the state of play, which leaves the hand `unplayed`, then the
state of play into it.
-/
namespace PokerHand

open Text.Numeral

theorem Street.faithful : Faithful Street.toJson Street.ofJson? fun _ => True :=
  Json.faithful_name.comp (.ofFind (fun s => by cases s <;> decide) (by decide))
    fun _ _ => trivial

theorem Phase.faithful : Faithful Phase.toJson Phase.ofJson? fun _ => True :=
  Json.faithful_text.comp (.ofFind Phase.mem_all (by decide)) fun _ _ => trivial

theorem Limit.faithful : Faithful Limit.toJson Limit.ofJson? fun _ => True :=
  Json.faithful_name.comp (.ofFind (fun l => by cases l <;> decide) (by decide))
    fun _ _ => trivial

structure Blinds.Fits (b : Blinds) : Prop where
  dealer : isAmount b.dealer
  small : isAmount b.small
  big : isAmount b.big

theorem Blinds.faithful : Faithful Blinds.toJson Blinds.ofJson? Blinds.Fits where
  read_write := by
    intro b h
    have hcols : b.toJson.columns ["dealer", "sb", "bb"] 0 =
        some [some (.int b.dealer), some (.int b.small), some (.int b.big)] := rfl
    rw [Blinds.ofJson?, Json.columns_bind hcols]
    simp [Json.faithful_amount.need h.dealer, Json.faithful_amount.need h.small,
      Json.faithful_amount.need h.big]
  fits := by
    intro j b h
    obtain ⟨cols, -, h⟩ := Option.bind_eq_some_iff.1 h
    split at h
    · obtain ⟨dealer, hdealer, h⟩ := Json.faithful_amount.of_need h
      obtain ⟨small, hsmall, h⟩ := Json.faithful_amount.of_need h
      obtain ⟨big, hbig, h⟩ := Json.faithful_amount.of_need h
      obtain rfl := Option.some.inj h
      exact ⟨hdealer, hsmall, hbig⟩
    · cases h

structure Terms.Fits (t : Terms) : Prop where
  ante : isAmount t.ante
  blinds : t.blinds.Fits
  holeCount : t.holeCount < countBound
  requiredHole : t.requiredHole < countBound
  burnCount : t.burnCount < countBound

namespace Terms

/-- The columns of written terms. -/
def written (t : Terms) : List (Option Json) := t.fields.map fun f => some f.2

theorem ofColumns?_written {t : Terms} (h : t.Fits) (rest : List (Option Json)) :
    ofColumns? (t.written ++ rest) = some (t, rest) := by
  show ofColumns? (some (.int t.ante) :: some t.blinds.toJson :: some t.limit.toJson ::
    some (.nat t.holeCount) :: some (.nat t.requiredHole) :: some t.order.toJson ::
    some (Card.listToJson t.deck) :: some (.nat t.burnCount) :: rest) = some (t, rest)
  rw [ofColumns?, Json.faithful_amount.need h.ante, Blinds.faithful.need h.blinds,
    Limit.faithful.need trivial, Json.faithful_count.need h.holeCount,
    Json.faithful_count.need h.requiredHole, Order.faithful.need trivial,
    Card.list_faithful.need trivial, Json.faithful_count.need h.burnCount]
  rfl

theorem fits_of_columns {cols rest : List (Option Json)} {t : Terms}
    (h : ofColumns? cols = some (t, rest)) : t.Fits := by
  unfold ofColumns? at h
  split at h
  · obtain ⟨ante, hante, h⟩ := Json.faithful_amount.of_need h
    obtain ⟨blinds, hblinds, h⟩ := Blinds.faithful.of_need h
    obtain ⟨limit, -, h⟩ := Limit.faithful.of_need h
    obtain ⟨holeCount, hholeCount, h⟩ := Json.faithful_count.of_need h
    obtain ⟨requiredHole, hrequiredHole, h⟩ := Json.faithful_count.of_need h
    obtain ⟨order, -, h⟩ := Order.faithful.of_need h
    obtain ⟨deck, -, h⟩ := Card.list_faithful.of_need h
    obtain ⟨burnCount, hburnCount, h⟩ := Json.faithful_count.of_need h
    obtain ⟨rfl, rfl⟩ := Prod.mk.inj (Option.some.inj h)
    exact ⟨hante, hblinds, hholeCount, hrequiredHole, hburnCount⟩
  · cases h

theorem faithful : Faithful Terms.toJson Terms.ofJson? Terms.Fits where
  read_write := by
    intro t h
    have hcols : t.toJson.columns fieldNames 0 = some (t.written ++ []) := rfl
    rw [Terms.ofJson?, Json.columns_bind hcols, ofColumns?_written h]
    rfl
  fits := by
    intro j t h
    obtain ⟨cols, -, h⟩ := Option.bind_eq_some_iff.1 h
    obtain ⟨⟨u, rest⟩, hu, h⟩ := Option.bind_eq_some_iff.1 h
    split at h
    · next heq =>
      obtain rfl := Option.some.inj h
      obtain ⟨rfl, -⟩ := Prod.mk.inj heq
      exact fits_of_columns hu
    · cases h

end Terms

/-! ## Setups -/

def Entry.Fits (e : Entry) : Prop := isAmount e.bankroll

theorem Entry.faithful : Faithful Entry.toJson Entry.ofJson? Entry.Fits where
  read_write := by
    intro e h
    have hcols : e.toJson.columns ["bankroll", "positions"] 1 =
        some [some (.int e.bankroll), some (.ofList Position.toJson e.positions)] := rfl
    have hpositions := (Json.faithful_list Position.faithful).orElse
      (fun p (_ : p ∈ e.positions) => trivial) []
    rw [Entry.ofJson?, Json.columns_bind hcols]
    simp [Json.faithful_amount.need h, hpositions]
  fits := by
    intro j e h
    obtain ⟨cols, -, h⟩ := Option.bind_eq_some_iff.1 h
    split at h
    · obtain ⟨bankroll, hbankroll, h⟩ := Json.faithful_amount.of_need h
      obtain ⟨positions, -, h⟩ :=
        (Json.faithful_list Position.faithful).of_orElse (fun _ _ => trivial) h
      obtain rfl := Option.some.inj h
      exact hbankroll
    · cases h

structure Setup.Fits (s : Setup) : Prop where
  terms : s.terms.Fits
  players : ∀ e ∈ s.players, e.Fits

theorem Setup.faithful : Faithful Setup.toJson Setup.ofJson? Setup.Fits where
  read_write := by
    intro s h
    have hcols : s.toJson.columns (Terms.fieldNames ++ ["players"]) 0 =
        some (s.terms.written ++ [some (.ofList Entry.toJson s.players)]) := rfl
    rw [Setup.ofJson?, Json.columns_bind hcols, Terms.ofColumns?_written h.terms]
    simp [(Json.faithful_list Entry.faithful).need h.players]
  fits := by
    intro j s h
    obtain ⟨cols, -, h⟩ := Option.bind_eq_some_iff.1 h
    obtain ⟨⟨t, rest⟩, ht, h⟩ := Option.bind_eq_some_iff.1 h
    split at h
    · next heq =>
      obtain ⟨players, hplayers, h⟩ := (Json.faithful_list Entry.faithful).of_need h
      obtain rfl := Option.some.inj h
      obtain ⟨rfl, -⟩ := Prod.mk.inj heq
      exact ⟨Terms.fits_of_columns ht, hplayers⟩
    · cases h

/-! ## Hands -/

namespace Hand

/-- The hand with an empty state of play. -/
def unplayed (h : Hand) : Hand :=
  { h with
    phase := .started, street := none, minBet := 0, wager := 0, raiseSize := 0, raiser := 0
    turn := 0, dealt := 0, board := [], burned := [], pots := [], last := none, tasks := [] }

theorem unplayed_eq_iff {g h : Hand} :
    h.unplayed = g.unplayed ↔ h.id = g.id ∧ h.createdAt = g.createdAt ∧
      h.updatedAt = g.updatedAt ∧ h.terms = g.terms ∧ h.seats = g.seats ∧ h.result = g.result := by
  simp [unplayed]

structure StatusFits (h : Hand) : Prop where
  minBet : isAmount h.minBet
  wager : isAmount h.wager
  raiseSize : isAmount h.raiseSize
  raiser : h.raiser < countBound
  turn : h.turn < countBound
  dealt : h.dealt < countBound
  pots : ∀ p ∈ h.pots, p.Fits
  last : ∀ l ∈ h.last, l.Fits
  tasks : ∀ t ∈ h.tasks, t.Fits

theorem statusFits_unplayed (h : Hand) : h.unplayed.StatusFits :=
  have hzero : isAmount 0 := by decide
  have hcount : 0 < countBound := by decide
  ⟨hzero, hzero, hzero, hcount, hcount, hcount, nofun, nofun, nofun⟩

/-- Every number is one that its type holds. -/
structure Fits (h : Hand) : Prop where
  createdAt : isAmount h.createdAt
  updatedAt : isAmount h.updatedAt
  terms : h.terms.Fits
  status : h.StatusFits
  seats : ∀ s ∈ h.seats, s.Fits
  result : ∀ p ∈ h.result, p.Fits

/-- A state of play is read into the hand that has everything else. -/
theorem status_faithful (g : Hand) :
    Faithful statusToJson g.withStatus? fun h => h.StatusFits ∧ h.unplayed = g.unplayed where
  read_write := by
    rintro h ⟨hfit, hsame⟩
    have hcols : h.statusToJson.columns ["current_event", "current_round", "mini_bet",
        "current_wager", "previous_raise_size", "current_raiser", "current_player",
        "current_deck_position", "board", "burned", "pots", "last_action", "tasks"] 0 =
      some [some h.phase.toJson, some (.ofOption Street.toJson h.street), some (.int h.minBet),
        some (.int h.wager), some (.int h.raiseSize), some (.nat h.raiser), some (.nat h.turn),
        some (.nat h.dealt), some (Card.listToJson h.board), some (Card.listToJson h.burned),
        some (.ofList SidePot.toJson h.pots), some (.ofOption LastAction.toJson h.last),
        some (.ofList Task.toJson h.tasks)] := rfl
    have hstreet := Street.faithful.may nofun fun s (_ : s ∈ h.street) => trivial
    have hlast := LastAction.faithful.may nofun hfit.last
    rw [withStatus?, Json.columns_bind hcols]
    dsimp only
    rw [Phase.faithful.need trivial, hstreet, Json.faithful_amount.need hfit.minBet,
      Json.faithful_amount.need hfit.wager, Json.faithful_amount.need hfit.raiseSize,
      Json.faithful_count.need hfit.raiser, Json.faithful_count.need hfit.turn,
      Json.faithful_count.need hfit.dealt, Card.list_faithful.need trivial,
      Card.list_faithful.need trivial, (Json.faithful_list SidePot.faithful).need hfit.pots, hlast,
      (Json.faithful_list Task.faithful).need hfit.tasks]
    obtain ⟨hid, hcreated, hupdated, hterms, hseats, hresult⟩ := unplayed_eq_iff.1 hsame
    rw [← hid, ← hcreated, ← hupdated, ← hterms, ← hseats, ← hresult]
    rfl
  fits := by
    intro j h hread
    obtain ⟨cols, -, hread⟩ := Option.bind_eq_some_iff.1 hread
    split at hread
    · obtain ⟨phase, -, hread⟩ := Phase.faithful.of_need hread
      obtain ⟨street, -, hread⟩ := Street.faithful.of_may hread
      obtain ⟨minBet, hminBet, hread⟩ := Json.faithful_amount.of_need hread
      obtain ⟨wager, hwager, hread⟩ := Json.faithful_amount.of_need hread
      obtain ⟨raiseSize, hraiseSize, hread⟩ := Json.faithful_amount.of_need hread
      obtain ⟨raiser, hraiser, hread⟩ := Json.faithful_count.of_need hread
      obtain ⟨turn, hturn, hread⟩ := Json.faithful_count.of_need hread
      obtain ⟨dealt, hdealt, hread⟩ := Json.faithful_count.of_need hread
      obtain ⟨board, -, hread⟩ := Card.list_faithful.of_need hread
      obtain ⟨burned, -, hread⟩ := Card.list_faithful.of_need hread
      obtain ⟨pots, hpots, hread⟩ := (Json.faithful_list SidePot.faithful).of_need hread
      obtain ⟨last, hlast, hread⟩ := LastAction.faithful.of_may hread
      obtain ⟨tasks, htasks, hread⟩ := (Json.faithful_list Task.faithful).of_need hread
      obtain rfl := Option.some.inj hread
      exact ⟨⟨hminBet, hwager, hraiseSize, hraiser, hturn, hdealt, hpots, hlast, htasks⟩, rfl⟩
    · cases hread

theorem faithful : Faithful Hand.toJson Hand.ofJson? Hand.Fits where
  read_write := by
    intro h hfit
    have hcols : h.toJson.columns ["game_id", "created_at", "updated_at", "meta", "status",
        "players", "result"] 0 =
      some [some (.str h.id), some (.int h.createdAt), some (.int h.updatedAt),
        some h.terms.toJson, some h.statusToJson, some (.ofList Seat.toJson h.seats),
        some (.ofOption Payout.toJson h.result)] := rfl
    have hresult := Payout.faithful.may nofun hfit.result
    have hstatus : Json.need h.unplayed.withStatus? (some h.statusToJson) = some h :=
      (status_faithful h.unplayed).need ⟨hfit.status, rfl⟩
    rw [Hand.ofJson?, Json.columns_bind hcols]
    dsimp only
    rw [Json.faithful_text.need trivial, Json.faithful_amount.need hfit.createdAt,
      Json.faithful_amount.need hfit.updatedAt, Terms.faithful.need hfit.terms,
      (Json.faithful_list Seat.faithful).need hfit.seats, hresult]
    exact hstatus
  fits := by
    intro j h hread
    obtain ⟨cols, -, hread⟩ := Option.bind_eq_some_iff.1 hread
    split at hread
    · obtain ⟨id, -, hread⟩ := Json.faithful_text.of_need hread
      obtain ⟨createdAt, hcreatedAt, hread⟩ := Json.faithful_amount.of_need hread
      obtain ⟨updatedAt, hupdatedAt, hread⟩ := Json.faithful_amount.of_need hread
      obtain ⟨terms, hterms, hread⟩ := Terms.faithful.of_need hread
      obtain ⟨seats, hseats, hread⟩ := (Json.faithful_list Seat.faithful).of_need hread
      obtain ⟨result, hresult, hread⟩ := Payout.faithful.of_may hread
      obtain ⟨j, -, hread⟩ := Option.bind_eq_some_iff.1 hread
      obtain ⟨hstatus, hsame⟩ := (status_faithful _).fits hread
      obtain ⟨-, rfl, rfl, rfl, rfl, rfl⟩ := unplayed_eq_iff.1 hsame
      exact ⟨hcreatedAt, hupdatedAt, hterms, hstatus, hseats, hresult⟩
    · cases hread

end Hand

end PokerHand
