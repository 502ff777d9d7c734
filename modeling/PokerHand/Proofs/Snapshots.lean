import PokerHand.Journal
import PokerHand.Proofs.Outcome
import PokerHand.Proofs.Snapshot.Hand

/-!
# Snapshots survive being written and read

A hand and a journal record read back as they were written, as long as their numbers are ones that
their types hold. What is read from any JSON value at all has such numbers, however the value was
laid out, so it survives being written once more.
-/
namespace PokerHand

open Text.Numeral

structure Record.Fits (r : Record) : Prop where
  number : r.number < Record.numberBound
  last : ∀ l ∈ r.last, l.Fits
  pots : ∀ p ∈ r.pots, p.Fits
  result : ∀ p ∈ r.result, p.Fits

theorem Record.faithful : Faithful Record.toJson Record.ofJson? Record.Fits where
  read_write := by
    intro r h
    have hcols : r.toJson.columns ["game_id", "seq", "event", "round", "last_action", "board",
        "pots", "result", "ts"] 2 =
      some [some (.str r.handId), some (.nat r.number), some r.phase.toJson,
        some (.ofOption Street.toJson r.street), some (.ofOption LastAction.toJson r.last),
        some (Card.listToJson r.board), some (.ofList SidePot.toJson r.pots),
        some (.ofOption Payout.toJson r.result), some (.ofOption .str r.time)] := rfl
    have hstreet := Street.faithful.may nofun fun s (_ : s ∈ r.street) => trivial
    have hlast := LastAction.faithful.may nofun h.last
    have hresult := Payout.faithful.may nofun h.result
    have htime := Json.faithful_text.may nofun fun t (_ : t ∈ r.time) => trivial
    rw [Record.ofJson?, Json.columns_bind hcols]
    dsimp only
    rw [Json.faithful_text.need trivial, (Json.faithful_below _).need h.number,
      Phase.faithful.need trivial, hstreet, hlast, Card.list_faithful.need trivial,
      (Json.faithful_list SidePot.faithful).need h.pots, hresult, htime]
    rfl
  fits := by
    intro j r h
    obtain ⟨cols, -, h⟩ := Option.bind_eq_some_iff.1 h
    split at h
    · obtain ⟨handId, -, h⟩ := Json.faithful_text.of_need h
      obtain ⟨number, hnumber, h⟩ := (Json.faithful_below _).of_need h
      obtain ⟨phase, -, h⟩ := Phase.faithful.of_need h
      obtain ⟨street, -, h⟩ := Street.faithful.of_may h
      obtain ⟨last, hlast, h⟩ := LastAction.faithful.of_may h
      obtain ⟨board, -, h⟩ := Card.list_faithful.of_need h
      obtain ⟨pots, hpots, h⟩ := (Json.faithful_list SidePot.faithful).of_need h
      obtain ⟨result, hresult, h⟩ := Payout.faithful.of_may h
      obtain ⟨time, -, h⟩ := Json.faithful_text.of_may h
      obtain rfl := Option.some.inj h
      exact ⟨hnumber, hlast, hpots, hresult⟩
    · cases h

/-- The record of a hand whose numbers fit fits. -/
theorem Record.fits_ofHand {h : Hand} (hfit : h.Fits) {number : Nat}
    (hnumber : number < Record.numberBound) : (Record.ofHand h number).Fits :=
  ⟨hnumber, hfit.status.last, hfit.status.pots, hfit.result⟩

/-- A hand that is made for a setup whose numbers fit fits. -/
theorem Hand.fits_of_create {setup : Setup} {id : String} {now : Int} {h : Hand}
    (hc : create setup id now = .ok h) (hfit : setup.Fits) (hnow : isAmount now)
    (hcount : setup.players.length ≤ countBound) : h.Fits := by
  obtain ⟨u, -, hr⟩ := Outcome.ok_of_bind hc
  have hunplayed : h.unplayed = h := by
    rw [← Except.ok.inj hr]
    rfl
  have hstatus : h.StatusFits := hunplayed ▸ h.statusFits_unplayed
  obtain rfl := Except.ok.inj hr
  have hseats : ∀ s ∈ setup.players.mapIdx fun seat p => Seat.fresh seat p.bankroll p.positions,
      s.Fits := by
    intro s hs
    obtain ⟨place, hplace, rfl⟩ := List.mem_mapIdx.1 hs
    have hbankroll : isAmount setup.players[place].bankroll :=
      hfit.players _ (List.getElem_mem hplace)
    have hzero : isAmount 0 := by decide
    exact ⟨Nat.lt_of_lt_of_le hplace hcount, hbankroll, hbankroll, hbankroll, hzero, hzero, nofun⟩
  exact ⟨hnow, hnow, hfit.terms, hstatus, hseats, nofun⟩

/-- Hands and records read back as they were written, and what was read from any value at all reads
back once it is written again. -/
theorem snapshots_survive :
    (∀ h : Hand, h.Fits → Hand.ofJson? h.toJson = some h) ∧
      (∀ r : Record, r.Fits → Record.ofJson? r.toJson = some r) ∧
      (∀ (j : Json) (h : Hand), Hand.ofJson? j = some h → Hand.ofJson? h.toJson = some h) ∧
      ∀ (j : Json) (r : Record), Record.ofJson? j = some r → Record.ofJson? r.toJson = some r :=
  ⟨fun _ => Hand.faithful.read_write, fun _ => Record.faithful.read_write,
    fun _ _ => Hand.faithful.reread, fun _ _ => Record.faithful.reread⟩

/-- A hand with the greatest stacks, made at the earliest time, waits for two payments, one of them
from the last seat that can be numbered. A record with the greatest number is written as well, and
one is read from a list that leaves out its end and names a card in small letters. -/
theorem snapshots_survive_extremes :
    ∃ h, Hand.create ⟨.standard, Setup.entries 2 greatestAmount⟩ "" leastAmount = .ok h ∧
      (let paid := SeatMap.ofList [(0, 5), (18446744073709551615, leastAmount)]
       let waiting := { h with tasks := [⟨.bigBlind, .pay paid, paid, false⟩] }
       Hand.ofJson? waiting.toJson = some waiting ∧
        Record.ofJson? (Record.ofHand waiting 4294967295).toJson =
          some (Record.ofHand waiting 4294967295)) ∧
      Hand.ofJson? h.toJson = some h ∧
      ∃ r, Record.ofJson? (.arr [.str "", .int 1, .str "RoundStarted", .null, .null,
          .arr [.str "sa"], .arr []]) = some r ∧ Record.ofJson? r.toJson = some r := by
  have hc : Hand.create ⟨.standard, Setup.entries 2 greatestAmount⟩ "" leastAmount = .ok _ := rfl
  have hterms : Terms.standard.Fits :=
    ⟨by decide, ⟨by decide, by decide, by decide⟩, by decide, by decide, by decide⟩
  have hplayers : ∀ e ∈ Setup.entries 2 greatestAmount, e.Fits := by
    intro e he
    obtain ⟨seat, -, rfl⟩ := List.mem_map.1 he
    show isAmount greatestAmount
    decide
  have hpaid : (SeatMap.ofList [(0, 5), (18446744073709551615, leastAmount)]).Fits
      fun chips => isAmount chips := by
    unfold SeatMap.Fits
    decide
  have hfit := Hand.fits_of_create hc ⟨hterms, hplayers⟩ (by decide) (by decide)
  have hwaiting : ∀ {h : Hand} {t : Task}, h.Fits → t.Fits → Hand.Fits { h with tasks := [t] } :=
    fun hfit ht =>
      { hfit with status := { hfit.status with tasks := List.forall_mem_singleton.2 ht } }
  have hlater := hwaiting hfit (Task.Fits.mk (t := ⟨.bigBlind, .pay _, _, false⟩) hpaid hpaid)
  have hlist : Record.ofJson? (.arr [.str "", .int 1, .str "RoundStarted", .null, .null,
      .arr [.str "sa"], .arr []]) = some _ := rfl
  obtain ⟨hhand, hrecord, hhands, hrecords⟩ := snapshots_survive
  exact ⟨_, hc, ⟨hhand _ hlater, hrecord _ (Record.fits_ofHand hlater (by decide))⟩,
    hhands _ _ (hhand _ hfit), _, hlist, hrecords _ _ hlist⟩

end PokerHand
