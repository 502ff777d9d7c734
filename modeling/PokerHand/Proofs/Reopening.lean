import PokerHand.Proofs.Raises

/-!
# A short all-in leaves everybody the right to raise

An all-in by less than the last raise lifts the wager to match, but nobody has to act again for it
and the least raise stays (`Bidding.keeps_acted`). A seat that has acted gets another turn all the
same, being behind the wager, and what it is offered there depends on the amounts alone: it may
raise once more whenever its chips cover more than the least raise (`raise_after_short_allins`). So
betting that nothing but a short all-in has lifted is open to a further raise
(`raise_reopened_by_short_allin`).
-/
namespace PokerHand.Hand

section Reopening

variable {setup : Setup} {h g : Hand} {s : Seat} {place : Nat} {move : Move} {now : Int}
  {call : Call} {b : Bid}

/-- The seat numbered `place` has acted, and no full raise came after it. -/
def HasActed (h : Hand) (place : Nat) : Prop := ∀ s ∈ h.seats, s.number = place → s.acted = true

theorem HasActed.map {f : Seat → Seat} (ha : h.HasActed place) (hseats : g.seats = h.seats.map f)
    (hnumber : ∀ r, (f r).number = r.number) (hf : ∀ r, r.acted = true → (f r).acted = true) :
    g.HasActed place := by
  rw [HasActed, hseats, List.forall_mem_map]
  exact fun r hr hplace => hf r (ha r hr ((hnumber r).symm.trans hplace))

/-! One bid. -/

/-- The last full raise stays what it was when the wager grows by less. -/
theorem Lifts.keeps_raise (hl : h.Lifts place g) (hshort : g.wager - h.wager < h.raiseSize) :
    g.raiseSize = h.raiseSize ∧ g.raiser = h.raiser := by
  cases hl with
  | kept _ hsize hraiser => exact ⟨hsize, hraiser⟩
  | full hgrows _ _ _ => omega
  | short _ _ hsize hraiser _ => exact ⟨hsize, hraiser⟩

variable [Counting]

/-- None of the calls lifts the wager to match by as much as the least raise. What lifts it by less
is an all-in (`Lifts.short`). -/
def ShortOnly (h : Hand) : List (Int × Call) → Prop
  | [] => True
  | (now, call) :: calls =>
      (h.after now call).wager - h.wager < h.raiseSize ∧ (h.after now call).ShortOnly calls

instance decidableShortOnly :
    ∀ (h : Hand) (calls : List (Int × Call)), Decidable (h.ShortOnly calls)
  | _, [] => inferInstanceAs (Decidable True)
  | h, (now, call) :: calls =>
      have := decidableShortOnly (h.after now call) calls
      inferInstanceAs (Decidable (_ ∧ _))

/-- Whoever moves has acted then. -/
theorem hasActed_settledBy (value : Int)
    (ha : place = s.number ∨ (h.moved s.number move).HasActed place) :
    (h.settledBy s.number move value).HasActed place := by
  have hacted : ((h.moved s.number move).mapSeats (actBy s.number)).HasActed place := by
    refine List.forall_mem_map.2 fun r hr hplace => ?_
    rw [(actBy_alike _ r).number] at hplace
    by_cases hself : r.number = s.number
    · rw [← hself, actBy_self]
    · rw [actBy_other hself]
      exact ha.resolve_left (fun heq => hself (hplace.trans heq)) r hr hplace
  exact hacted.map rfl (fun r => (noted_alike _ _ r).number) fun r hr => by split <;> exact hr

section Counted

variable [setup.Counted]

/-- Only a full raise makes anybody act again. -/
theorem HasActed.moved (ha : h.HasActed place) (hc : h.Staked setup) (ht : Table setup h)
    (hs : s ∈ h.seats) (hfits : move.Fits h.stakes s) (hfull : move.Full h.stakes s)
    (hshort : (h.moved s.number move).wager - h.wager < h.raiseSize) :
    (h.moved s.number move).HasActed place := by
  have hbet : ∀ chips, (h.mapSeats (betBy s.number chips)).HasActed place := by
    refine fun chips => ha.map rfl (fun r => (betBy_same _ chips r).2.1) fun r hacted => ?_
    unfold betBy
    split <;> exact hacted
  cases move with
  | fold =>
      refine ha.map rfl (fun r => (foldBy_same _ r).2.1) fun r hacted => ?_
      unfold foldBy
      split <;> exact hacted
  | check => exact ha
  | call chips => exact hbet chips
  | bet chips | raise chips =>
      have hgrows : h.raiseSize ≤ s.wager + chips - h.wager := hfull
      have hlevel := wagerAt_bet ht hs (Int.le_of_lt hfits.1) hfits.2.1
      have hless : s.wager + chips - h.wager < h.raiseSize := hlevel ▸ hshort
      omega
  | allin chips =>
      have hnonneg := Int.le_of_lt hfits.1
      have hle := Int.le_of_eq hfits.2
      have hlevel := wagerAt_bet ht hs hnonneg hle
      have hexact := (hc.fit_increment ht hs hnonneg hle).1
      revert hshort
      simp only [Hand.moved, afterAllin]
      split
      · exact fun _ => hbet chips
      · split
        · next hgrows =>
          rw [hlevel] at hgrows
          have hraise : h.raiseSize ≤ s.wager + chips - h.wager := hexact ▸ hgrows
          intro hshort
          have hless : s.wager + chips - h.wager < h.raiseSize := hlevel ▸ hshort
          omega
        · exact fun _ => hbet chips

/-- After a bid its seat has acted, and so have all that had unless it raises in full. -/
theorem Bidding.hasActed_of_bids (hb : h.Bidding setup) (hbids : h.Bids now call b g)
    (ha : place = b.place ∨ h.HasActed place ∧ g.wager - h.wager < h.raiseSize) :
    g.HasActed place := by
  obtain ⟨s, hs, hplace, hf, hgrant, move, value, seat, hsettle, hfits, hg⟩ :=
    hb.resting.exists_move_of_perform hbids.bid hbids.made hbids.phase
  have hwager : g.wager = (h.moved s.number move).wager := by
    simp only [hg, settledBy, giveTurn, noted, mapSeats]
  have hsettled : (h.settledBy s.number move value).HasActed place := by
    apply hasActed_settledBy value
    rcases ha with hown | ⟨hacted, hshort⟩
    · exact .inl (hown.trans hplace.symm)
    · have hfull := settle_full hbids.bid hf hgrant hb.wagered hsettle
      exact .inr (hacted.moved hf.atTurn.inRound.staked hf.atTurn.inRound.table hs hfits hfull
        (hwager ▸ hshort))
  rw [hg]
  exact hsettled.map rfl (fun _ => rfl) fun _ hacted => hacted

/-! A round in which nobody raises in full. -/

/-- Short all-ins take from nobody that it has acted, and leave the last full raise. -/
theorem Bidding.keeps_acted (ha : setup.Accepted) (hb : h.Bidding setup)
    (hacted : h.HasActed place) {calls : List (Int × Call)} (hshort : h.ShortOnly calls)
    (hp : (h.play calls).phase = .roundStarted) (hstreet : (h.play calls).street = h.street) :
    (h.play calls).Bidding setup ∧ (h.play calls).HasActed place ∧
      (h.play calls).raiseSize = h.raiseSize ∧ (h.play calls).raiser = h.raiser := by
  induction calls generalizing h with
  | nil => exact ⟨hb, hacted, rfl, rfl⟩
  | cons call calls ih =>
      have hplay : h.play (call :: calls) = (h.after call.1 call.2).play calls := rfl
      obtain ⟨hless, hrest⟩ := hshort
      rw [hplay] at hp hstreet ⊢
      rcases hb.after ha hp hstreet with hsame | ⟨hnext, hopen, b, hbids⟩
      · rw [hsame] at hrest hp hstreet ⊢
        exact ih hb hacted hrest hp hstreet
      · have hstays := hb.hasActed_of_bids hbids (.inr ⟨hacted, hless⟩)
        obtain ⟨hsize, hraiser⟩ := (hb.lifts hbids).1.keeps_raise hless
        obtain ⟨hlast, hends, hsizes, hraisers⟩ :=
          ih hnext hstays hrest hp (hstreet.trans hopen.symm)
        exact ⟨hlast, hends, hsizes.trans hsize, hraisers.trans hraiser⟩

/-- A seat that has acted and comes to another turn is behind the wager to match, and is offered to
raise whenever its chips cover more than the least raise. -/
theorem AtTurn.allowed_of_hasActed (ht : h.AtTurn setup) (ha : h.HasActed h.turn) :
    ∃ s, h.seats[h.turn]? = some s ∧ s.acted = true ∧ s.wager < h.wager ∧
      s.allowed = [.allin, .fold, .call] ++
        if s.stack + s.wager > h.wager + h.raiseSize then [.raise] else [] := by
  obtain ⟨s, hfind⟩ : ∃ s, h.seats[h.turn]? = some s := ⟨_, List.getElem?_eq_getElem ht.turn_lt⟩
  have hs := List.mem_of_getElem? hfind
  have hturn := ht.inRound.table.numbered.number_of_getElem? hfind
  have hacted := ha s hs hturn
  have hbehind : s.wager < h.wager :=
    Int.not_le.1 fun hmatched => ht.undone s hs hturn ⟨hacted, hmatched⟩
  have hmovable := ht.movable s hs hturn
  obtain ⟨street, ho⟩ := ht.inRound.onStreet
  have hstaked : h.Staked setup := ht.inRound.staked
  have hwithin := hstaked.within ho.scene.table ho.scene.minBet hs hmovable
  refine ⟨s, hfind, hacted, hbehind, ?_⟩
  rw [ht.offers s hs, if_pos hturn, Stakes.offers_of_movable hmovable, hwithin.fit_own,
    hwithin.fit_least]
  exact if_pos hbehind

end Counted

/-- As long as a machine word holds the chips of the hand: a seat acts, and until its next turn in
the round nothing but short all-ins lifts the wager to match. Then it is behind that wager, the
least raise is the one that it had left, and it is offered to raise exactly when its chips cover
more than this raise: the short all-ins take the right to raise from nobody who has acted. -/
theorem raise_after_short_allins [Counting.Faithful] {id : String} {created : Int}
    (hc : create setup id created = .ok h) (hmodest : setup.Modest) (calls : List (Int × Call))
    {acted : Hand} (hbid : (h.play calls).bid? call = some b)
    (hok : ((h.play calls).perform now call).outcome = .ok acted) (later : List (Int × Call))
    (hshort : acted.ShortOnly later) (hp : (acted.play later).phase = .roundStarted)
    (hstreet : (acted.play later).street = (h.play calls).street)
    (hturn : (acted.play later).turn = b.place) :
    ∃ s, (acted.play later).seats[b.place]? = some s ∧ s.acted = true ∧
      s.wager < (acted.play later).wager ∧ (acted.play later).raiseSize = acted.raiseSize ∧
      (acted.play later).raiser = acted.raiser ∧
      s.allowed = [.allin, .fold, .call] ++
        if s.stack + s.wager > (acted.play later).wager + acted.raiseSize then [.raise] else [] := by
  have := hmodest.counted
  have ha := (fresh_of_create hc).accepted
  have hb := bidding_of_create hc calls ((resting_of_create hc calls).phase_of_bid hbid hok)
  obtain ⟨hnext, hopen, b', hbids⟩ := hb.of_perform ha hok hp hstreet
  obtain rfl : b = b' := Option.some.inj (hbid.symm.trans hbids.bid)
  have hacted := hb.hasActed_of_bids hbids (.inl rfl)
  obtain ⟨hlast, hends, hsize, hraiser⟩ :=
    hnext.keeps_acted ha hacted hshort hp (hstreet.trans hopen.symm)
  rw [← hturn] at hends ⊢
  obtain ⟨s, hfind, hdone, hbehind, hallowed⟩ := hlast.atTurn.allowed_of_hasActed hends
  exact ⟨s, hfind, hdone, hbehind, hsize, hraiser, hsize ▸ hallowed⟩

end Reopening

/-- The small blind of three players is all in with 18, and the dealer, who has called 10 before,
has too few chips left to raise by 10. -/
theorem raise_after_short_allins_uncovered :
    let calls := [(1, .start), (2, .readyAll), (3, .payBlinds), (4, .readyAll)]
    let later := [(6, .allin 1), (7, .call 2)]
    ∃ h acted s,
      create ⟨.standard, [⟨24, [.dealer]⟩, ⟨18, [.smallBlind]⟩, ⟨100, [.bigBlind]⟩]⟩ "" 0 = .ok h ∧
      ((h.play calls).perform 5 (.call 0)).outcome = .ok acted ∧ acted.ShortOnly later ∧
      (acted.play later).phase = .roundStarted ∧
      (acted.play later).street = (h.play calls).street ∧ (acted.play later).turn = 0 ∧
      (acted.play later).seats[0]? = some s ∧ s.acted = true ∧
      s.wager < (acted.play later).wager ∧ (acted.play later).raiseSize = acted.raiseSize ∧
      s.allowed = [.allin, .fold, .call] := by
  intro calls later
  obtain ⟨h, acted, hc, hok, hshort, hp, hstreet, hturn, hchips⟩ : ∃ h acted,
      create ⟨.standard, [⟨24, [.dealer]⟩, ⟨18, [.smallBlind]⟩, ⟨100, [.bigBlind]⟩]⟩ "" 0 = .ok h ∧
      ((h.play calls).perform 5 (.call 0)).outcome = .ok acted ∧ acted.ShortOnly later ∧
      (acted.play later).phase = .roundStarted ∧
      (acted.play later).street = (h.play calls).street ∧ (acted.play later).turn = 0 ∧
      ∀ s, (acted.play later).seats[0]? = some s →
        ¬ s.stack + s.wager > (acted.play later).wager + acted.raiseSize :=
    ⟨_, _, rfl, rfl, by decide +kernel⟩
  obtain ⟨s, hfind, hacted, hbehind, hsize, -, hallowed⟩ :=
    raise_after_short_allins hc (by decide) calls rfl hok later hshort hp hstreet hturn
  rw [if_neg (hchips s hfind)] at hallowed
  exact ⟨h, acted, s, hc, hok, hshort, hp, hstreet, hturn, hfind, hacted, hbehind, hsize, hallowed⟩

/-- With more chips the dealer, who has called 10 and whom only the all-in with 18 has put behind
the wager, is offered to raise again and raises. -/
theorem raise_reopened_by_short_allin :
    let calls := [(1, .start), (2, .readyAll), (3, .payBlinds), (4, .readyAll)]
    let later := [(6, .allin 1), (7, .call 2)]
    ∃ h acted,
      create ⟨.standard, [⟨100, [.dealer]⟩, ⟨18, [.smallBlind]⟩, ⟨100, [.bigBlind]⟩]⟩ "" 0 = .ok h ∧
      ((h.play calls).perform 5 (.call 0)).outcome = .ok acted ∧ acted.ShortOnly later ∧
      (acted.play later).phase = .roundStarted ∧
      (acted.play later).street = (h.play calls).street ∧ (acted.play later).turn = 0 ∧
      (acted.play later).seats[0]?.map Seat.acted = some true ∧
      (acted.play later).seats[0]?.map Seat.allowed = some [.allin, .fold, .call, .raise] ∧
      ((acted.play later).perform 8 (.raise 0 40)).outcome.isOk = true :=
  ⟨_, _, rfl, rfl, by decide +kernel⟩

end PokerHand.Hand
