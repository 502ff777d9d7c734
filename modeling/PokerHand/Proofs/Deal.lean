import PokerHand.Proofs.Course
import PokerHand.Proofs.Deal.Frame
import PokerHand.Proofs.Deal.Shares
import PokerHand.Proofs.Deal.Spread

/-!
# Every card is accounted for

The phases that a hand has entered tell where its cards lie (`Laid`): nowhere but in the deck before
the deal, then in the shares of the seats, and street after street among the burned and the board
cards. So no card is dealt twice and none is skipped.
-/
namespace PokerHand

namespace Setup

/-- The place of the player who deals. -/
def dealer? (s : Setup) : Option Nat := s.players.findIdx? fun p => p.positions.contains .dealer

/-- The hole cards of the seats once they are dealt. -/
def shares (s : Setup) (dealer : Nat) : List (List Card) :=
  (List.range s.players.length).map <|
    Hand.share (s.terms.deck.take s.holeCards) s.players.length s.terms.holeCount dealer

/-- What the streets up to the open one burned and laid on the board. -/
def spread (s : Setup) (street : Option Street) : List Card × List Card :=
  Hand.spread s.terms.burnCount (Street.upTo street).tail (s.terms.deck.drop s.holeCards)

/-- The cards before the deal. -/
def undealt (s : Setup) : Layout := ⟨s.terms, none, 0, [], [], s.players.map fun _ => []⟩

/-- The cards after the deal, with a street open or none yet. -/
def laid (s : Setup) (dealer : Nat) (street : Option Street) : Layout where
  terms := s.terms
  street := street
  dealt := s.dealtBy (street.getD .preflop)
  burned := (s.spread street).1
  board := (s.spread street).2
  holes := s.shares dealer

variable {s : Setup} {dealer : Nat} {street last : Street}

theorem dealer_lt (hd : s.dealer? = some dealer) : dealer < s.players.length :=
  (List.findIdx?_eq_some_iff_getElem.1 hd).1

theorem holeCards_pos (ha : s.Accepted) : 0 < s.holeCards := by
  have hplayers := ha.two_le_players
  exact Nat.mul_pos ha.holeCount_pos (by omega)

theorem holeCards_le_dealtBy (s : Setup) (street : Street) : s.holeCards ≤ s.dealtBy street := by
  cases street <;> simp only [dealtBy] <;> omega

theorem spread_next (hnext : last.next? = some street) :
    s.spread (some street) =
      ((s.spread (some last)).1 ++
          (s.terms.deck.drop (s.dealtBy last)).take s.terms.burnCount,
        (s.spread (some last)).2 ++
          (s.terms.deck.drop (s.dealtBy last + s.terms.burnCount)).take street.boardCards) := by
  rw [spread, Street.tail_upTo_next hnext, Hand.spread_concat]
  simp only [List.drop_drop, ← Nat.add_assoc, s.holeCards_add_spreadCount]
  rfl

/-- The streets up to the open one leave the deck where the deal stands. -/
theorem spread_perm (s : Setup) (street : Option Street) :
    (s.terms.deck.take s.holeCards ++ ((s.spread street).1 ++ (s.spread street).2)).Perm
      (s.terms.deck.take (s.dealtBy (street.getD .preflop))) := by
  have hcount : s.holeCards + Hand.spreadCount s.terms.burnCount (Street.upTo street).tail =
      s.dealtBy (street.getD .preflop) := by
    cases street with
    | none => rfl
    | some street => exact s.holeCards_add_spreadCount street
  rw [← hcount, List.take_add]
  exact .append_left _ (Hand.spread_perm _)

theorem length_spread {street : Option Street}
    (hdeck : s.dealtBy (street.getD .preflop) ≤ s.terms.deck.length) :
    s.dealtBy (street.getD .preflop) =
      s.holeCards + (s.spread street).1.length + (s.spread street).2.length := by
  have hlength := (s.spread_perm street).length_eq
  have hhole := (s.holeCards_le_dealtBy (street.getD .preflop)).trans hdeck
  rw [List.length_append, List.length_append, List.length_take_of_le hdeck,
    List.length_take_of_le hhole] at hlength
  omega

theorem shares_perm (hdeck : s.holeCards ≤ s.terms.deck.length) (hd : s.dealer? = some dealer) :
    (s.shares dealer).flatten.Perm (s.terms.deck.take s.holeCards) := by
  have hlength : (s.terms.deck.take s.holeCards).length =
      s.terms.holeCount * s.players.length := List.length_take_of_le hdeck
  exact Hand.shares_perm hlength (dealer_lt hd)

end Setup

theorem Table.dealerSeat_eq_ok_iff [Counting] {setup : Setup} {h : Hand} {dealer : Nat}
    (ht : Table setup h) : h.dealerSeat = .ok dealer ↔ setup.dealer? = some dealer := by
  have hsame : setup.dealer? = h.seats.findIdx? fun s => s.holds .dealer := by
    rw [Setup.dealer?, ← ht.entries, List.findIdx?_map]
    rfl
  rw [hsame, Hand.dealerSeat]
  cases h.seats.findIdx? fun s => s.holds .dealer <;> simp

namespace Hand

variable {setup : Setup} {h h' : Hand} {dealer : Nat} {seen : List Phase} {phase : Phase}

/-- The cards lie where the phases seen put them, and the deck had all that are dealt. -/
structure Laid (setup : Setup) (dealer : Nat) (seen : List Phase) (h : Hand) : Prop where
  streets : ∀ street, .entered street ∈ seen ↔ street ∈ Street.upTo h.street
  layout : h.layout = if .prepared ∈ seen then setup.laid dealer h.street else setup.undealt
  dealt_le : h.dealt ≤ setup.terms.deck.length

namespace Laid

theorem of_layout (hl : Laid setup dealer seen h) (hsame : h'.layout = h.layout) :
    Laid setup dealer seen h' := by
  have hstreet : h'.street = h.street := congrArg Layout.street hsame
  have hdealt : h'.dealt = h.dealt := congrArg Layout.dealt hsame
  exact ⟨hstreet ▸ hl.streets, hstreet ▸ hsame.trans hl.layout, hdealt ▸ hl.dealt_le⟩

/-- A phase that deals no cards does not matter. -/
theorem pass (hl : Laid setup dealer seen h) (hdeals : ¬ Deals phase) :
    Laid setup dealer (seen ++ [phase]) h := by
  have hprepared : phase ≠ .prepared := fun hp => hdeals (.inl hp)
  have hentered : ∀ street, phase ≠ .entered street := fun street hp => hdeals (.inr ⟨street, hp⟩)
  refine ⟨fun street => ?_, ?_, hl.dealt_le⟩
  · simpa [(hentered street).symm] using hl.streets street
  · simpa [hprepared.symm] using hl.layout

theorem carries {r : Hand × Option Phase} (hl : Laid setup dealer seen r.1) :
    Carries (Laid setup dealer seen) (Laid setup dealer seen) r := by
  obtain ⟨g, next⟩ := r
  cases next with
  | none => exact hl
  | some phase => exact hl.of_layout rfl

theorem before_deal (hl : Laid setup dealer seen h) (hmem : .prepared ∉ seen) :
    h.dealt = 0 ∧ h.burned = [] ∧ h.board = [] ∧ ∀ s ∈ h.seats, s.hole = [] := by
  have hlayout := hl.layout
  rw [if_neg hmem] at hlayout
  have hholes : h.seats.map Seat.hole = setup.players.map fun _ => [] :=
    congrArg Layout.holes hlayout
  refine ⟨congrArg Layout.dealt hlayout, congrArg Layout.burned hlayout,
    congrArg Layout.board hlayout, fun s hs => ?_⟩
  have hhole : s.hole ∈ setup.players.map fun _ => ([] : List Card) :=
    hholes ▸ List.mem_map_of_mem hs
  obtain ⟨_, -, hnil⟩ := List.mem_map.1 hhole
  exact hnil.symm

theorem after_deal (hl : Laid setup dealer seen h) (hmem : .prepared ∈ seen) :
    h.dealt = setup.dealtBy (h.street.getD .preflop) ∧ h.burned = (setup.spread h.street).1 ∧
      h.board = (setup.spread h.street).2 ∧ h.seats.map Seat.hole = setup.shares dealer := by
  have hlayout := hl.layout
  rw [if_pos hmem] at hlayout
  exact ⟨congrArg Layout.dealt hlayout, congrArg Layout.burned hlayout,
    congrArg Layout.board hlayout, congrArg Layout.holes hlayout⟩

theorem not_mem_prepared (ha : setup.Accepted) (hl : Laid setup dealer seen h)
    (hdealt : h.dealt = 0) : .prepared ∉ seen := by
  intro hmem
  have hpos := Setup.holeCards_pos ha
  have hle := setup.holeCards_le_dealtBy (h.street.getD .preflop)
  have hafter := (hl.after_deal hmem).1
  omega

theorem mem_prepared (ha : setup.Accepted) (hl : Laid setup dealer seen h)
    (hdealt : setup.holeCards ≤ h.dealt) : .prepared ∈ seen := by
  by_contra hmem
  have hpos := Setup.holeCards_pos ha
  have hbefore := (hl.before_deal hmem).1
  omega

/-- The deck has all cards up to the open street, and all hole cards. -/
theorem deck_le (hl : Laid setup dealer seen h) (hmem : .prepared ∈ seen) :
    setup.dealtBy (h.street.getD .preflop) ≤ setup.terms.deck.length ∧
      setup.holeCards ≤ setup.terms.deck.length := by
  have hle := hl.dealt_le
  rw [(hl.after_deal hmem).1] at hle
  exact ⟨hle, (setup.holeCards_le_dealtBy _).trans hle⟩

/-- The first street takes no cards. -/
theorem entered_preflop (hl : Laid setup dealer seen h) (hmem : .prepared ∈ seen)
    (hstreet : h.street = none) :
    Laid setup dealer (seen ++ [.entered .preflop]) { h with street := some .preflop } := by
  have hlayout := hl.layout
  have hstreets := hl.streets
  rw [hstreet] at hlayout hstreets
  refine ⟨fun street => ?_, ?_, hl.dealt_le⟩
  · have hnone := hstreets street
    simp only [Street.upTo, List.not_mem_nil, iff_false] at hnone
    simp [Street.upTo, hnone]
  · rw [if_pos hmem] at hlayout
    rw [if_pos (List.mem_append_left _ hmem)]
    show { h.layout with street := some .preflop } = setup.laid dealer (some .preflop)
    rw [hlayout]
    rfl

section Phases

variable [Counting]

/-- The deal gives every seat its share. -/
theorem prepared (ha : setup.Accepted) (hd : setup.dealer? = some dealer)
    (hl : Laid setup dealer seen h) (hp : h.phase = .prepared) (he : h.Entering setup)
    {r : Hand × Option Phase} (hr : h.react = .ok r) :
    Laid setup dealer (seen ++ [.prepared]) r.1 := by
  rw [Entering, hp] at he
  obtain ⟨⟨⟨ht, -, hstreet, hdealt⟩, -⟩, -⟩ := he
  rw [react_eq hp, reaction] at hr
  obtain ⟨dealt, hdeal, hr⟩ := Outcome.ok_of_bind hr
  have hdeck := holeCards_le_of_dealHole ht hdealt hdeal
  rw [dealHole_eq_ok ht hdealt (ht.dealerSeat_eq_ok_iff.2 hd) hdeck] at hdeal
  obtain rfl := Except.ok.inj hdeal
  obtain rfl := Except.ok.inj hr
  obtain ⟨-, hburned, hboard, hempty⟩ := hl.before_deal (hl.not_mem_prepared ha hdealt)
  have hholes : h.seats.map (Seat.hole ∘ setup.serve dealer) = setup.shares dealer := by
    let deal := share (setup.terms.deck.take setup.holeCards) setup.players.length
      setup.terms.holeCount dealer
    calc h.seats.map (Seat.hole ∘ setup.serve dealer)
        = h.seats.map (deal ∘ Seat.number) := List.map_congr_left fun s hs => by
          simp [Setup.serve, deal, hempty s hs]
      _ = (h.seats.map Seat.number).map deal := List.map_map.symm
      _ = setup.shares dealer := by rw [ht.numbered, ht.length_seats, Setup.shares]
  have hnow : .prepared ∈ seen ++ [.prepared] := List.mem_append_right _ (List.mem_singleton_self _)
  refine ⟨fun street => by simpa using hl.streets street, ?_, hdeck⟩
  rw [if_pos hnow]
  simp only [Hand.layout, List.map_map, hholes, ht.terms, hstreet, hburned, hboard]
  rfl

/-- A later street burns the next cards and lays those behind them on the board. -/
theorem entered_next (ht : Table setup h) (hl : Laid setup dealer seen h)
    (hmem : .prepared ∈ seen) {last street : Street} (hnext : last.next? = some street)
    (hstreet : h.street = some last) (hdeck : setup.dealtBy street ≤ setup.terms.deck.length) :
    Laid setup dealer (seen ++ [.entered street]) { h with
      street := some street
      dealt := setup.dealtBy street
      burned := h.burned ++
        (setup.terms.deck.drop (setup.dealtBy last)).take setup.terms.burnCount
      board := h.board ++
        (setup.terms.deck.drop (setup.dealtBy last + setup.terms.burnCount)).take
          street.boardCards } := by
  obtain ⟨-, hburned, hboard, hholes⟩ := hl.after_deal hmem
  have hstreets := hl.streets
  rw [hstreet] at hburned hboard hstreets
  refine ⟨fun other => ?_, ?_, hdeck⟩
  · simp only [Street.upTo_next hnext, List.mem_append, hstreets other, List.mem_singleton,
      Phase.entered.injEq]
  · rw [if_pos (List.mem_append_left _ hmem)]
    simp only [Hand.layout, Setup.laid, Setup.spread_next hnext, hburned, hboard, ht.terms, hholes,
      Option.getD_some]

theorem entered (ha : setup.Accepted) (hl : Laid setup dealer seen h) {street : Street}
    (hp : h.phase = .entered street) (he : h.Entering setup) {r : Hand × Option Phase}
    (hr : h.react = .ok r) : Laid setup dealer (seen ++ [.entered street]) r.1 := by
  have hafter : street = .preflop ∧ h.Scene setup none setup.holeCards ∨
      ∃ last, last.next? = some street ∧ h.Scene setup (some last) (setup.dealtBy last) := by
    rw [Entering, hp] at he
    cases street with
    | preflop => exact .inl ⟨rfl, he.1.scene⟩
    | flop | turn | river =>
        obtain ⟨last, hnext, hb⟩ := he
        exact .inr ⟨last, hnext, hb.onStreet.scene⟩
  rw [react_eq hp, reaction] at hr
  rcases hafter with ⟨rfl, hscene⟩ | ⟨last, hnext, hscene⟩
  · obtain rfl := Except.ok.inj hr
    exact hl.entered_preflop (hl.mem_prepared ha hscene.dealt.ge) hscene.street
  · have hne : street ≠ .preflop := by rintro rfl; cases last <;> simp [Street.next?] at hnext
    simp only [hne, if_false] at hr
    obtain ⟨dealt, hdeal, hr⟩ := Outcome.ok_of_bind hr
    have hdeck := dealtBy_le_of_dealBoard (h := { h with street := some street })
      hscene.table.terms hnext hscene.dealt hdeal
    rw [dealBoard_eq_ok (h := { h with street := some street }) hscene.table.terms hnext
      hscene.dealt hdeck] at hdeal
    obtain rfl := Except.ok.inj hdeal
    obtain rfl := Except.ok.inj hr
    have hmem := hl.mem_prepared ha (hscene.dealt ▸ setup.holeCards_le_dealtBy last)
    exact hl.entered_next hscene.table hmem hnext hscene.street hdeck

end Phases

/-- The `j`th seat after the dealer holds the `j`th card of each round of the deal. -/
theorem map_some_hole (hd : setup.dealer? = some dealer) (hl : Laid setup dealer seen h)
    (hmem : .prepared ∈ seen) {j : Nat} (hone : 1 ≤ j)
    (hle : j ≤ setup.players.length) :
    ∃ s, h.seats[(dealer + j) % setup.players.length]? = some s ∧
      s.hole.map some = (List.range setup.terms.holeCount).map fun i =>
        setup.terms.deck[i * setup.players.length + (j - 1)]? := by
  obtain ⟨-, -, -, hholes⟩ := hl.after_deal hmem
  have hdealer := Setup.dealer_lt hd
  have hplace : (dealer + j) % setup.players.length < setup.players.length :=
    Nat.mod_lt _ (by omega)
  have hlength : (setup.terms.deck.take setup.holeCards).length =
      setup.terms.holeCount * setup.players.length :=
    List.length_take_of_le (hl.deck_le hmem).2
  have hseat := congrArg (·[(dealer + j) % setup.players.length]?) hholes
  simp only [List.getElem?_map, Setup.shares, List.getElem?_range hplace, Option.map_some] at hseat
  obtain ⟨s, hs, hhole⟩ := Option.map_eq_some_iff.1 hseat
  refine ⟨s, hs, ?_⟩
  rw [hhole, map_some_share hlength hplace, before_add hdealer hone hle]
  refine List.map_congr_left fun i hi => List.getElem?_take_of_lt ?_
  exact round_lt (List.mem_range.1 hi) (by omega)

/-- The cards on the table are those that are dealt. -/
theorem perm (hd : setup.dealer? = some dealer) (hl : Laid setup dealer seen h) :
    (h.seats.flatMap Seat.hole ++ h.burned ++ h.board).Perm
      (setup.terms.deck.take h.dealt) := by
  by_cases hmem : .prepared ∈ seen
  · obtain ⟨hdealt, hburned, hboard, hholes⟩ := hl.after_deal hmem
    rw [List.append_assoc, List.flatMap_def, hholes, hburned, hboard, hdealt]
    exact ((Setup.shares_perm (hl.deck_le hmem).2 hd).append_right _).trans
      (setup.spread_perm h.street)
  · obtain ⟨hdealt, hburned, hboard, hempty⟩ := hl.before_deal hmem
    have hholes : h.seats.flatMap Seat.hole = [] := List.flatMap_eq_nil_iff.2 hempty
    rw [hholes, hburned, hboard, hdealt]
    exact .refl _

theorem streets_eq (hl : Laid setup dealer seen h) :
    [Street.flop, .turn, .river].filter (fun s => .entered s ∈ seen) =
      (Street.upTo h.street).tail := by
  rw [Street.tail_upTo]
  exact List.filter_congr fun street _ => by simp only [hl.streets street]

end Laid

theorem layout_of_create {id : String} {now : Int} (hc : create setup id now = .ok h) :
    h.layout = setup.undealt := by
  obtain ⟨_, -, hc⟩ := Outcome.ok_of_bind hc
  obtain rfl := Except.ok.inj hc
  have hholes : (setup.players.mapIdx fun seat p => Seat.fresh seat p.bankroll p.positions).map
      Seat.hole = setup.players.map fun _ => [] :=
    List.ext_getElem? fun i => by
      rw [List.getElem?_map, List.getElem?_mapIdx, List.getElem?_map]
      cases setup.players[i]? <;> rfl
  simp only [Hand.layout, Setup.undealt, hholes]

section Course

variable [Counting]

/-- However a hand is played its cards lie where its course puts them. -/
theorem chronicle_laid (ha : setup.Accepted) (hd : setup.dealer? = some dealer) :
    Chronicle setup (Laid setup dealer) (Laid setup dealer) where
  react := by
    intro seen h r he hl hr
    refine Laid.carries ?_
    by_cases hdeals : Deals h.phase
    · rcases hdeals with hp | ⟨street, hp⟩
      · exact hp ▸ hl.prepared ha hd hp he hr
      · exact hp ▸ hl.entered ha hp he hr
    · exact (hl.pass hdeals).of_layout (react_layout hdeals hr)
  launch := fun _ hl hlaunch => (hl.of_layout (launch_layout hlaunch)).carries
  withTime := fun _ hl => hl.of_layout rfl

/-- Where the cards of a played hand lie. -/
theorem laid_of_create {id : String} {now : Int} (hc : create setup id now = .ok h)
    (calls : List (Int × Call)) :
    ∃ dealer, setup.dealer? = some dealer ∧
      Laid setup dealer (h.course calls) (h.play calls) := by
  have hf := fresh_of_create hc
  obtain ⟨dealer, hdealer⟩ := hf.table.dealerSeat_eq_ok hf.accepted
  have hd := hf.table.dealerSeat_eq_ok_iff.1 hdealer
  have hfresh : Laid setup dealer [] h :=
    ⟨fun street => by simp [hf.street, Street.upTo], by simpa using layout_of_create hc,
      hf.dealt ▸ Nat.zero_le _⟩
  exact ⟨dealer, hd, (chronicle_laid hf.accepted hd).play hf.accepted hf.resting hfresh calls⟩

/-- Every card is accounted for. Before the deal all cards are in the deck. After it the `j`th seat
after the dealer holds the `j`th card of each round of the deal; the flop, the turn and the river,
as far as they are entered, take the next cards to burn and for the board; and nothing else is
taken. So the cards on the table are those that are dealt, and no two of them are the same. -/
theorem cards_accounted {id : String} {now : Int} (hc : create setup id now = .ok h)
    (calls : List (Int × Call)) :
    (.prepared ∉ h.course calls →
        (h.play calls).dealt = 0 ∧ (h.play calls).burned = [] ∧ (h.play calls).board = [] ∧
          ∀ s ∈ (h.play calls).seats, s.hole = []) ∧
      (.prepared ∈ h.course calls → ∃ d, setup.dealer? = some d ∧
        (∀ j, 1 ≤ j → j ≤ setup.players.length →
          ∃ s, (h.play calls).seats[(d + j) % setup.players.length]? = some s ∧
            s.hole.map some = (List.range setup.terms.holeCount).map fun i =>
              setup.terms.deck[i * setup.players.length + (j - 1)]?) ∧
        ((h.play calls).burned, (h.play calls).board) =
          spread setup.terms.burnCount
            ([Street.flop, .turn, .river].filter fun s => .entered s ∈ h.course calls)
            (setup.terms.deck.drop (setup.players.length * setup.terms.holeCount)) ∧
        (h.play calls).dealt = setup.players.length * setup.terms.holeCount +
          (h.play calls).burned.length + (h.play calls).board.length) ∧
      ((h.play calls).seats.flatMap Seat.hole ++ (h.play calls).burned ++
          (h.play calls).board).Perm (setup.terms.deck.take (h.play calls).dealt) ∧
      ((h.play calls).seats.flatMap Seat.hole ++ (h.play calls).burned ++
          (h.play calls).board).Nodup := by
  have ha := (fresh_of_create hc).accepted
  obtain ⟨dealer, hd, hl⟩ := laid_of_create hc calls
  have hcards : setup.players.length * setup.terms.holeCount = setup.holeCards := Nat.mul_comm _ _
  have hperm := hl.perm hd
  refine ⟨hl.before_deal, fun hmem => ⟨dealer, hd, ?_, ?_, ?_⟩, hperm, ?_⟩
  · exact fun j hone hle => hl.map_some_hole hd hmem hone hle
  · obtain ⟨-, hburned, hboard, -⟩ := hl.after_deal hmem
    rw [hl.streets_eq, hcards]
    exact Prod.ext hburned hboard
  · obtain ⟨hdealt, hburned, hboard, -⟩ := hl.after_deal hmem
    rw [hcards, hburned, hboard, hdealt]
    exact Setup.length_spread (hl.deck_le hmem).1
  · exact hperm.nodup_iff.2 (ha.deck_nodup.sublist (List.take_sublist _ _))

end Course

/-- Two players on the flop: four hole cards, one burned card and three on the board. -/
theorem cards_accounted_headsUp :
    ∃ h flop, create ⟨.standard, Setup.entries 2 100⟩ "" 0 = .ok h ∧
      h.play [(1, .start), (2, .readyAll), (3, .payBlinds), (4, .readyAll), (5, .call 0),
        (6, .check 1), (7, .next)] = flop ∧
      (flop.burned, flop.board) = spread 1 [.flop] (Deck.standard.drop 4) ∧ flop.dealt = 8 ∧
      (∃ s, flop.seats[1]? = some s ∧ s.hole.map some = [Deck.standard[0]?, Deck.standard[2]?]) ∧
      (flop.seats.flatMap Seat.hole ++ flop.burned ++ flop.board).Perm (Deck.standard.take 8) ∧
      (flop.seats.flatMap Seat.hole ++ flop.burned ++ flop.board).Nodup := by
  have hc : create ⟨.standard, Setup.entries 2 100⟩ "" 0 = .ok _ := rfl
  obtain ⟨-, hdealt, hperm, hnodup⟩ := cards_accounted hc [(1, .start), (2, .readyAll),
    (3, .payBlinds), (4, .readyAll), (5, .call 0), (6, .check 1), (7, .next)]
  obtain ⟨d, hd, hholes, hspread, hcount⟩ := hdealt (List.elem_iff.1 rfl)
  obtain rfl : 0 = d := Option.some.inj hd
  exact ⟨_, _, hc, rfl, hspread, hcount, hholes 1 (by decide) (by decide), hperm, hnodup⟩

end Hand

end PokerHand
