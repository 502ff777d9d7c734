import PokerHand.Proofs.Deal
import PokerHand.Proofs.Ranking.Choices
import PokerHand.Proofs.Ranking.Groups

/-!
# The hands that are shown

When a hand is closed with the whole board dealt, every player who has not folded shows different
cards out of the own hole cards and the board (`MadeHand.Shown`). They are five unless more than
five hole cards are required, which no check of the terms forbids; then as many cards are shown.
-/
namespace PokerHand

namespace MadeHand

variable {hole board cards set own shared : List Card} {required : Nat}

/-- What the cards of a player look like who has to show so many hole cards, or any if none are
required. -/
structure Shown (hole board : List Card) (required : Nat) (cards : List Card) : Prop where
  nodup : cards.Nodup
  mem : ∀ c ∈ cards, c ∈ hole ∨ c ∈ board
  length_eq : cards.length = max 5 required
  own : 0 < required → cards.countP (· ∈ hole) = required
  shared : 0 < required → cards.countP (· ∈ board) = 5 - required

/-- The order of the cards does not matter. -/
theorem Shown.perm (hs : Shown hole board required set) (hperm : cards.Perm set) :
    Shown hole board required cards where
  nodup := hperm.nodup_iff.2 hs.nodup
  mem := fun c hc => hs.mem c (hperm.mem_iff.1 hc)
  length_eq := hperm.length_eq.trans hs.length_eq
  own := fun hpos => (hperm.countP_eq _).trans (hs.own hpos)
  shared := fun hpos => (hperm.countP_eq _).trans (hs.shared hpos)

/-- Of cards from two places those that lie at the first are counted. -/
theorem countP_mem_append {pool : List Card} (hown : ∀ c ∈ own, c ∈ pool)
    (hshared : ∀ c ∈ shared, c ∉ pool) : (own ++ shared).countP (· ∈ pool) = own.length := by
  have hall : own.countP (· ∈ pool) = own.length :=
    List.countP_eq_length.2 fun c hc => decide_eq_true (hown c hc)
  have hnone : shared.countP (· ∈ pool) = 0 :=
    List.countP_eq_zero.2 fun c hc hmem => hshared c hc (of_decide_eq_true hmem)
  rw [List.countP_append, hall, hnone, Nat.add_zero]

/-- What a legal choice looks like once the board is complete. -/
theorem Legal.shown (hlegal : Legal hole board required set) (hnodup : (hole ++ board).Nodup)
    (hboard : board.length = 5) (hrequired : required ≤ hole.length) :
    Shown hole board required set := by
  unfold Legal at hlegal
  split at hlegal
  · next hzero =>
    subst hzero
    obtain ⟨hsub, hlength⟩ := picks_iff_sublist.1 hlegal
    refine ⟨hnodup.sublist hsub, fun c hc => List.mem_append.1 (hsub.subset hc), ?_,
      fun hpos => absurd hpos (Nat.lt_irrefl 0), fun hpos => absurd hpos (Nat.lt_irrefl 0)⟩
    rw [hlength, List.length_append]
    omega
  · obtain ⟨own, shared, hown, hshared, rfl⟩ := hlegal
    obtain ⟨hownSub, hownLength⟩ := picks_iff_sublist.1 hown
    obtain ⟨hsharedSub, hsharedLength⟩ := picks_iff_sublist.1 hshared
    rw [Nat.min_eq_left hrequired] at hownLength hsharedLength
    have hshort : shared.length = 5 - required := by omega
    obtain ⟨-, -, hapart⟩ := List.nodup_append.1 hnodup
    have hsub := hownSub.append hsharedSub
    refine ⟨hnodup.sublist hsub, fun c hc => List.mem_append.1 (hsub.subset hc), ?_, fun _ => ?_,
      fun _ => ?_⟩
    · rw [List.length_append]
      omega
    · rw [countP_mem_append (fun c hc => hownSub.subset hc) fun c hc hmem =>
        hapart c hmem c (hsharedSub.subset hc) rfl, hownLength]
    · rw [List.perm_append_comm.countP_eq, countP_mem_append (fun c hc => hsharedSub.subset hc)
        fun c hc hmem => hapart c (hownSub.subset hc) c hmem rfl, hshort]

end MadeHand

namespace Hand

variable {setup : Setup} {h : Hand} {s : Seat} {dealer : Nat} {seen : List Phase}

/-- After the deal every seat has its hole cards. -/
theorem Laid.length_hole (hl : Laid setup dealer seen h) (hmem : .prepared ∈ seen)
    (hs : s ∈ h.seats) : s.hole.length = setup.terms.holeCount := by
  obtain ⟨-, -, -, hholes⟩ := hl.after_deal hmem
  have hshare : s.hole ∈ setup.shares dealer := hholes ▸ List.mem_map_of_mem hs
  obtain ⟨place, hplace, hhole⟩ := List.mem_map.1 hshare
  have hlength : (setup.terms.deck.take setup.holeCards).length =
      setup.terms.holeCount * setup.players.length :=
    List.length_take_of_le (hl.deck_le hmem).2
  have hrounds : s.hole.map some = (List.range setup.terms.holeCount).map fun i =>
      (setup.terms.deck.take setup.holeCards)[i * setup.players.length +
        before setup.players.length dealer place]? :=
    hhole ▸ map_some_share hlength (List.mem_range.1 hplace)
  simpa using congrArg List.length hrounds

/-- No card lies both before a seat and on the board, or twice. -/
theorem Laid.nodup_hole_board (ha : setup.Accepted) (hd : setup.dealer? = some dealer)
    (hl : Laid setup dealer seen h) (hs : s ∈ h.seats) : (s.hole ++ h.board).Nodup := by
  have hdealt : (h.seats.flatMap Seat.hole ++ h.burned ++ h.board).Nodup :=
    (hl.perm hd).nodup_iff.2 (ha.deck_nodup.sublist (List.take_sublist _ _))
  refine hdealt.sublist (List.Sublist.append_right ?_ _)
  exact (List.sublist_flatten_of_mem (List.mem_map_of_mem hs)).trans (List.sublist_append_left _ _)

/-- In a closed hand with the whole board dealt every seat that has not folded shows different cards
out of its hole cards and the board: five, or as many as are required if these are more; and if any
hole cards are required, just as many of them and board cards up to five. -/
theorem shown_hands [Counting] {id : String} {now : Int} (hc : create setup id now = .ok h)
    (calls : List (Int × Call)) (hclosed : (h.play calls).phase = .gameClosed)
    (hboard : (h.play calls).board.length = 5) (hs : s ∈ (h.play calls).seats)
    (hlive : s.folded = false) :
    ∃ m, s.made = some m ∧
      MadeHand.Shown s.hole (h.play calls).board setup.terms.requiredHole m.cards := by
  have ha := (fresh_of_create hc).accepted
  have hr := resting_of_create hc calls
  rw [Resting, hclosed] at hr
  obtain ⟨dealer, hd, hl⟩ := laid_of_create hc calls
  generalize h.course calls = seen at hl
  generalize h.play calls = closed at *
  have hmade := hr.1.made s hs
  rw [madeBy, hlive, hr.1.table.terms] at hmade
  obtain ⟨set, hlegal, hbest⟩ := MadeHand.exists_best_eq s.hole closed.board
    setup.terms.requiredHole setup.terms.order
  have hmem : .prepared ∈ seen := by
    by_contra hmem
    simp [(hl.before_deal hmem).2.2.1] at hboard
  have hhole := hl.length_hole hmem hs
  have hshown := hlegal.shown (hl.nodup_hole_board ha hd hs) hboard (hhole ▸ ha.requiredHole_le)
  refine ⟨_, hmade, hshown.perm ?_⟩
  rw [hbest]
  exact MadeHand.cards_evaluate_perm set _

/-- Two players with four hole cards each, of whom each has to show two. -/
theorem shown_hands_omaha :
    ∃ h closed s, create ⟨{ Terms.standard with holeCount := 4, requiredHole := 2 },
        Setup.entries 2 100⟩ "" 0 = .ok h ∧
      h.play [(1, .start), (2, .readyAll), (3, .payBlinds), (4, .readyAll), (5, .allin 0),
        (6, .allin 1), (7, .next), (8, .next), (9, .next)] = closed ∧
      closed.phase = .gameClosed ∧ closed.board.length = 5 ∧ closed.seats[0]? = some s ∧
      s.folded = false ∧ ∃ m, s.made = some m ∧ MadeHand.Shown s.hole closed.board 2 m.cards := by
  let calls : List (Int × Call) := [(1, .start), (2, .readyAll), (3, .payBlinds), (4, .readyAll),
    (5, .allin 0), (6, .allin 1), (7, .next), (8, .next), (9, .next)]
  obtain ⟨h, hc, hclosed, hboard, hfolded⟩ : ∃ h,
      create ⟨{ Terms.standard with holeCount := 4, requiredHole := 2 },
        Setup.entries 2 100⟩ "" 0 = .ok h ∧
      (h.play calls).phase = .gameClosed ∧ (h.play calls).board.length = 5 ∧
      (h.play calls).seats[0]?.map Seat.folded = some false :=
    ⟨_, rfl, by decide +kernel, by decide +kernel, by decide +kernel⟩
  obtain ⟨s, hs, hlive⟩ := Option.map_eq_some_iff.1 hfolded
  exact ⟨h, _, s, hc, rfl, hclosed, hboard, hs, hlive,
    shown_hands hc calls hclosed hboard (List.mem_of_getElem? hs) hlive⟩

/-- Where six hole cards are required six cards are shown. -/
theorem six_cards_shown :
    ∃ h closed, create ⟨{ Terms.standard with holeCount := 6, requiredHole := 6 },
        Setup.entries 2 100⟩ "" 0 = .ok h ∧
      h.play [(1, .start), (2, .readyAll), (3, .payBlinds), (4, .readyAll), (5, .allin 0),
        (6, .allin 1), (7, .next), (8, .next), (9, .next)] = closed ∧
      closed.phase = .gameClosed ∧ closed.board.length = 5 ∧
      (closed.seats.map fun s => (s.folded, s.made.map fun m => m.cards.length)) =
        [(false, some 6), (false, some 6)] :=
  ⟨_, _, rfl, rfl, by decide +kernel, by decide +kernel, by decide +kernel⟩

end Hand

end PokerHand
