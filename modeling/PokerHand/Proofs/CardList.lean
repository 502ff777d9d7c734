import PokerHand.Card.Symbol
import PokerHand.Proofs.Outcome
import PokerHand.Proofs.Text.Pieces
import PokerHand.Proofs.Text.Spelling

/-!
# Card lists are read exactly

A piece of a card list is read as a card iff it spells the card's two letters (`read_eq_ok_iff`). So
the list is read iff every piece of it is a symbol, and the first piece that is none is refused.
-/
namespace PokerHand

/-- What is found by a capital letter is found by that letter in either case. -/
theorem find?_toUpper_eq_some_iff {α : Type} {all : List α} {letter : α → Char} {a : α} {c : Char}
    (hfind : all.find? (fun b => letter b == letter a) = some a)
    (hupper : (letter a).toUpper = letter a) :
    all.find? (fun b => letter b == c.toUpper) = some a ↔
      c = letter a ∨ c = (letter a).toLower ∨ c = (letter a).toUpper := by
  rw [← Text.toUpper_eq_iff hupper]
  constructor
  · intro h
    have hletter := List.find?_some h
    exact (eq_of_beq hletter).symm
  · rintro heq
    rwa [heq]

namespace Card

variable {card : Card} {piece : List Char} {text : String}

theorem ofLetter?_suit_iff {c : Char} {s : Suit} :
    Suit.ofLetter? c = some s ↔ c = s.letter ∨ c = s.letter.toLower ∨ c = s.letter.toUpper :=
  find?_toUpper_eq_some_iff (by cases s <;> rfl) (by cases s <;> rfl)

theorem ofLetter?_rank_iff {c : Char} {r : Rank} :
    Rank.ofLetter? c = some r ↔ c = r.letter ∨ c = r.letter.toLower ∨ c = r.letter.toUpper :=
  find?_toUpper_eq_some_iff (by cases r <;> rfl) (by cases r <;> rfl)

/-- Characters are read as a card iff they spell its two letters. -/
theorem ofLetters?_eq_some_iff : ofLetters? piece = some card ↔ Text.Spells card.letters piece := by
  constructor
  · intro h
    unfold ofLetters? at h
    split at h
    · obtain ⟨suit, hsuit, h⟩ := Option.bind_eq_some_iff.1 h
      obtain ⟨rank, hrank, h⟩ := Option.bind_eq_some_iff.1 h
      obtain rfl := Option.some.inj h
      exact .cons (ofLetter?_suit_iff.1 hsuit) (.cons (ofLetter?_rank_iff.1 hrank) .nil)
    · cases h
  · rintro (_ | ⟨hsuit, _ | ⟨hrank, ⟨⟩⟩⟩)
    simp [ofLetters?, ofLetter?_suit_iff.2 hsuit, ofLetter?_rank_iff.2 hrank]

/-- Nothing is trimmed off a piece of a card list. -/
theorem ofText?_piece (hpiece : ∀ c ∈ piece, isGap c = false) :
    ofText? (String.ofList piece) = ofLetters? piece := by
  have hblank : ∀ c ∈ piece, Text.isBlank c = false := fun c hc =>
    (Bool.or_eq_false_iff.1 (hpiece c hc)).1
  rw [ofText?, String.toList_ofList, Text.trim_eq_self (Text.isTrimmed_of_forall hblank)]

theorem read_eq_ok_iff (hpiece : ∀ c ∈ piece, isGap c = false) :
    read (String.ofList piece) = .ok card ↔ Text.Spells card.letters piece := by
  rw [read, ofText?_piece hpiece, ← ofLetters?_eq_some_iff]
  split <;> simp_all

theorem read_eq_error_iff (hpiece : ∀ c ∈ piece, isGap c = false) {fault : Fault} :
    read (String.ofList piece) = .error fault ↔
      (¬∃ card : Card, Text.Spells card.letters piece) ∧
        fault = .badCard (String.ofList piece) := by
  simp only [← ofLetters?_eq_some_iff]
  rw [read, ofText?_piece hpiece]
  cases ofLetters? piece with
  | some card => simp
  | none => simp [eq_comm]

/-- Pieces are read as the cards that they spell. -/
theorem mapM_read_eq_ok_iff {pieces : List (List Char)} {cards : List Card}
    (hpieces : ∀ piece ∈ pieces, ∀ c ∈ piece, isGap c = false) :
    (pieces.mapM fun piece => read (String.ofList piece)) = .ok cards ↔
      List.Forall₂ (fun card piece => Text.Spells card.letters piece) cards pieces := by
  rw [Outcome.mapM_eq_ok_iff]
  induction pieces generalizing cards with
  | nil => simp
  | cons piece pieces ih =>
      obtain ⟨hpiece, hpieces⟩ := List.forall_mem_cons.1 hpieces
      rw [List.forall₂_cons_left_iff, List.forall₂_cons_right_iff]
      simp only [read_eq_ok_iff hpiece, ih hpieces]

theorem readList_of_pieces {pieces : List (List Char)}
    (hpieces : Text.Pieces isGap text.toList pieces) :
    readList text = pieces.mapM fun piece => read (String.ofList piece) := by
  rw [readList, hpieces.runs_eq]

theorem readList_eq_ok_iff {cards : List Card} :
    readList text = .ok cards ↔ ∃ pieces, Text.Pieces isGap text.toList pieces ∧
      List.Forall₂ (fun card piece => Text.Spells card.letters piece) cards pieces := by
  constructor
  · intro h
    have hpieces := Text.pieces_runs isGap text.toList
    exact ⟨_, hpieces, (mapM_read_eq_ok_iff hpieces.gap_eq_false).1 h⟩
  · rintro ⟨pieces, hpieces, hcards⟩
    rw [readList_of_pieces hpieces]
    exact (mapM_read_eq_ok_iff hpieces.gap_eq_false).2 hcards

theorem readList_eq_error_iff {fault : Fault} :
    readList text = .error fault ↔ ∃ before piece after,
      Text.Pieces isGap text.toList (before ++ piece :: after) ∧
      (∀ p ∈ before, ∃ card : Card, Text.Spells card.letters p) ∧
      (¬∃ card : Card, Text.Spells card.letters piece) ∧
      fault = .badCard (String.ofList piece) := by
  constructor
  · intro h
    have hpieces := Text.pieces_runs isGap text.toList
    obtain ⟨before, piece, after, hruns, hbefore, hpiece⟩ := Outcome.mapM_eq_error_iff.1 h
    rw [hruns] at hpieces
    have hgap := hpieces.gap_eq_false
    obtain ⟨hnone, hfault⟩ := (read_eq_error_iff (hgap piece (by simp))).1 hpiece
    refine ⟨before, piece, after, hpieces, fun p hp => ?_, hnone, hfault⟩
    obtain ⟨card, hcard⟩ := hbefore p hp
    exact ⟨card, (read_eq_ok_iff (hgap p (by simp [hp]))).1 hcard⟩
  · rintro ⟨before, piece, after, hpieces, hbefore, hnone, hfault⟩
    have hgap := hpieces.gap_eq_false
    rw [readList_of_pieces hpieces]
    refine Outcome.mapM_eq_error_iff.2 ⟨before, piece, after, rfl, fun p hp => ?_, ?_⟩
    · obtain ⟨card, hcard⟩ := hbefore p hp
      exact ⟨card, (read_eq_ok_iff (hgap p (by simp [hp]))).2 hcard⟩
    · exact (read_eq_error_iff (hgap piece (by simp))).2 ⟨hnone, hfault⟩

/-- A text is read as a list of cards iff its pieces between blanks and commas spell their letters,
in either case. If a piece spells no card the text is refused, with the first such piece. -/
theorem readList_exact (text : String) :
    (∀ cards, readList text = .ok cards ↔ ∃ pieces, Text.Pieces isGap text.toList pieces ∧
      List.Forall₂ (fun card piece => Text.Spells card.letters piece) cards pieces) ∧
    ∀ fault, readList text = .error fault ↔ ∃ before piece after,
      Text.Pieces isGap text.toList (before ++ piece :: after) ∧
      (∀ p ∈ before, ∃ card : Card, Text.Spells card.letters p) ∧
      (¬∃ card : Card, Text.Spells card.letters piece) ∧
      fault = .badCard (String.ofList piece) :=
  ⟨fun _ => readList_eq_ok_iff, fun _ => readList_eq_error_iff⟩

end Card

end PokerHand
