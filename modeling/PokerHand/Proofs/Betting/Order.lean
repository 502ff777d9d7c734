import Mathlib.Data.List.Rotate
import PokerHand.Betting

/-!
# The order of play

The seats get the turn going round the table, so the seats from a place on are a rotation of all
seats. `Turn.Paced` says that in this order whoever has something left to decide comes before
whoever is done. It is why a look at the next seat alone tells whether the round is over
(`Turn.isClosed_iff`).
-/
namespace PokerHand

/-- The seat has acted since the last full raise and has matched the wager. -/
def Seat.Done (wager : Int) (s : Seat) : Prop := s.acted = true ∧ wager ≤ s.wager

namespace Turn

/-- Among the seats that can still act, those with something left to decide come before those that
are done. -/
def Paced (wager : Int) (seats : List Seat) : Prop :=
  seats.Pairwise fun s r =>
    s.isMovable = true → s.Done wager → r.isMovable = true → r.Done wager

/-- Nobody has anything left to decide: all others have folded, everybody who can still act is
done, or a single seat can act and has matched the wager. -/
def Finished (seats : List Seat) (wager : Int) : Prop :=
  seats.countP (fun s => !s.folded) ≤ 1 ∨
    (∀ s ∈ seats, s.isMovable = true → s.Done wager) ∨
    seats.countP Seat.isMovable ≤ 1 ∧ ∀ s ∈ seats, s.isMovable = true → wager ≤ s.wager

variable {seats : List Seat} {wager : Int} {start place : Nat}

/-- Before anybody has acted nobody is done. -/
theorem paced_of_unacted (h : ∀ s ∈ seats, s.acted = false) : Paced wager seats := by
  refine List.pairwise_of_forall_mem_list fun s hs r _ => ?_
  intro _ hdone
  have hacted := h s hs
  simp [hdone.1] at hacted

/-- Only what decides whether somebody is done matters. -/
theorem Paced.map {f : Seat → Seat} (h : Paced wager seats)
    (hf : ∀ s, (f s).isMovable = s.isMovable ∧ (f s).acted = s.acted ∧ (f s).wager = s.wager) :
    Paced wager (seats.map f) := by
  refine List.pairwise_map.2 (h.imp fun {s r} hsr => ?_)
  obtain ⟨hsmovable, hsacted, hswager⟩ := hf s
  obtain ⟨hrmovable, hracted, hrwager⟩ := hf r
  simp only [Seat.Done, hsmovable, hsacted, hswager, hrmovable, hracted, hrwager]
  exact hsr

/-- Seats that cannot act may stand anywhere. -/
theorem Paced.of_append {before after : List Seat} (h : Paced wager (before ++ after))
    (hbefore : ∀ s ∈ before, s.isMovable = false) : Paced wager (after ++ before) := by
  obtain ⟨-, hafter, -⟩ := List.pairwise_append.1 h
  refine List.pairwise_append.2 ⟨hafter, ?_, ?_⟩
  · refine List.pairwise_of_forall_mem_list fun s hs r _ hmovable => ?_
    simp [hbefore s hs] at hmovable
  · intro s _ r hr _ _ hmovable
    simp [hbefore r hr] at hmovable

/-- A turn moves the seat that had it to the end of the order of play. -/
theorem exists_rotate_eq_cons {s : Seat} (hs : seats[place]? = some s) :
    ∃ rest, seats.rotate place = s :: rest ∧ seats.rotate (place + 1) = rest ++ [s] := by
  obtain ⟨hlt, rfl⟩ := List.getElem?_eq_some_iff.1 hs
  have hturn : seats.rotate place =
      seats[place] :: (seats.drop (place + 1) ++ seats.take place) := by
    rw [List.rotate_eq_drop_append_take (Nat.le_of_lt hlt), List.drop_eq_getElem_cons hlt,
      List.cons_append]
  refine ⟨_, hturn, ?_⟩
  rw [← List.rotate_rotate, hturn, List.rotate_cons_succ, List.rotate_zero]

/-- A seat that is done or cannot act any more goes last; the others stay as they are, or have all
to act again. -/
theorem Paced.play {wager' : Int} {s : Seat} {rest : List Seat} {f : Seat → Seat}
    (h : Paced wager (s :: rest)) (hself : (f s).isMovable = true → (f s).Done wager')
    (hrest : (wager' = wager ∧ ∀ r ∈ rest, f r = r) ∨
      ∀ r ∈ rest, (f r).isMovable = true → ¬ (f r).Done wager') :
    Paced wager' ((rest ++ [s]).map f) := by
  rw [List.map_append, List.map_singleton]
  refine List.pairwise_append.2 ⟨?_, List.pairwise_singleton _ _, ?_⟩
  · rcases hrest with ⟨rfl, hsame⟩ | hagain
    · rw [List.map_congr_left hsame, List.map_id']
      exact (List.pairwise_cons.1 h).2
    · refine List.pairwise_of_forall_mem_list fun s' hs' r' _ hmovable hdone => ?_
      obtain ⟨r, hr, rfl⟩ := List.mem_map.1 hs'
      exact absurd hdone (hagain r hr hmovable)
  · intro r' _ s' hs' _ _ hmovable
    obtain rfl := List.mem_singleton.1 hs'
    exact hself hmovable

/-- The seats in the order of play after `start`. -/
theorem getElem?_rotate_succ {k : Nat} (hk : k < seats.length) :
    (seats.rotate (start + 1))[k]? = seats[(start + (k + 1)) % seats.length]? := by
  rw [List.getElem?_rotate hk]
  congr 2
  omega

/-- The next seat to act, in the order of play: the seats in front of it cannot act. -/
theorem rotate_of_nextMovable (h : nextMovable seats start = some place) :
    ∃ skipped s rest, seats.rotate (start + 1) = skipped ++ s :: rest ∧
      seats.rotate place = s :: rest ++ skipped ∧ seats[place]? = some s ∧
      s.isMovable = true ∧ ∀ r ∈ skipped, r.isMovable = false := by
  unfold nextMovable at h
  rw [List.find?_map] at h
  obtain ⟨k, hk, rfl⟩ := Option.map_eq_some_iff.1 h
  obtain ⟨hmovable, hlt, hskip⟩ := List.find?_range_eq_some.1 hk
  have hlt : k < seats.length := List.mem_range.1 hlt
  simp only [Function.comp_apply] at hmovable hskip
  generalize hplay : seats.rotate (start + 1) = play
  have hlength : play.length = seats.length := by rw [← hplay, List.length_rotate]
  have hget : ∀ j < seats.length, play[j]? = seats[(start + (j + 1)) % seats.length]? := by
    intro j hj
    rw [← hplay, getElem?_rotate_succ hj]
  have hs : play[k]? = some play[k] := List.getElem?_eq_getElem (by omega)
  have hdrop : play.drop k = play[k] :: play.drop (k + 1) := List.drop_eq_getElem_cons (by omega)
  refine ⟨play.take k, play[k], play.drop (k + 1), ?_, ?_, ?_, ?_, ?_⟩
  · rw [← hdrop, List.take_append_drop]
  · have hturn : seats.rotate (start + (k + 1)) = play.rotate k := by
      rw [← hplay, List.rotate_rotate]
      congr 1
      omega
    rw [List.rotate_mod, hturn, List.rotate_eq_drop_append_take (by omega), hdrop]
  · rw [← hget k hlt, hs]
  · rw [← hget k hlt, hs] at hmovable
    simpa using hmovable
  · intro r hr
    obtain ⟨j, hj, rfl⟩ := List.mem_take_iff_getElem.1 hr
    have hjk : j < k := by omega
    have hskipped := hskip j hjk
    rw [← hget j (by omega), List.getElem?_eq_getElem (by omega)] at hskipped
    simpa using hskipped

/-- A single seat can act. -/
theorem eq_of_countP_le_one {p : Seat → Bool} (hone : seats.countP p ≤ 1) {r s : Seat}
    (hr : r ∈ seats) (hpr : p r = true) (hs : s ∈ seats) (hps : p s = true) : r = s := by
  rw [List.countP_eq_length_filter] at hone
  have hmem : r ∈ seats.filter p := List.mem_filter.2 ⟨hr, hpr⟩
  have hpos := List.length_pos_of_mem hmem
  obtain ⟨only, honly⟩ := List.length_eq_one_iff.1 (Nat.le_antisymm hone hpos)
  have hronly : r = only := by simpa [honly] using hmem
  have hsonly : s = only := by simpa [honly] using List.mem_filter.2 ⟨hs, hps⟩
  exact hronly.trans hsonly.symm

theorem isMovable_of_nextMovable_eq_none (h : nextMovable seats start = none) :
    ∀ s ∈ seats, s.isMovable = false := by
  intro s hs
  obtain ⟨k, hk⟩ := List.getElem?_of_mem (List.mem_rotate.2 hs : s ∈ seats.rotate (start + 1))
  have hlt : k < seats.length := by
    have := (List.getElem?_eq_some_iff.1 hk).1
    rwa [List.length_rotate] at this
  have hnone := List.find?_eq_none.1 h ((start + (k + 1)) % seats.length)
    (List.mem_map.2 ⟨k, List.mem_range.2 hlt, rfl⟩)
  rw [← getElem?_rotate_succ hlt, hk] at hnone
  simpa using hnone

/-- While two players are left, whoever can still act has matched the wager when a round is over. -/
theorem Finished.matched (hf : Finished seats wager)
    (htwo : 2 ≤ seats.countP fun s => !s.folded) {s : Seat} (hs : s ∈ seats)
    (hmovable : s.isMovable = true) : wager ≤ s.wager := by
  rcases hf with hone | hall | ⟨-, hall⟩
  · omega
  · exact (hall s hs hmovable).2
  · exact hall s hs hmovable

theorem isClosed_none (seats : List Seat) (wager : Int) : isClosed seats wager none = true := by
  unfold isClosed
  split
  · rfl
  · split <;> simp [isDone]

/-- What is looked at when the next seat to act is known. -/
theorem isClosed_some {s : Seat} (hs : seats[place]? = some s) (hmovable : s.isMovable = true) :
    isClosed seats wager (some place) = true ↔
      seats.countP (fun s => !s.folded) ≤ 1 ∨ s.Done wager ∨
        seats.countP Seat.isMovable ≤ 1 ∧ wager ≤ s.wager := by
  have hdone : isDone seats wager (some place) = true ↔ s.Done wager := by
    simp [isDone, hs, Seat.Done]
  have hmem : s ∈ seats.filter Seat.isMovable :=
    List.mem_filter.2 ⟨List.mem_of_getElem? hs, hmovable⟩
  rw [List.countP_eq_length_filter (p := Seat.isMovable)]
  unfold isClosed
  split
  · next hlive => simp [hlive]
  · next hlive =>
    split
    · next hnone => simp [hnone] at hmem
    · next only honly =>
      obtain rfl : s = only := by simpa [honly] using hmem
      simp only [honly, List.length_singleton, Nat.le_refl, true_and, hlive, false_or,
        Bool.or_eq_true, decide_eq_true_eq, hdone]
      exact or_comm
    · next _ hmany =>
      have hlength : ¬ (seats.filter Seat.isMovable).length ≤ 1 := by
        intro hle
        have hpos := List.length_pos_of_mem hmem
        obtain ⟨only, honly⟩ := List.length_eq_one_iff.1 (Nat.le_antisymm hle hpos)
        exact hmany only honly
      simp [hlive, hlength, hdone]

/-- Whether the round is over is seen from the next seat alone, as long as those who have something
left to decide come first in the order of play. -/
theorem isClosed_iff (hpaced : Paced wager (seats.rotate (start + 1))) :
    isClosed seats wager (nextMovable seats start) = true ↔ Finished seats wager := by
  cases hnext : nextMovable seats start with
  | none =>
      have hstuck := isMovable_of_nextMovable_eq_none hnext
      have hfinished : Finished seats wager :=
        .inr (.inl fun s hs hmovable => by simp [hstuck s hs] at hmovable)
      refine iff_of_true ?_ hfinished
      have hnobody : seats.filter Seat.isMovable = [] :=
        List.filter_eq_nil_iff.2 fun s hs => by simp [hstuck s hs]
      simp [isClosed, hnobody]
  | some place =>
      obtain ⟨skipped, s, rest, hplay, -, hs, hmovable, hskipped⟩ := rotate_of_nextMovable hnext
      have hmem : s ∈ seats := List.mem_of_getElem? hs
      rw [isClosed_some hs hmovable, Finished]
      refine or_congr_right (or_congr ⟨fun hdone => ?_, fun hall => hall s hmem hmovable⟩ ?_)
      · -- whoever comes after a seat that is done is done too
        intro r hr hact
        rw [hplay] at hpaced
        obtain ⟨-, hlater, -⟩ := List.pairwise_append.1 hpaced
        have hafter := (List.pairwise_cons.1 hlater).1
        have hseated : r ∈ skipped ++ s :: rest := hplay ▸ List.mem_rotate.2 hr
        rcases List.mem_append.1 hseated with hskip | hseated
        · simp [hskipped r hskip] at hact
        · rcases List.mem_cons.1 hseated with rfl | hrest
          · exact hdone
          · exact hafter r hrest hmovable hdone hact
      · refine and_congr_right fun hone => ⟨fun hmatched => ?_, fun hall => hall s hmem hmovable⟩
        intro r hr hact
        obtain rfl : r = s := eq_of_countP_le_one hone hr hact hmem hmovable
        exact hmatched

end Turn

end PokerHand
