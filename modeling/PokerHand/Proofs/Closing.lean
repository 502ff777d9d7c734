import PokerHand.Proofs.Play
import PokerHand.Proofs.Trace

/-!
# A betting round ends when nobody has anything left to decide

Whenever the turn passes, a look at the next seat alone tells whether the round is over, since those
who still have something to decide come first in the order of play. So a round that ends with two
players left ends with everybody who has chips at the wager to match, and with all of them having
acted if there are several; when the hand then rests, they have as much in the pot as anybody.
-/
namespace PokerHand.Hand

section Counted

variable [Counting] {setup : Setup} {h g : Hand} {call : Call}

/-- The call makes the turn of the hand `g` pass on from the place `start`. -/
inductive Passes (h : Hand) (call : Call) : Hand → Nat → Prop where
  /-- A bid was made. -/
  | bid {b : Bid} {g : Hand} (hbid : h.bid? call = some b) (hbidden : h.bidden b = .ok g) :
      Passes h call g b.place
  /-- A betting round begins. -/
  | start {path : List Hand} {g h' : Hand} (hruns : h.Runs call path h') (hmem : g ∈ path)
      (hp : g.phase = .roundStarted) : Passes h call { g with tasks := [] } g.raiser

/-- What is left of the bid that a hand was made with. -/
theorem Resting.moved_of_bidden (hr : h.Resting setup) {b : Bid} (hbid : h.bid? call = some b)
    (hbidden : h.bidden b = .ok g) : h.Moved setup g ∧ b.place = h.turn := by
  obtain ⟨s, hs, hplace, hf, -, move, value, -, hfits, rfl⟩ := hr.exists_settledBy hbid hbidden
  exact ⟨moved_settledBy hf.atTurn hs hf.turn hfits value, hplace.symm.trans hf.turn⟩

/-- Wherever the turn passes, the seats are in the order of play. -/
theorem Passes.paced [setup.Counted] (ha : setup.Accepted) (hr : h.Resting setup) {start : Nat}
    (hpasses : h.Passes call g start) : Turn.Paced g.wager (g.seats.rotate (start + 1)) := by
  cases hpasses with
  | bid hbid hbidden =>
      obtain ⟨hmoved, hturn⟩ := hr.moved_of_bidden hbid hbidden
      rw [hturn]
      exact hmoved.paced
  | start hruns hmem hp =>
      have hentering := (hruns.entering ha hr).1 _ hmem
      rw [Entering, hp] at hentering
      exact Turn.paced_of_unacted fun s hs => hentering.2 s (List.mem_rotate.1 hs)

/-- With two players left, whoever has chips has matched the wager and, unless it is alone with
them, has acted. -/
theorem Closed.matched [setup.Counted] (hc : g.Closed setup) (htwo : 2 ≤ g.unfolded) {s : Seat}
    (hs : s ∈ g.seats) (hmovable : s.isMovable = true) :
    g.wager ≤ s.wager ∧ (2 ≤ g.seats.countP Seat.isMovable → s.acted = true) := by
  refine ⟨hc.finished.matched htwo hs hmovable, fun hmany => ?_⟩
  rcases hc.finished with hone | hall | ⟨hone, -⟩
  · unfold unfolded at htwo
    omega
  · exact (hall s hs hmovable).1
  · omega

/-- Nobody has more in the pot than a seat that can still act in a closed round. -/
theorem Resting.max_pot [setup.Counted] (hr : h.Resting setup) (hp : h.phase = .roundClosed)
    {s : Seat} (hs : s ∈ h.seats) (hmovable : s.isMovable = true) :
    (h.seats.map Seat.pot).max? = some s.pot := by
  rw [Resting, hp] at hr
  obtain ⟨⟨street, -, hb⟩, -⟩ := hr
  refine List.max?_eq_some_iff.2 ⟨List.mem_map_of_mem hs, fun pot hpot => ?_⟩
  obtain ⟨r, hr, rfl⟩ := List.mem_map.1 hpot
  exact hb.level s hs hmovable r hr

end Counted

end PokerHand.Hand
