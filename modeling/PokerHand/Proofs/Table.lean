import Mathlib.Algebra.BigOperators.Ring.List
import PokerHand.Proofs.Accepted
import PokerHand.Proofs.Forced
import PokerHand.Proofs.Table.Places

/-!
# The table that a setup seats

`Seat.Sound` is what the chips of a seat always satisfy, and `Table` says that a hand still has the
terms and the players of its setup and sound seats. A change of the seats that keeps who sits where
keeps the table.
-/
namespace PokerHand

/-- The player at a seat as the setup has it. -/
def Seat.entry (s : Seat) : Entry := ⟨s.bankroll, s.positions⟩

/-- The chips of a seat are all there and none is negative, except that a stack is overdrawn as far
as the forced bets exceed it. -/
structure Seat.Sound (setup : Setup) (s : Seat) : Prop where
  bankroll_le : s.bankroll ≤ setup.bankrolls
  le_afterBlinds : -(2 * s.bankroll) ≤ setup.terms.afterBlinds s.entry
  balanced : s.bankroll = s.stack + s.wager + s.pot
  wager_nonneg : 0 ≤ s.wager
  pot_nonneg : 0 ≤ s.pot
  stack_add_wager_le : s.stack + s.wager ≤ s.initialStack
  overdraft_le : min 0 (setup.terms.afterBlinds s.entry) ≤ s.stack

/-- The seats differ in nothing but what they are offered, did and show. -/
structure Seat.Alike (s s' : Seat) : Prop where
  entry : s'.entry = s.entry
  number : s'.number = s.number
  initialStack : s'.initialStack = s.initialStack
  stack : s'.stack = s.stack
  wager : s'.wager = s.wager
  pot : s'.pot = s.pot
  folded : s'.folded = s.folded

/-- All of these may be written over. -/
theorem Seat.alike_update (s : Seat) (acted : Bool) (did : Option Action) (allowed : List Action)
    (hole : List Card) (made : Option MadeHand) :
    s.Alike { s with acted := acted, did := did, allowed := allowed, hole := hole, made := made } :=
  ⟨rfl, rfl, rfl, rfl, rfl, rfl, rfl⟩

theorem Seat.Alike.refl (s : Seat) : s.Alike s := s.alike_update _ _ _ _ _

theorem Seat.Alike.bankroll {s s' : Seat} (ha : s.Alike s') : s'.bankroll = s.bankroll :=
  congrArg Entry.bankroll ha.entry

theorem Seat.Alike.isMovable {s s' : Seat} (ha : s.Alike s') : s'.isMovable = s.isMovable := by
  rw [Seat.isMovable, Seat.isMovable, ha.folded, ha.stack]

namespace Seat.Sound

variable {setup : Setup} {s s' : Seat}

theorem alike (hs : s.Sound setup) (ha : s.Alike s') : s'.Sound setup where
  bankroll_le := ha.bankroll ▸ hs.bankroll_le
  le_afterBlinds := by rw [ha.entry, ha.bankroll]; exact hs.le_afterBlinds
  balanced := by rw [ha.bankroll, ha.stack, ha.wager, ha.pot]; exact hs.balanced
  wager_nonneg := ha.wager ▸ hs.wager_nonneg
  pot_nonneg := ha.pot ▸ hs.pot_nonneg
  stack_add_wager_le := by
    rw [ha.stack, ha.wager, ha.initialStack]
    exact hs.stack_add_wager_le
  overdraft_le := by rw [ha.entry, ha.stack]; exact hs.overdraft_le

/-- A stack that covers the forced bets is never overdrawn. -/
theorem stack_nonneg (hs : s.Sound setup) (hcovered : 0 ≤ setup.terms.afterBlinds s.entry) :
    0 ≤ s.stack := by
  have := hs.overdraft_le
  omega

/-- No chips of a seat exceed three times its bankroll. -/
theorem within (hs : s.Sound setup) :
    0 ≤ s.bankroll ∧ -(2 * s.bankroll) ≤ s.stack ∧ s.stack ≤ s.bankroll ∧
      s.wager + s.pot ≤ 3 * s.bankroll := by
  obtain ⟨-, hoverdraft, hbalanced, hw, hp, -, hstack⟩ := hs
  omega

theorem resetRound (hs : s.Sound setup) (hwager : s.wager = 0) : s.resetRound.Sound setup := by
  obtain ⟨hle, hoverdraft, hbalanced, hw, hp, -, hstack⟩ := hs
  exact
    { bankroll_le := hle
      le_afterBlinds := hoverdraft
      balanced := hbalanced
      wager_nonneg := hw
      pot_nonneg := hp
      stack_add_wager_le := by simp only [Seat.resetRound]; omega
      overdraft_le := hstack }

/-! Chips that move are counted exactly. -/

variable [Counting] [setup.Counted] {chips : Int}

/-- What a seat puts in leaves its stack and comes to its wager. -/
theorem putIn_eq (hs : s.Sound setup) (hchips : 0 ≤ chips)
    (hcovered : min 0 (setup.terms.afterBlinds s.entry) ≤ s.stack - chips) :
    s.putIn chips = { s with stack := s.stack - chips, wager := s.wager + chips } := by
  have hbound := setup.bankrolls_lt_bound
  obtain ⟨hle, hoverdraft, hbalanced, hw, hp, -, hstack⟩ := hs
  have hfit : Counting.fit (s.stack - chips) = s.stack - chips :=
    Counting.fit_eq setup.bound (by omega) (by omega)
  have hfit' : Counting.fit (s.wager + chips) = s.wager + chips :=
    Counting.fit_eq setup.bound (by omega) (by omega)
  rw [Seat.putIn, hfit, hfit']

theorem putInPot_eq (hs : s.Sound setup) (hchips : 0 ≤ chips)
    (hcovered : min 0 (setup.terms.afterBlinds s.entry) ≤ s.stack - chips) :
    s.putInPot chips = { s with stack := s.stack - chips, pot := s.pot + chips } := by
  have hbound := setup.bankrolls_lt_bound
  obtain ⟨hle, hoverdraft, hbalanced, hw, hp, -, hstack⟩ := hs
  have hfit : Counting.fit (s.stack - chips) = s.stack - chips :=
    Counting.fit_eq setup.bound (by omega) (by omega)
  have hfit' : Counting.fit (s.pot + chips) = s.pot + chips :=
    Counting.fit_eq setup.bound (by omega) (by omega)
  rw [Seat.putInPot, hfit, hfit']

theorem committed_eq (hs : s.Sound setup) : s.committed = s.pot + s.wager := by
  have hbound := setup.bankrolls_lt_bound
  have hwithin := hs.within
  have hle := hs.bankroll_le
  have hw := hs.wager_nonneg
  have hp := hs.pot_nonneg
  exact Counting.fit_eq setup.bound (by omega) (by omega)

theorem collect_eq (hs : s.Sound setup) :
    s.collect = { s with pot := s.pot + s.wager, wager := 0 } := by
  have hcommitted := hs.committed_eq
  rw [Seat.committed] at hcommitted
  rw [Seat.collect, hcommitted]

theorem putIn (hs : s.Sound setup) (hchips : 0 ≤ chips)
    (hcovered : min 0 (setup.terms.afterBlinds s.entry) ≤ s.stack - chips) :
    (s.putIn chips).Sound setup := by
  rw [hs.putIn_eq hchips hcovered]
  obtain ⟨hle, hoverdraft, hbalanced, hw, hp, hinitial, -⟩ := hs
  exact
    { bankroll_le := hle
      le_afterBlinds := hoverdraft
      balanced := by simp only; omega
      wager_nonneg := by simp only; omega
      pot_nonneg := hp
      stack_add_wager_le := by simp only; omega
      overdraft_le := hcovered }

theorem putInPot (hs : s.Sound setup) (hchips : 0 ≤ chips)
    (hcovered : min 0 (setup.terms.afterBlinds s.entry) ≤ s.stack - chips) :
    (s.putInPot chips).Sound setup := by
  rw [hs.putInPot_eq hchips hcovered]
  obtain ⟨hle, hoverdraft, hbalanced, hw, hp, hinitial, -⟩ := hs
  exact
    { bankroll_le := hle
      le_afterBlinds := hoverdraft
      balanced := by simp only; omega
      wager_nonneg := hw
      pot_nonneg := by simp only; omega
      stack_add_wager_le := by simp only; omega
      overdraft_le := hcovered }

theorem collect (hs : s.Sound setup) : s.collect.Sound setup := by
  rw [hs.collect_eq]
  obtain ⟨hle, hoverdraft, hbalanced, hw, hp, hinitial, hstack⟩ := hs
  exact
    { bankroll_le := hle
      le_afterBlinds := hoverdraft
      balanced := by simp only; omega
      wager_nonneg := Int.le_refl 0
      pot_nonneg := by simp only; omega
      stack_add_wager_le := by simp only; omega
      overdraft_le := hstack }

end Seat.Sound

namespace Hand

/-- The hand of an accepted setup before its start. -/
structure Fresh (setup : Setup) (h : Hand) : Prop where
  accepted : setup.Accepted
  phase : h.phase = .started
  street : h.street = none
  dealt : h.dealt = 0
  pots : h.pots = []
  terms : h.terms = setup.terms
  seats : h.seats = setup.players.mapIdx fun seat p => Seat.fresh seat p.bankroll p.positions

theorem fresh_of_create {setup : Setup} {id : String} {now : Int} {h : Hand}
    (hc : create setup id now = .ok h) : Fresh setup h := by
  obtain ⟨u, hcheck, hc⟩ := Outcome.ok_of_bind hc
  simp only [Outcome.pure_eq, Except.ok.injEq] at hc
  subst hc
  exact ⟨Setup.accepted_of_check hcheck, rfl, rfl, rfl, rfl, rfl, rfl⟩

end Hand

theorem Seat.sound_fresh {setup : Setup} (ha : setup.Accepted) (place : Nat) {p : Entry}
    (hp : p ∈ setup.players) : (Seat.fresh place p.bankroll p.positions).Sound setup where
  bankroll_le := ha.bankroll_le hp
  le_afterBlinds := Terms.le_afterBlinds (ha.bankroll_pos p hp) ha.ante_nonneg
  balanced := by simp [Seat.fresh]
  wager_nonneg := Int.le_refl 0
  pot_nonneg := Int.le_refl 0
  stack_add_wager_le := by simp [Seat.fresh]
  overdraft_le := by
    have hpos := ha.bankroll_pos p hp
    simp only [Seat.fresh]
    omega

variable [Counting]

/-- The hand has the terms and the players of its setup, and every seat is sound if its chips are
counted exactly. -/
structure Table (setup : Setup) (h : Hand) : Prop where
  terms : h.terms = setup.terms
  entries : h.seats.map Seat.entry = setup.players
  numbered : Numbered h.seats
  sound : [setup.Counted] → ∀ s ∈ h.seats, s.Sound setup

namespace Table

variable {setup : Setup} {h h' : Hand}

/-- Only terms and seats matter. -/
theorem congr (ht : Table setup h) (hterms : h'.terms = h.terms) (hseats : h'.seats = h.seats) :
    Table setup h' :=
  ⟨hterms.trans ht.terms, hseats ▸ ht.entries, hseats ▸ ht.numbered, hseats ▸ ht.sound⟩

/-- A change of every seat keeps the table when it keeps the seats' identities and chips sound. -/
theorem map (ht : Table setup h) {f : Seat → Seat} (hterms : h'.terms = h.terms)
    (hseats : h'.seats = h.seats.map f) (hentry : ∀ s, (f s).entry = s.entry)
    (hnumber : ∀ s, (f s).number = s.number)
    (hsound : [setup.Counted] → ∀ s ∈ h.seats, (f s).Sound setup) : Table setup h' where
  terms := hterms.trans ht.terms
  entries := by
    rw [hseats, List.map_map, ← ht.entries]
    exact List.map_congr_left fun s _ => hentry s
  numbered := hseats ▸ ht.numbered.map hnumber
  sound := by
    intro _ s hs
    rw [hseats] at hs
    obtain ⟨r, hr, rfl⟩ := List.mem_map.1 hs
    exact hsound r hr

theorem alike (ht : Table setup h) {f : Seat → Seat} (hterms : h'.terms = h.terms)
    (hseats : h'.seats = h.seats.map f) (hf : ∀ s, Seat.Alike s (f s)) : Table setup h' :=
  ht.map hterms hseats (fun s => (hf s).entry) (fun s => (hf s).number)
    fun s hs => (ht.sound s hs).alike (hf s)

theorem length_seats (ht : Table setup h) : h.seats.length = setup.players.length := by
  rw [← ht.entries, List.length_map]

/-- A seat of one hand of the table has its place in the other. -/
theorem number_lt (ht : Table setup h) (ht' : Table setup h') {s : Seat} (hs : s ∈ h.seats) :
    s.number < h'.seats.length := by
  rw [ht'.length_seats, ← ht.length_seats]
  exact ht.numbered.number_lt hs

theorem seats_ne_nil (ht : Table setup h) (ha : setup.Accepted) : h.seats ≠ [] := by
  refine List.ne_nil_of_length_pos ?_
  have hplayers := ha.two_le_players
  have hlength := ht.length_seats
  omega

theorem entry_of_getElem? (ht : Table setup h) {place : Nat} {e : Entry} {s : Seat}
    (he : setup.players[place]? = some e) (hs : h.seats[place]? = some s) : s.entry = e := by
  rw [← ht.entries, List.getElem?_map, hs] at he
  exact Option.some.inj he

theorem entry_mem (ht : Table setup h) {s : Seat} (hs : s ∈ h.seats) :
    s.entry ∈ setup.players :=
  ht.entries ▸ List.mem_map_of_mem hs

theorem bankroll_pos (ht : Table setup h) (ha : setup.Accepted) {s : Seat} (hs : s ∈ h.seats) :
    0 < s.bankroll :=
  ha.bankroll_pos _ (ht.entry_mem hs)

/-- The seats own what the players brought. -/
theorem sum_bankroll (ht : Table setup h) :
    (h.seats.map Seat.bankroll).sum = setup.bankrolls := by
  rw [Setup.bankrolls, ← ht.entries, List.map_map]
  rfl

theorem bankrolls_nonneg [setup.Counted] (ht : Table setup h) : 0 ≤ setup.bankrolls := by
  rw [← ht.sum_bankroll]
  exact List.sum_nonneg (List.forall_mem_map.2 fun s hs => (ht.sound s hs).within.1)

theorem pot_nonneg [setup.Counted] (ht : Table setup h) : ∀ s ∈ h.seats, 0 ≤ s.pot :=
  fun s hs => (ht.sound s hs).pot_nonneg

/-- No seat puts more than three times its bankroll into the pot. -/
theorem sum_pot_le_bankrolls [setup.Counted] (ht : Table setup h) :
    (h.seats.map Seat.pot).sum ≤ 3 * setup.bankrolls := by
  have hle : (h.seats.map Seat.pot).sum ≤ (h.seats.map fun s => 3 * s.bankroll).sum :=
    List.sum_le_sum fun s hs => by
      have hwithin := (ht.sound s hs).within
      have hwager := (ht.sound s hs).wager_nonneg
      omega
  rwa [List.sum_map_mul_left, ht.sum_bankroll] at hle

/-- All chips in the pot stay within the bound of the setup. -/
theorem sum_pot_le [setup.Counted] (ht : Table setup h) :
    (h.seats.map Seat.pot).sum ≤ setup.bound := by
  have hbound := setup.bankrolls_lt_bound
  have hle := ht.sum_pot_le_bankrolls
  have hbankrolls := ht.bankrolls_nonneg
  omega

/-- Somebody deals. -/
theorem dealerSeat_eq_ok (ht : Table setup h) (ha : setup.Accepted) :
    ∃ dealer, h.dealerSeat = .ok dealer := by
  unfold Hand.dealerSeat
  cases hfind : h.seats.findIdx? fun s => s.holds .dealer with
  | some dealer => exact ⟨dealer, rfl⟩
  | none =>
      have hnone := List.findIdx?_eq_none_iff.1 hfind
      have hzero : setup.players.countP (fun p => p.positions.contains .dealer) = 0 := by
        rw [← ht.entries, List.countP_map, List.countP_eq_zero]
        intro s hs
        exact Bool.eq_false_iff.1 (hnone s hs)
      have hone := ha.one_dealer
      omega

end Table

theorem Hand.Fresh.table {setup : Setup} {h : Hand} (hf : h.Fresh setup) : Table setup h where
  terms := hf.terms
  entries := by
    rw [hf.seats]
    exact List.ext_getElem? fun i => by simp [Seat.entry, Seat.fresh, Function.comp_def]
  numbered := by
    rw [Numbered, hf.seats]
    exact List.ext_getElem? fun i => by
      by_cases hi : i < setup.players.length <;> simp [Seat.fresh, hi]
  sound := by
    intro _ s hs
    rw [hf.seats] at hs
    obtain ⟨i, hi, rfl⟩ := List.mem_mapIdx.1 hs
    exact Seat.sound_fresh hf.accepted _ (List.getElem_mem hi)

end PokerHand
