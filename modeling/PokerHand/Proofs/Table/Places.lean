import PokerHand.Hand.State

/-!
# Seats numbered by their places

At a table each seat carries its place as its number. Changing the seat at a place is then a map
over all seats, and so is a change that depends on the place.
-/
namespace PokerHand

/-- Every seat carries its place as its number. -/
def Numbered (seats : List Seat) : Prop := seats.map Seat.number = List.range seats.length

namespace Numbered

variable {seats : List Seat}

theorem number_of_getElem? (hn : Numbered seats) {place : Nat} {s : Seat}
    (hs : seats[place]? = some s) : s.number = place := by
  have hnum := congrArg (·[place]?) hn
  obtain ⟨hlt, -⟩ := List.getElem?_eq_some_iff.1 hs
  simpa [hs, List.getElem?_range hlt] using hnum

theorem getElem?_number (hn : Numbered seats) {s : Seat} (hs : s ∈ seats) :
    seats[s.number]? = some s := by
  obtain ⟨place, hplace⟩ := List.getElem?_of_mem hs
  rw [hn.number_of_getElem? hplace, hplace]

theorem number_lt (hn : Numbered seats) {s : Seat} (hs : s ∈ seats) :
    s.number < seats.length :=
  (List.getElem?_eq_some_iff.1 (hn.getElem?_number hs)).1

theorem eq_of_number (hn : Numbered seats) {s t : Seat} (hs : s ∈ seats) (ht : t ∈ seats)
    (hst : s.number = t.number) : s = t :=
  Option.some.inj <| (hn.getElem?_number hs).symm.trans <| hst ▸ hn.getElem?_number ht

/-- What holds of one seat and of those with other numbers holds of all. -/
theorem forall_of_self (hn : Numbered seats) {s : Seat} (hs : s ∈ seats) {P : Seat → Prop}
    (hself : P s) (hother : ∀ r ∈ seats, r.number ≠ s.number → P r) : ∀ r ∈ seats, P r := by
  intro r hr
  by_cases hnumber : r.number = s.number
  · exact hn.eq_of_number hr hs hnumber ▸ hself
  · exact hother r hr hnumber

theorem ascending (hn : Numbered seats) : (seats.map Seat.number).Pairwise (· < ·) := by
  rw [hn]
  exact List.pairwise_lt_range

theorem nodup (hn : Numbered seats) : (seats.map Seat.number).Nodup := by
  rw [hn]
  exact List.nodup_range

theorem modify_eq_map (hn : Numbered seats) (place : Nat) (f : Seat → Seat) :
    seats.modify place f = seats.map fun s => if s.number = place then f s else s := by
  refine List.ext_getElem? fun i => ?_
  rw [List.getElem?_modify, List.getElem?_map]
  cases hs : seats[i]? with
  | none => rfl
  | some s =>
      rw [← hn.number_of_getElem? hs]
      simp [eq_comm]

theorem mapIdx_eq_map (hn : Numbered seats) (f : Nat → Seat → Seat) :
    seats.mapIdx f = seats.map fun s => f s.number s := by
  refine List.ext_getElem? fun i => ?_
  rw [List.getElem?_mapIdx, List.getElem?_map]
  cases hs : seats[i]? with
  | none => rfl
  | some s => simp [hn.number_of_getElem? hs]

theorem map (hn : Numbered seats) {f : Seat → Seat} (hf : ∀ s, (f s).number = s.number) :
    Numbered (seats.map f) := by
  simpa [Numbered, List.map_map, Function.comp_def, hf] using hn

end Numbered

/-- Changing the seat at a place is a change of every seat. -/
theorem Hand.modifySeat_eq_ok {h : Hand} (hn : Numbered h.seats) {place : Nat}
    (hlt : place < h.seats.length) (f : Seat → Seat) :
    h.modifySeat place f = .ok (h.mapSeats fun s => if s.number = place then f s else s) := by
  simp only [modifySeat, hlt, if_true, hn.modify_eq_map]
  rfl

end PokerHand
