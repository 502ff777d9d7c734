/-!
# Maps from seats

A `SeatMap` holds at most one value for each seat and lists its entries by ascending seat. Looking
a seat up after a change is said by `find?_insert` and `find?_erase`.
-/
namespace PokerHand

structure SeatMap (α : Type) where
  entries : List (Nat × α)
  ascending : entries.Pairwise fun a b => a.1 < b.1

namespace SeatMap

variable {α : Type}

instance [DecidableEq α] : DecidableEq (SeatMap α) := fun a b =>
  decidable_of_iff (a.entries = b.entries) (by cases a; cases b; simp)

def empty : SeatMap α := ⟨[], .nil⟩

/-- Puts a value for `seat` into ascending entries, in place of any value that it had. -/
def put (seat : Nat) (value : α) : List (Nat × α) → List (Nat × α)
  | [] => [(seat, value)]
  | entry :: rest =>
      if seat < entry.1 then (seat, value) :: entry :: rest
      else if seat = entry.1 then (seat, value) :: rest
      else entry :: put seat value rest

theorem mem_put {seat : Nat} {value : α} {x : Nat × α} {entries : List (Nat × α)}
    (h : x ∈ put seat value entries) : x = (seat, value) ∨ x ∈ entries := by
  induction entries with
  | nil => simpa [put] using h
  | cons entry rest ih =>
      simp only [put] at h
      split at h
      · simpa using h
      · split at h
        · rcases List.mem_cons.1 h with h | h
          · exact .inl h
          · exact .inr (List.mem_cons_of_mem _ h)
        · rcases List.mem_cons.1 h with h | h
          · exact .inr (h ▸ List.mem_cons_self)
          · rcases ih h with h | h
            · exact .inl h
            · exact .inr (List.mem_cons_of_mem _ h)

theorem ascending_put (seat : Nat) (value : α) {entries : List (Nat × α)}
    (h : entries.Pairwise fun a b => a.1 < b.1) :
    (put seat value entries).Pairwise fun a b => a.1 < b.1 := by
  induction entries with
  | nil => simp [put]
  | cons entry rest ih =>
      obtain ⟨hall, hrest⟩ := List.pairwise_cons.1 h
      simp only [put]
      split
      · next hlt =>
        refine List.pairwise_cons.2 ⟨fun x hx => ?_, h⟩
        rcases List.mem_cons.1 hx with rfl | hx
        · exact hlt
        · exact Nat.lt_trans hlt (hall x hx)
      · split
        · next heq => exact List.pairwise_cons.2 ⟨fun x hx => heq ▸ hall x hx, hrest⟩
        · next hlt hne =>
          refine List.pairwise_cons.2 ⟨fun x hx => ?_, ih hrest⟩
          rcases mem_put hx with rfl | hx
          · show entry.1 < seat
            omega
          · exact hall x hx

def insert (m : SeatMap α) (seat : Nat) (value : α) : SeatMap α :=
  ⟨put seat value m.entries, ascending_put seat value m.ascending⟩

/-- The map without the value for `seat`. -/
def erase (m : SeatMap α) (seat : Nat) : SeatMap α :=
  ⟨m.entries.filter fun e => e.1 != seat, m.ascending.filter _⟩

def find? (m : SeatMap α) (seat : Nat) : Option α := m.entries.lookup seat

@[simp] theorem find?_empty (seat : Nat) : (empty : SeatMap α).find? seat = none := rfl

theorem lookup_cons_ite (seat : Nat) (entry : Nat × α) (rest : List (Nat × α)) :
    (entry :: rest).lookup seat = if seat = entry.1 then some entry.2 else rest.lookup seat := by
  obtain ⟨place, value⟩ := entry
  by_cases h : seat = place
  · simp [h]
  · simp [List.lookup_cons, beq_eq_false_iff_ne.2 h, h]

theorem lookup_put (seat other : Nat) (value : α) (entries : List (Nat × α)) :
    (put seat value entries).lookup other =
      if other = seat then some value else entries.lookup other := by
  induction entries with
  | nil => simp [put, lookup_cons_ite]
  | cons entry rest ih =>
      simp only [put]
      split
      · simp only [lookup_cons_ite]
      · split
        · next heq =>
          simp only [lookup_cons_ite, ← heq]
          split <;> rfl
        · next hne =>
          simp only [lookup_cons_ite, ih]
          split
          · next h => rw [if_neg fun hs => hne (hs.symm.trans h)]
          · rfl

@[simp] theorem find?_insert (m : SeatMap α) (seat other : Nat) (value : α) :
    (m.insert seat value).find? other = if other = seat then some value else m.find? other :=
  lookup_put seat other value m.entries

theorem lookup_filter_ne (seat other : Nat) (entries : List (Nat × α)) :
    (entries.filter fun e => e.1 != seat).lookup other =
      if other = seat then none else entries.lookup other := by
  induction entries with
  | nil => simp
  | cons entry rest ih =>
      by_cases h : entry.1 = seat
      · simp only [List.filter_cons, h, bne_self_eq_false, Bool.false_eq_true, if_false, ih,
          lookup_cons_ite]
        split <;> rfl
      · simp only [List.filter_cons, bne_iff_ne.2 h, if_true, ih, lookup_cons_ite]
        split
        · next he => rw [if_neg fun hs => h (he.symm.trans hs)]
        · rfl

@[simp] theorem find?_erase (m : SeatMap α) (seat other : Nat) :
    (m.erase seat).find? other = if other = seat then none else m.find? other :=
  lookup_filter_ne seat other m.entries

def contains (m : SeatMap α) (seat : Nat) : Bool := (m.find? seat).isSome

/-- The seats that have a value, ascending. -/
def seats (m : SeatMap α) : List Nat := m.entries.map Prod.fst

/-- The map with the given entries; the last value given for a seat counts. -/
def ofList (entries : List (Nat × α)) : SeatMap α :=
  entries.foldl (fun m e => m.insert e.1 e.2) empty

end SeatMap

end PokerHand
