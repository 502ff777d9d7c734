import PokerHand.SeatMap

/-!
# Entries of seat maps

A map that is filled by ascending seat lists its entries as they were given, and a value for a seat
that has one leaves the seats as they are.
-/
namespace PokerHand.SeatMap

variable {α : Type}

theorem put_of_gt {seat : Nat} {value : α} {entries : List (Nat × α)}
    (h : ∀ e ∈ entries, e.1 < seat) : put seat value entries = entries ++ [(seat, value)] := by
  induction entries with
  | nil => rfl
  | cons e rest ih =>
      have he := h e List.mem_cons_self
      have hrest := ih fun x hx => h x (List.mem_cons_of_mem _ hx)
      simp [put, Nat.not_lt_of_gt he, Nat.ne_of_gt he, hrest]

theorem entries_erase_of_gt {m : SeatMap α} {seat : Nat} (h : ∀ e ∈ m.entries, e.1 < seat) :
    (m.erase seat).entries = m.entries := by
  refine List.filter_eq_self.2 fun e he => ?_
  have := h e he
  simp
  omega

theorem entries_foldl_insert {xs : List (Nat × α)} (m : SeatMap α)
    (hasc : (xs.map Prod.fst).Pairwise (· < ·)) (h : ∀ e ∈ m.entries, ∀ x ∈ xs, e.1 < x.1) :
    (xs.foldl (fun m e => m.insert e.1 e.2) m).entries = m.entries ++ xs := by
  induction xs generalizing m with
  | nil => simp
  | cons x rest ih =>
      obtain ⟨hfirst, hrest⟩ := List.pairwise_cons.1 hasc
      have hx : (m.insert x.1 x.2).entries = m.entries ++ [x] :=
        put_of_gt fun e he => h e he x List.mem_cons_self
      rw [List.foldl_cons, ih _ hrest, hx, List.append_assoc, List.singleton_append]
      intro e he y hy
      rw [hx] at he
      rcases List.mem_append.1 he with he | he
      · exact h e he y (List.mem_cons_of_mem _ hy)
      · obtain rfl := List.mem_singleton.1 he
        exact hfirst y.1 (List.mem_map_of_mem hy)

theorem entries_ofList {xs : List (Nat × α)} (hasc : (xs.map Prod.fst).Pairwise (· < ·)) :
    (ofList xs).entries = xs := by
  simpa [ofList, empty] using entries_foldl_insert empty hasc (by simp [empty])

theorem lookup_isSome_iff {entries : List (Nat × α)} {seat : Nat} :
    (entries.lookup seat).isSome ↔ seat ∈ entries.map Prod.fst := by
  induction entries with
  | nil => simp
  | cons e rest ih =>
      rw [lookup_cons_ite]
      by_cases h : seat = e.1 <;> simp [h, ih]

theorem mem_iff_lookup {entries : List (Nat × α)} (hasc : entries.Pairwise fun a b => a.1 < b.1)
    {seat : Nat} {value : α} : (seat, value) ∈ entries ↔ entries.lookup seat = some value := by
  induction entries with
  | nil => simp
  | cons e rest ih =>
      obtain ⟨hfirst, hrest⟩ := List.pairwise_cons.1 hasc
      rw [List.mem_cons, ih hrest, lookup_cons_ite]
      by_cases heq : seat = e.1
      · subst heq
        have hlater : rest.lookup e.1 ≠ some value := fun hsome =>
          Nat.lt_irrefl e.1 (hfirst (e.1, value) ((ih hrest).2 hsome))
        rw [if_pos rfl, or_iff_left hlater, Option.some.injEq, Prod.ext_iff]
        exact ⟨fun h => h.2.symm, fun h => ⟨rfl, h.symm⟩⟩
      · rw [if_neg heq]
        exact or_iff_right fun h => heq (congrArg Prod.fst h)

/-- The entry of a seat is what the seat is looked up to. -/
theorem mem_entries_iff {m : SeatMap α} {seat : Nat} {value : α} :
    (seat, value) ∈ m.entries ↔ m.find? seat = some value :=
  mem_iff_lookup m.ascending

theorem contains_iff {m : SeatMap α} {seat : Nat} : m.contains seat = true ↔ seat ∈ m.seats :=
  lookup_isSome_iff

theorem map_fst_put {seat : Nat} {value : α} {entries : List (Nat × α)}
    (hmem : seat ∈ entries.map Prod.fst) (hasc : entries.Pairwise fun a b => a.1 < b.1) :
    (put seat value entries).map Prod.fst = entries.map Prod.fst := by
  induction entries with
  | nil => simp at hmem
  | cons e rest ih =>
      obtain ⟨hfirst, hrest⟩ := List.pairwise_cons.1 hasc
      simp only [put]
      by_cases heq : seat = e.1
      · simp [heq]
      · have hmem : seat ∈ rest.map Prod.fst := by simpa [heq] using hmem
        obtain ⟨x, hx, hxs⟩ := List.mem_map.1 hmem
        have hlt := hfirst x hx
        rw [if_neg (by omega), if_neg heq, List.map_cons, ih hmem hrest, List.map_cons]

theorem seats_insert {m : SeatMap α} {seat : Nat} (h : m.contains seat = true) (value : α) :
    (m.insert seat value).seats = m.seats :=
  map_fst_put (contains_iff.1 h) m.ascending

end PokerHand.SeatMap
