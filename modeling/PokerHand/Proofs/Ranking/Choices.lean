import PokerHand.Proofs.Ranking.Enumeration

/-!
# The best of all choices

A player may show any legal choice of cards (`MadeHand.Legal`), told by the positions at which the
cards lie. The search goes through these choices and no others (`mem_candidates_iff`), there is
always one, and what it keeps is made by one of them and exceeded by none.
-/
namespace PokerHand

variable {α : Type} {k : Nat} {xs sel : List α}

/-- The entries of a list at so many of its positions, in their order. -/
def Picks (k : Nat) (xs sel : List α) : Prop :=
  ∃ positions : List (Fin xs.length), positions.length = k ∧ positions.Pairwise (· < ·) ∧
    sel = positions.map fun i => xs[i]

theorem picks_iff_sublist : Picks k xs sel ↔ sel.Sublist xs ∧ sel.length = k := by
  constructor
  · rintro ⟨positions, rfl, hrise, rfl⟩
    exact ⟨List.map_getElem_sublist hrise, List.length_map _⟩
  · rintro ⟨hsub, rfl⟩
    obtain ⟨positions, rfl, hrise⟩ := List.sublist_eq_map_getElem hsub
    exact ⟨positions, (List.length_map _).symm, hrise, rfl⟩

/-- All positions give the list itself. -/
theorem picks_length_iff : Picks xs.length xs sel ↔ sel = xs := by
  rw [picks_iff_sublist]
  exact ⟨fun ⟨hsub, hlength⟩ => hsub.eq_of_length hlength, fun heq => heq ▸ ⟨.refl _, rfl⟩⟩

theorem exists_picks (hk : k ≤ xs.length) : ∃ sel, Picks k xs sel :=
  ⟨xs.take k, picks_iff_sublist.2 ⟨List.take_sublist k xs, List.length_take_of_le hk⟩⟩

/-- The selections are the entries at each set of positions. -/
theorem mem_selections_iff : sel ∈ selections k xs ↔ Picks k xs sel := by
  rw [picks_iff_sublist, selections_eq_chosen, mem_chosen_iff]

namespace MadeHand

variable {hole board set : List Card} {required : Nat} {sets : List (List Card)}

/-- What a player may show. With nothing required it is five of hole and board cards together, or
all of them when there are no more. Else it is the required number of hole cards, or all of them,
and as many board cards as then are missing to five, or all of them. -/
def Legal (hole board : List Card) (required : Nat) (set : List Card) : Prop :=
  if required = 0 then Picks (min 5 (hole ++ board).length) (hole ++ board) set
  else
    ∃ own shared, Picks (min required hole.length) hole own ∧
      Picks (min (5 - min required hole.length) board.length) board shared ∧ set = own ++ shared

/-- A list that is short enough is taken as it is. -/
theorem mem_picked_iff {pool : List Card} :
    set ∈ (if pool.length ≤ k then [pool] else selections k pool) ↔
      Picks (min k pool.length) pool set := by
  split
  · next hle => rw [Nat.min_eq_right hle, picks_length_iff, List.mem_singleton]
  · next hgt => rw [Nat.min_eq_left (Nat.le_of_not_le hgt), mem_selections_iff]

/-- The search goes through the legal choices. -/
theorem mem_candidates_iff :
    set ∈ candidates hole board required ↔ Legal hole board required set := by
  unfold candidates Legal
  split
  · exact mem_picked_iff
  · simp only [List.mem_flatMap, List.mem_map, mem_selections_iff, mem_picked_iff]
    constructor
    · rintro ⟨own, hown, shared, hshared, rfl⟩
      exact ⟨own, shared, hown, hshared, rfl⟩
    · rintro ⟨own, shared, hown, hshared, rfl⟩
      exact ⟨own, hown, shared, hshared, rfl⟩

theorem exists_legal (hole board : List Card) (required : Nat) :
    ∃ set, Legal hole board required set := by
  unfold Legal
  split
  · exact exists_picks (Nat.min_le_right _ _)
  · obtain ⟨own, hown⟩ := exists_picks (Nat.min_le_right required hole.length)
    obtain ⟨shared, hshared⟩ :=
      exists_picks (Nat.min_le_right (5 - min required hole.length) board.length)
    exact ⟨_, own, shared, hown, hshared, rfl⟩

/-- Of the first two sets the weaker one drops out, and the second one on a tie. -/
theorem strongest_cons_cons (first second : List Card) (rest : List (List Card)) (order : Order) :
    strongest (first :: second :: rest) order =
      if (evaluate second order).power ≤ (evaluate first order).power then
        strongest (first :: rest) order
      else strongest (second :: rest) order := by
  simp only [strongest, List.foldl_cons, better]
  split <;> rfl

/-- What is kept is made by one of the sets. -/
theorem exists_strongest_eq (hne : sets ≠ []) (order : Order) :
    ∃ set ∈ sets, strongest sets order = evaluate set order := by
  obtain ⟨first, rest, rfl⟩ := List.exists_cons_of_ne_nil hne
  clear hne
  induction rest generalizing first with
  | nil => exact ⟨first, List.mem_singleton_self _, rfl⟩
  | cons second rest ih =>
      rw [strongest_cons_cons]
      split
      · obtain ⟨set, hset, heq⟩ := ih first
        exact ⟨set, (List.mem_cons.1 hset).elim (· ▸ List.mem_cons_self)
          fun hrest => List.mem_cons_of_mem _ (List.mem_cons_of_mem _ hrest), heq⟩
      · obtain ⟨set, hset, heq⟩ := ih second
        exact ⟨set, List.mem_cons_of_mem _ hset, heq⟩

/-- No set makes a stronger hand than what is kept. -/
theorem power_le_strongest (hset : set ∈ sets) (order : Order) :
    (evaluate set order).power ≤ (strongest sets order).power := by
  obtain ⟨first, rest, rfl⟩ := List.exists_cons_of_ne_nil (List.ne_nil_of_mem hset)
  induction rest generalizing first set with
  | nil => exact List.mem_singleton.1 hset ▸ Nat.le_refl _
  | cons second rest ih =>
      have hfirst := ih first List.mem_cons_self
      have hsecond := ih second List.mem_cons_self
      rw [strongest_cons_cons]
      rcases List.mem_cons.1 hset with rfl | hset
      · split
        · exact hfirst
        · omega
      · rcases List.mem_cons.1 hset with rfl | hrest
        · split
          · omega
          · exact hsecond
        · split
          · exact ih first (List.mem_cons_of_mem _ hrest)
          · exact ih second (List.mem_cons_of_mem _ hrest)

/-- The best hand is made by a legal choice. -/
theorem exists_best_eq (hole board : List Card) (required : Nat) (order : Order) :
    ∃ set, Legal hole board required set ∧
      best hole board required order = evaluate set order := by
  obtain ⟨legal, hlegal⟩ := exists_legal hole board required
  have hne := List.ne_nil_of_mem (mem_candidates_iff.2 hlegal)
  obtain ⟨set, hset, heq⟩ := exists_strongest_eq hne order
  exact ⟨set, mem_candidates_iff.1 hset, heq⟩

/-- The best hand is made by a legal choice of hole and board cards, and no legal choice makes a
stronger one. -/
theorem best_is_strongest_choice (hole board : List Card) (required : Nat) (order : Order) :
    (∃ set, Legal hole board required set ∧
        best hole board required order = evaluate set order) ∧
      ∀ set, Legal hole board required set →
        (evaluate set order).power ≤ (best hole board required order).power :=
  ⟨exists_best_eq hole board required order, fun _ hlegal =>
    power_le_strongest (mem_candidates_iff.2 hlegal) order⟩

end MadeHand

end PokerHand
