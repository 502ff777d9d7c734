import Mathlib.Data.List.FinRange
import Mathlib.Data.List.Lex
import Mathlib.Data.List.Sort
import Mathlib.Data.Nat.Choose.Bounds
import PokerHand.Ranking.Selection

/-!
# Every choice of positions, each once and in order

`Visits` is the search for choices without a bound: from one choice to the next until none is left.
From the first choice on it ends, and comes by exactly the lists that the recursion over the
positions yields (`chosen`): those that hold the first position, then those that do not. What is
known of the choices is read off that recursion.
-/
namespace PokerHand

variable {α β : Type} {n k i bound : Nat} {choice next : List Nat} {visited more : List (List Nat)}

/-- From a choice on, each choice leads to the next one and the last one to none. -/
inductive Visits (n : Nat) : List Nat → List (List Nat) → Prop where
  | stop {choice : List Nat} (hlast : nextChoice? n choice = none) : Visits n choice [choice]
  | go {choice next : List Nat} {visited : List (List Nat)}
      (hnext : nextChoice? n choice = some next) (hrest : Visits n next visited) :
      Visits n choice (choice :: visited)

/-- A bound that is no less than the choices is not noticed. -/
theorem choicesFrom_of_visits (hvisits : Visits n choice visited)
    (hbound : visited.length ≤ bound) : choicesFrom n bound choice = visited := by
  induction hvisits generalizing bound with
  | stop hlast =>
      obtain ⟨bound, rfl⟩ := Nat.exists_eq_add_of_le' hbound
      simp [choicesFrom, hlast]
  | go hnext _ ih =>
      cases bound with
      | zero => cases hbound
      | succ bound => simp [choicesFrom, hnext, ih (Nat.le_of_succ_le_succ hbound)]

theorem length_nextChoice? (hnext : nextChoice? n choice = some next) :
    next.length = choice.length := by
  fun_induction nextChoice? n choice generalizing next with
  | case1 => cases hnext
  | case2 i rest rest' hrest ih =>
      obtain rfl := Option.some.inj hnext
      rw [List.length_cons, ih hrest, List.length_cons]
  | case3 => cases hnext
  | case4 i rest =>
      obtain rfl := Option.some.inj hnext
      rw [List.length_range', List.length_cons]

/-- A position stays in front until the choice behind it is the last one. -/
theorem Visits.cons (hvisits : Visits n choice visited)
    (hmore : ∀ last, last.length = choice.length → nextChoice? n last = none →
      Visits n (i :: last) ((i :: last) :: more)) :
    Visits n (i :: choice) (visited.map (i :: ·) ++ more) := by
  induction hvisits with
  | stop hlast => exact hmore _ rfl hlast
  | go hnext _ ih =>
      refine .go (by simp [nextChoice?, hnext]) (ih fun last hlength hlast => ?_)
      exact hmore last (hlength.trans (length_nextChoice? hnext)) hlast

/-- A position as far back as it can be is in front of the last choices. -/
theorem Visits.cons_back (hvisits : Visits n choice visited) (hback : i + choice.length + 1 = n) :
    Visits n (i :: choice) (visited.map (i :: ·)) := by
  have hcons : Visits n (i :: choice) (visited.map (i :: ·) ++ []) :=
    hvisits.cons fun last hlength hlast => .stop (by simp [nextChoice?, hlast, hlength, hback])
  rwa [List.append_nil] at hcons

/-- A position that can move on makes room for the choices that begin behind it. -/
theorem Visits.cons_front (hvisits : Visits n choice visited) (hroom : i + choice.length + 1 ≠ n)
    (hmore : Visits n (List.range' (i + 1) (choice.length + 1)) more) :
    Visits n (i :: choice) (visited.map (i :: ·) ++ more) :=
  hvisits.cons fun last hlength hlast =>
    .go (by simp [nextChoice?, hlast, hlength, hroom]) hmore

/-- The ways to take `k` entries in their order, first those that take the first entry. -/
def chosen : Nat → List α → List (List α)
  | 0, _ => [[]]
  | _ + 1, [] => []
  | k + 1, x :: rest => (chosen k rest).map (x :: ·) ++ chosen (k + 1) rest

theorem length_chosen (k : Nat) (xs : List α) : (chosen k xs).length = xs.length.choose k := by
  fun_induction chosen k xs with
  | case1 => simp
  | case2 => simp
  | case3 k x rest ihtake ihleave =>
      rw [List.length_append, List.length_map, ihtake, ihleave, List.length_cons,
        Nat.choose_succ_succ]

theorem chosen_eq_nil {xs : List α} (hshort : xs.length < k) : chosen k xs = [] :=
  List.eq_nil_of_length_eq_zero ((length_chosen k xs).trans (Nat.choose_eq_zero_of_lt hshort))

theorem chosen_map (f : α → β) (k : Nat) (xs : List α) :
    chosen k (xs.map f) = (chosen k xs).map (List.map f) := by
  fun_induction chosen k xs with
  | case1 => simp [chosen]
  | case2 => rfl
  | case3 k x rest ihtake ihleave =>
      rw [List.map_cons, chosen, ihtake, ihleave]
      simp

/-- The entries that are taken are any of that number that keep their order. -/
theorem mem_chosen_iff {sel xs : List α} :
    sel ∈ chosen k xs ↔ sel.Sublist xs ∧ sel.length = k := by
  fun_induction chosen k xs generalizing sel with
  | case1 => simp +contextual
  | case2 => simp +contextual
  | case3 k x rest ihtake ihleave =>
      rw [List.mem_append, List.mem_map, ihleave, List.sublist_cons_iff]
      constructor
      · rintro (⟨sel, hsel, rfl⟩ | ⟨hsub, hlength⟩)
        · obtain ⟨hsub, rfl⟩ := ihtake.1 hsel
          exact ⟨.inr ⟨sel, rfl, hsub⟩, rfl⟩
        · exact ⟨.inl hsub, hlength⟩
      · rintro ⟨hsub | ⟨sel, rfl, hsub⟩, hlength⟩
        · exact .inr ⟨hsub, hlength⟩
        · exact .inl ⟨sel, ihtake.2 ⟨hsub, Nat.succ.inj hlength⟩, rfl⟩

/-- Out of rising entries they are taken in lexicographic order, so none of them twice. -/
theorem pairwise_chosen {R : α → α → Prop} {xs : List α} (hrise : xs.Pairwise R) (k : Nat) :
    (chosen k xs).Pairwise (List.Lex R) := by
  fun_induction chosen k xs with
  | case1 => exact List.pairwise_singleton _ _
  | case2 => exact .nil
  | case3 k x rest ihtake ihleave =>
      obtain ⟨hfirst, hrest⟩ := List.pairwise_cons.1 hrise
      refine List.pairwise_append.2 ⟨?_, ihleave hrest, fun taken htaken left hleft => ?_⟩
      · exact List.pairwise_map.2 ((ihtake hrest).imp .cons)
      · obtain ⟨taken, -, rfl⟩ := List.mem_map.1 htaken
        obtain ⟨hsub, hlength⟩ := mem_chosen_iff.1 hleft
        obtain ⟨y, left, rfl⟩ := List.exists_cons_of_length_eq_add_one hlength
        exact .rel (hfirst y (hsub.subset List.mem_cons_self))

/-- From the first choice on the search comes by all of them and ends. -/
theorem visits_chosen (i : Nat) (hk : k ≤ n) :
    Visits (i + n) (List.range' i k) (chosen k (List.range' i n)) := by
  induction n generalizing i k with
  | zero =>
      obtain rfl := Nat.le_zero.1 hk
      exact .stop rfl
  | succ n ih =>
      cases k with
      | zero => exact .stop rfl
      | succ k =>
          have hrest := ih (i + 1) (Nat.le_of_succ_le_succ hk)
          rw [Nat.add_right_comm i 1 n] at hrest
          rw [List.range'_succ, List.range'_succ, chosen]
          -- when all positions left have to be taken the first of them cannot move on
          rcases Nat.eq_or_lt_of_le (Nat.le_of_succ_le_succ hk) with rfl | hlt
          · have hnone : chosen (k + 1) (List.range' (i + 1) k) = [] := chosen_eq_nil (by simp)
            rw [hnone, List.append_nil]
            exact hrest.cons_back (by simp)
          · have hmore := ih (i + 1) hlt
            rw [Nat.add_right_comm i 1 n] at hmore
            exact hrest.cons_front (by simp; omega) (by rwa [List.length_range'])

theorem visits_range (hk : k ≤ n) : Visits n (List.range k) (chosen k (List.range n)) := by
  simpa [List.range_eq_range'] using visits_chosen 0 hk

/-- The bound on the search is enough. -/
theorem choices_eq_chosen (k n : Nat) : choices k n = chosen k (List.range n) := by
  unfold choices
  split
  · next hshort => rw [chosen_eq_nil (by simpa using hshort)]
  · next hk =>
    refine choicesFrom_of_visits (visits_range (Nat.le_of_not_lt hk)) ?_
    rw [length_chosen, List.length_range]
    exact Nat.choose_le_two_pow n k

example : choices 2 3 = [[0, 1], [0, 2], [1, 2]] := by decide

/-- Within a list the choices are made of positions of the list. -/
theorem choices_eq_map (k : Nat) (xs : List α) :
    choices k xs.length = (chosen k (List.finRange xs.length)).map (List.map Fin.val) := by
  rw [choices_eq_chosen, ← List.map_coe_finRange_eq_range, chosen_map]

theorem selections_eq_map (k : Nat) (xs : List α) :
    selections k xs = (chosen k (List.finRange xs.length)).map (List.map xs.get) := by
  have hentries : ∀ choice : List (Fin xs.length),
      (choice.map Fin.val).filterMap (fun i => xs[i]?) = choice.map xs.get := by
    intro choice
    simp [List.filterMap_map, List.filterMap_eq_map', List.get_eq_getElem]
  rw [selections, choices_eq_map, List.map_map]
  exact List.map_congr_left fun choice _ => hentries choice

theorem selections_eq_chosen (k : Nat) (xs : List α) : selections k xs = chosen k xs := by
  rw [selections_eq_map, ← chosen_map]
  exact congrArg (chosen k) (List.map_get_finRange xs)

/-- Rising positions are those that keep the order of all positions. -/
theorem sublist_finRange_iff {choice : List (Fin n)} :
    choice.Sublist (List.finRange n) ↔ choice.Pairwise (· < ·) := by
  have hall := List.pairwise_lt_finRange n
  refine ⟨fun hsub => List.Pairwise.sublist hsub hall, fun hrise => ?_⟩
  have hsubperm : choice.Subperm (List.finRange n) :=
    List.subperm_of_subset (hrise.imp ne_of_lt) fun i _ => List.mem_finRange i
  exact List.sublist_of_subperm_of_pairwise hsubperm hrise hall

/-- The search for choices ends, with its bound as without one. It comes by every rising choice of
`k` positions of the list and no others, each once and in lexicographic order, and the selections
are the entries there. -/
theorem selections_enumerate (k : Nat) (xs : List α) :
    ∃ positions : List (List (Fin xs.length)),
      (∀ choice, choice ∈ positions ↔ choice.length = k ∧ choice.Pairwise (· < ·)) ∧
      positions.Pairwise (List.Lex (· < ·)) ∧ positions.Nodup ∧
      (k ≤ xs.length →
        Visits xs.length (List.range k) (positions.map (List.map Fin.val))) ∧
      choices k xs.length = positions.map (List.map Fin.val) ∧
      selections k xs = positions.map (List.map xs.get) ∧
      (selections k xs).length = xs.length.choose k ∧
      selections 0 xs = [[]] ∧ (xs.length < k → selections k xs = []) := by
  have hlex := pairwise_chosen (List.pairwise_lt_finRange xs.length) k
  refine ⟨chosen k (List.finRange xs.length), fun choice => ?_, hlex, ?_, fun hk => ?_,
    choices_eq_map k xs, selections_eq_map k xs, ?_, ?_, fun hshort => ?_⟩
  · rw [mem_chosen_iff, sublist_finRange_iff, and_comm]
  · exact hlex.imp fun h => (h.imp (fun _ _ => ne_of_lt) _ _).to_ne
  · rw [← choices_eq_map, choices_eq_chosen]
    exact visits_range hk
  · rw [selections_eq_chosen, length_chosen]
  · rw [selections_eq_chosen, chosen]
  · rw [selections_eq_chosen, chosen_eq_nil hshort]

end PokerHand
