import Mathlib.Data.List.Induction
import Mathlib.Data.List.Sort
import PokerHand.Lists

/-!
# Sorted and gathered lists

`sortBy` is insertion sorting, and what ties under it stays as it was. `gather` lists the keys of
its entries without repetition, in the order in which they first appear, and has for each key the
entries that have it.
-/
namespace PokerHand.Lists

variable {α κ : Type}

theorem insertBy_eq (le : α → α → Bool) (a : α) (xs : List α) :
    insertBy le a xs = xs.orderedInsert (fun a b => le a b) a := by
  induction xs with
  | nil => rfl
  | cons b rest ih => rw [insertBy, List.orderedInsert_cons, ih]

theorem sortBy_eq (le : α → α → Bool) (xs : List α) :
    sortBy le xs = xs.insertionSort fun a b => le a b := by
  induction xs with
  | nil => rfl
  | cons a rest ih => rw [sortBy, List.insertionSort_cons, ih, insertBy_eq]

theorem sortBy_perm (le : α → α → Bool) (xs : List α) : (sortBy le xs).Perm xs :=
  sortBy_eq le xs ▸ List.perm_insertionSort _ xs

theorem pairwise_sortBy {le : α → α → Bool} (total : ∀ a b, le a b ∨ le b a)
    (trans : ∀ a b c, le a b → le b c → le a c) (xs : List α) :
    (sortBy le xs).Pairwise fun a b => le a b := by
  have : Std.Total fun a b => le a b = true := ⟨total⟩
  have : IsTrans α fun a b => le a b = true := ⟨trans⟩
  exact sortBy_eq le xs ▸ List.pairwise_insertionSort _ xs

theorem sortBy_map {β : Type} (le : β → β → Bool) (f : α → β) (xs : List α) :
    sortBy le (xs.map f) = (sortBy (fun a b => le (f a) (f b)) xs).map f := by
  rw [sortBy_eq, sortBy_eq]
  exact (List.map_insertionSort _ _ f xs fun _ _ _ _ => Iff.rfl).symm

/-- What an entry makes of the entries after it is all that sorting looks at. -/
theorem sortBy_congr {le le' : α → α → Bool} {xs : List α}
    (h : xs.Pairwise fun a b => le a b = le' a b) : sortBy le xs = sortBy le' xs := by
  have hinsert : ∀ a ys, (∀ b ∈ ys, le a b = le' a b) → insertBy le a ys = insertBy le' a ys := by
    intro a ys hys
    induction ys with
    | nil => rfl
    | cons b rest ih =>
        obtain ⟨hb, hrest⟩ := List.forall_mem_cons.1 hys
        rw [insertBy, insertBy, hb, ih hrest]
  induction xs with
  | nil => rfl
  | cons a rest ih =>
      obtain ⟨ha, hrest⟩ := List.pairwise_cons.1 h
      rw [sortBy, sortBy, ih hrest]
      exact hinsert a _ fun b hb => ha b ((sortBy_perm _ _).mem_iff.1 hb)

/-- Entries that tie with each other keep their order. -/
theorem filter_sortBy {le : α → α → Bool} {p : α → Bool} (htie : ∀ a b, p a → p b → le a b)
    (xs : List α) : (sortBy le xs).filter p = xs.filter p := by
  have hkept : (xs.filter p).Pairwise fun a b => le a b :=
    List.pairwise_of_forall_mem_list fun a ha b hb =>
      htie a b (List.of_mem_filter ha) (List.of_mem_filter hb)
  have hsub : (xs.filter p).Sublist (sortBy le xs) :=
    sortBy_eq le xs ▸ List.sublist_insertionSort hkept List.filter_sublist
  have hfilter := hsub.filter p
  rw [List.filter_filter] at hfilter
  simp only [Bool.and_self] at hfilter
  exact (hfilter.eq_of_length ((sortBy_perm le xs).filter p).length_eq.symm).symm

section Gather

variable [DecidableEq κ] {key : α → κ}

theorem gather_concat (key : α → κ) (xs : List α) (a : α) :
    gather key (xs ++ [a]) = join key (gather key xs) a := by
  rw [gather, gather, List.foldl_append, List.foldl_cons, List.foldl_nil]

/-- A new key comes last, and a known one stays where it is. -/
theorem map_fst_join (key : α → κ) (groups : List (κ × List α)) (a : α) :
    (join key groups a).map Prod.fst =
      groups.map Prod.fst ++ if key a ∈ groups.map Prod.fst then [] else [key a] := by
  induction groups with
  | nil => simp [join]
  | cons g rest ih =>
      by_cases h : g.1 = key a
      · simp [join, h]
      · simp only [join, h, if_false, List.map_cons, ih, List.cons_append, List.mem_cons,
          Ne.symm h, false_or]

theorem mem_map_fst_gather {xs : List α} {k : κ} :
    k ∈ (gather key xs).map Prod.fst ↔ k ∈ xs.map key := by
  induction xs using List.reverseRecOn generalizing k with
  | nil => simp [gather]
  | append_singleton xs a ih =>
      rw [gather_concat, map_fst_join, List.map_append, List.mem_append, List.mem_append, ih]
      by_cases h : key a ∈ (gather key xs).map Prod.fst
      · have hin := ih.1 h
        simp only [h, if_true, List.not_mem_nil, or_false, List.map_cons, List.map_nil,
          List.mem_singleton]
        exact ⟨.inl, fun hk => hk.elim id fun hk => hk ▸ hin⟩
      · simp only [h, if_false, List.map_cons, List.map_nil]

theorem nodup_map_fst_gather (key : α → κ) (xs : List α) :
    ((gather key xs).map Prod.fst).Nodup := by
  induction xs using List.reverseRecOn with
  | nil => exact List.nodup_nil
  | append_singleton xs a ih =>
      rw [gather_concat, map_fst_join]
      split
      · rwa [List.append_nil]
      · next hnew => exact List.nodup_append_comm.1 (List.nodup_cons.2 ⟨hnew, ih⟩)

/-- The keys stand in the order of their first appearance. -/
theorem map_fst_gather_sublist (key : α → κ) (xs : List α) :
    ((gather key xs).map Prod.fst).Sublist (xs.map key) := by
  induction xs using List.reverseRecOn with
  | nil => exact .slnil
  | append_singleton xs a ih =>
      rw [gather_concat, map_fst_join, List.map_append]
      refine ih.append ?_
      split
      · exact List.nil_sublist _
      · exact .refl _

/-- The group of a key has the entries with this key, in their order. -/
theorem snd_of_mem_gather {xs : List α} {g : κ × List α} (hg : g ∈ gather key xs) :
    g.2 = xs.filter fun x => key x = g.1 := by
  have hjoin : ∀ {xs : List α} {groups : List (κ × List α)} {a : α},
      (groups.map Prod.fst).Nodup → (key a ∉ groups.map Prod.fst → xs.filter (key · = key a) = []) →
      (∀ g ∈ groups, g.2 = xs.filter fun x => key x = g.1) →
      ∀ g ∈ join key groups a, g.2 = (xs ++ [a]).filter fun x => key x = g.1 := by
    intro xs groups a hnodup hnew hgroups
    induction groups with
    | nil => simp [join, List.filter_append, hnew]
    | cons g rest ih =>
        obtain ⟨hg, hrest⟩ := List.forall_mem_cons.1 hgroups
        obtain ⟨hout, hnodup⟩ := List.nodup_cons.1 hnodup
        by_cases h : g.1 = key a
        · have hothers : ∀ r ∈ rest, ¬ key a = r.1 := fun r hr he =>
            hout (List.mem_map.2 ⟨r, hr, he.symm.trans h.symm⟩)
          simp only [join, h, if_true]
          refine List.forall_mem_cons.2 ⟨by simp [List.filter_append, hg, h], fun r hr => ?_⟩
          simp [List.filter_append, hrest r hr, hothers r hr]
        · simp only [join, h, if_false]
          refine List.forall_mem_cons.2 ⟨by simp [List.filter_append, hg, Ne.symm h], ?_⟩
          exact ih hnodup (fun hk => hnew (by simpa [Ne.symm h] using hk)) hrest
  induction xs using List.reverseRecOn generalizing g with
  | nil => simp [gather] at hg
  | append_singleton xs a ih =>
      rw [gather_concat] at hg
      refine hjoin (nodup_map_fst_gather key xs) (fun hk => ?_) (fun g hg => ih hg) g hg
      rw [mem_map_fst_gather] at hk
      exact List.filter_eq_nil_iff.2 fun x hx he =>
        hk (List.mem_map.2 ⟨x, hx, of_decide_eq_true he⟩)

end Gather

end PokerHand.Lists
