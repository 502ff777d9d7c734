import Mathlib.Data.List.Forall2
import PokerHand.Hand.Note

/-!
# Outcomes of calls

A call is understood by peeling one bind after the other off its outcome. A traversal none of whose
items is refused is a plain map. `Fair` is the postcondition of a call that may be refused, but only
for what the caller did.
-/
namespace PokerHand

/-- A refusal that the caller can avoid: the action is not legal now, or the phase is another. -/
def Fault.IsMild (fault : Fault) : Prop :=
  fault.severity = .illegalAction ∨ fault.severity = .outOfPhase

namespace Outcome

variable {ε α β : Type}

@[simp] theorem ok_bind (a : α) (f : α → Except ε β) : (Except.ok a >>= f) = f a := rfl

@[simp] theorem error_bind (e : ε) (f : α → Except ε β) :
    ((Except.error e : Except ε α) >>= f) = .error e := rfl

@[simp] theorem pure_eq (a : α) : (pure a : Except ε α) = .ok a := rfl

@[simp] theorem throw_eq (e : ε) : (throw e : Except ε α) = .error e := rfl

@[simp] theorem bind_ok (x : Except ε α) : (x >>= fun a => .ok a) = x := by
  cases x <;> rfl

/-- A check that is passed. -/
theorem ok_of_guard {p : Prop} [Decidable p] {e : ε} {f : Unit → Except ε β} {b : β}
    (h : (if p then throw e >>= f else f ()) = .ok b) : ¬p ∧ f () = .ok b := by
  by_cases hp : p
  · simp [hp] at h
  · exact ⟨hp, by simpa [hp] using h⟩

theorem ok_of_bind {x : Except ε α} {f : α → Except ε β} {b : β} (h : x >>= f = .ok b) :
    ∃ a, x = .ok a ∧ f a = .ok b := by
  cases x with
  | error e => simp at h
  | ok a => exact ⟨a, rfl, h⟩

/-- Computations that go on from one result are the same when they go on in the same way. -/
theorem bind_congr_ok {f g : α → Except ε β} (x : Except ε α)
    (hfg : ∀ a, x = .ok a → f a = g a) : x >>= f = x >>= g := by
  cases x with
  | error e => rfl
  | ok a => exact hfg a rfl

theorem map_eq_ok_iff {f : α → β} {x : Except ε α} {b : β} :
    x.map f = .ok b ↔ ∃ a, x = .ok a ∧ f a = b := by
  cases x <;> simp [Except.map]

/-- Computations that go on from one result are the same as far as their last parts are. -/
theorem map_bind_congr {γ : Type} {F : β → γ} {f g : α → Except ε β} (x : Except ε α)
    (hfg : ∀ a, x = .ok a → F <$> f a = F <$> g a) : F <$> (x >>= f) = F <$> (x >>= g) := by
  cases x with
  | error e => rfl
  | ok a => exact hfg a rfl

/-- Outcomes that are the same under a map both succeed, or both fail in the same way. -/
theorem cases_of_map_eq {F : α → β} {x y : Except ε α} (h : F <$> x = F <$> y) :
    (∃ a b, x = .ok a ∧ y = .ok b ∧ F a = F b) ∨ ∃ e, x = .error e ∧ y = .error e := by
  cases x with
  | error e =>
      cases y with
      | error e' => exact .inr ⟨e, rfl, congrArg Except.error (Except.error.inj h).symm⟩
      | ok b => cases h
  | ok a =>
      cases y with
      | error e => cases h
      | ok b => exact .inl ⟨a, b, rfl, rfl, Except.ok.inj h⟩

theorem mapM_eq_map {f : α → Except ε β} {g : α → β} {xs : List α}
    (h : ∀ x ∈ xs, f x = .ok (g x)) : xs.mapM f = .ok (xs.map g) := by
  induction xs with
  | nil => simp
  | cons x xs ih =>
      have hx := h x List.mem_cons_self
      have hxs := ih fun y hy => h y (List.mem_cons_of_mem _ hy)
      simp [List.mapM_cons, hx, hxs]

/-- A traversal that refuses no item gives the results in their order. -/
theorem exists_mapM {f : α → Except ε β} {R : α → β → Prop} {xs : List α}
    (h : ∀ x ∈ xs, ∃ y, f x = .ok y ∧ R x y) :
    ∃ ys, xs.mapM f = .ok ys ∧ List.Forall₂ R xs ys := by
  induction xs with
  | nil => exact ⟨[], rfl, .nil⟩
  | cons x xs ih =>
      obtain ⟨y, hy, hR⟩ := h x List.mem_cons_self
      obtain ⟨ys, hys, hall⟩ := ih fun z hz => h z (List.mem_cons_of_mem _ hz)
      exact ⟨y :: ys, by simp [List.mapM_cons, hy, hys], .cons hR hall⟩

/-- A traversal that refuses an item fails as one of its items does. -/
theorem mapM_eq_error {f : α → Except ε β} {xs : List α} {P : ε → Prop}
    (hall : ∀ x ∈ xs, ∀ e, f x = .error e → P e) {x : α} (hx : x ∈ xs) {e : ε}
    (hrefused : f x = .error e) : ∃ e, xs.mapM f = .error e ∧ P e := by
  induction xs with
  | nil => cases hx
  | cons first rest ih =>
      obtain ⟨hfirst, hrest⟩ := List.forall_mem_cons.1 hall
      cases hf : f first with
      | error e' => exact ⟨e', by simp [List.mapM_cons, hf], hfirst e' hf⟩
      | ok y =>
          rcases List.mem_cons.1 hx with rfl | hx
          · rw [hf] at hrefused
            cases hrefused
          · obtain ⟨e', he', hP⟩ := ih hrest hx
            exact ⟨e', by simp [List.mapM_cons, hf, he'], hP⟩

/-- A traversal succeeds with the results of all items. -/
theorem mapM_eq_ok_iff {f : α → Except ε β} {xs : List α} {ys : List β} :
    xs.mapM f = .ok ys ↔ List.Forall₂ (fun x y => f x = .ok y) xs ys := by
  induction xs generalizing ys with
  | nil => simp [eq_comm]
  | cons x xs ih =>
      rw [List.mapM_cons, List.forall₂_cons_left_iff]
      constructor
      · intro h
        obtain ⟨y, hy, h⟩ := ok_of_bind h
        obtain ⟨ys, hys, h⟩ := ok_of_bind h
        exact ⟨y, ys, hy, ih.1 hys, (Except.ok.inj h).symm⟩
      · rintro ⟨y, ys, hy, hys, rfl⟩
        simp [hy, ih.2 hys]

/-- A traversal fails as the first item that is refused. -/
theorem mapM_eq_error_iff {f : α → Except ε β} {xs : List α} {e : ε} :
    xs.mapM f = .error e ↔ ∃ before x after, xs = before ++ x :: after ∧
      (∀ y ∈ before, ∃ b, f y = .ok b) ∧ f x = .error e := by
  induction xs with
  | nil => simp
  | cons x xs ih =>
      rw [List.mapM_cons]
      constructor
      · intro h
        cases hx : f x with
        | error e' =>
            rw [hx, error_bind] at h
            exact ⟨[], x, xs, rfl, nofun, hx.trans (congrArg _ (Except.error.inj h))⟩
        | ok b =>
            have hxs : xs.mapM f = .error e := by
              cases hxs : xs.mapM f <;> simp_all
            obtain ⟨before, y, after, rfl, hbefore, hy⟩ := ih.1 hxs
            exact ⟨x :: before, y, after, rfl, List.forall_mem_cons.2 ⟨⟨b, hx⟩, hbefore⟩, hy⟩
      · rintro ⟨before, y, after, heq, hbefore, hy⟩
        cases before with
        | nil =>
            obtain ⟨rfl, rfl⟩ := List.cons.inj heq
            rw [hy]
            rfl
        | cons z before =>
            obtain ⟨rfl, rfl⟩ := List.cons.inj heq
            obtain ⟨⟨b, hb⟩, hbefore⟩ := List.forall_mem_cons.1 hbefore
            rw [hb, ok_bind, ih.2 ⟨before, y, after, rfl, hbefore, hy⟩, error_bind]

/-- The result satisfies `P`, or the refusal is mild. -/
def Fair (P : α → Prop) : Except Fault α → Prop
  | .ok a => P a
  | .error fault => fault.IsMild

@[simp] theorem fair_ok {P : α → Prop} {a : α} : Fair P (.ok a) ↔ P a := .rfl

@[simp] theorem fair_error {P : α → Prop} {fault : Fault} :
    Fair P (.error fault) ↔ fault.IsMild := .rfl

theorem Fair.of_ok {P : α → Prop} {x : Except Fault α} (h : ∃ a, x = .ok a ∧ P a) : Fair P x := by
  obtain ⟨a, rfl, ha⟩ := h
  exact ha

theorem Fair.bind {P : α → Prop} {Q : β → Prop} {x : Except Fault α} {f : α → Except Fault β}
    (hx : Fair P x) (hf : ∀ a, P a → Fair Q (f a)) : Fair Q (x >>= f) := by
  cases x with
  | error fault => exact hx
  | ok a => exact hf a hx

end Outcome

namespace Traced

variable {α : Type}

@[simp] theorem outcome_liftM (x : Except Fault α) : (liftM x : Traced α).outcome = x := rfl

end Traced

end PokerHand
