import PokerHand.Json.Decode

/-!
# Writing and reading

`Faithful write read Fits` says that reading undoes writing on the values that fit, and that
whatever is read fits; so a value that was read once is read again the same. Parts are put together
by `comp`, for a value that is written through another, by `mapM`, for the items of a list, and by
`need`, `may` and `orElse`, for the columns of a record.
-/
namespace PokerHand

structure Faithful {α κ : Type} (write : α → κ) (read : κ → Option α) (Fits : α → Prop) :
    Prop where
  read_write : ∀ {a : α}, Fits a → read (write a) = some a
  fits : ∀ {k : κ} {a : α}, read k = some a → Fits a

namespace Faithful

variable {α β κ : Type} {write : α → κ} {read : κ → Option α} {Fits : α → Prop}

theorem reread (F : Faithful write read Fits) {k : κ} {a : α} (h : read k = some a) :
    read (write a) = some a :=
  F.read_write (F.fits h)

/-- A value that is written through another one. -/
theorem comp {writeInner : β → α} {readInner : α → Option β} {FitsInner : β → Prop}
    (F : Faithful write read Fits) (G : Faithful writeInner readInner FitsInner)
    (hfit : ∀ b, FitsInner b → Fits (writeInner b)) :
    Faithful (fun b => write (writeInner b)) (fun k => (read k).bind readInner) FitsInner where
  read_write := by
    intro b hb
    rw [F.read_write (hfit b hb), Option.bind_some, G.read_write hb]
  fits := by
    intro k b h
    obtain ⟨a, -, ha⟩ := Option.bind_eq_some_iff.1 h
    exact G.fits ha

/-- Values all of which fit. -/
theorem total (F : Faithful write read Fits) (h : ∀ a, Fits a) :
    Faithful write read fun _ => True :=
  ⟨fun {a} _ => F.read_write (h a), fun _ => trivial⟩

/-- The items of a list. -/
theorem mapM (F : Faithful write read Fits) :
    Faithful (List.map write) (List.mapM read) fun as => ∀ a ∈ as, Fits a where
  read_write := by
    intro as h
    induction as with
    | nil => rfl
    | cons a rest ih =>
        have ha : read (write a) = some a := F.read_write (h a List.mem_cons_self)
        have hrest := ih fun b hb => h b (List.mem_cons_of_mem _ hb)
        simp [ha, hrest]
  fits := by
    intro ks as h
    induction ks generalizing as with
    | nil =>
        obtain rfl := Option.some.inj h
        simp
    | cons k rest ih =>
        simp only [List.mapM_cons, Option.bind_eq_bind, Option.bind_eq_some_iff] at h
        obtain ⟨a, ha, others, hothers, h⟩ := h
        obtain rfl := Option.some.inj h
        exact List.forall_mem_cons.2 ⟨F.fits ha, ih hothers⟩

/-- An alternative that is found by its name. -/
theorem ofFind [BEq κ] {all : List α} {name : α → κ} (hall : ∀ a, a ∈ all)
    (hname : ∀ a ∈ all, (all.find? fun b => name b == name a) = some a) :
    Faithful name (fun k => all.find? fun b => name b == k) fun _ => True where
  read_write := fun {a} _ => hname a (hall a)
  fits := fun _ => trivial

end Faithful

namespace Json

variable {α : Type} {write : α → Json} {read : Json → Option α} {Fits : α → Prop}

theorem faithful_bool : Faithful bool bool? fun _ => True := ⟨fun _ => rfl, fun _ => trivial⟩

theorem faithful_text : Faithful str text? fun _ => True := ⟨fun _ => rfl, fun _ => trivial⟩

theorem faithful_name : Faithful str name? fun _ => True := ⟨fun _ => rfl, fun _ => trivial⟩

theorem faithful_amount : Faithful int amount? fun n => Text.Numeral.isAmount n where
  read_write := fun h => if_pos h
  fits := by
    intro j n h
    cases j <;> simp only [amount?, reduceCtorEq] at h
    split at h
    · next hn => exact Option.some.inj h ▸ hn
    · cases h

theorem faithful_below (bound : Nat) : Faithful nat (below? bound) fun n => n < bound where
  read_write := by
    intro n h
    simp [nat, below?, h]
  fits := by
    intro j n h
    cases j <;> simp only [below?, reduceCtorEq] at h
    split at h
    · next hm =>
      obtain rfl := Option.some.inj h
      omega
    · cases h

theorem faithful_count : Faithful nat count? fun n => n < Text.Numeral.countBound :=
  faithful_below _

theorem faithful_list (F : Faithful write read Fits) :
    Faithful (ofList write) (list? read) fun as => ∀ a ∈ as, Fits a where
  read_write := F.mapM.read_write
  fits := by
    intro j as h
    cases j <;> simp only [list?, reduceCtorEq] at h
    exact F.mapM.fits h

/-! ## Columns of a record -/

/-- A record whose columns are known is read from them. With the columns put in by one step no later
one has to look a field up by its name. -/
theorem columns_bind {names : List String} {spare : Nat} {j : Json} {cols : List (Option Json)}
    (h : j.columns names spare = some cols) (f : List (Option Json) → Option α) :
    (j.columns names spare >>= f) = f cols := by
  rw [h]
  rfl

end Json

namespace Faithful

variable {α β : Type} {write : α → Json} {read : Json → Option α} {Fits : α → Prop}

theorem need (F : Faithful write read Fits) {a : α} (h : Fits a) :
    Json.need read (some (write a)) = some a :=
  F.read_write h

theorem of_need (F : Faithful write read Fits) {j : Option Json} {f : α → Option β} {b : β}
    (h : Json.need read j >>= f = some b) : ∃ a, Fits a ∧ f a = some b := by
  obtain ⟨a, ha, hf⟩ := Option.bind_eq_some_iff.1 h
  obtain ⟨j, -, ha⟩ := Option.bind_eq_some_iff.1 ha
  exact ⟨a, F.fits ha, hf⟩

theorem orElse (F : Faithful write read Fits) {a : α} (h : Fits a) (value : α) :
    Json.orElse read value (some (write a)) = some a :=
  F.read_write h

theorem of_orElse (F : Faithful write read Fits) {value : α} (hvalue : Fits value)
    {j : Option Json} {f : α → Option β} {b : β} (h : Json.orElse read value j >>= f = some b) :
    ∃ a, Fits a ∧ f a = some b := by
  obtain ⟨a, ha, hf⟩ := Option.bind_eq_some_iff.1 h
  cases j with
  | none => exact ⟨a, Option.some.inj ha ▸ hvalue, hf⟩
  | some j => exact ⟨a, F.fits ha, hf⟩

/-- A value that may be absent has to be told from `null`. -/
theorem may (F : Faithful write read Fits) (hnull : ∀ a, write a ≠ .null) {x : Option α}
    (h : ∀ a ∈ x, Fits a) : Json.may read (some (.ofOption write x)) = some x := by
  cases x with
  | none => rfl
  | some a =>
      have ha : read (write a) = some a := F.read_write (h a rfl)
      show Json.nullable? read (write a) = some (some a)
      rw [Json.nullable?.eq_def]
      split
      · next heq => exact absurd heq (hnull a)
      · rw [ha, Option.map_some]

theorem of_may (F : Faithful write read Fits) {j : Option Json} {f : Option α → Option β} {b : β}
    (h : Json.may read j >>= f = some b) : ∃ x, (∀ a ∈ x, Fits a) ∧ f x = some b := by
  obtain ⟨x, hx, hf⟩ := Option.bind_eq_some_iff.1 h
  have hread : x = none ∨ ∃ j a, read j = some a ∧ x = some a := by
    cases j with
    | none => exact .inl (Option.some.inj hx).symm
    | some j =>
        simp only [Json.may, Json.nullable?.eq_def] at hx
        split at hx
        · exact .inl (Option.some.inj hx).symm
        · obtain ⟨a, ha, rfl⟩ := Option.map_eq_some_iff.1 hx
          exact .inr ⟨j, a, ha, rfl⟩
  rcases hread with rfl | ⟨j, a, ha, rfl⟩
  · exact ⟨none, nofun, hf⟩
  · exact ⟨some a, fun b hb => Option.some.inj hb ▸ F.fits ha, hf⟩

end Faithful

end PokerHand
