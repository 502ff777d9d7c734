import PokerHand.Proofs.SeatMap
import PokerHand.Proofs.Snapshot.Faithful
import PokerHand.Snapshot.Gate

/-!
# Tasks survive a snapshot

A seat is read back from its decimal digits: they are digits only, they stand for the seat, and
only zero begins with a zero. The written entries of a map ascend, so they are put back in their
places; what is read may be in any order, and a map has no more than what is read.
-/
namespace PokerHand

open Text.Numeral

namespace SeatMap

/-- Only the digits of zero begin with a zero. -/
theorem eq_zero_of_head?_toDigits {n : Nat} (h : (Nat.toDigits 10 n).head? = some '0') : n = 0 := by
  induction n using Nat.strongRecOn with
  | ind n ih =>
      rw [Nat.toDigits_eq_if (by decide)] at h
      split at h
      · next hlt =>
        have hdigit : ∀ d < 10, d.digitChar = '0' → d = 0 := by decide
        exact hdigit n hlt (Option.some.inj h)
      · next hge =>
        have hsome : (Nat.toDigits 10 (n / 10)).head?.isSome :=
          List.isSome_head?.2 Nat.toDigits_ne_nil
        rw [List.head?_append, Option.or_of_isSome hsome] at h
        have := ih (n / 10) (by omega) h
        omega

theorem key_faithful : Faithful key ofKey? fun seat => seat < countBound where
  read_write := by
    intro seat h
    have hdigits : (key seat).toList = Nat.toDigits 10 seat := by
      simp [key]
    have hzero : ¬((Nat.toDigits 10 seat).head? = some '0' ∧ Nat.toDigits 10 seat ≠ ['0']) := by
      rintro ⟨hhead, hne⟩
      obtain rfl := eq_zero_of_head?_toDigits hhead
      exact hne rfl
    have hnat : nat? (Nat.toDigits 10 seat) = some seat := by
      have hall : (Nat.toDigits 10 seat).all Char.isDigit = true :=
        List.all_eq_true.2 fun c hc => Nat.isDigit_of_mem_toDigits (by decide) (by decide) hc
      have hvalue : Nat.ofDigitChars 10 (Nat.toDigits 10 seat) 0 = seat :=
        Nat.ofDigitChars_toDigits (by decide) (by decide)
      simp [nat?, hall, hvalue, Nat.toDigits_ne_nil]
    simp [ofKey?, hdigits, hzero, hnat, h]
  fits := by
    intro k seat h
    simp only [ofKey?] at h
    split at h
    · cases h
    · obtain ⟨n, -, h⟩ := Option.bind_eq_some_iff.1 h
      split at h
      · next hn => exact Option.some.inj h ▸ hn
      · cases h

variable {α : Type}

theorem eq_of_entries {m n : SeatMap α} (h : m.entries = n.entries) : m = n := by
  cases m
  cases n
  simpa using h

theorem ofList_entries (m : SeatMap α) : ofList m.entries = m :=
  eq_of_entries (entries_ofList (List.pairwise_map.2 m.ascending))

theorem mem_of_mem_ofList {xs : List (Nat × α)} {e : Nat × α} (h : e ∈ (ofList xs).entries) :
    e ∈ xs := by
  have hfold : ∀ (ys : List (Nat × α)) (m : SeatMap α),
      e ∈ (ys.foldl (fun m e => m.insert e.1 e.2) m).entries → e ∈ m.entries ∨ e ∈ ys := by
    intro ys
    induction ys with
    | nil => exact fun m hm => .inl hm
    | cons y rest ih =>
        intro m hm
        rcases ih (m.insert y.1 y.2) hm with hm | hrest
        · rcases mem_put hm with rfl | hm
          · exact .inr List.mem_cons_self
          · exact .inl hm
        · exact .inr (List.mem_cons_of_mem _ hrest)
  simpa [empty] using hfold xs empty h

/-- Every seat is one that an unsigned word holds, and every value fits. -/
def Fits (FitsValue : α → Prop) (m : SeatMap α) : Prop :=
  ∀ e ∈ m.entries, e.1 < countBound ∧ FitsValue e.2

/-- An entry is written as a field. -/
theorem entry_faithful {write : α → Json} {read : Json → Option α} {FitsValue : α → Prop}
    (F : Faithful write read FitsValue) :
    Faithful (fun e : Nat × α => (key e.1, write e.2))
      (fun f : String × Json => do
        let seat ← ofKey? f.1
        let value ← read f.2
        return (seat, value))
      fun e => e.1 < countBound ∧ FitsValue e.2 where
  read_write := by
    intro e h
    simp [key_faithful.read_write h.1, F.read_write h.2]
  fits := by
    intro f e h
    obtain ⟨seat, hseat, h⟩ := Option.bind_eq_some_iff.1 h
    obtain ⟨value, hvalue, h⟩ := Option.bind_eq_some_iff.1 h
    obtain rfl := Option.some.inj h
    exact ⟨key_faithful.fits hseat, F.fits hvalue⟩

theorem faithful {write : α → Json} {read : Json → Option α} {FitsValue : α → Prop}
    (F : Faithful write read FitsValue) :
    Faithful (SeatMap.toJson write) (SeatMap.ofJson? read) (Fits FitsValue) where
  read_write := by
    intro m h
    have hentries := (entry_faithful F).mapM.read_write h
    rw [toJson, ofJson?, hentries]
    exact congrArg some (ofList_entries m)
  fits := by
    intro j m h
    cases j <;> simp only [ofJson?, reduceCtorEq] at h
    obtain ⟨entries, hentries, h⟩ := Option.bind_eq_some_iff.1 h
    obtain rfl := Option.some.inj h
    exact fun e he => (entry_faithful F).mapM.fits hentries e (mem_of_mem_ofList he)

end SeatMap

theorem Due.faithful : Faithful Due.toJson Due.ofJson? fun _ => True :=
  Json.faithful_name.comp (.ofFind (fun d => by cases d <;> decide) (by decide))
    fun _ _ => trivial

def Progress.Fits : Progress → Prop
  | ready flags => flags.Fits fun _ => True
  | pay paid => paid.Fits fun chips => isAmount chips

theorem Progress.faithful : Faithful Progress.toJson Progress.ofJson? Progress.Fits where
  read_write := by
    rintro (flags | paid) h
    · exact congrArg (Option.map ready) ((SeatMap.faithful Json.faithful_bool).read_write h)
    · exact congrArg (Option.map pay) ((SeatMap.faithful Json.faithful_amount).read_write h)
  fits := by
    intro j p h
    unfold Progress.ofJson? at h
    split at h
    · obtain ⟨flags, hflags, rfl⟩ := Option.map_eq_some_iff.1 h
      exact (SeatMap.faithful Json.faithful_bool).fits hflags
    · obtain ⟨paid, hpaid, rfl⟩ := Option.map_eq_some_iff.1 h
      exact (SeatMap.faithful Json.faithful_amount).fits hpaid
    · cases h

structure Task.Fits (t : Task) : Prop where
  progress : t.progress.Fits
  owed : t.owed.Fits fun chips => isAmount chips

theorem Task.faithful : Faithful Task.toJson Task.ofJson? Task.Fits where
  read_write := by
    intro t h
    have hcols : t.toJson.columns ["name", "payload", "owed", "completed"] 0 =
        some [some t.due.toJson, some t.progress.toJson, some (t.owed.toJson .int),
          some (.bool t.completed)] := rfl
    have howed := (SeatMap.faithful Json.faithful_amount).orElse h.owed .empty
    rw [Task.ofJson?, Json.columns_bind hcols]
    simp [Due.faithful.need, Progress.faithful.need h.progress, howed, Json.faithful_bool.need]
  fits := by
    intro j t h
    obtain ⟨cols, -, h⟩ := Option.bind_eq_some_iff.1 h
    split at h
    · have hempty : (SeatMap.empty : SeatMap Int).Fits fun chips => isAmount chips := nofun
      obtain ⟨due, -, h⟩ := Due.faithful.of_need h
      obtain ⟨progress, hprogress, h⟩ := Progress.faithful.of_need h
      obtain ⟨owed, howed, h⟩ := (SeatMap.faithful Json.faithful_amount).of_orElse hempty h
      obtain ⟨completed, -, h⟩ := Json.faithful_bool.of_need h
      obtain rfl := Option.some.inj h
      exact ⟨hprogress, howed⟩
    · cases h

end PokerHand
