import Mathlib.Data.List.Forall2
import PokerHand.Text.Blank
import PokerHand.Text.Numeral

/-!
# Spellings of words and numerals of amounts

A word may be written with each letter in either case (`Spells`); reading it in one case finds
exactly these spellings. An amount is written by digits after at most one sign (`Denotes`).
-/
namespace PokerHand.Text

variable {c d : Char} {word written : List Char}

/-- `written` is `word` with each letter in either case. -/
def Spells (word written : List Char) : Prop :=
  List.Forall₂ (fun c d => d = c ∨ d = c.toLower ∨ d = c.toUpper) word written

instance (word written : List Char) : Decidable (Spells word written) :=
  inferInstanceAs (Decidable (List.Forall₂ _ word written))

theorem toNat_toLower (c : Char) :
    c.toLower.toNat = if 65 ≤ c.toNat ∧ c.toNat ≤ 90 then c.toNat + 32 else c.toNat := by
  have hupper : c.val ≥ 'A'.val ∧ c.val ≤ 'Z'.val ↔ 65 ≤ c.toNat ∧ c.toNat ≤ 90 := .rfl
  by_cases h : 65 ≤ c.toNat ∧ c.toNat ≤ 90
  · have hlower : c.toLower = _ := dif_pos (hupper.2 h)
    rw [if_pos h, hlower]
    change (c.val + 32).toNat = c.val.toNat + 32
    rw [UInt32.toNat_add]
    change (c.toNat + 32) % 4294967296 = c.toNat + 32
    omega
  · have hlower : c.toLower = c := dif_neg (mt hupper.1 h)
    rw [if_neg h, hlower]

theorem toNat_toUpper (c : Char) :
    c.toUpper.toNat = if 97 ≤ c.toNat ∧ c.toNat ≤ 122 then c.toNat - 32 else c.toNat := by
  have hlower : 'a'.val ≤ c.val ∧ c.val ≤ 'z'.val ↔ 97 ≤ c.toNat ∧ c.toNat ≤ 122 := .rfl
  by_cases h : 97 ≤ c.toNat ∧ c.toNat ≤ 122
  · have hupper : c.toUpper = _ := dif_pos (hlower.2 h)
    rw [if_pos h, hupper]
    change (c.val + 4294967264).toNat = c.val.toNat - 32
    rw [UInt32.toNat_add]
    change (c.toNat + 4294967264) % 4294967296 = c.toNat - 32
    omega
  · have hupper : c.toUpper = c := dif_neg (mt hlower.1 h)
    rw [if_neg h, hupper]

/-- The characters with a lower case `c` are `c` in either case. -/
theorem toLower_eq_iff (hc : c.toLower = c) :
    d.toLower = c ↔ d = c ∨ d = c.toLower ∨ d = c.toUpper := by
  simp only [← Char.toNat_inj, toNat_toLower, toNat_toUpper] at hc ⊢
  grind

/-- The characters with an upper case `c` are `c` in either case. -/
theorem toUpper_eq_iff (hc : c.toUpper = c) :
    d.toUpper = c ↔ d = c ∨ d = c.toLower ∨ d = c.toUpper := by
  simp only [← Char.toNat_inj, toNat_toLower, toNat_toUpper] at hc ⊢
  grind

theorem caseless_of_isDigit (hc : c.isDigit = true) : c.toLower = c ∧ c.toUpper = c := by
  have hrange : 48 ≤ c.toNat ∧ c.toNat ≤ 57 := Char.isDigit_iff_toNat.1 hc
  simp only [← Char.toNat_inj, toNat_toLower, toNat_toUpper]
  rw [if_neg (by omega), if_neg (by omega)]
  exact ⟨rfl, rfl⟩

/-- The texts with a word as their lower case are its spellings. -/
theorem lower_eq_iff (hword : ∀ c ∈ word, c.toLower = c) :
    lower written = word ↔ Spells word written := by
  unfold Spells lower
  induction word generalizing written with
  | nil => simp
  | cons c word ih =>
      obtain ⟨hc, hword⟩ := List.forall_mem_cons.1 hword
      cases written with
      | nil => simp
      | cons d written =>
          rw [List.map_cons, List.cons.injEq, List.forall₂_cons, toLower_eq_iff hc, ih hword]

/-- What holds of the characters of a word in both cases holds of those of its spellings. -/
theorem Spells.forall_mem {P : Char → Prop} (hspells : Spells word written)
    (hword : ∀ c ∈ word, P c ∧ P c.toLower ∧ P c.toUpper) : ∀ d ∈ written, P d := by
  induction hspells with
  | nil => exact nofun
  | cons hd _ ih =>
      obtain ⟨⟨hsame, hlower, hupper⟩, hword⟩ := List.forall_mem_cons.1 hword
      refine List.forall_mem_cons.2 ⟨?_, ih hword⟩
      rcases hd with rfl | rfl | rfl
      · exact hsame
      · exact hlower
      · exact hupper

/-- A word without letters has only one spelling. -/
theorem Spells.eq_of_caseless (hspells : Spells word written)
    (hword : ∀ c ∈ word, c.toLower = c ∧ c.toUpper = c) : written = word := by
  induction hspells with
  | nil => rfl
  | cons hd _ ih =>
      obtain ⟨⟨hlower, hupper⟩, hword⟩ := List.forall_mem_cons.1 hword
      rw [hlower, hupper, or_self, or_self] at hd
      rw [hd, ih hword]

theorem Spells.ne_nil (hspells : Spells word written) (hword : word ≠ []) : written ≠ [] := by
  rintro rfl
  cases hspells
  exact hword rfl

namespace Numeral

variable {cs digits : List Char} {n : Nat} {amount : Int}

/-- One or more digits that stand for `n`. -/
def IsDigits (digits : List Char) (n : Nat) : Prop :=
  digits ≠ [] ∧ (∀ c ∈ digits, c.isDigit = true) ∧ Nat.ofDigitChars 10 digits 0 = n

/-- Digits after at most one sign stand for an amount that sixty-four signed bits hold. -/
inductive Denotes : List Char → Int → Prop where
  | plain {digits : List Char} {n : Nat} (hdigits : IsDigits digits n)
      (hfits : isAmount n = true) : Denotes digits n
  | plus {digits : List Char} {n : Nat} (hdigits : IsDigits digits n)
      (hfits : isAmount n = true) : Denotes ('+' :: digits) n
  | minus {digits : List Char} {n : Nat} (hdigits : IsDigits digits n)
      (hfits : isAmount (-n) = true) : Denotes ('-' :: digits) (-n)

theorem nat?_eq_some_iff : nat? cs = some n ↔ IsDigits cs n := by
  simp [nat?, IsDigits, and_assoc]

theorem int?_minus : int? ('-' :: digits) = some amount ↔ ∃ n, IsDigits digits n ∧ -n = amount := by
  simp [int?, Option.bind_eq_some_iff, nat?_eq_some_iff]

theorem int?_plus : int? ('+' :: digits) = some amount ↔ ∃ n, IsDigits digits n ∧ n = amount := by
  simp [int?, Option.bind_eq_some_iff, nat?_eq_some_iff]

theorem int?_plain (hminus : cs.head? ≠ some '-') (hplus : cs.head? ≠ some '+') :
    int? cs = some amount ↔ ∃ n, IsDigits cs n ∧ n = amount := by
  unfold int?
  split <;> simp_all [Option.bind_eq_some_iff, nat?_eq_some_iff]

/-- Reading an amount accepts the numerals of amounts and nothing else. -/
theorem amount?_eq_some_iff : amount? cs = some amount ↔ Denotes cs amount := by
  rw [amount?, Option.filter_eq_some_iff]
  constructor
  · rintro ⟨hint, hfits⟩
    by_cases hminus : cs.head? = some '-'
    · obtain ⟨digits, rfl⟩ := List.head?_eq_some_iff.1 hminus
      obtain ⟨n, hdigits, rfl⟩ := int?_minus.1 hint
      exact .minus hdigits hfits
    by_cases hplus : cs.head? = some '+'
    · obtain ⟨digits, rfl⟩ := List.head?_eq_some_iff.1 hplus
      obtain ⟨n, hdigits, rfl⟩ := int?_plus.1 hint
      exact .plus hdigits hfits
    obtain ⟨n, hdigits, rfl⟩ := (int?_plain hminus hplus).1 hint
    exact .plain hdigits hfits
  · rintro (⟨hdigits, hfits⟩ | ⟨hdigits, hfits⟩ | ⟨hdigits, hfits⟩)
    · have hsign : ∀ sign : Char, sign.isDigit = false → cs.head? ≠ some sign := by
        intro sign hsign hhead
        have hdigit := hdigits.2.1 sign (List.mem_of_mem_head? hhead)
        simp [hsign] at hdigit
      exact ⟨(int?_plain (hsign '-' rfl) (hsign '+' rfl)).2 ⟨_, hdigits, rfl⟩, hfits⟩
    · exact ⟨int?_plus.2 ⟨_, hdigits, rfl⟩, hfits⟩
    · exact ⟨int?_minus.2 ⟨_, hdigits, rfl⟩, hfits⟩

/-- The written form of a number is its digits, after a minus sign if it is negative. -/
theorem exists_digits (amount : Int) : ∃ n, IsDigits (Nat.toDigits 10 n) n ∧
    ((toString amount).toList = Nat.toDigits 10 n ∧ amount = n ∨
      (toString amount).toList = '-' :: Nat.toDigits 10 n ∧ amount = -n) := by
  have hdigits : ∀ n, IsDigits (Nat.toDigits 10 n) n := fun n =>
    ⟨Nat.toDigits_ne_nil, fun _ hc => Nat.isDigit_of_mem_toDigits (by decide) (by decide) hc,
      Nat.ofDigitChars_toDigits (by decide) (by decide)⟩
  cases amount with
  | ofNat n =>
      refine ⟨n, hdigits n, .inl ⟨?_, rfl⟩⟩
      change (Nat.repr n).toList = _
      simp
  | negSucc n =>
      refine ⟨n + 1, hdigits (n + 1), .inr ⟨?_, rfl⟩⟩
      change ("-" ++ Nat.repr (n + 1)).toList = _
      simp

/-- The written form of an amount is one of its numerals. -/
theorem denotes_toString (hfits : isAmount amount = true) :
    Denotes (toString amount).toList amount := by
  obtain ⟨n, hdigits, ⟨htext, rfl⟩ | ⟨htext, rfl⟩⟩ := exists_digits amount
  · rw [htext]
    exact .plain hdigits hfits
  · rw [htext]
    exact .minus hdigits hfits

/-- There is no letter in the written form of a number. -/
theorem caseless_toString (amount : Int) :
    ∀ c ∈ (toString amount).toList, c.toLower = c ∧ c.toUpper = c := by
  obtain ⟨n, hdigits, ⟨htext, -⟩ | ⟨htext, -⟩⟩ := exists_digits amount
  · rw [htext]
    exact fun c hc => caseless_of_isDigit (hdigits.2.1 c hc)
  · rw [htext]
    exact List.forall_mem_cons.2 ⟨⟨rfl, rfl⟩, fun c hc => caseless_of_isDigit (hdigits.2.1 c hc)⟩

theorem Denotes.ne_nil (h : Denotes cs amount) : cs ≠ [] := by
  cases h with
  | plain hdigits => exact hdigits.1
  | plus | minus => exact List.cons_ne_nil _ _

/-- The characters of a numeral are digits and signs. -/
theorem Denotes.forall_mem {P : Char → Prop} (h : Denotes cs amount)
    (hdigit : ∀ c : Char, c.isDigit = true → P c) (hplus : P '+') (hminus : P '-') :
    ∀ c ∈ cs, P c := by
  cases h with
  | plain hdigits => exact fun c hc => hdigit c (hdigits.2.1 c hc)
  | plus hdigits =>
      exact List.forall_mem_cons.2 ⟨hplus, fun c hc => hdigit c (hdigits.2.1 c hc)⟩
  | minus hdigits =>
      exact List.forall_mem_cons.2 ⟨hminus, fun c hc => hdigit c (hdigits.2.1 c hc)⟩

end Numeral

end PokerHand.Text
