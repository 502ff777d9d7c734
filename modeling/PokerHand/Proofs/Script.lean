import PokerHand.Command.Run
import PokerHand.Proofs.Outcome
import PokerHand.Proofs.Text.Pieces
import PokerHand.Proofs.Text.Spelling

/-!
# Scripts are read exactly

What a script may look like is told without the reading of it: a line holds nothing or an action in
one of its wordings (`Script.Reads`), and the wordings include the written form of the action in any
case, with any blanks around and within it and a comment behind it (`Script.Written`). A script is
read iff all its lines are of this kind, and the refusal names the first line that is not.
-/
namespace PokerHand

open Text

namespace ScriptAction

/-- The verbs of an action. -/
def verbs : ScriptAction → List String
  | check => ["check"]
  | call => ["call"]
  | fold => ["fold"]
  | allin => ["allin", "all-in"]
  | bet _ => ["bet"]
  | raise _ => ["raise"]

/-- The amount that an action names. -/
def amount? : ScriptAction → Option Int
  | bet chips => some chips
  | raise level => some level
  | _ => none

/-- A verb of the action in either case, and behind it, if the action names an amount, blanks and a
numeral of the amount. -/
def Worded (a : ScriptAction) (body : List Char) : Prop :=
  ∃ verb ∈ a.verbs, ∃ word, Spells verb.toList word ∧
    match a.amount? with
    | none => body = word
    | some n => ∃ gap numeral, gap ≠ [] ∧ (∀ c ∈ gap, isBlank c = true) ∧
        Numeral.Denotes numeral n ∧ body = word ++ gap ++ numeral

/-- The written form of the action in either case, with any blanks in the place of the one between
verb and amount. -/
def Shown (a : ScriptAction) (body : List Char) : Prop :=
  Spells a.text.toList body ∨
    ∃ word gap numeral, Spells a.text.toList (word ++ ' ' :: numeral) ∧ gap ≠ [] ∧
      (∀ c ∈ gap, isBlank c = true) ∧ body = word ++ gap ++ numeral

variable {a : ScriptAction} {content verb : List Char} {amount : Option (List Char)}

theorem readAmount_eq_ok_iff {text : List Char} {n : Int} :
    readAmount text = .ok n ↔ Numeral.Denotes text n := by
  rw [← Numeral.amount?_eq_some_iff, readAmount]
  split <;> simp_all

/-- A verb and an amount make the actions that have this verb and name this amount. -/
theorem ofVerb_eq_ok_iff : ofVerb content verb amount = .ok a ↔
    (∃ v ∈ a.verbs, verb = v.toList) ∧
      match a.amount? with
      | none => amount = none
      | some n => ∃ numeral, amount = some numeral ∧ Numeral.Denotes numeral n := by
  constructor
  · intro h
    have hverb : ∀ v, String.ofList verb = v → v ∈ a.verbs → ∃ v ∈ a.verbs, verb = v.toList :=
      fun v hv hmem => ⟨v, hmem, by rw [← hv, String.toList_ofList]⟩
    unfold ofVerb at h
    split at h
    case h_1 | h_2 | h_3 | h_4 | h_5 =>
      obtain rfl := Except.ok.inj h
      exact ⟨hverb _ ‹_› (by simp [verbs]), rfl⟩
    case h_6 | h_7 =>
      obtain ⟨n, hread, rfl⟩ := Outcome.map_eq_ok_iff.1 h
      exact ⟨hverb _ ‹_› (by simp [verbs]), _, rfl, readAmount_eq_ok_iff.1 hread⟩
    case h_8 | h_9 | h_10 => cases h
  · rintro ⟨⟨v, hv, rfl⟩, hamount⟩
    cases a with
    | check | call | fold =>
        obtain rfl := List.mem_singleton.1 hv
        obtain rfl : amount = none := hamount
        simp [ofVerb]
    | allin =>
        obtain rfl : amount = none := hamount
        rcases List.mem_pair.1 hv with rfl | rfl <;> simp [ofVerb]
    | bet n | raise n =>
        obtain rfl := List.mem_singleton.1 hv
        obtain ⟨numeral, rfl, hnumeral⟩ := hamount
        simp [ofVerb, readAmount_eq_ok_iff.2 hnumeral, Except.map]

/-- Neither a blank nor the beginning of a comment. -/
def IsInk (c : Char) : Prop := isBlank c = false ∧ c ≠ '#'

instance (c : Char) : Decidable (IsInk c) := inferInstanceAs (Decidable (_ ∧ _))

theorem ne_of_isBlank {c : Char} (hc : isBlank c = true) : c ≠ '#' := by
  rintro rfl
  revert hc
  decide

theorem isInk_of_isDigit {c : Char} (hc : c.isDigit = true) : IsInk c := by
  have hrange : 48 ≤ c.toNat ∧ c.toNat ≤ 57 := Char.isDigit_iff_toNat.1 hc
  refine ⟨Bool.eq_false_iff.2 fun hblank => ?_, ?_⟩
  · simp only [isBlank, Bool.or_eq_true, Bool.and_eq_true, decide_eq_true_eq, beq_iff_eq] at hblank
    omega
  · rintro rfl
    revert hc
    decide

/-- The verbs are words in lower case. -/
theorem verb_properties (a : ScriptAction) : ∀ v ∈ a.verbs, v.toList ≠ [] ∧
    ∀ c ∈ v.toList, c.toLower = c ∧ IsInk c ∧ IsInk c.toLower ∧ IsInk c.toUpper := by
  -- the characters of a verb are gone through as a list, since all characters there are would be
  -- too many to decide anything about
  have hall : ∀ v ∈ ["check", "call", "fold", "allin", "all-in", "bet", "raise"], v.toList ≠ [] ∧
      v.toList.all fun c =>
        c.toLower = c ∧ IsInk c ∧ IsInk c.toLower ∧ IsInk c.toUpper := by decide
  have hverbs : a.verbs ⊆ ["check", "call", "fold", "allin", "all-in", "bet", "raise"] := by
    cases a <;> simp [verbs]
  intro v hv
  obtain ⟨hne, hchars⟩ := hall v (hverbs hv)
  exact ⟨hne, fun c hc => of_decide_eq_true (List.all_eq_true.1 hchars c hc)⟩

theorem verb_spelling {v : String} {word : List Char} (hv : v ∈ a.verbs)
    (hspells : Spells v.toList word) : IsWord word ∧ '#' ∉ word := by
  obtain ⟨hne, hchars⟩ := verb_properties a v hv
  have hink := hspells.forall_mem fun c hc => (hchars c hc).2
  exact ⟨⟨hspells.ne_nil hne, fun c hc => (hink c hc).1⟩, fun hc => (hink _ hc).2 rfl⟩

theorem numeral_word {numeral : List Char} {n : Int} (hnumeral : Numeral.Denotes numeral n) :
    IsWord numeral ∧ '#' ∉ numeral := by
  have hink := hnumeral.forall_mem (P := IsInk) (fun _ => isInk_of_isDigit) (by decide) (by decide)
  exact ⟨⟨hnumeral.ne_nil, fun c hc => (hink c hc).1⟩, fun hc => (hink _ hc).2 rfl⟩

theorem lower_verb_iff {v : String} {word : List Char} (hv : v ∈ a.verbs) :
    lower word = v.toList ↔ Spells v.toList word :=
  lower_eq_iff fun c hc => ((verb_properties a v hv).2 c hc).1

/-- A worded action neither begins nor ends with a blank and has no comment in it. -/
theorem Worded.plain {body : List Char} (hworded : a.Worded body) :
    IsTrimmed body ∧ '#' ∉ body := by
  obtain ⟨v, hv, word, hspells, hbody⟩ := hworded
  obtain ⟨hword, hcomment⟩ := verb_spelling hv hspells
  split at hbody
  · rw [hbody]
    exact ⟨isTrimmed_of_forall hword.2, hcomment⟩
  · obtain ⟨gap, numeral, -, hgap, hnumeral, rfl⟩ := hbody
    obtain ⟨hnumeral, hcomment'⟩ := numeral_word hnumeral
    refine ⟨isTrimmed_between hword hnumeral gap, ?_⟩
    have hblank : '#' ∉ gap := fun hc => ne_of_isBlank (hgap _ hc) rfl
    simp [hcomment, hblank, hcomment']

theorem Worded.ne_nil {body : List Char} (hworded : a.Worded body) : body ≠ [] := by
  obtain ⟨v, hv, word, hspells, hbody⟩ := hworded
  have hword := (verb_spelling hv hspells).1
  rintro rfl
  split at hbody
  · exact hword.1 hbody.symm
  · obtain ⟨gap, numeral, -, -, -, hnil⟩ := hbody
    simp [hword.1] at hnil

/-- A text without blanks at its ends is read as an action iff it is one of its wordings. -/
theorem read_eq_ok_iff (htrim : IsTrimmed content) : read content = .ok a ↔ a.Worded content := by
  constructor
  · intro h
    unfold read at h
    split at h
    · obtain ⟨⟨v, hv, hnil⟩, -⟩ := ofVerb_eq_ok_iff.1 h
      exact absurd hnil.symm (verb_properties a v hv).1
    · next word hwords =>
      obtain ⟨⟨v, hv, hlower⟩, hamount⟩ := ofVerb_eq_ok_iff.1 h
      obtain ⟨-, rfl⟩ := (words_eq_singleton_iff htrim).1 hwords
      refine ⟨v, hv, _, (lower_verb_iff hv).1 hlower, ?_⟩
      split at hamount
      · rfl
      · obtain ⟨_, hnone, -⟩ := hamount
        cases hnone
    · next word numeral hwords =>
      obtain ⟨⟨v, hv, hlower⟩, hamount⟩ := ofVerb_eq_ok_iff.1 h
      obtain ⟨-, -, gap, hgap, hblank, rfl⟩ := (words_eq_pair_iff htrim).1 hwords
      refine ⟨v, hv, _, (lower_verb_iff hv).1 hlower, ?_⟩
      split at hamount
      · cases hamount
      · obtain ⟨_, hsome, hnumeral⟩ := hamount
        obtain rfl := Option.some.inj hsome
        exact ⟨gap, numeral, hgap, hblank, hnumeral, rfl⟩
    · cases h
  · rintro ⟨v, hv, word, hspells, hbody⟩
    have hword := (verb_spelling hv hspells).1
    have hlower := (lower_verb_iff hv).2 hspells
    split at hbody
    · next hnone =>
      have hwords := (words_eq_singleton_iff htrim).2 ⟨hword, hbody⟩
      rw [read, hwords]
      exact ofVerb_eq_ok_iff.2 ⟨⟨v, hv, hlower⟩, by rw [hnone]⟩
    · next n hsome =>
      obtain ⟨gap, numeral, hgap, hblank, hnumeral, hbody⟩ := hbody
      have hwords := (words_eq_pair_iff htrim).2
        ⟨hword, (numeral_word hnumeral).1, gap, hgap, hblank, hbody⟩
      rw [read, hwords]
      exact ofVerb_eq_ok_iff.2 ⟨⟨v, hv, hlower⟩, by rw [hsome]; exact ⟨_, rfl, hnumeral⟩⟩

/-- The written form is a verb of the action and, behind a space, its amount. -/
theorem exists_text (a : ScriptAction) : ∃ v ∈ a.verbs,
    a.text.toList = match a.amount? with
      | none => v.toList
      | some n => v.toList ++ ' ' :: (toString n).toList := by
  cases a with
  | check | call | fold | allin => exact ⟨_, List.mem_cons_self, rfl⟩
  | bet n | raise n =>
      refine ⟨_, List.mem_cons_self, ?_⟩
      simp only [text, amount?, String.toList_append]
      rfl

/-- A spelling of the written form is one of the verb with a space and the amount behind it. -/
theorem spells_text {v : String} {n : Int} {written : List Char} (hv : v ∈ a.verbs)
    (hspells : Spells (v.toList ++ ' ' :: (toString n).toList) written) :
    ∃ word, Spells v.toList word ∧ written = word ++ ' ' :: (toString n).toList := by
  have hlower : ∀ c ∈ v.toList ++ ' ' :: (toString n).toList, c.toLower = c := by
    simp only [List.mem_append, List.mem_cons]
    rintro c (hc | rfl | hc)
    · exact ((verb_properties a v hv).2 c hc).1
    · rfl
    · exact (Numeral.caseless_toString n c hc).1
  -- a spelling is what has the written form as its lower case, and lowering goes by parts
  obtain ⟨word, behind, rfl, hword, hbehind⟩ :=
    List.map_eq_append_iff.1 ((lower_eq_iff hlower).2 hspells)
  obtain ⟨space, numeral, rfl, hspace, hnumeral⟩ := List.map_eq_cons_iff.1 hbehind
  obtain rfl : space = ' ' := by simpa using (toLower_eq_iff rfl).1 hspace
  have hamount := (lower_eq_iff fun c hc => (Numeral.caseless_toString n c hc).1).1 hnumeral
  rw [hamount.eq_of_caseless (Numeral.caseless_toString n)]
  exact ⟨word, (lower_verb_iff hv).1 hword, rfl⟩

/-- The written form of an action is one of its wordings, in any case and with any blanks. -/
theorem Shown.worded {body : List Char} (hshown : a.Shown body)
    (hfits : ∀ n ∈ a.amount?, Numeral.isAmount n = true) : a.Worded body := by
  obtain ⟨v, hv, htext⟩ := exists_text a
  have hblank : isBlank ' ' = true := rfl
  rw [Shown, htext] at hshown
  cases hamount : a.amount? with
  | none =>
      rw [hamount] at hshown
      rcases hshown with hspells | ⟨word, gap, numeral, hspells, -⟩
      · exact ⟨v, hv, body, hspells, by rw [hamount]⟩
      · have hspace := (verb_spelling hv hspells).1.2 ' ' (by simp)
        exact absurd hblank (by simp [hspace])
  | some n =>
      rw [hamount] at hshown
      have hnumeral := Numeral.denotes_toString (hfits n hamount)
      have hworded : ∀ {word gap : List Char}, Spells v.toList word → gap ≠ [] →
          (∀ c ∈ gap, isBlank c = true) → a.Worded (word ++ gap ++ (toString n).toList) :=
        fun hspells hgap hgaps =>
          ⟨v, hv, _, hspells, by rw [hamount]; exact ⟨_, _, hgap, hgaps, hnumeral, rfl⟩⟩
      rcases hshown with hspells | ⟨word, gap, numeral, hspells, hgap, hgaps, rfl⟩
      · obtain ⟨word, hword, rfl⟩ := spells_text hv hspells
        simpa using hworded hword (List.cons_ne_nil ' ' []) (by simp [hblank])
      · obtain ⟨word', hword, heq⟩ := spells_text hv hspells
        have hword' : ' ' ∉ word' := fun hmem => by
          simpa [hblank] using (verb_spelling hv hword).1.2 ' ' hmem
        have hnumeral' : ' ' ∉ (toString n).toList := fun hmem => by
          simpa [hblank] using (numeral_word hnumeral).1.2 ' ' hmem
        obtain ⟨rfl, -, rfl⟩ := (List.append_cons_inj_of_notMem hword' hnumeral').1 heq.symm
        exact hworded hword hgap hgaps

end ScriptAction

namespace Script

variable {row : Option ScriptAction} {rows : List (Option ScriptAction)} {line : List Char}
  {lines : List (List Char)} {actions : List ScriptLine} {n : Nat}

/-- A line holds nothing or an action once its comment and the blanks at its ends are taken off. -/
def Reads : Option ScriptAction → List Char → Prop
  | none, line => content line = []
  | some a, line => a.Worded (content line)

/-- A line is written with nothing or an action in it, any blanks around, and perhaps a comment. -/
def Written (row : Option ScriptAction) (line : List Char) : Prop :=
  ∃ before body after comment, (∀ c ∈ before, isBlank c = true) ∧
    (match row with
      | none => body = []
      | some a => a.Shown body) ∧
    (∀ c ∈ after, isBlank c = true) ∧ (∀ c ∈ comment.head?, c = '#') ∧
    line = before ++ body ++ after ++ comment

/-- The actions of the lines with their numbers, which begin with `n`. -/
def numbered (n : Nat) (rows : List (Option ScriptAction)) : List ScriptLine :=
  (rows.zipIdx n).filterMap fun (row, number) => row.map fun a => ⟨number, a⟩

theorem numbered_none : numbered n (none :: rows) = numbered (n + 1) rows := by
  simp [numbered]

theorem numbered_some {a : ScriptAction} :
    numbered n (some a :: rows) = ⟨n, a⟩ :: numbered (n + 1) rows := by
  simp [numbered]

theorem isTrimmed_content (line : List Char) : IsTrimmed (content line) := isTrimmed_trim _

/-- What stands before a comment and between blanks is the content of a line. -/
theorem content_eq {before body after comment : List Char}
    (hbefore : ∀ c ∈ before, isBlank c = true) (hbody : IsTrimmed body) (hplain : '#' ∉ body)
    (hafter : ∀ c ∈ after, isBlank c = true) (hcomment : ∀ c ∈ comment.head?, c = '#') :
    content (before ++ body ++ after ++ comment) = body := by
  have hkept : ∀ c ∈ before ++ body ++ after, (c != '#') = true := by
    simp only [List.mem_append, or_assoc, bne_iff_ne]
    rintro c (hc | hc | hc)
    · exact ScriptAction.ne_of_isBlank (hbefore c hc)
    · exact fun h => hplain (h ▸ hc)
    · exact ScriptAction.ne_of_isBlank (hafter c hc)
  have hcut : comment.takeWhile (fun c => c != '#') = [] := by
    cases comment with
    | nil => rfl
    | cons c comment => simp [hcomment c rfl]
  rw [content, List.takeWhile_append_of_pos hkept, hcut, List.append_nil]
  exact trim_append hbefore hbody hafter

theorem Written.reads (hwritten : Written row line)
    (hfits : ∀ a ∈ row, ∀ n ∈ a.amount?, Numeral.isAmount n = true) : Reads row line := by
  obtain ⟨before, body, after, comment, hbefore, hbody, hafter, hcomment, rfl⟩ := hwritten
  cases row with
  | none =>
      obtain rfl : body = [] := hbody
      exact content_eq hbefore (isTrimmed_of_forall nofun) List.not_mem_nil hafter hcomment
  | some a =>
      have hworded : a.Worded body := hbody.worded (hfits a rfl)
      rw [Reads, content_eq hbefore hworded.plain.1 hworded.plain.2 hafter hcomment]
      exact hworded

theorem reads_of_written (hwritten : List.Forall₂ Written rows lines)
    (hfits : ∀ a, some a ∈ rows → ∀ n ∈ a.amount?, Numeral.isAmount n = true) :
    List.Forall₂ Reads rows lines := by
  induction hwritten with
  | nil => exact .nil
  | cons hline _ ih =>
      refine .cons (hline.reads fun a ha => hfits a ?_) (ih fun a ha => hfits a ?_)
      · exact List.mem_cons.2 (.inl (Option.mem_def.1 ha).symm)
      · exact List.mem_cons_of_mem _ ha

/-- A line is its content with blanks around and perhaps a comment behind. -/
theorem exists_content (line : List Char) :
    ∃ before after comment, (∀ c ∈ before, isBlank c = true) ∧ '#' ∉ content line ∧
      (∀ c ∈ after, isBlank c = true) ∧ (∀ c ∈ comment.head?, c = '#') ∧
      line = before ++ content line ++ after ++ comment := by
  obtain ⟨before, after, hbefore, hafter, hkept⟩ := exists_trim (line.takeWhile fun c => c != '#')
  refine ⟨before, after, line.dropWhile (fun c => c != '#'), hbefore, fun hmem => ?_, hafter,
    fun c hc => ?_, ?_⟩
  · have htaken : '#' ∈ line.takeWhile fun c => c != '#' := by
      rw [hkept]
      exact List.mem_append_left _ (List.mem_append_right _ hmem)
    simpa using List.mem_takeWhile_imp htaken
  · have hhead := List.head?_dropWhile_not (fun c => c != '#') line
    rw [Option.mem_def.1 hc] at hhead
    simpa using hhead
  · rw [content, ← hkept, List.takeWhile_append_dropWhile]

/-- A carriage return at the end of a line is not seen. -/
theorem content_return (line : List Char) : content (line ++ ['\r']) = content line := by
  obtain ⟨before, after, comment, hbefore, hplain, hafter, hcomment, hline⟩ := exists_content line
  have htrim := isTrimmed_content line
  -- the return is one more blank behind the content, or the end of the comment
  cases comment with
  | nil =>
      have hreturn : ∀ c ∈ after ++ ['\r'], isBlank c = true := by
        simp only [List.mem_append, List.mem_singleton]
        rintro c (hc | rfl)
        · exact hafter c hc
        · rfl
      have hcontent := content_eq hbefore htrim hplain hreturn hcomment
      rw [← hcontent]
      conv_lhs => rw [hline]
      simp only [List.append_assoc, List.append_nil]
  | cons c comment =>
      have hlonger : ∀ d ∈ (c :: comment ++ ['\r']).head?, d = '#' := hcomment
      have hcontent := content_eq hbefore htrim hplain hafter hlonger
      rw [← hcontent]
      conv_lhs => rw [hline]
      simp only [List.append_assoc]

theorem readLines_congr {lines' : List (List Char)} (h : lines.map content = lines'.map content) :
    readLines n lines = readLines n lines' := by
  induction lines generalizing lines' n with
  | nil =>
      rw [List.map_nil, eq_comm, List.map_eq_nil_iff] at h
      rw [h]
  | cons line lines ih =>
      obtain ⟨line', lines', rfl, hline, hlines⟩ := List.map_eq_cons_iff.1 h.symm
      simp only [readLines, hline, ih hlines.symm]

/-- A line that holds nothing is skipped. -/
theorem readLines_none (hline : Reads none line) :
    readLines n (line :: lines) = readLines (n + 1) lines := by
  have hcontent : content line = [] := hline
  simp [readLines, hcontent]

/-- The action of a line goes before those of the next lines. -/
theorem readLines_some {a : ScriptAction} (hline : Reads (some a) line) :
    readLines n (line :: lines) = (readLines (n + 1) lines).map (⟨n, a⟩ :: ·) := by
  have hworded : a.Worded (content line) := hline
  have hread := (ScriptAction.read_eq_ok_iff (isTrimmed_content line)).2 hworded
  simp [readLines, hworded.ne_nil, hread]

/-- A line that holds neither nothing nor an action is refused. -/
theorem readLines_refused (hline : ¬∃ row, Reads row line) : ∃ cause,
    ScriptAction.read (content line) = .error cause ∧
      ∀ n, readLines n (line :: lines) = .error (n, cause) := by
  have hne : content line ≠ [] := fun hcontent => hline ⟨none, hcontent⟩
  cases hread : ScriptAction.read (content line) with
  | ok a =>
      exact absurd ⟨some a, (ScriptAction.read_eq_ok_iff (isTrimmed_content line)).1 hread⟩ hline
  | error cause => exact ⟨cause, rfl, fun n => by simp [readLines, hne, hread]⟩

theorem readLines_of_reads (hreads : List.Forall₂ Reads rows lines) :
    readLines n lines = .ok (numbered n rows) := by
  induction hreads generalizing n with
  | nil => rfl
  | @cons row line rows lines hline _ ih =>
      cases row with
      | none => rw [readLines_none hline, ih, numbered_none]
      | some a => rw [readLines_some hline, ih, numbered_some]; rfl

/-- Lines that can be read only put off the refusal of one that cannot. -/
theorem readLines_append_refused {before after : List (List Char)}
    (hbefore : ∀ l ∈ before, ∃ row, Reads row l) (hline : ¬∃ row, Reads row line) : ∃ cause,
    ScriptAction.read (content line) = .error cause ∧
      ∀ n, readLines n (before ++ line :: after) = .error (n + before.length, cause) := by
  induction before with
  | nil => exact readLines_refused hline
  | cons first before ih =>
      obtain ⟨⟨row, hfirst⟩, hbefore⟩ := List.forall_mem_cons.1 hbefore
      obtain ⟨cause, hread, hrest⟩ := ih hbefore
      refine ⟨cause, hread, fun n => ?_⟩
      have hnumber : n + 1 + before.length = n + (first :: before).length := by
        rw [List.length_cons]
        omega
      cases row with
      | none => rw [List.cons_append, readLines_none hfirst, hrest, hnumber]
      | some a => rw [List.cons_append, readLines_some hfirst, hrest, hnumber]; rfl

theorem exists_rows_iff :
    (∃ rows, List.Forall₂ Reads rows lines) ↔ ∀ line ∈ lines, ∃ row, Reads row line := by
  induction lines with
  | nil => simp
  | cons line lines ih =>
      rw [List.forall_mem_cons, ← ih]
      simp only [List.forall₂_cons_right_iff]
      constructor
      · rintro ⟨_, row, rows, hrow, hrows, -⟩
        exact ⟨⟨row, hrow⟩, rows, hrows⟩
      · rintro ⟨⟨row, hrow⟩, rows, hrows⟩
        exact ⟨_, row, rows, hrow, hrows, rfl⟩

/-- If some line cannot be read there is a first such line. -/
theorem exists_first (hrefused : ∃ line ∈ lines, ¬∃ row, Reads row line) :
    ∃ before line after, lines = before ++ line :: after ∧
      (∀ l ∈ before, ∃ row, Reads row l) ∧ ¬∃ row, Reads row line := by
  classical
  have hsome : (lines.find? fun l => decide (¬∃ row, Reads row l)).isSome := by
    simpa only [List.find?_isSome, decide_eq_true_eq] using hrefused
  obtain ⟨line, hfind⟩ := Option.isSome_iff_exists.1 hsome
  obtain ⟨hline, before, after, rfl, hbefore⟩ := List.find?_eq_some_iff_append.1 hfind
  refine ⟨before, line, after, rfl, fun l hl => ?_, of_decide_eq_true hline⟩
  simpa using hbefore l hl

theorem readLines_eq_ok_iff : readLines n lines = .ok actions ↔
    ∃ rows, List.Forall₂ Reads rows lines ∧ actions = numbered n rows := by
  constructor
  · intro h
    by_cases hall : ∀ line ∈ lines, ∃ row, Reads row line
    · obtain ⟨rows, hrows⟩ := exists_rows_iff.2 hall
      rw [readLines_of_reads hrows] at h
      exact ⟨rows, hrows, (Except.ok.inj h).symm⟩
    · obtain ⟨before, line, after, rfl, hbefore, hline⟩ := exists_first (by simpa using hall)
      obtain ⟨cause, -, hrefused⟩ := readLines_append_refused hbefore hline
      rw [hrefused] at h
      cases h
  · rintro ⟨rows, hrows, rfl⟩
    exact readLines_of_reads hrows

theorem readLines_eq_error_iff :
    (∃ refusal, readLines n lines = .error refusal) ↔ ∃ line ∈ lines, ¬∃ row, Reads row line := by
  constructor
  · rintro ⟨refusal, h⟩
    by_contra hnone
    obtain ⟨rows, hrows⟩ := exists_rows_iff.2 (by simpa using hnone)
    rw [readLines_of_reads hrows] at h
    cases h
  · intro hline
    obtain ⟨before, line, after, rfl, hbefore, hline⟩ := exists_first hline
    obtain ⟨cause, -, hrefused⟩ := readLines_append_refused hbefore hline
    exact ⟨_, hrefused n⟩

/-- However the text is taken apart into lines, these are read. -/
theorem read_eq {text : String} (hlined : Lined text.toList lines) :
    read text = readLines 1 lines :=
  readLines_congr (hlined.map_lines content_return)

end Script

namespace Command

open Script

variable {text : String} {lines : List (List Char)} {actions : List ScriptLine}

theorem readScript_eq_ok_iff : readScript text = .ok actions ↔ Script.read text = .ok actions := by
  unfold readScript
  split <;> simp_all

theorem readScript_eq_error_iff : (∃ fault, readScript text = .error fault) ↔
    ∃ refusal, Script.read text = .error refusal := by
  unfold readScript
  split <;> simp_all

/-- A script is read iff each of its lines holds nothing or an action, however the ends of the lines
are told apart from them, and then as the actions with the numbers of their lines. These include the
written forms. Otherwise it is refused, with the number of the first line that holds neither. -/
theorem script_exact (text : String) :
    (∃ lines, Lined text.toList lines) ∧ ∀ lines, Lined text.toList lines →
      (∀ rows, List.Forall₂ Written rows lines →
        (∀ a, some a ∈ rows → ∀ n ∈ a.amount?, Numeral.isAmount n = true) →
          readScript text = .ok (numbered 1 rows)) ∧
      (∀ actions, readScript text = .ok actions ↔
        ∃ rows, List.Forall₂ Reads rows lines ∧ actions = numbered 1 rows) ∧
      ((∃ fault, readScript text = .error fault) ↔ ∃ line ∈ lines, ¬∃ row, Reads row line) ∧
      ∀ before line after, lines = before ++ line :: after →
        (∀ l ∈ before, ∃ row, Reads row l) → (¬∃ row, Reads row line) →
          ∃ cause, ScriptAction.read (content line) = .error cause ∧
            readScript text = .error (scriptFault (before.length + 1) cause) := by
  refine ⟨⟨_, lined_lines _⟩, fun lines hlined => ⟨fun rows hwritten hfits => ?_, fun actions => ?_,
    ?_, fun before line after hlines hbefore hline => ?_⟩⟩
  · rw [readScript_eq_ok_iff, read_eq hlined]
    exact readLines_of_reads (reads_of_written hwritten hfits)
  · rw [readScript_eq_ok_iff, read_eq hlined, readLines_eq_ok_iff]
  · rw [readScript_eq_error_iff, read_eq hlined, readLines_eq_error_iff]
  · obtain ⟨cause, hread, hrefused⟩ := readLines_append_refused hbefore hline
    refine ⟨cause, hread, ?_⟩
    rw [readScript, read_eq hlined, hlines, hrefused, Nat.add_comm]

/-- Either end of a line, either case, blanks, comments and the least amount. -/
theorem script_exact_mixed :
    List.Forall₂ Written
      [none, some (.bet (-9223372036854775808)), none, some .fold]
      ["# opening".toList, "  BET\t-9223372036854775808 # lowest".toList, [], "Fold".toList] ∧
    readScript "# opening\r\n  BET\t-9223372036854775808 # lowest\n\nFold" =
      .ok [⟨2, .bet (-9223372036854775808)⟩, ⟨4, .fold⟩] := by
  have hlined : Lined "# opening\r\n  BET\t-9223372036854775808 # lowest\n\nFold".toList
      ["# opening".toList, "  BET\t-9223372036854775808 # lowest".toList, [], "Fold".toList] := by
    change Lined ("# opening".toList ++ '\r' :: '\n' ::
      ("  BET\t-9223372036854775808 # lowest".toList ++ '\n' :: ([] ++ '\n' :: "Fold".toList))) _
    exact .crlf (by decide) (.lf (by decide) (.lf (by decide) (.last (by decide) (by decide))))
  have hbet : ScriptAction.Shown (.bet (-9223372036854775808)) "BET\t-9223372036854775808".toList :=
    .inr ⟨"BET".toList, ['\t'], "-9223372036854775808".toList, by decide, by decide,
      by simp [isBlank], rfl⟩
  have hfold : ScriptAction.Shown .fold "Fold".toList := .inl (by decide)
  have hwritten : List.Forall₂ Written
      [none, some (.bet (-9223372036854775808)), none, some .fold]
      ["# opening".toList, "  BET\t-9223372036854775808 # lowest".toList, [], "Fold".toList] :=
    .cons ⟨[], [], [], "# opening".toList, nofun, rfl, nofun, by simp, rfl⟩
      (.cons ⟨[' ', ' '], _, [' '], "# lowest".toList, by simp [isBlank], hbet, by simp [isBlank],
          by simp, rfl⟩
        (.cons ⟨[], [], [], [], nofun, rfl, nofun, nofun, rfl⟩
          (.cons ⟨[], _, [], [], nofun, hfold, nofun, nofun, rfl⟩ .nil)))
  have hfits : ∀ a, some a ∈ [none, some (.bet (-9223372036854775808)), none, some .fold] →
      ∀ n ∈ ScriptAction.amount? a, Numeral.isAmount n = true := by
    have hlowest : Numeral.isAmount (-9223372036854775808) = true := by decide
    simpa [ScriptAction.amount?] using hlowest
  exact ⟨hwritten, ((script_exact _).2 _ hlined).1 _ hwritten hfits⟩

end Command

end PokerHand
