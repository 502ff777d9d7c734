import Mathlib.Data.List.DropRight
import PokerHand.Text.Blank

/-!
# Pieces, ends and lines of a text

What cutting a text yields, told without the cutting: its pieces stand between gap characters
(`Pieces`), its trimmed middle between blanks (`trim_append`), its lines before line ends (`Lined`).
-/
namespace PokerHand.Text

variable {gap : Char → Bool} {c d : Char} {cs before body after piece line rest : List Char}
  {pieces : List (List Char)}

/-- A text holds these pieces, each without a gap character in it, with gap characters only before,
between and after them. -/
inductive Pieces (gap : Char → Bool) : List Char → List (List Char) → Prop where
  | none {cs : List Char} (hgap : ∀ c ∈ cs, gap c = true) : Pieces gap cs []
  | more {before piece after : List Char} {pieces : List (List Char)}
      (hbefore : ∀ c ∈ before, gap c = true) (hne : piece ≠ [])
      (hpiece : ∀ c ∈ piece, gap c = false) (hafter : ∀ c ∈ after.head?, gap c = true)
      (hmore : Pieces gap after pieces) : Pieces gap (before ++ piece ++ after) (piece :: pieces)

/-! How a text is cut from its first character on. -/

theorem runs_gap (hc : gap c = true) (rest : List Char) : runs gap (c :: rest) = runs gap rest := by
  rw [runs.eq_def]
  simp [hc]

theorem runs_end (hc : gap c = false) (hrest : ∀ d ∈ rest.head?, gap d = true) :
    runs gap (c :: rest) = [c] :: runs gap rest := by
  rw [runs.eq_def]
  cases rest with
  | nil => simp [hc, runs]
  | cons d rest =>
      have hd := hrest d rfl
      simp only [hc, Bool.false_eq_true, if_false]
      split <;> simp_all

theorem runs_join (hc : gap c = false) (hd : gap d = false)
    (hrest : runs gap (d :: rest) = piece :: pieces) :
    runs gap (c :: d :: rest) = (c :: piece) :: pieces := by
  rw [runs.eq_def]
  simp [hc, hd, hrest]

theorem runs_append_of_gap (hbefore : ∀ c ∈ before, gap c = true) (cs : List Char) :
    runs gap (before ++ cs) = runs gap cs := by
  induction before with
  | nil => rfl
  | cons b before ih =>
      obtain ⟨hb, hbefore⟩ := List.forall_mem_cons.1 hbefore
      rw [List.cons_append, runs_gap hb, ih hbefore]

theorem runs_append_of_piece (hne : piece ≠ []) (hpiece : ∀ c ∈ piece, gap c = false)
    (hafter : ∀ c ∈ after.head?, gap c = true) :
    runs gap (piece ++ after) = piece :: runs gap after := by
  induction piece with
  | nil => exact absurd rfl hne
  | cons c piece ih =>
      obtain ⟨hc, hpiece⟩ := List.forall_mem_cons.1 hpiece
      cases piece with
      | nil => exact runs_end hc hafter
      | cons d piece =>
          exact runs_join hc (hpiece d List.mem_cons_self) (ih (List.cons_ne_nil _ _) hpiece)

theorem Pieces.runs_eq (hpieces : Pieces gap cs pieces) : runs gap cs = pieces := by
  induction hpieces with
  | none hgap => simpa [runs] using runs_append_of_gap hgap []
  | more hbefore hne hpiece hafter _ ih =>
      rw [List.append_assoc, runs_append_of_gap hbefore, runs_append_of_piece hne hpiece hafter, ih]

/-- A text may begin with a piece. -/
theorem Pieces.cons_piece (hne : piece ≠ []) (hpiece : ∀ c ∈ piece, gap c = false)
    (hafter : ∀ c ∈ after.head?, gap c = true) (hmore : Pieces gap after pieces) :
    Pieces gap (piece ++ after) (piece :: pieces) := by
  have hnone : ∀ c ∈ ([] : List Char), gap c = true := nofun
  exact .more hnone hne hpiece hafter hmore

/-- A gap character in front changes no piece. -/
theorem Pieces.cons_gap (hc : gap c = true) (hpieces : Pieces gap cs pieces) :
    Pieces gap (c :: cs) pieces := by
  cases hpieces with
  | none hgap => exact .none (List.forall_mem_cons.2 ⟨hc, hgap⟩)
  | more hbefore hne hpiece hafter hmore =>
      exact .more (List.forall_mem_cons.2 ⟨hc, hbefore⟩) hne hpiece hafter hmore

/-- In front of a character of the first piece another one lengthens it. -/
theorem Pieces.cons_join (hc : gap c = false) (hd : gap d = false)
    (hpieces : Pieces gap (d :: rest) pieces) :
    ∃ piece more, pieces = piece :: more ∧ Pieces gap (c :: d :: rest) ((c :: piece) :: more) := by
  generalize hcs : d :: rest = cs at hpieces
  cases hpieces with
  | none hgap => exact absurd (hgap d (hcs ▸ List.mem_cons_self)) (by simp [hd])
  | @more before piece after more hbefore hne hpiece hafter hmore =>
      cases before with
      | cons b before =>
          obtain rfl : d = b := (List.cons.inj hcs).1
          exact absurd (hbefore d List.mem_cons_self) (by simp [hd])
      | nil =>
          exact ⟨piece, more, rfl, .cons_piece (List.cons_ne_nil _ _)
            (List.forall_mem_cons.2 ⟨hc, hpiece⟩) hafter hmore⟩

theorem pieces_runs (gap : Char → Bool) (cs : List Char) : Pieces gap cs (runs gap cs) := by
  induction cs with
  | nil => exact .none nofun
  | cons c rest ih =>
      by_cases hc : gap c = true
      · rw [runs_gap hc]
        exact ih.cons_gap hc
      · rw [Bool.not_eq_true] at hc
        by_cases hrest : ∀ d ∈ rest.head?, gap d = true
        · rw [runs_end hc hrest]
          exact .cons_piece (List.cons_ne_nil c []) (by simpa using hc) hrest ih
        · obtain ⟨d, rest, rfl, hd⟩ : ∃ d tail, rest = d :: tail ∧ gap d = false := by
            cases rest <;> simp_all
          obtain ⟨piece, more, hruns, hjoin⟩ := ih.cons_join hc hd
          rwa [runs_join hc hd hruns]

/-- Cutting a text at gap characters yields its pieces and nothing else. -/
theorem pieces_iff : Pieces gap cs pieces ↔ runs gap cs = pieces :=
  ⟨Pieces.runs_eq, fun h => h ▸ pieces_runs gap cs⟩

theorem Pieces.gap_eq_false (hpieces : Pieces gap cs pieces) :
    ∀ piece ∈ pieces, ∀ c ∈ piece, gap c = false := by
  induction hpieces with
  | none => exact nofun
  | more _ _ hpiece _ _ ih => exact List.forall_mem_cons.2 ⟨hpiece, ih⟩

/-! The ends of a text. -/

/-- A text that neither begins nor ends with a blank. -/
def IsTrimmed (cs : List Char) : Prop :=
  (∀ c ∈ cs.head?, isBlank c = false) ∧ ∀ c ∈ cs.getLast?, isBlank c = false

theorem isTrimmed_of_forall (h : ∀ c ∈ cs, isBlank c = false) : IsTrimmed cs :=
  ⟨fun c hc => h c (List.mem_of_mem_head? hc), fun c hc => h c (List.mem_of_mem_getLast? hc)⟩

theorem dropWhile_of_head (h : ∀ c ∈ cs.head?, isBlank c = false) : cs.dropWhile isBlank = cs := by
  cases cs with
  | nil => rfl
  | cons c cs => simp [h c rfl]

/-- Blanks before and after a text are taken off, and nothing else. -/
theorem trim_append (hbefore : ∀ c ∈ before, isBlank c = true) (hbody : IsTrimmed body)
    (hafter : ∀ c ∈ after, isBlank c = true) : trim (before ++ body ++ after) = body := by
  have hlast : ∀ c ∈ body.reverse.head?, isBlank c = false := by
    rw [List.head?_reverse]
    exact hbody.2
  have hreverse : ∀ c ∈ after.reverse, isBlank c = true := fun c hc =>
    hafter c (List.mem_reverse.1 hc)
  unfold trim
  rw [List.append_assoc, List.dropWhile_append_of_pos hbefore]
  by_cases hnil : body = []
  · subst hnil
    rw [List.nil_append, List.dropWhile_eq_nil_iff.2 hafter]
    rfl
  · have hhead : ∀ c ∈ (body ++ after).head?, isBlank c = false := by
      rw [List.head?_append_of_ne_nil _ hnil]
      exact hbody.1
    rw [dropWhile_of_head hhead, List.reverse_append, List.dropWhile_append_of_pos hreverse,
      dropWhile_of_head hlast, List.reverse_reverse]

theorem isTrimmed_trim (cs : List Char) : IsTrimmed (trim cs) := by
  have htrim : trim cs = (cs.dropWhile isBlank).rdropWhile isBlank := rfl
  rw [htrim]
  constructor
  · intro c hc
    obtain ⟨after, hafter⟩ := List.rdropWhile_prefix isBlank (cs.dropWhile isBlank)
    have hhead := List.head?_dropWhile_not isBlank cs
    have hc' : (cs.dropWhile isBlank).head? = some c := by
      rw [← hafter, List.head?_append, Option.mem_def.1 hc, Option.some_or]
    rwa [hc'] at hhead
  · intro c hc
    obtain ⟨hne, rfl⟩ := List.mem_getLast?_eq_getLast hc
    exact Bool.not_eq_true _ ▸ List.rdropWhile_last_not isBlank _ hne

/-- A text is its trimmed middle with blanks before and after. -/
theorem exists_trim (cs : List Char) :
    ∃ before after, (∀ c ∈ before, isBlank c = true) ∧ (∀ c ∈ after, isBlank c = true) ∧
      cs = before ++ trim cs ++ after := by
  refine ⟨cs.takeWhile isBlank, (cs.dropWhile isBlank).rtakeWhile isBlank,
    fun c => List.mem_takeWhile_imp, fun c => List.mem_rtakeWhile_imp, ?_⟩
  have htrim : trim cs ++ (cs.dropWhile isBlank).rtakeWhile isBlank = cs.dropWhile isBlank :=
    List.rdropWhile_append_rtakeWhile
  rw [List.append_assoc, htrim, List.takeWhile_append_dropWhile]

/-! Words. -/

/-- Characters that are no blanks, at least one. -/
def IsWord (cs : List Char) : Prop := cs ≠ [] ∧ ∀ c ∈ cs, isBlank c = false

theorem isTrimmed_between {first last : List Char} (hfirst : IsWord first) (hlast : IsWord last)
    (gap : List Char) : IsTrimmed (first ++ gap ++ last) := by
  constructor
  · rw [List.append_assoc, List.head?_append_of_ne_nil _ hfirst.1]
    exact (isTrimmed_of_forall hfirst.2).1
  · rw [List.getLast?_append_of_ne_nil _ hlast.1]
    exact (isTrimmed_of_forall hlast.2).2

theorem trim_eq_self (h : IsTrimmed cs) : trim cs = cs := by
  simpa using trim_append (List.forall_mem_nil _) h (List.forall_mem_nil _)

/-- A trimmed text has one word iff it is that word. -/
theorem words_eq_singleton_iff {word : List Char} (htrim : IsTrimmed cs) :
    words cs = [word] ↔ IsWord word ∧ cs = word := by
  rw [words, ← pieces_iff]
  constructor
  · intro hpieces
    cases hpieces with
    | more hbefore hne hpiece _ hmore =>
      cases hmore with
      | none hafter =>
        refine ⟨⟨hne, hpiece⟩, ?_⟩
        rw [← trim_eq_self htrim]
        exact trim_append hbefore (isTrimmed_of_forall hpiece) hafter
  · rintro ⟨⟨hne, hword⟩, rfl⟩
    have hnone : ∀ c ∈ ([] : List Char), isBlank c = true := nofun
    simpa using Pieces.cons_piece hne hword (by simp) (.none hnone)

/-- A trimmed text has two words iff it is these words with blanks between. -/
theorem words_eq_pair_iff {first last : List Char} (htrim : IsTrimmed cs) :
    words cs = [first, last] ↔ IsWord first ∧ IsWord last ∧
      ∃ between, between ≠ [] ∧ (∀ c ∈ between, isBlank c = true) ∧
        cs = first ++ between ++ last := by
  rw [words, ← pieces_iff]
  constructor
  · intro hpieces
    cases hpieces with
    | more hbefore hne hfirst hgap hmore =>
      cases hmore with
      | @more between _ after _ hbetween hne' hlast _ hmore =>
        cases hmore with
        | none hafter =>
          refine ⟨⟨hne, hfirst⟩, ⟨hne', hlast⟩, between, ?_, hbetween, ?_⟩
          · rintro rfl
            obtain ⟨c, last, rfl⟩ := List.exists_cons_of_ne_nil hne'
            exact absurd (hgap c rfl) (by simp [hlast c List.mem_cons_self])
          · have hbody := isTrimmed_between ⟨hne, hfirst⟩ ⟨hne', hlast⟩ between
            rw [← trim_eq_self htrim, ← trim_append hbefore hbody hafter]
            simp only [List.append_assoc]
  · rintro ⟨⟨hne, hfirst⟩, ⟨hne', hlast⟩, between, hbetween, hblank, rfl⟩
    have hnone : ∀ c ∈ ([] : List Char), isBlank c = true := nofun
    have hsecond : Pieces isBlank (between ++ last ++ []) [last] :=
      .more hblank hne' hlast (by simp) (.none hnone)
    have hgap : ∀ c ∈ (between ++ last ++ []).head?, isBlank c = true := by
      rw [List.append_assoc, List.head?_append_of_ne_nil _ hbetween]
      exact fun c hc => hblank c (List.mem_of_mem_head? hc)
    simpa using Pieces.cons_piece hne hfirst hgap hsecond

/-! Lines. -/

/-- A text consists of these lines. A line feed ends each, or a carriage return and a line feed;
only the last line may go without. -/
inductive Lined : List Char → List (List Char) → Prop where
  | nil : Lined [] []
  | last {line : List Char} (hne : line ≠ []) (hline : '\n' ∉ line) : Lined line [line]
  | lf {line rest : List Char} {more : List (List Char)} (hline : '\n' ∉ line)
      (hmore : Lined rest more) : Lined (line ++ '\n' :: rest) (line :: more)
  | crlf {line rest : List Char} {more : List (List Char)} (hline : '\n' ∉ line)
      (hmore : Lined rest more) : Lined (line ++ '\r' :: '\n' :: rest) (line :: more)

/-- A character that ends no line lengthens the first one. -/
theorem Lined.cons (hc : c ≠ '\n') {more : List (List Char)} (hlined : Lined rest (line :: more)) :
    Lined (c :: rest) ((c :: line) :: more) := by
  have hmem : '\n' ∉ line → '\n' ∉ c :: line := fun hline hmem =>
    (List.mem_cons.1 hmem).elim (fun heq => hc heq.symm) hline
  cases hlined with
  | last _ hline => exact .last (List.cons_ne_nil _ _) (hmem hline)
  | lf hline hmore => exact .lf (hmem hline) hmore
  | crlf hline hmore => exact .crlf (hmem hline) hmore

theorem lined_lines (cs : List Char) : Lined cs (lines cs) := by
  have hempty : '\n' ∉ ([] : List Char) := List.not_mem_nil
  fun_induction lines cs with
  | case1 => exact .nil
  | case2 rest ih => exact .lf hempty ih
  | case3 rest ih => exact .crlf hempty ih
  | case4 c rest hc _ hnone ih =>
      rw [hnone] at ih
      cases ih
      exact .last (List.cons_ne_nil c []) (by simpa using fun heq => hc heq.symm)
  | case5 c rest hc _ line more hlines ih =>
      rw [hlines] at ih
      exact ih.cons hc

theorem lines_cons (hc : c ≠ '\n') (hpair : c = '\r' → rest.head? ≠ some '\n') :
    lines (c :: rest) =
      match lines rest with
      | [] => [[c]]
      | line :: more => (c :: line) :: more :=
  lines.eq_4 c rest hc fun _ hreturn hrest => hpair hreturn (hrest ▸ rfl)

theorem lines_last (hne : line ≠ []) (hline : '\n' ∉ line) : lines line = [line] := by
  induction line with
  | nil => exact absurd rfl hne
  | cons c line ih =>
      have hc := List.ne_of_not_mem_cons hline
      replace hline := List.not_mem_of_not_mem_cons hline
      have hpair : c = '\r' → line.head? ≠ some '\n' := fun _ hhead =>
        hline (List.mem_of_mem_head? hhead)
      rw [lines_cons (Ne.symm hc) hpair]
      cases line with
      | nil => rfl
      | cons d line => rw [ih (List.cons_ne_nil _ _) hline]

/-- A line feed cuts off the line before it, with or without a carriage return at its end. -/
theorem lines_lf (hline : '\n' ∉ line) (rest : List Char) :
    ∃ cut, lines (line ++ '\n' :: rest) = cut :: lines rest ∧
      (line = cut ∨ line = cut ++ ['\r']) := by
  induction line with
  | nil => exact ⟨[], rfl, .inl rfl⟩
  | cons c line ih =>
      have hc := List.ne_of_not_mem_cons hline
      replace hline := List.not_mem_of_not_mem_cons hline
      obtain ⟨cut, hlines, hcut⟩ := ih hline
      by_cases hreturn : c = '\r' ∧ line = []
      · obtain ⟨rfl, rfl⟩ := hreturn
        exact ⟨[], rfl, .inr rfl⟩
      · have hpair : c = '\r' → (line ++ '\n' :: rest).head? ≠ some '\n' := by
          rintro rfl hhead
          cases line with
          | nil => exact hreturn ⟨rfl, rfl⟩
          | cons d line => exact hline (Option.some.inj hhead ▸ List.mem_cons_self)
        refine ⟨c :: cut, ?_, hcut.imp (congrArg _) (congrArg _)⟩
        rw [List.cons_append, lines_cons (Ne.symm hc) hpair, hlines]

/-- However the ends of lines are told apart from the lines, whoever does not see a carriage return
at the end of a line sees the same lines. -/
theorem Lined.map_lines {β : Type} {f : List Char → β} (hf : ∀ line, f (line ++ ['\r']) = f line)
    {more : List (List Char)} (hlined : Lined cs more) : (lines cs).map f = more.map f := by
  have hcut : ∀ {line cut : List Char}, line = cut ∨ line = cut ++ ['\r'] → f cut = f line := by
    rintro _ cut (rfl | rfl)
    · rfl
    · exact (hf cut).symm
  induction hlined with
  | nil => rfl
  | last hne hline => rw [lines_last hne hline]
  | @lf line rest more hline _ ih =>
      obtain ⟨cut, hlines, hends⟩ := lines_lf hline rest
      rw [hlines, List.map_cons, List.map_cons, ih, hcut hends]
  | @crlf line rest more hline _ ih =>
      have hreturn : '\n' ∉ line ++ ['\r'] := by simpa using hline
      obtain ⟨cut, hlines, hends⟩ := lines_lf hreturn rest
      rw [List.append_cons, hlines, List.map_cons, List.map_cons, ih, hcut hends, hf]

end PokerHand.Text
