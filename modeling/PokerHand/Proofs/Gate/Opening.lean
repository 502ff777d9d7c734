import PokerHand.Proofs.Stage

/-!
# Gates as they open

The tasks that a gate starts with ask each seat for exactly what the terms make it owe.
-/
namespace PokerHand

namespace Queue

variable {tasks : List Task} {seat : Nat}

theorem duesOf_append (xs ys : List Task) (seat : Nat) :
    duesOf (xs ++ ys) seat = duesOf xs seat ++ duesOf ys seat :=
  List.filterMap_append

end Queue

namespace Task

theorem awaits_forPayment (due : Due) (owed : SeatMap Int) (seat : Nat) :
    (forPayment due owed).awaits seat = owed.contains seat := by
  simp only [forPayment, awaits, isParticipant, isSatisfiedBy, SeatMap.contains,
    SeatMap.find?_empty]
  cases (owed.find? seat).isSome <;> rfl

theorem proper_forPayment {n : Nat} {due : Due} {owed : SeatMap Int} (hdue : due ≠ .ready)
    (hseats : ∀ seat ∈ owed.seats, seat < n) : (forPayment due owed).Proper n where
  asked_lt := hseats
  due_ne_ready := fun _ => hdue
  owes_nothing := by simp [forPayment, isPayment]

/-- Nobody owes anything for being ready. -/
theorem fair_forReadiness (seats : List Nat) : (forReadiness seats).Fair := by
  simp [Fair, forReadiness, owedBy]

section Readiness

variable {seats : List Nat} (hasc : seats.Pairwise (· < ·))

include hasc

theorem entries_flags :
    (SeatMap.ofList (seats.map fun s => (s, false))).entries = seats.map fun s => (s, false) :=
  SeatMap.entries_ofList (by simpa [Function.comp_def] using hasc)

theorem participants_forReadiness : (forReadiness seats).participants = seats := by
  simp [forReadiness, participants, SeatMap.seats, entries_flags hasc, Function.comp_def]

theorem awaits_forReadiness {seat : Nat} (hseat : seat ∈ seats) :
    (forReadiness seats).awaits seat = true := by
  have hfind : (SeatMap.ofList (seats.map fun s => (s, false))).find? seat = some false := by
    rw [SeatMap.find?, entries_flags hasc]
    clear hasc
    induction seats with
    | nil => simp at hseat
    | cons s rest ih =>
        rw [List.map_cons, SeatMap.lookup_cons_ite]
        split
        · rfl
        · next hne => exact ih (by simpa [hne] using hseat)
  simp [forReadiness, awaits, isParticipant, isSatisfiedBy, SeatMap.contains, hfind]

theorem proper_forReadiness {n : Nat} (hlt : ∀ seat ∈ seats, seat < n) :
    (forReadiness seats).Proper n where
  asked_lt := (participants_forReadiness hasc).symm ▸ hlt
  due_ne_ready := by simp [forReadiness, isPayment]
  owes_nothing := by simp [forReadiness, owedBy]

end Readiness

end Task

namespace Hand

variable {setup : Setup} {h h' : Hand} {f : Seat → Seat}

section Dues

variable (hn : Numbered h.seats) {chosen : Seat → Bool} {amount : Int}

include hn

theorem entries_dues : (h.dues chosen amount).entries =
    (h.seats.filter chosen).map fun s => (s.number, min amount s.stack) := by
  refine SeatMap.entries_ofList ?_
  rw [List.map_map]
  exact hn.ascending.sublist (List.filter_sublist.map _)

theorem seats_dues : (h.dues chosen amount).seats = (h.seats.filter chosen).map Seat.number := by
  rw [SeatMap.seats, entries_dues hn, List.map_map]
  rfl

theorem contains_dues {s : Seat} (hs : s ∈ h.seats) :
    (h.dues chosen amount).contains s.number = chosen s := by
  rw [Bool.eq_iff_iff, SeatMap.contains_iff, seats_dues hn]
  constructor
  · intro hmem
    obtain ⟨r, hr, hnumber⟩ := List.mem_map.1 hmem
    obtain ⟨hr, hchosen⟩ := List.mem_filter.1 hr
    rwa [← hn.eq_of_number hr hs hnumber]
  · intro hchosen
    exact List.mem_map_of_mem (List.mem_filter.2 ⟨hs, hchosen⟩)

/-- Nobody owes but the chosen seats, each as far as its stack goes. -/
theorem exists_of_find?_dues {seat : Nat} {chips : Int}
    (hfind : (h.dues chosen amount).find? seat = some chips) :
    ∃ s ∈ h.seats, s.number = seat ∧ chips = min amount s.stack := by
  have hmem : (seat, chips) ∈ (h.dues chosen amount).entries := by
    obtain ⟨l₁, l₂, heq, -⟩ := List.lookup_eq_some_iff.1 hfind
    simp [heq]
  rw [entries_dues hn] at hmem
  obtain ⟨s, hs, heq⟩ := List.mem_map.1 hmem
  obtain ⟨rfl, rfl⟩ := Prod.mk.inj heq
  exact ⟨s, (List.mem_filter.1 hs).1, rfl, rfl⟩

theorem find?_dues {s : Seat} (hs : s ∈ h.seats) (hchosen : chosen s = true) :
    (h.dues chosen amount).find? s.number = some (min amount s.stack) := by
  have hcontains : (h.dues chosen amount).contains s.number = true :=
    (contains_dues hn hs).trans hchosen
  obtain ⟨chips, hfind⟩ := Option.isSome_iff_exists.1 hcontains
  obtain ⟨r, hr, hnumber, rfl⟩ := exists_of_find?_dues hn hfind
  rw [hfind, hn.eq_of_number hr hs hnumber]

theorem proper_dues {due : Due} (hdue : due ≠ .ready) :
    (Task.forPayment due (h.dues chosen amount)).Proper h.seats.length := by
  refine Task.proper_forPayment hdue ?_
  rw [seats_dues hn]
  intro seat hseat
  obtain ⟨s, hs, rfl⟩ := List.mem_map.1 hseat
  exact hn.number_lt (List.mem_filter.1 hs).1

theorem fair_dues {due : Due} (hamount : 0 ≤ amount) (hstack : ∀ s ∈ h.seats, 0 ≤ s.stack) :
    (Task.forPayment due (h.dues chosen amount)).Fair := by
  intro seat chips hfind
  obtain ⟨s, hs, -, rfl⟩ := exists_of_find?_dues hn hfind
  have := hstack s hs
  omega

theorem duesOf_forPayment {due : Due} {s : Seat} (hs : s ∈ h.seats) :
    Queue.duesOf [.forPayment due (h.dues chosen amount)] s.number =
      if chosen s then [min amount s.stack] else [] := by
  simp only [Queue.duesOf, List.filterMap_cons, List.filterMap_nil, Task.awaits_forPayment,
    contains_dues hn hs]
  cases hchosen : chosen s with
  | false => rfl
  | true =>
      have hfind : (h.dues chosen amount).find? s.number = some (min amount s.stack) :=
        find?_dues hn hs hchosen
      simp [Task.forPayment, Task.owedBy, hfind]

/-- The task for a blind asks its holders for it. -/
theorem duesOf_blindTask {due : Due} {position : Position} {s : Seat} (hs : s ∈ h.seats) :
    Queue.duesOf (h.blindTask due position amount).toList s.number =
      if s.holds position && amount > 0 then [min amount s.stack] else [] := by
  unfold blindTask
  by_cases hamount : amount ≤ 0
  · simp [hamount, Queue.duesOf, Int.not_lt.2 hamount]
  · by_cases hempty : (h.dues (fun s => s.holds position) amount).entries = []
    · have hholds : s.holds position = false := by
        rw [entries_dues hn, List.map_eq_nil_iff, List.filter_eq_nil_iff] at hempty
        simpa using hempty s hs
      simp [hempty, Queue.duesOf, hholds]
    · have hpos : amount > 0 := by omega
      have hdues : Queue.duesOf [.forPayment due (h.dues (fun s => s.holds position) amount)]
          s.number = if s.holds position then [min amount s.stack] else [] :=
        duesOf_forPayment hn hs
      simpa [hamount, hempty, hpos] using hdues

theorem duesOf_blindTasks {s : Seat} (hs : s ∈ h.seats) :
    Queue.duesOf h.blindTasks s.number =
      (h.terms.blindsOf s.positions).map fun blind => min blind s.stack := by
  have htasks : h.blindTasks =
      (h.blindTask .dealerBlind .dealer h.terms.blinds.dealer).toList ++
        ((h.blindTask .smallBlind .smallBlind h.terms.blinds.small).toList ++
          (h.blindTask .bigBlind .bigBlind h.terms.blinds.big).toList) := by
    unfold blindTasks
    cases h.blindTask .dealerBlind .dealer h.terms.blinds.dealer <;>
      cases h.blindTask .smallBlind .smallBlind h.terms.blinds.small <;>
        cases h.blindTask .bigBlind .bigBlind h.terms.blinds.big <;> rfl
  rw [htasks, Queue.duesOf_append, Queue.duesOf_append, duesOf_blindTask hn hs,
    duesOf_blindTask hn hs, duesOf_blindTask hn hs]
  simp only [Terms.blindsOf, Seat.holds, List.filter_cons, List.filter_nil]
  by_cases hdealer : (s.positions.contains .dealer && decide (h.terms.blinds.dealer > 0)) = true <;>
    by_cases hsmall :
        (s.positions.contains .smallBlind && decide (h.terms.blinds.small > 0)) = true <;>
      by_cases hbig : (s.positions.contains .bigBlind && decide (h.terms.blinds.big > 0)) = true <;>
        simp only [hdealer, hsmall, hbig, reduceIte, List.map_cons, List.map_nil,
          List.nil_append, List.singleton_append, Bool.false_eq_true]

end Dues

/-- Every task for a blind is a proper one that asks somebody. -/
theorem exists_of_mem_blindTasks {t : Task} (ht : t ∈ h.blindTasks) :
    ∃ due position amount, due ≠ .ready ∧ due ≠ .ante ∧ 0 ≤ amount ∧
      t = .forPayment due (h.dues (fun s => s.holds position) amount) ∧
      (h.dues (fun s => s.holds position) amount).entries ≠ [] := by
  have hblind : ∀ due position amount, h.blindTask due position amount = some t →
      0 ≤ amount ∧ t = .forPayment due (h.dues (fun s => s.holds position) amount) ∧
        (h.dues (fun s => s.holds position) amount).entries ≠ [] := by
    intro due position amount hsome
    simp only [blindTask] at hsome
    split at hsome
    · simp at hsome
    · next hno =>
      simp only [List.isEmpty_iff, not_or] at hno
      exact ⟨by omega, by simpa using hsome.symm, hno.2⟩
  simp only [blindTasks, List.mem_filterMap, List.mem_cons, List.not_mem_nil, or_false] at ht
  obtain ⟨task, htask, rfl⟩ := ht
  rcases htask with heq | heq | heq
  · obtain ⟨hamount, rest⟩ := hblind _ _ _ heq.symm
    exact ⟨.dealerBlind, .dealer, _, by simp, by simp, hamount, rest⟩
  · obtain ⟨hamount, rest⟩ := hblind _ _ _ heq.symm
    exact ⟨.smallBlind, .smallBlind, _, by simp, by simp, hamount, rest⟩
  · obtain ⟨hamount, rest⟩ := hblind _ _ _ heq.symm
    exact ⟨.bigBlind, .bigBlind, _, by simp, by simp, hamount, rest⟩

theorem waiting_forPayment {due : Due} {owed : SeatMap Int} (hne : owed.entries ≠ []) :
    ∃ seat, (Task.forPayment due owed).awaits seat = true := by
  obtain ⟨e, he⟩ := List.exists_mem_of_ne_nil _ hne
  exact ⟨e.1, (Task.awaits_forPayment due owed e.1).trans
    (SeatMap.contains_iff.2 (List.mem_map_of_mem he))⟩

end Hand

end PokerHand
