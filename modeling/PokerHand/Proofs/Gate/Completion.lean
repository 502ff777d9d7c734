import PokerHand.Proofs.Gate.Tasks

/-!
# Tasks complete in order

A queue is filled, its tasks are satisfied in any order, and now and then it runs (`Queue.Step`).
Whatever comes after what, the tasks that have completed stand in front of the others
(`Queue.InOrder`), no satisfied task is ever open again, and a run completes exactly the tasks up to
the first that waits (`Queue.exists_run`).
-/
namespace PokerHand

namespace Task

variable {t t' : Task} {seat : Nat} {chips : Int}

/-- Whoever has paid owed it: the whole due, or nothing when the seat was excused. -/
def PaidAsOwed (t : Task) : Prop :=
  ∀ paid, t.progress = .pay paid → ∀ seat chips, paid.find? seat = some chips →
    ∃ owed, t.owedBy seat = some owed ∧ (chips = 0 ∨ chips = owed)

/-- A task is satisfied when nobody owes it anything, participants or not. -/
theorem isSatisfied_iff : t.isSatisfied = true ↔ ∀ seat, t.isSatisfiedBy seat = true := by
  rw [isSatisfied, List.all_eq_true]
  refine ⟨fun h seat => ?_, fun h seat _ => h seat⟩
  by_cases hseat : t.isParticipant seat = true
  · exact h seat (isParticipant_iff.1 hseat)
  · unfold isParticipant at hseat
    unfold isSatisfiedBy
    split <;> simp_all [SeatMap.contains]

/-- What satisfying one of its entries leaves of a task: it completes no sooner, whoever owed
nothing still owes nothing, and what was paid was owed. -/
structure Follows (t t' : Task) : Prop where
  completed : t'.completed = t.completed
  isSatisfiedBy : ∀ seat, t.isSatisfiedBy seat = true → t'.isSatisfiedBy seat = true
  paidAsOwed : t.PaidAsOwed → t'.PaidAsOwed

theorem Follows.refl (t : Task) : t.Follows t := ⟨rfl, fun _ h => h, fun h => h⟩

theorem Follows.isSatisfied (hf : t.Follows t') (h : t.isSatisfied = true) :
    t'.isSatisfied = true :=
  isSatisfied_iff.2 fun seat => hf.isSatisfiedBy seat (isSatisfied_iff.1 h seat)

theorem follows_flag {flags : SeatMap Bool} (hprogress : t.progress = .ready flags) (seat : Nat) :
    t.Follows { t with progress := .ready (flags.insert seat true) } where
  completed := rfl
  isSatisfiedBy := by
    intro other
    simp only [Task.isSatisfiedBy, hprogress, SeatMap.find?_insert]
    split <;> simp
  paidAsOwed := fun _ paid hpaid => by cases hpaid

theorem follows_paid {paid : SeatMap Int} (hprogress : t.progress = .pay paid)
    (howed : ∃ owed, t.owedBy seat = some owed ∧ (chips = 0 ∨ chips = owed)) :
    t.Follows { t with progress := .pay (paid.insert seat chips) } where
  completed := rfl
  isSatisfiedBy := by
    intro other
    simp only [Task.isSatisfiedBy, hprogress, SeatMap.contains, SeatMap.find?_insert]
    split <;> simp
  paidAsOwed := by
    rintro hbefore _ ⟨⟩ other amount hamount
    rw [SeatMap.find?_insert] at hamount
    split at hamount
    · next hsame =>
      obtain rfl := Option.some.inj hamount
      exact hsame ▸ howed
    · exact hbefore paid hprogress other amount hamount

theorem follows_markReady (hmark : t.markReady seat = .ok t') : t.Follows t' := by
  unfold markReady at hmark
  split at hmark
  · next hprogress =>
    split at hmark
    · exact Except.ok.inj hmark ▸ follows_flag hprogress seat
    · cases hmark
  · cases hmark

theorem follows_recordPayment (hrecord : t.recordPayment seat chips = .ok t') : t.Follows t' := by
  unfold recordPayment at hrecord
  split at hrecord
  · cases hrecord
  · next owed howed =>
    split at hrecord
    · cases hrecord
    · next hprogress =>
      split at hrecord
      · next hexact =>
        exact Except.ok.inj hrecord ▸ follows_paid hprogress ⟨owed, howed, .inr hexact⟩
      · cases hrecord

theorem follows_waive (t : Task) (seat : Nat) : t.Follows (t.waive seat) := by
  unfold waive
  split
  · next hprogress =>
    split
    · exact follows_flag hprogress seat
    · exact .refl t
  · next hprogress =>
    split
    · next hopen =>
      obtain ⟨owed, howed⟩ := Option.isSome_iff_exists.1 (Bool.and_eq_true_iff.1 hopen).1
      exact follows_paid hprogress ⟨owed, howed, .inl rfl⟩
    · exact .refl t

end Task

namespace Queue

/-- One thing that is done to a queue or to the task at a place of it. -/
inductive Step where
  | askReadiness (seats : List Nat)
  | askPayment (due : Due) (owed : SeatMap Int)
  | markReady (place seat : Nat)
  | recordPayment (place seat : Nat) (chips : Int)
  | waive (place seat : Nat)
  | run

/-- The tasks after the one at a place was asked to change. A refusal, or a place where no task
stands, leaves them as they were. -/
def change (tasks : List Task) (place : Nat) (request : Task → Except Fault Task) : List Task :=
  match tasks[place]?.map request with
  | some (.ok t) => tasks.set place t
  | _ => tasks

/-- The tasks after a step. -/
def apply (tasks : List Task) : Step → List Task
  | .askReadiness seats => tasks ++ [.forReadiness seats]
  | .askPayment due owed => tasks ++ [.forPayment due owed]
  | .markReady place seat => change tasks place fun t => t.markReady seat
  | .recordPayment place seat chips => change tasks place fun t => t.recordPayment seat chips
  | .waive place seat => change tasks place fun t => .ok (t.waive seat)
  | .run => (run tasks).tasks

/-- The tasks after steps that begin with `tasks`. -/
def play (tasks : List Task) (steps : List Step) : List Task := steps.foldl apply tasks

variable {tasks : List Task} {t : Task} {i : Nat}

/-- The completed tasks are satisfied and stand in front, and whatever was paid was owed. -/
structure InOrder (tasks : List Task) : Prop where
  front : tasks.Pairwise fun t u => u.completed = true → t.completed = true
  satisfied : ∀ t ∈ tasks, t.completed = true → t.isSatisfied = true
  paidAsOwed : ∀ t ∈ tasks, t.PaidAsOwed

/-! What a step can do. -/

theorem change_cases (tasks : List Task) (place : Nat) (request : Task → Except Fault Task)
    (hfollows : ∀ t t', request t = .ok t' → t.Follows t') :
    change tasks place request = tasks ∨
      ∃ i t t', tasks[i]? = some t ∧ t.Follows t' ∧
        change tasks place request = tasks.set i t' := by
  unfold change
  split
  · next t' hrequest =>
    obtain ⟨t, ht, hok⟩ := Option.map_eq_some_iff.1 hrequest
    exact .inr ⟨place, t, t', ht, hfollows t t' hok, rfl⟩
  · exact .inl rfl

/-- A step leaves the tasks as they are, satisfies an entry of one, adds a new one, or runs them. -/
theorem apply_cases (tasks : List Task) (step : Step) :
    apply tasks step = tasks ∨
      (∃ i t t', tasks[i]? = some t ∧ t.Follows t' ∧ apply tasks step = tasks.set i t') ∨
      (∃ t, t.completed = false ∧ t.PaidAsOwed ∧ apply tasks step = tasks ++ [t]) ∨
      apply tasks step = (run tasks).tasks := by
  cases step with
  | askReadiness seats =>
      refine .inr (.inr (.inl ⟨.forReadiness seats, rfl, ?_, rfl⟩))
      rintro _ ⟨⟩
  | askPayment due owed =>
      refine .inr (.inr (.inl ⟨.forPayment due owed, rfl, ?_, rfl⟩))
      rintro _ ⟨⟩ seat chips hchips
      cases hchips
  | markReady place seat =>
      have hchange := change_cases tasks place (fun t => t.markReady seat)
        fun _ _ => Task.follows_markReady
      exact hchange.imp_right .inl
  | recordPayment place seat chips =>
      have hchange := change_cases tasks place (fun t => t.recordPayment seat chips)
        fun _ _ => Task.follows_recordPayment
      exact hchange.imp_right .inl
  | waive place seat =>
      have hchange := change_cases tasks place (fun t => .ok (t.waive seat))
        fun t _ hok => Except.ok.inj hok ▸ t.follows_waive seat
      exact hchange.imp_right .inl
  | run => exact .inr (.inr (.inr rfl))

/-! Running the queue. -/

/-- A run completes the tasks in front up to the first that waits, and says whether any does. -/
theorem exists_run (h : InOrder tasks) :
    ∃ done waiting, (run tasks).tasks = done ++ waiting ∧
      (∀ t ∈ done, t.completed = true ∧ t.isSatisfied = true) ∧
      (∀ t ∈ waiting, t.completed = false) ∧
      (∀ t ∈ waiting.head?, t.isSatisfied = false) ∧
      (run tasks).drained = waiting.isEmpty := by
  obtain ⟨hfront, hsatisfied, hpaid⟩ := h
  induction tasks with
  | nil => exact ⟨[], [], rfl, by simp, by simp, by simp, rfl⟩
  | cons t rest ih =>
      obtain ⟨hfirst, hfront⟩ := List.pairwise_cons.1 hfront
      obtain ⟨ht, hrest⟩ := List.forall_mem_cons.1 hsatisfied
      obtain ⟨done, waiting, heq, hdone, hwaiting, hhead, hdrained⟩ :=
        ih hfront hrest (List.forall_mem_cons.1 hpaid).2
      unfold run
      split
      · next hc =>
        exact ⟨t :: done, waiting, congrArg (t :: ·) heq,
          List.forall_mem_cons.2 ⟨⟨hc, ht hc⟩, hdone⟩, hwaiting, hhead, hdrained⟩
      · next hc =>
        split
        · next hs =>
          exact ⟨{ t with completed := true } :: done, waiting, congrArg (_ :: ·) heq,
            List.forall_mem_cons.2 ⟨⟨rfl, hs⟩, hdone⟩, hwaiting, hhead, hdrained⟩
        · next hs =>
          have hopen : ∀ u ∈ t :: rest, u.completed = false := by
            refine List.forall_mem_cons.2 ⟨by simpa using hc, fun u hu => ?_⟩
            exact Bool.eq_false_iff.2 fun hcompleted => hc (hfirst u hu hcompleted)
          exact ⟨[], t :: rest, rfl, by simp, hopen, by simpa using hs, rfl⟩

/-- Whether a task is satisfied does not depend on whether it has completed. -/
theorem getElem?_run (tasks : List Task) (i : Nat) :
    ((run tasks).tasks[i]?).map Task.isSatisfied = (tasks[i]?).map Task.isSatisfied := by
  induction tasks generalizing i with
  | nil => rfl
  | cons t rest ih =>
      unfold run
      split
      · cases i with
        | zero => rfl
        | succ i => exact ih i
      · split
        · cases i with
          | zero => rfl
          | succ i => exact ih i
        · rfl

theorem InOrder.run (h : InOrder tasks) : InOrder (Queue.run tasks).tasks := by
  obtain ⟨done, waiting, heq, hdone, hwaiting, -, -⟩ := exists_run h
  refine ⟨?_, ?_, forall_mem_run (fun _ hpaid => hpaid) h.paidAsOwed⟩
  · rw [heq, List.pairwise_append]
    refine ⟨?_, ?_, fun t ht u _ _ => (hdone t ht).1⟩
    · exact List.pairwise_of_forall_mem_list fun t ht _ _ _ => (hdone t ht).1
    · refine List.pairwise_of_forall_mem_list fun _ _ u hu hcompleted => ?_
      rw [hwaiting u hu] at hcompleted
      cases hcompleted
  · rw [heq]
    intro t ht hcompleted
    rcases List.mem_append.1 ht with ht | ht
    · exact (hdone t ht).2
    · rw [hwaiting t ht] at hcompleted
      cases hcompleted

/-! What every step keeps. -/

theorem InOrder.set {t' : Task} (h : InOrder tasks) (ht : tasks[i]? = some t)
    (hf : t.Follows t') : InOrder (tasks.set i t') := by
  have hmem := List.mem_of_getElem? ht
  have hcompleted : (tasks.set i t').map Task.completed = tasks.map Task.completed := by
    obtain ⟨hlt, rfl⟩ := List.getElem?_eq_some_iff.1 ht
    rw [List.map_set, hf.completed, ← List.getElem_map Task.completed, List.set_getElem_self]
    rwa [List.length_map]
  refine ⟨?_, forall_mem_set h.satisfied ?_, forall_mem_set h.paidAsOwed ?_⟩
  · have hfront : (tasks.map Task.completed).Pairwise fun a b => b = true → a = true :=
      List.pairwise_map.2 h.front
    rw [← hcompleted] at hfront
    exact List.pairwise_map.1 hfront
  · intro hdone
    exact hf.isSatisfied (h.satisfied t hmem (hf.completed ▸ hdone))
  · exact hf.paidAsOwed (h.paidAsOwed t hmem)

theorem InOrder.apply (h : InOrder tasks) (step : Step) : InOrder (Queue.apply tasks step) := by
  rcases apply_cases tasks step with heq | ⟨i, t, t', ht, hf, heq⟩ | ⟨t, hopen, hpaid, heq⟩ | heq
  · rwa [heq]
  · rw [heq]
    exact h.set ht hf
  · rw [heq]
    have hnew : t.completed = true → False := fun hdone => by simp [hopen] at hdone
    refine ⟨List.pairwise_append.2 ⟨h.front, List.pairwise_singleton _ _, ?_⟩, ?_, ?_⟩
    · intro _ _ u hu hdone
      exact (hnew (List.mem_singleton.1 hu ▸ hdone)).elim
    · refine List.forall_mem_append.2 ⟨h.satisfied, fun u hu hdone => ?_⟩
      exact (hnew (List.mem_singleton.1 hu ▸ hdone)).elim
    · exact List.forall_mem_append.2 ⟨h.paidAsOwed, fun u hu => List.mem_singleton.1 hu ▸ hpaid⟩
  · rw [heq]
    exact h.run

theorem InOrder.play (h : InOrder tasks) (steps : List Step) : InOrder (play tasks steps) := by
  unfold Queue.play
  induction steps generalizing tasks with
  | nil => exact h
  | cons step steps ih => exact ih (h.apply step)

/-- The task at a place is satisfied. -/
def SatisfiedAt (tasks : List Task) (i : Nat) : Prop :=
  ∃ t, tasks[i]? = some t ∧ t.isSatisfied = true

theorem satisfiedAt_apply (h : SatisfiedAt tasks i) (step : Step) :
    SatisfiedAt (apply tasks step) i := by
  obtain ⟨t, ht, hs⟩ := h
  rcases apply_cases tasks step with heq | ⟨j, u, u', hu, hf, heq⟩ | ⟨u, -, -, heq⟩ | heq <;>
    rw [heq]
  · exact ⟨t, ht, hs⟩
  · by_cases hij : j = i
    · subst hij
      obtain rfl := Option.some.inj (ht.symm.trans hu)
      obtain ⟨hlt, -⟩ := List.getElem?_eq_some_iff.1 ht
      exact ⟨u', List.getElem?_set_self hlt, hf.isSatisfied hs⟩
    · exact ⟨t, (List.getElem?_set_ne hij).trans ht, hs⟩
  · obtain ⟨hlt, -⟩ := List.getElem?_eq_some_iff.1 ht
    exact ⟨t, (List.getElem?_append_left hlt).trans ht, hs⟩
  · have hsame := getElem?_run tasks i
    rw [ht, Option.map_some, hs] at hsame
    exact Option.map_eq_some_iff.1 hsame

theorem satisfiedAt_play (h : SatisfiedAt tasks i) (steps : List Step) :
    SatisfiedAt (play tasks steps) i := by
  unfold play
  induction steps generalizing tasks with
  | nil => exact h
  | cons step steps ih => exact ih (satisfiedAt_apply h step)

/-- Entries that have a property stand in front when none without it precedes one with it. -/
theorem filter_isPrefix {α : Type} {p : α → Bool} {xs : List α}
    (h : xs.Pairwise fun a b => p b = true → p a = true) : xs.filter p <+: xs := by
  induction xs with
  | nil => exact List.nil_prefix
  | cons x xs ih =>
      obtain ⟨hx, hxs⟩ := List.pairwise_cons.1 h
      by_cases hp : p x = true
      · rw [List.filter_cons_of_pos hp]
        exact List.cons_prefix_cons.2 ⟨rfl, ih hxs⟩
      · have hnone : (x :: xs).filter p = [] := by
          refine List.filter_eq_nil_iff.2 (List.forall_mem_cons.2 ⟨hp, fun y hy hpy => ?_⟩)
          exact hp (hx y hy hpy)
        rw [hnone]
        exact List.nil_prefix

/-- Right after a run the tasks that have completed are the satisfied ones up to the first that is
not. Either that is all of them, or the queue waits for that first one. -/
theorem InOrder.after_run (h : InOrder tasks) :
    (Queue.run tasks).tasks.filter Task.completed =
        (Queue.run tasks).tasks.takeWhile Task.isSatisfied ∧
      ((Queue.run tasks).drained = true ↔
        ∀ t ∈ (Queue.run tasks).tasks, t.isSatisfied = true) ∧
      ((Queue.run tasks).drained = false →
        ∃ t, pending? (Queue.run tasks).tasks = some t ∧
          (Queue.run tasks).tasks.find? (fun t => !t.isSatisfied) = some t) := by
  obtain ⟨done, waiting, heq, hdone, hwaiting, hhead, hdrained⟩ := exists_run h
  have hcompleted : done.filter Task.completed = done :=
    List.filter_eq_self.2 fun t ht => (hdone t ht).1
  have hfront : (done ++ waiting).takeWhile Task.isSatisfied =
      done ++ waiting.takeWhile Task.isSatisfied :=
    List.takeWhile_append_of_pos fun t ht => (hdone t ht).2
  rw [heq, hdrained, List.filter_append, hcompleted, hfront]
  cases waiting with
  | nil =>
      refine ⟨rfl, iff_of_true rfl fun t ht => ?_, nofun⟩
      rw [List.append_nil] at ht
      exact (hdone t ht).2
  | cons t rest =>
      have hwaits : t.isSatisfied = false := hhead t rfl
      have hopen : t.completed = false := hwaiting t List.mem_cons_self
      have hnone : (t :: rest).filter Task.completed = [] :=
        List.filter_eq_nil_iff.2 fun u hu => by simp [hwaiting u hu]
      refine ⟨?_, iff_of_false nofun fun hall => ?_, fun _ => ⟨t, ?_, ?_⟩⟩
      · rw [hnone, List.takeWhile_cons_of_neg (by simp [hwaits])]
      · have := hall t (List.mem_append_right _ List.mem_cons_self)
        rw [hwaits] at this
        cases this
      · have hskip : done.find? (fun u => !u.completed) = none :=
          List.find?_eq_none.2 fun u hu => by simp [(hdone u hu).1]
        rw [pending?, List.find?_append, hskip, Option.none_or]
        exact List.find?_cons_of_pos (by simp [hopen])
      · have hskip : done.find? (fun u => !u.isSatisfied) = none :=
          List.find?_eq_none.2 fun u hu => by simp [(hdone u hu).2]
        rw [List.find?_append, hskip, Option.none_or]
        exact List.find?_cons_of_pos (by simp [hwaits])

/-- Whatever is done to a queue, the tasks that have completed are satisfied and come first, those
that are satisfied stay so, and what is paid is owed. After a run the completed tasks are all
satisfied ones up to the first that is not, and for this one the queue waits. -/
theorem tasks_complete_in_order (steps : List Step) :
    ((play [] steps).filter Task.completed <+: play [] steps ∧
        ∀ t ∈ play [] steps, t.completed = true → t.isSatisfied = true) ∧
      (∀ i later, SatisfiedAt (play [] steps) i → SatisfiedAt (play [] (steps ++ later)) i) ∧
      (∀ t ∈ play [] steps, t.PaidAsOwed) ∧
      (run (play [] steps)).tasks.filter Task.completed =
        (run (play [] steps)).tasks.takeWhile Task.isSatisfied ∧
      ((run (play [] steps)).drained = true ↔
        ∀ t ∈ (run (play [] steps)).tasks, t.isSatisfied = true) ∧
      ((run (play [] steps)).drained = false →
        ∃ t, pending? (run (play [] steps)).tasks = some t ∧
          (run (play [] steps)).tasks.find? (fun t => !t.isSatisfied) = some t) := by
  have horder : InOrder (play [] steps) := InOrder.play ⟨.nil, by simp, by simp⟩ steps
  refine ⟨⟨filter_isPrefix horder.front, horder.satisfied⟩, fun i later h => ?_,
    horder.paidAsOwed, horder.after_run⟩
  rw [play, List.foldl_append]
  exact satisfiedAt_play h later

/-- The big blind is paid before the small one, which holds it back until it is waived. -/
example :
    let early : List Step :=
      [.askPayment .smallBlind (.ofList [(1, 5)]), .askPayment .bigBlind (.ofList [(2, 10)]),
        .recordPayment 1 2 10, .recordPayment 0 1 4, .run]
    (play [] early).map Task.completed = [false, false] ∧
      (play [] (early ++ [.waive 0 1, .run])).map Task.completed = [true, true] := by decide

end Queue

end PokerHand
