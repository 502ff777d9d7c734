import PokerHand.Gate.Queue
import PokerHand.Proofs.SeatMap

/-!
# What becomes of the tasks at a gate

`Task.Settles` is what each way to satisfy an entry does to the task: it no longer waits for the
seat and is otherwise as before.
-/
namespace PokerHand

/-- A condition that fails where another holds is met less often. -/
theorem countP_lt {α : Type} {p q : α → Bool} {xs : List α} (h : ∀ x ∈ xs, q x = true → p x = true)
    {y : α} (hy : y ∈ xs) (hp : p y = true) (hq : q y = false) : xs.countP q < xs.countP p := by
  induction xs with
  | nil => simp at hy
  | cons x xs ih =>
      have hxs : ∀ z ∈ xs, q z = true → p z = true := fun z hz => h z (List.mem_cons_of_mem _ hz)
      have hle : xs.countP q ≤ xs.countP p := List.countP_mono_left hxs
      rw [List.countP_cons, List.countP_cons]
      rcases List.mem_cons.1 hy with rfl | hy
      · rw [hp, hq]
        simp only [Bool.false_eq_true, if_false, if_true]
        omega
      · have hlt := ih hxs hy
        have hx := h x List.mem_cons_self
        cases hqx : q x with
        | false => simp only [Bool.false_eq_true, if_false]; omega
        | true => rw [hx hqx]; omega

namespace Task

variable {t t' : Task} {seat other : Nat}

theorem isParticipant_iff : t.isParticipant seat = true ↔ seat ∈ t.participants := by
  unfold isParticipant participants
  split <;> exact SeatMap.contains_iff

theorem awaits_iff : t.awaits seat = true ↔
    t.completed = false ∧ seat ∈ t.participants ∧ t.isSatisfiedBy seat = false := by
  simp [awaits, isParticipant_iff, and_assoc]

/-- A task of a gate for `n` seats: it asks some of them, payments are due for a reason, and
nobody owes chips where readiness is asked. -/
structure Proper (n : Nat) (t : Task) : Prop where
  asked_lt : ∀ seat ∈ t.participants, seat < n
  due_ne_ready : t.isPayment = true → t.due ≠ .ready
  owes_nothing : t.isPayment = false → ∀ seat, t.owedBy seat = none

/-- Nobody owes the task a negative amount. -/
def Fair (t : Task) : Prop := ∀ seat chips, t.owedBy seat = some chips → 0 ≤ chips

/-- The task no longer waits for `seat`; it waits for the other seats as before. -/
structure Settles (seat : Nat) (t t' : Task) : Prop where
  due : t'.due = t.due
  owed : t'.owed = t.owed
  isPayment : t'.isPayment = t.isPayment
  participants : t'.participants = t.participants
  completed : t'.completed = t.completed
  awaits : ∀ other, t'.awaits other = (t.awaits other && other != seat)

theorem Proper.settles {n : Nat} (hp : t.Proper n) (hs : Settles seat t t') : t'.Proper n where
  asked_lt := hs.participants ▸ hp.asked_lt
  due_ne_ready := by rw [hs.isPayment, hs.due]; exact hp.due_ne_ready
  owes_nothing := by unfold owedBy; rw [hs.isPayment, hs.owed]; exact hp.owes_nothing

theorem Proper.complete {n : Nat} (hp : t.Proper n) : { t with completed := true }.Proper n :=
  ⟨hp.asked_lt, hp.due_ne_ready, hp.owes_nothing⟩

theorem Fair.settles (hf : t.Fair) (hs : Settles seat t t') : t'.Fair := by
  unfold Fair owedBy
  rw [hs.owed]
  exact hf

theorem settles_flag {flags : SeatMap Bool} (hprogress : t.progress = .ready flags)
    (hseat : flags.contains seat = true) :
    Settles seat t { t with progress := .ready (flags.insert seat true) } where
  due := rfl
  owed := rfl
  isPayment := by simp [isPayment, hprogress]
  participants := by simp [participants, hprogress, SeatMap.seats_insert hseat]
  completed := rfl
  awaits := by
    intro other
    simp only [awaits, isParticipant, isSatisfiedBy, hprogress, SeatMap.contains,
      SeatMap.find?_insert]
    by_cases h : other = seat <;> simp [h]

theorem settles_paid {paid : SeatMap Int} (hprogress : t.progress = .pay paid) (chips : Int) :
    Settles seat t { t with progress := .pay (paid.insert seat chips) } where
  due := rfl
  owed := rfl
  isPayment := by simp [isPayment, hprogress]
  participants := by simp [participants, hprogress]
  completed := rfl
  awaits := by
    intro other
    simp only [awaits, isParticipant, isSatisfiedBy, hprogress, SeatMap.contains,
      SeatMap.find?_insert]
    by_cases h : other = seat <;> simp [h]

/-- A seat that readiness is asked of can be marked. -/
theorem markReady_eq_ok (hawaits : t.awaits seat = true) (hready : t.isPayment = false) :
    ∃ t', t.markReady seat = .ok t' ∧ Settles seat t t' := by
  cases hprogress : t.progress with
  | pay paid => simp [isPayment, hprogress] at hready
  | ready flags =>
      have hseat : flags.contains seat = true := by
        simp only [awaits, isParticipant, hprogress, Bool.and_eq_true] at hawaits
        exact hawaits.1.2
      exact ⟨_, by simp [markReady, hprogress, hseat], settles_flag hprogress hseat⟩

/-- A seat that a payment is asked of can make exactly the payment that it owes. -/
theorem recordPayment_eq (hawaits : t.awaits seat = true) (hpayment : t.isPayment = true) :
    ∃ owed t', t.owedBy seat = some owed ∧ Settles seat t t' ∧
      ∀ chips, t.recordPayment seat chips =
        if chips = owed then .ok t' else .error (.badPayment owed chips) := by
  cases hprogress : t.progress with
  | ready flags => simp [isPayment, hprogress] at hpayment
  | pay paid =>
      have hseat : t.owed.contains seat = true := by
        simp only [awaits, isParticipant, hprogress, Bool.and_eq_true] at hawaits
        exact hawaits.1.2
      obtain ⟨owed, howed⟩ := Option.isSome_iff_exists.1 hseat
      refine ⟨owed, _, howed, settles_paid hprogress owed, fun chips => ?_⟩
      have howed : t.owedBy seat = some owed := howed
      simp only [recordPayment, howed, hprogress]
      by_cases h : chips = owed <;> simp [h]

theorem waive_settles (hawaits : t.awaits seat = true) : Settles seat t (t.waive seat) := by
  cases hprogress : t.progress with
  | ready flags =>
      have hseat : flags.contains seat = true := by
        simp only [awaits, isParticipant, hprogress, Bool.and_eq_true] at hawaits
        exact hawaits.1.2
      simpa [waive, hprogress, hseat] using settles_flag hprogress hseat
  | pay paid =>
      simp only [awaits, isParticipant, isSatisfiedBy, hprogress, Bool.and_eq_true, Bool.not_or,
        Bool.not_not, Bool.not_eq_true'] at hawaits
      obtain ⟨-, hseat, hpaid⟩ := hawaits
      simpa [waive, hprogress, hseat, hpaid] using settles_paid hprogress 0

/-- A satisfied task waits for nobody. -/
theorem awaits_of_isSatisfied (h : t.isSatisfied = true) : t.awaits seat = false := by
  refine Bool.eq_false_iff.2 fun hawaits => ?_
  obtain ⟨-, hseat, hopen⟩ := awaits_iff.1 hawaits
  have := List.all_eq_true.1 h seat hseat
  simp [hopen] at this

theorem exists_awaits (hc : t.completed = false) (h : t.isSatisfied = false) :
    ∃ seat, t.awaits seat = true := by
  obtain ⟨seat, hseat, hopen⟩ := List.all_eq_false.1 h
  exact ⟨seat, awaits_iff.2 ⟨hc, hseat, by simpa using hopen⟩⟩

end Task

namespace Queue

variable {tasks : List Task} {t t' : Task} {seat other i : Nat}

/-- What `seat` still owes, in the order in which it will be asked. -/
def duesOf (tasks : List Task) (seat : Nat) : List Int :=
  tasks.filterMap fun t => if t.awaits seat then t.owedBy seat else none

/-- Some task waits for somebody. -/
def Waiting (tasks : List Task) : Prop := ∃ t ∈ tasks, ∃ seat, t.awaits seat = true

theorem firstFor?_eq_none : firstFor? tasks seat = none ↔ ∀ t ∈ tasks, t.awaits seat = false :=
  List.findIdx?_eq_none_iff

theorem exists_of_firstFor? (hi : firstFor? tasks seat = some i) :
    ∃ t, tasks[i]? = some t ∧ t.awaits seat = true := by
  obtain ⟨hlt, hawaits, -⟩ := List.findIdx?_eq_some_iff_getElem.1 hi
  exact ⟨tasks[i], List.getElem?_eq_getElem hlt, hawaits⟩

theorem duesOf_nonneg (hf : ∀ t ∈ tasks, t.Fair) :
    ∀ due ∈ duesOf tasks seat, 0 ≤ due := by
  intro due hdue
  obtain ⟨t, ht, howed⟩ := List.mem_filterMap.1 hdue
  split at howed
  · exact hf t ht seat due howed
  · simp at howed

/-- The first task that waits for a seat asks for the first of its dues. -/
theorem duesOf_set_self (hi : firstFor? tasks seat = some i) (ht : tasks[i]? = some t)
    (hs : t.Settles seat t') :
    duesOf tasks seat = (t.owedBy seat).toList ++ duesOf (tasks.set i t') seat := by
  induction tasks generalizing i with
  | nil => simp at ht
  | cons first rest ih =>
      rw [firstFor?, List.findIdx?_cons] at hi
      split at hi
      · next hfirst =>
        obtain rfl : 0 = i := by simpa using hi
        obtain rfl : first = t := by simpa using ht
        cases howed : first.owedBy seat <;> simp [duesOf, hfirst, hs.awaits, howed]
      · next hfirst =>
        obtain ⟨j, hj, rfl⟩ := Option.map_eq_some_iff.1 hi
        have hrest := ih hj (by simpa using ht)
        simpa [duesOf, hfirst] using hrest

theorem duesOf_set_other (ht : tasks[i]? = some t) (hs : t.Settles seat t') (hne : other ≠ seat) :
    duesOf (tasks.set i t') other = duesOf tasks other := by
  induction tasks generalizing i with
  | nil => rfl
  | cons first rest ih =>
      cases i with
      | zero =>
          obtain rfl : first = t := by simpa using ht
          simp [duesOf, List.filterMap_cons, hs.awaits, hne, Task.owedBy, hs.owed]
      | succ j =>
          have hrest := ih (i := j) (by simpa using ht)
          simp only [duesOf] at hrest
          simp [duesOf, List.filterMap_cons, hrest]

/-- Satisfying an entry leaves fewer open. -/
theorem openEntries_set_lt (ht : tasks[i]? = some t) (hawaits : t.awaits seat = true)
    (hs : t.Settles seat t') : openEntries (tasks.set i t') < openEntries tasks := by
  induction tasks generalizing i with
  | nil => simp at ht
  | cons first rest ih =>
      cases i with
      | zero =>
          obtain rfl : first = t := by simpa using ht
          have hseat := (Task.awaits_iff.1 hawaits).2.1
          have hfewer : ∀ x ∈ first.participants, t'.awaits x = true → first.awaits x = true := by
            intro x _ hx
            rw [hs.awaits, Bool.and_eq_true] at hx
            exact hx.1
          have hsettled : t'.awaits seat = false := by simp [hs.awaits]
          have hlt := countP_lt hfewer hseat hawaits hsettled
          simp only [List.set_cons_zero, openEntries, hs.participants]
          omega
      | succ j =>
          have hlt := ih (i := j) (by simpa using ht)
          simp only [List.set_cons_succ, openEntries]
          omega

theorem forall_mem_set {P : Task → Prop} (h : ∀ t ∈ tasks, P t) (ht : P t') :
    ∀ t ∈ tasks.set i t', P t := by
  intro u hu
  rcases List.mem_or_eq_of_mem_set hu with hu | rfl
  · exact h u hu
  · exact ht

/-! Running the queue changes nothing but which satisfied tasks have completed. -/

theorem duesOf_run (tasks : List Task) (seat : Nat) :
    duesOf (run tasks).tasks seat = duesOf tasks seat := by
  induction tasks with
  | nil => rfl
  | cons t rest ih =>
      simp only [duesOf] at ih
      unfold run
      split
      · simp [duesOf, List.filterMap_cons, ih]
      · split
        · next hs =>
          have hopen : ({ t with completed := true } : Task).awaits seat = false := by
            simp [Task.awaits]
          simp [duesOf, Task.awaits_of_isSatisfied hs, hopen, ih]
        · rfl

theorem openEntries_run (tasks : List Task) :
    openEntries (run tasks).tasks = openEntries tasks := by
  induction tasks with
  | nil => rfl
  | cons t rest ih =>
      unfold run
      split
      · simp [openEntries, ih]
      · split
        · next hs =>
          have hclosed : t.awaits = fun _ => false := funext fun _ => Task.awaits_of_isSatisfied hs
          have hopen : ({ t with completed := true } : Task).awaits = fun _ => false :=
            funext fun _ => by simp [Task.awaits]
          simp [openEntries, hclosed, hopen, ih]
        · rfl

theorem forall_mem_run {P : Task → Prop} (hP : ∀ t, P t → P { t with completed := true })
    (h : ∀ t ∈ tasks, P t) : ∀ t ∈ (run tasks).tasks, P t := by
  induction tasks with
  | nil => simp [run]
  | cons t rest ih =>
      obtain ⟨ht, hrest⟩ := List.forall_mem_cons.1 h
      unfold run
      split
      · exact List.forall_mem_cons.2 ⟨ht, ih hrest⟩
      · split
        · exact List.forall_mem_cons.2 ⟨hP t ht, ih hrest⟩
        · exact h

/-- A drained queue waits for nobody. -/
theorem awaits_of_drained (h : (run tasks).drained = true) (seat : Nat) :
    ∀ t ∈ tasks, t.awaits seat = false := by
  induction tasks with
  | nil => simp
  | cons t rest ih =>
      simp only [run] at h
      split at h
      · next hc => exact List.forall_mem_cons.2 ⟨by simp [Task.awaits, hc], ih h⟩
      · split at h
        · next hs => exact List.forall_mem_cons.2 ⟨Task.awaits_of_isSatisfied hs, ih h⟩
        · simp at h

theorem duesOf_of_drained (h : (run tasks).drained = true) (seat : Nat) :
    duesOf tasks seat = [] := by
  refine List.filterMap_eq_nil_iff.2 fun t ht => ?_
  rw [awaits_of_drained h seat t ht]
  rfl

/-- A queue that has not drained waits for somebody. -/
theorem waiting_of_not_drained (h : (run tasks).drained = false) : Waiting (run tasks).tasks := by
  induction tasks with
  | nil => simp [run] at h
  | cons t rest ih =>
      unfold run at h ⊢
      split
      · next hc =>
        simp only [hc, if_true] at h
        obtain ⟨u, hu, hseat⟩ := ih h
        exact ⟨u, List.mem_cons_of_mem _ hu, hseat⟩
      · next hc =>
        simp only [hc] at h
        split
        · next hs =>
          simp only [hs, if_true] at h
          obtain ⟨u, hu, hseat⟩ := ih h
          exact ⟨u, List.mem_cons_of_mem _ hu, hseat⟩
        · next hs =>
          exact ⟨t, List.mem_cons_self, Task.exists_awaits (by simpa using hc) (by simpa using hs)⟩

end Queue

end PokerHand
