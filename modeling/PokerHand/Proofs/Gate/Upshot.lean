import PokerHand.Proofs.Flow.Bare
import PokerHand.Proofs.Gate.Clearing

/-!
# What a gate comes to

A seat satisfies its entries in the order of the tasks, whatever the other seats do. `Hand.upshot`
is the hand once every seat has satisfied all of its entries. Satisfying an entry brings the hand
nearer to it and does not change it (`Served.upshot`), and once the queue has drained the hand is
its own upshot, apart from what is offered.
-/
namespace PokerHand

namespace Seat

variable [Counting]

/-- The seat once it has satisfied its entry in a task. -/
def answered (t : Task) (s : Seat) : Seat :=
  if s.stack = 0 then { s with did := some .pass }
  else if t.isPayment then
    let chips := (t.owedBy s.number).getD 0
    { (if t.due = .ante then s.putInPot chips else s.putIn chips) with did := some .pay }
  else { s with did := some .ready }

/-- The seat once it has satisfied its entries in all the tasks that wait for it. -/
def upshot (tasks : List Task) (s : Seat) : Seat :=
  tasks.foldl (fun s t => if t.awaits s.number then s.answered t else s) s

variable {tasks : List Task} {t t' : Task} {s : Seat} {i seat : Nat}

theorem upshot_cons (t : Task) (tasks : List Task) (s : Seat) :
    s.upshot (t :: tasks) = (if t.awaits s.number then s.answered t else s).upshot tasks := rfl

@[simp] theorem number_answered (t : Task) (s : Seat) : (s.answered t).number = s.number := by
  unfold answered
  split
  · rfl
  · split
    · split <;> rfl
    · rfl

theorem answered_bare (t : Task) (s : Seat) : s.bare.answered t = (s.answered t).bare := by
  have hstack : s.bare.stack = s.stack := rfl
  unfold answered
  rw [hstack]
  split
  · rfl
  · split
    · split <;> rfl
    · rfl

theorem upshot_bare (tasks : List Task) (s : Seat) :
    s.bare.upshot tasks = (s.upshot tasks).bare := by
  induction tasks generalizing s with
  | nil => rfl
  | cons t rest ih =>
      have hnumber : s.bare.number = s.number := rfl
      rw [upshot_cons, upshot_cons, hnumber]
      split
      · rw [answered_bare, ih]
      · exact ih s

/-- Nothing is left to do for a seat for which no task waits. -/
theorem upshot_of_forall (h : ∀ t ∈ tasks, t.awaits s.number = false) : s.upshot tasks = s := by
  induction tasks with
  | nil => rfl
  | cons t rest ih =>
      obtain ⟨ht, hrest⟩ := List.forall_mem_cons.1 h
      rw [upshot_cons, ht]
      exact ih hrest

/-- How a task is answered does not depend on who has satisfied it. -/
theorem answered_settles (hs : t.Settles seat t') (s : Seat) : s.answered t' = s.answered t := by
  simp only [answered, hs.isPayment, hs.due, Task.owedBy, hs.owed]

/-- A seat that answers the first task that waits for it has the rest of its answers before it. -/
theorem upshot_set_self (hi : Queue.firstFor? tasks s.number = some i) (ht : tasks[i]? = some t)
    (hs : t.Settles s.number t') : (s.answered t).upshot (tasks.set i t') = s.upshot tasks := by
  induction tasks generalizing i with
  | nil => simp at ht
  | cons first rest ih =>
      rw [Queue.firstFor?, List.findIdx?_cons] at hi
      split at hi
      · next hfirst =>
        obtain rfl : 0 = i := by simpa using hi
        obtain rfl : first = t := by simpa using ht
        simp [upshot_cons, hs.awaits, hfirst]
      · next hfirst =>
        obtain ⟨j, hj, rfl⟩ := Option.map_eq_some_iff.1 hi
        have hrest := ih hj (by simpa using ht)
        simpa [upshot_cons, hfirst] using hrest

/-- The answers of the other seats stay the same. -/
theorem upshot_set_other (ht : tasks[i]? = some t) (hs : t.Settles seat t')
    (hne : s.number ≠ seat) : s.upshot (tasks.set i t') = s.upshot tasks := by
  induction tasks generalizing i s with
  | nil => rfl
  | cons first rest ih =>
      cases i with
      | zero =>
          obtain rfl : first = t := by simpa using ht
          simp [upshot_cons, hs.awaits, hne, answered_settles hs]
      | succ j =>
          rw [List.set_cons_succ, upshot_cons, upshot_cons]
          refine ih (by simpa using ht) ?_
          split
          · rwa [number_answered]
          · exact hne

/-- Completing satisfied tasks leaves nobody with more or less to do. -/
theorem upshot_run (tasks : List Task) (s : Seat) :
    s.upshot (Queue.run tasks).tasks = s.upshot tasks := by
  induction tasks generalizing s with
  | nil => rfl
  | cons t rest ih =>
      unfold Queue.run
      split
      · rw [upshot_cons, upshot_cons, ih]
      · split
        · next hs =>
          have hopen : ({ t with completed := true } : Task).awaits s.number = false := by
            simp [Task.awaits]
          simp [upshot_cons, Task.awaits_of_isSatisfied hs, hopen, ih]
        · rfl

end Seat

namespace Hand

variable {setup : Setup} {h h' : Hand} {s : Seat} {r : Hand × Option Phase}

/-- What a gate leaves as it is, apart from last action and time. -/
def setting (h : Hand) : Hand := { h.undated with seats := [], tasks := [] }

theorem setting_mapSeats (h : Hand) (f : Seat → Seat) : (h.mapSeats f).setting = h.setting := rfl

theorem setting_setTask (h : Hand) (i : Nat) (t : Task) : (h.setTask i t).setting = h.setting := rfl

theorem setting_noted (h : Hand) (place : Nat) (action : Action) (value : Int) :
    (h.noted place action value).setting = h.setting := rfl

variable [Counting]

/-- The hand once every seat has satisfied its entries, without what it offers. -/
def upshot (h : Hand) : Hand := { h.mapSeats (Seat.upshot h.tasks) with tasks := [] }.bare

theorem upshot_of_tasks (hnil : h.tasks = []) : h.upshot = h.bare := by
  have hsame : h.mapSeats (Seat.upshot h.tasks) = h := by
    rw [hnil]
    exact congrArg (fun seats => { h with seats := seats }) (List.map_id' h.seats)
  rw [upshot, hsame, ← hnil]

/-- Only what the seats come to matters. -/
theorem upshot_eq (hsame : h'.setting = h.setting)
    (hseats : h'.seats.map (fun s => (s.upshot h'.tasks).bare) =
      h.seats.map fun s => (s.upshot h.tasks).bare) : h'.upshot = h.upshot := by
  have hupshot : ∀ g : Hand, g.upshot =
      { g.undated with seats := g.seats.map fun s => (s.upshot g.tasks).bare, tasks := [] } := by
    intro g
    simp only [upshot, bare, undated, mapSeats, List.map_map]
    rfl
  rw [hupshot, hupshot, hseats]
  exact congrArg (fun g : Hand =>
    { g with seats := h.seats.map fun s => (Seat.upshot h.tasks s).bare }) hsame

/-- One seat that answers the first task that waits for it leaves the upshot as it is. -/
theorem upshot_noted {i : Nat} {t t' : Task} {f : Seat → Seat} {action : Action}
    (hn : Numbered h.seats) (hs : s ∈ h.seats) (hi : Queue.firstFor? h.tasks s.number = some i)
    (ht : h.tasks[i]? = some t) (hsettles : t.Settles s.number t')
    (hanswer : { f s with did := some action } = s.answered t)
    (hnumber : ∀ r, (f r).number = r.number) (hother : ∀ r, r.number ≠ s.number → f r = r)
    (value : Int) :
    (((h.setTask i t').mapSeats f).noted s.number action value).upshot = h.upshot := by
  refine upshot_eq ?_ ?_
  · rw [setting_noted, setting_mapSeats, setting_setTask]
  · show ((h.seats.map f).map _).map _ = _
    rw [List.map_map, List.map_map]
    refine List.map_congr_left fun r hr => ?_
    show (Seat.upshot (h.tasks.set i t') (if (f r).number = s.number then _ else f r)).bare = _
    by_cases hsame : r.number = s.number
    · obtain rfl := hn.eq_of_number hr hs hsame
      rw [if_pos (hnumber r), ← Seat.upshot_set_self hi ht hsettles, ← hanswer]
    · rw [hother r hsame, if_neg hsame, Seat.upshot_set_other ht hsettles hsame]

theorem Serves.upshot (hserves : h.Serves s h') (hn : Numbered h.seats) (hs : s ∈ h.seats) :
    h'.upshot = h.upshot := by
  cases hserves with
  | @excused i t t' action hi ht hawaits hsettles haction =>
      have hsame : (h.setTask i t').mapSeats (fun r => r) = h.setTask i t' :=
        congrArg (fun seats => { h.setTask i t' with seats := seats }) (List.map_id' h.seats)
      have hanswer : { s with did := some action } = s.answered t := by
        rcases haction with ⟨rfl, hstack⟩ | ⟨rfl, hstack, hready⟩
        · simp [Seat.answered, hstack]
        · simp [Seat.answered, hstack, hready]
      rw [← hsame]
      exact upshot_noted hn hs hi ht hsettles hanswer (fun _ => rfl) (fun _ _ => rfl) 0
  | @paid i t t' chips hi ht hawaits hsettles hstack hpayment howed =>
      have hanswer : { paidBy s.number t.due chips s with did := some .pay } = s.answered t := by
        simp [Seat.answered, hstack, hpayment, howed, paidBy]
      have hnumber : ∀ r, (paidBy s.number t.due chips r).number = r.number := fun r =>
        (paidBy_same s.number t.due chips r).2.1
      exact upshot_noted hn hs hi ht hsettles hanswer hnumber (fun r hne => if_neg hne) chips

theorem runQueue_upshot (hr : h.runQueue = .ok r) : r.1.upshot = h.upshot := by
  simp only [runQueue] at hr
  split at hr
  · next hdrained =>
    have hseats : ∀ s ∈ h.seats, s.upshot h.tasks = s := fun s _ =>
      Seat.upshot_of_forall (Queue.awaits_of_drained hdrained s.number)
    have hupshot : { h with tasks := [] }.upshot = h.upshot :=
      upshot_eq rfl (List.map_congr_left fun s hs => by rw [hseats s hs]; rfl)
    split at hr
    all_goals cases hr <;> exact hupshot
  · obtain rfl := Except.ok.inj hr
    refine upshot_eq rfl ?_
    show (h.seats.map _).map _ = _
    rw [List.map_map]
    refine List.map_congr_left fun s _ => ?_
    show (Seat.upshot (Queue.run h.tasks).tasks { s with allowed := _ }).bare = _
    rw [Seat.upshot_run, ← Seat.upshot_bare, ← Seat.upshot_bare]
    rfl

/-- Satisfying entries one after the other does not change what the gate comes to. -/
theorem Served.upshot (hserved : Served h r) (hg : h.AtGate setup) : r.1.upshot = h.upshot := by
  induction hserved with
  | once hs hserves hrun =>
      have htable := hg.gated.collecting.table
      exact (runQueue_upshot hrun).trans (hserves.upshot htable.numbered hs)
  | more hs hserves hrun _ ih =>
      have htable := hg.gated.collecting.table
      have hfirst := (runQueue_upshot hrun).trans (hserves.upshot htable.numbered hs)
      exact (ih (hserves.stays hg hs hrun).1).trans hfirst

end Hand

end PokerHand
