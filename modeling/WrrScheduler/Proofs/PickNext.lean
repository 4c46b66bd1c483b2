/-
The fast path of `pick_next_task` agrees with the class walk.

`pick_next_task` asks the fair class first when `nr_running` equals the fair
class's own count.  That is sound because the run queue counts: if the two are
equal every runnable task is a fair one, so the classes above would all have
declined and left the state alone.  For the real-time class this takes the counts
of every group, because its own counter counts entities.
-/
import Mathlib.Algebra.BigOperators.Group.Finset.Basic
import WrrScheduler.Proofs.Invariant

namespace WrrScheduler

variable {m : Machine} {s t : State} {A : Finset Pid} {p : Pid}

/-! ### What the counters count -/

/-- The counters of the run queue, over the runnable tasks. -/
structure Counts (s : State) (A : Finset Pid) : Prop where
  mem : ∀ p, p ∈ A ↔ (s.tasks p).onRq = true
  nrRunning : s.rq.nrRunning =
    ∑ c ∈ forEachClass.toFinset, (A.filter fun p => (s.tasks p).schedClass = c).card
  hNrRunning : s.rq.cfs.hNrRunning = (A.filter fun p => (s.tasks p).schedClass = .fair).card
  wrrNrRunning : s.rq.wrr.wrrNrRunning = (A.filter fun p => (s.tasks p).schedClass = .wrr).card

theorem mem_forEachClass (c : SchedClass) : c ∈ forEachClass.toFinset := by
  cases c <;> decide

theorem Queued.counts (h : Queued m s A) (hiff : ∀ p, p ∈ A ↔ (s.tasks p).onRq = true) :
    Counts s A := by
  refine ⟨hiff, ?_, h.enq.hNrRunning, ?_⟩
  · have hcard : s.rq.nrRunning = A.card := h.enq.nrRunning
    rw [hcard]
    exact Finset.card_eq_sum_card_fiberwise fun p _ => mem_forEachClass _
  · have hqueue : s.rq.wrr.queue.toFinset = A.filter fun p => (s.tasks p).schedClass = .wrr := by
      ext p
      rw [List.mem_toFinset, Finset.mem_filter]
      exact h.enq.mem p
    have hcard : s.rq.wrr.queue.toFinset.card = s.rq.wrr.queue.length :=
      List.toFinset_card_of_nodup h.enq.nodup
    rw [← hqueue, hcard]
    exact h.enq.count

/-! ### The fast path

With only fair tasks queued the three classes above have nothing, and a class with
nothing declines before it writes anything.  The walk then arrives at the fair class
in the state the fast path starts from.
-/

/-- When the fair class counts all there is, every runnable task is a fair one. -/
theorem Queued.all_fair (h : Queued m s A) (heq : s.rq.nrRunning = s.rq.cfs.hNrRunning)
    (hp : p ∈ A) : (s.tasks p).schedClass = .fair := by
  have htotal : s.rq.nrRunning = A.card := h.enq.nrRunning
  have hfair : s.rq.cfs.hNrRunning = (A.filter fun p => s.view.cls p = .fair).card :=
    h.enq.hNrRunning
  have hcard : A.card ≤ (A.filter fun p => s.view.cls p = .fair).card := by omega
  have hall : A.filter (fun p => s.view.cls p = .fair) = A :=
    Finset.eq_of_subset_of_card_le (Finset.filter_subset _ A) hcard
  rw [← hall] at hp
  exact (Finset.mem_filter.mp hp).2

/-- A class without runnable tasks declines, and leaves the state alone. -/
theorem OnQueue.declines (h : OnQueue m s) {c : SchedClass} (hidle : c ≠ .idle)
    (hnone : ∀ p, (s.tasks p).onRq = true → (s.tasks p).schedClass ≠ c) :
    c.pickNextTask m s = .ok (none, s) := by
  cases c with
  | idle => exact absurd rfl hidle
  | stop | fair =>
      simp only [SchedClass.pickNextTask, pickNextTaskOutside]
      split
      · rfl
      · rename_i q _
        exact absurd q.2.1 (hnone q.1 q.2.2)
  | rt =>
      obtain ⟨A, hA, hiff⟩ := h
      have hempty : (s.rq.rt.rtRq m.tg.root).rtNrRunning = 0 := by
        refine hA.rt.root_empty ?_
        rintro p ⟨hp, hc⟩
        exact hnone p ((hiff p).mp hp) hc
      simp [SchedClass.pickNextTask, pickNextTaskRt, Rt.pickNextTask, hempty]
  | wrr =>
      have hempty : s.rq.wrr.queue = [] := by
        refine List.eq_nil_iff_forall_not_mem.mpr ?_
        intro p hp
        obtain ⟨hon, hc⟩ := h.mem_queue.mp hp
        exact hnone p hon hc
      obtain ⟨A, hA, hiff⟩ := h
      have hcount : s.rq.wrr.wrrNrRunning = s.rq.wrr.queue.length := hA.enq.count
      rw [hempty] at hcount
      simp [SchedClass.pickNextTask, pickNextTaskWrr, hcount]

/-- A class that declines leaves the state alone, so the walk goes on where it was. -/
theorem pickFromClasses_declines {c : SchedClass} {cs : List SchedClass}
    (h : c.pickNextTask m s = .ok (none, s)) :
    pickFromClasses m s (c :: cs) = pickFromClasses m s cs := by
  rw [pickFromClasses, h]

/-- A class above idle picks a task of its own. -/
theorem OnQueue.cls_of_pick (h : OnQueue m s) {c : SchedClass} (hidle : c ≠ .idle)
    (hpick : c.pickNextTask m s = .ok (some p, t)) : (s.tasks p).schedClass = c := by
  cases c with
  | idle => exact absurd rfl hidle
  | rt =>
      simp only [SchedClass.pickNextTask, pickNextTaskRt] at hpick
      split at hpick
      · cases hpick
      · cases hpick
      · rename_i heq
        cases hpick
        obtain ⟨A, hA, -⟩ := h
        exact (Rt.TasksOk.of_pick hA.rt heq).2
  | wrr =>
      simp only [SchedClass.pickNextTask, pickNextTaskWrr] at hpick
      split at hpick
      · cases hpick
      · split at hpick
        · cases hpick
        · rename_i hhead
          cases hpick
          exact (h.mem_queue.mp (List.mem_of_head? hhead)).2
  | stop | fair =>
      simp only [SchedClass.pickNextTask, pickNextTaskOutside, Except.ok.injEq] at hpick
      split at hpick
      · cases hpick
      · rename_i q _
        cases hpick
        exact q.2.1

/-- One turn of the walk: a class above idle picks a task of its own, or declines. -/
theorem OnQueue.pickFromClasses_cons (h : OnQueue m s) {c : SchedClass} {cs : List SchedClass}
    (hidle : c ≠ .idle) (hpick : pickFromClasses m s (c :: cs) = .ok (p, t)) :
    (s.tasks p).schedClass = c ∨
      (c.pickNextTask m s = .ok (none, s) ∧ pickFromClasses m s cs = .ok (p, t)) := by
  rw [pickFromClasses] at hpick
  split at hpick
  · cases hpick
  · rename_i heq
    cases hpick
    exact Or.inl (h.cls_of_pick hidle heq)
  · rename_i s' heq
    obtain rfl : s' = s := eq_of_declines heq
    exact Or.inr ⟨heq, hpick⟩

/-- **The fast path is the class walk**, in what it picks and in the state it leaves. -/
theorem OnQueue.pickNextTask_eq (h : OnQueue m s) :
    pickNextTask m s = pickFromClasses m s forEachClass := by
  unfold pickNextTask
  split
  · rename_i heq
    have hfair : ∀ p, (s.tasks p).onRq = true → (s.tasks p).schedClass = .fair := by
      intro p hon
      obtain ⟨A, hA, hiff⟩ := h
      exact hA.all_fair heq ((hiff p).mpr hon)
    have hdeclines : ∀ c : SchedClass, c ≠ .idle → c ≠ .fair →
        c.pickNextTask m s = .ok (none, s) := by
      intro c hidle hc
      refine h.declines hidle ?_
      intro p hon hpc
      exact hc (hpc.symm.trans (hfair p hon))
    have hwalk : pickFromClasses m s forEachClass = pickFromClasses m s [.fair, .idle] := by
      unfold forEachClass
      rw [pickFromClasses_declines (hdeclines .stop (by simp) (by simp)),
        pickFromClasses_declines (hdeclines .rt (by simp) (by simp)),
        pickFromClasses_declines (hdeclines .wrr (by simp) (by simp))]
    rw [hwalk, pickFromClasses]
    cases hpick : SchedClass.fair.pickNextTask m s with
    | error b => rfl
    | ok r =>
        obtain ⟨next, s'⟩ := r
        cases next with
        | some p => rfl
        | none =>
            -- the fair class declined, so it left the state as it was
            obtain rfl : s' = s := eq_of_declines hpick
            show pickFromClasses m s' forEachClass = pickFromClasses m s' [.idle]
            rw [hwalk, pickFromClasses_declines hpick]
  · rfl

/-! ### The head of the WRR queue -/

/-- Nothing above the WRR class can run: no stop task is runnable, and the RT run queue is empty or
throttled. -/
def NothingAbove (m : Machine) (s : State) : Prop :=
  (∀ p, (s.tasks p).onRq = true → (s.tasks p).schedClass ≠ .stop) ∧
    ((s.rq.rt.rtRq m.tg.root).rtNrRunning = 0 ∨ Rt.rtRqThrottled (s.rq.rt.rtRq m.tg.root) = true)

/-- **The head of the WRR queue is next**, unless something above can run. -/
theorem OnQueue.picks_head (h : OnQueue m s) (habove : NothingAbove m s)
    (hhead : s.rq.wrr.queue.head? = some p) :
    (pickNextTask m s).map Prod.fst = .ok p ∧ (s.tasks p).schedClass = .wrr := by
  have hmem : p ∈ s.rq.wrr.queue := List.mem_of_head? hhead
  have hrt : SchedClass.rt.pickNextTask m s = .ok (none, s) := by
    have hnone : Rt.pickNextTask m.tg s.rq.rt = .ok none := by
      unfold Rt.pickNextTask
      rcases habove.2 with hempty | hthrottled
      · rw [if_pos hempty]
      · rw [hthrottled]
        split <;> rfl
    simp [SchedClass.pickNextTask, pickNextTaskRt, hnone]
  have hcount : s.rq.wrr.wrrNrRunning ≠ 0 := by
    obtain ⟨A, hA, -⟩ := h
    have hlength : s.rq.wrr.wrrNrRunning = s.rq.wrr.queue.length := hA.enq.count
    have hpos : 0 < s.rq.wrr.queue.length := List.length_pos_of_mem hmem
    omega
  have hwrr : SchedClass.wrr.pickNextTask m s = .ok (some p, stampExecStart p s) := by
    simp [SchedClass.pickNextTask, pickNextTaskWrr, hcount, hhead]
  refine ⟨?_, (h.mem_queue.mp hmem).2⟩
  rw [h.pickNextTask_eq, forEachClass,
    pickFromClasses_declines (h.declines (by simp) habove.1), pickFromClasses_declines hrt,
    pickFromClasses, hwrr]
  rfl

/-! ### Runs

`__schedule` does not call `pick_next_task` between two operations but in the middle
of one, after the running task was put to sleep or back.  The invariant was shown for
that point as well.
-/

/-- The fast path agrees with the walk, and the WRR queue is served in order. -/
structure PicksOk (m : Machine) (s : State) : Prop where
  walk : pickNextTask m s = pickFromClasses m s forEachClass
  head : ∀ p, NothingAbove m s → s.rq.wrr.queue.head? = some p →
    (pickNextTask m s).map Prod.fst = .ok p ∧ (s.tasks p).schedClass = .wrr

theorem OnQueue.picksOk (h : OnQueue m s) : PicksOk m s :=
  ⟨h.pickNextTask_eq, fun _ habove hhead => h.picks_head habove hhead⟩

/-- **`pick_next_task` over whole runs**: in every state a run reaches, and at the point where
`__schedule` calls it from there, the counters are right, the fast path agrees with the walk over
the classes, and the head of the WRR queue comes before any fair task. -/
theorem picks_of_reachable (h : Reachable m s) :
    (∃ A, Counts s A) ∧ PicksOk m s ∧
      ∀ preemptActive, ∃ A,
        Counts (putPrevTask m s.rq.curr (putToSleep m preemptActive s)) A ∧
        PicksOk m (putPrevTask m s.rq.curr (putToSleep m preemptActive s)) := by
  have hinv := inv_of_reachable h
  have hcounts : ∀ s, OnQueue m s → ∃ A, Counts s A := by
    intro s hs
    obtain ⟨A, hA, hiff⟩ := hs
    exact ⟨A, hA.counts hiff⟩
  refine ⟨hcounts s hinv.queued, hinv.queued.picksOk, ?_⟩
  intro preemptActive
  have hput := hinv.onQueue_pick preemptActive
  obtain ⟨A, hA⟩ := hcounts _ hput
  exact ⟨A, hA, hput.picksOk⟩

/-- With two tasks of the class queued, the first is picked. -/
theorem picks_startTwoWrr : ∃ s, (pickNextTask (sampleMachine 10) s).map Prod.fst = .ok 1 ∧
    s.rq.wrr.queue = [1, 2] := by
  have hexec : ((Run.exec (step (sampleMachine 10)) (boot (sampleMachine 10)) startTwoWrr).any
      fun s => decide (s.rq.wrr.queue = [1, 2] ∧
        (pickFromClasses (sampleMachine 10) s forEachClass).map Prod.fst = .ok 1)) = true := by
    decide +kernel
  obtain ⟨s, hs, hqueue, hwalk⟩ := Run.exists_of_exec hexec
  refine ⟨s, ?_, hqueue⟩
  rw [(picks_of_reachable hs).2.1.walk]
  exact hwalk

end WrrScheduler
