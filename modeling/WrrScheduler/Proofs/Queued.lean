/-
What the operations do to the set of runnable tasks.

`Queued m s A` joins the two halves: the view's queues hold `A`, and so do the RT
run queues.  Quiet functions keep it, `enqueue_task` and `dequeue_task` insert and
remove, and the functions that detach a task, change it and put it back end where
they began.
-/
import WrrScheduler.Proofs.RunQueue

namespace WrrScheduler

variable {m : Machine} {s s' : State} {A B : Finset Pid} {p q : Pid}

/-- The RT run queues depend on which real-time tasks there are, and on their groups. -/
theorem RtOk.frame (h : RtOk m s A) (hrt : s'.rq.rt = s.rq.rt)
    (hgroup : ∀ p ∈ A, s.view.cls p = .rt →
      (s'.tasks p).schedTaskGroup = (s.tasks p).schedTaskGroup)
    (hmem : ∀ p, (p ∈ B ∧ s'.view.cls p = .rt) ↔ (p ∈ A ∧ s.view.cls p = .rt)) :
    RtOk m s' B := by
  unfold RtOk
  rw [hrt]
  exact Rt.TasksOk.congr h rfl (fun p hp => hgroup p hp.1 hp.2) hmem

/-- The queues, the counters and the RT run queues hold exactly the tasks of `A`. -/
structure Queued (m : Machine) (s : State) (A : Finset Pid) : Prop where
  enq : s.view.Enq A
  rt : RtOk m s A

namespace Queued

theorem quiet (h : Queued m s A) (hq : Quiet m s s') : Queued m s' A :=
  ⟨by rw [hq.view]; exact h.enq, hq.rt A h.rt⟩

/-- A change of a task that no queue depends on: the links stay, and the class and the group stay
or the task is on no queue. -/
theorem modTask (h : Queued m s A) {f : Task → Task}
    (hlink : (f (s.tasks p)).wrr.runList = (s.tasks p).wrr.runList)
    (hcls : p ∈ A → (f (s.tasks p)).schedClass = (s.tasks p).schedClass)
    (hgroup : p ∈ A → (f (s.tasks p)).schedTaskGroup = (s.tasks p).schedTaskGroup) :
    Queued m (s.modTask p f) A := by
  refine ⟨h.enq.modTask hlink hcls, h.rt.frame rfl ?_ ?_⟩
  · intro q hq _
    by_cases hqp : q = p
    · subst hqp
      simpa [State.modTask] using hgroup hq
    · simp [State.modTask, hqp]
  · intro q
    refine and_congr_right ?_
    intro hq
    have hsame : (s.modTask p f).view.cls q = s.view.cls q := by
      by_cases hqp : q = p
      · subst hqp
        show ((s.modTask q f).tasks q).schedClass = (s.tasks q).schedClass
        simpa [State.modTask] using hcls hq
      · show ((s.modTask p f).tasks q).schedClass = (s.tasks q).schedClass
        simp [State.modTask, hqp]
    rw [hsame]

/-- A change of the attributes of a task that is on no queue. -/
theorem modAttr_off (h : Queued m s A) (f : Attr → Attr) (hp : p ∉ A) :
    Queued m (s.modAttr p f) A :=
  h.modTask rfl (fun hmem => absurd hmem hp) (fun hmem => absurd hmem hp)

/-- A change that keeps class and group. -/
theorem modAttr (h : Queued m s A) {f : Attr → Attr} (hcls : ∀ t, (f t).schedClass = t.schedClass)
    (hgroup : ∀ t, (f t).schedTaskGroup = t.schedTaskGroup) : Queued m (s.modAttr p f) A :=
  h.modTask rfl (fun _ => hcls _) (fun _ => hgroup _)

end Queued

/-! ### Enqueue and dequeue -/

/-- Outside the RT class, the RT run queues stay and the new task is none of theirs. -/
theorem RtOk.insert_other (h : RtOk m s A) (hrt : s'.rq.rt = s.rq.rt)
    (hsame : ∀ q, (s'.tasks q).schedClass = (s.tasks q).schedClass ∧
      (s'.tasks q).schedTaskGroup = (s.tasks q).schedTaskGroup)
    (hp : (s.tasks p).schedClass ≠ .rt) : RtOk m s' (insert p A) := by
  refine h.frame hrt (fun q _ _ => (hsame q).2) ?_
  intro q
  have hq : s'.view.cls q = s.view.cls q := (hsame q).1
  rw [hq, Finset.mem_insert]
  constructor
  · rintro ⟨rfl | hqA, hc⟩
    · exact absurd hc hp
    · exact ⟨hqA, hc⟩
  · rintro ⟨hqA, hc⟩
    exact ⟨Or.inr hqA, hc⟩

/-- And the task that leaves was none of theirs. -/
theorem RtOk.erase_other (h : RtOk m s A) (hrt : s'.rq.rt = s.rq.rt)
    (hsame : ∀ q, (s'.tasks q).schedClass = (s.tasks q).schedClass ∧
      (s'.tasks q).schedTaskGroup = (s.tasks q).schedTaskGroup)
    (hp : (s.tasks p).schedClass ≠ .rt) : RtOk m s' (A.erase p) := by
  refine h.frame hrt (fun q _ _ => (hsame q).2) ?_
  intro q
  have hq : s'.view.cls q = s.view.cls q := (hsame q).1
  rw [hq, Finset.mem_erase]
  constructor
  · rintro ⟨⟨-, hqA⟩, hc⟩
    exact ⟨hqA, hc⟩
  · rintro ⟨hqA, hc⟩
    refine ⟨⟨?_, hqA⟩, hc⟩
    rintro rfl
    exact hp hc

/-- Class and group of a task whose WRR entity was written. -/
theorem modWrrEntity_attr (s : State) (p q : Pid) (f : SchedWrrEntity → SchedWrrEntity) :
    ((s.modWrrEntity p f).tasks q).schedClass = (s.tasks q).schedClass ∧
      ((s.modWrrEntity p f).tasks q).schedTaskGroup = (s.tasks q).schedTaskGroup := by
  by_cases hqp : q = p
  · subst hqp
    simp [State.modWrrEntity, State.modTask]
  · simp [State.modWrrEntity, State.modTask, hqp]

theorem RtOk.enqueueTaskRt (h : RtOk m s A) (flags : EnqueueFlags)
    (hrt : (s.tasks p).schedClass = .rt) : RtOk m (enqueueTaskRt m flags p s) (insert p A) := by
  have hreset : Quiet m s (s.modRtEntity p fun e => { e with timeout := 0 }) :=
    Quiet.modAcct fun _ h => h
  have htimeout : RtOk m (if flags.wakeup then s.modRtEntity p fun e => { e with timeout := 0 }
      else s) A := (Quiet.ite hreset (Quiet.refl m s)).rt A h
  have htasks : (if flags.wakeup then s.modRtEntity p fun e => { e with timeout := 0 }
      else s).tasks = s.tasks := by
    split <;> rfl
  rw [← htasks] at hrt
  unfold WrrScheduler.enqueueTaskRt
  generalize (if flags.wakeup then s.modRtEntity p fun e => { e with timeout := 0 } else s) = s₁
    at htimeout hrt
  refine Rt.TasksOk.congr (htimeout.enqueueTask flags.head p) rfl (fun _ _ => rfl) ?_
  intro q
  rw [Finset.mem_insert]
  constructor
  · rintro ⟨rfl | hq, hc⟩
    · exact Or.inl rfl
    · exact Or.inr ⟨hq, hc⟩
  · rintro (rfl | ⟨hq, hc⟩)
    · exact ⟨Or.inl rfl, hrt⟩
    · exact ⟨Or.inr hq, hc⟩

theorem RtOk.dequeueTaskRt (h : RtOk m s A) : RtOk m (dequeueTaskRt m p s) (A.erase p) := by
  have hcharged : RtOk m (updateCurrRt m s) A := quiet_updateCurrRt.rt A h
  unfold WrrScheduler.dequeueTaskRt
  generalize updateCurrRt m s = s₁ at hcharged
  refine Rt.TasksOk.congr (Rt.TasksOk.dequeueTask hcharged p) rfl (fun _ _ => rfl) ?_
  intro q
  rw [Finset.mem_erase, and_assoc]
  exact Iff.rfl

/-- A call of an outside class, as the start of an enqueue or a dequeue. -/
private theorem outside_base (h : RtOk m s A) {c : SchedClass} (hc : (s.tasks p).schedClass = c)
    (hne : c ≠ .rt) (f : ClassFn) :
    RtOk m (outsideCall m c f p s) A ∧ ((outsideCall m c f p s).tasks p).schedClass ≠ .rt := by
  have htasks : (outsideCall m c f p s).tasks = s.tasks := tasks_of_view (view_outsideCall c f)
  refine ⟨(quiet_outsideCall c f).rt A h, ?_⟩
  rw [htasks, hc]
  exact hne

/-- **Enqueueing a task adds it to the RT run queues, or to none of them.** -/
theorem RtOk.enqueueTask (h : RtOk m s A) (flags : EnqueueFlags) :
    RtOk m (enqueueTask m flags p s) (insert p A) := by
  have hclock : RtOk m (updateRqClock m s) A := quiet_updateRqClock.rt A h
  unfold WrrScheduler.enqueueTask
  generalize updateRqClock m s = s₁ at hclock
  simp only []
  cases hc : (s₁.tasks p).schedClass with
  | rt => exact hclock.enqueueTaskRt flags hc
  | wrr =>
      refine hclock.insert_other ?_ ?_ (by simp [hc])
      · simp only [SchedClass.enqueueTask, enqueueTaskWrr]
        split <;> rfl
      · intro q
        simp only [SchedClass.enqueueTask, enqueueTaskWrr]
        split
        · have h1 := modWrrEntity_attr s₁ p q fun w => { w with timeout := 0 }
          have h2 := modWrrEntity_attr (s₁.modWrrEntity p fun w => { w with timeout := 0 }) p q
            fun w => { w with runList := .linked }
          exact ⟨h2.1.trans h1.1, h2.2.trans h1.2⟩
        · exact modWrrEntity_attr s₁ p q fun w => { w with runList := .linked }
  | stop | fair | idle =>
      obtain ⟨hout, hcls⟩ := outside_base hclock hc (by simp) .enqueueTask
      exact hout.insert_other rfl (fun _ => ⟨rfl, rfl⟩) hcls

/-- **Dequeueing a task takes it off the RT run queues, or off none of them.** -/
theorem RtOk.dequeueTask (h : RtOk m s A) : RtOk m (dequeueTask m p s) (A.erase p) := by
  have hclock : RtOk m (updateRqClock m s) A := quiet_updateRqClock.rt A h
  unfold WrrScheduler.dequeueTask
  generalize updateRqClock m s = s₁ at hclock
  simp only []
  cases hc : (s₁.tasks p).schedClass with
  | rt => exact hclock.dequeueTaskRt
  | wrr =>
      have hcharged : RtOk m (updateCurrWrr s₁) A := quiet_updateCurrWrr.rt A hclock
      have htasks : (updateCurrWrr s₁).tasks = s₁.tasks := tasks_of_view view_updateCurrWrr
      refine hcharged.erase_other rfl ?_ (by rw [htasks, hc]; simp)
      intro q
      exact modWrrEntity_attr (updateCurrWrr s₁) p q fun w => { w with runList := .self }
  | stop | fair | idle =>
      obtain ⟨hout, hcls⟩ := outside_base hclock hc (by simp) .dequeueTask
      exact hout.erase_other rfl (fun _ => ⟨rfl, rfl⟩) hcls

namespace Queued

theorem enqueueTask (h : Queued m s A) (flags : EnqueueFlags) (hp : p ∉ A)
    (hidle : (s.tasks p).schedClass ≠ .idle) :
    Queued m (enqueueTask m flags p s) (insert p A) := by
  refine ⟨?_, h.rt.enqueueTask flags⟩
  rw [view_enqueueTask]
  exact h.enq.enqueue flags hp hidle

theorem dequeueTask (h : Queued m s A) (hp : p ∈ A) : Queued m (dequeueTask m p s) (A.erase p) := by
  refine ⟨?_, h.rt.dequeueTask⟩
  rw [view_dequeueTask]
  exact h.enq.dequeue hp

theorem activateTask (h : Queued m s A) (flags : EnqueueFlags) (hp : p ∉ A)
    (hidle : (s.tasks p).schedClass ≠ .idle) :
    Queued m (activateTask m flags p s) (insert p A) := by
  have hcount : Queued m (countUninterruptible (-1) p s) A := h.quiet (quiet_countUninterruptible _)
  refine hcount.enqueueTask flags hp ?_
  rwa [tasks_of_view (@view_countUninterruptible s p (-1))]

theorem deactivateTask (h : Queued m s A) (hp : p ∈ A) :
    Queued m (deactivateTask m p s) (A.erase p) :=
  Queued.dequeueTask (h.quiet (quiet_countUninterruptible _)) hp

/-- **Detach, change, re-attach**: whatever the change, the set is the same afterwards. -/
theorem withDetached (h : Queued m s A) (hon : p ∈ A ↔ (s.tasks p).onRq = true) (running : Bool)
    (flags : EnqueueFlags) {change : State → State} {f : Attr → Attr}
    (hchange : ∀ s : State, Quiet m (s.modAttr p f) (change s))
    (hidle : ∀ t, t.schedClass ≠ .idle → (f t).schedClass ≠ .idle) :
    Queued m (withDetached m running flags p change s) A := by
  -- the change itself, on any state where the task is off every queue
  have hmid : ∀ (s : State) (B : Finset Pid), Queued m s B → p ∉ B →
      ∃ s', (if running then
          ((change (if running then (s.tasks p).schedClass.putPrevTask m p s else s)).tasks
            p).schedClass.setCurrTask m
              (change (if running then (s.tasks p).schedClass.putPrevTask m p s else s))
          else change (if running then (s.tasks p).schedClass.putPrevTask m p s else s)) = s' ∧
        Queued m s' B ∧ (s'.tasks p).toAttr = f (s.tasks p).toAttr := by
    intro s B hB hpB
    have hput : Quiet m s (if running then (s.tasks p).schedClass.putPrevTask m p s else s) :=
      Quiet.ite (quiet_classPutPrevTask _) (Quiet.refl m s)
    generalize (if running then (s.tasks p).schedClass.putPrevTask m p s else s) = s₁ at hput
    have hset : Quiet m (s₁.modAttr p f) (if running then
        ((change s₁).tasks p).schedClass.setCurrTask m (change s₁) else change s₁) :=
      (hchange s₁).trans (Quiet.ite (quiet_setCurrTask _) (Quiet.refl m _))
    refine ⟨_, rfl, ((hB.quiet hput).modAttr_off f hpB).quiet hset, ?_⟩
    rw [tasks_of_view hset.view, ← tasks_of_view hput.view]
    simp [State.modAttr, State.modTask]
  unfold WrrScheduler.withDetached
  simp only []
  by_cases honRq : (s.tasks p).onRq = true
  · have hp : p ∈ A := hon.mpr honRq
    rw [if_pos honRq, if_pos honRq]
    obtain ⟨s', hs', hqueued, htask⟩ := hmid _ _ (h.dequeueTask hp) (Finset.notMem_erase p A)
    rw [hs', ← Finset.insert_erase hp]
    refine hqueued.enqueueTask flags (Finset.notMem_erase p A) ?_
    rw [htask]
    refine hidle _ ?_
    have hcls : ((WrrScheduler.dequeueTask m p s).tasks p).schedClass = s.view.cls p := by
      have hview : (WrrScheduler.dequeueTask m p s).view.cls p = s.view.cls p := by
        rw [view_dequeueTask, View.dequeue_cls]
      exact hview
    rw [hcls]
    exact h.enq.notIdle p hp
  · have hp : p ∉ A := fun hmem => honRq (hon.mp hmem)
    rw [if_neg honRq, if_neg honRq]
    obtain ⟨s', hs', hqueued, -⟩ := hmid s A h hp
    rwa [hs']

end Queued

end WrrScheduler
