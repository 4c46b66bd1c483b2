/-
What the operations do to the attributes of tasks.

Queues, slices and links come and go with every enqueue, but an attribute changes
only where `core.c` assigns it.  So for the attributes an operation on the run
queue is nothing, detaching and re-attaching a task around a change is the change,
and what every task keeps (`TaskLegal`) need only be checked against the handful
of assignments.
-/
import WrrScheduler.Proofs.RunQueue
import WrrScheduler.Proofs.Simulation

namespace WrrScheduler

/-- Who runs, who idles, who stops, and which tasks there are. -/
structure View.Frame (v v' : View) : Prop where
  tasklist : v'.tasklist = v.tasklist
  curr : v'.curr = v.curr
  idle : v'.idle = v.idle
  stop : v'.stop = v.stop

namespace View

variable {v : View} {p q : Pid} {flags : EnqueueFlags}

theorem Frame.trans {v v' v'' : View} (h : v.Frame v') (h' : v'.Frame v'') : v.Frame v'' :=
  ⟨h'.tasklist.trans h.tasklist, h'.curr.trans h.curr, h'.idle.trans h.idle, h'.stop.trans h.stop⟩

theorem Frame.refl (v : View) : v.Frame v := ⟨rfl, rfl, rfl, rfl⟩

theorem frame_modTask (f : Task → Task) : v.Frame (v.modTask p f) := ⟨rfl, rfl, rfl, rfl⟩

theorem frame_enqueue : v.Frame (v.enqueue flags p) := by
  unfold enqueue
  split <;> exact ⟨rfl, rfl, rfl, rfl⟩

theorem frame_dequeue : v.Frame (v.dequeue p) := by
  unfold dequeue
  split <;> exact ⟨rfl, rfl, rfl, rfl⟩

theorem frame_detached (f : Attr → Attr) : v.Frame (v.detached flags p f) := by
  unfold detached
  split
  · exact frame_dequeue.trans ((frame_modTask _).trans frame_enqueue)
  · exact frame_modTask _

theorem frame_wake : v.Frame (v.wake p) := by
  unfold wake
  split
  · exact frame_modTask _
  · exact (frame_enqueue.trans (frame_modTask _)).trans (frame_modTask _)

theorem frame_wakeWorker (worker : Option Pid) : v.Frame (v.wakeWorker worker) := by
  cases worker with
  | none => exact Frame.refl v
  | some p =>
      rw [wakeWorker]
      split
      · exact Frame.refl v
      · split
        · exact Frame.refl v
        · exact frame_wake

theorem frame_putToSleep (preemptActive : Bool) (worker : Option Pid) :
    v.Frame (v.putToSleep preemptActive worker) := by
  unfold putToSleep
  simp only []
  split
  · split
    · exact frame_modTask _
    · exact (frame_dequeue.trans (frame_modTask _)).trans (frame_wakeWorker worker)
  · exact Frame.refl v

theorem frame_setUserNice (nice : Int) : v.Frame (v.setUserNice p nice) := by
  unfold setUserNice
  split
  · exact Frame.refl v
  · split
    · exact frame_modTask _
    · exact frame_detached _

theorem frame_normalizeOne : v.Frame (v.normalizeOne p) := by
  unfold normalizeOne
  split
  · exact Frame.refl v
  · split
    · split
      · exact frame_setUserNice 0
      · exact Frame.refl v
    · exact frame_detached _

/-! ### Attributes -/

theorem attr_modAttr (f : Attr → Attr) :
    (v.modAttr p f).attr q = if q = p then f (v.attr p) else v.attr q := by
  by_cases hqp : q = p
  · subst hqp
    simp [modAttr, modTask, attr]
  · simp [modAttr, modTask, attr, hqp]

theorem attr_modEntity (f : SchedWrrEntity → SchedWrrEntity) :
    (v.modEntity p f).attr q = v.attr q := by
  by_cases hqp : q = p
  · subst hqp
    simp [modEntity, modTask, attr]
  · simp [modEntity, modTask, attr, hqp]

theorem attr_enqueue : (v.enqueue flags p).attr q = v.attr q := by
  unfold enqueue
  split
  · exact attr_modEntity (linkEntity flags)
  · rfl
  · rfl
  · rfl

theorem attr_dequeue : (v.dequeue p).attr q = v.attr q := by
  unfold dequeue
  split
  · exact attr_modEntity unlinkEntity
  · rfl
  · rfl
  · rfl

theorem attr_requeueWrr : (v.requeueWrr p).attr q = v.attr q := attr_modEntity (linkEntity {})

/-- **Detach, change, re-attach** is the change. -/
theorem attr_detached (f : Attr → Attr) :
    (v.detached flags p f).attr q = if q = p then f (v.attr p) else v.attr q := by
  unfold detached
  split
  · rw [attr_enqueue, attr_modAttr, attr_dequeue, attr_dequeue]
  · exact attr_modAttr f

/-- The attributes of a task that was woken. -/
def wakeAttr (t : Attr) : Attr := { t with onRq := true, state := taskRunning }

theorem attr_wake : (v.wake p).attr q = if q = p then wakeAttr (v.attr p) else v.attr q := by
  unfold wake
  rw [attr_modAttr]
  by_cases hon : (v.tasks p).onRq = true
  · have hattr : (v.attr p).onRq = true := hon
    rw [if_pos hon]
    by_cases hqp : q = p
    · subst hqp
      rw [if_pos rfl, if_pos rfl, wakeAttr, ← hattr]
    · rw [if_neg hqp, if_neg hqp]
  · rw [if_neg hon, attr_modAttr, attr_enqueue, attr_modAttr, attr_enqueue]
    by_cases hqp : q = p
    · subst hqp
      rw [if_pos rfl, if_pos rfl, if_pos rfl, wakeAttr]
    · rw [if_neg hqp, if_neg hqp, if_neg hqp, attr_enqueue]

theorem attr_watchWrr : (v.watchWrr p).attr q = v.attr q := by
  unfold watchWrr
  split
  · rfl
  · exact attr_modEntity _

theorem attr_expireWrr (m : Machine) : (v.expireWrr m p).attr q = v.attr q := by
  unfold expireWrr
  simp only []
  split
  · rw [attr_requeueWrr]
    exact attr_modEntity (refill m _)
  · exact attr_modEntity (refill m _)

theorem attr_tickWrr (m : Machine) : (v.tickWrr m p).attr q = v.attr q := by
  unfold tickWrr
  simp only []
  split
  · exact attr_watchWrr
  · split
    · rw [attr_modEntity, attr_watchWrr]
    · rw [attr_expireWrr, attr_modEntity, attr_watchWrr]

theorem frame_tickWrr (m : Machine) : v.Frame (v.tickWrr m p) := by
  have hwatch : v.Frame (v.watchWrr p) := by
    unfold watchWrr
    split
    · exact Frame.refl _
    · exact frame_modTask _
  have hexpire : ∀ v : View, v.Frame (v.expireWrr m p) := by
    intro v
    unfold expireWrr
    simp only []
    split <;> exact ⟨rfl, rfl, rfl, rfl⟩
  unfold tickWrr
  simp only []
  split
  · exact hwatch
  · split
    · exact hwatch.trans (frame_modTask _)
    · exact (hwatch.trans (frame_modTask _)).trans (hexpire _)

/-! ### Waking and sleeping

They write `state` and `on_rq`, so anything else read off a task stays.  `read` is
whatever is read: the policy, the class, a pair of them.  A caller says once that its
reading does not depend on the two fields, and has the lemma for every operation that
writes no others.
-/

section Reads

variable {β : Type*} {read : Attr → β}

theorem read_wake (hread : ∀ a b n, read { a with onRq := b, state := n } = read a) :
    read ((v.wake p).attr q) = read (v.attr q) := by
  rw [attr_wake]
  split
  · rename_i hqp
    rw [hqp]
    exact hread _ true taskRunning
  · rfl

theorem read_wakeWorker (hread : ∀ a b n, read { a with onRq := b, state := n } = read a)
    (worker : Option Pid) : read ((v.wakeWorker worker).attr q) = read (v.attr q) := by
  cases worker with
  | none => rfl
  | some p =>
      rw [wakeWorker]
      split
      · rfl
      · split
        · rfl
        · exact read_wake hread

theorem read_modAttr {f : Attr → Attr} (hf : ∀ a, read (f a) = read a) :
    read ((v.modAttr p f).attr q) = read (v.attr q) := by
  rw [attr_modAttr]
  split
  · rename_i hqp
    rw [hqp, hf]
  · rfl

theorem read_detached {f : Attr → Attr} (hf : ∀ a, read (f a) = read a) :
    read ((v.detached flags p f).attr q) = read (v.attr q) := by
  rw [attr_detached]
  split
  · rename_i hqp
    rw [hqp, hf]
  · rfl

/-- `set_user_nice` writes the three priorities and nothing else. -/
theorem read_setUserNice (hread : ∀ a x y z,
      read { a with staticPrio := x, normalPrio := y, prio := z } = read a) (nice : Int) :
    read ((v.setUserNice p nice).attr q) = read (v.attr q) := by
  unfold setUserNice
  split
  · rfl
  · split
    · exact read_modAttr fun a => hread a _ a.normalPrio a.prio
    · exact read_detached fun a => hread a _ _ _

theorem read_putToSleep (hread : ∀ a b n, read { a with onRq := b, state := n } = read a)
    (preemptActive : Bool) (worker : Option Pid) :
    read ((v.putToSleep preemptActive worker).attr q) = read (v.attr q) := by
  unfold putToSleep
  simp only []
  split
  · split
    · exact read_modAttr fun a => hread a a.onRq taskRunning
    · refine (read_wakeWorker hread worker).trans ?_
      rw [read_modAttr fun a => hread a false a.state, attr_dequeue]
  · rfl

end Reads

end View

/-- The operations that write no more of a task's attributes than `state` and `on_rq`. -/
def Op.plain : Op → Bool
  | .tryToWakeUp _ _ | .wakeUpNewTask _ | .schedule _ | .schedYield | .schedulerTick
  | .schedRrGetInterval _ | .doSchedRtPeriodTimer _ _ | .setCurrentState _ | .releaseTask _ => true
  | _ => false

/-- **A plain operation changes nothing else.** -/
theorem read_plain_step {m : Machine} {v v' : View} {o : Op} {β : Type*} {read : Attr → β}
    (h : View.Step m v v' o) (ho : o.plain = true)
    (hread : ∀ a b n, read { a with onRq := b, state := n } = read a) (q : Pid) :
    read (v'.attr q) = read (v.attr q) := by
  cases o with
  | tryToWakeUp p state =>
      rw [h]
      split
      · rfl
      · exact View.read_wake hread
  | wakeUpNewTask p =>
      rw [h, View.read_modAttr fun a => hread a true a.state, View.attr_enqueue]
  | schedule preemptActive =>
      obtain ⟨worker, next, -, rfl⟩ := h
      exact View.read_putToSleep hread preemptActive worker
  | schedYield =>
      rw [h]
      split
      · rw [View.attr_requeueWrr]
      · rfl
  | schedulerTick =>
      rw [h]
      split
      · rw [View.attr_tickWrr]
      · rfl
  | schedRrGetInterval p =>
      rw [h]
      split <;> rfl
  | doSchedRtPeriodTimer g overrun =>
      rw [h]
  | setCurrentState state =>
      rw [h]
      exact View.read_modAttr fun a => hread a a.onRq state
  | releaseTask p =>
      rw [h]
      rfl
  | schedFork | schedSetscheduler | rtMutexSetprio | setUserNice | schedMoveTask
  | normalizeRtTasks | schedSetStopTask | initIdleBootupTask | foreign => cases ho

/-- No operation changes which task is idle. -/
theorem idle_step {m : Machine} {v v' : View} {o : Op} (h : View.Step m v v' o) :
    v'.idle = v.idle := by
  have hset : ∀ {p : Pid} {policy : BitVec 32} {prio : Int} {v' : View},
      v.SetschedulerStep p policy prio v' → v'.idle = v.idle := by
    rintro p policy prio v' (rfl | ⟨c, -, rfl⟩)
    · rfl
    · exact (View.frame_detached _).idle
  have hstop : ∀ (v : View) (stop : Option Pid), (v.setStop stop).idle = v.idle := by
    intro v stop
    unfold View.setStop
    simp only []
    split <;> rfl
  cases o with
  | tryToWakeUp p state =>
      rw [h]
      split
      · rfl
      · exact View.frame_wake.idle
  | wakeUpNewTask p =>
      rw [h]
      exact View.frame_enqueue.idle
  | schedFork child f =>
      rw [h]
      rfl
  | schedule preemptActive =>
      obtain ⟨worker, next, -, rfl⟩ := h
      exact (View.frame_putToSleep preemptActive worker).idle
  | schedYield =>
      rw [h]
      split <;> rfl
  | schedulerTick =>
      rw [h]
      split
      · exact (View.frame_tickWrr m).idle
      · rfl
  | schedSetscheduler p policy prio user who seen => exact hset h
  | rtMutexSetprio p prio =>
      rw [h]
      split
      · rfl
      · exact (View.frame_detached _).idle
  | setUserNice p nice =>
      rw [h]
      exact (View.frame_setUserNice nice).idle
  | schedMoveTask p tg =>
      rw [h]
      exact (View.frame_detached _).idle
  | normalizeRtTasks =>
      rw [h]
      have hfold : ∀ (l : List Pid) (v : View), (l.foldl View.normalizeOne v).idle = v.idle := by
        intro l
        induction l with
        | nil => exact fun _ => rfl
        | cons p l ih => exact fun v => (ih _).trans View.frame_normalizeOne.idle
      exact hfold _ v
  | schedSetStopTask stop who seen =>
      cases stop with
      | none =>
          rw [h]
          exact hstop v none
      | some p =>
          obtain ⟨w, hw, rfl⟩ := h
          have hw' := hset hw
          exact (hstop _ _).trans hw'
  | schedRrGetInterval p =>
      rw [h]
      split <;> rfl
  | doSchedRtPeriodTimer | releaseTask =>
      simp only [View.Step] at h
      rw [h]
  | initIdleBootupTask | setCurrentState | foreign =>
      simp only [View.Step] at h
      rw [h]
      rfl

end WrrScheduler
