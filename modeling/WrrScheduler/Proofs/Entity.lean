/-
What the operations leave of a WRR entity.

An operation that moves a task between queues writes the links of its entity, and a
wake-up the timeout as well.  Whatever is read of an entity without looking at those
is left alone, by every operation but a tick and a fork.
-/
import WrrScheduler.Proofs.WrrQueue

namespace WrrScheduler

/-- What is read of an entity does not depend on its links. -/
structure IgnoresLinks {β : Type} (flags : EnqueueFlags) (read : SchedWrrEntity → β) : Prop where
  link : ∀ w, read (View.linkEntity flags w) = read w
  unlink : ∀ w, read (View.unlinkEntity w) = read w

variable {m : Machine} {s t : State}

namespace View

variable {v v' : View} {p q : Pid} {flags : EnqueueFlags} {β : Type} {read : SchedWrrEntity → β}

theorem entity_modAttr (f : Attr → Attr) : ((v.modAttr p f).tasks q).wrr = (v.tasks q).wrr := by
  by_cases hqp : q = p
  · subst hqp
    simp [modAttr, modTask]
  · simp [modAttr, modTask, hqp]

theorem entity_modEntity (f : SchedWrrEntity → SchedWrrEntity) :
    ((v.modEntity p f).tasks q).wrr = if q = p then f (v.tasks p).wrr else (v.tasks q).wrr := by
  by_cases hqp : q = p
  · subst hqp
    simp [modEntity, modTask]
  · simp [modEntity, modTask, hqp]

theorem readEntity_modEntity {f : SchedWrrEntity → SchedWrrEntity} (hf : ∀ w, read (f w) = read w) :
    read ((v.modEntity p f).tasks q).wrr = read (v.tasks q).wrr := by
  rw [entity_modEntity]
  split
  · rename_i hqp
    rw [hf, hqp]
  · rfl

theorem readEntity_enqueue (hread : IgnoresLinks flags read) :
    read ((v.enqueue flags p).tasks q).wrr = read (v.tasks q).wrr := by
  unfold enqueue
  split
  · exact readEntity_modEntity hread.link
  · rfl
  · rfl
  · rfl

theorem readEntity_dequeue (hread : IgnoresLinks flags read) :
    read ((v.dequeue p).tasks q).wrr = read (v.tasks q).wrr := by
  unfold dequeue
  split
  · exact readEntity_modEntity hread.unlink
  · rfl
  · rfl
  · rfl

theorem readEntity_requeueWrr (hread : IgnoresLinks {} read) :
    read ((v.requeueWrr p).tasks q).wrr = read (v.tasks q).wrr := readEntity_modEntity hread.link

theorem readEntity_detached (hread : IgnoresLinks flags read) (f : Attr → Attr) :
    read ((v.detached flags p f).tasks q).wrr = read (v.tasks q).wrr := by
  unfold detached
  split
  · rw [readEntity_enqueue hread, entity_modAttr, readEntity_dequeue hread]
  · rw [entity_modAttr]

theorem readEntity_setUserNice (hread : IgnoresLinks {} read) (nice : Int) :
    read ((v.setUserNice p nice).tasks q).wrr = read (v.tasks q).wrr := by
  unfold setUserNice
  split
  · rfl
  · split
    · rw [entity_modAttr]
    · exact readEntity_detached hread _

theorem readEntity_normalizeOne (hread : IgnoresLinks {} read) :
    read ((v.normalizeOne p).tasks q).wrr = read (v.tasks q).wrr := by
  unfold normalizeOne
  split
  · rfl
  · split
    · split
      · exact readEntity_setUserNice hread 0
      · rfl
    · exact readEntity_detached hread _

theorem readEntity_setschedulerStep (hread : IgnoresLinks {} read) {policy : BitVec 32} {prio : Int}
    (h : v.SetschedulerStep p policy prio v') : read (v'.tasks q).wrr = read (v.tasks q).wrr := by
  rcases h with rfl | ⟨c, -, rfl⟩
  · rfl
  · exact readEntity_detached hread _

theorem readEntity_setStop (stop : Option Pid) :
    ((v.setStop stop).tasks q).wrr = (v.tasks q).wrr := by
  unfold setStop
  simp only []
  split
  · rfl
  · exact entity_modAttr _

/-! ### Waking up -/

/-- A wake-up puts a task on the WRR queue. -/
def wakesWrr (p : Pid) (v : View) : Bool := !(v.tasks p).onRq && v.cls p = .wrr

theorem entity_wake_of_not (h : v.wakesWrr p = false) :
    ((v.wake p).tasks q).wrr = (v.tasks q).wrr := by
  unfold wake
  rw [entity_modAttr]
  split
  · rfl
  · rename_i hon
    rw [entity_modAttr]
    unfold enqueue
    split
    · rename_i hcls
      simp [wakesWrr, hon, hcls] at h
    · rfl
    · rfl
    · rfl

theorem readEntity_wake (hread : IgnoresLinks { wakeup := true } read) :
    read ((v.wake p).tasks q).wrr = read (v.tasks q).wrr := by
  unfold wake
  rw [entity_modAttr]
  split
  · rfl
  · rw [entity_modAttr, readEntity_enqueue hread]

/-- Such a wake-up sets the timeout back. -/
theorem timeout_wake (h : v.wakesWrr p = true) : ((v.wake p).tasks p).wrr.timeout = 0 := by
  simp only [wakesWrr, Bool.and_eq_true, Bool.not_eq_true', decide_eq_true_eq] at h
  unfold wake
  rw [entity_modAttr, if_neg (by simp [h.1]), entity_modAttr]
  unfold enqueue
  rw [h.2]
  show ((v.modEntity p (linkEntity { wakeup := true })).tasks p).wrr.timeout = 0
  rw [entity_modEntity, if_pos rfl]
  rfl

/-- Waking another task leaves the entity alone. -/
theorem entity_wake_of_ne (hqp : q ≠ p) : ((v.wake p).tasks q).wrr = (v.tasks q).wrr := by
  have hspares : v.Spares {p} (v.wake p) := .wake (Set.mem_singleton p)
  rw [hspares.tasks q hqp]

/-- The wake-up of a worker by one that goes to sleep puts a task on the WRR queue. -/
def wakesWorkerWrr (p : Pid) (preemptActive : Bool) (worker : Option Pid) (v : View) : Bool :=
  (v.tasks v.curr).state ≠ taskRunning && !preemptActive &&
    !signalPendingState (v.tasks v.curr).state (v.tasks v.curr).toAttr &&
    worker = some p && p ≠ v.curr && (v.tasks p).state &&& taskNormal ≠ 0 && v.wakesWrr p

/-- The running task, off its queue. -/
def offQueue (v : View) : View := (v.dequeue v.curr).modAttr v.curr fun t => { t with onRq := false }

theorem attr_offQueue (hq : q ≠ v.curr) : v.offQueue.attr q = v.attr q := by
  unfold offQueue
  rw [attr_modAttr, if_neg hq, attr_dequeue]

theorem wakesWrr_offQueue (hq : q ≠ v.curr) : v.offQueue.wakesWrr q = v.wakesWrr q := by
  have hattr := attr_offQueue hq
  show (!(v.offQueue.attr q).onRq && (v.offQueue.attr q).schedClass = .wrr) = _
  rw [hattr]
  rfl

theorem readEntity_offQueue (hread : IgnoresLinks flags read) :
    read (v.offQueue.tasks q).wrr = read (v.tasks q).wrr := by
  unfold offQueue
  rw [entity_modAttr, readEntity_dequeue hread]

theorem curr_offQueue : v.offQueue.curr = v.curr := frame_dequeue.curr

theorem readEntity_putToSleep (hread : IgnoresLinks {} read) {preemptActive : Bool}
    {worker : Option Pid} (hwake : IgnoresLinks { wakeup := true } read ∨
      v.wakesWorkerWrr q preemptActive worker = false) :
    read ((v.putToSleep preemptActive worker).tasks q).wrr = read (v.tasks q).wrr := by
  unfold putToSleep
  simp only []
  split
  · rename_i hstate
    split
    · rw [entity_modAttr]
    · rename_i hpending
      show read ((v.offQueue.wakeWorker worker).tasks q).wrr = _
      cases worker with
      | none => exact readEntity_offQueue hread
      | some p =>
          rw [wakeWorker, curr_offQueue]
          split
          · exact readEntity_offQueue hread
          · rename_i hp
            split
            · exact readEntity_offQueue hread
            · rename_i hsleeps
              by_cases hqp : q = p
              · subst hqp
                rcases hwake with hread' | hno
                · rw [readEntity_wake hread', readEntity_offQueue hread]
                · have hstate' : ((v.offQueue.attr q).state &&& taskNormal = 0) ↔
                      ((v.attr q).state &&& taskNormal = 0) := by rw [attr_offQueue hp]
                  have hwakes : v.wakesWrr q = false := by
                    rw [wakesWorkerWrr, hstate] at hno
                    have hne : (v.tasks q).state &&& taskNormal ≠ 0 := fun h => hsleeps (hstate'.mpr h)
                    simpa [hpending, hp, hne] using hno
                  rw [entity_wake_of_not (by rw [wakesWrr_offQueue hp, hwakes]),
                    readEntity_offQueue hread]
              · rw [entity_wake_of_ne hqp, readEntity_offQueue hread]
  · rfl

/-- The timeout of a worker that is put on the WRR queue so. -/
theorem timeout_putToSleep {preemptActive : Bool} {worker : Option Pid}
    (h : v.wakesWorkerWrr p preemptActive worker = true) :
    ((v.putToSleep preemptActive worker).tasks p).wrr.timeout = 0 := by
  simp only [wakesWorkerWrr, Bool.and_eq_true, decide_eq_true_eq] at h
  obtain ⟨⟨⟨⟨⟨hstate, hpending⟩, rfl⟩, hp⟩, hsleeps⟩, hwakes⟩ := h
  unfold putToSleep
  simp only []
  rw [if_pos (by simpa using hstate), if_neg (by simpa using hpending)]
  show ((v.offQueue.wakeWorker (some p)).tasks p).wrr.timeout = 0
  have hstate' : (v.offQueue.tasks p).state = (v.tasks p).state :=
    congrArg Attr.state (attr_offQueue hp)
  rw [wakeWorker, curr_offQueue, if_neg hp, if_neg (by rw [hstate']; exact hsleeps)]
  exact timeout_wake (by rw [wakesWrr_offQueue hp, hwakes])

end View

/-- `__schedule` on views, with the worker it wakes. -/
theorem view_schedule {preemptActive : Bool} (hstep : step m s (.schedule preemptActive) = some t) :
    t.view = { s.view.putToSleep preemptActive (wokenWorker m s) with curr := t.rq.curr } := by
  obtain ⟨next, s', hpick, rfl⟩ := schedule_of_step hstep
  have hview := view_switchTo_pick hpick
  have hcurr : (switchTo next s').rq.curr = next := congrArg View.curr hview
  rw [hview, view_corePutPrevTask, view_putToSleep, hcurr]

end WrrScheduler
