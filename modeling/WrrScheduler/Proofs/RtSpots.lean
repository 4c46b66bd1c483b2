/-
Where one task is on the real-time queues.

The functions of `rt.c` move groups about, and at most the one task they are called
for.  So for any other task the number of times it stands on each queue is what it
was, whatever state the queues are in, and a task that is on none of them is enqueued
once, on the queue of its group at its priority.
-/
import WrrScheduler.Proofs.RtEffects

namespace WrrScheduler

namespace Rt

/-- How often a task is on the queue of a group at a priority. -/
def spots (r : Rt) (p : Pid) (g : Gid) (i : Int) : Nat := ((r.rtRq g).queue i).count (.task p)

/-- A task is on no queue. -/
def Nowhere (r : Rt) (p : Pid) : Prop := ∀ g i, r.spots p g i = 0

variable {v : RtView} {r : Rt} {e : RtEntity} {p q : Pid} {g : Gid}

/-! ### One entity -/

theorem spots_modify {f : RtRq → RtRq} (hf : ∀ q, (f q).queue = q.queue) :
    (r.modify g f).spots p = r.spots p := by
  funext h i
  have hq : ((r.modify g f).rtRq h).queue = (r.rtRq h).queue := by
    rw [modify_rtRq]
    split
    · rename_i hh
      rw [hf, hh]
    · rfl
  rw [spots, spots, hq]

theorem count_put (head : Bool) (x : RtEntity) (l : List RtEntity) :
    (put head e l).count x = l.count x + if e = x then 1 else 0 := by
  unfold put Sequence.add Sequence.addTail
  cases head
  · by_cases hx : e = x
    · simp [hx]
    · simp [hx]
  · by_cases hx : e = x
    · simp [hx]
    · simp [hx]

theorem spots_link (prio : Int) (head : Bool) (h : Gid) (i : Int) :
    (r.link g prio e head).spots p h i =
      r.spots p h i + if e = .task p ∧ h = g ∧ i = prio then 1 else 0 := by
  rw [spots, link_queue]
  by_cases hplace : h = g ∧ i = prio
  · obtain ⟨rfl, rfl⟩ := hplace
    rw [if_pos ⟨rfl, rfl⟩, count_put]
    simp [spots]
  · rw [if_neg hplace, if_neg fun hc => hplace hc.2]
    rfl

theorem spots_unlink_of_ne (he : e ≠ .task p) : (r.unlink e).spots p = r.spots p := by
  funext h i
  exact List.count_erase_of_ne (Ne.symm he)

/-- A task that is on no queue is not put on one by taking something off. -/
theorem Nowhere.unlink (hr : r.Nowhere p) (e : RtEntity) : (r.unlink e).Nowhere p := by
  intro h i
  have hzero : ((r.rtRq h).queue i).count (.task p) = 0 := hr h i
  have hle : (r.unlink e).spots p h i ≤ ((r.rtRq h).queue i).count (.task p) :=
    List.Sublist.count_le _ List.erase_sublist
  omega

theorem spots_rawEnqueueRtEntity (head : Bool) (hr : r.refuses e = false) (h : Gid) (i : Int) :
    (r.rawEnqueueRtEntity v head e).spots p h i =
      r.spots p h i + if e = .task p ∧ h = rtRqOfSe v e ∧ i = rtSePrio v r e then 1 else 0 := by
  rw [rawEnqueueRtEntity, if_neg (by simp [hr])]
  simp only []
  rw [spots_modify fun q => by rw [incRtTasks_queue], spots_link]

theorem spots_rawEnqueue_of_ne (head : Bool) (he : e ≠ .task p) :
    (r.rawEnqueueRtEntity v head e).spots p = r.spots p := by
  funext h i
  cases hr : r.refuses e with
  | true => rw [rawEnqueueRtEntity, if_pos hr]
  | false => rw [spots_rawEnqueueRtEntity head hr, if_neg fun hc => he hc.1, Nat.add_zero]

theorem spots_rawDequeueRtEntity :
    (r.rawDequeueRtEntity v e).spots p = (r.unlink e).spots p := by
  rw [rawDequeueRtEntity]
  refine spots_modify fun q => ?_
  rw [decRtTasks_queue]
  split <;> rfl

theorem spots_dequeueIfOn_of_ne (he : e ≠ .task p) :
    (r.dequeueIfOn v e).spots p = r.spots p := by
  unfold dequeueIfOn
  split
  · rw [spots_rawDequeueRtEntity, spots_unlink_of_ne he]
  · rfl

theorem Nowhere.dequeueIfOn (hr : r.Nowhere p) (e : RtEntity) : (r.dequeueIfOn v e).Nowhere p := by
  unfold Rt.dequeueIfOn
  split
  · intro g i
    rw [spots_rawDequeueRtEntity]
    exact hr.unlink e g i
  · exact hr

theorem spots_requeueGroup (e : RtEntity) : (r.requeueGroup v e).spots p = r.spots p := by
  unfold requeueGroup
  split
  · rfl
  · split
    · exact spots_rawEnqueue_of_ne false (by simp)
    · rfl

/-! ### An entity and those above it -/

/-- What a turn leaves alone the loop leaves alone. -/
theorem spots_foldl {f : Rt → RtEntity → Rt} {l : List RtEntity}
    (hf : ∀ r, ∀ e ∈ l, (f r e).spots p = r.spots p) : (l.foldl f r).spots p = r.spots p := by
  induction l generalizing r with
  | nil => rfl
  | cons e l ih =>
      rw [List.foldl_cons, ih fun r x hx => hf r x (List.mem_cons_of_mem _ hx),
        hf r e List.mem_cons_self]

/-- The only task among the entities of an entity is that entity. -/
theorem ne_task_of_mem (he : e ≠ .task p) {x : RtEntity} (hx : x ∈ schedRtEntities v e) :
    x ≠ .task p := by
  rintro rfl
  cases e with
  | task q =>
      rcases List.mem_cons.mp hx with hq | hx
      · exact he hq.symm
      · exact not_task_mem_groupEntities hx
  | group g => exact not_task_mem_groupEntities hx

theorem spots_dequeueRtStack_of_ne (he : e ≠ .task p) :
    (r.dequeueRtStack v e).spots p = r.spots p :=
  spots_foldl fun _ _ hx =>
    spots_dequeueIfOn_of_ne (ne_task_of_mem he (List.mem_reverse.mp hx))

theorem Nowhere.dequeueRtStack (hr : r.Nowhere p) (e : RtEntity) :
    (r.dequeueRtStack v e).Nowhere p := by
  unfold Rt.dequeueRtStack
  generalize (schedRtEntities v e).reverse = l
  induction l generalizing r with
  | nil => exact hr
  | cons x l ih => exact ih (hr.dequeueIfOn x)

theorem spots_enqueueRtEntity_of_ne (head : Bool) (he : e ≠ .task p) :
    (r.enqueueRtEntity v head e).spots p = r.spots p :=
  (spots_foldl fun _ _ hx => spots_rawEnqueue_of_ne head (ne_task_of_mem he hx)).trans
    (spots_dequeueRtStack_of_ne he)

theorem spots_dequeueRtEntity_of_ne (he : e ≠ .task p) :
    (r.dequeueRtEntity v e).spots p = r.spots p :=
  (spots_foldl fun _ x _ => spots_requeueGroup x).trans (spots_dequeueRtStack_of_ne he)

/-- **A task that is on no queue is enqueued once**, on the queue of its group at its priority. -/
theorem Nowhere.spots_enqueueTask (hr : r.Nowhere p) (head : Bool) (g : Gid) (i : Int) :
    (r.enqueueRtEntity v head (.task p)).spots p g i =
      if g = v.group p ∧ i = v.prio p then 1 else 0 := by
  have hoff : (r.dequeueRtStack v (.task p)).spots p g i = 0 := hr.dequeueRtStack (.task p) g i
  unfold enqueueRtEntity
  rw [schedRtEntities, List.foldl_cons, spots_foldl]
  · rw [spots_rawEnqueueRtEntity head rfl, hoff, Nat.zero_add]
    simp [rtRqOfSe, rtSePrio]
  · intro r x hx
    refine spots_rawEnqueue_of_ne head ?_
    rintro rfl
    exact not_task_mem_groupEntities hx

/-! ### Charging -/

theorem spots_schedRtRqDequeue : (r.schedRtRqDequeue v g).spots p = r.spots p := by
  unfold schedRtRqDequeue
  split
  · exact spots_dequeueRtEntity_of_ne (by simp)
  · rfl

theorem spots_schedRtRuntimeExceeded :
    (r.schedRtRuntimeExceeded v g).1.spots p = r.spots p := by
  have hmod : (if (v.rtBandwidth g).rtRuntime ≠ 0 then
      r.modify g fun q => { q with rtThrottled := true }
      else r.modify g fun q => { q with rtTime := 0 }).spots p = r.spots p := by
    split
    · exact spots_modify fun _ => rfl
    · exact spots_modify fun _ => rfl
  have hthrottled : ∀ r' : Rt, r'.spots p = r.spots p →
      (if rtRqThrottled (r'.rtRq g) then (r'.schedRtRqDequeue v g, true)
        else (r', false)).1.spots p = r.spots p := by
    intro r' hr'
    split
    · exact spots_schedRtRqDequeue.trans hr'
    · exact hr'
  unfold schedRtRuntimeExceeded
  simp only []
  split
  · rfl
  · split
    · rfl
    · split
      · rfl
      · split
        · exact hthrottled _ hmod
        · rfl

/-- **Charging a task moves groups only.** -/
theorem spots_chargeRt (deltaExec : BitVec 64) : (chargeRt v deltaExec r).1.spots p = r.spots p := by
  have hturn : ∀ (acc : Rt × Bool) (e : RtEntity),
      (chargeRtRq v deltaExec acc e).1.spots p = acc.1.spots p := by
    intro acc e
    unfold chargeRtRq
    simp only []
    split
    · rfl
    · rw [spots_schedRtRuntimeExceeded]
      exact spots_modify fun _ => rfl
  unfold chargeRt
  generalize schedRtEntities v (.task v.curr) = l
  suffices hfold : ∀ acc : Rt × Bool,
      (l.foldl (chargeRtRq v deltaExec) acc).1.spots p = acc.1.spots p from hfold (r, false)
  induction l with
  | nil => exact fun _ => rfl
  | cons e l ih => exact fun acc => (ih _).trans (hturn acc e)

/-! ### Requeueing, and the period timer

Requeueing takes a task off a queue and puts it on one; that these are the same queue
needs it to be in its place before.
-/

theorem spots_requeueRtEntity_of_ne (head : Bool) (he : e ≠ .task p) :
    (r.requeueRtEntity v head e).spots p = r.spots p := by
  unfold requeueRtEntity
  split
  · funext h i
    rw [spots_link, if_neg fun hc => he hc.1, spots_unlink_of_ne he, Nat.add_zero]
  · rfl

/-- A linked task that is in its place goes to the end of the queue it is on. -/
theorem spots_requeueTask (head : Bool) (hp : r.runList (.task p) = .linked →
    ∀ g i, r.spots p g i = if g = v.group p ∧ i = v.prio p then 1 else 0) :
    (r.requeueRtEntity v head (.task p)).spots p = r.spots p := by
  unfold requeueRtEntity onRtRq
  split
  · rename_i hon
    have hplace := hp (by simpa using hon)
    funext h i
    have hoff : (r.unlink (.task p)).spots p h i = r.spots p h i - 1 := List.count_erase_self
    rw [spots_link, hoff, hplace]
    simp only [rtRqOfSe, rtSePrio, true_and]
    split <;> rfl
  · rfl

/-- **Requeueing a task moves no task to another queue.** -/
theorem spots_requeueTaskRt (head : Bool) (hp : r.runList (.task p) = .linked →
    ∀ g i, r.spots p g i = if g = v.group p ∧ i = v.prio p then 1 else 0) :
    (r.requeueTaskRt v head p).spots q = r.spots q := by
  unfold requeueTaskRt
  rw [schedRtEntities, List.foldl_cons, spots_foldl]
  · by_cases hqp : q = p
    · rw [hqp]
      exact spots_requeueTask head hp
    · exact spots_requeueRtEntity_of_ne head (by simpa using Ne.symm hqp)
  · intro r x hx
    refine spots_requeueRtEntity_of_ne head ?_
    rintro rfl
    exact not_task_mem_groupEntities hx

theorem spots_schedRtRqEnqueue : (r.schedRtRqEnqueue v g).1.spots p = r.spots p := by
  unfold schedRtRqEnqueue
  split
  · dsimp only
    split
    · exact spots_enqueueRtEntity_of_ne false (by simp)
    · rfl
  · rfl

/-- **The period timer moves groups only.** -/
theorem spots_afterPeriod (overrun : Nat) : (afterPeriod v g overrun r).spots p = r.spots p := by
  have hqueue : ∀ q, (replenish overrun q).1.queue = q.queue := fun q => (replenish_keeps overrun q).1
  unfold afterPeriod
  dsimp only
  split
  · rw [spots_schedRtRqEnqueue]
    exact spots_modify hqueue
  · exact spots_modify hqueue

/-- A task that is not one of those queued is on no queue. -/
theorem TasksOk.nowhere {T : Pid → Prop} (h : TasksOk v r T) (hp : ¬ T p) : r.Nowhere p := by
  obtain ⟨Q, hok, htask⟩ := h
  intro g i
  refine List.count_eq_zero.mpr fun hmem => hp ?_
  exact (htask p).mp (hok.queued g i _ hmem)

end Rt

end WrrScheduler
