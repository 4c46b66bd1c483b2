/-
The real-time run queues represent the set of queued tasks, at any time.

Whatever functions of `rt.c` are called, and in whatever order, every run queue
says what is on its queues and every group is queued where it belongs.  A group
that is throttled in the middle of a dequeue leaves its parent like any other, and
the period timer puts it back.  So the next task can always be found: the way down
from the root goes through groups that have entities.
-/
import Mathlib.Order.Bounds.Basic
import WrrScheduler.Proofs.RtPlaces

namespace WrrScheduler

namespace RtSystem

variable {m : Machine} {s t : RtSystem} {o : RtOp} {g : Gid}

/-- Whether an entity is on a queue. -/
def onQueue (s : RtSystem) (e : RtEntity) : Bool := s.sched.rq.rt.onRtRq e

/-- What the run queues of all groups say: each its own counts and bits, every entity is queued
once and where it belongs, and a group is queued if it has entities and is not throttled. -/
structure Represented (m : Machine) (s : RtSystem) : Prop where
  bitmap : ∀ g i, (s.rtRq g).bitmap i = true ↔ (s.rtRq g).queue i ≠ [] ∨ i = maxRtPrio
  rtNrRunning : ∀ g, (s.rtRq g).rtNrRunning = (s.rtRq g).queued
  highestPrio : ∀ g, IsLeast {i | (s.rtRq g).bitmap i = true} (s.rtRq g).highestPrio
  rtNrBoosted : ∀ g, (s.rtRq g).rtNrBoosted =
    (s.rtRq g).queuedBoosted (Rt.rtSeBoosted (s.view m) s.sched.rq.rt)
  place : ∀ e g i, e ∈ (s.rtRq g).queue i ↔ s.onQueue e = true ∧ Rt.rtRqOfSe (s.view m) e = g ∧
    Rt.rtSePrio (s.view m) s.sched.rq.rt e = i
  nodup : ∀ g i, ((s.rtRq g).queue i).Nodup
  group : ∀ g h, m.tg.parent g = some h → ∀ i, (.group g ∈ (s.rtRq h).queue i ↔
    (s.rtRq g).queued ≠ 0 ∧ Rt.rtRqThrottled (s.rtRq g) = false ∧ i = (s.rtRq g).highestPrio)

/-- Everything is in its place. -/
def Placed (m : Machine) (s : RtSystem) : Prop :=
  Rt.Placed (fun _ => False) (s.view m) s.sched.rq.rt

theorem Placed.toRepresented (hp : Placed m s) : Represented m s where
  bitmap g := (hp.counts g).bit
  rtNrRunning g := (hp.counts g).rtNrRunning
  highestPrio g := by
    have hfirst : (s.rtRq g).highestPrio = Rt.schedFindFirstBit (s.rtRq g).bitmap :=
      (hp.counts g).highestPrio
    rw [hfirst]
    constructor
    · rcases Int.lt_or_eq_of_le (Rt.schedFindFirstBit_le (s.rtRq g).bitmap) with hlt | heq
      · exact Rt.bit_schedFindFirstBit hlt
      · exact ((hp.counts g).bit _).mpr (Or.inr heq)
    · intro i hi
      rcases ((hp.counts g).bit i).mp hi with hne | rfl
      · exact Rt.schedFindFirstBit_le_of_bit ((hp.counts g).range i hne).1 hi
      · exact Rt.schedFindFirstBit_le _
  rtNrBoosted g := (hp.counts g).rtNrBoosted
  place e g i := by
    rw [onQueue, Rt.onRtRq, decide_eq_true_iff]
    exact hp.place e g i
  nodup := hp.nodup
  group g h hgh i := by
    have hsettled := hp.settled g id (by
      rw [show (s.view m).tg = m.tg from rfl, hgh]
      rfl)
    have hse : Rt.rtRqOfSe (s.view m) (.group g) = h := Rt.rtRqOfSe_group hgh
    have hcount : (s.sched.rq.rt.rtRq g).rtNrRunning = (s.rtRq g).queued := (hp.counts g).rtNrRunning
    have hplace := hp.place (.group g) h i
    rw [hsettled, hse, hcount] at hplace
    refine hplace.trans ?_
    rw [and_assoc]
    refine and_congr_right fun _ => and_congr_right fun _ => ?_
    exact (and_iff_right rfl).trans eq_comm

/-! ### Steps -/

theorem Placed.updateCurrRt (hp : Placed m s) :
    Rt.Placed (fun _ => False) (s.view m)
      (WrrScheduler.updateCurrRt (s.machine m) s.sched).rq.rt := by
  rw [rt_updateCurrRt]
  split
  · exact hp.chargeRt _
  · exact hp

/-- **One step** leaves everything in its place. -/
theorem Placed.step (hp : Placed m s) (hstep : rtStep m s o = some t) : Placed m t := by
  obtain ⟨hcall, hperform⟩ := Option.ite_none_right_eq_some.mp hstep
  obtain rfl : rtPerform m s o = t := Option.some.inj hperform
  cases o with
  | enqueueTaskRt flags p =>
      have hprio : 0 ≤ (s.view m).prio p ∧ (s.view m).prio p < maxRtPrio := by
        simpa [rtCallable, rtPrio, view, State.rtView] using hcall
      show Rt.Placed _ ((enqueueTaskRt (s.machine m) flags p s.sched).rtView (s.machine m))
        (enqueueTaskRt (s.machine m) flags p s.sched).rq.rt
      rw [rtView_enqueueTaskRt, rt_enqueueTaskRt]
      refine (Rt.Placed.enqueueRtEntity hp (e := .task p) ?_ _).mono fun k _ hk => hk.1
      rintro q ⟨⟩
      exact hprio
  | dequeueTaskRt p =>
      show Rt.Placed _ ((dequeueTaskRt (s.machine m) p s.sched).rtView (s.machine m))
        (dequeueTaskRt (s.machine m) p s.sched).rq.rt
      rw [rtView_dequeueTaskRt, rt_dequeueTaskRt]
      exact (hp.updateCurrRt.dequeueRtEntity (.task p)).mono fun k _ hk => hk.1
  | requeueTaskRt head p => exact Rt.Placed.requeueTaskRt hp head p
  | updateCurrRt =>
      show Rt.Placed _ ((WrrScheduler.updateCurrRt (s.machine m) s.sched).rtView (s.machine m))
        (WrrScheduler.updateCurrRt (s.machine m) s.sched).rq.rt
      rw [rtView_updateCurrRt]
      exact hp.updateCurrRt
  | doSchedRtPeriodTimer g overrun =>
      show Rt.Placed _ ((doSchedRtPeriodTimer (s.machine m) g overrun s.sched).rtView (s.machine m))
        (doSchedRtPeriodTimer (s.machine m) g overrun s.sched).rq.rt
      rw [rtView_doSchedRtPeriodTimer, rt_doSchedRtPeriodTimer]
      exact Rt.Placed.afterPeriod hp g overrun
  | setAttr p a =>
      refine Rt.Placed.congr hp rfl fun q hq => ?_
      by_cases hqp : q = p
      · subst hqp
        have hlinked : s.sched.rq.rt.runList (.task q) = .linked := hq
        have hsame : a.prio = (s.sched.tasks q).prio ∧ a.normalPrio = (s.sched.tasks q).normalPrio ∧
            a.schedTaskGroup = (s.sched.tasks q).schedTaskGroup := by
          simpa [rtCallable, Rt.onRtRq, hlinked, and_assoc] using hcall
        simpa [view, State.rtView, rtPerform, modSched, State.modAttr, State.modTask] using hsame
      · simp [view, State.rtView, rtPerform, modSched, State.modAttr, State.modTask, hqp]
  | tgSetRtBandwidth g b =>
      refine Rt.Placed.congr (v := s.view m) ?_ rfl fun p _ => ⟨rfl, rfl, rfl⟩
      exact Rt.Placed.modify (f := fun q => { q with rtRuntime := b.rtRuntime }) hp ⟨_, _, _, rfl⟩
        fun k _ => ⟨id, fun _ => rfl⟩
  | sysctlSchedRtRuntime runtime => exact hp
  | elsewhere acct rq => exact Rt.Placed.congr hp rfl fun p _ => ⟨rfl, rfl, rfl⟩

theorem Placed.of_fresh (hfresh : s.Fresh) : Placed m s :=
  Rt.Placed.fresh (fun g => ⟨_, hfresh.rtRq g⟩) hfresh.runList

/-- **The run queues represent what is queued, after any sequence of operations**, and picking the
next task reaches no `BUG_ON`: it ends at a queued task, unless the root has none or is throttled. -/
theorem represented (hfresh : s.Fresh) (hreach : Run.Reachable (rtStep m) s t) :
    Represented m t ∧ ∃ o, Rt.pickNextTask m.tg t.sched.rq.rt = .ok o ∧
      (o = none ↔ (t.rtRq m.tg.root).rtNrRunning = 0 ∨
        Rt.rtRqThrottled (t.rtRq m.tg.root) = true) ∧
      ∀ p, o = some p → t.onQueue (.task p) = true := by
  have hp : Placed m t :=
    Run.Reachable.invariant (Placed m) (fun _ _ _ hp hstep => hp.step hstep) hreach
      (Placed.of_fresh hfresh)
  obtain ⟨o, hpick, hnone, hsome⟩ := Rt.Placed.pickNextTask_ok hp
  refine ⟨hp.toRepresented, o, hpick, hnone, ?_⟩
  intro p hop
  rw [onQueue, Rt.onRtRq, decide_eq_true_iff]
  exact hsome p hop

/-- A `SCHED_FIFO` task of a group below the root runs past the runtime of its group and of the
root, and the period timer lets both go on. -/
def sampleThrottled : List RtOp :=
  let fifo : Attr := { (initTask (sampleMachine 0)).toAttr with
    prio := 50, normalPrio := 50, rtPriority := 49, schedClass := .rt, policy := .fifo
    schedTaskGroup := 1 }
  let rq : Rq := { (boot (sampleMachine 0)).rq with clockTask := 960000000 }
  [.setAttr 0 fifo, .enqueueTaskRt {} 0, .elsewhere (fun _ => initAcct) rq, .updateCurrRt,
    .doSchedRtPeriodTimer 1 1, .doSchedRtPeriodTimer 0 1]

theorem represented_sample : ∃ t,
    Run.Reachable (rtStep (sampleMachine 0)) (rtBoot (sampleMachine 0)) t ∧
      Represented (sampleMachine 0) t ∧ t.onQueue (.group 1) = true ∧
      Rt.pickNextTask sampleGroups t.sched.rq.rt = .ok (some 0) := by
  obtain ⟨t, hreach, hgroup, hpick⟩ := @Run.exists_of_exec _ _ (rtStep (sampleMachine 0))
    (rtBoot (sampleMachine 0)) sampleThrottled
    (fun t => t.onQueue (.group 1) = true ∧
      (Rt.pickNextTask sampleGroups t.sched.rq.rt).toOption = some (some 0)) _ (by decide +kernel)
  obtain ⟨hrep, o, ho, -, -⟩ := represented (fresh_rtBoot (sampleMachine 0)) hreach
  refine ⟨t, hreach, hrep, hgroup, ?_⟩
  have hpick' : Rt.pickNextTask sampleGroups t.sched.rq.rt = .ok o := ho
  rw [hpick'] at hpick ⊢
  exact congrArg Except.ok (Option.some.inj hpick)

end RtSystem

end WrrScheduler
