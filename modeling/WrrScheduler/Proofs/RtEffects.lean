/-
What the functions of `rt.c` do to the real-time run queues of a state.

Beside counters and time stamps, each does what `Kernel/Rt.lean` says of the run
queues alone, and none of them writes anything those functions read.
-/
import WrrScheduler.Kernel.RtSystem
import WrrScheduler.Proofs.Quiet

namespace WrrScheduler

variable {m : Machine} {s : State} {p : Pid} {g : Gid} {overrun : Nat}

namespace Rt

/-- The run queues after a turn of the period timer, for one group. -/
def afterPeriod (v : RtView) (g : Gid) (overrun : Nat) (r : Rt) : Rt :=
  let r' := r.modify g fun q => (replenish overrun q).1
  if (replenish overrun (r.rtRq g)).2 then (r'.schedRtRqEnqueue v g).1 else r'

end Rt

/-! ### Charging -/

/-- Whether `update_curr_rt` gets as far as the run queues. -/
def accountsRt (m : Machine) (s : State) : Bool :=
  s.current.schedClass = .rt && rtBandwidthEnabled m

theorem rt_updateCurrRt : (updateCurrRt m s).rq.rt =
    if accountsRt m s then (Rt.chargeRt (s.rtView m) (deltaExec s) s.rq.rt).1 else s.rq.rt := by
  unfold updateCurrRt accountsRt
  by_cases hclass : s.current.schedClass = .rt
  · by_cases hon : rtBandwidthEnabled m = true
    · rw [if_neg (by simpa using hclass), if_neg (by simpa using hon),
        if_pos (by simp [hclass, hon])]
      dsimp only
      unfold reschedTaskIf
      split <;> rfl
    · rw [if_neg (by simpa using hclass), if_pos (by simpa using hon), if_neg (by simp [hon])]
      rfl
  · rw [if_pos hclass, if_neg (by simp [hclass])]

@[simp] theorem rtView_updateCurrRt : (updateCurrRt m s).rtView m = s.rtView m :=
  rtView_of_view view_updateCurrRt

/-! ### Enqueueing and dequeueing -/

theorem rt_enqueueTaskRt (flags : EnqueueFlags) : (enqueueTaskRt m flags p s).rq.rt =
    Rt.enqueueRtEntity (s.rtView m) flags.head s.rq.rt (.task p) := by
  unfold enqueueTaskRt
  dsimp only
  split <;> rfl

theorem rt_dequeueTaskRt : (dequeueTaskRt m p s).rq.rt =
    Rt.dequeueRtEntity (s.rtView m) (updateCurrRt m s).rq.rt (.task p) := by
  rw [← @rtView_updateCurrRt m s]
  rfl

@[simp] theorem rtView_enqueueTaskRt (flags : EnqueueFlags) :
    (enqueueTaskRt m flags p s).rtView m = s.rtView m := by
  unfold enqueueTaskRt
  dsimp only
  split <;> rfl

@[simp] theorem rtView_dequeueTaskRt : (dequeueTaskRt m p s).rtView m = s.rtView m := by
  rw [← @rtView_updateCurrRt m s]
  rfl

/-! ### The period timer -/

theorem rt_replenishRtRq : (replenishRtRq g overrun s).rq.rt =
    s.rq.rt.modify g fun q => (Rt.replenish overrun q).1 := by
  unfold replenishRtRq
  dsimp only
  split <;> rfl

theorem rtView_replenishRtRq : (replenishRtRq g overrun s).rtView m = s.rtView m := by
  unfold replenishRtRq
  dsimp only
  split <;> rfl

theorem rt_doSchedRtPeriodTimer : (doSchedRtPeriodTimer m g overrun s).rq.rt =
    Rt.afterPeriod (s.rtView m) g overrun s.rq.rt := by
  unfold doSchedRtPeriodTimer Rt.afterPeriod
  dsimp only
  split
  · rw [rtView_replenishRtRq, rt_replenishRtRq]
    unfold reschedTaskIf
    split <;> rfl
  · rw [rt_replenishRtRq]

@[simp] theorem rtView_doSchedRtPeriodTimer :
    (doSchedRtPeriodTimer m g overrun s).rtView m = s.rtView m := by
  rw [← @rtView_replenishRtRq m s g overrun]
  unfold doSchedRtPeriodTimer
  dsimp only
  split
  · unfold reschedTaskIf
    split <;> rfl
  · rfl

end WrrScheduler
