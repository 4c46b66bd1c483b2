/-
The real-time run queues as a system of their own.

Here the functions of `rt.c` come in any order, whoever calls them: all that is
asked is that a task is enqueued with a real-time priority, and that what decides
its place on a queue does not change while it is on one.  Everything `rt.c` only
reads may change at any time: the clock, the accounting, the running task, the
bandwidth of a group and the sysctl that switches accounting off.
-/
import WrrScheduler.Kernel.Step

namespace WrrScheduler

/-- The scheduler, with the bandwidth of the groups beside it. -/
structure RtSystem where
  rtBandwidth : Gid → RtBandwidth
  sysctlSchedRtRuntime : Int
  sched : State

/-- What can happen next. -/
inductive RtOp
  | enqueueTaskRt (flags : EnqueueFlags) (p : Pid)
  | dequeueTaskRt (p : Pid)
  | requeueTaskRt (head : Bool) (p : Pid)
  | updateCurrRt
  | doSchedRtPeriodTimer (g : Gid) (overrun : Nat)
  | setAttr (p : Pid) (a : Attr)
  | tgSetRtBandwidth (g : Gid) (b : RtBandwidth)
  | sysctlSchedRtRuntime (runtime : Int)
  | elsewhere (acct : Pid → Acct) (rq : Rq)

namespace RtSystem

/-- The machine at this moment. -/
def machine (m : Machine) (s : RtSystem) : Machine :=
  { m with rtBandwidth := s.rtBandwidth, sysctlSchedRtRuntime := s.sysctlSchedRtRuntime }

/-- The run queue of a group. -/
def rtRq (s : RtSystem) (g : Gid) : RtRq := s.sched.rq.rt.rtRq g

/-- What `rt.c` reads. -/
def view (m : Machine) (s : RtSystem) : RtView := s.sched.rtView (s.machine m)

/-- Change the scheduler. -/
def modSched (s : RtSystem) (f : State → State) : RtSystem := { s with sched := f s.sched }

end RtSystem

/-- What the callers make sure of. -/
def rtCallable (s : RtSystem) : RtOp → Bool
  | .enqueueTaskRt _ p => 0 ≤ (s.sched.tasks p).prio && rtPrio (s.sched.tasks p).prio
  | .setAttr p a =>
    !s.sched.rq.rt.onRtRq (.task p) ||
      a.prio = (s.sched.tasks p).prio && a.normalPrio = (s.sched.tasks p).normalPrio &&
        a.schedTaskGroup = (s.sched.tasks p).schedTaskGroup
  | _ => true

/-- What an operation does. -/
def rtPerform (m : Machine) (s : RtSystem) : RtOp → RtSystem
  | .enqueueTaskRt flags p => s.modSched (enqueueTaskRt (s.machine m) flags p)
  | .dequeueTaskRt p => s.modSched (dequeueTaskRt (s.machine m) p)
  | .requeueTaskRt head p =>
    s.modSched fun t => t.modRt fun r => Rt.requeueTaskRt (s.view m) head r p
  | .updateCurrRt => s.modSched (updateCurrRt (s.machine m))
  | .doSchedRtPeriodTimer g overrun => s.modSched (doSchedRtPeriodTimer (s.machine m) g overrun)
  | .setAttr p a => s.modSched fun t => t.modAttr p fun _ => a
  | .tgSetRtBandwidth g b =>
    { s with
      rtBandwidth := Function.update s.rtBandwidth g b
      sched := s.sched.modRt fun r => r.modify g fun q => { q with rtRuntime := b.rtRuntime } }
  | .sysctlSchedRtRuntime runtime => { s with sysctlSchedRtRuntime := runtime }
  | .elsewhere acct rq =>
    s.modSched fun t => { t with acct := acct, rq := { rq with rt := t.rq.rt } }

/-- One step of the system. -/
def rtStep (m : Machine) (s : RtSystem) (o : RtOp) : Option RtSystem :=
  if rtCallable s o then some (rtPerform m s o) else none

/-- Run queues that have just been set up: nothing is queued, nothing has run, and each has the
runtime of its group. -/
structure RtSystem.Fresh (s : RtSystem) : Prop where
  rtRq : ∀ g, s.sched.rq.rt.rtRq g = initRtRq (s.rtBandwidth g).rtRuntime
  runList : ∀ e, s.sched.rq.rt.runList e = .self

/-- The system at boot. -/
def rtBoot (m : Machine) : RtSystem where
  rtBandwidth := m.rtBandwidth
  sysctlSchedRtRuntime := m.sysctlSchedRtRuntime
  sched := boot m

theorem fresh_rtBoot (m : Machine) : (rtBoot m).Fresh := ⟨fun _ => rfl, fun _ => rfl⟩

end WrrScheduler
