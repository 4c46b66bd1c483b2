/-
The scheduler and the task groups together.

Tasks are attached to groups, groups are created and given bandwidth, and tasks run,
fork and change their policies all the while.  What one side asks of the other is
read off the state: whether a group has real-time tasks, and whether it has runtime.

The calls are those of user space.  `sched_setscheduler` comes from the system call,
with `user` set, and a task changes its group only by being attached to a cgroup.
-/
import WrrScheduler.Kernel.TaskGroup
import WrrScheduler.Kernel.Step

namespace WrrScheduler

/-- The task groups, and the scheduler. -/
structure GroupSystem where
  groups : TaskGroups
  sched : State

/-- What can happen next. -/
inductive GroupOp
  | schedCreateGroup (parent g : Gid) (enomem : Bool)
  | schedDestroyGroup (g : Gid)
  | schedGroupSetRtRuntime (tg : Gid) (rtRuntimeUs : BitVec 32)
  | schedGroupSetRtPeriod (tg : Gid) (rtPeriodUs : BitVec 32)
  | attach (tg : Gid) (tasks : List Pid)
  | sched (o : Op)

namespace GroupSystem

/-- The machine, with the groups as they are. -/
def machine (m : Machine) (s : GroupSystem) : Machine :=
  { m with
    tg := s.groups.tree.toGroupTree
    rtBandwidth := s.groups.rtBandwidth
    sysctlSchedRtRuntime := s.groups.sysctlSchedRtRuntime.toInt }

/-- `tg_has_rt_tasks`.  It asks for the group of `task_rq(p)->rt`, which is the root's run queue
whatever group the task is in. -/
def tgHasRtTasks (s : GroupSystem) (tg : Gid) : Bool :=
  s.sched.tasklist.any fun p => rtPrio (s.sched.tasks p).prio && s.groups.tree.root = tg

/-- `sched_rt_can_attach`. -/
def schedRtCanAttach (s : GroupSystem) (tg : Gid) (p : Pid) : Bool :=
  !(rtPrio (s.sched.tasks p).prio && (s.groups.rtBandwidth tg).rtRuntime = 0)

/-- `cpu_cgroup_can_attach`. -/
def cpuCgroupCanAttach (s : GroupSystem) (tg : Gid) (tasks : List Pid) : Int :=
  if tasks.all (s.schedRtCanAttach tg) then 0 else -eInval

/-- `cpu_cgroup_attach`. -/
def cpuCgroupAttach (m : Machine) (s : GroupSystem) (tg : Gid) (tasks : List Pid) : GroupSystem :=
  { s with sched := tasks.foldl (fun t p => schedMoveTask (s.machine m) p tg t) s.sched }

/-- `init_rt_rq` and `init_tg_rt_entry` for a group, with the runtime of `alloc_rt_sched_group`. -/
def initTgRt (g : Gid) (rtRuntime : BitVec 64) (t : State) : State :=
  t.modRt fun r =>
    { rtRq := Function.update r.rtRq g (initRtRq rtRuntime)
      runList := Function.update r.runList (.group g) .self }

/-- What `tg_set_rt_bandwidth` writes to the run queue of a group. -/
def setRtRuntime (g : Gid) (rtRuntime : BitVec 64) (t : State) : State :=
  t.modRt fun r => r.modify g fun q => { q with rtRuntime := rtRuntime }

/-- A call for the groups, and what it does to the run queues if it returns no error. -/
def callGroups (s : GroupSystem) (c : GroupCall) (f : TaskGroups → State → State) :
    Option GroupSystem :=
  (groupCall s.groups c).map fun r =>
    { groups := r.2, sched := if r.1 = (0 : Int) then f r.2 s.sched else s.sched }

/-- What the callers make sure of.  A group that goes has no tasks; only a live task forks; and a
boosted priority is no worse than the task's own. -/
def callable (s : GroupSystem) : GroupOp → Bool
  | .schedCreateGroup parent g enomem => groupCallable s.groups (.schedCreateGroup parent g enomem)
  | .schedDestroyGroup g => groupCallable s.groups (.schedDestroyGroup g) &&
      (s.sched.rq.idle :: s.sched.tasklist).all fun p => (s.sched.tasks p).schedTaskGroup ≠ g
  | .schedGroupSetRtRuntime tg _ | .schedGroupSetRtPeriod tg _ => s.groups.tree.mem tg
  | .attach tg tasks => s.groups.tree.mem tg && tasks.all fun p => p ∈ s.sched.tasklist
  | .sched (.schedFork _ _) =>
    s.sched.rq.curr ∈ s.sched.tasklist || s.sched.rq.curr = s.sched.rq.idle
  | .sched (.schedSetscheduler _ _ _ user _ _) => user
  | .sched (.rtMutexSetprio p prio) => prio ≤ (s.sched.tasks p).normalPrio
  | .sched (.schedMoveTask _ _) | .sched (.schedSetStopTask _ _ _) => false
  | .sched _ => true

/-- What an operation does. -/
def perform (m : Machine) (s : GroupSystem) : GroupOp → Option GroupSystem
  | .schedCreateGroup parent g enomem =>
    s.callGroups (.schedCreateGroup parent g enomem) fun t =>
      initTgRt g (t.rtBandwidth g).rtRuntime
  | .schedDestroyGroup g => s.callGroups (.schedDestroyGroup g) fun _ => id
  | .schedGroupSetRtRuntime tg us =>
    s.callGroups (.schedGroupSetRtRuntime tg us s.tgHasRtTasks) fun t =>
      setRtRuntime tg (t.rtBandwidth tg).rtRuntime
  | .schedGroupSetRtPeriod tg us =>
    s.callGroups (.schedGroupSetRtPeriod tg us s.tgHasRtTasks) fun t =>
      setRtRuntime tg (t.rtBandwidth tg).rtRuntime
  | .attach tg tasks =>
    some (if s.cpuCgroupCanAttach tg tasks = 0 then s.cpuCgroupAttach m tg tasks else s)
  | .sched o => (step (s.machine m) s.sched o).map fun t => { s with sched := t }

/-- One step of the system. -/
def step (m : Machine) (s : GroupSystem) (o : GroupOp) : Option GroupSystem :=
  if s.callable o then s.perform m o else none

/-- The system at boot: the root group alone. -/
def boot (m : Machine) (root : Gid) : GroupSystem :=
  let groups := groupBoot root
  { groups := groups
    sched := WrrScheduler.boot { m with
      tg := groups.tree.toGroupTree, rtBandwidth := groups.rtBandwidth } }

end GroupSystem

end WrrScheduler
