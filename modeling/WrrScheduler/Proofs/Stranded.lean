/-
Real-time tasks and the runtime of their groups.

Three guards are to keep a real-time task out of a group that has no runtime: one
on attaching, one on the policy, one on the bandwidth.  The first two look at the
group the task is in or goes to.  The third asks `tg_has_rt_tasks`, which looks at
the root's run queue, so it guards the root group and no other.  What goes wrong
goes wrong there: in a run where nobody takes the runtime from a group with a
real-time task in it, no such task is ever without.
-/
import WrrScheduler.Kernel.RtGroups
import WrrScheduler.Proofs.Admission
import WrrScheduler.Proofs.Fork

namespace WrrScheduler

variable {m : Machine} {v v' : View} {p : Pid}

/-- No task with a real-time policy is in a group without runtime. -/
def NoneStranded (s : GroupSystem) : Prop :=
  ∀ p ∈ s.sched.tasklist, rtPolicy (s.sched.tasks p).policy = true →
    (s.groups.rtBandwidth (s.sched.tasks p).schedTaskGroup).rtRuntime ≠ 0

/-- An operation that takes the runtime from a group below the root, with a real-time task in it. -/
def strands (s : GroupSystem) : GroupOp → Bool
  | .schedGroupSetRtRuntime tg us =>
    TaskGroups.rtRuntimeOf us = 0 && tg ≠ s.groups.tree.root &&
      s.sched.tasklist.any fun p =>
        rtPolicy (s.sched.tasks p).policy && (s.sched.tasks p).schedTaskGroup = tg
  | _ => false

/-! ### Sheltered tasks

What the guards keep is said of views, with the groups that exist and those that have
runtime as parameters: an operation on tasks leaves the two sets, a call for groups
leaves the view.  `rt` is there for the guard on attaching, which looks at the
priority where the others look at the policy.
-/

/-- What tasks keep, given the groups there are and those with runtime: a real-time policy shows in
the priority, groups of tasks exist, and those of real-time tasks have runtime. -/
structure View.Sheltered (mem runtime : Gid → Prop) (v : View) : Prop where
  rt : ∀ p, rtPolicy (v.attr p).policy = true → rtPrio (v.attr p).prio = true
  mem : ∀ p, p ∈ v.tasklist ∨ p = v.idle → mem (v.attr p).schedTaskGroup
  runtime : ∀ p ∈ v.tasklist, rtPolicy (v.attr p).policy = true → runtime (v.attr p).schedTaskGroup

/-- What the guards read of a task. -/
def guarded (a : Attr) : Policy × Int × Gid := (a.policy, a.prio, a.schedTaskGroup)

namespace View.Sheltered

variable {mem runtime : Gid → Prop}

/-- Nothing the guards read was changed, and no task was added. -/
theorem same (h : v.Sheltered mem runtime) (hlist : ∀ p ∈ v'.tasklist, p ∈ v.tasklist)
    (hidle : v'.idle = v.idle) (hread : ∀ p, guarded (v'.attr p) = guarded (v.attr p)) :
    v'.Sheltered mem runtime := by
  have hpolicy : ∀ p, (v'.attr p).policy = (v.attr p).policy := fun p =>
    congrArg Prod.fst (hread p)
  have hprio : ∀ p, (v'.attr p).prio = (v.attr p).prio := fun p =>
    congrArg (fun r => r.2.1) (hread p)
  have hgroup : ∀ p, (v'.attr p).schedTaskGroup = (v.attr p).schedTaskGroup := fun p =>
    congrArg (fun r => r.2.2) (hread p)
  refine ⟨?_, ?_, ?_⟩
  · intro p hrt
    rw [hpolicy] at hrt
    rw [hprio]
    exact h.rt p hrt
  · intro p hp
    rw [hidle] at hp
    rw [hgroup]
    exact h.mem p (hp.imp_left (hlist p))
  · intro p hp hrt
    rw [hpolicy] at hrt
    rw [hgroup]
    exact h.runtime p (hlist p hp) hrt

/-- One task was changed, into one that is as sheltered. -/
theorem update {a : Attr} (h : v.Sheltered mem runtime) (hframe : v.Frame v')
    (hattr : ∀ q, v'.attr q = if q = p then a else v.attr q)
    (hrt : rtPolicy a.policy = true → rtPrio a.prio = true)
    (hmem : p ∈ v.tasklist ∨ p = v.idle → mem a.schedTaskGroup)
    (hruntime : p ∈ v.tasklist → rtPolicy a.policy = true → runtime a.schedTaskGroup) :
    v'.Sheltered mem runtime := by
  refine ⟨?_, ?_, ?_⟩
  · intro q
    rw [hattr]
    split
    · exact hrt
    · exact h.rt q
  · intro q hq
    rw [hframe.idle, hframe.tasklist] at hq
    rw [hattr]
    split
    · rename_i hqp
      subst hqp
      exact hmem hq
    · exact h.mem q hq
  · intro q hq
    rw [hframe.tasklist] at hq
    rw [hattr]
    split
    · rename_i hqp
      subst hqp
      exact hruntime hq
    · exact h.runtime q hq

/-- The policy of a task may change if it stays out of the real-time ones, or was in one. -/
theorem detached (h : v.Sheltered mem runtime) (flags : EnqueueFlags) {f : Attr → Attr}
    (hgroup : (f (v.attr p)).schedTaskGroup = (v.attr p).schedTaskGroup)
    (hpolicy : rtPolicy (f (v.attr p)).policy = true → rtPolicy (v.attr p).policy = true)
    (hprio : rtPolicy (f (v.attr p)).policy = true → rtPrio (f (v.attr p)).prio = true) :
    (v.detached flags p f).Sheltered mem runtime := by
  refine h.update (View.frame_detached f) (fun _ => View.attr_detached f) hprio ?_ ?_
  · rw [hgroup]
    exact h.mem p
  · rw [hgroup]
    exact fun hp hrt => h.runtime p hp (hpolicy hrt)

theorem setUserNice (h : v.Sheltered mem runtime) (nice : Int) :
    (v.setUserNice p nice).Sheltered mem runtime := by
  unfold View.setUserNice
  split
  · exact h
  · split
    · refine h.same (fun _ hp => hp) rfl fun q => ?_
      exact View.read_modAttr fun _ => rfl
    · rename_i hrt
      have hnot : rtPolicy (v.attr p).policy ≠ true := hrt
      exact h.detached {} rfl (fun hc => hc) fun hc => absurd hc hnot

theorem normalizeOne (h : v.Sheltered mem runtime) : (v.normalizeOne p).Sheltered mem runtime := by
  have hnormal : ∀ a : Attr, rtPolicy (applyPolicy .normal 0 a).policy ≠ true := by
    intro a
    show rtPolicy .normal ≠ true
    decide
  unfold View.normalizeOne
  split
  · exact h
  · split
    · split
      · exact h.setUserNice 0
      · exact h
    · exact h.detached {} rfl (fun hc => absurd hc (hnormal _)) fun hc => absurd hc (hnormal _)

theorem foldl_normalizeOne (h : v.Sheltered mem runtime) (l : List Pid) :
    (l.foldl View.normalizeOne v).Sheltered mem runtime := by
  induction l generalizing v with
  | nil => exact h
  | cons p l ih => exact ih h.normalizeOne

end View.Sheltered

/-! ### Fork -/

theorem settleAttr_group (prio : Int) (a : Attr) :
    (settleAttr prio a).schedTaskGroup = a.schedTaskGroup := by
  have hreset : ∀ b : Attr, (resetOnFork b).schedTaskGroup = b.schedTaskGroup := by
    intro b
    unfold resetOnFork
    simp only []
    split
    · rfl
    · split <;> rfl
  unfold settleAttr
  simp only []
  split <;> split <;> simp [hreset]

/-- A child with a real-time policy has it from its parent, and the priority with it. -/
theorem settleAttr_rt {a : Attr} (ha : AttrOk a)
    (hrt : rtPolicy (settleAttr a.normalPrio a).policy = true) :
    rtPolicy a.policy = true ∧ rtPrio (settleAttr a.normalPrio a).prio = true := by
  have hnormal := ha.rtPrio_normalPrio
  rw [settleAttr_policy] at hrt
  cases hflag : a.schedResetOnFork with
  | true =>
      rw [hflag, Bool.true_and] at hrt
      split at hrt
      · exact absurd hrt (by decide)
      · rename_i hnot
        exact absurd hrt hnot
  | false =>
      rw [hflag, Bool.false_and] at hrt
      have hpolicy : rtPolicy a.policy = true := hrt
      rw [hpolicy] at hnormal
      refine ⟨hpolicy, ?_⟩
      simp [settleAttr, hflag, hnormal]

/-- A task was added, and is sheltered. -/
theorem View.Sheltered.add {mem runtime : Gid → Prop} {a : Attr} (h : v.Sheltered mem runtime)
    (hlist : v'.tasklist = p :: v.tasklist) (hidle : v'.idle = v.idle)
    (hattr : ∀ q, v'.attr q = if q = p then a else v.attr q)
    (hrt : rtPolicy a.policy = true → rtPrio a.prio = true) (hmem : mem a.schedTaskGroup)
    (hruntime : rtPolicy a.policy = true → runtime a.schedTaskGroup) :
    v'.Sheltered mem runtime := by
  refine ⟨?_, ?_, ?_⟩
  · intro q
    rw [hattr]
    split
    · exact hrt
    · exact h.rt q
  · intro q hq
    rw [hattr]
    split
    · exact hmem
    · rename_i hqp
      rw [hidle, hlist, List.mem_cons] at hq
      exact h.mem q (hq.imp_left fun hmem => hmem.resolve_left hqp)
  · intro q hq
    rw [hattr]
    split
    · exact hruntime
    · rename_i hqp
      rw [hlist, List.mem_cons] at hq
      exact h.runtime q (hq.resolve_left hqp)

theorem View.Sheltered.fork {mem runtime : Gid → Prop} {child : Pid} {f : Foreign}
    (h : v.Sheltered mem runtime) (hlegal : v.Legal)
    (hcurr : v.curr ∈ v.tasklist ∨ v.curr = v.idle) :
    View.Sheltered mem runtime { v.modTask child (fun _ => forkTask f (v.tasks v.curr)) with
      tasklist := child :: v.tasklist } := by
  have hparent := (hlegal.task v.curr).ok
  have hcopy : AttrOk (copyTask f (v.tasks v.curr)).toAttr := hparent.frame rfl rfl rfl rfl id
  have hgroup : (forkTask f (v.tasks v.curr)).schedTaskGroup = (v.attr v.curr).schedTaskGroup :=
    settleAttr_group _ _
  have hrt : rtPolicy (forkTask f (v.tasks v.curr)).policy = true →
      rtPolicy (v.attr v.curr).policy = true ∧
        rtPrio (forkTask f (v.tasks v.curr)).prio = true := settleAttr_rt hcopy
  refine h.add (p := child) (a := (forkTask f (v.tasks v.curr)).toAttr) rfl rfl ?_ ?_ ?_ ?_
  · intro q
    by_cases hq : q = child
    · subst hq
      simp [View.attr, View.modTask]
    · simp [View.attr, View.modTask, hq]
  · exact fun hpolicy => (hrt hpolicy).2
  · rw [hgroup]
    exact h.mem v.curr hcurr
  · intro hpolicy
    have hown := (hrt hpolicy).1
    rw [hgroup]
    refine h.runtime v.curr (hcurr.resolve_right fun hcurr => ?_) hown
    -- the idle task has no real-time policy to hand down
    rw [((hlegal.task v.curr).idleLow hcurr).1] at hown
    exact absurd hown (by decide)

/-! ### The guard on the policy

`__sched_setscheduler` looks at the runtime of the task's group under the lock, for a
call of user space only, and the runs here have no others.
-/

/-- Under the lock, a call of user space that gives a real-time policy found runtime. -/
theorem locked_user {s t : State} {c : Checked} {prio ret : Int}
    (hlocked : locked m p c prio true s = .done ret t) (henabled : rtBandwidthEnabled m = true)
    (hauto : ∀ g, m.taskGroupIsAutogroup g = false) :
    t = s ∨ (t = changePolicy m p c prio s ∧ (rtPolicy c.policy = true →
      (m.rtBandwidth (s.tasks p).schedTaskGroup).rtRuntime ≠ 0)) := by
  unfold locked at hlocked
  simp only [henabled, hauto, Bool.true_and, Bool.not_false, Bool.and_true] at hlocked
  split at hlocked
  · cases hlocked
    exact Or.inl rfl
  · split at hlocked
    · cases hlocked
      exact Or.inl rfl
    · split at hlocked
      · cases hlocked
        exact Or.inl rfl
      · rename_i hguard
        split at hlocked
        · cases hlocked
        · cases hlocked
          refine Or.inr ⟨rfl, fun hrt hzero => hguard ?_⟩
          rw [hrt, hzero]
          rfl

/-- **The guard on the policy**, by the turns of the loop: a call of user space changes nothing, or
finds runtime for a real-time policy. -/
theorem schedSetscheduler_user {s t : State} {policy : BitVec 32} {prio ret : Int} {who : Caller}
    {seen : List Attr} (hcall : schedSetscheduler m p prio true who seen policy s = some (ret, t))
    (henabled : rtBandwidthEnabled m = true) (hauto : ∀ g, m.taskGroupIsAutogroup g = false) :
    t = s ∨ ∃ c, 0 ≤ prio ∧ prio ≤ 99 ∧ t = changePolicy m p c prio s ∧ (rtPolicy c.policy = true →
      (m.rtBandwidth (s.tasks p).schedTaskGroup).rtRuntime ≠ 0) := by
  induction seen generalizing policy with
  | nil => cases hcall
  | cons a rest ih =>
      rw [schedSetscheduler] at hcall
      split at hcall
      · cases hcall
        exact Or.inl rfl
      · rename_i c hcheck
        split at hcall
        · rename_i ret' t' hlocked
          cases hcall
          obtain ⟨-, hnonneg, hle⟩ := check_ok hcheck
          refine (locked_user hlocked henabled hauto).imp_right ?_
          rintro ⟨rfl, hguard⟩
          exact ⟨c, hnonneg, hle, rfl, hguard⟩
        · exact ih hcall

/-- A real-time policy gives a real-time priority, boosted or not. -/
theorem rtPrio_setPolicy_rt {c : Checked} {prio : Int} (hprio : 0 ≤ prio)
    (hrt : rtPolicy c.policy = true) (a : Attr) : rtPrio (setPolicy c prio a).prio = true := by
  have hnormal : (setPolicy c prio a).normalPrio = maxRtPrio - 1 - prio := by
    show normalPrio _ = _
    simp [normalPrio, hrt]
  have hle : (setPolicy c prio a).prio ≤ (setPolicy c prio a).normalPrio := by
    show rtMutexGetprio _ ≤ _
    unfold rtMutexGetprio
    split
    · exact Int.le_refl _
    · exact Int.min_le_right _ _
  simp only [rtPrio, decide_eq_true_eq]
  omega

/-! ### Steps of the scheduler -/

/-- A plain operation adds no task. -/
theorem plain_list {o : Op} (hstep : View.Step m v v' o) (ho : o.plain = true) :
    ∀ p ∈ v'.tasklist, p ∈ v.tasklist := by
  cases o with
  | tryToWakeUp p state =>
      rw [hstep]
      split
      · exact fun _ hp => hp
      · rw [View.frame_wake.tasklist]
        exact fun _ hp => hp
  | wakeUpNewTask p =>
      rw [hstep]
      have hlist : (v.enqueue {} p).tasklist = v.tasklist := View.frame_enqueue.tasklist
      show ∀ q ∈ (v.enqueue {} p).tasklist, q ∈ v.tasklist
      rw [hlist]
      exact fun _ hp => hp
  | schedule preemptActive =>
      obtain ⟨worker, next, -, rfl⟩ := hstep
      show ∀ q ∈ (v.putToSleep preemptActive worker).tasklist, q ∈ v.tasklist
      rw [(View.frame_putToSleep preemptActive worker).tasklist]
      exact fun _ hp => hp
  | schedYield =>
      rw [hstep]
      split <;> exact fun _ hp => hp
  | schedulerTick =>
      rw [hstep]
      split
      · rw [(View.frame_tickWrr m).tasklist]
        exact fun _ hp => hp
      · exact fun _ hp => hp
  | schedRrGetInterval p =>
      rw [hstep]
      split <;> exact fun _ hp => hp
  | doSchedRtPeriodTimer g overrun =>
      rw [hstep]
      exact fun _ hp => hp
  | setCurrentState state =>
      rw [hstep]
      exact fun _ hp => hp
  | releaseTask p =>
      rw [hstep]
      exact fun _ hq => List.mem_of_mem_erase hq
  | schedFork | schedSetscheduler | rtMutexSetprio | setUserNice | schedMoveTask
  | normalizeRtTasks | schedSetStopTask | initIdleBootupTask | foreign => cases ho

namespace GroupSystem

variable {s s' : GroupSystem} {t : State} {o : Op}

/-- The tasks of the system are sheltered in its groups. -/
abbrev Shelters (groups : TaskGroups) (v : View) : Prop :=
  v.Sheltered (fun g => groups.tree.mem g = true) fun g => (groups.rtBandwidth g).rtRuntime ≠ 0

/-- What the guards keep. -/
structure Sound (s : GroupSystem) : Prop where
  legal : s.sched.view.Legal
  enabled : s.groups.rtBandwidthEnabled = true
  sheltered : Shelters s.groups s.sched.view

theorem Sound.noneStranded (h : s.Sound) : NoneStranded s := h.sheltered.runtime

/-- The parent of a child is a listed task, or the idle one. -/
theorem parent_of_callable {child : Pid} {f : Foreign}
    (hcall : s.callable (.sched (.schedFork child f)) = true) :
    s.sched.view.curr ∈ s.sched.view.tasklist ∨ s.sched.view.curr = s.sched.view.idle := by
  have hcurr : s.sched.rq.curr ∈ s.sched.tasklist ∨ s.sched.rq.curr = s.sched.rq.idle := by
    simpa [callable] using hcall
  exact hcurr

theorem Sound.view_step (h : s.Sound) (hcall : s.callable (.sched o) = true)
    (hstep : WrrScheduler.step (s.machine m) s.sched o = some t) :
    View.Step (s.machine m) s.sched.view t.view o := by
  refine WrrScheduler.view_step hstep ?_
  rintro child f rfl
  have hnew : child ∉ s.sched.tasklist ∧ child ≠ s.sched.rq.idle := by
    simpa [WrrScheduler.callable] using callable_of_step hstep
  have hok := (h.legal.task s.sched.rq.curr).ok
  refine ⟨?_, settleAttr_ne_wrr ?_⟩
  · rintro rfl
    exact (parent_of_callable hcall).elim hnew.1 hnew.2
  · exact hok.frame rfl rfl rfl rfl id

/-- **A step of the scheduler keeps the tasks sheltered.** -/
theorem Sound.sheltered_step (h : s.Sound) (hauto : ∀ g, m.taskGroupIsAutogroup g = false)
    (hcall : s.callable (.sched o) = true)
    (hstep : WrrScheduler.step (s.machine m) s.sched o = some t) :
    Shelters s.groups t.view := by
  have hview := h.view_step hcall hstep
  cases o with
  | schedFork child f =>
      rw [hview]
      exact h.sheltered.fork h.legal (parent_of_callable hcall)
  | schedSetscheduler p policy prio user who seen =>
      obtain rfl : user = true := hcall
      obtain ⟨⟨ret, t'⟩, hset, rfl⟩ := Option.map_eq_some_iff.mp (perform_of_step hstep)
      have henabled : rtBandwidthEnabled (s.machine m) = true := h.enabled
      rcases schedSetscheduler_user hset henabled hauto with rfl | ⟨c, hnonneg, -, rfl, hguard⟩
      · exact h.sheltered
      · show Shelters s.groups (changePolicy (s.machine m) p c prio s.sched).view
        rw [view_changePolicy]
        refine h.sheltered.update (View.frame_detached _) (fun _ => View.attr_detached _) ?_
          (h.sheltered.mem p) fun _ => hguard
        exact fun hrt => rtPrio_setPolicy_rt hnonneg hrt _
  | rtMutexSetprio p prio =>
      rw [hview]
      split
      · exact h.sheltered
      · have hle : prio ≤ (s.sched.tasks p).normalPrio := by simpa [callable] using hcall
        change prio ≤ (s.sched.view.attr p).normalPrio at hle
        refine h.sheltered.detached _ rfl (fun hrt => hrt) fun hrt => ?_
        have hnormal := (h.legal.task p).ok.rtPrio_normalPrio.trans hrt
        simp only [rtPrio, decide_eq_true_eq] at hnormal ⊢
        omega
  | setUserNice p nice =>
      rw [hview]
      exact h.sheltered.setUserNice nice
  | normalizeRtTasks =>
      rw [hview]
      exact h.sheltered.foldl_normalizeOne _
  | initIdleBootupTask | foreign =>
      rw [hview]
      exact h.sheltered.same (fun _ hp => hp) rfl fun q => View.read_modAttr fun _ => rfl
  | schedMoveTask | schedSetStopTask => cases hcall
  | tryToWakeUp | wakeUpNewTask | schedule | schedYield | schedulerTick | schedRrGetInterval
  | doSchedRtPeriodTimer | setCurrentState | releaseTask =>
      exact h.sheltered.same (plain_list hview rfl) (idle_step hview)
        (read_plain_step hview rfl fun _ _ _ => rfl)

/-! ### Calls for the groups

The guard on the bandwidth is right for the root, whose run queue is the one it looks
at.  For any other group a bandwidth with runtime does no harm, one without does none
if the group has no real-time task, and the case that is left is `strands`.
-/

/-- **The guard on the bandwidth**: a setter that returns 0 found no real-time task in a group that
has no runtime now, as far as `tg_has_rt_tasks` can tell. -/
theorem tgSetRtBandwidth_cases {groups groups' : TaskGroups} {tgHasRtTasks : Gid → Bool} {tg : Gid}
    {period runtime : BitVec 64} {ret : Int}
    (hset : groups.tgSetRtBandwidth tgHasRtTasks tg period runtime = some (ret, groups')) :
    groups' = groups ∨
      (groups' = { groups with
          rtBandwidth := Function.update groups.rtBandwidth tg ⟨period, runtime⟩ } ∧
        (groups.rtBandwidthEnabled = true → groups.tree.mem tg = true → runtime = 0 →
          tgHasRtTasks tg = false)) := by
  obtain ⟨err, herr, heq⟩ := Option.map_eq_some_iff.mp hset
  by_cases hzero : err = 0
  · subst hzero
    rw [if_neg (not_not.mpr rfl)] at heq
    cases heq
    refine Or.inr ⟨rfl, fun henabled hmem hruntime => ?_⟩
    obtain ⟨⟨_, u⟩, hwalk, rfl⟩ := Option.map_eq_some_iff.mp herr
    obtain ⟨_, _, hpass⟩ := Walk.passed_of_walk groups.tree.depth groups.tree.height
      groups.tree.depth_children groups.tree.depth_le (by omega) hwalk
      (groups.tree.below_root tg hmem)
    have hvisit := (Walk.test_eq_some.mp hpass).1
    unfold TaskGroups.tgRtSchedulable at hvisit
    simp only [TaskGroups.bandwidth_some, Function.update_self] at hvisit
    split at hvisit
    · cases hvisit
    · split at hvisit
      · cases hvisit
      · rename_i hbusy
        simpa [henabled, hruntime] using hbusy
  · rw [if_pos hzero] at heq
    cases heq
    exact Or.inl rfl

/-- A call for the groups changes no task. -/
theorem Sound.callGroups (h : s.Sound) {c : GroupCall} {f : TaskGroups → State → State}
    (hcall : s.callGroups c f = some s') (hf : ∀ groups t, (f groups t).view = t.view)
    (hc : ∀ ret groups, groupCall s.groups c = some (ret, groups) →
      groups.rtBandwidthEnabled = true ∧ Shelters groups s.sched.view) : s'.Sound := by
  obtain ⟨⟨ret, groups⟩, hgroups, rfl⟩ := Option.map_eq_some_iff.mp hcall
  obtain ⟨henabled, hshelters⟩ := hc ret groups hgroups
  have hview : (if ret = (0 : Int) then f groups s.sched else s.sched).view = s.sched.view := by
    split
    · exact hf groups s.sched
    · rfl
  refine ⟨?_, henabled, ?_⟩
  · show (if ret = (0 : Int) then f groups s.sched else s.sched).view.Legal
    rw [hview]
    exact h.legal
  · show Shelters groups (if ret = (0 : Int) then f groups s.sched else s.sched).view
    rw [hview]
    exact hshelters

/-- A new bandwidth shelters the tasks if it has runtime, or is the root's, or there is no
real-time task in its group. -/
theorem Sound.setBandwidth (h : s.Sound) {groups : TaskGroups} {tg : Gid}
    {period runtime : BitVec 64} {ret : Int} (hmem : s.groups.tree.mem tg = true)
    (hset : s.groups.tgSetRtBandwidth s.tgHasRtTasks tg period runtime = some (ret, groups))
    (hsafe : runtime = 0 → tg ≠ s.groups.tree.root → ∀ p ∈ s.sched.tasklist,
      rtPolicy (s.sched.tasks p).policy = true → (s.sched.tasks p).schedTaskGroup ≠ tg) :
    groups.rtBandwidthEnabled = true ∧ Shelters groups s.sched.view := by
  rcases tgSetRtBandwidth_cases hset with rfl | ⟨rfl, hguard⟩
  · exact ⟨h.enabled, h.sheltered⟩
  · refine ⟨h.enabled, h.sheltered.rt, h.sheltered.mem, fun p hp hrt => ?_⟩
    have hold := h.sheltered.runtime p hp hrt
    by_cases htg : (s.sched.view.attr p).schedTaskGroup = tg
    · show (Function.update s.groups.rtBandwidth tg ⟨period, runtime⟩
        (s.sched.view.attr p).schedTaskGroup).rtRuntime ≠ 0
      rw [htg, Function.update_self]
      intro hruntime
      by_cases hroot : tg = s.groups.tree.root
      · -- every real-time task counts as one of the root group
        have hnone := hguard h.enabled hmem hruntime
        have hsome : s.tgHasRtTasks tg = true := by
          refine List.any_eq_true.mpr ⟨p, hp, ?_⟩
          have hprio : rtPrio (s.sched.tasks p).prio = true := h.sheltered.rt p hrt
          simp [hprio, hroot]
        rw [hnone] at hsome
        cases hsome
      · exact hsafe hruntime hroot p hp hrt htg
    · show (Function.update s.groups.rtBandwidth tg ⟨period, runtime⟩
        (s.sched.view.attr p).schedTaskGroup).rtRuntime ≠ 0
      rw [Function.update_of_ne htg]
      exact hold

/-- A new group has no tasks. -/
theorem Sound.schedCreateGroup (h : s.Sound) {parent g : Gid}
    (hp : s.groups.tree.mem parent = true) (hg : s.groups.tree.mem g = false) :
    Shelters (s.groups.schedCreateGroup parent g hp hg) s.sched.view := by
  refine ⟨h.sheltered.rt, ?_, ?_⟩
  · intro p hlisted
    exact (TgTree.mem_insert hp hg).mpr (Or.inr (h.sheltered.mem p hlisted))
  · intro p hlisted hrt
    have hne : (s.sched.view.attr p).schedTaskGroup ≠ g := by
      intro heq
      have hmem := h.sheltered.mem p (Or.inl hlisted)
      rw [heq, hg] at hmem
      cases hmem
    show (Function.update s.groups.rtBandwidth g s.groups.allocRtSchedGroup
      (s.sched.view.attr p).schedTaskGroup).rtRuntime ≠ 0
    rw [Function.update_of_ne hne]
    exact h.sheltered.runtime p hlisted hrt

theorem mem_erase {t : TgTree} {g h : Gid} (hg : t.children g = []) (hh : t.mem h = true)
    (hne : h ≠ g) : (t.erase g hg).mem h = true := by
  rw [TgTree.mem_iff] at hh ⊢
  refine hh.imp_right fun hsome => ?_
  show (Function.update t.parent g none h).isSome = true
  rwa [Function.update_of_ne hne]

/-- A group that goes has no tasks. -/
theorem Sound.schedDestroyGroup (h : s.Sound) {g : Gid} (hg : s.groups.tree.children g = [])
    (hempty : ∀ p, p = s.sched.rq.idle ∨ p ∈ s.sched.tasklist →
      (s.sched.tasks p).schedTaskGroup ≠ g) :
    Shelters (s.groups.schedDestroyGroup g hg) s.sched.view := by
  refine ⟨h.sheltered.rt, ?_, h.sheltered.runtime⟩
  intro p hlisted
  exact mem_erase hg (h.sheltered.mem p hlisted) (hempty p hlisted.symm)

/-- **The guard on attaching**: tasks that all may be attached are sheltered where they go. -/
theorem Sound.attach (h : s.Sound) {tg : Gid} {tasks : List Pid}
    (hmem : s.groups.tree.mem tg = true) (hlisted : ∀ p ∈ tasks, p ∈ s.sched.tasklist)
    (hguard : ∀ p ∈ tasks, rtPrio (s.sched.tasks p).prio = true →
      (s.groups.rtBandwidth tg).rtRuntime ≠ 0) : (s.cpuCgroupAttach m tg tasks).Sound := by
  have hfold : ∀ (l : List Pid) (t : State), t.view.Legal → Shelters s.groups t.view →
      (∀ p ∈ l, p ∈ t.view.tasklist) →
      (∀ p ∈ l, rtPrio (t.view.attr p).prio = true → (s.groups.rtBandwidth tg).rtRuntime ≠ 0) →
      (l.foldl (fun t p => schedMoveTask (s.machine m) p tg t) t).view.Legal ∧
        Shelters s.groups (l.foldl (fun t p => schedMoveTask (s.machine m) p tg t) t).view := by
    intro l
    induction l with
    | nil => exact fun _ hlegal hshelters _ _ => ⟨hlegal, hshelters⟩
    | cons p l ih =>
        intro t hlegal hshelters hlist hguard
        have hp := hlist p List.mem_cons_self
        have hview : (schedMoveTask (s.machine m) p tg t).view = _ := view_schedMoveTask tg
        have hframe := @View.frame_detached t.view p {} fun a => { a with schedTaskGroup := tg }
        refine ih (schedMoveTask (s.machine m) p tg t) ?_ ?_ ?_ ?_
        · rw [hview]
          exact hlegal.detached_listed {} (settles_group tg) hp
        · rw [hview]
          refine hshelters.update hframe (fun _ => View.attr_detached _) (hshelters.rt p)
            (fun _ => hmem) fun _ hrt => ?_
          exact hguard p List.mem_cons_self (hshelters.rt p hrt)
        · rw [hview, hframe.tasklist]
          exact fun q hq => hlist q (List.mem_cons_of_mem _ hq)
        · intro q hq
          have hread : ((schedMoveTask (s.machine m) p tg t).view.attr q).prio =
              (t.view.attr q).prio := by
            rw [hview]
            exact @View.read_detached t.view p q {} _ Attr.prio _ fun _ => rfl
          rw [hread]
          exact hguard q (List.mem_cons_of_mem _ hq)
  obtain ⟨hlegal, hshelters⟩ := hfold tasks s.sched h.legal h.sheltered hlisted hguard
  exact ⟨hlegal, h.enabled, hshelters⟩

/-! ### Runs -/

theorem view_initTgRt (g : Gid) (rtRuntime : BitVec 64) (t : State) :
    (initTgRt g rtRuntime t).view = t.view := rfl

theorem view_setRtRuntime (g : Gid) (rtRuntime : BitVec 64) (t : State) :
    (setRtRuntime g rtRuntime t).view = t.view := rfl

/-- **A step that strands nobody keeps every task sheltered.** -/
theorem Sound.step {o : GroupOp} (h : s.Sound) (hauto : ∀ g, m.taskGroupIsAutogroup g = false)
    (ho : strands s o = false) (hstep : step m s o = some s') : s'.Sound := by
  unfold GroupSystem.step at hstep
  split at hstep
  · rename_i hcall
    cases o with
    | schedCreateGroup parent g enomem =>
        simp only [GroupSystem.perform] at hstep
        refine h.callGroups hstep (fun _ _ => view_initTgRt _ _ _) fun ret groups hgroups => ?_
        simp only [groupCall] at hgroups
        split at hgroups
        · rename_i hnew
          split at hgroups
          · cases hgroups
            exact ⟨h.enabled, h.sheltered⟩
          · cases hgroups
            exact ⟨h.enabled, h.schedCreateGroup hnew.1 hnew.2⟩
        · cases hgroups
    | schedDestroyGroup g =>
        simp only [GroupSystem.perform] at hstep
        refine h.callGroups hstep (fun _ _ => rfl) fun ret groups hgroups => ?_
        simp only [groupCall] at hgroups
        split at hgroups
        · rename_i hleaf
          cases hgroups
          refine ⟨h.enabled, h.schedDestroyGroup hleaf fun p hp => ?_⟩
          have hall := (Bool.and_eq_true_iff.mp hcall).2
          exact of_decide_eq_true (List.all_eq_true.mp hall p (List.mem_cons.mpr hp))
        · cases hgroups
    | schedGroupSetRtRuntime tg us =>
        simp only [GroupSystem.perform] at hstep
        refine h.callGroups hstep (fun _ _ => view_setRtRuntime _ _ _) fun ret groups hgroups => ?_
        refine h.setBandwidth hcall hgroups fun hzero hroot p hp hrt htg => ?_
        have hany : (s.sched.tasklist.any fun p => rtPolicy (s.sched.tasks p).policy &&
            (s.sched.tasks p).schedTaskGroup = tg) = true :=
          List.any_eq_true.mpr ⟨p, hp, by simp [hrt, htg]⟩
        simp [strands, hzero, hroot, hany] at ho
    | schedGroupSetRtPeriod tg us =>
        simp only [GroupSystem.perform] at hstep
        refine h.callGroups hstep (fun _ _ => view_setRtRuntime _ _ _) fun ret groups hgroups => ?_
        simp only [groupCall, TaskGroups.schedGroupSetRtPeriod] at hgroups
        split at hgroups
        · cases hgroups
          exact ⟨h.enabled, h.sheltered⟩
        · -- the runtime stays, and if there is none then there is no real-time task either
          refine h.setBandwidth hcall hgroups fun hzero _ p hp hrt htg => ?_
          refine h.sheltered.runtime p hp hrt ?_
          show (s.groups.rtBandwidth (s.sched.tasks p).schedTaskGroup).rtRuntime = 0
          rw [htg, hzero]
    | attach tg tasks =>
        obtain ⟨hmem, hlisted⟩ := Bool.and_eq_true_iff.mp hcall
        obtain rfl := Option.some.inj hstep
        split
        · rename_i hcan
          refine h.attach hmem (fun p hp => ?_) fun p hp hprio hzero => ?_
          · exact of_decide_eq_true (List.all_eq_true.mp hlisted p hp)
          · have hall : tasks.all (s.schedRtCanAttach tg) = true := by
              by_contra hnot
              rw [cpuCgroupCanAttach, if_neg hnot] at hcan
              cases hcan
            have hone := List.all_eq_true.mp hall p hp
            simp [schedRtCanAttach, hprio, hzero] at hone
        · exact h
    | sched o =>
        obtain ⟨t, ht, rfl⟩ := Option.map_eq_some_iff.mp hstep
        exact ⟨legal_step h.legal (callable_of_step ht) (h.view_step hcall ht), h.enabled,
          h.sheltered_step hauto hcall ht⟩
  · cases hstep

theorem sound_boot (m : Machine) (root : Gid) : (boot m root).Sound := by
  have hboot := (@inv_boot { m with
    tg := (groupBoot root).tree.toGroupTree, rtBandwidth := (groupBoot root).rtBandwidth }).legal
  have henabled : decide (0 ≤ (950000 : BitVec 32).toInt) = true := by decide
  refine ⟨hboot, henabled, ?_, ?_, ?_⟩
  · intro p hrt
    have hnormal : rtPolicy .normal = true := hrt
    cases hnormal
  · intro p _
    exact TgTree.mem_root _
  · intro p hp
    cases hp

end GroupSystem

/-- **No real-time task is stranded** in a run where nobody takes the runtime from a group below the
root that has one in it. -/
theorem none_stranded (m : Machine) (root : Gid) (hauto : ∀ g, m.taskGroupIsAutogroup g = false)
    {tr : List (GroupSystem × GroupOp)} {s : GroupSystem}
    (hrun : Run (GroupSystem.step m) (GroupSystem.boot m root) tr s)
    (hall : ∀ e ∈ tr, strands e.1 e.2 = false) : NoneStranded s := by
  refine (hrun.invariant GroupSystem.Sound (fun s o => strands s o = false) ?_
    (GroupSystem.sound_boot m root) hall).1.noneStranded
  intro s o t hs ho hstep
  exact hs.step hauto ho hstep

/-- A new group with runtime, and a task attached to it that becomes a `SCHED_FIFO` one. -/
def startFifoGroup : List GroupOp :=
  let seen := [(initTask (sampleMachine 10)).toAttr]
  [.schedCreateGroup 0 1 false, .schedGroupSetRtRuntime 1 100000, .sched .initIdleBootupTask,
    .sched (.schedFork 1 sampleForeign), .sched (.wakeUpNewTask 1), .attach 1 [1],
    .sched (sampleSetscheduler 1 Policy.fifo.code 5 seen)]

/-- A real-time task below the root. -/
def fifoBelow (s : GroupSystem) : Bool :=
  s.sched.tasklist = [1] && (s.sched.tasks 1).policy = .fifo &&
    (s.sched.tasks 1).schedTaskGroup = 1

/-- A real-time task in a group of its own has runtime. -/
theorem none_stranded_fifo : ∃ s : GroupSystem, fifoBelow s = true ∧ NoneStranded s := by
  have htrace : ((Run.trace (GroupSystem.step (sampleMachine 10))
      (GroupSystem.boot (sampleMachine 10) 0) startFifoGroup).any fun r =>
        decide ((r.1.all fun e => !strands e.1 e.2) = true ∧ fifoBelow r.2 = true)) = true := by
    decide +kernel
  obtain ⟨⟨tr, s⟩, hrun, hall, hfifo⟩ := Run.exists_of_trace htrace
  refine ⟨s, hfifo, none_stranded (sampleMachine 10) 0 (fun _ => rfl) hrun fun e he => ?_⟩
  simpa using List.all_eq_true.mp hall e he

/-- Its group gives up the runtime, and the task stays. -/
theorem fifo_stranded : ∃ s : GroupSystem,
    Run.Reachable (GroupSystem.step (sampleMachine 10)) (GroupSystem.boot (sampleMachine 10) 0) s ∧
      s.groups.rtBandwidthEnabled = true ∧ (∀ g, (sampleMachine 10).taskGroupIsAutogroup g = false) ∧
      ¬ NoneStranded s := by
  have hexec : ((Run.exec (GroupSystem.step (sampleMachine 10))
      (GroupSystem.boot (sampleMachine 10) 0)
      (startFifoGroup ++ [.schedGroupSetRtRuntime 1 0])).any fun s =>
        decide ((s.groups.rtBandwidthEnabled = true ∧ fifoBelow s = true) ∧
          (s.groups.rtBandwidth 1).rtRuntime = 0)) = true := by decide +kernel
  obtain ⟨s, hs, ⟨henabled, hfifo⟩, hzero⟩ := Run.exists_of_exec hexec
  simp only [fifoBelow, Bool.and_eq_true, decide_eq_true_eq] at hfifo
  obtain ⟨⟨hlist, hpolicy⟩, hgroup⟩ := hfifo
  refine ⟨s, hs, henabled, fun _ => rfl, fun hnone => ?_⟩
  refine hnone 1 (by rw [hlist]; exact List.mem_singleton.mpr rfl) ?_ ?_
  · rw [hpolicy]
    rfl
  · rw [hgroup]
    exact hzero

end WrrScheduler
