/-
Task groups and their real-time bandwidth, as `core.c` checks and sets it.

The tree of groups carries its own well-formedness: a group is a child of its parent
and of no other, and the parent of a group is in the tree.  A `long` has 32 bits, and
`ns_to_ktime` and `ktime_to_ns` undo each other, so a period is its nanoseconds.
Where the code would divide by zero there is no result.
-/
import WrrScheduler.Kernel.Core
import WrrScheduler.Lib.Walk

namespace WrrScheduler

/-! ### The tree -/

/-- The tree of task groups, with the list of children of each. -/
structure TgTree extends GroupTree where
  children : Gid → List Gid
  mem_children : ∀ g h, h ∈ children g ↔ parent h = some g
  nodup_children : ∀ g, (children g).Nodup
  parent_mem : ∀ g h, parent g = some h → h = root ∨ (parent h).isSome = true

namespace TgTree

/-- Whether a group is in the tree. -/
def mem (t : TgTree) (g : Gid) : Bool := g = t.root || (t.parent g).isSome

/-- The tree of the root group alone. -/
def single (root : Gid) : TgTree where
  root := root
  parent _ := none
  depth _ := 0
  height := 0
  children _ := []
  parent_root := rfl
  depth_parent _ _ h := by cases h
  depth_le _ := Nat.le_refl 0
  mem_children _ _ := by simp
  nodup_children _ := List.nodup_nil
  parent_mem _ _ h := by cases h

variable {t : TgTree} {p g h : Gid}

theorem mem_of_parent (hg : t.parent g = some h) : t.mem h = true := by
  rcases t.parent_mem g h hg with rfl | hsome
  · simp [mem]
  · simp [mem, hsome]

theorem ne_root_of_not_mem (hg : t.mem g = false) : t.root ≠ g := by
  rintro rfl
  simp [mem] at hg

theorem parent_of_not_mem (hg : t.mem g = false) : t.parent g = none := by
  rw [mem, Bool.or_eq_false_iff, Option.isSome_eq_false_iff, Option.isNone_iff_eq_none] at hg
  exact hg.2

/-- Nobody is a child of a group that is not in the tree. -/
theorem parent_ne_of_not_mem (hg : t.mem g = false) (h : Gid) : t.parent h ≠ some g := by
  intro hh
  rw [mem_of_parent hh] at hg
  cases hg

/-- `list_add_rcu(&tg->siblings, &parent->children)`: a new group, below one of the tree. -/
def insert (t : TgTree) (p g : Gid) (hp : t.mem p = true) (hg : t.mem g = false) : TgTree where
  root := t.root
  parent := Function.update t.parent g (some p)
  depth := Function.update t.depth g (t.depth p + 1)
  height := max t.height (t.depth p + 1)
  children := Function.update t.children p (Sequence.add g (t.children p))
  parent_root := by rw [Function.update_of_ne (ne_root_of_not_mem hg), t.parent_root]
  depth_parent a b hab := by
    have hpg : p ≠ g := by
      rintro rfl
      rw [hp] at hg
      cases hg
    by_cases ha : a = g
    · subst ha
      rw [Function.update_self] at hab
      cases hab
      rw [Function.update_self, Function.update_of_ne hpg]
    · rw [Function.update_of_ne ha] at hab
      have hb : b ≠ g := by
        rintro rfl
        exact parent_ne_of_not_mem hg a hab
      rw [Function.update_of_ne ha, Function.update_of_ne hb, t.depth_parent a b hab]
  depth_le a := by
    have ha := t.depth_le a
    by_cases hag : a = g
    · subst hag
      rw [Function.update_self]
      omega
    · rw [Function.update_of_ne hag]
      omega
  mem_children a b := by
    by_cases hb : b = g
    · subst hb
      have hold : ∀ c, b ∉ t.children c := fun c hc => by
        rw [t.mem_children, parent_of_not_mem hg] at hc
        cases hc
      rw [Function.update_self]
      by_cases ha : a = p
      · subst ha
        simp
      · rw [Function.update_of_ne ha]
        constructor
        · exact fun hc => absurd hc (hold a)
        · exact fun hc => absurd (Option.some.inj hc).symm ha
    · rw [Function.update_of_ne hb, ← t.mem_children]
      by_cases ha : a = p
      · subst ha
        simp [hb]
      · rw [Function.update_of_ne ha]
  nodup_children a := by
    by_cases ha : a = p
    · subst ha
      rw [Function.update_self]
      refine Sequence.nodup_add (t.nodup_children a) ?_
      rw [t.mem_children, parent_of_not_mem hg]
      simp
    · rw [Function.update_of_ne ha]
      exact t.nodup_children a
  parent_mem a b hab := by
    have hmem : ∀ c, t.mem c = true →
        c = t.root ∨ (Function.update t.parent g (some p) c).isSome = true := by
      intro c hc
      by_cases hcg : c = g
      · subst hcg
        exact Or.inr (by simp)
      · rw [Function.update_of_ne hcg]
        simpa [mem] using hc
    by_cases ha : a = g
    · subst ha
      rw [Function.update_self] at hab
      cases hab
      exact hmem p hp
    · rw [Function.update_of_ne ha] at hab
      exact hmem b (mem_of_parent hab)

/-- `list_del_rcu(&tg->siblings)`, for a group without children. -/
def erase (t : TgTree) (g : Gid) (hg : t.children g = []) : TgTree where
  root := t.root
  parent := Function.update t.parent g none
  depth := t.depth
  height := t.height
  children a := Sequence.del g (t.children a)
  parent_root := by
    by_cases h : t.root = g
    · rw [h, Function.update_self]
    · rw [Function.update_of_ne h, t.parent_root]
  depth_parent a b hab := by
    by_cases ha : a = g
    · subst ha
      rw [Function.update_self] at hab
      cases hab
    · rw [Function.update_of_ne ha] at hab
      exact t.depth_parent a b hab
  depth_le := t.depth_le
  mem_children a b := by
    rw [Sequence.mem_del (t.nodup_children a), t.mem_children]
    by_cases hb : b = g
    · subst hb
      simp
    · simp [hb]
  nodup_children a := Sequence.nodup_del (t.nodup_children a)
  parent_mem a b hab := by
    by_cases ha : a = g
    · subst ha
      rw [Function.update_self] at hab
      cases hab
    · rw [Function.update_of_ne ha] at hab
      have hb : b ≠ g := by
        rintro rfl
        rw [← t.mem_children, hg] at hab
        cases hab
      rw [Function.update_of_ne hb]
      exact t.parent_mem a b hab

end TgTree

/-! ### Bandwidth -/

/-- `EBUSY`. -/
def eBusy : Int := 16

/-- `ENOMEM`. -/
def eNomem : Int := 12

/-- `NSEC_PER_USEC`. -/
def nsecPerUsec : BitVec 64 := 1000

/-- The task groups, their real-time bandwidth, `def_rt_bandwidth` and the two sysctl values. -/
structure TaskGroups where
  tree : TgTree
  rtBandwidth : Gid → RtBandwidth
  defRtBandwidth : RtBandwidth
  sysctlSchedRtPeriod : BitVec 32
  sysctlSchedRtRuntime : BitVec 32

/-- `to_ratio`. -/
def toRatio (period runtime : BitVec 64) : Option (BitVec 32) :=
  if runtime = runtimeInf then some (1 <<< 20)
  else if period = 0 then none
  else some (((runtime <<< 20) / period).setWidth 32)

namespace TaskGroups

/-- `global_rt_period`. -/
def globalRtPeriod (s : TaskGroups) : BitVec 64 :=
  s.sysctlSchedRtPeriod.setWidth 64 * nsecPerUsec

/-- `global_rt_runtime`. -/
def globalRtRuntime (s : TaskGroups) : BitVec 64 :=
  if s.sysctlSchedRtRuntime.toInt < 0 then runtimeInf
  else s.sysctlSchedRtRuntime.signExtend 64 * nsecPerUsec

/-- `rt_bandwidth_enabled`. -/
def rtBandwidthEnabled (s : TaskGroups) : Bool := 0 ≤ s.sysctlSchedRtRuntime.toInt

end TaskGroups

/-- `struct rt_schedulable_data`. -/
structure RtSchedulableData where
  tg : Option Gid
  rtPeriod : BitVec 64
  rtRuntime : BitVec 64

namespace TaskGroups

/-- The period and runtime of a group, with the proposed ones in place. -/
def bandwidth (s : TaskGroups) (d : RtSchedulableData) (g : Gid) : RtBandwidth :=
  if some g = d.tg then { rtPeriod := d.rtPeriod, rtRuntime := d.rtRuntime } else s.rtBandwidth g

/-- The loop over the children in `tg_rt_schedulable`. -/
def sumRatios (b : Gid → RtBandwidth) : List Gid → BitVec 32 → Option (BitVec 32)
  | [], sum => some sum
  | c :: cs, sum =>
    (toRatio (b c).rtPeriod (b c).rtRuntime).bind fun ratio => sumRatios b cs (sum + ratio)

/-- The last checks of `tg_rt_schedulable`, on the ratio of a group, the global one and the sum of
the children's. -/
def checkRatios (total limit : BitVec 32) (sum : Option (BitVec 32)) : Option Int :=
  if limit < total then some (-eInval)
  else sum.map fun sum => if total < sum then -eInval else 0

/-- `tg_rt_schedulable`; `tg_has_rt_tasks` comes in as a predicate. -/
def tgRtSchedulable (s : TaskGroups) (tgHasRtTasks : Gid → Bool) (d : RtSchedulableData)
    (g : Gid) : Option Int :=
  let b := s.bandwidth d g
  if b.rtPeriod < b.rtRuntime ∧ b.rtRuntime ≠ runtimeInf then some (-eInval)
  else if s.rtBandwidthEnabled && b.rtRuntime = 0 && tgHasRtTasks g then some (-eBusy)
  else
    (toRatio b.rtPeriod b.rtRuntime).bind fun total =>
      (toRatio s.globalRtPeriod s.globalRtRuntime).bind fun limit =>
        checkRatios total limit (sumRatios (s.bandwidth d) (s.tree.children g) 0)

/-- `__rt_schedulable`. -/
def rtSchedulable (s : TaskGroups) (tgHasRtTasks : Gid → Bool) (d : RtSchedulableData) :
    Option Int :=
  (Walk.walk s.tree.children (Walk.test (s.tgRtSchedulable tgHasRtTasks d)) Walk.nop
    (s.tree.height + 1) s.tree.root ()).map Prod.fst

/-- `tg_set_rt_bandwidth`. -/
def tgSetRtBandwidth (s : TaskGroups) (tgHasRtTasks : Gid → Bool) (tg : Gid)
    (rtPeriod rtRuntime : BitVec 64) : Option (Int × TaskGroups) :=
  (s.rtSchedulable tgHasRtTasks
    { tg := some tg, rtPeriod := rtPeriod, rtRuntime := rtRuntime }).map fun err =>
      if err ≠ 0 then (err, s)
      else (0, { s with rtBandwidth := Function.update s.rtBandwidth tg ⟨rtPeriod, rtRuntime⟩ })

/-- The runtime `sched_group_set_rt_runtime` passes on. -/
def rtRuntimeOf (rtRuntimeUs : BitVec 32) : BitVec 64 :=
  if rtRuntimeUs.toInt < 0 then runtimeInf else rtRuntimeUs.signExtend 64 * nsecPerUsec

/-- `sched_group_set_rt_runtime`. -/
def schedGroupSetRtRuntime (s : TaskGroups) (tgHasRtTasks : Gid → Bool) (tg : Gid)
    (rtRuntimeUs : BitVec 32) : Option (Int × TaskGroups) :=
  s.tgSetRtBandwidth tgHasRtTasks tg (s.rtBandwidth tg).rtPeriod (rtRuntimeOf rtRuntimeUs)

/-- `sched_group_set_rt_period`. -/
def schedGroupSetRtPeriod (s : TaskGroups) (tgHasRtTasks : Gid → Bool) (tg : Gid)
    (rtPeriodUs : BitVec 32) : Option (Int × TaskGroups) :=
  let rtPeriod := rtPeriodUs.signExtend 64 * nsecPerUsec
  if rtPeriod = 0 then some (-eInval, s)
  else s.tgSetRtBandwidth tgHasRtTasks tg rtPeriod (s.rtBandwidth tg).rtRuntime

/-- `sched_rt_global_constraints`. -/
def schedRtGlobalConstraints (s : TaskGroups) (tgHasRtTasks : Gid → Bool) : Option Int :=
  if s.sysctlSchedRtPeriod = 0 then some (-eInval)
  else if s.globalRtPeriod < s.globalRtRuntime ∧ s.globalRtRuntime ≠ runtimeInf then
    some (-eInval)
  else s.rtSchedulable tgHasRtTasks { tg := none, rtPeriod := 0, rtRuntime := 0 }

end TaskGroups

/-- The table a call of `sched_rt_handler` is for. -/
inductive RtSysctl
  | schedRtPeriod
  | schedRtRuntime
  deriving DecidableEq, Repr

namespace TaskGroups

/-- What `proc_dointvec` leaves behind: nothing, where it fails or only reads. -/
def procDointvec (s : TaskGroups) (table : RtSysctl) (write : Bool) (ret : Int)
    (val : BitVec 32) : TaskGroups :=
  if ret = 0 ∧ write then
    match table with
    | .schedRtPeriod => { s with sysctlSchedRtPeriod := val }
    | .schedRtRuntime => { s with sysctlSchedRtRuntime := val }
  else s

/-- `sched_rt_handler`; `ret` is what `proc_dointvec` returns, and `val` what it writes. -/
def schedRtHandler (s : TaskGroups) (tgHasRtTasks : Gid → Bool) (table : RtSysctl) (write : Bool)
    (ret : Int) (val : BitVec 32) : Option (Int × TaskGroups) :=
  let t := s.procDointvec table write ret val
  if ret = 0 ∧ write then
    (t.schedRtGlobalConstraints tgHasRtTasks).map fun ret =>
      if ret ≠ 0 then
        (ret, { t with sysctlSchedRtPeriod := s.sysctlSchedRtPeriod
                       sysctlSchedRtRuntime := s.sysctlSchedRtRuntime })
      else
        (0, { t with defRtBandwidth := ⟨t.globalRtPeriod, t.globalRtRuntime⟩ })
  else some (ret, t)

/-- The bandwidth `alloc_rt_sched_group` gives a new group. -/
def allocRtSchedGroup (s : TaskGroups) : RtBandwidth :=
  { rtPeriod := s.defRtBandwidth.rtPeriod, rtRuntime := 0 }

/-- `sched_create_group`, once its memory is there. -/
def schedCreateGroup (s : TaskGroups) (parent g : Gid) (hp : s.tree.mem parent = true)
    (hg : s.tree.mem g = false) : TaskGroups :=
  { s with tree := s.tree.insert parent g hp hg
           rtBandwidth := Function.update s.rtBandwidth g s.allocRtSchedGroup }

/-- `sched_destroy_group`. -/
def schedDestroyGroup (s : TaskGroups) (g : Gid) (hg : s.tree.children g = []) : TaskGroups :=
  { s with tree := s.tree.erase g hg }

end TaskGroups

/-! ### The system -/

/-- The calls, with what they read of the tasks. -/
inductive GroupCall
  | schedCreateGroup (parent g : Gid) (enomem : Bool)
  | schedDestroyGroup (g : Gid)
  | schedGroupSetRtRuntime (tg : Gid) (rtRuntimeUs : BitVec 32) (tgHasRtTasks : Gid → Bool)
  | schedGroupSetRtPeriod (tg : Gid) (rtPeriodUs : BitVec 32) (tgHasRtTasks : Gid → Bool)
  | schedRtHandler (table : RtSysctl) (write : Bool) (ret : Int) (val : BitVec 32)
      (tgHasRtTasks : Gid → Bool)

/-- What the callers make sure of: the groups exist, a new one is new, and one that goes has no
children. -/
def groupCallable (s : TaskGroups) : GroupCall → Bool
  | .schedCreateGroup parent g _ => s.tree.mem parent && !s.tree.mem g
  | .schedDestroyGroup g => s.tree.mem g && g ≠ s.tree.root && s.tree.children g = []
  | .schedGroupSetRtRuntime tg _ _ => s.tree.mem tg
  | .schedGroupSetRtPeriod tg _ _ => s.tree.mem tg
  | .schedRtHandler _ _ _ _ _ => true

/-- What a call returns and leaves. -/
def groupCall (s : TaskGroups) : GroupCall → Option (Int × TaskGroups)
  | .schedCreateGroup parent g enomem =>
    if h : s.tree.mem parent = true ∧ s.tree.mem g = false then
      some (if enomem then (-eNomem, s) else (0, s.schedCreateGroup parent g h.1 h.2))
    else none
  | .schedDestroyGroup g =>
    if h : s.tree.children g = [] then some (0, s.schedDestroyGroup g h) else none
  | .schedGroupSetRtRuntime tg rtRuntimeUs tgHasRtTasks =>
    s.schedGroupSetRtRuntime tgHasRtTasks tg rtRuntimeUs
  | .schedGroupSetRtPeriod tg rtPeriodUs tgHasRtTasks =>
    s.schedGroupSetRtPeriod tgHasRtTasks tg rtPeriodUs
  | .schedRtHandler table write ret val tgHasRtTasks =>
    s.schedRtHandler tgHasRtTasks table write ret val

/-- One step of the system. -/
def groupStep (s : TaskGroups) (c : GroupCall) : Option TaskGroups :=
  if groupCallable s c then (groupCall s c).map Prod.snd else none

/-- What `sched_init` leaves. -/
def groupBoot (root : Gid) : TaskGroups :=
  let global : RtBandwidth := { rtPeriod := 1000000000, rtRuntime := 950000000 }
  { tree := .single root
    rtBandwidth := fun _ => global
    defRtBandwidth := global
    sysctlSchedRtPeriod := 1000000
    sysctlSchedRtRuntime := 950000 }

end WrrScheduler
