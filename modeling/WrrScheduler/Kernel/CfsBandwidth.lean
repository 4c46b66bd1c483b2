/-
The quotas of task groups in the fair class, as `core.c` checks and sets them.

The check leaves what it works with in `hierarchal_quota` of the groups it visits, so
it changes the state even where it fails.  A `long` has 32 bits; `s64` and `u64` are
one word, compared as the code compares them.
-/
import WrrScheduler.Kernel.TaskGroup

namespace WrrScheduler

/-- The part of `struct cfs_bandwidth` that limits a group. -/
structure CfsBandwidth where
  period : BitVec 64
  quota : BitVec 64
  hierarchalQuota : BitVec 64

/-- The task groups with their quotas. -/
structure CfsGroups where
  tree : TgTree
  cfsBandwidth : Gid → CfsBandwidth

/-- `max_cfs_quota_period`. -/
def maxCfsQuotaPeriod : BitVec 64 := 1000000000

/-- `min_cfs_quota_period`. -/
def minCfsQuotaPeriod : BitVec 64 := 1000000

/-- `struct cfs_schedulable_data`. -/
structure CfsSchedulableData where
  tg : Option Gid
  period : BitVec 64
  quota : BitVec 64

namespace CfsGroups

/-- Change the bandwidth of one group. -/
def modBandwidth (s : CfsGroups) (g : Gid) (f : CfsBandwidth → CfsBandwidth) : CfsGroups :=
  { s with cfsBandwidth := Function.update s.cfsBandwidth g (f (s.cfsBandwidth g)) }

/-- `tg_get_cfs_quota`. -/
def tgGetCfsQuota (s : CfsGroups) (g : Gid) : BitVec 32 :=
  if (s.cfsBandwidth g).quota = runtimeInf then -1
  else ((s.cfsBandwidth g).quota / nsecPerUsec).setWidth 32

/-- `tg_get_cfs_period`. -/
def tgGetCfsPeriod (s : CfsGroups) (g : Gid) : BitVec 32 :=
  ((s.cfsBandwidth g).period / nsecPerUsec).setWidth 32

/-- `normalize_cfs_quota`. -/
def normalizeCfsQuota (s : CfsGroups) (d : CfsSchedulableData) (g : Gid) : Option (BitVec 64) :=
  let (period, quota) :=
    if some g = d.tg then (d.period, d.quota)
    else ((s.tgGetCfsPeriod g).signExtend 64, (s.tgGetCfsQuota g).signExtend 64)
  if quota = runtimeInf ∨ quota = -1 then some runtimeInf
  else (toRatio period quota).map fun ratio => ratio.setWidth 64

/-- `cfs_b->hierarchal_quota = quota`. -/
def setHierarchalQuota (g : Gid) (quota : BitVec 64) (s : CfsGroups) : CfsGroups :=
  s.modBandwidth g fun b => { b with hierarchalQuota := quota }

/-- The part of `tg_cfs_schedulable_down` for a group with a parent. -/
def checkQuota (g : Gid) (quota parentQuota : BitVec 64) (s : CfsGroups) : Int × CfsGroups :=
  if quota = runtimeInf then (0, s.setHierarchalQuota g parentQuota)
  else if parentQuota ≠ runtimeInf ∧ parentQuota.toInt < quota.toInt then (-eInval, s)
  else (0, s.setHierarchalQuota g quota)

/-- `tg_cfs_schedulable_down`. -/
def tgCfsSchedulableDown (d : CfsSchedulableData) (g : Gid) (s : CfsGroups) :
    Option (Int × CfsGroups) :=
  match s.tree.parent g with
  | none => some (0, s.setHierarchalQuota g runtimeInf)
  | some parent =>
    (s.normalizeCfsQuota d g).map fun quota =>
      s.checkQuota g quota (s.cfsBandwidth parent).hierarchalQuota

/-- The data `__cfs_schedulable` walks with. -/
def cfsSchedulableData (tg : Gid) (period quota : BitVec 64) : CfsSchedulableData :=
  if quota ≠ runtimeInf then
    { tg := some tg, period := period / nsecPerUsec, quota := quota / nsecPerUsec }
  else { tg := some tg, period := period, quota := quota }

/-- `__cfs_schedulable`. -/
def cfsSchedulable (s : CfsGroups) (tg : Gid) (period quota : BitVec 64) :
    Option (Int × CfsGroups) :=
  Walk.walk s.tree.children (tgCfsSchedulableDown (cfsSchedulableData tg period quota)) Walk.nop
    (s.tree.height + 1) s.tree.root s

/-- `tg_set_cfs_bandwidth`. -/
def tgSetCfsBandwidth (s : CfsGroups) (tg : Gid) (period quota : BitVec 64) :
    Option (Int × CfsGroups) :=
  if tg = s.tree.root then some (-eInval, s)
  else if quota < minCfsQuotaPeriod ∨ period < minCfsQuotaPeriod then some (-eInval, s)
  else if maxCfsQuotaPeriod < period then some (-eInval, s)
  else (s.cfsSchedulable tg period quota).map fun (ret, t) =>
    if ret ≠ 0 then (ret, t)
    else (0, t.modBandwidth tg fun b => { b with period := period, quota := quota })

/-- The quota `tg_set_cfs_quota` passes on. -/
def cfsQuotaOf (cfsQuotaUs : BitVec 32) : BitVec 64 :=
  if cfsQuotaUs.toInt < 0 then runtimeInf else cfsQuotaUs.signExtend 64 * nsecPerUsec

/-- `tg_set_cfs_quota`. -/
def tgSetCfsQuota (s : CfsGroups) (tg : Gid) (cfsQuotaUs : BitVec 32) :
    Option (Int × CfsGroups) :=
  s.tgSetCfsBandwidth tg (s.cfsBandwidth tg).period (cfsQuotaOf cfsQuotaUs)

/-- `tg_set_cfs_period`. -/
def tgSetCfsPeriod (s : CfsGroups) (tg : Gid) (cfsPeriodUs : BitVec 32) :
    Option (Int × CfsGroups) :=
  s.tgSetCfsBandwidth tg (cfsPeriodUs.signExtend 64 * nsecPerUsec) (s.cfsBandwidth tg).quota

end CfsGroups

/-! ### The system -/

/-- The calls. -/
inductive CfsCall
  | tgSetCfsQuota (tg : Gid) (cfsQuotaUs : BitVec 32)
  | tgSetCfsPeriod (tg : Gid) (cfsPeriodUs : BitVec 32)

/-- The group a call is for. -/
def CfsCall.tg : CfsCall → Gid
  | tgSetCfsQuota tg _ => tg
  | tgSetCfsPeriod tg _ => tg

/-- What a call returns and leaves. -/
def cfsCall (s : CfsGroups) : CfsCall → Option (Int × CfsGroups)
  | .tgSetCfsQuota tg cfsQuotaUs => s.tgSetCfsQuota tg cfsQuotaUs
  | .tgSetCfsPeriod tg cfsPeriodUs => s.tgSetCfsPeriod tg cfsPeriodUs

/-- One step, for a group that exists. -/
def cfsStep (s : CfsGroups) (c : CfsCall) : Option CfsGroups :=
  if s.tree.mem c.tg then (cfsCall s c).map Prod.snd else none

end WrrScheduler
