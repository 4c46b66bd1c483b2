/-
Admission control of real-time bandwidth.

A ratio is a number of 20-bit fractions of the CPU.  As long as a runtime is at most
its period a ratio is at most one CPU, so the sum over the children of a group that
was admitted is at most one CPU, with the one proposed at most two, and nothing is
near the end of a word.  The check of a proposal reads the proposed numbers where
the group's own would be, so what it accepts is what the next state has.

The invariant is `Admitted`.  Half of it is what the check asks for, in numbers
instead of words; the other half is what keeps the words from wrapping, and it is
needed before the check can be read at all: a sum that had wrapped could pass.
Every bound is therefore carried over the natural numbers, and turned into the
statement about words once, at the end.
-/
import Mathlib.Algebra.Order.BigOperators.Group.List
import Mathlib.Algebra.Order.Ring.Nat
import WrrScheduler.Kernel.TaskGroup
import WrrScheduler.Lib.Run

namespace WrrScheduler

variable {b : RtBandwidth} {f : Gid → RtBandwidth} {s t : TaskGroups} {g p tg : Gid}
  {d : RtSchedulableData} {tgHasRtTasks : Gid → Bool}

/-! ### Ratios

`to_ratio` shifts by 20 before it divides, in 64 bits, and returns 32.  A runtime
below `2 ^ 41` survives the shift, and every number a setter passes on is below that:
it was microseconds in a word of 32 bits, or 31 in a sysctl, times a thousand.
-/

/-- `to_ratio` without a bound on its numbers. -/
def ratio (b : RtBandwidth) : Nat :=
  if b.rtRuntime = runtimeInf then 2 ^ 20 else b.rtRuntime.toNat * 2 ^ 20 / b.rtPeriod.toNat

/-- A bandwidth whose ratio can be computed. -/
structure Sane (b : RtBandwidth) : Prop where
  period : b.rtPeriod ≠ 0
  runtime : b.rtRuntime = runtimeInf ∨ b.rtRuntime.toNat < 2 ^ 41

/-- A bandwidth that asks for no more than there is. -/
def Fits (b : RtBandwidth) : Prop := b.rtRuntime ≤ b.rtPeriod ∨ b.rtRuntime = runtimeInf

theorem shift_toNat {runtime : BitVec 64} (h : runtime.toNat < 2 ^ 41) :
    (runtime <<< 20).toNat = runtime.toNat * 2 ^ 20 := by
  rw [BitVec.toNat_shiftLeft, Nat.shiftLeft_eq]
  exact Nat.mod_eq_of_lt (by omega)

theorem toRatio_eq (h : Sane b) : toRatio b.rtPeriod b.rtRuntime = some (BitVec.ofNat 32 (ratio b)) := by
  unfold toRatio ratio
  by_cases hinf : b.rtRuntime = runtimeInf
  · rw [if_pos hinf, if_pos hinf]
    decide
  · rw [if_neg hinf, if_neg hinf, if_neg h.period, ← shift_toNat (h.runtime.resolve_left hinf),
      ← BitVec.toNat_udiv, BitVec.ofNat_toNat]

theorem ratio_le (h : Fits b) : ratio b ≤ 2 ^ 20 := by
  unfold ratio
  split
  · exact Nat.le_refl _
  · next hinf =>
      have hle : b.rtRuntime.toNat ≤ b.rtPeriod.toNat := h.resolve_right hinf
      refine Nat.div_le_of_le_mul ?_
      rw [Nat.mul_comm]
      exact Nat.mul_le_mul_left _ hle |>.trans (Nat.le_of_eq (Nat.mul_comm _ _))

theorem toNat_ratio {n : Nat} (h : n ≤ 2 ^ 21) : (BitVec.ofNat 32 n).toNat = n := by
  rw [BitVec.toNat_ofNat]
  exact Nat.mod_eq_of_lt (by omega)

/-! ### Sums

`tg_rt_schedulable` adds the ratios of the children in 32 bits, and reads the proposed
bandwidth where the child's own would be.  A child is listed once, so proposing adds
at most one ratio.
-/

/-- The ratios of a list of groups, added up. -/
def sumOf (f : Gid → RtBandwidth) (l : List Gid) : Nat := (l.map fun c => ratio (f c)).sum

theorem sumRatios_eq {l : List Gid} (h : ∀ c, Sane (f c)) (n : Nat) :
    TaskGroups.sumRatios f l (BitVec.ofNat 32 n) = some (BitVec.ofNat 32 (n + sumOf f l)) := by
  induction l generalizing n with
  | nil => rfl
  | cons c cs ih =>
      rw [TaskGroups.sumRatios, toRatio_eq (h c), Option.bind_some, ← BitVec.ofNat_add, ih]
      rw [sumOf, sumOf, List.map_cons, List.sum_cons, Nat.add_assoc]

/-- Proposing a bandwidth for one group adds at most its ratio. -/
theorem sumOf_update_le {l : List Gid} (hl : l.Nodup) :
    sumOf (Function.update f tg b) l ≤ sumOf f l + ratio b := by
  induction l with
  | nil => exact Nat.zero_le _
  | cons c cs ih =>
      obtain ⟨hc, hcs⟩ := List.nodup_cons.mp hl
      simp only [sumOf, List.map_cons, List.sum_cons]
      by_cases htg : c = tg
      · subst htg
        have hrest : (cs.map fun a => ratio (Function.update f c b a)) = cs.map fun a => ratio (f a) := by
          refine List.map_congr_left fun a ha => ?_
          have hne : a ≠ c := by
            rintro rfl
            exact hc ha
          rw [Function.update_of_ne hne]
        rw [Function.update_self, hrest]
        omega
      · have hrest := ih hcs
        simp only [sumOf] at hrest
        rw [Function.update_of_ne htg]
        omega

/-- A group that is not among them does not matter. -/
theorem sumOf_update_of_not_mem {l : List Gid} (h : tg ∉ l) :
    sumOf (Function.update f tg b) l = sumOf f l := by
  refine congrArg List.sum (List.map_congr_left fun a ha => ?_)
  have hne : a ≠ tg := by
    rintro rfl
    exact h ha
  rw [Function.update_of_ne hne]

theorem sumOf_del_le (l : List Gid) : sumOf f (Sequence.del g l) ≤ sumOf f l :=
  (List.erase_sublist.map _).sum_le_sum fun _ _ => Nat.zero_le _

/-! ### The tree -/

namespace TgTree

variable {t : TgTree} {h : Gid}

theorem below_trans {c : Gid → List Gid} {a b x : Gid} (hab : Walk.Below c a b)
    (hbx : Walk.Below c b x) : Walk.Below c a x := by
  induction hab with
  | self => exact hbx
  | child hc _ ih => exact .child hc (ih hbx)

/-- Every group of the tree is below the root. -/
theorem below_root (t : TgTree) (g : Gid) (hg : t.mem g = true) :
    Walk.Below t.children t.root g := by
  induction hd : t.depth g generalizing g with
  | zero =>
      cases hparent : t.parent g with
      | none =>
          obtain rfl : g = t.root := by simpa [mem, hparent] using hg
          exact .self _
      | some h =>
          have hdepth := t.depth_parent g h hparent
          omega
  | succ n ih =>
      cases hparent : t.parent g with
      | none =>
          obtain rfl : g = t.root := by simpa [mem, hparent] using hg
          exact .self _
      | some h =>
          have hdepth := t.depth_parent g h hparent
          have habove := ih h (mem_of_parent hparent) (by omega)
          exact below_trans habove (.child ((t.mem_children h g).mpr hparent) (.self g))

theorem depth_children (t : TgTree) (g : Gid) : ∀ c ∈ t.children g, t.depth c = t.depth g + 1 :=
  fun c hc => t.depth_parent c g ((t.mem_children g c).mp hc)

theorem mem_iff : t.mem g = true ↔ g = t.root ∨ (t.parent g).isSome = true := by
  rw [mem, Bool.or_eq_true, decide_eq_true_iff]

theorem mem_root (t : TgTree) : t.mem t.root = true := mem_iff.mpr (Or.inl rfl)

theorem mem_insert (hp : t.mem p = true) (hg : t.mem g = false) :
    (t.insert p g hp hg).mem h = true ↔ h = g ∨ t.mem h = true := by
  rw [mem_iff, mem_iff]
  show h = t.root ∨ (Function.update t.parent g (some p) h).isSome = true ↔ _
  by_cases hh : h = g
  · subst hh
    simp
  · simp [hh]

theorem mem_of_mem_erase (hg : t.children g = []) (hh : (t.erase g hg).mem h = true) :
    t.mem h = true := by
  rw [mem_iff] at hh ⊢
  refine hh.imp_right fun hsome => ?_
  have hparent : (Function.update t.parent g none h).isSome = true := hsome
  by_cases hhg : h = g
  · subst hhg
    simp at hparent
  · rwa [Function.update_of_ne hhg] at hparent

theorem children_of_not_mem (hg : t.mem g = false) : t.children g = [] := by
  refine List.eq_nil_iff_forall_not_mem.mpr fun h hh => ?_
  exact parent_ne_of_not_mem hg h ((t.mem_children g h).mp hh)

end TgTree

namespace TaskGroups

/-! ### A visit -/

/-- The global bandwidth. -/
def globalBandwidth (s : TaskGroups) : RtBandwidth := ⟨s.globalRtPeriod, s.globalRtRuntime⟩

theorem usec_toNat (us : BitVec 32) : (us.setWidth 64 * nsecPerUsec).toNat = us.toNat * 1000 := by
  have hlt := us.isLt
  have hnsec : nsecPerUsec.toNat = 1000 := rfl
  rw [BitVec.toNat_mul, BitVec.toNat_setWidth, hnsec]
  omega

/-- A count of microseconds that is not negative. -/
theorem signExtend_usec {us : BitVec 32} (h : 0 ≤ us.toInt) :
    (us.signExtend 64 * nsecPerUsec).toNat = us.toNat * 1000 ∧ us.toNat < 2 ^ 31 := by
  have hlt : us.toNat < 2 ^ 31 := by
    rw [BitVec.toInt_eq_toNat_cond] at h
    split at h
    · omega
    · omega
  have hmsb : us.msb = false := by
    rw [BitVec.msb_eq_decide]
    simpa using hlt
  rw [BitVec.signExtend_eq_setWidth_of_msb_false hmsb]
  exact ⟨usec_toNat us, hlt⟩

/-- What a setter passes on never wraps when it is shifted. -/
theorem rtRuntimeOf_small (us : BitVec 32) :
    rtRuntimeOf us = runtimeInf ∨ (rtRuntimeOf us).toNat < 2 ^ 41 := by
  unfold rtRuntimeOf
  split
  · exact Or.inl rfl
  · next h =>
      obtain ⟨heq, hlt⟩ := @signExtend_usec us (by omega)
      exact Or.inr (by omega)

theorem sane_global (h : s.sysctlSchedRtPeriod ≠ 0) : Sane s.globalBandwidth where
  period := by
    intro hzero
    have htoNat : s.globalRtPeriod.toNat = s.sysctlSchedRtPeriod.toNat * 1000 :=
      usec_toNat s.sysctlSchedRtPeriod
    have hperiod : s.globalRtPeriod.toNat = 0 := congrArg BitVec.toNat hzero
    refine h (BitVec.eq_of_toNat_eq (Eq.trans ?_ BitVec.toNat_zero.symm))
    omega
  runtime := rtRuntimeOf_small s.sysctlSchedRtRuntime

/-- What a visit that finds nothing wrong has found. -/
structure Passes (s : TaskGroups) (f : Gid → RtBandwidth) (g : Gid) : Prop where
  fits : Fits (f g)
  limit : BitVec.ofNat 32 (ratio (f g)) ≤ BitVec.ofNat 32 (ratio s.globalBandwidth)
  children : BitVec.ofNat 32 (sumOf f (s.tree.children g)) ≤ BitVec.ofNat 32 (ratio (f g))

theorem tgRtSchedulable_spec (hf : ∀ c, Sane (s.bandwidth d c)) (hglobal : Sane s.globalBandwidth)
    (g : Gid) : ∃ r, s.tgRtSchedulable tgHasRtTasks d g = some r ∧
      (r = 0 → Passes s (s.bandwidth d) g) := by
  unfold tgRtSchedulable
  dsimp only
  split
  · exact ⟨-eInval, rfl, fun h => by cases h⟩
  · next hfits =>
      split
      · exact ⟨-eBusy, rfl, fun h => by cases h⟩
      · have hlimit : toRatio s.globalRtPeriod s.globalRtRuntime =
            some (BitVec.ofNat 32 (ratio s.globalBandwidth)) := toRatio_eq hglobal
        have hsum := @sumRatios_eq (s.bandwidth d) (s.tree.children g) hf 0
        rw [Nat.zero_add] at hsum
        rw [toRatio_eq (hf g), Option.bind_some, hlimit, Option.bind_some, checkRatios,
          show (0 : BitVec 32) = BitVec.ofNat 32 0 from rfl, hsum]
        split
        · exact ⟨-eInval, rfl, fun h => by cases h⟩
        · next hle =>
            refine ⟨_, rfl, fun hzero => ?_⟩
            have hchildren : ¬ BitVec.ofNat 32 (ratio (s.bandwidth d g)) <
                BitVec.ofNat 32 (sumOf (s.bandwidth d) (s.tree.children g)) := by
              intro hlt
              simp only [if_pos hlt] at hzero
              cases hzero
            refine ⟨?_, BitVec.not_lt.mp hle, BitVec.not_lt.mp hchildren⟩
            by_cases hinf : (s.bandwidth d g).rtRuntime = runtimeInf
            · exact Or.inr hinf
            · exact Or.inl (BitVec.not_lt.mp fun hlt => hfits ⟨hlt, hinf⟩)

/-- **The walk of a check returns, and if it finds nothing wrong every group passes.** -/
theorem rtSchedulable_spec (hf : ∀ c, Sane (s.bandwidth d c)) (hglobal : Sane s.globalBandwidth) :
    ∃ r, s.rtSchedulable tgHasRtTasks d = some r ∧
      (r = 0 → ∀ g, s.tree.mem g = true → Passes s (s.bandwidth d) g) := by
  have hvisit := @tgRtSchedulable_spec s d tgHasRtTasks hf hglobal
  have hdown : ∀ (g : Gid) (u : Unit), True →
      ∃ r u', Walk.test (s.tgRtSchedulable tgHasRtTasks d) g u = some (r, u') ∧ True := by
    intro g u _
    obtain ⟨r, hr, -⟩ := hvisit g
    exact ⟨r, u, Walk.test_eq_some.mpr ⟨hr, rfl⟩, trivial⟩
  have hup : ∀ (g : Gid) (u : Unit), True → ∃ r u', Walk.nop g u = some (r, u') ∧ True :=
    fun g u _ => ⟨0, u, rfl, trivial⟩
  obtain ⟨r, u, hwalk, -⟩ := @Walk.walk_keeps Gid Unit s.tree.children _ _ () (fun _ => True) hdown
    hup (s.tree.height + 1) s.tree.root trivial
  refine ⟨r, by rw [rtSchedulable, hwalk]; rfl, ?_⟩
  rintro rfl g hg
  obtain ⟨_, _, hpass⟩ := Walk.passed_of_walk s.tree.depth s.tree.height s.tree.depth_children
    s.tree.depth_le (by omega) hwalk (s.tree.below_root g hg)
  obtain ⟨r, hr, hzero⟩ := hvisit g
  rw [(Walk.test_eq_some.mp hpass).1] at hr
  exact hzero (Option.some.inj hr).symm

/-! ### Every state

A setter writes what was proposed if the check passed, and then the next state's own
bandwidths are the ones the check read.  A write of a sysctl value changes no group,
but the bound that all of them are compared with; the handler writes, checks, and puts
the old values back if that fails. A new group has no runtime, and one that goes had
no children.
-/

/-- What admission control keeps. -/
structure Admitted (s : TaskGroups) : Prop where
  sane : ∀ g, Sane (s.rtBandwidth g)
  period : s.defRtBandwidth.rtPeriod ≠ 0
  sysctl : s.sysctlSchedRtPeriod ≠ 0
  global : Fits s.globalBandwidth
  fits : ∀ g, s.tree.mem g = true → Fits (s.rtBandwidth g)
  limit : ∀ g, s.tree.mem g = true → ratio (s.rtBandwidth g) ≤ ratio s.globalBandwidth
  children : ∀ g, s.tree.mem g = true →
    sumOf s.rtBandwidth (s.tree.children g) ≤ ratio (s.rtBandwidth g)

/-- The bounds as the code computes them, read as numbers. -/
theorem Passes.limit_le (h : Passes s f g) (hglobal : Fits s.globalBandwidth) :
    ratio (f g) ≤ ratio s.globalBandwidth := by
  have hratio := ratio_le h.fits
  have hlimit := ratio_le hglobal
  have hle : (BitVec.ofNat 32 (ratio (f g))).toNat ≤
      (BitVec.ofNat 32 (ratio s.globalBandwidth)).toNat := h.limit
  rwa [toNat_ratio (by omega), toNat_ratio (by omega)] at hle

theorem Passes.children_le (h : Passes s f g)
    (hsum : sumOf f (s.tree.children g) ≤ 2 ^ 21) :
    sumOf f (s.tree.children g) ≤ ratio (f g) := by
  have hratio := ratio_le h.fits
  have hle : (BitVec.ofNat 32 (sumOf f (s.tree.children g))).toNat ≤
      (BitVec.ofNat 32 (ratio (f g))).toNat := h.children
  rwa [toNat_ratio hsum, toNat_ratio (by omega)] at hle

theorem Admitted.sum_le (h : Admitted s) (hg : s.tree.mem g = true) :
    sumOf s.rtBandwidth (s.tree.children g) ≤ 2 ^ 20 :=
  (h.children g hg).trans (ratio_le (h.fits g hg))

theorem bandwidth_some (s : TaskGroups) (tg : Gid) (period runtime : BitVec 64) :
    s.bandwidth { tg := some tg, rtPeriod := period, rtRuntime := runtime } =
      Function.update s.rtBandwidth tg ⟨period, runtime⟩ := by
  funext g
  by_cases hg : g = tg
  · subst hg
    simp [bandwidth]
  · simp [bandwidth, hg]

theorem bandwidth_none (s : TaskGroups) (period runtime : BitVec 64) :
    s.bandwidth { tg := none, rtPeriod := period, rtRuntime := runtime } = s.rtBandwidth := by
  funext g
  simp [bandwidth]

/-- **Setting a bandwidth returns**, with an error and nothing changed or with the new one
admitted. -/
theorem Admitted.tgSetRtBandwidth (h : Admitted s) (htg : s.tree.mem tg = true)
    {period runtime : BitVec 64} (hperiod : period ≠ 0)
    (hruntime : runtime = runtimeInf ∨ runtime.toNat < 2 ^ 41) :
    ∃ ret t, s.tgSetRtBandwidth tgHasRtTasks tg period runtime = some (ret, t) ∧
      (ret ≠ 0 → t = s) ∧ Admitted t := by
  have hsane : ∀ c, Sane (Function.update s.rtBandwidth tg ⟨period, runtime⟩ c) := by
    intro c
    by_cases hc : c = tg
    · subst hc
      rw [Function.update_self]
      exact ⟨hperiod, hruntime⟩
    · rw [Function.update_of_ne hc]
      exact h.sane c
  have hbandwidth := bandwidth_some s tg period runtime
  obtain ⟨r, hr, hpasses⟩ := @rtSchedulable_spec s
    { tg := some tg, rtPeriod := period, rtRuntime := runtime } tgHasRtTasks
    (by rw [hbandwidth]; exact hsane) (sane_global h.sysctl)
  rw [hbandwidth] at hpasses
  rw [TaskGroups.tgSetRtBandwidth, hr]
  by_cases hzero : r = 0
  · refine ⟨0, _, by rw [Option.map_some, if_neg (not_not.mpr hzero)], fun hc => absurd rfl hc, ?_⟩
    have hpass := hpasses hzero
    have hnew : ratio ⟨period, runtime⟩ ≤ 2 ^ 20 := by
      have hfits := (hpass tg htg).fits
      rw [Function.update_self] at hfits
      exact ratio_le hfits
    refine ⟨hsane, h.period, h.sysctl, h.global, fun g hg => (hpass g hg).fits,
      fun g hg => (hpass g hg).limit_le h.global, fun g hg => (hpass g hg).children_le ?_⟩
    have hgrow := @sumOf_update_le ⟨period, runtime⟩ s.rtBandwidth tg _ (s.tree.nodup_children g)
    have hold := h.sum_le hg
    omega
  · exact ⟨r, s, by rw [Option.map_some, if_pos hzero], fun _ => rfl, h⟩

theorem Admitted.schedGroupSetRtRuntime (h : Admitted s) (htg : s.tree.mem tg = true)
    (us : BitVec 32) : ∃ ret t, s.schedGroupSetRtRuntime tgHasRtTasks tg us = some (ret, t) ∧
      (ret ≠ 0 → t = s) ∧ Admitted t :=
  h.tgSetRtBandwidth htg (h.sane tg).period (rtRuntimeOf_small us)

theorem Admitted.schedGroupSetRtPeriod (h : Admitted s) (htg : s.tree.mem tg = true)
    (us : BitVec 32) : ∃ ret t, s.schedGroupSetRtPeriod tgHasRtTasks tg us = some (ret, t) ∧
      (ret ≠ 0 → t = s) ∧ Admitted t := by
  by_cases hzero : us.signExtend 64 * nsecPerUsec = 0
  · refine ⟨-eInval, s, ?_, fun _ => rfl, h⟩
    rw [TaskGroups.schedGroupSetRtPeriod, if_pos hzero]
  · rw [TaskGroups.schedGroupSetRtPeriod, if_neg hzero]
    exact h.tgSetRtBandwidth htg hzero (h.sane tg).runtime

/-- **A write of a sysctl value returns**, with an error and nothing changed or with the new value
in force. -/
theorem Admitted.schedRtHandler (h : Admitted s) (table : RtSysctl) (write : Bool) (ret : Int)
    (val : BitVec 32) : ∃ ret' t,
      s.schedRtHandler tgHasRtTasks table write ret val = some (ret', t) ∧
        (ret' ≠ 0 → t = s) ∧ Admitted t := by
  by_cases hwrite : ret = 0 ∧ write = true
  · -- `t` is the state with the new value; resetting both values leads back to `s`.
    obtain ⟨t, ht, htree, hbandwidth, hdef, hreset⟩ : ∃ t, s.procDointvec table write ret val = t ∧
        t.tree = s.tree ∧ t.rtBandwidth = s.rtBandwidth ∧ t.defRtBandwidth = s.defRtBandwidth ∧
        { t with sysctlSchedRtPeriod := s.sysctlSchedRtPeriod
                 sysctlSchedRtRuntime := s.sysctlSchedRtRuntime } = s := by
      cases table with
      | schedRtPeriod =>
          exact ⟨{ s with sysctlSchedRtPeriod := val }, if_pos hwrite, rfl, rfl, rfl, rfl⟩
      | schedRtRuntime =>
          exact ⟨{ s with sysctlSchedRtRuntime := val }, if_pos hwrite, rfl, rfl, rfl, rfl⟩
    rw [TaskGroups.schedRtHandler, ht, if_pos hwrite, schedRtGlobalConstraints]
    by_cases hperiod : t.sysctlSchedRtPeriod = 0
    · refine ⟨-eInval, s, ?_, fun _ => rfl, h⟩
      rw [if_pos hperiod, Option.map_some, if_pos (by decide), hreset]
    · by_cases hfits : t.globalRtPeriod < t.globalRtRuntime ∧ t.globalRtRuntime ≠ runtimeInf
      · refine ⟨-eInval, s, ?_, fun _ => rfl, h⟩
        rw [if_neg hperiod, if_pos hfits, Option.map_some, if_pos (by decide), hreset]
      · have hb : t.bandwidth { tg := none, rtPeriod := 0, rtRuntime := 0 } = s.rtBandwidth := by
          rw [bandwidth_none, hbandwidth]
        obtain ⟨r, hr, hpasses⟩ := @rtSchedulable_spec t
          { tg := none, rtPeriod := 0, rtRuntime := 0 } tgHasRtTasks
          (by rw [hb]; exact h.sane) (sane_global hperiod)
        rw [if_neg hperiod, if_neg hfits, hr, Option.map_some]
        by_cases hzero : r = 0
        · refine ⟨0, _, by rw [if_neg (not_not.mpr hzero)], fun hc => absurd rfl hc, ?_⟩
          have hglobal : Fits t.globalBandwidth := by
            by_cases hinf : t.globalRtRuntime = runtimeInf
            · exact Or.inr hinf
            · exact Or.inl (BitVec.not_lt.mp fun hlt => hfits ⟨hlt, hinf⟩)
          have hpass := hpasses hzero
          rw [hb, htree] at hpass
          have hsum : ∀ g, s.tree.mem g = true →
              sumOf s.rtBandwidth (t.tree.children g) ≤ 2 ^ 21 := by
            intro g hg
            have hold := h.sum_le hg
            rw [htree]
            omega
          refine ⟨?_, (sane_global hperiod).period, hperiod, hglobal, ?_, ?_, ?_⟩
          · show ∀ g, Sane (t.rtBandwidth g)
            rw [hbandwidth]
            exact h.sane
          · show ∀ g, t.tree.mem g = true → Fits (t.rtBandwidth g)
            rw [hbandwidth, htree]
            exact fun g hg => (hpass g hg).fits
          · show ∀ g, t.tree.mem g = true → ratio (t.rtBandwidth g) ≤ ratio t.globalBandwidth
            rw [hbandwidth, htree]
            exact fun g hg => (hpass g hg).limit_le hglobal
          · show ∀ g, t.tree.mem g = true →
              sumOf t.rtBandwidth (t.tree.children g) ≤ ratio (t.rtBandwidth g)
            rw [hbandwidth]
            intro g hg
            rw [htree] at hg
            exact (hpass g hg).children_le (hsum g hg)
        · exact ⟨r, s, by rw [if_pos hzero, hreset], fun _ => rfl, h⟩
  · have ht : s.procDointvec table write ret val = s := if_neg hwrite
    refine ⟨ret, s, ?_, fun _ => rfl, h⟩
    rw [TaskGroups.schedRtHandler, ht, if_neg hwrite]

theorem runtime_alloc (s : TaskGroups) : s.allocRtSchedGroup.rtRuntime = 0 := rfl

theorem sane_alloc (h : s.defRtBandwidth.rtPeriod ≠ 0) : Sane s.allocRtSchedGroup where
  period := h
  runtime := Or.inr (by rw [runtime_alloc]; decide)

theorem fits_alloc (s : TaskGroups) : Fits s.allocRtSchedGroup :=
  Or.inl (BitVec.not_lt.mp (by rw [runtime_alloc]; exact BitVec.not_lt_zero))

theorem ratio_alloc (s : TaskGroups) : ratio s.allocRtSchedGroup = 0 := by
  have hzero : (0 : BitVec 64).toNat = 0 := rfl
  rw [ratio, runtime_alloc, if_neg (by decide), hzero, Nat.zero_mul, Nat.zero_div]

/-- A new group asks for nothing. -/
theorem Admitted.schedCreateGroup (h : Admitted s) (hp : s.tree.mem p = true)
    (hg : s.tree.mem g = false) : Admitted (s.schedCreateGroup p g hp hg) where
  sane c := by
    show Sane (Function.update s.rtBandwidth g s.allocRtSchedGroup c)
    by_cases hc : c = g
    · subst hc
      rw [Function.update_self]
      exact sane_alloc h.period
    · rw [Function.update_of_ne hc]
      exact h.sane c
  period := h.period
  sysctl := h.sysctl
  global := h.global
  fits c hc := by
    show Fits (Function.update s.rtBandwidth g s.allocRtSchedGroup c)
    by_cases hcg : c = g
    · subst hcg
      rw [Function.update_self]
      exact fits_alloc s
    · rw [Function.update_of_ne hcg]
      exact h.fits c ((TgTree.mem_insert hp hg).mp hc |>.resolve_left hcg)
  limit c hc := by
    show ratio (Function.update s.rtBandwidth g s.allocRtSchedGroup c) ≤ ratio s.globalBandwidth
    by_cases hcg : c = g
    · subst hcg
      rw [Function.update_self, ratio_alloc]
      exact Nat.zero_le _
    · rw [Function.update_of_ne hcg]
      exact h.limit c ((TgTree.mem_insert hp hg).mp hc |>.resolve_left hcg)
  children c hc := by
    show sumOf (Function.update s.rtBandwidth g s.allocRtSchedGroup)
        (Function.update s.tree.children p (Sequence.add g (s.tree.children p)) c) ≤
      ratio (Function.update s.rtBandwidth g s.allocRtSchedGroup c)
    have hpg : p ≠ g := by
      rintro rfl
      rw [hp] at hg
      cases hg
    have hnew : ∀ a, g ∉ s.tree.children a := by
      intro a ha
      rw [s.tree.mem_children, TgTree.parent_of_not_mem hg] at ha
      cases ha
    by_cases hcg : c = g
    · subst hcg
      rw [Function.update_of_ne (Ne.symm hpg), TgTree.children_of_not_mem hg]
      exact Nat.zero_le _
    · have hold := h.children c ((TgTree.mem_insert hp hg).mp hc |>.resolve_left hcg)
      rw [Function.update_of_ne hcg]
      by_cases hcp : c = p
      · subst hcp
        have hrest := @sumOf_update_of_not_mem s.allocRtSchedGroup s.rtBandwidth g _ (hnew c)
        rw [Function.update_self, Sequence.add, sumOf, List.map_cons, List.sum_cons,
          Function.update_self, ratio_alloc, Nat.zero_add]
        exact hrest.trans_le hold
      · rw [Function.update_of_ne hcp, sumOf_update_of_not_mem (hnew c)]
        exact hold

/-- A group that goes takes its ratio with it. -/
theorem Admitted.schedDestroyGroup (h : Admitted s) (hg : s.tree.children g = []) :
    Admitted (s.schedDestroyGroup g hg) where
  sane := h.sane
  period := h.period
  sysctl := h.sysctl
  global := h.global
  fits c hc := h.fits c (TgTree.mem_of_mem_erase hg hc)
  limit c hc := h.limit c (TgTree.mem_of_mem_erase hg hc)
  children c hc :=
    (sumOf_del_le _).trans (h.children c (TgTree.mem_of_mem_erase hg hc))

/-- **Every call returns**, and it leaves an admitted state; if it returns an error it leaves
everything as it was. -/
theorem Admitted.call (h : Admitted s) {c : GroupCall} (hc : groupCallable s c = true) :
    ∃ ret t, groupCall s c = some (ret, t) ∧ (ret ≠ 0 → t = s) ∧ Admitted t := by
  cases c with
  | schedCreateGroup parent g enomem =>
      obtain ⟨hp, hg⟩ : s.tree.mem parent = true ∧ s.tree.mem g = false := by
        simpa [groupCallable] using hc
      rw [groupCall, dif_pos ⟨hp, hg⟩]
      cases enomem with
      | true => exact ⟨-eNomem, s, rfl, fun _ => rfl, h⟩
      | false => exact ⟨0, _, rfl, fun hc => absurd rfl hc, h.schedCreateGroup hp hg⟩
  | schedDestroyGroup g =>
      obtain ⟨-, hg⟩ : (s.tree.mem g = true ∧ ¬ g = s.tree.root) ∧ s.tree.children g = [] := by
        simpa [groupCallable] using hc
      rw [groupCall, dif_pos hg]
      exact ⟨0, _, rfl, fun hc => absurd rfl hc, h.schedDestroyGroup hg⟩
  | schedGroupSetRtRuntime tg us tgHasRtTasks => exact h.schedGroupSetRtRuntime hc us
  | schedGroupSetRtPeriod tg us tgHasRtTasks => exact h.schedGroupSetRtPeriod hc us
  | schedRtHandler table write ret val tgHasRtTasks => exact h.schedRtHandler table write ret val

/-- The bandwidth everything starts with. -/
def bootBandwidth : RtBandwidth := ⟨1000000000, 950000000⟩

theorem fits_bootBandwidth : Fits bootBandwidth := Or.inl (by decide)

theorem globalBandwidth_groupBoot (root : Gid) :
    (groupBoot root).globalBandwidth = bootBandwidth := by
  have hperiod : (groupBoot root).globalRtPeriod = bootBandwidth.rtPeriod := by
    show (1000000 : BitVec 32).setWidth 64 * nsecPerUsec = 1000000000
    decide
  have hruntime : (groupBoot root).globalRtRuntime = bootBandwidth.rtRuntime := by
    show rtRuntimeOf 950000 = 950000000
    decide
  rw [globalBandwidth, hperiod, hruntime]

theorem admitted_groupBoot (root : Gid) : Admitted (groupBoot root) where
  sane _ := show Sane bootBandwidth from ⟨by decide, Or.inr (by decide)⟩
  period := show bootBandwidth.rtPeriod ≠ 0 by decide
  sysctl := show (1000000 : BitVec 32) ≠ 0 by decide
  global := by
    rw [globalBandwidth_groupBoot]
    exact fits_bootBandwidth
  fits _ _ := fits_bootBandwidth
  limit g _ := by
    rw [globalBandwidth_groupBoot]
    exact Nat.le_refl (ratio bootBandwidth)
  children _ _ := Nat.zero_le _

/-! ### As the code computes it -/

/-- What is to hold of a group: its runtime fits, nothing wraps when it is shifted, and its ratio
is between the sum of its children's and the global one, as `tg_rt_schedulable` computes them; the
sum of the words is the word of the sum. -/
def Schedulable (s : TaskGroups) (g : Gid) : Prop :=
  let b := s.rtBandwidth g
  (b.rtRuntime ≤ b.rtPeriod ∨ b.rtRuntime = runtimeInf) ∧
  (b.rtRuntime = runtimeInf ∨ (b.rtRuntime <<< 20).toNat = b.rtRuntime.toNat * 2 ^ 20) ∧
  ∃ total limit sum, toRatio b.rtPeriod b.rtRuntime = some total ∧
    toRatio s.globalRtPeriod s.globalRtRuntime = some limit ∧
    sumRatios s.rtBandwidth (s.tree.children g) 0 = some sum ∧ total ≤ limit ∧ sum ≤ total ∧
    sum.toNat = ((s.tree.children g).map fun c =>
      ((toRatio (s.rtBandwidth c).rtPeriod (s.rtBandwidth c).rtRuntime).getD 0).toNat).sum

theorem Admitted.schedulable (h : Admitted s) (hg : s.tree.mem g = true) : s.Schedulable g := by
  have hratio := ratio_le (h.fits g hg)
  have hglobal := ratio_le h.global
  have hsum := h.sum_le hg
  have hlimit := h.limit g hg
  have hchildren := h.children g hg
  have hsumRatios := @sumRatios_eq s.rtBandwidth (s.tree.children g) h.sane 0
  rw [Nat.zero_add] at hsumRatios
  refine ⟨h.fits g hg, (h.sane g).runtime.imp_right shift_toNat, _, _, _, toRatio_eq (h.sane g),
    toRatio_eq (sane_global h.sysctl), hsumRatios, ?_, ?_, ?_⟩
  · show BitVec.toNat _ ≤ BitVec.toNat _
    rwa [toNat_ratio (by omega), toNat_ratio (by omega)]
  · show BitVec.toNat _ ≤ BitVec.toNat _
    rwa [toNat_ratio (by omega), toNat_ratio (by omega)]
  · rw [toNat_ratio (by omega), sumOf]
    refine congrArg List.sum (List.map_congr_left fun c hc => ?_)
    have hmem : s.tree.mem c = true :=
      TgTree.mem_iff.mpr (Or.inr (by rw [(s.tree.mem_children g c).mp hc]; rfl))
    have hle := ratio_le (h.fits c hmem)
    rw [toRatio_eq (h.sane c), Option.getD_some, toNat_ratio (by omega)]

end TaskGroups

/-- **Admission control**: in every state every group is schedulable, every call returns, one that
returns an error changes nothing, and no runtime a setter passes on wraps when it is shifted. -/
theorem admission (root : Gid) (s : TaskGroups)
    (h : Run.Reachable groupStep (groupBoot root) s) :
    (∀ g, s.tree.mem g = true → s.Schedulable g) ∧
    (∀ c, groupCallable s c = true → ∃ ret t, groupCall s c = some (ret, t) ∧ (ret ≠ 0 → t = s)) ∧
    ∀ us, TaskGroups.rtRuntimeOf us = runtimeInf ∨
      (TaskGroups.rtRuntimeOf us <<< 20).toNat = (TaskGroups.rtRuntimeOf us).toNat * 2 ^ 20 := by
  have hstep : ∀ s c t, TaskGroups.Admitted s → groupStep s c = some t → TaskGroups.Admitted t := by
    intro s c t hs hc
    unfold groupStep at hc
    split at hc
    · next hcall =>
        obtain ⟨ret, t', ht', -, hadmitted⟩ := hs.call hcall
        rw [ht'] at hc
        cases hc
        exact hadmitted
    · cases hc
  have hs : TaskGroups.Admitted s :=
    h.invariant TaskGroups.Admitted hstep (TaskGroups.admitted_groupBoot root)
  refine ⟨fun g hg => hs.schedulable hg, ?_, fun us => ?_⟩
  · intro c hc
    obtain ⟨ret, t, ht, hsame, -⟩ := hs.call hc
    exact ⟨ret, t, ht, hsame⟩
  · exact (TaskGroups.rtRuntimeOf_small us).imp_right shift_toNat

/-- No group has real-time tasks. -/
def noRtTasks (_ : Gid) : Bool := false

/-- A group gets half the CPU, and one below it a quarter. -/
theorem admission_two : ∃ s : TaskGroups, (s.rtBandwidth 2).rtRuntime = 250000000 ∧
    (∀ g, s.tree.mem g = true → s.Schedulable g) ∧
    (∀ c, groupCallable s c = true → ∃ ret t, groupCall s c = some (ret, t) ∧ (ret ≠ 0 → t = s)) ∧
    ∀ us, TaskGroups.rtRuntimeOf us = runtimeInf ∨
      (TaskGroups.rtRuntimeOf us <<< 20).toNat = (TaskGroups.rtRuntimeOf us).toNat * 2 ^ 20 := by
  have hrun : ((Run.exec groupStep (groupBoot 0)
      [.schedCreateGroup 0 1 false, .schedCreateGroup 1 2 false,
        .schedGroupSetRtRuntime 1 500000 noRtTasks,
        .schedGroupSetRtRuntime 2 250000 noRtTasks]).any fun s => decide
          ((s.rtBandwidth 2).rtRuntime = 250000000)) = true := by decide +kernel
  obtain ⟨s, hreach, hs⟩ := Run.exists_of_exec hrun
  exact ⟨s, hs, admission 0 s hreach⟩

end WrrScheduler
