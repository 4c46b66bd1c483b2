/-
The hierarchy of quotas in the fair class.

What a group inherits is the ratio of the nearest limited group above it, and a
check compares each group with what its parent inherits.  While the walk runs, that
is what it has left in `hierarchal_quota` of the parent: the root's is written
first, and a group's before those of its children, so a value from an earlier walk
is never read.  The verdict is thus that of a test that reads periods and quotas
only, and what it accepts is what the next state has.

The walk writes while it checks, and a refused request leaves what it wrote.  That
is harmless by the first point, but it is why the invariant may not mention
`hierarchal_quota`, and why a failed call is said to leave the *limits* as they
were.
-/
import WrrScheduler.Kernel.CfsBandwidth
import WrrScheduler.Proofs.Admission

namespace WrrScheduler

namespace CfsGroups

variable {s t u : CfsGroups} {d : CfsSchedulableData} {g h a tg : Gid} {ret : Int}
  {period quota : BitVec 64}

/-! ### What the check reads

`passesOn` is defined by going up from a group, where the walk goes down and leaves
notes.  It does not look at the notes, so it is the same in any two states with the
same limits.
-/

/-- Two states with the same tree, periods and quotas. -/
structure SameLimits (s t : CfsGroups) : Prop where
  tree : t.tree = s.tree
  period : ∀ g, (t.cfsBandwidth g).period = (s.cfsBandwidth g).period
  quota : ∀ g, (t.cfsBandwidth g).quota = (s.cfsBandwidth g).quota

theorem SameLimits.refl (s : CfsGroups) : SameLimits s s := ⟨rfl, fun _ => rfl, fun _ => rfl⟩

theorem SameLimits.setHierarchalQuota (hst : SameLimits s t) (g : Gid) (quota : BitVec 64) :
    SameLimits s (t.setHierarchalQuota g quota) where
  tree := hst.tree
  period h := by
    show (Function.update t.cfsBandwidth g _ h).period = _
    by_cases hh : h = g
    · subst hh
      rw [Function.update_self]
      exact hst.period h
    · rw [Function.update_of_ne hh]
      exact hst.period h
  quota h := by
    show (Function.update t.cfsBandwidth g _ h).quota = _
    by_cases hh : h = g
    · subst hh
      rw [Function.update_self]
      exact hst.quota h
    · rw [Function.update_of_ne hh]
      exact hst.quota h

theorem SameLimits.normalizeCfsQuota (hst : SameLimits s t) (d : CfsSchedulableData) (g : Gid) :
    t.normalizeCfsQuota d g = s.normalizeCfsQuota d g := by
  have hperiod : t.tgGetCfsPeriod g = s.tgGetCfsPeriod g := by
    rw [tgGetCfsPeriod, tgGetCfsPeriod, hst.period]
  have hquota : t.tgGetCfsQuota g = s.tgGetCfsQuota g := by
    rw [tgGetCfsQuota, tgGetCfsQuota, hst.quota]
  rw [CfsGroups.normalizeCfsQuota, CfsGroups.normalizeCfsQuota, hperiod, hquota]

/-- What a group passes on to those below it: its own ratio, or else what it inherits. -/
def inherited (s : CfsGroups) (d : CfsSchedulableData) : Nat → Gid → Option (BitVec 64)
  | 0, _ => some runtimeInf
  | n + 1, g =>
    match s.tree.parent g with
    | none => some runtimeInf
    | some h => (s.normalizeCfsQuota d g).bind fun quota =>
        if quota = runtimeInf then s.inherited d n h else some quota

/-- The same, from as many levels as there are above the group. -/
def passesOn (s : CfsGroups) (d : CfsSchedulableData) (g : Gid) : Option (BitVec 64) :=
  s.inherited d (s.tree.depth g + 1) g

/-- The check of one group, from periods and quotas alone. -/
def cfsTest (s : CfsGroups) (d : CfsSchedulableData) (g : Gid) : Option Int :=
  match s.tree.parent g with
  | none => some 0
  | some h => (s.normalizeCfsQuota d g).bind fun quota =>
      if quota = runtimeInf then some 0
      else (s.passesOn d h).map fun parentQuota =>
        if parentQuota ≠ runtimeInf ∧ parentQuota.toInt < quota.toInt then -eInval else 0

theorem passesOn_root (hg : s.tree.parent g = none) : s.passesOn d g = some runtimeInf := by
  rw [passesOn, inherited, hg]

theorem passesOn_child (hg : s.tree.parent g = some h) :
    s.passesOn d g = (s.normalizeCfsQuota d g).bind fun quota =>
      if quota = runtimeInf then s.passesOn d h else some quota := by
  rw [passesOn, inherited, hg]
  simp only [passesOn, s.tree.depth_parent g h hg]

/-! ### A visit

A visit of a group reads its parent's note and writes its own.  A visit of a group no
higher than this one does not touch the parent's note, so what is ready stays ready
until it is visited; that is the one place where the order of the walk matters.
-/

/-- A visit of a group is sure to agree with the test: the limits are those of `s`, and the parent
has been visited. -/
def Ready (s : CfsGroups) (d : CfsSchedulableData) (g : Gid) (t : CfsGroups) : Prop :=
  SameLimits s t ∧
    ∀ h, s.tree.parent g = some h → s.passesOn d h = some (t.cfsBandwidth h).hierarchalQuota

/-- What a visit does to the state. -/
theorem down_cases {r : Int} (hdown : tgCfsSchedulableDown d g t = some (r, u)) :
    u = t ∨ ∃ quota, u = t.setHierarchalQuota g quota := by
  unfold tgCfsSchedulableDown at hdown
  split at hdown
  · cases hdown
    exact Or.inr ⟨_, rfl⟩
  · obtain ⟨quota, -, hcheck⟩ := Option.map_eq_some_iff.mp hdown
    unfold checkQuota at hcheck
    split at hcheck
    · cases hcheck
      exact Or.inr ⟨_, rfl⟩
    · split at hcheck
      · cases hcheck
        exact Or.inl rfl
      · cases hcheck
        exact Or.inr ⟨_, rfl⟩

theorem SameLimits.down {r : Int} (hst : SameLimits s t)
    (hdown : tgCfsSchedulableDown d g t = some (r, u)) : SameLimits s u := by
  rcases down_cases hdown with rfl | ⟨quota, rfl⟩
  · exact hst
  · exact hst.setHierarchalQuota g quota

/-- A visit of a group no higher than another leaves what the other inherits. -/
theorem Ready.keep {c x : Gid} {r : Int} (hlevel : s.tree.depth c ≤ s.tree.depth x)
    (hready : Ready s d c t) (hdown : tgCfsSchedulableDown d x t = some (r, u)) :
    Ready s d c u := by
  refine ⟨hready.1.down hdown, fun h hh => ?_⟩
  rw [hready.2 h hh]
  rcases down_cases hdown with rfl | ⟨quota, rfl⟩
  · rfl
  · have hne : h ≠ x := by
      rintro rfl
      have hdepth := s.tree.depth_parent c h hh
      omega
    show _ = some (Function.update t.cfsBandwidth x _ h).hierarchalQuota
    rw [Function.update_of_ne hne]

theorem hierarchal_self (t : CfsGroups) (g : Gid) (quota : BitVec 64) :
    ((t.setHierarchalQuota g quota).cfsBandwidth g).hierarchalQuota = quota := by
  show (Function.update t.cfsBandwidth g _ g).hierarchalQuota = quota
  rw [Function.update_self]

/-- **A visit that is ready agrees with the test**, and leaves behind what the group passes on. -/
theorem Ready.agree (hready : Ready s d g t) :
    (tgCfsSchedulableDown d g t).map Prod.fst = s.cfsTest d g ∧
      ∀ u, tgCfsSchedulableDown d g t = some (0, u) →
        s.passesOn d g = some (u.cfsBandwidth g).hierarchalQuota := by
  obtain ⟨hsame, hparent⟩ := hready
  unfold tgCfsSchedulableDown cfsTest
  rw [hsame.tree]
  cases hg : s.tree.parent g with
  | none =>
      refine ⟨rfl, ?_⟩
      rintro u ⟨⟩
      rw [passesOn_root hg, hierarchal_self]
  | some h =>
      have hpasses := hparent h hg
      rw [passesOn_child hg, hsame.normalizeCfsQuota]
      cases hquota : s.normalizeCfsQuota d g with
      | none => exact ⟨rfl, fun u hu => by cases hu⟩
      | some quota =>
          by_cases hinf : quota = runtimeInf
          · simp only [Option.map_some, Option.bind_some, checkQuota, hinf, if_true]
            refine ⟨trivial, ?_⟩
            rintro u ⟨⟩
            rw [hpasses, hierarchal_self]
          · simp only [Option.map_some, Option.bind_some, checkQuota, hinf, if_false, hpasses]
            by_cases hover : (t.cfsBandwidth h).hierarchalQuota ≠ runtimeInf ∧
                (t.cfsBandwidth h).hierarchalQuota.toInt < quota.toInt
            · rw [if_pos hover, if_pos hover]
              refine ⟨rfl, ?_⟩
              rintro u ⟨⟩
            · rw [if_neg hover, if_neg hover]
              refine ⟨rfl, ?_⟩
              rintro u ⟨⟩
              rw [hierarchal_self]

/-! ### The walk -/

/-- The verdict of a check, from periods and quotas alone. -/
def verdict (s : CfsGroups) (tg : Gid) (period quota : BitVec 64) : Option Int :=
  (Walk.walk s.tree.children (Walk.test (s.cfsTest (cfsSchedulableData tg period quota))) Walk.nop
    (s.tree.height + 1) s.tree.root ()).map Prod.fst

/-- **The verdict does not depend on what earlier walks left behind.** -/
theorem verdict_eq (hst : SameLimits s t) (tg : Gid) (period quota : BitVec 64) :
    (t.cfsSchedulable tg period quota).map Prod.fst = s.verdict tg period quota := by
  have hroot : Ready s (cfsSchedulableData tg period quota) s.tree.root t := by
    refine ⟨hst, fun h hh => ?_⟩
    rw [s.tree.parent_root] at hh
    cases hh
  rw [cfsSchedulable, hst.tree]
  refine Walk.walk_eq_test s.tree.depth s.tree.depth_children
    (Ready s (cfsSchedulableData tg period quota)) _ ?_ ?_ _ _ hroot
  · intro g u hready
    obtain ⟨hfst, hpasses⟩ := hready.agree
    refine ⟨hfst, fun u' hu' c hc => ⟨hready.1.down hu', fun h hh => ?_⟩⟩
    obtain rfl : g = h := Option.some.inj (((s.tree.mem_children g c).mp hc).symm.trans hh)
    exact hpasses u' hu'
  · exact fun c x u r u' hlevel hready hdown => hready.keep hlevel hdown

theorem sameLimits_of_cfsSchedulable (h : s.cfsSchedulable tg period quota = some (ret, t)) :
    SameLimits s t :=
  Walk.walk_of s.tree.depth s.tree.depth_children (SameLimits s)
    (fun _ _ _ _ (_ : 0 ≤ _) hsame hdown => hsame.down hdown) (Nat.zero_le _) (SameLimits.refl s) h

/-! ### Ratios of quotas -/

/-- A finite quota the setters let through. -/
structure InRange (period quota : BitVec 64) : Prop where
  low : minCfsQuotaPeriod ≤ period
  high : period ≤ maxCfsQuotaPeriod
  quota : quota.toNat < 2 ^ 31 * 1000

/-- The ratio of a quota to a period, on microseconds. -/
def usRatio (period quota : BitVec 64) : Option (BitVec 32) :=
  toRatio (period / nsecPerUsec) (quota / nsecPerUsec)

theorem usec_div_toNat (x : BitVec 64) : (x / nsecPerUsec).toNat = x.toNat / 1000 := by
  rw [BitVec.toNat_udiv]
  rfl

/-- A small number of microseconds survives the way through a `long`. -/
theorem long_usec {x : BitVec 64} (h : x.toNat < 2 ^ 31 * 1000) :
    ((x / nsecPerUsec).setWidth 32).signExtend 64 = x / nsecPerUsec := by
  have hdiv := usec_div_toNat x
  have hlt : (x / nsecPerUsec).toNat < 2 ^ 31 := by omega
  have hnarrow : ((x / nsecPerUsec).setWidth 32).toNat = (x / nsecPerUsec).toNat := by
    rw [BitVec.toNat_setWidth]
    omega
  have hmsb : ((x / nsecPerUsec).setWidth 32).msb = false := by
    rw [BitVec.msb_eq_decide, hnarrow]
    simpa using hlt
  rw [BitVec.signExtend_eq_setWidth_of_msb_false hmsb]
  refine BitVec.eq_of_toNat_eq ?_
  rw [BitVec.toNat_setWidth, hnarrow]
  omega

theorem ne_inf_of_lt {x : BitVec 64} (h : x.toNat < 2 ^ 63) : x ≠ runtimeInf := by
  rintro rfl
  have hinf : runtimeInf.toNat = 2 ^ 64 - 1 := rfl
  omega

theorem InRange.usec_ne_inf (h : InRange period quota) : quota / nsecPerUsec ≠ runtimeInf := by
  have hdiv := usec_div_toNat quota
  have hquota := h.quota
  exact ne_inf_of_lt (by omega)

theorem InRange.period_small (h : InRange period quota) : period.toNat < 2 ^ 31 * 1000 := by
  have hhigh : period.toNat ≤ 1000000000 := h.high
  omega

/-- The ratio of such a quota can be computed. -/
theorem InRange.usRatio (h : InRange period quota) : ∃ r, usRatio period quota = some r := by
  have hdiv := usec_div_toNat period
  have hlow : 1000000 ≤ period.toNat := h.low
  have hne : period / nsecPerUsec ≠ 0 := by
    intro hzero
    have htoNat : (period / nsecPerUsec).toNat = 0 := congrArg BitVec.toNat hzero
    omega
  rw [CfsGroups.usRatio, toRatio, if_neg h.usec_ne_inf, if_neg hne]
  exact ⟨_, rfl⟩

/-- A group with its own limits, and no request. -/
def noRequest : CfsSchedulableData := { tg := none, period := 0, quota := 0 }

theorem not_requested (g : Gid) : some g ≠ noRequest.tg := Option.some_ne_none g

theorem normalize_unlimited (hg : (s.cfsBandwidth g).quota = runtimeInf) (hd : some g ≠ d.tg) :
    s.normalizeCfsQuota d g = some runtimeInf := by
  have hquota : (s.tgGetCfsQuota g).signExtend 64 = runtimeInf := by
    rw [tgGetCfsQuota, if_pos hg]
    decide
  simp only [normalizeCfsQuota, if_neg hd, hquota, true_or, if_true]

theorem normalize_limited
    (hg : InRange (s.cfsBandwidth g).period (s.cfsBandwidth g).quota) (hd : some g ≠ d.tg) :
    s.normalizeCfsQuota d g =
      (usRatio (s.cfsBandwidth g).period (s.cfsBandwidth g).quota).map fun r => r.setWidth 64 := by
  have hfinite : (s.cfsBandwidth g).quota ≠ runtimeInf :=
    ne_inf_of_lt (by have hquota := hg.quota; omega)
  have hquota : (s.tgGetCfsQuota g).signExtend 64 = (s.cfsBandwidth g).quota / nsecPerUsec := by
    rw [tgGetCfsQuota, if_neg hfinite, long_usec hg.quota]
  have hperiod : (s.tgGetCfsPeriod g).signExtend 64 = (s.cfsBandwidth g).period / nsecPerUsec := by
    rw [tgGetCfsPeriod, long_usec hg.period_small]
  have hne : ¬ ((s.cfsBandwidth g).quota / nsecPerUsec = runtimeInf ∨
      (s.cfsBandwidth g).quota / nsecPerUsec = -1) := by
    rintro (h | h)
    · exact hg.usec_ne_inf h
    · exact hg.usec_ne_inf h
  simp only [normalizeCfsQuota, if_neg hd, hquota, hperiod, if_neg hne, usRatio]

theorem normalize_request_unlimited (s : CfsGroups) (tg : Gid) (period : BitVec 64) :
    s.normalizeCfsQuota (cfsSchedulableData tg period runtimeInf) tg = some runtimeInf := by
  simp [normalizeCfsQuota, cfsSchedulableData]

theorem normalize_request_limited (s : CfsGroups) (tg : Gid) (h : InRange period quota) :
    s.normalizeCfsQuota (cfsSchedulableData tg period quota) tg =
      (usRatio period quota).map fun r => r.setWidth 64 := by
  have hfinite : quota ≠ runtimeInf := ne_inf_of_lt (by have hquota := h.quota; omega)
  have hne : ¬ (quota / nsecPerUsec = runtimeInf ∨ quota / nsecPerUsec = -1) := by
    rintro (hc | hc)
    · exact h.usec_ne_inf hc
    · exact h.usec_ne_inf hc
  rw [cfsSchedulableData, if_pos hfinite]
  simp only [normalizeCfsQuota, if_true, if_neg hne, usRatio]

/-- A group that is not the one of the request. -/
theorem normalize_other {d' : CfsSchedulableData} (hd : some g ≠ d.tg) (hd' : some g ≠ d'.tg)
    (hperiod : (t.cfsBandwidth g).period = (s.cfsBandwidth g).period)
    (hquota : (t.cfsBandwidth g).quota = (s.cfsBandwidth g).quota) :
    t.normalizeCfsQuota d g = s.normalizeCfsQuota d' g := by
  have hperiod' : t.tgGetCfsPeriod g = s.tgGetCfsPeriod g := by
    rw [tgGetCfsPeriod, tgGetCfsPeriod, hperiod]
  have hquota' : t.tgGetCfsQuota g = s.tgGetCfsQuota g := by
    rw [tgGetCfsQuota, tgGetCfsQuota, hquota]
  rw [normalizeCfsQuota, normalizeCfsQuota, hperiod', hquota', if_neg hd, if_neg hd']

theorem cfsSchedulableData_tg (tg : Gid) (period quota : BitVec 64) :
    (cfsSchedulableData tg period quota).tg = some tg := by
  unfold cfsSchedulableData
  split
  · rfl
  · rfl

/-! ### Every state

A setter tests with the request in place of the group's own numbers, and writes it if
the test passed.  So the tests of the next state, without a request, are those that
passed.
-/

/-- What the checks keep. -/
structure Bounded (s : CfsGroups) : Prop where
  root : (s.cfsBandwidth s.tree.root).quota = runtimeInf
  range : ∀ g, s.tree.mem g = true → (s.cfsBandwidth g).quota = runtimeInf ∨
    InRange (s.cfsBandwidth g).period (s.cfsBandwidth g).quota
  passes : ∀ g, s.tree.mem g = true → s.cfsTest noRequest g = some 0

/-- A test reads what `normalize_cfs_quota` returns, and nothing else. -/
theorem cfsTest_congr {d' : CfsSchedulableData} (htree : t.tree = s.tree)
    (h : ∀ g, t.normalizeCfsQuota d' g = s.normalizeCfsQuota d g) (g : Gid) :
    t.cfsTest d' g = s.cfsTest d g := by
  have hinherited : ∀ n g, t.inherited d' n g = s.inherited d n g := by
    intro n
    induction n with
    | zero => exact fun _ => rfl
    | succ n ih =>
        intro g
        simp only [inherited, htree, h, ih]
  simp only [cfsTest, passesOn, htree, h, hinherited]

/-- Every test returns. -/
theorem cfsTest_total (h : ∀ g p, s.tree.parent g = some p → ∃ q, s.normalizeCfsQuota d g = some q)
    (g : Gid) : ∃ r, s.cfsTest d g = some r := by
  have hinherited : ∀ n g, ∃ q, s.inherited d n g = some q := by
    intro n
    induction n with
    | zero =>
        intro g
        exact ⟨runtimeInf, by rw [inherited]⟩
    | succ n ih =>
        intro g
        rw [inherited]
        cases hg : s.tree.parent g with
        | none => exact ⟨_, rfl⟩
        | some p =>
            obtain ⟨q, hq⟩ := h g p hg
            obtain ⟨q', hq'⟩ := ih p
            by_cases hinf : q = runtimeInf
            · exact ⟨q', by simp only [hq, Option.bind_some, hinf, if_true, hq']⟩
            · exact ⟨q, by simp only [hq, Option.bind_some, hinf, if_false]⟩
  rw [cfsTest]
  cases hg : s.tree.parent g with
  | none => exact ⟨0, rfl⟩
  | some p =>
      obtain ⟨q, hq⟩ := h g p hg
      obtain ⟨q', hq'⟩ := hinherited (s.tree.depth p + 1) p
      by_cases hinf : q = runtimeInf
      · exact ⟨0, by simp only [hq, Option.bind_some, hinf, if_true]⟩
      · exact ⟨_, by simp only [hq, Option.bind_some, hinf, if_false, passesOn, hq', Option.map_some]; rfl⟩

/-- **A check returns, and if it finds nothing wrong every group passes the test.** -/
theorem cfsSchedulable_spec
    (h : ∀ g p, s.tree.parent g = some p →
      ∃ q, s.normalizeCfsQuota (cfsSchedulableData tg period quota) g = some q) :
    ∃ r t, s.cfsSchedulable tg period quota = some (r, t) ∧ SameLimits s t ∧
      (r = 0 → ∀ g, s.tree.mem g = true →
        s.cfsTest (cfsSchedulableData tg period quota) g = some 0) := by
  have htotal := cfsTest_total h
  have hdown : ∀ (g : Gid) (u : Unit), True → ∃ r u',
      Walk.test (s.cfsTest (cfsSchedulableData tg period quota)) g u = some (r, u') ∧ True := by
    intro g u _
    obtain ⟨r, hr⟩ := htotal g
    exact ⟨r, u, Walk.test_eq_some.mpr ⟨hr, rfl⟩, trivial⟩
  have hup : ∀ (g : Gid) (u : Unit), True → ∃ r u', Walk.nop g u = some (r, u') ∧ True :=
    fun g u _ => ⟨0, u, rfl, trivial⟩
  obtain ⟨r, u, hwalk, -⟩ := @Walk.walk_keeps Gid Unit s.tree.children _ _ () (fun _ => True) hdown
    hup (s.tree.height + 1) s.tree.root trivial
  have hverdict : s.verdict tg period quota = some r := by
    rw [verdict, hwalk]
    rfl
  rw [← verdict_eq (SameLimits.refl s)] at hverdict
  obtain ⟨⟨r', t⟩, hresult, rfl⟩ := Option.map_eq_some_iff.mp hverdict
  refine ⟨r', t, hresult, sameLimits_of_cfsSchedulable hresult, ?_⟩
  rintro rfl g hg
  obtain ⟨_, _, hpass⟩ := Walk.passed_of_walk s.tree.depth s.tree.height s.tree.depth_children
    s.tree.depth_le (by omega) hwalk (s.tree.below_root g hg)
  exact (Walk.test_eq_some.mp hpass).1

theorem Bounded.of_same (hs : Bounded s) (hst : SameLimits s t) : Bounded t where
  root := by rw [hst.quota, hst.tree, hs.root]
  range g hg := by
    rw [hst.quota, hst.period]
    exact hs.range g (by rwa [← hst.tree])
  passes g hg := by
    rw [cfsTest_congr hst.tree (fun g => hst.normalizeCfsQuota noRequest g)]
    exact hs.passes g (by rwa [← hst.tree])

/-- **Setting a quota returns**, with an error and the limits unchanged or with the new ones
within what is inherited. -/
theorem Bounded.tgSetCfsBandwidth (hs : Bounded s) (htg : s.tree.mem tg = true)
    (hquota : quota = runtimeInf ∨ quota.toNat < 2 ^ 31 * 1000) :
    ∃ ret t, s.tgSetCfsBandwidth tg period quota = some (ret, t) ∧
      (ret ≠ 0 → SameLimits s t) ∧ Bounded t := by
  unfold CfsGroups.tgSetCfsBandwidth
  by_cases hroot : tg = s.tree.root
  · exact ⟨-eInval, s, by rw [if_pos hroot], fun _ => SameLimits.refl s, hs⟩
  rw [if_neg hroot]
  by_cases hlow : quota < minCfsQuotaPeriod ∨ period < minCfsQuotaPeriod
  · exact ⟨-eInval, s, by rw [if_pos hlow], fun _ => SameLimits.refl s, hs⟩
  rw [if_neg hlow]
  by_cases hhigh : maxCfsQuotaPeriod < period
  · exact ⟨-eInval, s, by rw [if_pos hhigh], fun _ => SameLimits.refl s, hs⟩
  rw [if_neg hhigh]
  -- The request is what the group will have.
  have hrange : quota = runtimeInf ∨ InRange period quota := by
    refine hquota.imp_right fun hlt => ⟨?_, BitVec.not_lt.mp hhigh, hlt⟩
    exact BitVec.not_lt.mp fun hc => hlow (Or.inr hc)
  have htotal : ∀ g p, s.tree.parent g = some p →
      ∃ q, s.normalizeCfsQuota (cfsSchedulableData tg period quota) g = some q := by
    intro g p hg
    have hmem : s.tree.mem g = true := TgTree.mem_iff.mpr (Or.inr (by rw [hg]; rfl))
    by_cases hgtg : g = tg
    · subst hgtg
      rcases hrange with rfl | hrange
      · exact ⟨_, normalize_request_unlimited s g period⟩
      · obtain ⟨r, hr⟩ := hrange.usRatio
        exact ⟨_, by rw [normalize_request_limited s g hrange, hr]; rfl⟩
    · have hd : some g ≠ (cfsSchedulableData tg period quota).tg := by
        rw [cfsSchedulableData_tg]
        simpa using hgtg
      rcases hs.range g hmem with hinf | hown
      · exact ⟨_, normalize_unlimited hinf hd⟩
      · obtain ⟨r, hr⟩ := hown.usRatio
        exact ⟨_, by rw [normalize_limited hown hd, hr]; rfl⟩
  obtain ⟨r, t, hresult, hst, hpass⟩ := cfsSchedulable_spec htotal
  rw [hresult, Option.map_some]
  by_cases hzero : r = 0
  · refine ⟨0, t.modBandwidth tg fun b => { b with period := period, quota := quota }, ?_,
      fun hc => absurd rfl hc, ?_⟩
    · simp only [hzero, ne_eq, not_true, if_false]
    have hself : ((t.modBandwidth tg fun b =>
        { b with period := period, quota := quota }).cfsBandwidth tg) =
          { t.cfsBandwidth tg with period := period, quota := quota } := Function.update_self ..
    have hother : ∀ g, g ≠ tg → (t.modBandwidth tg fun b =>
        { b with period := period, quota := quota }).cfsBandwidth g = t.cfsBandwidth g :=
      fun g hg => Function.update_of_ne hg ..
    generalize hu : (t.modBandwidth tg fun b =>
      { b with period := period, quota := quota }) = u at hself hother
    have htree : u.tree = s.tree := by
      rw [← hu]
      exact hst.tree
    have hnormalize : ∀ g, u.normalizeCfsQuota noRequest g =
        s.normalizeCfsQuota (cfsSchedulableData tg period quota) g := by
      intro g
      by_cases hgtg : g = tg
      · subst hgtg
        rcases hrange with rfl | hrange
        · rw [normalize_request_unlimited, normalize_unlimited (by rw [hself]) (not_requested g)]
        · rw [normalize_request_limited s g hrange,
            normalize_limited (by rw [hself]; exact hrange) (not_requested g), hself]
      · refine normalize_other (not_requested g) ?_ ?_ ?_
        · rw [cfsSchedulableData_tg]
          simpa using hgtg
        · rw [hother g hgtg, hst.period]
        · rw [hother g hgtg, hst.quota]
    refine ⟨?_, fun g hg => ?_, fun g hg => ?_⟩
    · rw [htree, hother _ (Ne.symm hroot), hst.quota, hs.root]
    · rw [htree] at hg
      by_cases hgtg : g = tg
      · subst hgtg
        rw [hself]
        exact hrange
      · rw [hother g hgtg, hst.quota, hst.period]
        exact hs.range g hg
    · rw [htree] at hg
      rw [cfsTest_congr htree hnormalize]
      exact hpass hzero g hg
  · exact ⟨r, t, by simp only [hzero, ne_eq, not_false_eq_true, if_true], fun _ => hst,
      hs.of_same hst⟩

theorem cfsQuotaOf_small (us : BitVec 32) :
    cfsQuotaOf us = runtimeInf ∨ (cfsQuotaOf us).toNat < 2 ^ 31 * 1000 := by
  unfold cfsQuotaOf
  split
  · exact Or.inl rfl
  · next h =>
      obtain ⟨heq, hlt⟩ := @TaskGroups.signExtend_usec us (by omega)
      exact Or.inr (by omega)

theorem Bounded.call (hs : Bounded s) {c : CfsCall} (hc : s.tree.mem c.tg = true) :
    ∃ ret t, cfsCall s c = some (ret, t) ∧ (ret ≠ 0 → SameLimits s t) ∧ Bounded t := by
  cases c with
  | tgSetCfsQuota tg us => exact hs.tgSetCfsBandwidth hc (cfsQuotaOf_small us)
  | tgSetCfsPeriod tg us =>
      exact hs.tgSetCfsBandwidth hc ((hs.range tg hc).imp_right InRange.quota)

/-- Unlimited groups are within whatever they inherit. -/
theorem bounded_start (h : ∀ g, s.tree.mem g = true → (s.cfsBandwidth g).quota = runtimeInf) :
    Bounded s where
  root := h _ s.tree.mem_root
  range g hg := Or.inl (h g hg)
  passes g hg := by
    rw [cfsTest]
    cases hparent : s.tree.parent g with
    | none => rfl
    | some p =>
        have hnormalize := normalize_unlimited (h g hg) (not_requested g)
        simp only [hnormalize, Option.bind_some, if_true]

/-! ### The nearest limited ancestor

An unlimited group passes on what it inherits, so going up over such groups changes
nothing until the first limited one.  That turns the comparison with the parent, which
is what the code makes, into the comparison with the nearest limited group above.
-/

/-- `a` is the nearest group above `g` with a finite quota. -/
inductive Nearest (s : CfsGroups) : Gid → Gid → Prop
  | parent {g h : Gid} : s.tree.parent g = some h → (s.cfsBandwidth h).quota ≠ runtimeInf →
      Nearest s g h
  | above {g h a : Gid} : s.tree.parent g = some h → (s.cfsBandwidth h).quota = runtimeInf →
      Nearest s h a → Nearest s g a

theorem Bounded.limited_range (hs : Bounded s) (hg : s.tree.mem g = true)
    (hlimited : (s.cfsBandwidth g).quota ≠ runtimeInf) :
    InRange (s.cfsBandwidth g).period (s.cfsBandwidth g).quota :=
  (hs.range g hg).resolve_left hlimited

theorem Bounded.parent_of_limited (hs : Bounded s) (hg : s.tree.mem g = true)
    (hlimited : (s.cfsBandwidth g).quota ≠ runtimeInf) : ∃ h, s.tree.parent g = some h := by
  rcases TgTree.mem_iff.mp hg with rfl | hsome
  · exact absurd hs.root hlimited
  · exact Option.isSome_iff_exists.mp hsome

theorem setWidth_ne_inf (r : BitVec 32) : r.setWidth 64 ≠ runtimeInf := by
  refine ne_inf_of_lt ?_
  have hlt := r.isLt
  rw [BitVec.toNat_setWidth]
  omega

theorem setWidth_toInt (r : BitVec 32) : (r.setWidth 64).toInt = r.toNat := by
  have hlt := r.isLt
  rw [BitVec.toInt_eq_toNat_cond, BitVec.toNat_setWidth, Nat.mod_eq_of_lt (by omega),
    if_pos (by omega)]

/-- A group passes on the ratio of the nearest limited group, itself or above. -/
theorem Bounded.passesOn_nearest (hs : Bounded s) (hnear : Nearest s g a) :
    ∀ h, s.tree.parent g = some h → ∃ r, usRatio (s.cfsBandwidth a).period
      (s.cfsBandwidth a).quota = some r ∧ s.passesOn noRequest h = some (r.setWidth 64) := by
  induction hnear with
  | @parent g a hparent hlimited =>
      intro h hh
      obtain rfl : a = h := Option.some.inj (hparent.symm.trans hh)
      have hmem := TgTree.mem_of_parent hparent
      have hrange := hs.limited_range hmem hlimited
      obtain ⟨p, hp⟩ := hs.parent_of_limited hmem hlimited
      obtain ⟨r, hr⟩ := hrange.usRatio
      refine ⟨r, hr, ?_⟩
      rw [passesOn_child hp, normalize_limited hrange (not_requested a), hr, Option.map_some, Option.bind_some,
        if_neg (setWidth_ne_inf r)]
  | @above g h' a hparent hunlimited hnear ih =>
      intro h hh
      obtain rfl : h' = h := Option.some.inj (hparent.symm.trans hh)
      obtain ⟨p, hp⟩ : ∃ p, s.tree.parent h' = some p := by
        cases hnear with
        | parent hp _ => exact ⟨_, hp⟩
        | above hp _ _ => exact ⟨_, hp⟩
      obtain ⟨r, hr, hpasses⟩ := ih p hp
      refine ⟨r, hr, ?_⟩
      rw [passesOn_child hp, normalize_unlimited hunlimited (not_requested h'), Option.bind_some, if_pos rfl,
        hpasses]

/-- **A limited group is within the nearest limited group above it.** -/
theorem Bounded.ratio_le (hs : Bounded s) (hg : s.tree.mem g = true)
    (hlimited : (s.cfsBandwidth g).quota ≠ runtimeInf) (hnear : Nearest s g a) :
    ∃ r r', usRatio (s.cfsBandwidth g).period (s.cfsBandwidth g).quota = some r ∧
      usRatio (s.cfsBandwidth a).period (s.cfsBandwidth a).quota = some r' ∧ r ≤ r' := by
  have hrange := hs.limited_range hg hlimited
  obtain ⟨h, hh⟩ := hs.parent_of_limited hg hlimited
  obtain ⟨r, hr⟩ := hrange.usRatio
  obtain ⟨r', hr', hpasses⟩ := hs.passesOn_nearest hnear h hh
  refine ⟨r, r', hr, hr', ?_⟩
  have htest := hs.passes g hg
  have hnormalize := normalize_limited hrange (not_requested g)
  rw [hr, Option.map_some] at hnormalize
  rw [cfsTest, hh] at htest
  simp only [hnormalize, Option.bind_some, setWidth_ne_inf r, if_false, hpasses, Option.map_some,
    setWidth_toInt] at htest
  by_contra hlt
  have hlt' : (r'.toNat : Int) < r.toNat := by
    have hnat : r'.toNat < r.toNat := Nat.lt_of_not_le hlt
    omega
  rw [if_pos ⟨setWidth_ne_inf r', hlt'⟩] at htest
  cases htest

end CfsGroups

/-- **Quotas form a hierarchy**: in every state a limited group is within the nearest limited group
above it; the verdict of a check depends on the tree, the periods, the quotas and the request alone;
and every call returns, with the limits unchanged if it returns an error.  What is compared is the
word that `to_ratio` returns, of 32 bits: a quota of 4096 periods wraps it to 0, so that such a group
is within any other. -/
theorem cfs_hierarchy (s₀ s : CfsGroups)
    (hstart : ∀ g, s₀.tree.mem g = true → (s₀.cfsBandwidth g).quota = runtimeInf)
    (h : Run.Reachable cfsStep s₀ s) :
    (∀ g a, s.tree.mem g = true → g ≠ s.tree.root → (s.cfsBandwidth g).quota ≠ runtimeInf →
      s.Nearest g a → ∃ r r',
        CfsGroups.usRatio (s.cfsBandwidth g).period (s.cfsBandwidth g).quota = some r ∧
        CfsGroups.usRatio (s.cfsBandwidth a).period (s.cfsBandwidth a).quota = some r' ∧ r ≤ r') ∧
    (∀ t, s.SameLimits t → ∀ tg period quota, (t.cfsSchedulable tg period quota).map Prod.fst =
      (s.cfsSchedulable tg period quota).map Prod.fst) ∧
    ∀ c : CfsCall, s.tree.mem c.tg = true →
      ∃ ret t, cfsCall s c = some (ret, t) ∧ (ret ≠ 0 → s.SameLimits t) := by
  have hstep : ∀ s c t, CfsGroups.Bounded s → cfsStep s c = some t → CfsGroups.Bounded t := by
    intro s c t hs hc
    unfold cfsStep at hc
    split at hc
    · next hcall =>
        obtain ⟨ret, t', ht', -, hbounded⟩ := hs.call hcall
        rw [ht'] at hc
        cases hc
        exact hbounded
    · cases hc
  have hs : CfsGroups.Bounded s :=
    h.invariant CfsGroups.Bounded hstep (CfsGroups.bounded_start hstart)
  refine ⟨fun g a hg _ hlimited hnear => hs.ratio_le hg hlimited hnear, ?_, fun c hc => ?_⟩
  · intro t hst tg period quota
    rw [CfsGroups.verdict_eq hst, CfsGroups.verdict_eq (CfsGroups.SameLimits.refl s)]
  · obtain ⟨ret, t, ht, hsame, -⟩ := hs.call hc
    exact ⟨ret, t, ht, hsame⟩

/-- A group below the root, one below that, and no limits. -/
def sampleCfsGroups : CfsGroups where
  tree := ((TgTree.single 0).insert 0 1 rfl rfl).insert 1 2 rfl rfl
  cfsBandwidth _ := { period := 100000000, quota := runtimeInf, hierarchalQuota := 0 }

/-- The outer group gets half a CPU, and the inner one a fifth. -/
theorem cfs_hierarchy_two : ∃ s : CfsGroups, (s.cfsBandwidth 2).quota = 20000000 ∧
    (∀ g a, s.tree.mem g = true → g ≠ s.tree.root → (s.cfsBandwidth g).quota ≠ runtimeInf →
      s.Nearest g a → ∃ r r',
        CfsGroups.usRatio (s.cfsBandwidth g).period (s.cfsBandwidth g).quota = some r ∧
        CfsGroups.usRatio (s.cfsBandwidth a).period (s.cfsBandwidth a).quota = some r' ∧ r ≤ r') ∧
    (∀ t, s.SameLimits t → ∀ tg period quota, (t.cfsSchedulable tg period quota).map Prod.fst =
      (s.cfsSchedulable tg period quota).map Prod.fst) ∧
    ∀ c : CfsCall, s.tree.mem c.tg = true →
      ∃ ret t, cfsCall s c = some (ret, t) ∧ (ret ≠ 0 → s.SameLimits t) := by
  have hrun : ((Run.exec cfsStep sampleCfsGroups
      [.tgSetCfsQuota 1 50000, .tgSetCfsQuota 2 20000]).any fun s => decide
        ((s.cfsBandwidth 2).quota = 20000000)) = true := by decide +kernel
  obtain ⟨s, hreach, hs⟩ := Run.exists_of_exec hrun
  exact ⟨s, hs, cfs_hierarchy sampleCfsGroups s (fun _ _ => rfl) hreach⟩

end WrrScheduler
