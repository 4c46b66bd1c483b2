/-
The load average stays between the old load and the active count.

`calc_load` takes a rounded average, with products of 22 bits below the point, so in
a word of 32 bits there are 10 bits above it: up to 1023 tasks nothing wraps, and with
1024 a load that should stay where it is becomes zero.
-/
import WrrScheduler.Kernel.LoadAvg
import WrrScheduler.Lib.FixedPoint

namespace WrrScheduler

variable {n HZ : Nat} {load exp active : BitVec 32}

/-- The counts the format has room for. -/
def loadIntegers : Nat := 1023

/-! ### One update

A weighted mean lies between what it is a mean of, and rounding to the nearest
fraction does not take it past a bound that is itself a multiple of the fraction.  The
rest is that no product and no sum wraps, for loads of at most 1023.
-/

theorem toNat_fixed1 : fixed1.toNat = 2048 := by decide

/-- **Within the format `calc_load` is the rounded average.** -/
theorem toNat_calcLoad (hexp : exp.toNat ≤ 2048) (hload : load.toNat ≤ loadIntegers * 2048)
    (hactive : active.toNat ≤ loadIntegers * 2048) :
    (calcLoad load exp active).toNat = FixedPoint.mix 2048 exp.toNat load.toNat active.toNat := by
  have hsum := FixedPoint.weighted_le hexp hload hactive
  have hrest : (fixed1 - exp).toNat = 2048 - exp.toNat := by
    rw [BitVec.toNat_sub_of_le (by show exp.toNat ≤ fixed1.toNat; rw [toNat_fixed1]; exact hexp),
      toNat_fixed1]
  have hhalf : (1 <<< (fshift - 1) : BitVec 32).toNat = 1024 := by decide
  have hsmall : load.toNat * exp.toNat + active.toNat * (2048 - exp.toNat) + 1024 < 2 ^ 32 := by
    unfold loadIntegers at hsum
    omega
  unfold calcLoad FixedPoint.mix
  rw [BitVec.toNat_ushiftRight, BitVec.toNat_add, BitVec.toNat_add, BitVec.toNat_mul,
    BitVec.toNat_mul, hrest, hhalf, ← Nat.add_mod, Nat.mod_add_mod, Nat.mod_eq_of_lt hsmall,
    Nat.shiftRight_eq_div_pow]
  rfl

/-- A load between two bounds. -/
def LoadWithin (lo hi : Nat) (load : BitVec 32) : Prop := lo ≤ load.toNat ∧ load.toNat ≤ hi

instance (lo hi : Nat) (load : BitVec 32) : Decidable (LoadWithin lo hi load) :=
  inferInstanceAs (Decidable (_ ∧ _))

/-- **An update keeps the load between the bounds** of what it averages. -/
theorem loadWithin_calcLoad {lo hi : Nat} (hhi : hi ≤ loadIntegers * 2048)
    (hexp : exp.toNat ≤ 2048) (hload : LoadWithin lo hi load) (hactive : LoadWithin lo hi active) :
    LoadWithin lo hi (calcLoad load exp active) := by
  have heq := toNat_calcLoad hexp (Nat.le_trans hload.2 hhi) (Nat.le_trans hactive.2 hhi)
  have hone : 0 < 2048 := by decide
  unfold LoadWithin
  rw [heq]
  exact ⟨FixedPoint.le_mix hone hexp hload.1 hactive.1, FixedPoint.mix_le hone hexp hload.2 hactive.2⟩

theorem toNat_loadExp (i : Fin 3) : (loadExp i).toNat ≤ 2048 := by
  revert i
  decide

/-! ### Powers

`fixed_power_int` multiplies weights, each at most one, and rounds.  A rounded product
of two such is at most one again, so the power is a weight, whatever the exponent; no
more needs to be known of it.
-/

/-- A rounded product of two parts of one is a part of one. -/
theorem roundedMul_le {x y : BitVec 32} (hx : x.toNat ≤ 2048) (hy : y.toNat ≤ 2048) :
    ((x * y + 1 <<< (fshift - 1)) >>> fshift).toNat ≤ 2048 := by
  have hprod : x.toNat * y.toNat ≤ 2048 * 2048 := Nat.mul_le_mul hx hy
  have hhalf : (1 <<< (fshift - 1) : BitVec 32).toNat = 1024 := by decide
  rw [BitVec.toNat_ushiftRight, BitVec.toNat_add, BitVec.toNat_mul, hhalf, Nat.mod_add_mod,
    Nat.mod_eq_of_lt (by omega), Nat.shiftRight_eq_div_pow]
  show (x.toNat * y.toNat + 2048 / 2) / 2048 ≤ 2048
  rw [FixedPoint.mul_eq_mix]
  exact FixedPoint.mix_le (by decide) hy hx (Nat.zero_le _)

theorem fixedPowerLoop_le (bits : Nat) {x n result : BitVec 32} (hx : x.toNat ≤ 2048)
    (hresult : result.toNat ≤ 2048) : (fixedPowerLoop fshift bits x n result).toNat ≤ 2048 := by
  induction bits generalizing x n result with
  | zero => exact hresult
  | succ bits ih =>
      have hnext : (if n.getLsbD 0 then (result * x + 1 <<< (fshift - 1)) >>> fshift
          else result).toNat ≤ 2048 := by
        split
        · exact roundedMul_le hresult hx
        · exact hresult
      unfold fixedPowerLoop
      simp only []
      split
      · exact hnext
      · exact ih (roundedMul_le hx hx) hnext

/-- A power of a decay factor is a weight again. -/
theorem fixedPowerInt_le {x : BitVec 32} (hx : x.toNat ≤ 2048) (n : BitVec 32) :
    (fixedPowerInt x fshift n).toNat ≤ 2048 := by
  have hone : (1 <<< fshift : BitVec 32).toNat ≤ 2048 := by decide
  unfold fixedPowerInt
  split
  · exact hone
  · exact fixedPowerLoop_le 32 hx hone

/-! ### Runs -/

/-- The steps that update the averages. -/
def samples : LoadOp n → Bool
  | .run .globalSample => true
  | .run .nohzCatchUp => true
  | _ => false

/-- `active` is the count in the format, if there is room for it. -/
theorem toNat_activeOf {tasks : Int} (htasks : tasks.toNat * 2048 ≤ loadIntegers * 2048) :
    (activeOf tasks).toNat = tasks.toNat * 2048 := by
  unfold loadIntegers at htasks
  unfold activeOf
  split
  · rename_i hpos
    obtain ⟨k, rfl⟩ := Int.eq_ofNat_of_zero_le (Int.le_of_lt hpos)
    have hk : k ≤ 1023 := by
      rw [Int.toNat_natCast] at htasks
      omega
    rw [BitVec.ofInt_natCast, BitVec.toNat_mul, BitVec.toNat_ofNat, toNat_fixed1,
      Nat.mod_eq_of_lt (by omega), Int.toNat_natCast, Nat.mod_eq_of_lt (by omega)]
  · rename_i hneg
    rw [Int.toNat_of_nonpos (by omega)]
    rfl

/-- A step of a call keeps the averages between bounds. -/
theorem loadWithin_run {s : LoadAvg n} {pc : LoadPc n} {lo hi : Nat}
    (hhi : hi ≤ loadIntegers * 2048) (hload : ∀ i, LoadWithin lo hi (s.avenrun i))
    (hactive : samples (.run pc) = true → LoadWithin lo hi (activeOf s.calcLoadTasks)) (i : Fin 3) :
    LoadWithin lo hi ((pc.run HZ s).1.avenrun i) := by
  cases pc with
  | globalSample => exact loadWithin_calcLoad hhi (toNat_loadExp i) (hload i) (hactive rfl)
  | nohzCatchUp =>
      show LoadWithin lo hi ((calcGlobalNohz HZ s).avenrun i)
      unfold calcGlobalNohz
      split
      · exact loadWithin_calcLoad hhi (fixedPowerInt_le (toNat_loadExp i) _) (hload i) (hactive rfl)
      · exact hload i
  | _ => exact hload i

/-- A count between two bounds, as a load. -/
def CountWithin (lo hi : Nat) (s : LoadSys n) : Prop :=
  lo ≤ s.calcLoadTasks.toNat * 2048 ∧ s.calcLoadTasks.toNat * 2048 ≤ hi

instance (lo hi : Nat) (s : LoadSys n) : Decidable (CountWithin lo hi s) :=
  inferInstanceAs (Decidable (_ ∧ _))

/-- **A step keeps the averages between bounds** that the count keeps too where it is sampled. -/
theorem loadWithin_step {s t : LoadSys n} {o : LoadOp n} {lo hi : Nat}
    (hhi : hi ≤ loadIntegers * 2048) (hload : ∀ i, LoadWithin lo hi (s.avenrun i))
    (hcount : samples o = true → CountWithin lo hi s) (hstep : loadStep HZ s o = some t) :
    ∀ i, LoadWithin lo hi (t.avenrun i) := by
  cases o with
  | run pc =>
      have hactive : samples (.run pc) = true → LoadWithin lo hi (activeOf s.calcLoadTasks) := by
        intro ho
        have hbounds := hcount ho
        unfold LoadWithin
        rw [toNat_activeOf (Nat.le_trans hbounds.2 hhi)]
        exact hbounds
      by_cases hpc : pc ∈ s.calls
      · rw [loadStep, if_pos hpc] at hstep
        cases hstep
        exact loadWithin_run hhi hload hactive
      · rw [loadStep, if_neg hpc] at hstep
        cases hstep
  | begin c =>
      cases hstep
      exact hload
  | tick jiffies =>
      cases hstep
      exact hload
  | activity cpu nrRunning nrUninterruptible =>
      cases hstep
      exact hload
  | calcGlobalLoadRemove cpu =>
      cases hstep
      exact hload

/-- **The load average stays between the old load and the active count**, with up to 1023 tasks: one
update of an average does, and over any run the averages stay between what they were and the counts
that were sampled. -/
theorem load_between (n HZ : Nat) :
    (∀ (i : Fin 3) (load : BitVec 32) (k m : Nat), k ≤ loadIntegers → m ≤ loadIntegers →
      load.toNat ≤ m * fixed1.toNat →
      LoadWithin (min load.toNat (k * fixed1.toNat)) (max load.toNat (k * fixed1.toNat))
        (calcLoad load (loadExp i) (BitVec.ofNat 32 k * fixed1))) ∧
    ∀ (lo hi : Nat) (s t : LoadSys n) (tr : List (LoadSys n × LoadOp n)),
      hi ≤ loadIntegers * fixed1.toNat → Run (loadStep HZ) s tr t →
      (∀ i, LoadWithin lo hi (s.avenrun i)) →
      (∀ e ∈ tr, samples e.2 = true → CountWithin lo hi e.1) →
      ∀ i, LoadWithin lo hi (t.avenrun i) := by
  rw [toNat_fixed1]
  constructor
  · intro i load k m hk hm hload
    have hlimit : ∀ {x}, x ≤ loadIntegers → x * 2048 ≤ loadIntegers * 2048 :=
      fun hx => Nat.mul_le_mul_right 2048 hx
    have hactive : (BitVec.ofNat 32 k * fixed1).toNat = k * 2048 := by
      have hfits := hlimit hk
      unfold loadIntegers at hfits
      rw [BitVec.toNat_mul, BitVec.toNat_ofNat, toNat_fixed1, Nat.mod_eq_of_lt (by omega),
        Nat.mod_eq_of_lt (by omega)]
    refine loadWithin_calcLoad ?_ (toNat_loadExp i) ⟨Nat.min_le_left _ _, Nat.le_max_left _ _⟩ ?_
    · exact Nat.max_le.mpr ⟨Nat.le_trans hload (hlimit hm), hlimit hk⟩
    · unfold LoadWithin
      rw [hactive]
      exact ⟨Nat.min_le_right _ _, Nat.le_max_right _ _⟩
  · intro lo hi s t tr hhi hrun hload hcount
    exact (hrun.invariant (fun s => ∀ i, LoadWithin lo hi (s.avenrun i))
      (fun s o => samples o = true → CountWithin lo hi s)
      (fun _ _ _ hs ho hstep => loadWithin_step hhi hs ho hstep) hload hcount).1

/-- Three tasks are sampled, and the averages go from zero towards three. -/
theorem load_between_three : ∃ s : LoadSys 2, Run.Reachable (loadStep 100) (loadBoot 2 100 0) s ∧
    (s.avenrun 0).toNat = 492 ∧ (∀ i, LoadWithin 0 6144 (s.avenrun i)) ∧
    LoadWithin 492 6144 (calcLoad 492 (loadExp 0) (3 * fixed1)) := by
  have htrace : ((Run.trace (loadStep 100) (loadBoot 2 100 0)
      [.activity 0 3 0, .tick 501, .begin (.calcLoadAccountActive 0), .run (.accountTest 0),
        .run (.accountFold 0), .run (.accountAdd 0 3), .run (.accountNext 0), .tick 511,
        .begin .calcGlobalLoad, .run .globalTest, .run .foldIdx, .run (.foldRead 0),
        .run .globalSample, .run .globalNext, .run .nohzCatchUp]).any fun r =>
      decide ((r.2.avenrun 0).toNat = 492 ∧
        ∀ e ∈ r.1, samples e.2 = true → CountWithin 0 6144 e.1)) = true := by
    decide +kernel
  obtain ⟨⟨tr, s⟩, hrun, hload, hcount⟩ := Run.exists_of_trace htrace
  have hstart : ∀ i, LoadWithin 0 6144 ((loadBoot 2 100 0).avenrun i) := by decide
  obtain ⟨hone, hall⟩ := load_between 2 100
  exact ⟨s, ⟨tr, hrun⟩, hload, hall 0 6144 _ s tr (by decide) hrun hstart hcount,
    hone 0 492 3 1 (by decide) (by decide) (by decide)⟩

/-- **With 1024 tasks the format is full**: a load of 1024 that should stay where it is becomes
zero. -/
theorem load_wraps : (1024 : Nat) ≤ 5000 ∧ (1024 * fixed1).toNat = 1024 * fixed1.toNat ∧
    calcLoad (1024 * fixed1) (loadExp 0) (1024 * fixed1) = 0 ∧
    ¬ LoadWithin (min (1024 * fixed1).toNat (1024 * fixed1.toNat))
      (max (1024 * fixed1).toNat (1024 * fixed1.toNat))
      (calcLoad (1024 * fixed1) (loadExp 0) (1024 * fixed1)) := by
  decide

end WrrScheduler
