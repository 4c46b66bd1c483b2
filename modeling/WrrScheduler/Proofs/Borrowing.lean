/-
Runtime that is borrowed is not created and not lost.

Balancing moves runtime from one CPU to another, so the CPUs that are not disabled
hold as many times the bandwidth's runtime as there are of them.  Disabling a CPU
brings its runtime back to that before it is taken out: if some were still wanted
the others would have nothing left, and then the sum says that nothing is wanted.

Enabling writes the runtime of the bandwidth, whatever the CPU had.  That keeps the
sum exactly if the CPU was disabled or had that much already.  So the invariant
`Sound` is kept by every step but one, and for that one `enable_sum_iff` says when.
-/
import Mathlib.Algebra.BigOperators.Ring.Finset
import Mathlib.Data.Fintype.BigOperators
import WrrScheduler.Kernel.RtBorrow
import WrrScheduler.Lib.Share

namespace WrrScheduler

variable {n : Nat} {P R own own' want want' : Int} {more more' : Bool} {self cpu i : Fin n}
  {l : List (Fin n)} {q q' t : RootDomain n}

/-- The runtime of a CPU, none if it is disabled. -/
def RtShare.amount (a : RtShare) : Int := a.rtRuntime.getD 0

/-- One for a CPU that is not disabled. -/
def RtShare.counts (a : RtShare) : Int := if a.rtRuntime.isSome then 1 else 0

namespace RootDomain

/-- The CPUs that are not disabled. -/
def enabled (q : RootDomain n) : Finset (Fin n) := Finset.univ.filter fun i => (q i).rtRuntime.isSome

/-- The runtime of all CPUs. -/
def total (q : RootDomain n) : Int := ∑ i, (q i).amount

/-- How many CPUs are not disabled. -/
def number (q : RootDomain n) : Int := ∑ i, (q i).counts

/-- No CPU has less than nothing. -/
def Nonneg (q : RootDomain n) : Prop := ∀ i runtime, (q i).rtRuntime = some runtime → 0 ≤ runtime

/-- Nothing is created or lost, and no CPU has less than nothing. -/
structure Sound (R : Int) (q : RootDomain n) : Prop where
  sum : q.total = R * q.number
  nonneg : q.Nonneg

theorem amount_of_some {r : Int} (h : (q i).rtRuntime = some r) : (q i).amount = r := by
  rw [RtShare.amount, h]
  rfl

theorem amount_of_none (h : (q i).rtRuntime = none) : (q i).amount = 0 := by
  rw [RtShare.amount, h]
  rfl

theorem total_setRuntime (q : RootDomain n) (i : Fin n) (v : Option Int) :
    (q.setRuntime i v).total = q.total + (v.getD 0 - (q i).amount) :=
  Share.sum_amount RtShare.amount q i _

theorem number_setRuntime (q : RootDomain n) (i : Fin n) (v : Option Int) :
    (q.setRuntime i v).number = q.number + ((if v.isSome then 1 else 0) - (q i).counts) :=
  Share.sum_amount RtShare.counts q i _

theorem number_setRuntime_some {r r' : Int} (h : (q i).rtRuntime = some r) :
    (q.setRuntime i (some r')).number = q.number := by
  rw [number_setRuntime, RtShare.counts, h]
  simp

@[simp] theorem setRuntime_of_ne {j : Fin n} (h : j ≠ i) (v : Option Int) :
    q.setRuntime i v j = q j := Function.update_of_ne h _ _

@[simp] theorem rtRuntime_setRuntime (v : Option Int) : (q.setRuntime i v i).rtRuntime = v := by
  simp [setRuntime]

theorem nonneg_setRuntime (h : q.Nonneg) {v : Option Int} (hv : ∀ r, v = some r → 0 ≤ r) :
    (q.setRuntime i v).Nonneg := by
  intro j r hj
  by_cases hji : j = i
  · subst hji
    rw [rtRuntime_setRuntime] at hj
    exact hv r hj
  · rw [setRuntime_of_ne hji] at hj
    exact h j r hj

theorem counts_le_number (q : RootDomain n) (i : Fin n) : (q i).counts ≤ q.number := by
  have hnonneg : ∀ j ∈ Finset.univ, 0 ≤ (q j).counts := by
    intro j _
    unfold RtShare.counts
    split
    · decide
    · decide
  exact Finset.single_le_sum hnonneg (Finset.mem_univ i)

/-! ### Balancing

What a turn takes from one CPU it adds to the borrower, so the sum of the borrower's
own and the others' is what the loop keeps.  No CPU goes below nothing: a share of the
spare runtime is no more than all of it, and a borrower that is cut off is left with a
whole period.
-/

/-- What is lent leaves both sides with something that is not negative. -/
theorem lent_le {runtime : Int} {time : Nat} (hspare : 0 < runtime - time) :
    lent P own (runtime - time) n ≤ runtime := by
  have hle : (runtime - time) / n ≤ runtime - time :=
    Int.ediv_le_self _ (by omega)
  unfold lent
  split
  · omega
  · omega

theorem lent_nonneg {spare : Int} (hP : 0 ≤ P) (hown : 0 ≤ own) (hspare : 0 < spare) :
    0 ≤ own + lent P own spare n := by
  have hle : 0 ≤ spare / n := Int.ediv_nonneg (by omega) (by omega)
  unfold lent
  split
  · omega
  · omega

/-- **A turn of balancing moves runtime**, and leaves no CPU with less than nothing. -/
theorem balanceLoop_keeps (hP : 0 ≤ P) (hq : q.Nonneg) (hown : 0 ≤ own)
    (h : balanceLoop P self l own more q = (own', more', q')) :
    own' + q'.total = own + q.total ∧ q'.number = q.number ∧ q'.Nonneg ∧ 0 ≤ own' ∧
      q' self = q self := by
  induction l generalizing own more q with
  | nil =>
      cases h
      exact ⟨rfl, rfl, hq, hown, rfl⟩
  | cons i is ih =>
      by_cases hi : i = self
      · rw [balanceLoop, if_pos hi] at h
        exact ih hq hown h
      · rw [balanceLoop, if_neg hi] at h
        cases hruntime : (q i).rtRuntime with
        | none =>
            rw [hruntime] at h
            exact ih hq hown h
        | some runtime =>
            rw [hruntime] at h
            by_cases hspare : 0 < runtime - (q i).rtTime
            · simp only [hspare, if_true] at h
              have hle := @lent_le n P own runtime (q i).rtTime hspare
              have hown' := @lent_nonneg n P own (runtime - (q i).rtTime) hP hown hspare
              generalize lent P own (runtime - (q i).rtTime) n = diff at h hle hown'
              have htotal := total_setRuntime q i (some (runtime - diff))
              have hnumber := @number_setRuntime_some n i q runtime (runtime - diff) hruntime
              have hnonneg : (q.setRuntime i (some (runtime - diff))).Nonneg := by
                refine nonneg_setRuntime hq ?_
                rintro r ⟨⟩
                omega
              have hself : q.setRuntime i (some (runtime - diff)) self = q self :=
                setRuntime_of_ne (Ne.symm hi) _
              rw [amount_of_some hruntime] at htotal
              simp only [Option.getD_some] at htotal
              split at h
              · cases h
                exact ⟨by omega, hnumber, hnonneg, hown', hself⟩
              · obtain ⟨hsum, hcount, hpos, hpos', hsame⟩ := ih hnonneg hown' h
                exact ⟨by omega, hcount.trans hnumber, hpos, hpos', hsame.trans hself⟩
            · simp only [hspare, if_false] at h
              exact ih hq hown h

theorem Sound.balance (hP : 0 ≤ P) (hq : Sound R q) (hself : (q self).rtRuntime = some own) :
    Sound R (q.doBalanceRuntime P self own).2 := by
  rcases hloop : balanceLoop P self (List.finRange n) own false q with ⟨own', more', q'⟩
  obtain ⟨hsum, hnumber, hnonneg, hown', hsame⟩ :=
    balanceLoop_keeps hP hq.nonneg (hq.nonneg self own hself) hloop
  have hresult : (q.doBalanceRuntime P self own).2 = q'.setRuntime self (some own') := by
    rw [doBalanceRuntime, hloop]
  have hself' : (q' self).rtRuntime = some own := by rw [hsame, hself]
  have htotal := total_setRuntime q' self (some own')
  rw [amount_of_some hself'] at htotal
  simp only [Option.getD_some] at htotal
  rw [hresult]
  constructor
  · rw [number_setRuntime_some hself', hnumber, htotal, ← hq.sum]
    omega
  · refine nonneg_setRuntime hnonneg ?_
    rintro r ⟨⟩
    exact hown'

/-! ### Reclaiming

`__disable_runtime` goes through the other CPUs while it wants something.  A CPU that
has less than is wanted gives all it has, so at the end either nothing is wanted or
everyone else has nothing.  In the second case the sum over the enabled CPUs is the
disabled one's alone, and the invariant gives what it must be: nothing was wanted
after all.
-/

/-- What the reclaiming loop leaves: a CPU that is none of those it went through, and the one that
is disabled, are as they were, and if something is still wanted the others have nothing left. -/
structure Reclaimed (cpu : Fin n) (l : List (Fin n)) (want : Int) (q : RootDomain n) (want' : Int)
    (q' : RootDomain n) : Prop where
  frame : ∀ j, j ∉ l ∨ j = cpu → q' j = q j
  total : q'.total = q.total - (want - want')
  number : q'.number = q.number
  nonneg : q'.Nonneg
  sign : 0 ≤ want → 0 ≤ want'
  rest : want' = 0 ∨ (0 < want' ∧ ∀ i ∈ l, i ≠ cpu → (q' i).amount = 0) ∨
    (want' < 0 ∧ ∀ i ∈ l, i ≠ cpu → (q' i).rtRuntime = none)

/-- A CPU that has nothing to give, or gave all it had, does not change what is left. -/
theorem Reclaimed.cons {q₁ : RootDomain n} {want₁ : Int} (hi : i ∉ l)
    (h : Reclaimed self l want₁ q₁ want' q') (hframe : ∀ j, j ≠ i ∨ j = self → q₁ j = q j)
    (htotal : q₁.total = q.total - (want - want₁)) (hnumber : q₁.number = q.number)
    (hsign : 0 ≤ want → 0 ≤ want₁) (hamount : i ≠ self → (q₁ i).amount = 0)
    (hnone : want' < 0 → i ≠ self → (q₁ i).rtRuntime = none) :
    Reclaimed self (i :: l) want q want' q' where
  frame j hj := by
    have hrest : j ∉ l ∨ j = self := hj.imp_left (List.not_mem_of_not_mem_cons)
    have hfirst : j ≠ i ∨ j = self := hj.imp_left (List.ne_of_not_mem_cons)
    rw [h.frame j hrest, hframe j hfirst]
  total := by
    rw [h.total, htotal]
    omega
  number := h.number.trans hnumber
  nonneg := h.nonneg
  sign hwant := h.sign (hsign hwant)
  rest := by
    have hsame : q' i = q₁ i := h.frame i (Or.inl hi)
    rcases h.rest with hzero | ⟨hpos, hall⟩ | ⟨hneg, hall⟩
    · exact Or.inl hzero
    · refine Or.inr (Or.inl ⟨hpos, List.forall_mem_cons.mpr ⟨?_, hall⟩⟩)
      intro hne
      rw [hsame]
      exact hamount hne
    · refine Or.inr (Or.inr ⟨hneg, List.forall_mem_cons.mpr ⟨?_, hall⟩⟩)
      intro hne
      rw [hsame]
      exact hnone hneg hne

theorem reclaimLoop_spec (hl : l.Nodup) (hq : q.Nonneg)
    (h : reclaimLoop self l want q = (want', q')) (hwant : want ≠ 0) :
    Reclaimed self l want q want' q' := by
  induction l generalizing want q with
  | nil =>
      cases h
      refine ⟨fun _ _ => rfl, by omega, rfl, hq, id, ?_⟩
      rcases Int.lt_or_gt_of_ne hwant with hneg | hpos
      · exact Or.inr (Or.inr ⟨hneg, by simp⟩)
      · exact Or.inr (Or.inl ⟨hpos, by simp⟩)
  | cons i is ih =>
      obtain ⟨hi, his⟩ := List.nodup_cons.mp hl
      by_cases hself : i = self
      · rw [reclaimLoop, if_pos hself] at h
        exact (ih his hq h hwant).cons hi (fun _ _ => rfl) (by omega) rfl id
          (fun hne => absurd hself hne) fun _ hne => absurd hself hne
      · rw [reclaimLoop, if_neg hself] at h
        cases hruntime : (q i).rtRuntime with
        | none =>
            rw [hruntime] at h
            exact (ih his hq h hwant).cons hi (fun _ _ => rfl) (by omega) rfl id
              (fun _ => amount_of_none hruntime) fun _ _ => hruntime
        | some runtime =>
            rw [hruntime] at h
            have hruntime_nonneg := hq i runtime hruntime
            simp only at h
            generalize hdiff : (if 0 < want then min runtime want else want) = diff at h
            have hle : diff ≤ runtime := by
              rw [← hdiff]
              split
              · exact min_le_left _ _
              · omega
            have htotal := total_setRuntime q i (some (runtime - diff))
            rw [amount_of_some hruntime] at htotal
            simp only [Option.getD_some] at htotal
            have hnumber := @number_setRuntime_some n i q runtime (runtime - diff) hruntime
            have hnonneg : (q.setRuntime i (some (runtime - diff))).Nonneg := by
              refine nonneg_setRuntime hq ?_
              rintro r ⟨⟩
              omega
            have hframe : ∀ j, j ≠ i ∨ j = self → q.setRuntime i (some (runtime - diff)) j = q j := by
              rintro j (hj | rfl)
              · exact setRuntime_of_ne hj _
              · exact setRuntime_of_ne (Ne.symm hself) _
            by_cases hdone : want - diff = 0
            · rw [if_pos hdone] at h
              cases h
              refine ⟨?_, by omega, hnumber, hnonneg, fun _ => by omega, Or.inl hdone⟩
              intro j hj
              exact hframe j (hj.imp_left List.ne_of_not_mem_cons)
            · -- The loop goes on only if this CPU gave all it had.
              have hpos : 0 < want := by
                by_contra hc
                rw [if_neg hc] at hdiff
                omega
              have hall : diff = runtime := by
                rw [if_pos hpos] at hdiff
                omega
              rw [if_neg hdone] at h
              have hrest := ih his hnonneg h hdone
              have hsign := hrest.sign (by omega)
              refine hrest.cons hi hframe (by omega) hnumber (fun _ => by omega) (fun _ => ?_)
                fun hneg => absurd hsign (by omega)
              rw [amount_of_some (rtRuntime_setRuntime _)]
              omega

/-- **Disabling finds all it wants**, and takes out what the CPU started out with. -/
theorem Sound.disable (hR : 0 ≤ R) (hq : Sound R q) :
    ∃ t, q.disableRuntime R self = some t ∧ Sound R t ∧ (t self).rtRuntime = none := by
  have hafter : ∀ q₁ : RootDomain n, q₁.Nonneg → (q₁.setRuntime self none).Nonneg :=
    fun q₁ h => nonneg_setRuntime h (by simp)
  cases hself : (q self).rtRuntime with
  | none =>
      refine ⟨q.setRuntime self none, by rw [disableRuntime, hself], ⟨?_, hafter q hq.nonneg⟩,
        rtRuntime_setRuntime none⟩
      rw [total_setRuntime, number_setRuntime, amount_of_none hself, RtShare.counts, hself, hq.sum]
      simp
  | some runtime =>
      have hcounts : (q self).counts = 1 := by rw [RtShare.counts, hself]; rfl
      by_cases hequal : runtime = R
      · refine ⟨q.setRuntime self none, by simp [disableRuntime, hself, hequal],
          ⟨?_, hafter q hq.nonneg⟩, rtRuntime_setRuntime none⟩
        rw [total_setRuntime, number_setRuntime, amount_of_some hself, hcounts, hq.sum, hequal]
        simp only [Option.getD_none, Option.isSome_none, Bool.false_eq_true, if_false, Int.mul_add,
          Int.mul_sub, Int.mul_zero, Int.mul_one]
      · rcases hloop : reclaimLoop self (List.finRange n) (R - runtime) q with ⟨want', q'⟩
        have hspec := reclaimLoop_spec (List.nodup_finRange n) hq.nonneg hloop (by omega)
        have hself' : (q' self).rtRuntime = some runtime := by
          rw [hspec.frame self (Or.inr rfl), hself]
        have hcounts' : (q' self).counts = 1 := by rw [RtShare.counts, hself']; rfl
        have htotal := hspec.total
        have hnumber := hspec.number
        rw [hq.sum] at htotal
        have hzero : want' = 0 := by
          by_contra hne
          have hnothing : ∀ j, j ≠ self → (q' j).amount = 0 := by
            intro j hj
            rcases hspec.rest with hc | ⟨-, hall⟩ | ⟨-, hall⟩
            · exact absurd hc hne
            · exact hall j (List.mem_finRange j) hj
            · exact amount_of_none (hall j (List.mem_finRange j) hj)
          have hown : q'.total = runtime :=
            (Fintype.sum_eq_single (f := fun j => (q' j).amount) self hnothing).trans
              (amount_of_some hself')
          have hmany : 1 ≤ q.number := hcounts ▸ counts_le_number q self
          have hshare : want' = R - R * q.number := by omega
          have hle : R * 1 ≤ R * q.number := Int.mul_le_mul_of_nonneg_left hmany hR
          rcases hspec.rest with hc | ⟨hpos, -⟩ | ⟨-, hall⟩
          · exact hne hc
          · omega
          · -- No other CPU is left, so this one has exactly its own.
            have halone : q'.number = 1 := by
              refine (Fintype.sum_eq_single (f := fun j => (q' j).counts) self ?_).trans hcounts'
              intro j hj
              rw [RtShare.counts, hall j (List.mem_finRange j) hj]
              rfl
            rw [← hnumber, halone] at hshare
            omega
        refine ⟨q'.setRuntime self none, ?_, ⟨?_, hafter q' hspec.nonneg⟩,
          rtRuntime_setRuntime none⟩
        · simp only [disableRuntime, hself, hequal, if_false, hloop, hzero, ne_eq, not_true,
            if_false]
        · have hmul : R * (q.number - 1) = R * q.number - R := by rw [Int.mul_sub, Int.mul_one]
          rw [total_setRuntime, number_setRuntime, amount_of_some hself', hcounts', hnumber]
          simp only [Option.getD_none, Option.isSome_none, Bool.false_eq_true, if_false]
          rw [show q.number + (0 - 1) = q.number - 1 by omega, hmul]
          omega

/-! ### Enabling -/

/-- A CPU that is enabled was disabled, or has what it started out with. -/
def Ready (R : Int) (cpu : Fin n) (q : RootDomain n) : Prop :=
  (q cpu).rtRuntime = none ∨ (q cpu).rtRuntime = some R

theorem enable_sum (q : RootDomain n) (cpu : Fin n) :
    (q.enableRuntime R cpu).total = q.total + (R - (q cpu).amount) ∧
      (q.enableRuntime R cpu).number = q.number + (1 - (q cpu).counts) :=
  ⟨Share.sum_amount RtShare.amount q cpu _, Share.sum_amount RtShare.counts q cpu _⟩

theorem nonneg_enable (hR : 0 ≤ R) (hq : q.Nonneg) : (q.enableRuntime R cpu).Nonneg := by
  intro j r hj
  by_cases hjc : j = cpu
  · subst hjc
    rw [enableRuntime, Function.update_self] at hj
    cases hj
    exact hR
  · rw [enableRuntime, Function.update_of_ne hjc] at hj
    exact hq j r hj

/-- **Enabling keeps the sum exactly if the CPU was ready for it.** -/
theorem enable_sum_iff (hq : q.total = R * q.number) :
    (q.enableRuntime R cpu).total = R * (q.enableRuntime R cpu).number ↔ Ready R cpu q := by
  obtain ⟨htotal, hnumber⟩ := @enable_sum n R q cpu
  rw [htotal, hnumber, hq, Int.mul_add, Int.mul_sub, Int.mul_one]
  cases hcpu : (q cpu).rtRuntime with
  | none =>
      have hamount : (q cpu).amount = 0 := amount_of_none hcpu
      have hcounts : (q cpu).counts = 0 := by rw [RtShare.counts, hcpu]; rfl
      rw [hamount, hcounts, Int.mul_zero]
      exact ⟨fun _ => Or.inl hcpu, fun _ => rfl⟩
  | some runtime =>
      have hamount : (q cpu).amount = runtime := amount_of_some hcpu
      have hcounts : (q cpu).counts = 1 := by rw [RtShare.counts, hcpu]; rfl
      rw [hamount, hcounts, Int.mul_one, Ready, hcpu]
      constructor
      · intro h
        have hequal : runtime = R := by omega
        exact Or.inr (by rw [hequal])
      · rintro (h | h)
        · cases h
        · cases h
          omega

/-! ### Steps

`update_runtime` and `set_rq_online` both enable a CPU, and `set_rq_online` does
nothing for one that is online.  A run in which one of them comes after the other,
with a loan in between, is one that creates runtime.
-/

/-- What writes no runtime changes nothing here. -/
theorem Sound.of_same (hq : Sound R q) (h : ∀ i, (q' i).rtRuntime = (q i).rtRuntime) :
    Sound R q' where
  sum := by
    have htotal : q'.total = q.total :=
      Finset.sum_congr rfl fun i _ => by rw [RtShare.amount, RtShare.amount, h]
    have hnumber : q'.number = q.number :=
      Finset.sum_congr rfl fun i _ => by rw [RtShare.counts, RtShare.counts, h]
    rw [htotal, hnumber, hq.sum]
  nonneg i runtime hi := hq.nonneg i runtime (by rw [← h, hi])

theorem rtRuntime_update (time : Nat) (throttled online : Bool) (i : Fin n) :
    (Function.update q cpu ⟨(q cpu).rtRuntime, time, throttled, online⟩ i).rtRuntime =
      (q i).rtRuntime := by
  by_cases hi : i = cpu
  · subst hi
    rw [Function.update_self]
  · rw [Function.update_of_ne hi]

theorem Sound.enable (hR : 0 ≤ R) (hq : Sound R q) (hready : Ready R cpu q) :
    Sound R (q.enableRuntime R cpu) :=
  ⟨(enable_sum_iff hq.sum).mpr hready, nonneg_enable hR hq.nonneg⟩

theorem Sound.online (hR : 0 ≤ R) (hq : Sound R q) (hready : (q cpu).online = false → Ready R cpu q) :
    Sound R (q.setRqOnline R cpu) := by
  cases hon : (q cpu).online with
  | true =>
      rw [setRqOnline, hon]
      exact hq
  | false =>
      have hruntime : ∀ i, (Function.update q cpu { q cpu with online := true } i).rtRuntime =
          (q i).rtRuntime := rtRuntime_update _ _ _
      rw [setRqOnline, hon]
      refine Sound.enable hR (hq.of_same hruntime) ?_
      rw [Ready, hruntime]
      exact hready hon

theorem Sound.offline (hR : 0 ≤ R) (hq : Sound R q) (h : q.setRqOffline R cpu = some t) :
    Sound R t := by
  unfold setRqOffline at h
  split at h
  · obtain ⟨u, hu, hsound, -⟩ := @Sound.disable n R cpu q hR hq
    rw [hu] at h
    cases h
    exact hsound.of_same (rtRuntime_update _ _ _)
  · cases h
    exact hq

end RootDomain

/-- Every CPU an operation enables is ready for it. -/
def BorrowOp.Ready (R : Int) (q : RootDomain n) : BorrowOp n → Prop
  | setRqOnline cpu => (q cpu).online = false → RootDomain.Ready R cpu q
  | updateRuntime .cpuDownFailed cpu => RootDomain.Ready R cpu q
  | updateRuntime .cpuOnline cpu => RootDomain.Ready R cpu q
  | _ => True

namespace RootDomain

theorem Sound.step {o : BorrowOp n} (hR : 0 ≤ R) (hP : 0 ≤ P) (hq : Sound R q) (ho : o.Ready R q)
    (h : borrowStep P R q o = some t) : Sound R t := by
  cases o with
  | doBalanceRuntime cpu =>
      obtain ⟨own, hown, rfl⟩ := Option.map_eq_some_iff.mp h
      exact hq.balance hP hown
  | setRqOnline cpu =>
      cases h
      exact hq.online hR ho
  | setRqOffline cpu => exact hq.offline hR h
  | updateRuntime action cpu =>
      cases action with
      | cpuDownPrepare =>
          obtain ⟨u, hu, hsound, -⟩ := @Sound.disable n R cpu q hR hq
          obtain rfl : u = t := Option.some.inj (hu.symm.trans h)
          exact hsound
      | cpuDownFailed =>
          cases h
          exact hq.enable hR ho
      | cpuOnline =>
          cases h
          exact hq.enable hR ho
      | other =>
          cases h
          exact hq
  | account cpu rtTime rtThrottled =>
      cases h
      exact hq.of_same (rtRuntime_update _ _ _)

end RootDomain

instance {n : Nat} (R : Int) (q : RootDomain n) (o : BorrowOp n) : Decidable (o.Ready R q) :=
  match o with
  | .setRqOnline cpu => inferInstanceAs (Decidable ((q cpu).online = false →
      ((q cpu).rtRuntime = none ∨ (q cpu).rtRuntime = some R)))
  | .updateRuntime .cpuDownFailed cpu =>
    inferInstanceAs (Decidable ((q cpu).rtRuntime = none ∨ (q cpu).rtRuntime = some R))
  | .updateRuntime .cpuOnline cpu =>
    inferInstanceAs (Decidable ((q cpu).rtRuntime = none ∨ (q cpu).rtRuntime = some R))
  | .updateRuntime .cpuDownPrepare _ => .isTrue trivial
  | .updateRuntime .other _ => .isTrue trivial
  | .doBalanceRuntime _ => .isTrue trivial
  | .setRqOffline _ => .isTrue trivial
  | .account _ _ _ => .isTrue trivial

end WrrScheduler
