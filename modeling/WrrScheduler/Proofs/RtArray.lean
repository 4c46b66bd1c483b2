/-
One real-time run queue: its priority array and what is counted beside it.

The bitmap has a bit for each queue that is not empty, and the delimiter at
`MAX_RT_PRIO`; the counters are sums over the queues; and `highest_prio.curr` is
the first bit that is set.  Putting an entity on a queue and taking it off keep
that, whatever the flag says by which boosted entities are told.
-/
import Mathlib.Algebra.BigOperators.Group.Finset.Piecewise
import WrrScheduler.Proofs.RtQueue

namespace WrrScheduler

variable {b b' : Int → Bool} {i j prio : Int} {head : Bool} {e x : RtEntity} {q : RtRq}
  {boosted boosted' : RtEntity → Bool}

namespace Rt

/-! ### The first bit that is set -/

theorem schedFindFirstBit_nonneg (b : Int → Bool) : 0 ≤ schedFindFirstBit b := Int.natCast_nonneg _

theorem schedFindFirstBit_le (b : Int → Bool) : schedFindFirstBit b ≤ maxRtPrio := by
  unfold schedFindFirstBit
  cases hfind : (List.range 100).find? fun i => b (Int.ofNat i) with
  | none => exact Int.le_refl _
  | some n =>
      have hn : n < 100 := List.mem_range.mp (List.mem_of_find?_eq_some hfind)
      show (n : Int) ≤ 100
      omega

/-- No bit below the first is set. -/
theorem bit_of_lt_schedFindFirstBit (hi : 0 ≤ i) (hlt : i < schedFindFirstBit b) : b i = false := by
  obtain ⟨n, rfl⟩ := Int.eq_ofNat_of_zero_le hi
  have hn : (n : Int) < 100 := Int.lt_of_lt_of_le hlt (schedFindFirstBit_le b)
  unfold schedFindFirstBit at hlt
  cases hfind : (List.range 100).find? fun i => b (Int.ofNat i) with
  | none =>
      have hmem : n ∈ List.range 100 := List.mem_range.mpr (by omega)
      simpa using List.find?_eq_none.mp hfind n hmem
  | some k =>
      rw [hfind] at hlt
      have hnk : n < k := Int.ofNat_lt.mp hlt
      obtain ⟨-, -, hbefore⟩ := List.find?_range_eq_some.mp hfind
      simpa using hbefore n hnk

theorem schedFindFirstBit_le_of_bit (hi : 0 ≤ i) (hb : b i = true) : schedFindFirstBit b ≤ i := by
  by_contra hlt
  have hclear := bit_of_lt_schedFindFirstBit hi (Int.not_le.mp hlt)
  rw [hb] at hclear
  cases hclear

/-- The first bit is set, unless there is none. -/
theorem bit_schedFindFirstBit (hlt : schedFindFirstBit b < maxRtPrio) :
    b (schedFindFirstBit b) = true := by
  unfold schedFindFirstBit at hlt ⊢
  cases hfind : (List.range 100).find? fun i => b (Int.ofNat i) with
  | none =>
      rw [hfind] at hlt
      exact absurd hlt (by decide)
  | some n =>
      have hn := List.find?_some hfind
      exact hn

/-- What makes a bit the first, or `MAX_RT_PRIO` the answer. -/
theorem schedFindFirstBit_eq (hi : 0 ≤ i) (hlt : i ≤ maxRtPrio) (hb : i < maxRtPrio → b i = true)
    (hbefore : ∀ j, 0 ≤ j → j < i → b j = false) : schedFindFirstBit b = i := by
  refine le_antisymm ?_ ?_
  · rcases Int.lt_or_eq_of_le hlt with htop | rfl
    · exact schedFindFirstBit_le_of_bit hi (hb htop)
    · exact schedFindFirstBit_le b
  · by_contra hfirst
    have hfirst := Int.not_le.mp hfirst
    have hset := bit_schedFindFirstBit (Int.lt_of_lt_of_le hfirst hlt)
    rw [hbefore _ (schedFindFirstBit_nonneg b) hfirst] at hset
    cases hset

/-- Setting a bit. -/
theorem schedFindFirstBit_set (b : Int → Bool) (hprio : 0 ≤ prio ∧ prio < maxRtPrio) :
    schedFindFirstBit (Function.update b prio true) =
      if prio < schedFindFirstBit b then prio else schedFindFirstBit b := by
  split
  · rename_i hlt
    refine schedFindFirstBit_eq hprio.1 hprio.2.le (fun _ => Function.update_self _ _ _) ?_
    intro j hj hjlt
    rw [Function.update_of_ne (ne_of_lt hjlt)]
    exact bit_of_lt_schedFindFirstBit hj (hjlt.trans hlt)
  · rename_i hle
    refine schedFindFirstBit_eq (schedFindFirstBit_nonneg _) (schedFindFirstBit_le _) ?_ ?_
    · intro hlt
      by_cases heq : schedFindFirstBit b = prio
      · rw [heq, Function.update_self]
      · rw [Function.update_of_ne heq]
        exact bit_schedFindFirstBit hlt
    · intro j hj hjlt
      rw [Function.update_of_ne (ne_of_lt (hjlt.trans_le (not_lt.mp hle)))]
      exact bit_of_lt_schedFindFirstBit hj hjlt

/-- Clearing a bit that is not the first. -/
theorem schedFindFirstBit_clear (hne : prio ≠ schedFindFirstBit b) :
    schedFindFirstBit (Function.update b prio false) = schedFindFirstBit b := by
  refine schedFindFirstBit_eq (schedFindFirstBit_nonneg _) (schedFindFirstBit_le _) ?_ ?_
  · intro hlt
    rw [Function.update_of_ne (Ne.symm hne)]
    exact bit_schedFindFirstBit hlt
  · intro j hj hjlt
    by_cases hjp : j = prio
    · rw [hjp, Function.update_self]
    · rw [Function.update_of_ne hjp]
      exact bit_of_lt_schedFindFirstBit hj hjlt

end Rt

theorem Rt.put_del_perm {l : List RtEntity} (he : e ∈ l) : (put head e (Sequence.del e l)).Perm l := by
  have hback : (e :: Sequence.del e l).Perm l := (List.perm_cons_erase he).symm
  cases head
  · exact (List.perm_append_singleton e _).trans hback
  · exact hback

theorem Rt.length_put {l : List RtEntity} : (put head e l).length = l.length + 1 := by
  cases head
  · exact Sequence.length_addTail
  · exact Sequence.length_add

theorem Rt.countP_one : [e].countP boosted = (boosted e).toNat := by
  rw [List.countP_singleton]
  cases boosted e <;> rfl

theorem Rt.countP_put {l : List RtEntity} :
    (put head e l).countP boosted = l.countP boosted + (boosted e).toNat := by
  cases head
  · show (l ++ [e]).countP boosted = _
    rw [List.countP_append, countP_one]
  · show ([e] ++ l).countP boosted = _
    rw [List.countP_append, countP_one, Nat.add_comm]

theorem Rt.countP_del {l : List RtEntity} (he : e ∈ l) :
    (Sequence.del e l).countP boosted + (boosted e).toNat = l.countP boosted := by
  rw [(List.perm_cons_erase he).countP_eq]
  show _ = ([e] ++ Sequence.del e l).countP boosted
  rw [List.countP_append, countP_one, Nat.add_comm]

/-! ### The fields that counting writes -/

section Fields

variable (prio : Int) (c : Bool) (q : RtRq)

theorem Rt.incRtTasks_bitmap : (incRtTasks prio c q).bitmap = q.bitmap := by
  unfold incRtTasks incRtGroup incRtPrio
  split <;> split <;> rfl

theorem Rt.incRtTasks_highestPrio : (incRtTasks prio c q).highestPrio =
    if prio < q.highestPrio then prio else q.highestPrio := by
  unfold incRtTasks incRtGroup incRtPrio
  dsimp only
  split <;> split <;> rfl

theorem Rt.incRtTasks_rtNrBoosted :
    (incRtTasks prio c q).rtNrBoosted = q.rtNrBoosted + c.toNat := by
  unfold incRtTasks incRtGroup incRtPrio
  by_cases hc : c = true
  · rw [if_pos hc, hc]
    split <;> rfl
  · rw [if_neg hc, Bool.eq_false_of_not_eq_true hc]
    split <;> rfl

theorem Rt.decRtTasks_bitmap : (decRtTasks prio c q).bitmap = q.bitmap := by
  unfold decRtTasks decRtGroup decRtPrio
  split <;> split <;> (try split) <;> rfl

theorem Rt.decRtTasks_highestPrio : (decRtTasks prio c q).highestPrio =
    if q.rtNrRunning - 1 ≠ 0 then
      if prio = q.highestPrio then schedFindFirstBit q.bitmap else q.highestPrio
    else maxRtPrio := by
  unfold decRtTasks decRtGroup decRtPrio
  dsimp only
  split <;> split <;> (try split) <;> rfl

theorem Rt.decRtTasks_rtNrBoosted :
    (decRtTasks prio c q).rtNrBoosted = q.rtNrBoosted - c.toNat := by
  unfold decRtTasks decRtGroup decRtPrio
  by_cases hc : c = true
  · rw [if_pos hc, hc]
    split <;> (try split) <;> rfl
  · rw [if_neg hc, Bool.eq_false_of_not_eq_true hc]
    split <;> (try split) <;> rfl

end Fields

/-! ### What is counted

Whether it is right is `Counts`.  A push sets the bit and compares; a pull clears the
bit if the queue is empty and looks for the next.  Both are a change of one queue, and
every counter is a sum over queues, so `total_update` gives the difference each time.
-/

namespace RtRq

/-- The sum of something over the queues. -/
def total (f : List RtEntity → Nat) (q : RtRq) : Nat :=
  ∑ n ∈ Finset.range maxRtPrio.toNat, f (q.queue n)

/-- How many entities are queued. -/
def queued (q : RtRq) : Nat := q.total List.length

/-- How many of them are boosted. -/
def queuedBoosted (boosted : RtEntity → Bool) (q : RtRq) : Nat := q.total (List.countP boosted)

/-- What the array and the counters of a run queue say about its queues. -/
structure Counts (boosted : RtEntity → Bool) (q : RtRq) : Prop where
  bit : ∀ i, q.bitmap i = true ↔ q.queue i ≠ [] ∨ i = maxRtPrio
  range : ∀ i, q.queue i ≠ [] → 0 ≤ i ∧ i < maxRtPrio
  rtNrRunning : q.rtNrRunning = q.queued
  highestPrio : q.highestPrio = Rt.schedFindFirstBit q.bitmap
  rtNrBoosted : q.rtNrBoosted = q.queuedBoosted boosted

/-- Changing one queue changes a sum by what that queue has more or less. -/
theorem total_update {q' : RtRq} (f : List RtEntity → Nat) {l : List RtEntity}
    (hprio : 0 ≤ prio ∧ prio < maxRtPrio) (hqueue : q'.queue = Function.update q.queue prio l) :
    q'.total f + f (q.queue prio) = q.total f + f l := by
  obtain ⟨n, rfl⟩ := Int.eq_ofNat_of_zero_le hprio.1
  have hmem : n ∈ Finset.range maxRtPrio.toNat :=
    Finset.mem_range.mpr (Int.lt_toNat.mpr hprio.2)
  have hrest : ∑ i ∈ (Finset.range maxRtPrio.toNat).erase n, f (q'.queue i) =
      ∑ i ∈ (Finset.range maxRtPrio.toNat).erase n, f (q.queue i) := by
    refine Finset.sum_congr rfl fun i hi => ?_
    have hne : (i : Int) ≠ n := fun hin => Finset.ne_of_mem_erase hi (Int.ofNat.inj hin)
    rw [hqueue, Function.update_of_ne hne]
  unfold total
  rw [← Finset.add_sum_erase _ _ hmem, ← Finset.add_sum_erase _ _ hmem, hrest, hqueue,
    Function.update_self]
  omega

theorem queued_eq_zero (hrange : ∀ i, q.queue i ≠ [] → 0 ≤ i ∧ i < maxRtPrio) :
    q.queued = 0 ↔ ∀ i, q.queue i = [] := by
  unfold queued total
  rw [Finset.sum_eq_zero_iff]
  constructor
  · intro hzero i
    by_contra hne
    obtain ⟨hnonneg, hlt⟩ := hrange i hne
    obtain ⟨n, rfl⟩ := Int.eq_ofNat_of_zero_le hnonneg
    have hn : n ∈ Finset.range maxRtPrio.toNat := Finset.mem_range.mpr (Int.lt_toNat.mpr hlt)
    exact hne (List.eq_nil_of_length_eq_zero (hzero n hn))
  · intro hempty i _
    rw [hempty i]
    rfl

variable {r : Rt}

/-- Only the queued entities are asked whether they are boosted. -/
theorem Counts.congr (h : q.Counts boosted)
    (hsame : ∀ i, ∀ e ∈ q.queue i, boosted' e = boosted e) : q.Counts boosted' := by
  refine ⟨h.bit, h.range, h.rtNrRunning, h.highestPrio, ?_⟩
  rw [h.rtNrBoosted]
  unfold queuedBoosted total
  refine Finset.sum_congr rfl fun i _ => ?_
  refine List.countP_congr fun e he => ?_
  rw [hsame i e he]

/-- A run queue counts entities exactly if it has a bit set below the delimiter. -/
theorem Counts.highestPrio_lt (h : q.Counts boosted) :
    q.highestPrio < maxRtPrio ↔ q.rtNrRunning ≠ 0 := by
  rw [h.rtNrRunning, Ne, queued_eq_zero h.range, h.highestPrio]
  constructor
  · intro hlt hempty
    rcases (h.bit _).mp (Rt.bit_schedFindFirstBit hlt) with hne | heq
    · exact hne (hempty _)
    · exact absurd heq (ne_of_lt hlt)
  · intro hne
    obtain ⟨i, hi⟩ := not_forall.mp hne
    obtain ⟨hnonneg, hlt⟩ := h.range i hi
    exact Int.lt_of_le_of_lt (Rt.schedFindFirstBit_le_of_bit hnonneg ((h.bit i).mpr (Or.inl hi))) hlt

/-- A queue that has not been touched has the bit it had. -/
theorem Counts.bit_of_ne (h : q.Counts boosted) {Q : Int → List RtEntity} {b : Int → Bool}
    (hqueue : ∀ i, i ≠ prio → Q i = q.queue i) (hb : ∀ i, i ≠ prio → b i = q.bitmap i)
    (hprio : b prio = true ↔ Q prio ≠ []) (hlt : prio < maxRtPrio) (i : Int) :
    b i = true ↔ Q i ≠ [] ∨ i = maxRtPrio := by
  by_cases hi : i = prio
  · subst hi
    rw [hprio]
    exact (or_iff_left (ne_of_lt hlt)).symm
  · rw [hb i hi, hqueue i hi]
    exact h.bit i

/-- **Putting an entity on a queue.** -/
theorem Counts.push (h : q.Counts boosted) (hprio : 0 ≤ prio ∧ prio < maxRtPrio) (head : Bool)
    (e : RtEntity) :
    (Rt.incRtTasks prio (boosted e)
      { Rt.push prio head e q with bitmap := Function.update q.bitmap prio true }).Counts boosted := by
  generalize hq' : Rt.incRtTasks prio (boosted e) _ = q'
  have hqueue : q'.queue = Function.update q.queue prio (Rt.put head e (q.queue prio)) := by
    rw [← hq', Rt.incRtTasks_queue]
    rfl
  have hbitmap : q'.bitmap = Function.update q.bitmap prio true := by
    rw [← hq', Rt.incRtTasks_bitmap]
  have hother : ∀ i, i ≠ prio → q'.queue i = q.queue i := by
    intro i hi
    rw [hqueue, Function.update_of_ne hi]
  have hput : q'.queue prio ≠ [] := by
    rw [hqueue, Function.update_self]
    exact List.ne_nil_of_mem (Rt.mem_put.mpr (Or.inl rfl))
  refine ⟨?_, ?_, ?_, ?_, ?_⟩
  · refine h.bit_of_ne hother ?_ ?_ hprio.2
    · intro i hi
      rw [hbitmap, Function.update_of_ne hi]
    · rw [hbitmap, Function.update_self]
      exact iff_of_true rfl hput
  · intro i hi
    by_cases hip : i = prio
    · rw [hip]
      exact hprio
    · rw [hother i hip] at hi
      exact h.range i hi
  · have hsum := total_update List.length hprio hqueue
    have hlen : (Rt.put head e (q.queue prio)).length = (q.queue prio).length + 1 := Rt.length_put
    have hold : q.rtNrRunning = q.total List.length := h.rtNrRunning
    rw [← hq', Rt.incRtTasks_rtNrRunning, hq']
    show q.rtNrRunning + 1 = q'.total List.length
    omega
  · rw [hbitmap, Rt.schedFindFirstBit_set _ hprio, ← h.highestPrio, ← hq',
      Rt.incRtTasks_highestPrio]
    rfl
  · have hsum := total_update (List.countP boosted) hprio hqueue
    have hcount : (Rt.put head e (q.queue prio)).countP boosted =
        (q.queue prio).countP boosted + (boosted e).toNat := Rt.countP_put
    have hold : q.rtNrBoosted = q.total (List.countP boosted) := h.rtNrBoosted
    rw [← hq', Rt.incRtTasks_rtNrBoosted, hq']
    show q.rtNrBoosted + (boosted e).toNat = q'.total (List.countP boosted)
    omega

/-- The highest priority after a dequeue: looked up again if it was that of the entity, and the
delimiter if the last entity left. -/
theorem highestPrio_decRtTasks {boost : Bool}
    (hbit : ∀ i, q.bitmap i = true ↔ q.queue i ≠ [] ∨ i = maxRtPrio)
    (hrange : ∀ i, q.queue i ≠ [] → 0 ≤ i ∧ i < maxRtPrio)
    (hrunning : q.rtNrRunning - 1 = q.queued)
    (hkept : prio ≠ q.highestPrio → q.highestPrio = Rt.schedFindFirstBit q.bitmap) :
    (Rt.decRtTasks prio boost q).highestPrio =
      Rt.schedFindFirstBit (Rt.decRtTasks prio boost q).bitmap := by
  rw [Rt.decRtTasks_highestPrio, Rt.decRtTasks_bitmap]
  by_cases hzero : q.rtNrRunning - 1 ≠ 0
  · rw [if_pos hzero]
    by_cases hfirst : prio = q.highestPrio
    · rw [if_pos hfirst]
    · rw [if_neg hfirst]
      exact hkept hfirst
  · rw [if_neg hzero]
    have hempty := (queued_eq_zero hrange).mp (hrunning.symm.trans (not_not.mp hzero))
    refine (Rt.schedFindFirstBit_eq (by decide) (le_refl _) (fun hlt => absurd hlt (lt_irrefl _))
      ?_).symm
    intro j _ hj
    refine Bool.eq_false_of_not_eq_true fun hset => ?_
    rcases (hbit j).mp hset with hne | rfl
    · exact hne (hempty j)
    · exact lt_irrefl _ hj

/-- **Taking an entity off a queue.** -/
theorem Counts.pull (h : q.Counts boosted) {Q : Int → List RtEntity} (he : e ∈ q.queue prio)
    (hqueue : Q = Function.update q.queue prio (Sequence.del e (q.queue prio))) :
    (Rt.decRtTasks prio (boosted e)
      (if (Q prio).isEmpty then
        { q with queue := Q, bitmap := Function.update q.bitmap prio false }
      else { q with queue := Q })).Counts boosted := by
  have hprio := h.range prio (List.ne_nil_of_mem he)
  generalize hw : (if (Q prio).isEmpty then
    { q with queue := Q, bitmap := Function.update q.bitmap prio false }
    else { q with queue := Q }) = w
  have hwqueue : w.queue = Function.update q.queue prio (Sequence.del e (q.queue prio)) := by
    rw [← hqueue, ← hw]
    split <;> rfl
  have hwbitmap : w.bitmap =
      if (Q prio).isEmpty then Function.update q.bitmap prio false else q.bitmap := by
    rw [← hw]
    split <;> rfl
  have hwrunning : w.rtNrRunning = q.rtNrRunning := by
    rw [← hw]
    split <;> rfl
  have hwhighest : w.highestPrio = q.highestPrio := by
    rw [← hw]
    split <;> rfl
  have hwboosted : w.rtNrBoosted = q.rtNrBoosted := by
    rw [← hw]
    split <;> rfl
  have hother : ∀ i, i ≠ prio → w.queue i = q.queue i := by
    intro i hi
    rw [hwqueue, Function.update_of_ne hi]
  have hbit : ∀ i, w.bitmap i = true ↔ w.queue i ≠ [] ∨ i = maxRtPrio := by
    refine h.bit_of_ne hother ?_ ?_ hprio.2
    · intro i hi
      rw [hwbitmap]
      split
      · exact Function.update_of_ne hi _ _
      · rfl
    · rw [hwbitmap, hwqueue, ← hqueue]
      split
      · rename_i hempty
        rw [Function.update_self, List.isEmpty_iff.mp hempty]
        simp
      · rename_i hne
        refine iff_of_true ?_ fun hnil => hne (List.isEmpty_iff.mpr hnil)
        exact (h.bit prio).mpr (Or.inl (List.ne_nil_of_mem he))
  have hrange : ∀ i, w.queue i ≠ [] → 0 ≤ i ∧ i < maxRtPrio := by
    intro i hi
    by_cases hip : i = prio
    · rw [hip]
      exact hprio
    · rw [hother i hip] at hi
      exact h.range i hi
  have hrunning : w.rtNrRunning - 1 = w.queued := by
    have hsum := total_update List.length hprio hwqueue
    have hlen : (Sequence.del e (q.queue prio)).length = (q.queue prio).length - 1 :=
      Sequence.length_del he
    have hpos := List.length_pos_of_mem he
    have hold : q.rtNrRunning = q.total List.length := h.rtNrRunning
    show w.rtNrRunning - 1 = w.total List.length
    omega
  refine ⟨?_, ?_, ?_, ?_, ?_⟩
  · intro i
    rw [Rt.decRtTasks_bitmap, Rt.decRtTasks_queue]
    exact hbit i
  · intro i
    rw [Rt.decRtTasks_queue]
    exact hrange i
  · rw [Rt.decRtTasks_rtNrRunning, hrunning]
    unfold queued total
    rw [Rt.decRtTasks_queue]
  · refine highestPrio_decRtTasks hbit hrange hrunning fun hfirst => ?_
    rw [hwhighest, h.highestPrio] at hfirst ⊢
    rw [hwbitmap]
    split
    · rw [Rt.schedFindFirstBit_clear hfirst]
    · rfl
  · have hsum := total_update (List.countP boosted) hprio hwqueue
    have hcount := @Rt.countP_del e boosted _ he
    have hold : q.rtNrBoosted = q.total (List.countP boosted) := h.rtNrBoosted
    rw [Rt.decRtTasks_rtNrBoosted, hwboosted]
    unfold queuedBoosted total
    rw [Rt.decRtTasks_queue]
    show q.rtNrBoosted - (boosted e).toNat = w.total (List.countP boosted)
    omega

/-- Moving entities within their queues. -/
theorem Counts.perm (h : q.Counts boosted) {Q : Int → List RtEntity}
    (hperm : ∀ i, (Q i).Perm (q.queue i)) : ({ q with queue := Q } : RtRq).Counts boosted := by
  have hnil : ∀ i, Q i ≠ [] ↔ q.queue i ≠ [] := by
    intro i
    rw [← List.length_pos_iff, ← List.length_pos_iff, (hperm i).length_eq]
  refine ⟨?_, ?_, ?_, h.highestPrio, ?_⟩
  · intro i
    rw [hnil i]
    exact h.bit i
  · intro i hi
    exact h.range i ((hnil i).mp hi)
  · refine h.rtNrRunning.trans ?_
    unfold queued total
    exact Finset.sum_congr rfl fun i _ => (hperm i).symm.length_eq
  · refine h.rtNrBoosted.trans ?_
    unfold queuedBoosted total
    exact Finset.sum_congr rfl fun i _ => (hperm i).symm.countP_eq _

/-- A run queue that has just been set up. -/
theorem counts_initRtRq (R : BitVec 64) (boosted : RtEntity → Bool) :
    (initRtRq R).Counts boosted := by
  have hzero : ∀ f : List RtEntity → Nat, f [] = 0 → (initRtRq R).total f = 0 :=
    fun f hf => Finset.sum_eq_zero fun _ _ => hf
  refine ⟨?_, ?_, (hzero _ rfl).symm, ?_, (hzero _ rfl).symm⟩
  · intro i
    show decide (i = maxRtPrio) = true ↔ ([] : List RtEntity) ≠ [] ∨ i = maxRtPrio
    simp
  · exact fun i hi => absurd rfl hi
  · refine (Rt.schedFindFirstBit_eq (by decide) (le_refl _) (fun hlt => absurd hlt (lt_irrefl _))
      ?_).symm
    intro j _ hj
    exact decide_eq_false (ne_of_lt hj)

end RtRq

end WrrScheduler
