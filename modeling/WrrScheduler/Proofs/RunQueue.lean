/-
The run queue holds the runnable tasks.

What a run queue is for is a set of tasks, each on the queue of its class.
`View.Enq v A` says that this is what the queue and the counters amount to, with
`A` the set: the WRR queue lists its WRR members once each, and every counter
counts.  An enqueue is then the insertion of a task, a dequeue its removal, and
everything else `core.c` does leaves the set alone.  Between operations the set is
the tasks with `on_rq` set, which is `Inv`; in the middle of one it need not be.
-/
import WrrScheduler.Proofs.Quiet

namespace WrrScheduler

/-- The queues and counters hold exactly the tasks of `A`. -/
structure View.Enq (v : View) (A : Finset Pid) : Prop where
  nodup : v.wrr.queue.Nodup
  mem : ∀ p, p ∈ v.wrr.queue ↔ p ∈ A ∧ v.cls p = .wrr
  count : v.wrr.wrrNrRunning = v.wrr.queue.length
  linked : ∀ p, (v.tasks p).wrr.runList = .linked ↔ p ∈ v.wrr.queue
  nrRunning : v.nrRunning = A.card
  hNrRunning : v.hNrRunning = (A.filter fun p => v.cls p = .fair).card
  notIdle : ∀ p ∈ A, v.cls p ≠ .idle

namespace View

variable {v : View} {p q : Pid} {flags : EnqueueFlags}

/-! ### What the operations on the WRR queue leave alone -/

theorem modEntity_cls (f : SchedWrrEntity → SchedWrrEntity) :
    (v.modEntity p f).cls q = v.cls q := by
  by_cases hqp : q = p
  · subst hqp
    simp [modEntity, modTask, cls]
  · simp [modEntity, modTask, cls, hqp]

theorem enqueueWrr_cls : (v.enqueueWrr flags p).cls q = v.cls q := modEntity_cls (linkEntity flags)

theorem dequeueWrr_cls : (v.dequeueWrr p).cls q = v.cls q := modEntity_cls unlinkEntity

theorem requeueWrr_cls : (v.requeueWrr p).cls q = v.cls q := modEntity_cls (linkEntity {})

/-- A dequeue changes no class. -/
theorem dequeue_cls : (v.dequeue p).cls q = v.cls q := by
  unfold dequeue
  split
  · exact dequeueWrr_cls
  · rfl
  · rfl
  · rfl

theorem modEntity_linked {f : SchedWrrEntity → SchedWrrEntity} (h : ∀ w, (f w).runList = .linked) :
    ((v.modEntity p f).tasks q).wrr.runList = .linked ↔
      q = p ∨ (v.tasks q).wrr.runList = .linked := by
  by_cases hqp : q = p
  · subst hqp
    simp [modEntity, modTask, h]
  · simp [modEntity, modTask, hqp]

theorem enqueueWrr_linked :
    ((v.enqueueWrr flags p).tasks q).wrr.runList = .linked ↔
      q = p ∨ (v.tasks q).wrr.runList = .linked :=
  modEntity_linked fun _ => rfl

theorem dequeueWrr_linked :
    ((v.dequeueWrr p).tasks q).wrr.runList = .linked ↔
      q ≠ p ∧ (v.tasks q).wrr.runList = .linked := by
  by_cases hqp : q = p
  · subst hqp
    simp [dequeueWrr, modEntity, modTask, unlinkEntity]
  · simp [dequeueWrr, modEntity, modTask, hqp]

theorem requeueWrr_linked :
    ((v.requeueWrr p).tasks q).wrr.runList = .linked ↔
      q = p ∨ (v.tasks q).wrr.runList = .linked :=
  modEntity_linked fun _ => rfl

end View

namespace View.Enq

variable {v : View} {A : Finset Pid} {p : Pid}

/-- A change of a task that the queues do not depend on: the links stay, and the class stays or
the task is on no queue. -/
theorem modTask (h : v.Enq A) {f : Task → Task}
    (hlink : (f (v.tasks p)).wrr.runList = (v.tasks p).wrr.runList)
    (hcls : p ∈ A → (f (v.tasks p)).schedClass = v.cls p) : (v.modTask p f).Enq A := by
  have hcls' : ∀ q ∈ A, (v.modTask p f).cls q = v.cls q := by
    intro q hq
    by_cases hqp : q = p
    · subst hqp
      simpa [View.modTask, View.cls] using hcls hq
    · simp [View.modTask, View.cls, hqp]
  refine ⟨h.nodup, ?_, h.count, ?_, h.nrRunning, ?_, ?_⟩
  · intro q
    refine (h.mem q).trans (and_congr_right ?_)
    intro hq
    rw [hcls' q hq]
  · intro q
    refine Iff.trans ?_ (h.linked q)
    by_cases hqp : q = p
    · subst hqp
      simp [View.modTask, hlink]
    · simp [View.modTask, hqp]
  · refine h.hNrRunning.trans (congrArg Finset.card (Finset.filter_congr ?_))
    intro q hq
    rw [hcls' q hq]
  · intro q hq
    rw [hcls' q hq]
    exact h.notIdle q hq

/-- The tasks of `A` with a class, when one more joins. -/
private theorem filter_insert_card {c : SchedClass} (hp : p ∉ A) :
    ((insert p A).filter fun q => v.cls q = c).card =
      (A.filter fun q => v.cls q = c).card + if v.cls p = c then 1 else 0 := by
  rw [Finset.filter_insert]
  split
  · rw [Finset.card_insert_of_notMem]
    intro hmem
    exact hp (Finset.mem_filter.mp hmem).1
  · rfl

private theorem filter_erase_card {c : SchedClass} (hp : p ∈ A) :
    ((A.erase p).filter fun q => v.cls q = c).card =
      (A.filter fun q => v.cls q = c).card - if v.cls p = c then 1 else 0 := by
  rw [Finset.filter_erase]
  split
  · rename_i hc
    exact Finset.card_erase_of_mem (Finset.mem_filter.mpr ⟨hp, hc⟩)
  · rename_i hc
    rw [Finset.erase_eq_of_notMem, Nat.sub_zero]
    intro hmem
    exact hc (Finset.mem_filter.mp hmem).2

/-- One task fewer. -/
private theorem uncounted (h : v.Enq A) (hp : p ∈ A) (hwrr : v.cls p ≠ .wrr)
    {n : Nat} (hn : n = v.hNrRunning - if v.cls p = .fair then 1 else 0) :
    View.Enq { v with nrRunning := v.nrRunning - 1, hNrRunning := n } (A.erase p) := by
  refine ⟨h.nodup, ?_, h.count, h.linked, ?_, ?_, ?_⟩
  · intro q
    refine (h.mem q).trans ?_
    rw [Finset.mem_erase]
    constructor
    · rintro ⟨hq, hc⟩
      refine ⟨⟨?_, hq⟩, hc⟩
      rintro rfl
      exact hwrr hc
    · rintro ⟨⟨-, hq⟩, hc⟩
      exact ⟨hq, hc⟩
  · rw [Finset.card_erase_of_mem hp, ← h.nrRunning]
  · show n = ((A.erase p).filter fun q => v.cls q = .fair).card
    rw [filter_erase_card hp, ← h.hNrRunning, hn]
  · intro q hq
    exact h.notIdle q (Finset.mem_of_mem_erase hq)

/-- One more task, on no queue of its own that shows here. -/
private theorem counted (h : v.Enq A) (hp : p ∉ A) (hwrr : v.cls p ≠ .wrr)
    (hidle : v.cls p ≠ .idle) {n : Nat} (hn : n = v.hNrRunning + if v.cls p = .fair then 1 else 0) :
    View.Enq { v with nrRunning := v.nrRunning + 1, hNrRunning := n } (insert p A) := by
  refine ⟨h.nodup, ?_, h.count, h.linked, ?_, ?_, ?_⟩
  · intro q
    refine (h.mem q).trans ?_
    rw [Finset.mem_insert]
    constructor
    · rintro ⟨hq, hc⟩
      exact ⟨Or.inr hq, hc⟩
    · rintro ⟨rfl | hq, hc⟩
      · exact absurd hc hwrr
      · exact ⟨hq, hc⟩
  · rw [Finset.card_insert_of_notMem hp, ← h.nrRunning]
  · show n = ((insert p A).filter fun q => v.cls q = .fair).card
    rw [filter_insert_card hp, ← h.hNrRunning, hn]
  · intro q hq
    rcases Finset.mem_insert.mp hq with rfl | hq
    · exact hidle
    · exact h.notIdle q hq

/-- **An enqueue is an insertion.** -/
theorem enqueue (h : v.Enq A) (flags : EnqueueFlags) (hp : p ∉ A) (hidle : v.cls p ≠ .idle) :
    (v.enqueue flags p).Enq (insert p A) := by
  unfold View.enqueue
  cases hc : v.cls p with
  | idle => exact absurd hc hidle
  | fair => exact h.counted hp (by simp [hc]) hidle (by simp [hc])
  | stop => exact h.counted hp (by simp [hc]) hidle (by simp [hc])
  | rt => exact h.counted hp (by simp [hc]) hidle (by simp [hc])
  | wrr =>
      have hpq : p ∉ v.wrr.queue := fun hmem => hp ((h.mem p).mp hmem).1
      have hqueue : (v.enqueueWrr flags p).wrr.queue = Sequence.add p v.wrr.queue ∨
          (v.enqueueWrr flags p).wrr.queue = Sequence.addTail p v.wrr.queue := by
        unfold View.enqueueWrr
        cases flags.head
        · exact Or.inr rfl
        · exact Or.inl rfl
      have hmem : ∀ q, q ∈ (v.enqueueWrr flags p).wrr.queue ↔ q = p ∨ q ∈ v.wrr.queue := by
        intro q
        rcases hqueue with hq | hq <;> simp [hq]
      have hcls : ∀ q, (v.enqueueWrr flags p).cls q = v.cls q := fun _ => View.enqueueWrr_cls
      refine ⟨?_, ?_, ?_, ?_, ?_, ?_, ?_⟩
      · rcases hqueue with hq | hq
        · rw [hq]
          exact Sequence.nodup_add h.nodup hpq
        · rw [hq]
          exact Sequence.nodup_addTail h.nodup hpq
      · intro q
        rw [hmem, h.mem q, hcls, Finset.mem_insert]
        constructor
        · rintro (rfl | ⟨hq, hqc⟩)
          · exact ⟨Or.inl rfl, hc⟩
          · exact ⟨Or.inr hq, hqc⟩
        · rintro ⟨rfl | hq, hqc⟩
          · exact Or.inl rfl
          · exact Or.inr ⟨hq, hqc⟩
      · show v.wrr.wrrNrRunning + 1 = _
        rw [h.count]
        rcases hqueue with hq | hq <;> simp [hq]
      · intro q
        rw [hmem, View.enqueueWrr_linked, h.linked q]
      · show v.nrRunning + 1 = _
        rw [h.nrRunning, Finset.card_insert_of_notMem hp]
      · show v.hNrRunning = _
        rw [h.hNrRunning]
        simp only [hcls]
        rw [filter_insert_card hp, hc]
        rfl
      · intro q hq
        rw [hcls]
        rcases Finset.mem_insert.mp hq with rfl | hq
        · exact hidle
        · exact h.notIdle q hq

/-- **A dequeue is a removal.** -/
theorem dequeue (h : v.Enq A) (hp : p ∈ A) : (v.dequeue p).Enq (A.erase p) := by
  unfold View.dequeue
  cases hc : v.cls p with
  | idle => exact absurd hc (h.notIdle p hp)
  | fair => exact h.uncounted hp (by simp [hc]) (by simp [hc])
  | stop => exact h.uncounted hp (by simp [hc]) (by simp [hc])
  | rt => exact h.uncounted hp (by simp [hc]) (by simp [hc])
  | wrr =>
      have hpq : p ∈ v.wrr.queue := (h.mem p).mpr ⟨hp, hc⟩
      have hmem : ∀ q, q ∈ (v.dequeueWrr p).wrr.queue ↔ q ≠ p ∧ q ∈ v.wrr.queue :=
        fun q => Sequence.mem_del h.nodup
      have hcls : ∀ q, (v.dequeueWrr p).cls q = v.cls q := fun _ => View.dequeueWrr_cls
      refine ⟨Sequence.nodup_del h.nodup, ?_, ?_, ?_, ?_, ?_, ?_⟩
      · intro q
        rw [hmem, h.mem q, hcls, Finset.mem_erase, and_assoc]
      · show v.wrr.wrrNrRunning - 1 = (Sequence.del p v.wrr.queue).length
        rw [h.count, Sequence.length_del hpq]
      · intro q
        rw [hmem, View.dequeueWrr_linked, h.linked q]
      · show v.nrRunning - 1 = (A.erase p).card
        rw [h.nrRunning, Finset.card_erase_of_mem hp]
      · show v.hNrRunning = ((A.erase p).filter fun q => (v.dequeueWrr p).cls q = .fair).card
        simp only [hcls]
        rw [filter_erase_card hp, hc, h.hNrRunning]
        rfl
      · intro q hq
        rw [hcls]
        exact h.notIdle q (Finset.mem_of_mem_erase hq)

/-- **A requeue changes the order only.** -/
theorem requeueWrr (h : v.Enq A) (hp : p ∈ v.wrr.queue) : (v.requeueWrr p).Enq A := by
  have hmem : ∀ q, q ∈ (v.requeueWrr p).wrr.queue ↔ q ∈ v.wrr.queue :=
    fun q => Sequence.mem_moveTail h.nodup hp
  have hcls : ∀ q, (v.requeueWrr p).cls q = v.cls q := fun _ => View.requeueWrr_cls
  refine ⟨Sequence.nodup_moveTail h.nodup, ?_, ?_, ?_, h.nrRunning, ?_, ?_⟩
  · intro q
    rw [hmem, h.mem q, hcls]
  · exact h.count.trans (Sequence.length_moveTail hp).symm
  · intro q
    rw [hmem, View.requeueWrr_linked, h.linked q]
    constructor
    · rintro (rfl | hq)
      · exact hp
      · exact hq
    · exact Or.inr
  · simp only [hcls]
    exact h.hNrRunning
  · intro q hq
    rw [hcls]
    exact h.notIdle q hq

end View.Enq

end WrrScheduler
