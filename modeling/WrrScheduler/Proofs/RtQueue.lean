/-
What the RT run queues count.

`Rt.Ok` ties the run queues of all groups to the set of entities that are linked:
each group counts the entities queued on it, and a group is queued only while it
has some.  Enqueueing a task adds its entity, dequeueing takes it out, and both
may add and take out groups on the way, which nobody outside can tell from the
tasks.  So what the classes need is `Rt.TasksOk`: some set with these tasks.

The groups above an entity are handled top down and put back bottom up, so that no
group is queued while one of its entities leaves.
-/
import WrrScheduler.Kernel.Step

namespace WrrScheduler.Rt

/-- The run queues hold the entities of `Q`, and count them. -/
structure Ok (v : RtView) (r : Rt) (Q : Finset RtEntity) : Prop where
  linked : ∀ e, r.runList e = .linked ↔ e ∈ Q
  queued : ∀ g i e, e ∈ (r.rtRq g).queue i → e ∈ Q
  nodup : ∀ g i, ((r.rtRq g).queue i).Nodup
  count : ∀ g, (r.rtRq g).rtNrRunning = (Q.filter fun e => rtRqOfSe v e = g).card
  group : ∀ g, .group g ∈ Q → (v.tg.parent g).isSome ∧ (r.rtRq g).rtNrRunning ≠ 0

variable {v : RtView} {r : Rt} {Q : Finset RtEntity} {e : RtEntity} {g : Gid}

/-! ### The bookkeeping beside the queues -/

section Counts

variable {prio : Int} {boosted : Bool} {q : RtRq}

theorem incRtTasks_queue : (incRtTasks prio boosted q).queue = q.queue := by
  unfold incRtTasks incRtGroup incRtPrio
  split <;> split <;> rfl

theorem incRtTasks_rtNrRunning :
    (incRtTasks prio boosted q).rtNrRunning = q.rtNrRunning + 1 := by
  unfold incRtTasks incRtGroup incRtPrio
  split <;> split <;> rfl

theorem decRtTasks_queue : (decRtTasks prio boosted q).queue = q.queue := by
  unfold decRtTasks decRtGroup decRtPrio
  split <;> split <;> (try split) <;> rfl

theorem decRtTasks_rtNrRunning :
    (decRtTasks prio boosted q).rtNrRunning = q.rtNrRunning - 1 := by
  unfold decRtTasks decRtGroup decRtPrio
  split <;> split <;> (try split) <;> rfl

end Counts

theorem modify_rtRq (f : RtRq → RtRq) (h : Gid) :
    ((r.modify g f).rtRq h) = if h = g then f (r.rtRq g) else r.rtRq h := by
  by_cases hg : h = g
  · subst hg
    simp [modify]
  · simp [modify, hg]

/-- A change of a run queue that keeps its queues and its count. -/
theorem Ok.modify (h : Ok v r Q) {f : RtRq → RtRq} (hqueue : ∀ q, (f q).queue = q.queue)
    (hcount : ∀ q, (f q).rtNrRunning = q.rtNrRunning) : Ok v (r.modify g f) Q := by
  have hq : ∀ k, ((r.modify g f).rtRq k).queue = (r.rtRq k).queue := by
    intro k
    rw [modify_rtRq]
    split
    · rename_i hk
      rw [hqueue, hk]
    · rfl
  have hc : ∀ k, ((r.modify g f).rtRq k).rtNrRunning = (r.rtRq k).rtNrRunning := by
    intro k
    rw [modify_rtRq]
    split
    · rename_i hk
      rw [hcount, hk]
    · rfl
  refine ⟨h.linked, ?_, ?_, ?_, ?_⟩
  · intro k i e he
    rw [hq] at he
    exact h.queued k i e he
  · intro k i
    rw [hq]
    exact h.nodup k i
  · intro k
    rw [hc]
    exact h.count k
  · intro k hk
    rw [hc]
    exact h.group k hk

/-! ### Linking and unlinking one entity

Two changes of one run queue each, with the count beside it.  Unlinking needs the
group to be off: a queued group whose last entity leaves would be queued with nothing
to run.
-/

theorem mem_put {head : Bool} {x : RtEntity} {l : List RtEntity} :
    x ∈ put head e l ↔ x = e ∨ x ∈ l := by
  cases head
  · exact Sequence.mem_addTail
  · exact Sequence.mem_add

theorem nodup_put {head : Bool} {l : List RtEntity} (h : l.Nodup) (he : e ∉ l) :
    (put head e l).Nodup := by
  cases head
  · exact Sequence.nodup_addTail h he
  · exact Sequence.nodup_add h he

theorem link_queue (r : Rt) (g : Gid) (prio : Int) (e : RtEntity) (head : Bool) (k : Gid) (i : Int) :
    ((r.link g prio e head).rtRq k).queue i =
      if k = g ∧ i = prio then put head e ((r.rtRq g).queue prio) else (r.rtRq k).queue i := by
  have hrq : (r.link g prio e head).rtRq k = (r.modify g (push prio head e)).rtRq k := rfl
  rw [hrq, modify_rtRq]
  by_cases hk : k = g
  · subst hk
    by_cases hi : i = prio
    · subst hi
      simp [push]
    · simp [push, hi]
  · simp [hk]

theorem link_rtNrRunning (r : Rt) (g : Gid) (prio : Int) (e : RtEntity) (head : Bool) (k : Gid) :
    ((r.link g prio e head).rtRq k).rtNrRunning = (r.rtRq k).rtNrRunning := by
  have hrq : (r.link g prio e head).rtRq k = (r.modify g (push prio head e)).rtRq k := rfl
  rw [hrq, modify_rtRq]
  split
  · rename_i hk
    rw [hk]
    rfl
  · rfl

theorem mem_of_mem_link {prio : Int} {head : Bool} {k : Gid} {i : Int} {x : RtEntity}
    (hx : x ∈ ((r.link g prio e head).rtRq k).queue i) : x = e ∨ ∃ k i, x ∈ (r.rtRq k).queue i := by
  rw [link_queue] at hx
  split at hx
  · rcases mem_put.mp hx with rfl | hx
    · exact Or.inl rfl
    · exact Or.inr ⟨_, _, hx⟩
  · exact Or.inr ⟨_, _, hx⟩

theorem nodup_link (prio : Int) (head : Bool) (k : Gid) (i : Int)
    (hnodup : ∀ g i, ((r.rtRq g).queue i).Nodup) (he : ∀ g i, e ∉ (r.rtRq g).queue i) :
    (((r.link g prio e head).rtRq k).queue i).Nodup := by
  rw [link_queue]
  split
  · exact nodup_put (hnodup _ _) (he _ _)
  · exact hnodup _ _

/-- Linking an entity that is on no queue, and counting it. -/
theorem Ok.link (h : Ok v r Q) (he : e ∉ Q) (prio : Int) (head : Bool) {f : RtRq → RtRq}
    (hqueue : ∀ q, (f q).queue = q.queue)
    (hcount : ∀ q, (f q).rtNrRunning = q.rtNrRunning + 1)
    (hgroup : ∀ g, e = .group g → (v.tg.parent g).isSome ∧ (r.rtRq g).rtNrRunning ≠ 0) :
    Ok v ((r.link (rtRqOfSe v e) prio e head).modify (rtRqOfSe v e) f) (insert e Q) := by
  have hoff : ∀ g i, e ∉ (r.rtRq g).queue i := fun g i hmem => he (h.queued g i e hmem)
  have hq : ∀ k, (((r.link (rtRqOfSe v e) prio e head).modify (rtRqOfSe v e) f).rtRq k).queue =
      ((r.link (rtRqOfSe v e) prio e head).rtRq k).queue := by
    intro k
    rw [modify_rtRq]
    split
    · rename_i hk
      rw [hqueue, hk]
    · rfl
  have hc : ∀ k, (((r.link (rtRqOfSe v e) prio e head).modify (rtRqOfSe v e) f).rtRq k).rtNrRunning =
      (r.rtRq k).rtNrRunning + if rtRqOfSe v e = k then 1 else 0 := by
    intro k
    rw [modify_rtRq]
    by_cases hk : k = rtRqOfSe v e
    · subst hk
      rw [if_pos rfl, if_pos rfl, hcount, link_rtNrRunning]
    · rw [if_neg hk, if_neg (Ne.symm hk), link_rtNrRunning, Nat.add_zero]
  refine ⟨?_, ?_, ?_, ?_, ?_⟩
  · intro x
    show Function.update r.runList e ListHead.linked x = .linked ↔ x ∈ insert e Q
    rw [Finset.mem_insert]
    by_cases hx : x = e
    · subst hx
      simp
    · rw [Function.update_of_ne hx, h.linked x]
      simp [hx]
  · intro k i x hx
    rw [hq] at hx
    rcases mem_of_mem_link hx with rfl | ⟨k', i', hx⟩
    · exact Finset.mem_insert_self _ _
    · exact Finset.mem_insert_of_mem (h.queued k' i' x hx)
  · intro k i
    rw [hq]
    exact nodup_link prio head k i h.nodup hoff
  · intro k
    rw [hc, h.count k, Finset.filter_insert]
    split
    · rw [Finset.card_insert_of_notMem]
      intro hmem
      exact he (Finset.mem_filter.mp hmem).1
    · rfl
  · intro k hk
    rw [hc]
    rcases Finset.mem_insert.mp hk with hk | hk
    · obtain ⟨hparent, hne⟩ := hgroup k hk.symm
      exact ⟨hparent, by omega⟩
    · obtain ⟨hparent, hne⟩ := h.group k hk
      exact ⟨hparent, by omega⟩

/-- Unlinking an entity whose group is not queued, and counting it out. -/
theorem Ok.unlink (h : Ok v r Q) (he : e ∈ Q) {f : RtRq → RtRq}
    (hqueue : ∀ q, (f q).queue = q.queue)
    (hcount : ∀ q, (f q).rtNrRunning = q.rtNrRunning - 1)
    (hgroup : .group (rtRqOfSe v e) ∉ Q) :
    Ok v ((r.unlink e).modify (rtRqOfSe v e) f) (Q.erase e) := by
  have hq : ∀ k, (((r.unlink e).modify (rtRqOfSe v e) f).rtRq k).queue =
      ((r.unlink e).rtRq k).queue := by
    intro k
    rw [modify_rtRq]
    split
    · rename_i hk
      rw [hqueue, hk]
    · rfl
  have hc : ∀ k, (((r.unlink e).modify (rtRqOfSe v e) f).rtRq k).rtNrRunning =
      if rtRqOfSe v e = k then (r.rtRq k).rtNrRunning - 1 else (r.rtRq k).rtNrRunning := by
    intro k
    rw [modify_rtRq]
    by_cases hk : k = rtRqOfSe v e
    · subst hk
      rw [if_pos rfl, if_pos rfl, hcount]
      rfl
    · rw [if_neg hk, if_neg (Ne.symm hk)]
      rfl
  refine ⟨?_, ?_, ?_, ?_, ?_⟩
  · intro x
    show Function.update r.runList e ListHead.self x = .linked ↔ x ∈ Q.erase e
    rw [Finset.mem_erase]
    by_cases hx : x = e
    · subst hx
      simp
    · rw [Function.update_of_ne hx, h.linked x]
      simp [hx]
  · intro k i x hx
    rw [hq] at hx
    have hdel : x ∈ Sequence.del e ((r.rtRq k).queue i) := hx
    obtain ⟨hne, hmem⟩ := (Sequence.mem_del (h.nodup k i)).mp hdel
    exact Finset.mem_erase.mpr ⟨hne, h.queued k i x hmem⟩
  · intro k i
    rw [hq]
    exact Sequence.nodup_del (h.nodup k i)
  · intro k
    rw [hc, h.count k, Finset.filter_erase]
    split
    · rename_i hk
      rw [Finset.card_erase_of_mem (Finset.mem_filter.mpr ⟨he, hk⟩)]
    · rename_i hk
      rw [Finset.erase_eq_of_notMem]
      intro hmem
      exact hk (Finset.mem_filter.mp hmem).2
  · intro k hk
    have hkQ : .group k ∈ Q := Finset.mem_of_mem_erase hk
    have hne : rtRqOfSe v e ≠ k := by
      rintro rfl
      exact hgroup hkQ
    rw [hc, if_neg hne]
    exact h.group k hkQ

/-! ### The entities above one -/

theorem rtRqOfSe_group {k : Gid} (hk : v.tg.parent g = some k) : rtRqOfSe v (.group g) = k := by
  simp [rtRqOfSe, hk]

theorem mem_groupEntities {tg : GroupTree} {n : Nat} {x : RtEntity}
    (hx : x ∈ groupEntities tg n g) :
    ∃ k, x = .group k ∧ (tg.parent k).isSome ∧ tg.depth k ≤ tg.depth g := by
  induction n generalizing g with
  | zero => simp [groupEntities] at hx
  | succ n ih =>
      cases hp : tg.parent g with
      | none => simp [groupEntities, hp] at hx
      | some h =>
          rw [groupEntities, hp] at hx
          rcases List.mem_cons.mp hx with rfl | hx
          · exact ⟨g, rfl, by simp [hp], Nat.le_refl _⟩
          · obtain ⟨k, hk, hparent, hdepth⟩ := ih hx
            have hg := tg.depth_parent g h hp
            exact ⟨k, hk, hparent, by omega⟩

theorem nodup_groupEntities (tg : GroupTree) (n : Nat) (g : Gid) :
    (groupEntities tg n g).Nodup := by
  induction n generalizing g with
  | zero => exact List.nodup_nil
  | succ n ih =>
      cases hp : tg.parent g with
      | none => simp [groupEntities, hp]
      | some h =>
          rw [groupEntities, hp]
          refine List.nodup_cons.mpr ⟨?_, ih h⟩
          intro hmem
          obtain ⟨k, hk, -, hdepth⟩ := mem_groupEntities hmem
          cases hk
          have hg := tg.depth_parent g h hp
          omega

/-- A group at the top of the tree is never queued. -/
theorem Ok.root_not_mem (h : Ok v r Q) (hparent : v.tg.parent g = none) : .group g ∉ Q := by
  intro hmem
  have hsome := (h.group g hmem).1
  rw [hparent] at hsome
  cases hsome

/-! ### Leaving: top down -/

theorem Ok.dequeueIfOn (h : Ok v r Q) (hgroup : .group (rtRqOfSe v e) ∉ Q) :
    Ok v (r.dequeueIfOn v e) (Q.erase e) := by
  unfold Rt.dequeueIfOn onRtRq
  by_cases hon : r.runList e = .linked
  · rw [if_pos (by simpa using hon), rawDequeueRtEntity]
    refine h.unlink ((h.linked e).mp hon) ?_ ?_ hgroup
    · intro q
      rw [decRtTasks_queue]
      split <;> rfl
    · intro q
      rw [decRtTasks_rtNrRunning]
      split <;> rfl
  · rw [if_neg (by simpa using hon)]
    have he : e ∉ Q := fun hmem => hon ((h.linked e).mpr hmem)
    rwa [Finset.erase_eq_of_notMem he]

/-- Once the groups above have left, no group on the way up is queued. -/
theorem Ok.dequeueGroups (h : Ok v r Q) (n : Nat) (hdepth : v.tg.depth g ≤ n) :
    ∃ Q', Ok v ((groupEntities v.tg n g).foldr (fun e r => r.dequeueIfOn v e) r) Q' ∧
      (∀ x, x ∈ Q' ↔ x ∈ Q ∧ x ∉ groupEntities v.tg n g) ∧ .group g ∉ Q' := by
  induction n generalizing g with
  | zero =>
      have htop : v.tg.parent g = none := by
        cases hp : v.tg.parent g with
        | none => rfl
        | some k =>
            have hg := v.tg.depth_parent g k hp
            omega
      exact ⟨Q, h, by simp [groupEntities], h.root_not_mem htop⟩
  | succ n ih =>
      cases hp : v.tg.parent g with
      | none => exact ⟨Q, by simpa [groupEntities, hp] using h, by simp [groupEntities, hp],
          h.root_not_mem hp⟩
      | some k =>
          have hg := v.tg.depth_parent g k hp
          obtain ⟨Q', hok, hmem, hk⟩ := ih (show v.tg.depth k ≤ n by omega)
          have hse : rtRqOfSe v (.group g) = k := rtRqOfSe_group hp
          refine ⟨Q'.erase (.group g), ?_, ?_, Finset.notMem_erase _ _⟩
          · rw [groupEntities, hp]
            exact hok.dequeueIfOn (by rwa [hse])
          · intro x
            rw [groupEntities, hp, Finset.mem_erase, hmem x, List.mem_cons]
            tauto

theorem Ok.dequeueRtStack (h : Ok v r Q) (e : RtEntity) :
    ∃ Q', Ok v (r.dequeueRtStack v e) Q' ∧ ∀ x, x ∈ Q' ↔ x ∈ Q ∧ x ∉ schedRtEntities v e := by
  unfold Rt.dequeueRtStack
  rw [List.foldl_reverse]
  cases e with
  | task p =>
      obtain ⟨Q', hok, hmem, hg⟩ := h.dequeueGroups (v.tg.depth (v.group p)) (Nat.le_refl _)
      refine ⟨Q'.erase (.task p), hok.dequeueIfOn hg, ?_⟩
      intro x
      rw [Finset.mem_erase, hmem x]
      simp only [schedRtEntities, List.mem_cons]
      tauto
  | group g =>
      obtain ⟨Q', hok, hmem, -⟩ := h.dequeueGroups (v.tg.depth g) (Nat.le_refl _)
      exact ⟨Q', hok, hmem⟩

/-! ### Coming back: bottom up

A group that has entities by now is linked, and one that has none or is throttled is
turned away.  Which of the two happens does not matter for the tasks, so the lemmas
allow both.
-/

theorem Ok.rawEnqueueRtEntity (h : Ok v r Q) (he : e ∉ Q) (head : Bool)
    (hparent : ∀ g, e = .group g → (v.tg.parent g).isSome) :
    Ok v (r.rawEnqueueRtEntity v head e) (if r.refuses e then Q else insert e Q) := by
  unfold Rt.rawEnqueueRtEntity
  by_cases hrefuse : r.refuses e = true
  · rwa [if_pos hrefuse, if_pos hrefuse]
  · rw [if_neg hrefuse, if_neg hrefuse]
    refine h.link he _ head ?_ ?_ ?_
    · intro q
      rw [incRtTasks_queue]
    · intro q
      rw [incRtTasks_rtNrRunning]
    · rintro g rfl
      refine ⟨hparent g rfl, ?_⟩
      intro hzero
      exact hrefuse (by simp [refuses, hzero])

/-- Groups that come back, each or not, leave the set of tasks alone. -/
theorem Ok.enqueueGroups (f : Rt → RtEntity → Rt) (n : Nat)
    (hf : ∀ r Q g, Ok v r Q → .group g ∉ Q → (v.tg.parent g).isSome →
      Ok v (f r (.group g)) Q ∨ Ok v (f r (.group g)) (insert (.group g) Q))
    (h : Ok v r Q) (hoff : ∀ x ∈ groupEntities v.tg n g, x ∉ Q) :
    ∃ Q', Ok v ((groupEntities v.tg n g).foldl f r) Q' ∧
      ∀ p, .task p ∈ Q' ↔ .task p ∈ Q := by
  induction n generalizing g r Q with
  | zero => exact ⟨Q, h, fun _ => Iff.rfl⟩
  | succ n ih =>
      have hnodup := nodup_groupEntities v.tg (n + 1) g
      cases hp : v.tg.parent g with
      | none => exact ⟨Q, by simpa [groupEntities, hp] using h, fun _ => Iff.rfl⟩
      | some k =>
          rw [groupEntities, hp] at hoff hnodup ⊢
          have hg : .group g ∉ Q := hoff _ (List.mem_cons_self)
          have hrest : ∀ x ∈ groupEntities v.tg n k, x ∉ Q :=
            fun x hx => hoff x (List.mem_cons_of_mem _ hx)
          rcases hf r Q g h hg (by simp [hp]) with hok | hok
          · exact ih hok hrest
          · obtain ⟨Q', hok', htask⟩ := ih hok (by
              intro x hx hmem
              rcases Finset.mem_insert.mp hmem with rfl | hmem
              · exact (List.nodup_cons.mp hnodup).1 hx
              · exact hrest x hx hmem)
            refine ⟨Q', hok', ?_⟩
            intro p
            rw [htask p, Finset.mem_insert]
            simp

theorem Ok.enqueueGroup (head : Bool) (h : Ok v r Q) (hg : .group g ∉ Q)
    (hparent : (v.tg.parent g).isSome) :
    Ok v (r.rawEnqueueRtEntity v head (.group g)) Q ∨
      Ok v (r.rawEnqueueRtEntity v head (.group g)) (insert (.group g) Q) := by
  have hok := h.rawEnqueueRtEntity hg head (by
    rintro k hk
    cases hk
    exact hparent)
  split at hok
  · exact Or.inl hok
  · exact Or.inr hok

theorem Ok.requeueGroup (h : Ok v r Q) (hg : .group g ∉ Q) (hparent : (v.tg.parent g).isSome) :
    Ok v (r.requeueGroup v (.group g)) Q ∨
      Ok v (r.requeueGroup v (.group g)) (insert (.group g) Q) := by
  unfold Rt.requeueGroup
  split
  · rename_i heq
    cases heq
  · rename_i heq
    cases heq
    split
    · exact h.enqueueGroup false hg hparent
    · exact Or.inl h

/-! ### The functions of `rt.c`, by the tasks they queue

`TasksOk` hides the groups: there is some set of entities with just these tasks.
Through it each function has a plain meaning, which is all that the scheduler above
relies on.
-/

/-- The run queues hold exactly the entities of the tasks in `T`, and some groups. -/
def TasksOk (v : RtView) (r : Rt) (T : Pid → Prop) : Prop :=
  ∃ Q, Ok v r Q ∧ ∀ p, .task p ∈ Q ↔ T p

variable {T : Pid → Prop}

theorem not_task_mem_groupEntities {tg : GroupTree} {n : Nat} {p : Pid} :
    RtEntity.task p ∉ groupEntities tg n g := by
  intro hmem
  obtain ⟨k, hk, -, -⟩ := mem_groupEntities hmem
  cases hk

/-- **Enqueueing a task adds it**, whatever groups come and go. -/
theorem TasksOk.enqueueTask (h : TasksOk v r T) (head : Bool) (p : Pid) :
    TasksOk v (r.enqueueRtEntity v head (.task p)) fun q => q = p ∨ T q := by
  obtain ⟨Q, hok, htask⟩ := h
  obtain ⟨Q₁, hok₁, hmem₁⟩ := hok.dequeueRtStack (.task p)
  have hp : .task p ∉ Q₁ := fun hmem => ((hmem₁ _).mp hmem).2 (by simp [schedRtEntities])
  have hok₂ := hok₁.rawEnqueueRtEntity hp head (by
    rintro g hg
    cases hg)
  rw [if_neg (by simp [refuses])] at hok₂
  obtain ⟨Q₃, hok₃, htask₃⟩ := Ok.enqueueGroups (Rt.rawEnqueueRtEntity v head)
    (v.tg.depth (v.group p)) (fun r Q g hQ hg hparent => hQ.enqueueGroup head hg hparent) hok₂ (by
      intro x hx hmem
      rcases Finset.mem_insert.mp hmem with rfl | hmem
      · exact not_task_mem_groupEntities hx
      · exact ((hmem₁ x).mp hmem).2 (List.mem_cons_of_mem _ hx))
  refine ⟨Q₃, hok₃, ?_⟩
  intro q
  rw [htask₃ q, Finset.mem_insert, hmem₁, htask q]
  by_cases hq : q = p
  · simp [hq]
  · simp only [RtEntity.task.injEq, hq, false_or, schedRtEntities, List.mem_cons,
      not_task_mem_groupEntities, not_false_eq_true, and_true, or_self]

/-- **Dequeueing a task takes it out.** -/
theorem TasksOk.dequeueTask (h : TasksOk v r T) (p : Pid) :
    TasksOk v (r.dequeueRtEntity v (.task p)) fun q => q ≠ p ∧ T q := by
  obtain ⟨Q, hok, htask⟩ := h
  obtain ⟨Q₁, hok₁, hmem₁⟩ := hok.dequeueRtStack (.task p)
  obtain ⟨Q₂, hok₂, htask₂⟩ := Ok.enqueueGroups (Rt.requeueGroup v)
    (v.tg.depth (v.group p)) (fun r Q g hQ hg hparent => hQ.requeueGroup hg hparent) hok₁
    (fun x hx hmem => ((hmem₁ x).mp hmem).2 (List.mem_cons_of_mem _ hx))
  refine ⟨Q₂, hok₂, ?_⟩
  intro q
  rw [htask₂ q, hmem₁, htask q]
  by_cases hq : q = p
  · simp [hq, schedRtEntities]
  · simp [hq, schedRtEntities, not_task_mem_groupEntities]

theorem TasksOk.enqueueGroup (h : TasksOk v r T) (head : Bool) (g : Gid) :
    TasksOk v (r.enqueueRtEntity v head (.group g)) T := by
  obtain ⟨Q, hok, htask⟩ := h
  obtain ⟨Q₁, hok₁, hmem₁⟩ := hok.dequeueRtStack (.group g)
  obtain ⟨Q₂, hok₂, htask₂⟩ := Ok.enqueueGroups (Rt.rawEnqueueRtEntity v head)
    (v.tg.depth g) (fun r Q g hQ hg hparent => hQ.enqueueGroup head hg hparent) hok₁
    (fun x hx hmem => ((hmem₁ x).mp hmem).2 hx)
  refine ⟨Q₂, hok₂, ?_⟩
  intro q
  rw [htask₂ q, hmem₁, htask q]
  simp [schedRtEntities, not_task_mem_groupEntities]

theorem TasksOk.dequeueGroup (h : TasksOk v r T) (g : Gid) :
    TasksOk v (r.dequeueRtEntity v (.group g)) T := by
  obtain ⟨Q, hok, htask⟩ := h
  obtain ⟨Q₁, hok₁, hmem₁⟩ := hok.dequeueRtStack (.group g)
  obtain ⟨Q₂, hok₂, htask₂⟩ := Ok.enqueueGroups (Rt.requeueGroup v)
    (v.tg.depth g) (fun r Q g hQ hg hparent => hQ.requeueGroup hg hparent) hok₁
    (fun x hx hmem => ((hmem₁ x).mp hmem).2 hx)
  refine ⟨Q₂, hok₂, ?_⟩
  intro q
  rw [htask₂ q, hmem₁, htask q]
  simp [schedRtEntities, not_task_mem_groupEntities]

theorem Ok.requeueRtEntity (h : Ok v r Q) (head : Bool) : Ok v (r.requeueRtEntity v head e) Q := by
  unfold Rt.requeueRtEntity onRtRq
  by_cases hon : r.runList e = .linked
  · rw [if_pos (by simpa using hon)]
    have he : e ∈ Q := (h.linked e).mp hon
    refine ⟨?_, ?_, ?_, ?_, ?_⟩
    · intro x
      show Function.update (Function.update r.runList e ListHead.self) e ListHead.linked x =
        .linked ↔ x ∈ Q
      by_cases hx : x = e
      · subst hx
        simp [he]
      · rw [Function.update_of_ne hx, Function.update_of_ne hx, h.linked x]
    · intro k i x hx
      rcases mem_of_mem_link hx with rfl | ⟨k', i', hx⟩
      · exact he
      · exact h.queued k' i' x (Sequence.mem_of_mem_del hx)
    · intro k i
      refine nodup_link _ head k i ?_ ?_
      · intro k i
        exact Sequence.nodup_del (h.nodup k i)
      · intro k i
        exact Sequence.not_mem_del (h.nodup k i)
    · intro k
      rw [link_rtNrRunning]
      exact h.count k
    · intro k hk
      rw [link_rtNrRunning]
      exact h.group k hk
  · rwa [if_neg (by simpa using hon)]

theorem TasksOk.requeueTaskRt (h : TasksOk v r T) (head : Bool) (p : Pid) :
    TasksOk v (r.requeueTaskRt v head p) T := by
  obtain ⟨Q, hok, htask⟩ := h
  refine ⟨Q, ?_, htask⟩
  unfold Rt.requeueTaskRt
  generalize schedRtEntities v (.task p) = l
  induction l generalizing r with
  | nil => exact hok
  | cons e l ih => exact ih (hok.requeueRtEntity head)

theorem TasksOk.modify (h : TasksOk v r T) {f : RtRq → RtRq} (hqueue : ∀ q, (f q).queue = q.queue)
    (hcount : ∀ q, (f q).rtNrRunning = q.rtNrRunning) : TasksOk v (r.modify g f) T := by
  obtain ⟨Q, hok, htask⟩ := h
  exact ⟨Q, hok.modify hqueue hcount, htask⟩

theorem TasksOk.schedRtRqEnqueue (h : TasksOk v r T) (g : Gid) :
    TasksOk v (r.schedRtRqEnqueue v g).1 T := by
  unfold Rt.schedRtRqEnqueue
  split
  · simp only []
    split
    · exact h.enqueueGroup false g
    · exact h
  · exact h

theorem TasksOk.schedRtRqDequeue (h : TasksOk v r T) (g : Gid) :
    TasksOk v (r.schedRtRqDequeue v g) T := by
  unfold Rt.schedRtRqDequeue
  split
  · exact h.dequeueGroup g
  · exact h

theorem TasksOk.schedRtRuntimeExceeded (h : TasksOk v r T) (g : Gid) :
    TasksOk v (r.schedRtRuntimeExceeded v g).1 T := by
  have hmod : TasksOk v (if (v.rtBandwidth g).rtRuntime ≠ 0 then
      r.modify g fun q => { q with rtThrottled := true }
      else r.modify g fun q => { q with rtTime := 0 }) T := by
    split
    · exact h.modify (fun _ => rfl) (fun _ => rfl)
    · exact h.modify (fun _ => rfl) (fun _ => rfl)
  have hthrottled : ∀ r' : Rt, TasksOk v r' T → TasksOk v
      (if rtRqThrottled (r'.rtRq g) then (r'.schedRtRqDequeue v g, true) else (r', false)).1 T := by
    intro r' hr'
    split
    · exact hr'.schedRtRqDequeue g
    · exact hr'
  unfold Rt.schedRtRuntimeExceeded
  simp only []
  split
  · exact h
  · split
    · exact h
    · split
      · exact h
      · split
        · exact hthrottled _ hmod
        · exact h

theorem TasksOk.chargeRt (h : TasksOk v r T) (deltaExec : BitVec 64) :
    TasksOk v (Rt.chargeRt v deltaExec r).1 T := by
  have hturn : ∀ (acc : Rt × Bool) (e : RtEntity), TasksOk v acc.1 T →
      TasksOk v (chargeRtRq v deltaExec acc e).1 T := by
    intro acc e hacc
    have hcharged : TasksOk v (acc.1.modify (rtRqOfSe v e) fun q =>
        { q with rtTime := q.rtTime + deltaExec }) T := hacc.modify (fun _ => rfl) (fun _ => rfl)
    unfold chargeRtRq
    simp only []
    split
    · exact hacc
    · exact hcharged.schedRtRuntimeExceeded _
  unfold Rt.chargeRt
  generalize schedRtEntities v (.task v.curr) = l
  suffices hfold : ∀ acc : Rt × Bool, TasksOk v acc.1 T →
      TasksOk v (l.foldl (chargeRtRq v deltaExec) acc).1 T from hfold (r, false) h
  induction l with
  | nil => exact fun _ hacc => hacc
  | cons e l ih => exact fun acc hacc => ih _ (hturn acc e hacc)

/-- The period timer leaves the queue of a group alone. -/
theorem replenish_keeps (overrun : Nat) (q : RtRq) :
    (Rt.replenish overrun q).1.queue = q.queue ∧
      (Rt.replenish overrun q).1.rtNrRunning = q.rtNrRunning := by
  unfold Rt.replenish
  split
  · simp only []
    split <;> split <;> exact ⟨rfl, rfl⟩
  · exact ⟨rfl, rfl⟩

theorem TasksOk.replenish (h : TasksOk v r T) (g : Gid) (overrun : Nat) :
    TasksOk v (r.modify g fun q => (Rt.replenish overrun q).1) T :=
  h.modify (fun q => (replenish_keeps overrun q).1) (fun q => (replenish_keeps overrun q).2)

/-- Only the groups of the queued tasks matter. -/
theorem TasksOk.congr {v' : RtView} {T' : Pid → Prop} (h : TasksOk v r T) (htg : v'.tg = v.tg)
    (hgroup : ∀ p, T p → v'.group p = v.group p) (hT : ∀ p, T' p ↔ T p) : TasksOk v' r T' := by
  obtain ⟨Q, hok, htask⟩ := h
  have hse : ∀ e ∈ Q, rtRqOfSe v' e = rtRqOfSe v e := by
    intro e he
    cases e with
    | task p => exact hgroup p ((htask p).mp he)
    | group g => simp only [rtRqOfSe, htg]
  refine ⟨Q, ⟨hok.linked, hok.queued, hok.nodup, ?_, ?_⟩, fun p => (htask p).trans (hT p).symm⟩
  · intro g
    rw [hok.count g]
    refine congrArg Finset.card (Finset.filter_congr ?_)
    intro e he
    rw [hse e he]
  · intro g hg
    rw [htg]
    exact hok.group g hg

/-- Only queued tasks are linked. -/
theorem TasksOk.not_linked (h : TasksOk v r T) {p : Pid} (hp : ¬ T p) :
    r.runList (.task p) = .self := by
  obtain ⟨Q, hok, htask⟩ := h
  cases hlink : r.runList (.task p) with
  | self => rfl
  | linked => exact absurd ((htask p).mp ((hok.linked _).mp hlink)) hp

/-! ### Picking

The descent never leaves the queued entities, so it ends at a queued task if it ends
at one. Without tasks it could only go down for ever, and the tree is finite.
-/

/-- What the class picks is a task it has queued. -/
theorem TasksOk.of_pick (h : TasksOk v r T) {p : Pid}
    (hpick : Rt.pickNextTask v.tg r = .ok (some p)) : T p := by
  obtain ⟨Q, hok, htask⟩ := h
  have hdescend : ∀ n g, r.descend n g = .ok p → .task p ∈ Q := by
    intro n
    induction n with
    | zero =>
        intro g hg
        cases hg
    | succ n ih =>
        intro g hg
        rw [descend] at hg
        split at hg
        · cases hg
        · rename_i heq
          cases hg
          unfold pickNextRtEntity at heq
          simp only [] at heq
          split at heq
          · cases heq
          · split at heq
            · rename_i hhead
              cases heq
              exact hok.queued g _ _ (List.mem_of_head? hhead)
            · cases heq
        · exact ih _ hg
  unfold Rt.pickNextTask at hpick
  split at hpick
  · cases hpick
  · split at hpick
    · cases hpick
    · cases hd : r.descend (v.tg.height + 1) v.tg.root with
      | error b =>
          rw [hd] at hpick
          cases hpick
      | ok q =>
          rw [hd] at hpick
          cases hpick
          exact (htask p).mp (hdescend _ _ hd)

/-- Without real-time tasks, a group that counts something has a group below it that does. -/
private theorem exists_child (h : Ok v r Q) (htask : ∀ p, .task p ∈ Q ↔ T p) (hT : ∀ p, ¬ T p)
    (hne : (r.rtRq g).rtNrRunning ≠ 0) :
    ∃ k, v.tg.depth k = v.tg.depth g + 1 ∧ (r.rtRq k).rtNrRunning ≠ 0 := by
  rw [h.count g] at hne
  obtain ⟨e, he⟩ := Finset.card_ne_zero.mp hne
  obtain ⟨hQ, hse⟩ := Finset.mem_filter.mp he
  cases e with
  | task p => exact absurd ((htask p).mp hQ) (hT p)
  | group k =>
      obtain ⟨hparent, hcount⟩ := h.group k hQ
      obtain ⟨j, hj⟩ := Option.isSome_iff_exists.mp hparent
      have hjg : j = g := by simpa [rtRqOfSe, hj] using hse
      subst hjg
      exact ⟨k, v.tg.depth_parent k j hj, hcount⟩

/-- **Without real-time tasks the root counts nothing**: a group counts only entities that are
queued, a queued group counts some itself, and the tree ends. -/
theorem TasksOk.root_empty (h : TasksOk v r T) (hT : ∀ p, ¬ T p) :
    (r.rtRq v.tg.root).rtNrRunning = 0 := by
  obtain ⟨Q, hok, htask⟩ := h
  have hempty : ∀ n g, v.tg.height ≤ v.tg.depth g + n → (r.rtRq g).rtNrRunning = 0 := by
    intro n
    induction n with
    | zero =>
        intro g hg
        by_contra hne
        obtain ⟨k, hk, -⟩ := exists_child hok htask hT hne
        have hle := v.tg.depth_le k
        omega
    | succ n ih =>
        intro g hg
        by_contra hne
        obtain ⟨k, hk, hcount⟩ := exists_child hok htask hT hne
        exact hcount (ih k (by omega))
  exact hempty v.tg.height v.tg.root (by omega)

end WrrScheduler.Rt
