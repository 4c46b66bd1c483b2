/-
Where the entities of all groups are queued.

An entity that is linked is on the run queue of its group, once, at its priority.
The priority of a group is that of its first entity, so a group must not be queued
while its entities come and go: `Placed` names the groups whose place is not
`settled` yet, and what leaves top down and comes back bottom up settles them all. A
group is then queued exactly if it has entities and is not throttled.

The set of groups that are not settled is the parameter that makes the induction
work.  Taking the groups above an entity off opens each of them; putting them back
closes each, starting with the lowest, whose entities are final by then.  With
nothing open the invariant is the one that holds between two operations.
-/
import WrrScheduler.Proofs.RtArray
import WrrScheduler.Proofs.RtEffects

namespace WrrScheduler

namespace Rt

/-- Every linked entity is in its place, every run queue counts what it has, and the groups outside
`open_` are queued if they are to be. -/
structure Placed (open_ : Gid → Prop) (v : RtView) (r : Rt) : Prop where
  place : ∀ e g i, e ∈ (r.rtRq g).queue i ↔
    r.runList e = .linked ∧ rtRqOfSe v e = g ∧ rtSePrio v r e = i
  nodup : ∀ g i, ((r.rtRq g).queue i).Nodup
  counts : ∀ g, (r.rtRq g).Counts (rtSeBoosted v r)
  parent : ∀ g, r.runList (.group g) = .linked → (v.tg.parent g).isSome
  settled : ∀ g, ¬ open_ g → (v.tg.parent g).isSome →
    (r.runList (.group g) = .linked ↔ (r.rtRq g).rtNrRunning ≠ 0 ∧ rtRqThrottled (r.rtRq g) = false)

variable {v v' : RtView} {r r' : Rt} {e x : RtEntity} {g h k : Gid} {i : Int} {X Y : Gid → Prop}

/-! ### What decides a place

The priority of a task is its own and that of a group is on its run queue.  So a
change of one run queue can only misplace the one entity that stands for that group.
-/

/-- The group an entity is queued on is not the group it stands for. -/
theorem ne_group_rtRqOfSe (hparent : ∀ g, e = .group g → (v.tg.parent g).isSome) :
    e ≠ .group (rtRqOfSe v e) := by
  intro he
  generalize hh : rtRqOfSe v e = h at he
  obtain ⟨k, hk⟩ := Option.isSome_iff_exists.mp (hparent h he)
  rw [he, rtRqOfSe_group hk] at hh
  have hdepth := v.tg.depth_parent h k hk
  rw [hh] at hdepth
  omega

/-- Only the run queue of a group that an entity stands for decides its place. -/
theorem rtSePrio_congr (hx : ∀ g, x = .group g → r'.rtRq g = r.rtRq g) :
    rtSePrio v r' x = rtSePrio v r x := by
  cases x with
  | task p => rfl
  | group g => rw [rtSePrio, rtSePrio, hx g rfl]

theorem rtSeBoosted_congr (hx : ∀ g, x = .group g → r'.rtRq g = r.rtRq g) :
    rtSeBoosted v r' x = rtSeBoosted v r x := by
  cases x with
  | task p => rfl
  | group g => rw [rtSeBoosted, rtSeBoosted, hx g rfl]

theorem rtSePrio_eq (hg : ∀ g, (r'.rtRq g).highestPrio = (r.rtRq g).highestPrio) :
    rtSePrio v r' = rtSePrio v r := by
  funext x
  cases x with
  | task p => rfl
  | group g => exact hg g

theorem rtSeBoosted_eq (hg : ∀ g, (r'.rtRq g).rtNrBoosted = (r.rtRq g).rtNrBoosted) :
    rtSeBoosted v r' = rtSeBoosted v r := by
  funext x
  cases x with
  | task p => rfl
  | group g => rw [rtSeBoosted, rtSeBoosted, hg g]

theorem queue_clear (c : Prop) [Decidable c] (q : RtRq) (b : Int → Bool) :
    (if c then { q with bitmap := b } else q).queue = q.queue := by
  split <;> rfl

namespace Placed

theorem mono (hp : Placed X v r) (hXY : ∀ g, (v.tg.parent g).isSome → X g → Y g) :
    Placed Y v r :=
  { hp with settled := fun g hg hparent => hp.settled g (fun hX => hg (hXY g hparent hX)) hparent }

/-! ### Changing the run queue an entity is on

All links and unlinks go through `change`: the run queue of one group is different,
that group is not queued, and so no entity is misplaced by it.  Whether an entity is
let in or turned away, the group it stands for is settled afterwards: it is queued, or
it may not be.
-/

/-- **An entity moves on or off the run queue of its group**, while that group is not queued. -/
theorem change (hp : Placed X v r) (hh : r.runList (.group (rtRqOfSe v e)) ≠ .linked)
    (hparent : ∀ g, e = .group g → (v.tg.parent g).isSome)
    (hrq : ∀ g, g ≠ rtRqOfSe v e → r'.rtRq g = r.rtRq g)
    (hlist : ∀ x, x ≠ e → r'.runList x = r.runList x)
    (hqueue : ∀ x i, x ∈ (r'.rtRq (rtRqOfSe v e)).queue i ↔
      (x ≠ e ∧ x ∈ (r.rtRq (rtRqOfSe v e)).queue i) ∨
        (x = e ∧ r'.runList e = .linked ∧ rtSePrio v r e = i))
    (hnodup : ∀ i, ((r'.rtRq (rtRqOfSe v e)).queue i).Nodup)
    (hcounts : (r'.rtRq (rtRqOfSe v e)).Counts (rtSeBoosted v r))
    (hX : ∀ g, ¬ Y g → g ≠ rtRqOfSe v e ∧ (e ≠ .group g → ¬ X g) ∧ (e = .group g →
      (r'.runList e = .linked ↔ (r.rtRq g).rtNrRunning ≠ 0 ∧ rtRqThrottled (r.rtRq g) = false))) :
    Placed Y v r' := by
  have hne := ne_group_rtRqOfSe hparent
  have hlist_group : r'.runList (.group (rtRqOfSe v e)) ≠ .linked := by
    rw [hlist _ (Ne.symm hne)]
    exact hh
  -- an entity that is linked does not stand for the group that changes
  have hother : ∀ x, r'.runList x = .linked → ∀ g, x = .group g → r'.rtRq g = r.rtRq g := by
    rintro x hx g rfl
    refine hrq g ?_
    rintro rfl
    exact hlist_group hx
  have hplace : ∀ x g i, x ∈ (r'.rtRq g).queue i ↔
      r'.runList x = .linked ∧ rtRqOfSe v x = g ∧ rtSePrio v r x = i := by
    intro x g i
    by_cases hg : g = rtRqOfSe v e
    · rw [hg, hqueue, hp.place]
      by_cases hx : x = e
      · simp [hx]
      · simp [hx, hlist x hx]
    · rw [hrq g hg, hp.place]
      by_cases hx : x = e
      · subst hx
        simp [Ne.symm hg]
      · rw [hlist x hx]
  refine ⟨?_, ?_, ?_, ?_, ?_⟩
  · intro x g i
    rw [hplace]
    refine and_congr_right fun hx => ?_
    rw [rtSePrio_congr (hother x hx)]
  · intro g i
    by_cases hg : g = rtRqOfSe v e
    · rw [hg]
      exact hnodup i
    · rw [hrq g hg]
      exact hp.nodup g i
  · intro g
    have hsame : (r'.rtRq g).Counts (rtSeBoosted v r) := by
      by_cases hg : g = rtRqOfSe v e
      · rw [hg]
        exact hcounts
      · rw [hrq g hg]
        exact hp.counts g
    refine hsame.congr fun i x hx => ?_
    exact rtSeBoosted_congr (hother x ((hplace x g i).mp hx).1)
  · intro g hg
    by_cases hx : e = .group g
    · exact hparent g hx
    · rw [hlist _ (Ne.symm hx)] at hg
      exact hp.parent g hg
  · intro g hg hsome
    obtain ⟨hgh, hold, hnew⟩ := hX g hg
    rw [hrq g hgh]
    by_cases hx : e = .group g
    · rw [← hx]
      exact hnew hx
    · rw [hlist _ (Ne.symm hx)]
      exact hp.settled g (hold hx) hsome

/-- A group that is turned away has nothing to run, so it is settled. -/
theorem turnedAway (hp : Placed X v r) (he : r.runList e ≠ .linked) (hrefuse : r.refuses e = true) :
    Placed (fun g => g = rtRqOfSe v e ∨ (X g ∧ e ≠ .group g)) v r := by
  refine { hp with settled := fun g hg hsome => ?_ }
  obtain ⟨-, hX⟩ := not_or.mp hg
  by_cases hx : e = .group g
  · subst hx
    refine iff_of_false he ?_
    rintro ⟨hne, hfree⟩
    simp [refuses, hne, hfree] at hrefuse
  · exact hp.settled g (fun hXg => hX ⟨hXg, hx⟩) hsome

/-- An entity that is let in has a priority with a queue. -/
theorem letIn_range (hp : Placed X v r)
    (hruns : ∀ g, e = .group g → (r.rtRq g).rtNrRunning ≠ 0)
    (hprio : ∀ p, e = .task p → 0 ≤ v.prio p ∧ v.prio p < maxRtPrio) :
    0 ≤ rtSePrio v r e ∧ rtSePrio v r e < maxRtPrio := by
  cases e with
  | task p => exact hprio p rfl
  | group g =>
      refine ⟨?_, (hp.counts g).highestPrio_lt.mpr (hruns g rfl)⟩
      rw [rtSePrio, (hp.counts g).highestPrio]
      exact schedFindFirstBit_nonneg _

end Placed

/-- The run queues once an entity is linked and counted. -/
theorem rtRq_letIn (r : Rt) (h : Gid) (i : Int) (e : RtEntity) (head boost : Bool) (g : Gid) :
    ((r.link h i e head).modify h fun q =>
      incRtTasks i boost { q with bitmap := Function.update q.bitmap i true }).rtRq g =
    if g = h then incRtTasks i boost
      { push i head e (r.rtRq h) with bitmap := Function.update (r.rtRq h).bitmap i true }
    else r.rtRq g := by
  have hlink : (r.link h i e head).rtRq = (r.modify h (push i head e)).rtRq := rfl
  rw [modify_rtRq, hlink, modify_rtRq, modify_rtRq, if_pos rfl]
  split
  · rfl
  · rfl

namespace Placed

/-- **Enqueueing an entity settles the group it stands for**, whether it is turned away or not. -/
theorem rawEnqueueRtEntity (hp : Placed X v r) (he : r.runList e ≠ .linked)
    (hh : r.runList (.group (rtRqOfSe v e)) ≠ .linked)
    (hparent : ∀ g, e = .group g → (v.tg.parent g).isSome)
    (hprio : ∀ p, e = .task p → 0 ≤ v.prio p ∧ v.prio p < maxRtPrio) (head : Bool) :
    Placed (fun g => g = rtRqOfSe v e ∨ (X g ∧ e ≠ .group g)) v (r.rawEnqueueRtEntity v head e) := by
  unfold Rt.rawEnqueueRtEntity
  by_cases hrefuse : r.refuses e = true
  · rw [if_pos hrefuse]
    exact hp.turnedAway he hrefuse
  · rw [if_neg hrefuse]
    have hruns : ∀ g, e = .group g →
        (r.rtRq g).rtNrRunning ≠ 0 ∧ rtRqThrottled (r.rtRq g) = false := by
      rintro g rfl
      simpa [refuses, and_comm] using hrefuse
    have hoff : ∀ g i, e ∉ (r.rtRq g).queue i := fun g i hmem => he ((hp.place e g i).mp hmem).1
    have hrange := hp.letIn_range (fun g hg => (hruns g hg).1) hprio
    have hrq := r.rtRq_letIn (rtRqOfSe v e) (rtSePrio v r e) e head (rtSeBoosted v r e)
    refine hp.change hh hparent ?_ ?_ ?_ ?_ ?_ ?_
    · intro g hg
      rw [hrq, if_neg hg]
    · intro x hx
      exact Function.update_of_ne hx _ _
    · intro x i
      rw [hrq, if_pos rfl, incRtTasks_queue]
      show x ∈ Function.update (r.rtRq (rtRqOfSe v e)).queue (rtSePrio v r e) _ i ↔
        _ ∨ (x = e ∧ Function.update r.runList e ListHead.linked e = .linked ∧ _)
      rw [Function.update_self]
      by_cases hi : i = rtSePrio v r e
      · subst hi
        rw [Function.update_self, mem_put]
        by_cases hx : x = e
        · simp [hx]
        · simp [hx]
      · rw [Function.update_of_ne hi]
        by_cases hx : x = e
        · subst hx
          simp [hoff, Ne.symm hi]
        · simp [hx]
    · intro i
      rw [hrq, if_pos rfl, incRtTasks_queue]
      show (Function.update (r.rtRq (rtRqOfSe v e)).queue (rtSePrio v r e) _ i).Nodup
      by_cases hi : i = rtSePrio v r e
      · subst hi
        rw [Function.update_self]
        exact nodup_put (hp.nodup _ _) (hoff _ _)
      · rw [Function.update_of_ne hi]
        exact hp.nodup _ _
    · rw [hrq, if_pos rfl]
      exact (hp.counts _).push hrange head e
    · intro g hg
      obtain ⟨hgh, hX⟩ := not_or.mp hg
      refine ⟨hgh, fun hx hXg => hX ⟨hXg, hx⟩, fun hx => ?_⟩
      refine iff_of_true (Function.update_self _ _ _) (hruns g hx)

/-- **Dequeueing an entity** leaves the group it stands for to be settled. -/
theorem dequeueIfOn (hp : Placed X v r) (hh : r.runList (.group (rtRqOfSe v e)) ≠ .linked)
    (hparent : ∀ g, e = .group g → (v.tg.parent g).isSome) :
    Placed (fun g => g = rtRqOfSe v e ∨ e = .group g ∨ X g) v (r.dequeueIfOn v e) := by
  unfold Rt.dequeueIfOn onRtRq
  by_cases hon : r.runList e = .linked
  · rw [if_pos (by simpa using hon), rawDequeueRtEntity]
    have hmem : e ∈ (r.rtRq (rtRqOfSe v e)).queue (rtSePrio v r e) :=
      (hp.place e _ _).mpr ⟨hon, rfl, rfl⟩
    have hdel : ∀ g, g ≠ rtRqOfSe v e → (r.unlink e).rtRq g = r.rtRq g := by
      intro g hg
      have hoff : ∀ i, Sequence.del e ((r.rtRq g).queue i) = (r.rtRq g).queue i := by
        intro i
        refine Sequence.del_of_not_mem fun hmem => hg ?_
        exact ((hp.place e g i).mp hmem).2.1.symm
      show { r.rtRq g with queue := fun i => Sequence.del e ((r.rtRq g).queue i) } = r.rtRq g
      simp only [hoff]
    have hqueue : ((r.unlink e).rtRq (rtRqOfSe v e)).queue =
        Function.update (r.rtRq (rtRqOfSe v e)).queue (rtSePrio v r e)
          (Sequence.del e ((r.rtRq (rtRqOfSe v e)).queue (rtSePrio v r e))) := by
      funext i
      show Sequence.del e ((r.rtRq (rtRqOfSe v e)).queue i) = _
      by_cases hi : i = rtSePrio v r e
      · rw [hi, Function.update_self]
      · rw [Function.update_of_ne hi]
        refine Sequence.del_of_not_mem fun hmem => hi ?_
        exact ((hp.place e _ i).mp hmem).2.2.symm
    refine hp.change hh hparent ?_ ?_ ?_ ?_ ?_ ?_
    · intro g hg
      rw [modify_rtRq, if_neg hg, hdel g hg]
    · intro x hx
      exact Function.update_of_ne hx _ _
    · intro x i
      rw [modify_rtRq, if_pos rfl, decRtTasks_queue, queue_clear]
      show x ∈ Sequence.del e ((r.rtRq (rtRqOfSe v e)).queue i) ↔
        _ ∨ (x = e ∧ Function.update r.runList e ListHead.self e = .linked ∧ _)
      rw [Sequence.mem_del (hp.nodup _ _), Function.update_self]
      simp
    · intro i
      rw [modify_rtRq, if_pos rfl, decRtTasks_queue, queue_clear]
      exact Sequence.nodup_del (hp.nodup _ _)
    · rw [modify_rtRq, if_pos rfl]
      exact (hp.counts _).pull hmem hqueue
    · intro g hg
      obtain ⟨hgh, hrest⟩ := not_or.mp hg
      obtain ⟨hge, hX⟩ := not_or.mp hrest
      exact ⟨hgh, fun _ => hX, fun hx => absurd hx hge⟩
  · rw [if_neg (by simpa using hon)]
    exact hp.mono fun g _ hX => Or.inr (Or.inr hX)

end Placed

/-! ### What else is linked -/

theorem linked_of_rawEnqueueRtEntity {head : Bool}
    (hx : (r.rawEnqueueRtEntity v head e).runList x = .linked) : x = e ∨ r.runList x = .linked := by
  unfold rawEnqueueRtEntity at hx
  split at hx
  · exact Or.inr hx
  · by_cases hxe : x = e
    · exact Or.inl hxe
    · have hsame : Function.update r.runList e ListHead.linked x = .linked := hx
      rw [Function.update_of_ne hxe] at hsame
      exact Or.inr hsame

theorem linked_of_dequeueIfOn (hx : (r.dequeueIfOn v e).runList x = .linked) :
    x ≠ e ∧ r.runList x = .linked := by
  unfold dequeueIfOn onRtRq at hx
  split at hx
  · have hsame : Function.update r.runList e ListHead.self x = .linked := hx
    by_cases hxe : x = e
    · rw [hxe, Function.update_self] at hsame
      cases hsame
    · rw [Function.update_of_ne hxe] at hsame
      exact ⟨hxe, hsame⟩
  · rename_i hon
    refine ⟨?_, hx⟩
    rintro rfl
    simp [hx] at hon

/-- A group below another stands among its entities. -/
theorem mem_groupEntities_self {tg : GroupTree} {n : Nat} (hparent : (tg.parent g).isSome)
    (hdepth : tg.depth g ≤ n) : .group g ∈ groupEntities tg n g := by
  obtain ⟨k, hk⟩ := Option.isSome_iff_exists.mp hparent
  have hg := tg.depth_parent g k hk
  cases n with
  | zero => omega
  | succ n =>
      rw [groupEntities, hk]
      exact List.mem_cons_self

namespace Placed

/-- A group that is off all queues with those above it, or that has none above it. -/
theorem not_linked (hp : Placed X v r) {n : Nat} (hdepth : v.tg.depth g ≤ n)
    (hoff : ∀ x ∈ groupEntities v.tg n g, r.runList x ≠ .linked) :
    r.runList (.group g) ≠ .linked := by
  intro hg
  exact hoff _ (mem_groupEntities_self (hp.parent g hg) hdepth) hg

/-! ### Leaving top down, coming back bottom up

By induction on the way up.  Downwards, a group can be taken off because its parent's
entity is off already, being above it.  Upwards, an entity is put on the queue of a
group that is still off, at a priority that will not change any more.
-/

theorem leaveGroups (hp : Placed X v r) (n : Nat) (hdepth : v.tg.depth g ≤ n) :
    Placed (fun k => .group k ∈ groupEntities v.tg n g ∨ X k) v
        ((groupEntities v.tg n g).foldr (fun e r => r.dequeueIfOn v e) r) ∧
      ∀ x ∈ groupEntities v.tg n g,
        ((groupEntities v.tg n g).foldr (fun e r => r.dequeueIfOn v e) r).runList x ≠ .linked := by
  induction n generalizing g with
  | zero => exact ⟨hp.mono fun k _ hX => Or.inr hX, by simp [groupEntities]⟩
  | succ n ih =>
      cases hg : v.tg.parent g with
      | none => simpa [groupEntities, hg] using hp
      | some k =>
          have hk := v.tg.depth_parent g k hg
          obtain ⟨hp', hoff⟩ := @ih k (by omega)
          have hgk := hp'.not_linked (by omega) hoff
          have hleft := hp'.dequeueIfOn (e := .group g) (by rwa [rtRqOfSe_group hg]) (by
            rintro j hj
            cases hj
            simp [hg])
          rw [groupEntities, hg]
          refine ⟨hleft.mono ?_, ?_⟩
          · intro j hj hX
            rw [rtRqOfSe_group hg] at hX
            rcases hX with rfl | hjg | hmem | hX
            · exact Or.inl (List.mem_cons_of_mem _ (mem_groupEntities_self hj (by omega)))
            · exact Or.inl (hjg ▸ List.mem_cons_self)
            · exact Or.inl (List.mem_cons_of_mem _ hmem)
            · exact Or.inr hX
          · intro x hx hlinked
            obtain ⟨hne, hlinked⟩ := linked_of_dequeueIfOn hlinked
            rcases List.mem_cons.mp hx with rfl | hx
            · exact hne rfl
            · exact hoff x hx hlinked

theorem dequeueRtStack (hp : Placed X v r) (e : RtEntity) :
    Placed (fun k => .group k ∈ schedRtEntities v e ∨ X k) v (r.dequeueRtStack v e) ∧
      ∀ x ∈ schedRtEntities v e, (r.dequeueRtStack v e).runList x ≠ .linked := by
  unfold Rt.dequeueRtStack
  rw [List.foldl_reverse]
  cases e with
  | group g => exact hp.leaveGroups _ (Nat.le_refl _)
  | task p =>
      obtain ⟨hp', hoff⟩ := hp.leaveGroups (g := v.group p) _ (Nat.le_refl _)
      have hleft := hp'.dequeueIfOn (e := .task p) (hp'.not_linked (Nat.le_refl _) hoff) (by
        rintro g hg
        cases hg)
      refine ⟨hleft.mono ?_, ?_⟩
      · rintro k hk (rfl | hkp | hmem | hX)
        · exact Or.inl (List.mem_cons_of_mem _ (mem_groupEntities_self hk (Nat.le_refl _)))
        · cases hkp
        · exact Or.inl (List.mem_cons_of_mem _ hmem)
        · exact Or.inr hX
      · intro x hx hlinked
        obtain ⟨hne, hlinked⟩ := linked_of_dequeueIfOn hlinked
        rcases List.mem_cons.mp hx with rfl | hx
        · exact hne rfl
        · exact hoff x hx hlinked

theorem returnGroups (hp : Placed X v r) (n : Nat) (hdepth : v.tg.depth g ≤ n) (head : Bool)
    (hoff : ∀ x ∈ groupEntities v.tg n g, r.runList x ≠ .linked) :
    Placed (fun k => X k ∧ .group k ∉ groupEntities v.tg n g) v
      ((groupEntities v.tg n g).foldl (Rt.rawEnqueueRtEntity v head) r) := by
  induction n generalizing g r X with
  | zero => exact hp.mono fun k _ hX => ⟨hX, by simp [groupEntities]⟩
  | succ n ih =>
      have hnodup := nodup_groupEntities v.tg (n + 1) g
      cases hg : v.tg.parent g with
      | none => simpa [groupEntities, hg] using hp
      | some k =>
          have hk := v.tg.depth_parent g k hg
          rw [groupEntities, hg] at hoff hnodup ⊢
          have hrest : ∀ x ∈ groupEntities v.tg n k, r.runList x ≠ .linked :=
            fun x hx => hoff x (List.mem_cons_of_mem _ hx)
          have hback := hp.rawEnqueueRtEntity (e := .group g) (hoff _ List.mem_cons_self)
            (by rw [rtRqOfSe_group hg]; exact hp.not_linked (by omega) hrest)
            (by
              rintro j hj
              cases hj
              simp [hg])
            (by
              rintro p hp
              cases hp) head
          refine (ih hback (by omega) ?_).mono ?_
          · intro x hx hlinked
            rcases linked_of_rawEnqueueRtEntity hlinked with rfl | hlinked
            · exact (List.nodup_cons.mp hnodup).1 hx
            · exact hrest x hx hlinked
          · rintro j hj ⟨hX, hmem⟩
            rw [rtRqOfSe_group hg] at hX
            rcases hX with rfl | ⟨hX, hne⟩
            · exact absurd (mem_groupEntities_self hj (by omega)) hmem
            · refine ⟨hX, ?_⟩
              rw [List.mem_cons, not_or]
              exact ⟨Ne.symm hne, hmem⟩

/-! ### The functions of `rt.c` -/

theorem enqueueRtEntity (hp : Placed X v r)
    (hprio : ∀ p, e = .task p → 0 ≤ v.prio p ∧ v.prio p < maxRtPrio) (head : Bool) :
    Placed (fun k => X k ∧ .group k ∉ schedRtEntities v e) v (r.enqueueRtEntity v head e) := by
  obtain ⟨hp', hoff⟩ := hp.dequeueRtStack e
  unfold Rt.enqueueRtEntity
  generalize Rt.dequeueRtStack v r e = r' at hp' hoff
  cases e with
  | group g =>
      refine (hp'.returnGroups _ (Nat.le_refl _) head hoff).mono ?_
      rintro k - ⟨hmem | hX, hnot⟩
      · exact absurd hmem hnot
      · exact ⟨hX, hnot⟩
  | task p =>
      have hgroups : ∀ x ∈ groupEntities v.tg (v.tg.depth (v.group p)) (v.group p),
          r'.runList x ≠ .linked := fun x hx => hoff x (List.mem_cons_of_mem _ hx)
      have htask := hp'.rawEnqueueRtEntity (e := .task p) (hoff _ List.mem_cons_self)
        (hp'.not_linked (Nat.le_refl _) hgroups)
        (by
          rintro g hg
          cases hg) hprio head
      refine (htask.returnGroups (g := v.group p) _ (Nat.le_refl _) head ?_).mono ?_
      · intro x hx hlinked
        rcases linked_of_rawEnqueueRtEntity hlinked with rfl | hlinked
        · obtain ⟨k, hk, -, -⟩ := mem_groupEntities hx
          cases hk
        · exact hgroups x hx hlinked
      · rintro k hk ⟨hX, hnot⟩
        have hnot' : .group k ∉ schedRtEntities v (.task p) := by
          rw [schedRtEntities, List.mem_cons, not_or]
          exact ⟨by simp, hnot⟩
        rcases hX with rfl | ⟨hmem | hX, -⟩
        · exact absurd (mem_groupEntities_self hk (Nat.le_refl _)) hnot
        · exact absurd hmem hnot'
        · exact ⟨hX, hnot'⟩

end Placed

/-- A group without entities is turned away anyway. -/
theorem requeueGroup_group (v : RtView) (r : Rt) (g : Gid) :
    r.requeueGroup v (.group g) = r.rawEnqueueRtEntity v false (.group g) := by
  show (if (r.rtRq g).rtNrRunning ≠ 0 then r.rawEnqueueRtEntity v false (.group g) else r) = _
  by_cases hruns : (r.rtRq g).rtNrRunning ≠ 0
  · rw [if_pos hruns]
  · rw [if_neg hruns, rawEnqueueRtEntity, if_pos (by simp [refuses, not_not.mp hruns])]

theorem requeueGroups_eq (v : RtView) (n : Nat) (g : Gid) (r : Rt) :
    (groupEntities v.tg n g).foldl (requeueGroup v) r =
      (groupEntities v.tg n g).foldl (rawEnqueueRtEntity v false) r := by
  refine List.foldl_ext _ _ _ fun r x hx => ?_
  obtain ⟨k, rfl, -, -⟩ := mem_groupEntities hx
  exact requeueGroup_group v r k

namespace Placed

theorem dequeueRtEntity (hp : Placed X v r) (e : RtEntity) :
    Placed (fun k => X k ∧ .group k ∉ schedRtEntities v e) v (r.dequeueRtEntity v e) := by
  obtain ⟨hp', hoff⟩ := hp.dequeueRtStack e
  unfold Rt.dequeueRtEntity
  generalize Rt.dequeueRtStack v r e = r' at hp' hoff
  have hsettle : ∀ k, (.group k ∈ schedRtEntities v e ∨ X k) ∧ .group k ∉ schedRtEntities v e →
      X k ∧ .group k ∉ schedRtEntities v e := by
    rintro k ⟨hmem | hX, hnot⟩
    · exact absurd hmem hnot
    · exact ⟨hX, hnot⟩
  cases e with
  | group g =>
      rw [schedRtEntities, requeueGroups_eq]
      exact (hp'.returnGroups _ (Nat.le_refl _) false hoff).mono fun k _ => hsettle k
  | task p =>
      have hgroups : ∀ x ∈ groupEntities v.tg (v.tg.depth (v.group p)) (v.group p),
          r'.runList x ≠ .linked := fun x hx => hoff x (List.mem_cons_of_mem _ hx)
      rw [schedRtEntities, List.foldl_cons, requeueGroups_eq]
      refine (hp'.returnGroups (g := v.group p) _ (Nat.le_refl _) false hgroups).mono ?_
      rintro k - ⟨hX, hnot⟩
      refine hsettle k ⟨hX, ?_⟩
      rw [schedRtEntities, List.mem_cons, not_or]
      exact ⟨by simp, hnot⟩

/-- Requeueing an entity changes the order of its queue and nothing else. -/
theorem requeueRtEntity (hp : Placed X v r) (head : Bool) (e : RtEntity) :
    Placed X v (r.requeueRtEntity v head e) := by
  unfold Rt.requeueRtEntity onRtRq
  by_cases hon : r.runList e = .linked
  · rw [if_pos (by simpa using hon)]
    generalize hr' : (r.unlink e).link (rtRqOfSe v e) (rtSePrio v r e) e head = r'
    have hlist : r'.runList = r.runList := by
      rw [← hr']
      funext x
      show Function.update (Function.update r.runList e ListHead.self) e ListHead.linked x = _
      by_cases hx : x = e
      · rw [hx, Function.update_self, hon]
      · rw [Function.update_of_ne hx, Function.update_of_ne hx]
    have hqueue : ∀ g i, ((r'.rtRq g).queue i).Perm ((r.rtRq g).queue i) := by
      intro g i
      rw [← hr', link_queue]
      split
      · rename_i hgi
        rw [hgi.1, hgi.2]
        exact put_del_perm ((hp.place e _ _).mpr ⟨hon, rfl, rfl⟩)
      · rename_i hgi
        refine List.Perm.of_eq (Sequence.del_of_not_mem fun hmem => hgi ?_)
        obtain ⟨-, hg, hi⟩ := (hp.place e g i).mp hmem
        exact ⟨hg.symm, hi.symm⟩
    have hrest : ∀ g, ∃ Q, r'.rtRq g = { r.rtRq g with queue := Q } := by
      intro g
      have hlink : r'.rtRq = ((r.unlink e).modify (rtRqOfSe v e) (push (rtSePrio v r e) head e)).rtRq := by
        rw [← hr']
        rfl
      rw [hlink, modify_rtRq]
      split
      · rename_i hg
        rw [hg]
        exact ⟨_, rfl⟩
      · exact ⟨_, rfl⟩
    have hprio := @rtSePrio_eq v r r' fun g => by
      obtain ⟨Q, hQ⟩ := hrest g
      rw [hQ]
    have hboosted := @rtSeBoosted_eq v r r' fun g => by
      obtain ⟨Q, hQ⟩ := hrest g
      rw [hQ]
    refine ⟨?_, ?_, ?_, ?_, ?_⟩
    · intro x g i
      rw [(hqueue g i).mem_iff, hp.place, hlist, hprio]
    · intro g i
      exact (hqueue g i).nodup_iff.mpr (hp.nodup g i)
    · intro g
      obtain ⟨Q, hQ⟩ := hrest g
      have hperm := hqueue g
      rw [hQ] at hperm
      rw [hboosted, hQ]
      exact (hp.counts g).perm hperm
    · intro g
      rw [hlist]
      exact hp.parent g
    · intro g hg hsome
      obtain ⟨Q, hQ⟩ := hrest g
      rw [hlist, hQ]
      exact hp.settled g hg hsome
  · rw [if_neg (by simpa using hon)]
    exact hp

theorem requeueTaskRt (hp : Placed X v r) (head : Bool) (p : Pid) :
    Placed X v (r.requeueTaskRt v head p) := by
  unfold Rt.requeueTaskRt
  generalize schedRtEntities v (.task p) = l
  induction l generalizing r with
  | nil => exact hp
  | cons e l ih => exact ih (hp.requeueRtEntity head e)

/-! ### Throttling and unthrottling

A throttled group must leave and one that is let go on must come back, and in between
exactly that group is open.  `sched_rt_rq_enqueue` and `sched_rt_rq_dequeue` close it.
-/

end Placed

/-- The period timer writes the budget, and enqueues a group it lets go on. -/
theorem replenish_spec (overrun : Nat) (q : RtRq) :
    (∃ time throttled runtime, (replenish overrun q).1 =
      { q with rtTime := time, rtThrottled := throttled, rtRuntime := runtime }) ∧
    ((replenish overrun q).2 = true → rtRqThrottled (replenish overrun q).1 = false) ∧
    ((replenish overrun q).2 = false →
      rtRqThrottled (replenish overrun q).1 = rtRqThrottled q) := by
  unfold replenish
  split
  · dsimp only
    generalize q.rtTime - _ = left
    by_cases hgo : (q.rtThrottled && decide (left < q.rtRuntime)) = true
    · rw [if_pos hgo]
      refine ⟨⟨_, _, _, rfl⟩, fun _ => rfl, ?_⟩
      intro hc
      cases hc
    · rw [if_neg hgo]
      refine ⟨⟨_, _, _, rfl⟩, ?_, fun _ => rfl⟩
      intro hc
      cases hc
  · refine ⟨⟨_, _, _, rfl⟩, ?_, fun _ => rfl⟩
    intro hflag
    simpa using (Bool.and_eq_true_iff.mp hflag).2

namespace Placed

/-- A change of the budget of a group. -/
theorem modify (hp : Placed X v r) {f : RtRq → RtRq}
    (hf : ∃ time throttled runtime, f (r.rtRq g) =
      { r.rtRq g with rtTime := time, rtThrottled := throttled, rtRuntime := runtime })
    (hY : ∀ k, ¬ Y k → ¬ X k ∧ (k = g → rtRqThrottled (f (r.rtRq g)) = rtRqThrottled (r.rtRq g))) :
    Placed Y v (r.modify g f) := by
  obtain ⟨time, throttled, runtime, hf⟩ := hf
  have hrq : ∀ k, ∃ time throttled runtime, (r.modify g f).rtRq k =
      { r.rtRq k with rtTime := time, rtThrottled := throttled, rtRuntime := runtime } := by
    intro k
    rw [modify_rtRq]
    split
    · rename_i hk
      rw [hk]
      exact ⟨time, throttled, runtime, hf⟩
    · exact ⟨_, _, _, rfl⟩
  have hprio := @rtSePrio_eq v r (r.modify g f) fun k => by
    obtain ⟨_, _, _, hk⟩ := hrq k
    rw [hk]
  have hboosted := @rtSeBoosted_eq v r (r.modify g f) fun k => by
    obtain ⟨_, _, _, hk⟩ := hrq k
    rw [hk]
  refine ⟨?_, ?_, ?_, hp.parent, ?_⟩
  · intro x k i
    obtain ⟨_, _, _, hk⟩ := hrq k
    rw [hk, hprio]
    exact hp.place x k i
  · intro k i
    obtain ⟨_, _, _, hk⟩ := hrq k
    rw [hk]
    exact hp.nodup k i
  · intro k
    obtain ⟨_, _, _, hk⟩ := hrq k
    have hc := hp.counts k
    rw [hboosted, hk]
    exact ⟨hc.bit, hc.range, hc.rtNrRunning, hc.highestPrio, hc.rtNrBoosted⟩
  · intro k hk hsome
    obtain ⟨hX, hsame⟩ := hY k hk
    have hthrottled : rtRqThrottled ((r.modify g f).rtRq k) = rtRqThrottled (r.rtRq k) := by
      rw [modify_rtRq]
      split
      · rename_i hkg
        rw [hsame hkg, hkg]
      · rfl
    obtain ⟨_, _, _, hrk⟩ := hrq k
    have hrunning : ((r.modify g f).rtRq k).rtNrRunning = (r.rtRq k).rtNrRunning := by rw [hrk]
    rw [hthrottled, hrunning]
    exact hp.settled k hX hsome

theorem schedRtRqDequeue (hp : Placed (fun k => k = g) v r)
    (hthrottled : rtRqThrottled (r.rtRq g) = true) :
    Placed (fun _ => False) v (r.schedRtRqDequeue v g) := by
  unfold Rt.schedRtRqDequeue onRtRq
  by_cases hon : ((v.tg.parent g).isSome && decide (r.runList (.group g) = .linked)) = true
  · rw [if_pos hon]
    obtain ⟨hsome, -⟩ := Bool.and_eq_true_iff.mp hon
    refine (hp.dequeueRtEntity (.group g)).mono ?_
    rintro k - ⟨rfl, hnot⟩
    exact hnot (mem_groupEntities_self hsome (Nat.le_refl _))
  · rw [if_neg hon]
    refine { hp with settled := fun k _ hsome => ?_ }
    by_cases hk : k = g
    · subst hk
      have hoff : r.runList (.group k) ≠ .linked := by simpa [hsome] using hon
      exact iff_of_false hoff (by simp [hthrottled])
    · exact hp.settled k hk hsome

theorem schedRtRqEnqueue (hp : Placed (fun k => k = g) v r)
    (hfree : rtRqThrottled (r.rtRq g) = false)
    (hon : r.runList (.group g) = .linked → (r.rtRq g).rtNrRunning ≠ 0) :
    Placed (fun _ => False) v (r.schedRtRqEnqueue v g).1 := by
  have hsettle : (r.runList (.group g) = .linked ↔ (r.rtRq g).rtNrRunning ≠ 0) →
      Placed (fun _ => False) v r := by
    intro hg
    refine { hp with settled := fun k _ hsome => ?_ }
    by_cases hk : k = g
    · subst hk
      rw [hg]
      exact (and_iff_left hfree).symm
    · exact hp.settled k hk hsome
  unfold Rt.schedRtRqEnqueue
  by_cases hruns : (r.rtRq g).rtNrRunning ≠ 0
  · rw [if_pos hruns]
    dsimp only
    by_cases hback : ((v.tg.parent g).isSome && !r.onRtRq (.group g)) = true
    · rw [if_pos hback]
      obtain ⟨hsome, -⟩ := Bool.and_eq_true_iff.mp hback
      refine (hp.enqueueRtEntity (e := .group g) (by
        rintro p hp
        cases hp) false).mono ?_
      rintro k - ⟨rfl, hnot⟩
      exact hnot (mem_groupEntities_self hsome (Nat.le_refl _))
    · rw [if_neg hback]
      by_cases hsome : (v.tg.parent g).isSome = true
      · refine hsettle (iff_of_true ?_ hruns)
        simpa [hsome, onRtRq] using hback
      · refine hp.mono ?_
        rintro k hk rfl
        exact hsome hk
  · rw [if_neg hruns]
    exact hsettle ⟨hon, fun hne => absurd hne hruns⟩

theorem schedRtRuntimeExceeded (hp : Placed (fun _ => False) v r) (g : Gid) :
    Placed (fun _ => False) v (r.schedRtRuntimeExceeded v g).1 := by
  have hset : ∀ f : RtRq → RtRq, (r.rtRq g).rtThrottled = false →
      (∃ time throttled runtime, f (r.rtRq g) =
        { r.rtRq g with rtTime := time, rtThrottled := throttled, rtRuntime := runtime }) →
      Placed (fun _ => False) v (if rtRqThrottled ((r.modify g f).rtRq g) then
        ((r.modify g f).schedRtRqDequeue v g, true) else (r.modify g f, false)).1 := by
    intro f hfree hf
    cases hthrottled : rtRqThrottled ((r.modify g f).rtRq g) with
    | true =>
        have hopen : Placed (fun k => k = g) v (r.modify g f) :=
          hp.modify hf fun k hk => ⟨id, fun hkg => absurd hkg hk⟩
        exact hopen.schedRtRqDequeue hthrottled
    | false =>
        refine hp.modify hf fun k _ => ⟨id, fun _ => ?_⟩
        rw [modify_rtRq, if_pos rfl] at hthrottled
        rw [hthrottled, rtRqThrottled, hfree, Bool.false_and]
  unfold Rt.schedRtRuntimeExceeded
  dsimp only
  split
  · exact hp
  rename_i hfree
  have hfree := Bool.eq_false_of_not_eq_true hfree
  split
  · exact hp
  split
  · exact hp
  split
  · by_cases hband : (v.rtBandwidth g).rtRuntime ≠ 0
    · rw [if_pos hband]
      exact hset _ hfree ⟨_, _, _, rfl⟩
    · rw [if_neg hband]
      exact hset _ hfree ⟨_, _, _, rfl⟩
  · exact hp

theorem chargeRt (hp : Placed (fun _ => False) v r) (δ : BitVec 64) :
    Placed (fun _ => False) v (Rt.chargeRt v δ r).1 := by
  have hturn : ∀ (acc : Rt × Bool) (e : RtEntity), Placed (fun _ => False) v acc.1 →
      Placed (fun _ => False) v (chargeRtRq v δ acc e).1 := by
    intro acc e hacc
    unfold chargeRtRq
    dsimp only
    split
    · exact hacc
    · have hcharged := hacc.modify (Y := fun _ => False) (g := rtRqOfSe v e)
        (f := fun q => { q with rtTime := q.rtTime + δ }) ⟨_, _, _, rfl⟩ fun _ _ => ⟨id, fun _ => rfl⟩
      exact hcharged.schedRtRuntimeExceeded _
  unfold Rt.chargeRt
  generalize schedRtEntities v (.task v.curr) = l
  suffices hfold : ∀ acc : Rt × Bool, Placed (fun _ => False) v acc.1 →
      Placed (fun _ => False) v (l.foldl (chargeRtRq v δ) acc).1 from hfold (r, false) hp
  induction l with
  | nil => exact fun _ hacc => hacc
  | cons e l ih => exact fun acc hacc => ih _ (hturn acc e hacc)

/-- **A turn of the period timer** puts a group back that it lets go on. -/
theorem afterPeriod (hp : Placed (fun _ => False) v r) (g : Gid) (overrun : Nat) :
    Placed (fun _ => False) v (Rt.afterPeriod v g overrun r) := by
  obtain ⟨hkeep, hflag, hstill⟩ := replenish_spec overrun (r.rtRq g)
  have hrunning : ((replenish overrun (r.rtRq g)).1).rtNrRunning = (r.rtRq g).rtNrRunning := by
    obtain ⟨_, _, _, hq⟩ := hkeep
    rw [hq]
  unfold Rt.afterPeriod
  dsimp only
  cases henq : (replenish overrun (r.rtRq g)).2 with
  | true =>
      have hopen : Placed (fun k => k = g) v (r.modify g fun q => (replenish overrun q).1) :=
        hp.modify hkeep fun k hk => ⟨id, fun hkg => absurd hkg hk⟩
      refine hopen.schedRtRqEnqueue ?_ ?_
      · rw [modify_rtRq, if_pos rfl]
        exact hflag henq
      · intro hon
        rw [modify_rtRq, if_pos rfl, hrunning]
        exact ((hp.settled g id (hp.parent g hon)).mp hon).1
  | false =>
      exact hp.modify (f := fun q => (replenish overrun q).1) hkeep
        fun k _ => ⟨id, fun _ => hstill henq⟩

/-- Only what decides the place of a queued entity matters. -/
theorem congr (hp : Placed X v r) (htg : v'.tg = v.tg)
    (htask : ∀ p, r.runList (.task p) = .linked →
      v'.prio p = v.prio p ∧ v'.normalPrio p = v.normalPrio p ∧ v'.group p = v.group p) :
    Placed X v' r := by
  have hse : ∀ e, r.runList e = .linked → rtRqOfSe v' e = rtRqOfSe v e ∧
      rtSePrio v' r e = rtSePrio v r e ∧ rtSeBoosted v' r e = rtSeBoosted v r e := by
    intro e he
    cases e with
    | task p =>
        obtain ⟨hprio, hnormal, hgroup⟩ := htask p he
        exact ⟨hgroup, hprio, by rw [rtSeBoosted, rtSeBoosted, hprio, hnormal]⟩
    | group g => exact ⟨by rw [rtRqOfSe, rtRqOfSe, htg], rfl, rfl⟩
  refine ⟨?_, hp.nodup, ?_, ?_, ?_⟩
  · intro e g i
    rw [hp.place]
    refine and_congr_right fun he => ?_
    rw [(hse e he).1, (hse e he).2.1]
  · intro g
    refine (hp.counts g).congr fun i e he => ?_
    exact (hse e ((hp.place e g i).mp he).1).2.2
  · rw [htg]
    exact hp.parent
  · rw [htg]
    exact hp.settled

/-- Run queues that have just been set up. -/
theorem fresh (hrq : ∀ g, ∃ R, r.rtRq g = initRtRq R) (hlist : ∀ e, r.runList e = .self) :
    Placed X v r := by
  have hempty : ∀ g i, (r.rtRq g).queue i = [] := by
    intro g i
    obtain ⟨R, hR⟩ := hrq g
    rw [hR]
    rfl
  have hoff : ∀ e, r.runList e ≠ .linked := by
    intro e he
    rw [hlist e] at he
    cases he
  refine ⟨?_, ?_, ?_, ?_, ?_⟩
  · intro e g i
    rw [hempty]
    exact iff_of_false (List.not_mem_nil) fun h => hoff e h.1
  · intro g i
    rw [hempty]
    exact List.nodup_nil
  · intro g
    obtain ⟨R, hR⟩ := hrq g
    rw [hR]
    exact RtRq.counts_initRtRq R _
  · exact fun g hg => absurd hg (hoff _)
  · intro g _ _
    obtain ⟨R, hR⟩ := hrq g
    rw [hR]
    exact iff_of_false (hoff _) fun h => h.1 rfl

/-! ### Picking

A group that counts entities has a first bit, the queue of that bit has a head, and if
the head is a group it is queued and so has entities itself.  Depths increase and the
tree is finite, so the way down ends at a task.
-/

/-- **From a group that counts entities, the way down ends at a task**: each group on it is queued,
so it counts some itself, and the tree ends. -/
theorem descend_ok (hp : Placed (fun _ => False) v r) (n : Nat)
    (hruns : (r.rtRq g).rtNrRunning ≠ 0) (hn : v.tg.height < v.tg.depth g + n) :
    ∃ p, r.descend n g = .ok p ∧ r.runList (.task p) = .linked := by
  induction n generalizing g with
  | zero =>
      have hle := v.tg.depth_le g
      omega
  | succ n ih =>
      have hlt := (hp.counts g).highestPrio_lt.mpr hruns
      have hfirst := (hp.counts g).highestPrio
      rw [hfirst] at hlt
      have hqueue : (r.rtRq g).queue (schedFindFirstBit (r.rtRq g).bitmap) ≠ [] := by
        rcases ((hp.counts g).bit _).mp (bit_schedFindFirstBit hlt) with hne | heq
        · exact hne
        · exact absurd heq (ne_of_lt hlt)
      obtain ⟨e, l, hl⟩ := List.exists_cons_of_ne_nil hqueue
      have hpick : pickNextRtEntity (r.rtRq g) = .ok e := by
        unfold pickNextRtEntity
        dsimp only
        rw [if_neg (not_le.mpr hlt), hl]
        rfl
      obtain ⟨he, hse, -⟩ := (hp.place e g _).mp (by rw [hl]; exact List.mem_cons_self)
      rw [descend, hpick]
      cases e with
      | task p => exact ⟨p, rfl, he⟩
      | group h =>
          obtain ⟨k, hk⟩ := Option.isSome_iff_exists.mp (hp.parent h he)
          have hkg : k = g := (rtRqOfSe_group hk).symm.trans hse
          have hdepth := v.tg.depth_parent h k hk
          rw [hkg] at hdepth
          exact ih ((hp.settled h id (hp.parent h he)).mp he).1 (by omega)

/-- **Picking never fails, and ends at a queued task** unless there is none to pick. -/
theorem pickNextTask_ok (hp : Placed (fun _ => False) v r) :
    ∃ o, Rt.pickNextTask v.tg r = .ok o ∧
      (o = none ↔ (r.rtRq v.tg.root).rtNrRunning = 0 ∨ rtRqThrottled (r.rtRq v.tg.root) = true) ∧
      ∀ p, o = some p → r.runList (.task p) = .linked := by
  unfold Rt.pickNextTask
  by_cases hruns : (r.rtRq v.tg.root).rtNrRunning = 0
  · rw [if_pos hruns]
    exact ⟨none, rfl, iff_of_true rfl (Or.inl hruns), fun p hp => by cases hp⟩
  rw [if_neg hruns]
  by_cases hthrottled : rtRqThrottled (r.rtRq v.tg.root) = true
  · rw [if_pos hthrottled]
    exact ⟨none, rfl, iff_of_true rfl (Or.inr hthrottled), fun p hp => by cases hp⟩
  rw [if_neg hthrottled]
  obtain ⟨p, hdescend, hlinked⟩ := hp.descend_ok (v.tg.height + 1) hruns (by omega)
  rw [hdescend]
  refine ⟨some p, rfl, iff_of_false (by simp) ?_, ?_⟩
  · rintro (hzero | ht)
    · exact hruns hzero
    · exact hthrottled ht
  · intro q hq
    cases hq
    exact hlinked

end Placed

end Rt

end WrrScheduler
