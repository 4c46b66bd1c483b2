/-
The iterative walk is the recursive one.

What carries it is where the walk is when it leaves a group for the last time: at the
sibling after it, which the walk finds again from the parent pointer, because a group
is on one list of children and there once.  So walking a subtree takes a number of
rounds that depends on nothing but the subtree, and comes to that place.
-/
import WrrScheduler.Kernel.CfsBandwidth
import WrrScheduler.Kernel.TgWalk
import WrrScheduler.Proofs.Admission

namespace WrrScheduler

variable {σ : Type} {t : TgTree} {start g : Gid} {down up : TgVisitor σ} {s : σ}

/-- Where the walk is once it has left a group. -/
def walkLeft (t : TgTree) (start g : Gid) : WalkPc := if g = start then .out 0 else walkUp t g

/-! ### Rounds -/

theorem loop_out (n : Nat) (ret : Int) :
    walkTgTreeLoop t start down up n (.out ret) s = some (ret, s) := by
  cases n <;> rfl

theorem loop_down (n : Nat) : walkTgTreeLoop t start down up (n + 1) (.down g) s =
    Walk.andThen (down g s)
      (walkTgTreeLoop t start down up n (.forEach g (t.children g).head?)) := by
  show ((down g s).map _).bind _ = _
  rcases down g s with _ | ⟨c, s'⟩
  · rfl
  · by_cases hc : c = 0
    · simp [Walk.andThen, hc]
    · simp [Walk.andThen, hc, loop_out]

theorem loop_child (n : Nat) (c : Gid) :
    walkTgTreeLoop t start down up (n + 1) (.forEach g (some c)) s =
      walkTgTreeLoop t start down up n (.down c) s := rfl

theorem loop_end (n : Nat) : walkTgTreeLoop t start down up (n + 1) (.forEach g none) s =
    Walk.andThen (up g s) (walkTgTreeLoop t start down up n (walkLeft t start g)) := by
  show ((up g s).map _).bind _ = _
  rcases up g s with _ | ⟨c, s'⟩
  · rfl
  · by_cases hc : c = 0
    · simp [Walk.andThen, hc, walkLeft]
    · simp [Walk.andThen, hc, loop_out]

/-- From a child the walk comes to its next sibling. -/
theorem walkLeft_child {l l' : List Gid} {c : Gid} (hc : t.children g = l ++ c :: l')
    (hstart : c ≠ start) : walkLeft t start c = .forEach g l'.head? := by
  have hparent : t.parent c = some g := (t.mem_children g c).mp (by simp [hc])
  have hnodup := t.nodup_children g
  unfold walkLeft walkUp
  rw [if_neg hstart, hparent]
  simp only []
  rw [hc] at hnodup ⊢
  rw [Sequence.next_append hnodup]

/-! ### Subtrees

By induction on the levels below a group, and within a level over the children that
are left.  The number of rounds is found with the proof: one for each visit and one
for each child.  The fuel that is left over goes to what comes after, which is why the
statement keeps it apart.
-/

/-- **A subtree takes its rounds and is left**, whatever the fuel after them. -/
theorem exists_rounds {n : Nat} (hdepth : t.depth start ≤ t.depth g)
    (hfuel : t.height < t.depth g + n) : ∃ N, ∀ k s,
      walkTgTreeLoop t start down up (k + N) (.down g) s =
        Walk.andThen (Walk.walk t.children down up n g s)
          (walkTgTreeLoop t start down up k (walkLeft t start g)) := by
  induction n generalizing g with
  | zero =>
      have hle := t.depth_le g
      omega
  | succ n ih =>
      -- Along the list of children, from any of them on.
      have hall : ∀ l' l, t.children g = l ++ l' → ∃ N, ∀ k s,
          walkTgTreeLoop t start down up (k + N) (.forEach g l'.head?) s =
            Walk.andThen (Walk.visitAll (Walk.walk t.children down up n) l' s)
              (walkTgTreeLoop t start down up k (.forEach g none)) := by
        intro l'
        induction l' with
        | nil => exact fun _ _ => ⟨0, fun k s => by simp [Walk.visitAll, Walk.andThen]⟩
        | cons c l' ihl =>
            intro l hl
            have hlevel := t.depth_children g c (by simp [hl])
            have hstart : c ≠ start := by
              rintro rfl
              omega
            obtain ⟨N₁, h₁⟩ := @ih c (by omega) (by omega)
            obtain ⟨N₂, h₂⟩ := ihl (l ++ [c]) (by simp [hl])
            refine ⟨N₂ + N₁ + 1, fun k s => ?_⟩
            rw [List.head?_cons, show k + (N₂ + N₁ + 1) = k + N₂ + N₁ + 1 from by omega, loop_child,
              h₁, walkLeft_child hl hstart, Walk.visitAll, Walk.andThen_assoc]
            exact congrArg _ (funext fun s => h₂ k s)
      obtain ⟨N, hN⟩ := hall (t.children g) [] rfl
      refine ⟨1 + N + 1, fun k s => ?_⟩
      rw [show k + (1 + N + 1) = k + 1 + N + 1 from by omega, loop_down, Walk.walk,
        Walk.andThen_assoc]
      refine congrArg _ (funext fun s => ?_)
      rw [hN, Walk.andThen_assoc]
      exact congrArg _ (funext fun s => loop_end k)

/-- **The iterative walk is the recursive one**, from some amount of fuel on. -/
theorem walkTgTreeFrom_eq (t : TgTree) (start : Gid) (down up : TgVisitor σ) : ∃ N, ∀ fuel, N ≤ fuel →
    ∀ s, walkTgTreeFrom t fuel start down up s =
      Walk.walk t.children down up (t.height + 1) start s := by
  obtain ⟨N, hN⟩ := @exists_rounds σ t start start down up (t.height + 1) le_rfl (by omega)
  refine ⟨N, fun fuel hfuel s => ?_⟩
  obtain ⟨k, rfl⟩ := Nat.exists_eq_add_of_le' hfuel
  have hleft : walkLeft t start start = .out 0 := if_pos rfl
  rw [walkTgTreeFrom, hN, hleft]
  have hout : walkTgTreeLoop t start down up k (.out 0) = Walk.nop start :=
    funext fun s => loop_out k 0
  rw [hout, Walk.andThen_nop]

/-! ### Its callers -/

/-- `__rt_schedulable` walks so. -/
theorem rtSchedulable_eq_walkTgTree (s : TaskGroups) (tgHasRtTasks : Gid → Bool)
    (d : RtSchedulableData) : ∃ N, ∀ fuel, N ≤ fuel → s.rtSchedulable tgHasRtTasks d =
      (walkTgTree s.tree fuel (Walk.test (s.tgRtSchedulable tgHasRtTasks d)) tgNop ()).map
        Prod.fst := by
  obtain ⟨N, hN⟩ := walkTgTreeFrom_eq s.tree s.tree.root
    (Walk.test (s.tgRtSchedulable tgHasRtTasks d)) (@tgNop Unit)
  exact ⟨N, fun fuel hfuel => congrArg (Option.map Prod.fst) (hN fuel hfuel ()).symm⟩

/-- And so does `__cfs_schedulable`. -/
theorem cfsSchedulable_eq_walkTgTree (s : CfsGroups) (tg : Gid) (period quota : BitVec 64) :
    ∃ N, ∀ fuel, N ≤ fuel → s.cfsSchedulable tg period quota =
      walkTgTree s.tree fuel
        (CfsGroups.tgCfsSchedulableDown (CfsGroups.cfsSchedulableData tg period quota)) tgNop s := by
  obtain ⟨N, hN⟩ := walkTgTreeFrom_eq s.tree s.tree.root
    (CfsGroups.tgCfsSchedulableDown (CfsGroups.cfsSchedulableData tg period quota)) tgNop
  exact ⟨N, fun fuel hfuel => (hN fuel hfuel s).symm⟩

/-! ### The traversal -/

/-- A visitor that returns. -/
def always (f : Gid → σ → Int × σ) : TgVisitor σ := fun g s => some (f g s)

/-- The visits of a walk from a group. -/
def TgTree.visits (t : TgTree) (start : Gid) : List (Walk.Visit Gid) :=
  Walk.visits t.children (t.height + 1) start

/-- Visits in depth-first order: every group from the start down, and no other, is there once on the
way down, in pre-order, and once on the way up, in post-order. -/
structure IsDepthFirst (t : TgTree) (start : Gid) (visits : List (Walk.Visit Gid)) : Prop where
  downs : visits.filterMap Walk.Visit.down? = Walk.preorder t.children (t.height + 1) start
  ups : visits.filterMap Walk.Visit.up? = Walk.postorder t.children (t.height + 1) start
  once : (visits.filterMap Walk.Visit.down?).Nodup ∧ (visits.filterMap Walk.Visit.up?).Nodup
  below : ∀ x, (.down x ∈ visits ↔ Walk.Below t.children start x) ∧
    (.up x ∈ visits ↔ Walk.Below t.children start x)

theorem isDepthFirst_visits (t : TgTree) (start : Gid) : IsDepthFirst t start (t.visits start) := by
  have hdowns := Walk.downs_visits t.children (t.height + 1) start
  have hups := Walk.ups_visits t.children (t.height + 1) start
  have hperm := Walk.postorder_perm t.children (t.height + 1) start
  have hfuel : t.height < t.depth start + (t.height + 1) := by omega
  have hparent : ∀ g h c, c ∈ t.children g → c ∈ t.children h → g = h := by
    intro g h c hg hh
    rw [t.mem_children] at hg hh
    exact Option.some.inj (hg.symm.trans hh)
  have hbelow : ∀ x, x ∈ Walk.preorder t.children (t.height + 1) start ↔
      Walk.Below t.children start x := fun x =>
    Walk.mem_preorder t.depth t.height t.depth_children t.depth_le hfuel
  have honce := Walk.nodup_preorder t.depth t.height t.depth_children t.depth_le hfuel hparent
    t.nodup_children
  refine ⟨hdowns, hups, ⟨?_, ?_⟩, fun x => ⟨?_, ?_⟩⟩
  · exact (congrArg List.Nodup hdowns).mpr honce
  · exact (congrArg List.Nodup hups).mpr (hperm.nodup_iff.mpr honce)
  · rw [Walk.Visit.mem_down, TgTree.visits, hdowns]
    exact hbelow x
  · rw [Walk.Visit.mem_up, TgTree.visits, hups, hperm.mem_iff]
    exact hbelow x

/-- **The iterative walk is a depth-first traversal.**  It ends, with what the recursive walk returns
and leaves; it makes the visits in their order, and it is stopped by nothing but a call that returns
something else than zero, which it returns. -/
theorem walkTgTreeFrom_depthFirst (t : TgTree) (start : Gid) (down up : Gid → σ → Int × σ) :
    IsDepthFirst t start (t.visits start) ∧ ∃ N, ∀ fuel, N ≤ fuel → ∀ s, ∃ r,
      walkTgTreeFrom t fuel start (always down) (always up) s = some r ∧
      Walk.walk t.children (always down) (always up) (t.height + 1) start s = some r ∧
      Walk.visitAll (Walk.Visit.call (always down) (always up)) (t.visits start) s = some r ∧
      (r.1 = 0 ∨ ∃ done visit rest s', t.visits start = done ++ visit :: rest ∧
        Walk.visitAll (Walk.Visit.call (always down) (always up)) done s = some (0, s') ∧
        visit.call (always down) (always up) s' = some r) := by
  refine ⟨isDepthFirst_visits t start, ?_⟩
  obtain ⟨N, hN⟩ := walkTgTreeFrom_eq t start (always down) (always up)
  refine ⟨N, fun fuel hfuel s => ?_⟩
  have hreturns : ∀ f : Gid → σ → Int × σ, ∀ g s, True → ∃ r s', always f g s = some (r, s') ∧ True :=
    fun f g s _ => ⟨(f g s).1, (f g s).2, rfl, trivial⟩
  obtain ⟨r, s', hwalk, -⟩ := @Walk.walk_keeps Gid σ t.children _ _ s (fun _ => True)
    (hreturns down) (hreturns up) (t.height + 1) start trivial
  have hvisits : Walk.visitAll (Walk.Visit.call (always down) (always up)) (t.visits start) s =
      some (r, s') := by
    rw [TgTree.visits, ← Walk.walk_eq_visitAll, hwalk]
  exact ⟨(r, s'), (hN fuel hfuel s).trans hwalk, hwalk, hvisits, Walk.visitAll_stopped hvisits⟩

end WrrScheduler
