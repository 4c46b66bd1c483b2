/-
Walks over a tree that stop at the first failure.

A visitor takes a node and a state and returns a code and a new state, or nothing
where it cannot return.  A walk visits a node before its children and once more
after them, and stops when a code is not zero; what the visitors wrote until then
stays.  The tree is given by the children of each node and by a depth that grows
with every step down, and the fuel counts the levels.

Three rules carry the results: what every visit keeps the walk keeps, a walk that
ends well has passed every node, and a walk whose visits agree with a test that
reads no state returns what the walk of the test returns.  A walk is also a list of
visits made one after another, with every node below the start in it twice: on the
way down in pre-order, on the way up in post-order.
-/
import Mathlib.Data.List.Basic
import Mathlib.Data.List.Flatten
import Mathlib.Data.List.Nodup
import Mathlib.Data.List.Perm.Basic

namespace Walk

variable {α σ : Type*}

/-- Go on unless the code is a failure. -/
def andThen (r : Option (Int × σ)) (next : σ → Option (Int × σ)) : Option (Int × σ) :=
  r.bind fun r => if r.1 = 0 then next r.2 else some r

/-- Visit one node after another. -/
def visitAll (f : α → σ → Option (Int × σ)) : List α → σ → Option (Int × σ)
  | [], s => some (0, s)
  | c :: cs, s => andThen (f c s) (visitAll f cs)

/-- Walk a tree: a node, its children, and the node again. -/
def walk (children : α → List α) (down up : α → σ → Option (Int × σ)) :
    Nat → α → σ → Option (Int × σ)
  | 0, _, s => some (0, s)
  | n + 1, g, s => andThen (down g s) fun s =>
      andThen (visitAll (walk children down up n) (children g) s) (up g)

/-- The visitor that does nothing. -/
def nop (_ : α) (s : σ) : Option (Int × σ) := some (0, s)

/-- A test that reads no state, as a visitor. -/
def test (f : α → Option Int) (g : α) (s : σ) : Option (Int × σ) := (f g).map fun r => (r, s)

/-- `x` is `g` or below it. -/
inductive Below (children : α → List α) : α → α → Prop
  | self (g : α) : Below children g g
  | child {g c x : α} : c ∈ children g → Below children c x → Below children g x

variable {children : α → List α} {down up : α → σ → Option (Int × σ)} {n : Nat} {g : α}
  {s s' : σ}

/-! ### Going on -/

theorem andThen_zero {r : Option (Int × σ)} {next : σ → Option (Int × σ)} :
    andThen r next = some (0, s') ↔ ∃ s, r = some (0, s) ∧ next s = some (0, s') := by
  rcases r with _ | ⟨c, t⟩
  · simp [andThen]
  · by_cases hc : c = 0
    · simp [andThen, hc]
    · simp [andThen, hc]

theorem andThen_nop (r : Option (Int × σ)) (g : α) : andThen r (nop g) = r := by
  rcases r with _ | ⟨c, t⟩
  · rfl
  · by_cases hc : c = 0
    · simp [andThen, nop, hc]
    · simp [andThen, hc]

theorem andThen_fst {τ : Type*} {r : Option (Int × σ)} {next : σ → Option (Int × σ)}
    {r' : Option (Int × τ)} {next' : τ → Option (Int × τ)}
    (hr : r.map Prod.fst = r'.map Prod.fst)
    (hnext : ∀ t t', r = some (0, t) → (next t).map Prod.fst = (next' t').map Prod.fst) :
    (andThen r next).map Prod.fst = (andThen r' next').map Prod.fst := by
  rcases r with _ | ⟨c, t⟩
  · rcases r' with _ | ⟨c', t'⟩
    · rfl
    · cases hr
  · rcases r' with _ | ⟨c', t'⟩
    · cases hr
    · obtain rfl : c = c' := Option.some.inj hr
      by_cases hc : c = 0
      · subst hc
        simpa [andThen] using hnext t t' rfl
      · simp [andThen, hc]

theorem walk_succ_nop (n : Nat) (g : α) (s : σ) : walk children down nop (n + 1) g s =
    andThen (down g s) (visitAll (walk children down nop n) (children g)) :=
  congrArg (andThen (down g s)) (funext fun _ => andThen_nop _ g)

/-- What one visitor and the next keep, both together keep. -/
theorem andThen_keeps (P : σ → Prop) {r : Option (Int × σ)} {next : σ → Option (Int × σ)}
    (hr : ∃ c t, r = some (c, t) ∧ P t)
    (hnext : ∀ t, P t → ∃ c t', next t = some (c, t') ∧ P t') :
    ∃ c t, andThen r next = some (c, t) ∧ P t := by
  obtain ⟨c, t, rfl, ht⟩ := hr
  by_cases hc : c = 0
  · obtain ⟨c', t', hstep, ht'⟩ := hnext t ht
    exact ⟨c', t', by simp [andThen, hc, hstep], ht'⟩
  · exact ⟨c, t, by simp [andThen, hc], ht⟩

theorem test_eq_some {f : α → Option Int} {r : Int} :
    test f g s = some (r, s') ↔ f g = some r ∧ s = s' := by
  rw [test, Option.map_eq_some_iff]
  constructor
  · rintro ⟨r, hr, heq⟩
    cases heq
    exact ⟨hr, rfl⟩
  · rintro ⟨hr, rfl⟩
    exact ⟨r, hr, rfl⟩

/-! ### What every visit keeps -/

theorem visitAll_keeps (P : σ → Prop) {f : α → σ → Option (Int × σ)} {l : List α}
    (hf : ∀ c ∈ l, ∀ s, P s → ∃ r s', f c s = some (r, s') ∧ P s') (hs : P s) :
    ∃ r s', visitAll f l s = some (r, s') ∧ P s' := by
  induction l generalizing s with
  | nil => exact ⟨0, s, rfl, hs⟩
  | cons c cs ih =>
      refine andThen_keeps P (hf c List.mem_cons_self s hs) ?_
      intro t ht
      exact ih (fun d hd => hf d (List.mem_cons_of_mem _ hd)) ht

/-- **What every visit keeps the walk keeps**, and it returns if they do. -/
theorem walk_keeps (P : σ → Prop) (hdown : ∀ g s, P s → ∃ r s', down g s = some (r, s') ∧ P s')
    (hup : ∀ g s, P s → ∃ r s', up g s = some (r, s') ∧ P s') (n : Nat) (g : α) (hs : P s) :
    ∃ r s', walk children down up n g s = some (r, s') ∧ P s' := by
  induction n generalizing g s with
  | zero => exact ⟨0, s, rfl, hs⟩
  | succ n ih =>
      refine andThen_keeps P (hdown g s hs) fun t ht => ?_
      refine andThen_keeps P (visitAll_keeps P (fun c _ s hs => ih c hs) ht) (hup g)

/-! ### What a walk that ends well has passed -/

theorem visitAll_zero {f : α → σ → Option (Int × σ)} {l : List α}
    (h : visitAll f l s = some (0, s')) : ∀ c ∈ l, ∃ t t', f c t = some (0, t') := by
  induction l generalizing s with
  | nil => simp
  | cons c cs ih =>
      obtain ⟨t, hc, hcs⟩ := andThen_zero.mp h
      intro d hd
      rcases List.mem_cons.mp hd with rfl | hd
      · exact ⟨s, t, hc⟩
      · exact ih hcs d hd

/-- **A walk that ends well has passed every node**, if the fuel reaches the bottom. -/
theorem passed_of_walk (depth : α → Nat) (height : Nat)
    (hdepth : ∀ g, ∀ c ∈ children g, depth c = depth g + 1) (hheight : ∀ g, depth g ≤ height)
    (hfuel : height < depth g + n) (h : walk children down up n g s = some (0, s')) {x : α}
    (hx : Below children g x) : ∃ t t', down x t = some (0, t') := by
  induction n generalizing g s s' with
  | zero =>
      have hle := hheight g
      omega
  | succ n ih =>
      obtain ⟨t, hg, hrest⟩ := andThen_zero.mp h
      obtain ⟨t', hchildren, -⟩ := andThen_zero.mp hrest
      cases hx with
      | self => exact ⟨s, t, hg⟩
      | child hc hx =>
          obtain ⟨u, u', hwalk⟩ := visitAll_zero hchildren _ hc
          have hlevel := hdepth _ _ hc
          exact ih (by omega) hwalk hx

/-! ### Visits that agree with a test

The visitors may write, so a test that reads no state can agree with them only where
what they read has been written.  `Ready` is that condition: a visit makes it true of
the children, and no visit at the depth of a node or below it makes it false, so it
holds when the walk gets there.
-/

theorem andThen_of (P : σ → Prop) {r : Option (Int × σ)} {next : σ → Option (Int × σ)} {c : Int}
    (hr : ∀ c t, r = some (c, t) → P t) (hnext : ∀ t c t', P t → next t = some (c, t') → P t')
    (h : andThen r next = some (c, s')) : P s' := by
  rcases r with _ | ⟨d, t⟩
  · cases h
  · have ht : P t := hr d t rfl
    by_cases hd : d = 0
    · simp only [andThen, Option.bind_some, hd, if_true] at h
      exact hnext t c s' ht h
    · simp only [andThen, Option.bind_some, hd, if_false, Option.some.injEq, Prod.mk.injEq] at h
      rwa [h.2] at ht

/-- What no visit at the depth of a node or below it changes, the walk from there does not. -/
theorem walk_of (depth : α → Nat) (hdepth : ∀ g, ∀ c ∈ children g, depth c = depth g + 1)
    (P : σ → Prop) {d : Nat}
    (hkeep : ∀ x s r s', d ≤ depth x → P s → down x s = some (r, s') → P s') {r : Int}
    (hg : d ≤ depth g) (hs : P s) (h : walk children down nop n g s = some (r, s')) : P s' := by
  induction n generalizing g s s' r with
  | zero =>
      cases h
      exact hs
  | succ n ih =>
      rw [walk_succ_nop] at h
      have hall : ∀ (l : List α), (∀ c ∈ l, depth c = depth g + 1) → ∀ t r t', P t →
          visitAll (walk children down nop n) l t = some (r, t') → P t' := by
        intro l
        induction l with
        | nil =>
            intro _ t r t' ht hl
            cases hl
            exact ht
        | cons c cs ihl =>
            intro hc t r t' ht hl
            have hlevel := hc c List.mem_cons_self
            refine andThen_of P ?_ (ihl fun e he => hc e (List.mem_cons_of_mem _ he)) hl
            intro _ u hu
            exact ih (by omega) ht hu
      refine andThen_of P ?_ (hall _ (hdepth g)) h
      intro c t hdown
      exact hkeep g s c t hg hs hdown

/-- **A walk whose visits agree with a test returns what the test returns.**  A node is ready once
its visit is sure to agree; passing a node makes its children ready, and no visit at its depth or
below makes it unready. -/
theorem walk_eq_test (depth : α → Nat) (hdepth : ∀ g, ∀ c ∈ children g, depth c = depth g + 1)
    (Ready : α → σ → Prop) (f : α → Option Int)
    (hagree : ∀ g s, Ready g s → (down g s).map Prod.fst = f g ∧
      ∀ s', down g s = some (0, s') → ∀ c ∈ children g, Ready c s')
    (hkeep : ∀ c x s r s', depth c ≤ depth x → Ready c s → down x s = some (r, s') → Ready c s')
    (n : Nat) (g : α) (hs : Ready g s) :
    (walk children down nop n g s).map Prod.fst =
      (walk children (test f) nop n g ()).map Prod.fst := by
  induction n generalizing g s with
  | zero => rfl
  | succ n ih =>
      have hall : ∀ (l : List α), (∀ c ∈ l, depth c = depth g + 1) → ∀ t, (∀ c ∈ l, Ready c t) →
          (visitAll (walk children down nop n) l t).map Prod.fst =
            (visitAll (walk children (test f) nop n) l ()).map Prod.fst := by
        intro l
        induction l with
        | nil => exact fun _ _ _ => rfl
        | cons c cs ihl =>
            intro hc t ht
            refine andThen_fst (ih c (ht c List.mem_cons_self)) fun u _ hu => ?_
            refine ihl (fun d hd => hc d (List.mem_cons_of_mem _ hd)) u fun d hd => ?_
            have hfirst := hc c List.mem_cons_self
            have hother := hc d (List.mem_cons_of_mem _ hd)
            have hsame : depth d ≤ depth c := by omega
            exact walk_of depth hdepth (Ready d) (hkeep d) hsame
              (ht d (List.mem_cons_of_mem _ hd)) hu
      rw [walk_succ_nop, walk_succ_nop]
      obtain ⟨hfst, hready⟩ := hagree g s hs
      refine andThen_fst ?_ fun t _ ht => hall _ (hdepth g) t (hready t ht)
      rw [hfst, test, Option.map_map]
      exact (Option.map_id' ).symm

/-! ### The order of the visits

A walk that is not stopped makes a fixed list of visits, and one that is makes a
beginning of it. So what is said about the order is said about the list, without the
visitors.
-/

/-- A node on the way down, or on the way up. -/
inductive Visit (α : Type*)
  | down (g : α)
  | up (g : α)
  deriving DecidableEq, Repr

namespace Visit

/-- Call the visitor of a visit. -/
def call (down up : α → σ → Option (Int × σ)) : Visit α → σ → Option (Int × σ)
  | .down g => down g
  | .up g => up g

def down? : Visit α → Option α
  | .down g => some g
  | .up _ => none

def up? : Visit α → Option α
  | .down _ => none
  | .up g => some g

variable {l : List (Visit α)} {x : α}

theorem mem_down : .down x ∈ l ↔ x ∈ l.filterMap down? := by
  rw [List.mem_filterMap]
  constructor
  · exact fun hx => ⟨_, hx, rfl⟩
  · rintro ⟨_ | _, hv, hx⟩ <;> cases hx
    exact hv

theorem mem_up : .up x ∈ l ↔ x ∈ l.filterMap up? := by
  rw [List.mem_filterMap]
  constructor
  · exact fun hx => ⟨_, hx, rfl⟩
  · rintro ⟨_ | _, hv, hx⟩ <;> cases hx
    exact hv

end Visit

/-- The visits of a walk that nothing stops, in their order. -/
def visits (children : α → List α) : Nat → α → List (Visit α)
  | 0, _ => []
  | n + 1, g => .down g :: ((children g).flatMap (visits children n) ++ [.up g])

/-- The nodes below one, each before those below it. -/
def preorder (children : α → List α) : Nat → α → List α
  | 0, _ => []
  | n + 1, g => g :: (children g).flatMap (preorder children n)

/-- The nodes below one, each after those below it. -/
def postorder (children : α → List α) : Nat → α → List α
  | 0, _ => []
  | n + 1, g => (children g).flatMap (postorder children n) ++ [g]

theorem andThen_assoc (r : Option (Int × σ)) (f g : σ → Option (Int × σ)) :
    andThen (andThen r f) g = andThen r fun s => andThen (f s) g := by
  rcases r with _ | ⟨c, t⟩
  · rfl
  · by_cases hc : c = 0
    · simp [andThen, hc]
    · simp [andThen, hc]

theorem visitAll_append {β : Type*} (f : β → σ → Option (Int × σ)) (l l' : List β) (s : σ) :
    visitAll f (l ++ l') s = andThen (visitAll f l s) (visitAll f l') := by
  induction l generalizing s with
  | nil => simp [visitAll, andThen]
  | cons b l ih =>
      show andThen (f b s) (visitAll f (l ++ l')) = andThen (andThen (f b s) (visitAll f l)) _
      rw [andThen_assoc]
      exact congrArg (andThen (f b s)) (funext ih)

/-- What stops the visits is the first that fails, and its code is returned. -/
theorem visitAll_stopped {β : Type*} {f : β → σ → Option (Int × σ)} {l : List β} {r : Int × σ}
    (h : visitAll f l s = some r) : r.1 = 0 ∨ ∃ l₁ b l₂ u, l = l₁ ++ b :: l₂ ∧
      visitAll f l₁ s = some (0, u) ∧ f b u = some r := by
  induction l generalizing s with
  | nil =>
      cases h
      exact Or.inl rfl
  | cons b l ih =>
      rcases hb : f b s with _ | ⟨c, u⟩
      · rw [visitAll, hb] at h
        cases h
      · rw [visitAll, hb] at h
        by_cases hc : c = 0
        · subst hc
          rcases ih (by simpa [andThen] using h) with hzero | ⟨l₁, d, l₂, v, rfl, hvisits, hd⟩
          · exact Or.inl hzero
          · exact Or.inr ⟨b :: l₁, d, l₂, v, rfl, by simp [visitAll, andThen, hb, hvisits], hd⟩
        · have hr : (c, u) = r := by simpa [andThen, hc] using h
          exact Or.inr ⟨[], b, l, s, rfl, rfl, by rw [hb, hr]⟩

theorem visitAll_flatMap {β : Type*} (f : β → σ → Option (Int × σ)) (k : α → List β) (l : List α)
    (s : σ) : visitAll f (l.flatMap k) s = visitAll (fun c => visitAll f (k c)) l s := by
  induction l generalizing s with
  | nil => rfl
  | cons c l ih =>
      rw [List.flatMap_cons, visitAll_append]
      exact congrArg (andThen (visitAll f (k c) s)) (funext ih)

/-- **A walk makes its visits one after another**, up to the first that fails. -/
theorem walk_eq_visitAll (children : α → List α) (down up : α → σ → Option (Int × σ)) (n : Nat)
    (g : α) (s : σ) :
    walk children down up n g s = visitAll (Visit.call down up) (visits children n g) s := by
  induction n generalizing g s with
  | zero => rfl
  | succ n ih =>
      have hwalk : walk children down up n =
          fun c => visitAll (Visit.call down up) (visits children n c) :=
        funext fun c => funext fun t => ih c t
      show andThen (down g s) _ = andThen (down g s) _
      refine congrArg (andThen (down g s)) (funext fun t => ?_)
      rw [visitAll_append, visitAll_flatMap, hwalk]
      refine congrArg (andThen _) (funext fun u => ?_)
      show up g u = andThen (up g u) fun s => some (0, s)
      exact (andThen_nop (up g u) g).symm

theorem downs_visits (children : α → List α) (n : Nat) (g : α) :
    (visits children n g).filterMap Visit.down? = preorder children n g := by
  induction n generalizing g with
  | zero => rfl
  | succ n ih =>
      have hchildren : ∀ l : List α, (l.flatMap (visits children n)).filterMap Visit.down? =
          l.flatMap (preorder children n) := by
        intro l
        rw [List.filterMap_flatMap]
        exact List.flatMap_congr fun c _ => ih c
      have hdown : Visit.down? (.down g) = some g := rfl
      rw [visits, List.filterMap_cons_some hdown, List.filterMap_append, hchildren]
      exact congrArg (List.cons g) (List.append_nil _)

theorem ups_visits (children : α → List α) (n : Nat) (g : α) :
    (visits children n g).filterMap Visit.up? = postorder children n g := by
  induction n generalizing g with
  | zero => rfl
  | succ n ih =>
      have hchildren : ∀ l : List α, (l.flatMap (visits children n)).filterMap Visit.up? =
          l.flatMap (postorder children n) := by
        intro l
        rw [List.filterMap_flatMap]
        exact List.flatMap_congr fun c _ => ih c
      rw [visits, List.filterMap_cons_none rfl, List.filterMap_append, hchildren]
      rfl

/-- A node is passed as often on the way up as on the way down. -/
theorem postorder_perm (children : α → List α) (n : Nat) (g : α) :
    (postorder children n g).Perm (preorder children n g) := by
  induction n generalizing g with
  | zero => exact .refl _
  | succ n ih =>
      have hchildren : ((children g).flatMap (postorder children n)).Perm
          ((children g).flatMap (preorder children n)) := .flatMap_left _ fun c _ => ih c
      exact (List.perm_append_singleton _ _).trans (hchildren.cons g)

section Tree

variable (depth : α → Nat) (height : Nat)

theorem depth_le_of_below (hdepth : ∀ g, ∀ c ∈ children g, depth c = depth g + 1) {x : α}
    (hx : Below children g x) : depth g ≤ depth x := by
  induction hx with
  | self => exact Nat.le_refl _
  | child hc _ ih =>
      have hlevel := hdepth _ _ hc
      omega

/-- The last step of the way down to a node. -/
theorem Below.last {x : α} (hx : Below children g x) :
    x = g ∨ ∃ p, x ∈ children p ∧ Below children g p := by
  induction hx with
  | self => exact Or.inl rfl
  | @child g c x hc _ ih =>
      rcases ih with rfl | ⟨p, hp, hbelow⟩
      · exact Or.inr ⟨g, hc, .self g⟩
      · exact Or.inr ⟨p, hp, .child hc hbelow⟩

/-- Two nodes of one level have nothing below them in common. -/
theorem Below.unique (hdepth : ∀ g, ∀ c ∈ children g, depth c = depth g + 1)
    (hparent : ∀ g h c, c ∈ children g → c ∈ children h → g = h) {c d x : α}
    (hlevel : depth c = depth d) (hc : Below children c x) (hd : Below children d x) : c = d := by
  induction hx : depth x generalizing x with
  | zero =>
      rcases hc.last with rfl | ⟨p, hp, -⟩
      · rcases hd.last with rfl | ⟨q, hq, -⟩
        · rfl
        · have hone := hdepth _ _ hq
          omega
      · have hone := hdepth _ _ hp
        omega
  | succ n ih =>
      rcases hc.last with rfl | ⟨p, hp, hcp⟩
      · rcases hd.last with rfl | ⟨q, hq, hdq⟩
        · rfl
        · have hone := hdepth _ _ hq
          have hle := depth_le_of_below depth hdepth hdq
          omega
      · have hone := hdepth _ _ hp
        rcases hd.last with rfl | ⟨q, hq, hdq⟩
        · have hle := depth_le_of_below depth hdepth hcp
          omega
        · obtain rfl := hparent _ _ _ hp hq
          exact ih hcp hdq (by omega)

/-- **The walk passes what is below its start**, if the fuel reaches the bottom. -/
theorem mem_preorder (hdepth : ∀ g, ∀ c ∈ children g, depth c = depth g + 1)
    (hheight : ∀ g, depth g ≤ height) (hfuel : height < depth g + n) {x : α} :
    x ∈ preorder children n g ↔ Below children g x := by
  induction n generalizing g with
  | zero =>
      have hle := hheight g
      omega
  | succ n ih =>
      have hbelow : ∀ c ∈ children g, (x ∈ preorder children n c ↔ Below children c x) := by
        intro c hc
        have hlevel := hdepth _ _ hc
        exact ih (by omega)
      rw [preorder, List.mem_cons, List.mem_flatMap]
      constructor
      · rintro (rfl | ⟨c, hc, hx⟩)
        · exact .self _
        · exact .child hc ((hbelow c hc).mp hx)
      · intro hx
        cases hx with
        | self => exact Or.inl rfl
        | child hc hx => exact Or.inr ⟨_, hc, (hbelow _ hc).mpr hx⟩

/-- **It passes each of them once.** -/
theorem nodup_preorder (hdepth : ∀ g, ∀ c ∈ children g, depth c = depth g + 1)
    (hheight : ∀ g, depth g ≤ height) (hfuel : height < depth g + n)
    (hparent : ∀ g h c, c ∈ children g → c ∈ children h → g = h)
    (hnodup : ∀ g, (children g).Nodup) : (preorder children n g).Nodup := by
  induction n generalizing g with
  | zero => exact List.nodup_nil
  | succ n ih =>
      have hbelow : ∀ c ∈ children g, ∀ x, (x ∈ preorder children n c ↔ Below children c x) := by
        intro c hc x
        have hlevel := hdepth _ _ hc
        exact mem_preorder depth height hdepth hheight (by omega)
      rw [preorder, List.nodup_cons, List.nodup_flatMap]
      refine ⟨?_, ?_, ?_⟩
      · intro hg
        obtain ⟨c, hc, hg⟩ := List.mem_flatMap.mp hg
        have hlevel := hdepth _ _ hc
        have hle := depth_le_of_below depth hdepth ((hbelow c hc g).mp hg)
        omega
      · intro c hc
        have hlevel := hdepth _ _ hc
        exact ih (by omega)
      · refine (hnodup g).pairwise_of_forall_ne fun c hc d hd hne => ?_
        intro x hxc hxd
        have hlevel : depth c = depth d := (hdepth _ _ hc).trans (hdepth _ _ hd).symm
        exact hne (Below.unique depth hdepth hparent hlevel ((hbelow c hc x).mp hxc)
          ((hbelow d hd x).mp hxd))

end Tree

end Walk
