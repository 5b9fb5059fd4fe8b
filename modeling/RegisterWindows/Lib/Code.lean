import Mathlib.Algebra.BigOperators.Group.Finset.Basic
import Mathlib.Data.Option.Basic

variable {ι κ σ τ : Type*}

/-- What the pieces of code do to a machine. -/
structure Code.Ops (ι κ σ : Type*) where
  step : σ → ι → σ
  holds : σ → κ → Bool
  /-- The machine takes a trap. -/
  enter : σ → σ
  /-- From the states at the two ends of the handler to the one the trapped code goes on in, if
  the handler returns to it. -/
  leave : σ → σ → Option σ

inductive Code (ι κ : Type*) where
  | block (is : List ι)
  | seq (a b : Code ι κ)
  | branch (c : κ) (a b : Code ι κ)
  /-- `head`, then the exit if `c` holds and else `body` and the same again, `n` times at most. -/
  | loop (n : Nat) (head : Code ι κ) (c : κ) (body : Code ι κ)
  | trap (handler : Code ι κ)
  /-- Code that does not come back. -/
  | stop

namespace Code

def again (head body : σ → Option σ) (exit : σ → Bool) : Nat → σ → Option σ
  | 0, _ => none
  | n + 1, s =>
    (head s).bind fun t => if exit t then some t else (body t).bind (again head body exit n)

def exec (O : Ops ι κ σ) : Code ι κ → σ → Option σ
  | block is, s => some (is.foldl O.step s)
  | seq a b, s => (a.exec O s).bind (b.exec O)
  | branch c a b, s => if O.holds s c then a.exec O s else b.exec O s
  | loop n head c body, s => again (head.exec O) (body.exec O) (O.holds · c) n s
  | trap handler, s => (handler.exec O (O.enter s)).bind (O.leave (O.enter s))
  | stop, _ => none

/-- The code comes to its end, in a state where `Q` holds. -/
def Ends (O : Ops ι κ σ) (c : Code ι κ) (s : σ) (Q : σ → Prop) : Prop :=
  ∃ t, c.exec O s = some t ∧ Q t

section
variable {O : Ops ι κ σ} {a b : Code ι κ} {c : κ} {s : σ} {P Q : σ → Prop}

theorem Ends.mono (h : Ends O a s P) (hpq : ∀ t, P t → Q t) : Ends O a s Q := by
  obtain ⟨t, ht, hp⟩ := h
  exact ⟨t, ht, hpq t hp⟩

theorem ends_block {is : List ι} : Ends O (block is) s Q ↔ Q (is.foldl O.step s) := by
  constructor
  · rintro ⟨t, ⟨⟩, hq⟩
    exact hq
  · intro hq
    exact ⟨_, rfl, hq⟩

theorem ends_seq : Ends O (seq a b) s Q ↔ Ends O a s fun t => Ends O b t Q := by
  constructor
  · rintro ⟨u, hu, hq⟩
    obtain ⟨t, ht, hu⟩ := Option.bind_eq_some_iff.mp hu
    exact ⟨t, ht, u, hu, hq⟩
  · rintro ⟨t, ht, u, hu, hq⟩
    exact ⟨u, Option.bind_eq_some_iff.mpr ⟨t, ht, hu⟩, hq⟩

theorem Ends.seq (ha : Ends O a s P) (hb : ∀ t, P t → Ends O b t Q) : Ends O (seq a b) s Q :=
  ends_seq.mpr (ha.mono hb)

theorem ends_branch :
    Ends O (branch c a b) s Q ↔ if O.holds s c then Ends O a s Q else Ends O b s Q := by
  unfold Ends
  simp only [exec]
  split <;> rfl

theorem Ends.trap {handler : Code ι κ} (h : Ends O handler (O.enter s) P)
    (hleave : ∀ t, P t → ∃ u, O.leave (O.enter s) t = some u ∧ Q u) :
    Ends O (trap handler) s Q := by
  obtain ⟨t, ht, hp⟩ := h
  obtain ⟨u, hu, hq⟩ := hleave t hp
  exact ⟨u, Option.bind_eq_some_iff.mpr ⟨t, ht, hu⟩, hq⟩

/-- `I k` holds before the head when the exit is still `k` rounds away. -/
theorem Ends.loop {n : Nat} {head body : Code ι κ} (I : Nat → σ → Prop)
    (hend : ∀ s, I 0 s → Ends O head s fun t => O.holds t c = true ∧ Q t)
    (hstep : ∀ k s, I (k + 1) s →
      Ends O head s fun t => O.holds t c = false ∧ Ends O body t (I k))
    {k : Nat} (hk : k < n) (h : I k s) : Ends O (loop n head c body) s Q := by
  unfold Ends
  simp only [exec]
  induction k generalizing n s with
  | zero =>
    obtain ⟨t, ht, hc, hq⟩ := hend s h
    obtain ⟨m, rfl⟩ := Nat.exists_eq_succ_of_ne_zero (Nat.ne_of_gt hk)
    exact ⟨t, by simp only [again, ht, Option.bind_some, hc, if_true], hq⟩
  | succ k ih =>
    obtain ⟨t, ht, hc, u, hu, hi⟩ := hstep k s h
    obtain ⟨m, rfl⟩ := Nat.exists_eq_succ_of_ne_zero (Nat.ne_of_gt (Nat.zero_lt_of_lt hk))
    obtain ⟨v, hv, hq⟩ := ih (Nat.lt_of_succ_lt_succ hk) hi
    refine ⟨v, ?_, hq⟩
    simp only [again, ht, Option.bind_some, hc, Bool.false_eq_true, if_false, hu]
    exact hv

end

/-- `n` rounds of a piece of code. -/
def rounds (O : Ops ι κ σ) (c : Code ι κ) : Nat → σ → Option σ
  | 0, s => some s
  | n + 1, s => (rounds O c n s).bind (c.exec O)

/-- What each round takes one step further holds after any number of them. -/
theorem rounds_ends {O : Ops ι κ σ} {c : Code ι κ} {s : σ} (I : Nat → σ → Prop) (h : I 0 s)
    (hstep : ∀ k t, I k t → Ends O c t (I (k + 1))) (n : Nat) :
    ∃ t, rounds O c n s = some t ∧ I n t := by
  induction n with
  | zero => exact ⟨s, rfl, h⟩
  | succ n ih =>
    obtain ⟨t, ht, hi⟩ := ih
    obtain ⟨u, hu, hi'⟩ := hstep n t hi
    exact ⟨u, Option.bind_eq_some_iff.mpr ⟨t, ht, hu⟩, hi'⟩

/-- `init`, and then `n` rounds of `body`. -/
def after (O : Ops ι κ σ) (init body : Code ι κ) (n : Nat) (s : σ) : Option σ :=
  (init.exec O s).bind (rounds O body n)

theorem after_succ (O : Ops ι κ σ) (init body : Code ι κ) (n : Nat) (s : σ) :
    after O init body (n + 1) s = (after O init body n s).bind (body.exec O) :=
  (Option.bind_assoc _ _ _).symm

theorem after_zero (O : Ops ι κ σ) (init body : Code ι κ) (s : σ) :
    after O init body 0 s = init.exec O s :=
  Option.bind_fun_some _

theorem after_ends {O : Ops ι κ σ} {init body : Code ι κ} {s : σ} (I : Nat → σ → Prop)
    (h : Ends O init s (I 0)) (hstep : ∀ k t, I k t → Ends O body t (I (k + 1))) (n : Nat) :
    ∃ t, after O init body n s = some t ∧ I n t := by
  obtain ⟨u, hu, hi⟩ := h
  obtain ⟨t, ht, hi'⟩ := rounds_ends I hi hstep n
  exact ⟨t, Option.bind_eq_some_iff.mpr ⟨u, hu, ht⟩, hi'⟩

/-- The sum of `f` over the states in which the first `n` rounds begin. -/
def total {M : Type*} [AddCommMonoid M] (O : Ops ι κ σ) (init body : Code ι κ) (f : σ → M) (s : σ)
    (n : Nat) : M :=
  ∑ k ∈ Finset.range n, ((after O init body k s).map f).getD 0

theorem total_succ {M : Type*} [AddCommMonoid M] {O : Ops ι κ σ} {init body : Code ι κ}
    {f : σ → M} {s t : σ} {n : Nat} (h : after O init body n s = some t) :
    total O init body f s (n + 1) = total O init body f s n + f t := by
  unfold total
  rw [Finset.sum_range_succ, h]
  rfl

/-- `g` accumulates `f`. -/
theorem total_ends {M : Type*} [AddCommMonoid M] {O : Ops ι κ σ} {init body : Code ι κ} {s : σ}
    (I : Nat → σ → Prop) (f g : σ → M) (h : Ends O init s fun t => I 0 t ∧ g t = 0)
    (hstep : ∀ k t, I k t → Ends O body t fun u => I (k + 1) u ∧ g u = g t + f t) (n : Nat) :
    ∃ t, after O init body n s = some t ∧ I n t ∧ g t = total O init body f s n := by
  induction n with
  | zero =>
    obtain ⟨t, ht, hi, hg⟩ := h
    exact ⟨t, Option.bind_eq_some_iff.mpr ⟨t, ht, rfl⟩, hi, hg⟩
  | succ n ih =>
    obtain ⟨t, ht, hi, hg⟩ := ih
    obtain ⟨u, hu, hi', hg'⟩ := hstep n t hi
    refine ⟨u, ?_, hi', ?_⟩
    · rw [after_succ, ht]
      exact hu
    · rw [total_succ ht, hg', hg]

theorem total_eq_iff {M : Type*} [AddCommMonoid M] [IsLeftCancelAdd M] {O : Ops ι κ σ}
    {init body : Code ι κ} {f g : σ → M} {s : σ} (h : ∀ n, ∃ t, after O init body n s = some t)
    (n : Nat) :
    (∀ k ≤ n, total O init body f s k = total O init body g s k) ↔
      ∀ k < n, ∀ t, after O init body k s = some t → f t = g t := by
  constructor
  · intro heq k hk t ht
    have hsucc := heq (k + 1) hk
    rw [total_succ ht, total_succ ht, heq k hk.le] at hsucc
    exact add_left_cancel hsucc
  · intro heq k hk
    refine Finset.sum_congr rfl fun j hj => ?_
    obtain ⟨t, ht⟩ := h j
    rw [ht]
    exact heq j ((Finset.mem_range.mp hj).trans_le hk) t ht

/-- After one round in which they differ, `f'` is not what has been accumulated. -/
theorem not_accumulates {M : Type*} [AddCommMonoid M] [IsLeftCancelAdd M] {O : Ops ι κ σ}
    {init body : Code ι κ} {f f' g : σ → M} {s t u : σ} (ht : after O init body 0 s = some t)
    (hu : after O init body 1 s = some u ∧ g u = total O init body f s 1) (hne : f t ≠ f' t) :
    g u ≠ total O init body f' s 1 := by
  intro h
  have heq := hu.2.symm.trans h
  rw [total_succ ht, total_succ ht] at heq
  exact hne (add_left_cancel heq)

/-- `g` accumulates `f`; it accumulates `f'` as well while the two agree wherever a round begins,
which is where `P` holds. -/
theorem accumulates_iff {M : Type*} [AddCommMonoid M] [IsLeftCancelAdd M] {O : Ops ι κ σ}
    {init body : Code ι κ} {f f' g : σ → M} {P : σ → Prop} {s : σ}
    (h : ∀ n, ∃ t, after O init body n s = some t ∧ g t = total O init body f s n)
    (hP : ∀ t, f t = f' t ↔ P t) (n : Nat) :
    (∀ k ≤ n, ∃ t, after O init body k s = some t ∧ g t = total O init body f' s k) ↔
      ∀ k < n, ∃ t, after O init body k s = some t ∧ P t := by
  have heq : (∀ k ≤ n, total O init body f s k = total O init body f' s k) ↔
      ∀ k < n, ∀ t, after O init body k s = some t → f t = f' t :=
    total_eq_iff (fun k => (h k).imp fun _ ht => ht.1) n
  constructor
  · intro h' k hk
    obtain ⟨t, ht, -⟩ := h k
    refine ⟨t, ht, (hP t).mp (heq.mp (fun j hj => ?_) k hk t ht)⟩
    obtain ⟨u, hu, hg⟩ := h j
    obtain ⟨v, hv, hg'⟩ := h' j hj
    cases hu.symm.trans hv
    exact hg.symm.trans hg'
  · intro h' k hk
    obtain ⟨t, ht, hg⟩ := h k
    refine ⟨t, ht, hg.trans (heq.mpr (fun j hj u hu => ?_) k hk)⟩
    obtain ⟨v, hv, hp⟩ := h' j hj
    cases hu.symm.trans hv
    exact (hP u).mpr hp

/-- The code has no trap in it, and every instruction of it is safe. -/
def plain (safe : ι → Bool) : Code ι κ → Bool
  | block is => is.all safe
  | seq a b => a.plain safe && b.plain safe
  | branch _ a b => a.plain safe && b.plain safe
  | loop _ head _ body => head.plain safe && body.plain safe
  | trap _ => false
  | stop => true

/-- Every handler in the code is plain. -/
def handled (safe : ι → Bool) : Code ι κ → Bool
  | block _ => true
  | seq a b => a.handled safe && b.handled safe
  | branch _ a b => a.handled safe && b.handled safe
  | loop _ head _ body => head.handled safe && body.handled safe
  | trap handler => handler.plain safe
  | stop => true

/-- `view` sees all that the code depends on, as long as `P` holds; between a trap and the return
from it `H` holds too, if the handler is made of safe instructions. -/
structure Views (O : Ops ι κ σ) (O' : Ops ι κ τ) (view : σ → τ) (P H : σ → Prop)
    (safe : ι → Bool) : Prop where
  step : ∀ s i, P s → view (O.step s i) = O'.step (view s) i ∧ P (O.step s i)
  holds : ∀ s c, P s → O.holds s c = O'.holds (view s) c
  enter : ∀ s, P s → view (O.enter s) = O'.enter (view s) ∧ P (O.enter s) ∧ H (O.enter s)
  handler : ∀ s i, P s → H s → safe i = true → H (O.step s i)
  leave : ∀ s t, P s → P t → H t →
    (O.leave s t).map view = O'.leave (view s) (view t) ∧ ∀ u, O.leave s t = some u → P u

namespace Views
variable {O : Ops ι κ σ} {O' : Ops ι κ τ} {view : σ → τ} {P H : σ → Prop} {safe : ι → Bool}
  {I : σ → Prop}

theorem block (safe : ι → Bool)
    (hstep : ∀ s i, I s → safe i = true → view (O.step s i) = O'.step (view s) i ∧ I (O.step s i))
    (is : List ι) (his : is.all safe = true) {s : σ} (h : I s) :
    view (is.foldl O.step s) = is.foldl O'.step (view s) ∧ I (is.foldl O.step s) := by
  induction is generalizing s with
  | nil => exact ⟨rfl, h⟩
  | cons i is ih =>
    obtain ⟨hsafe, his⟩ := Bool.and_eq_true_iff.mp his
    obtain ⟨hv, hi⟩ := hstep s i h hsafe
    simp only [List.foldl_cons, ← hv]
    exact ih his hi

/-- A piece of code that the view follows, from the states in which `I` holds. -/
def Follows (O : Ops ι κ σ) (O' : Ops ι κ τ) (view : σ → τ) (I : σ → Prop) (c : Code ι κ) : Prop :=
  ∀ s, I s → (c.exec O s).map view = c.exec O' (view s) ∧ ∀ t, c.exec O s = some t → I t

theorem bind {f g : σ → Option σ} {f' g' : τ → Option τ}
    (hf : ∀ s, I s → (f s).map view = f' (view s) ∧ ∀ t, f s = some t → I t)
    (hg : ∀ s, I s → (g s).map view = g' (view s) ∧ ∀ t, g s = some t → I t) {s : σ} (h : I s) :
    ((f s).bind g).map view = (f' (view s)).bind g' ∧ ∀ t, (f s).bind g = some t → I t := by
  obtain ⟨hv, hi⟩ := hf s h
  cases hs : f s with
  | none =>
    rw [hs] at hv
    rw [← hv]
    exact ⟨rfl, nofun⟩
  | some t =>
    rw [hs] at hv
    rw [← hv]
    exact hg t (hi t hs)

theorem loop {head body : Code ι κ} {c : κ} (n : Nat)
    (hholds : ∀ s, I s → O.holds s c = O'.holds (view s) c)
    (hhead : Follows O O' view I head) (hbody : Follows O O' view I body) :
    Follows O O' view I (loop n head c body) := by
  unfold Follows
  simp only [exec]
  induction n with
  | zero => exact fun s _ => ⟨rfl, nofun⟩
  | succ n ih =>
    intro s h
    refine bind hhead (fun t ht => ?_) h
    simp only [hholds t ht]
    split
    · exact ⟨rfl, fun u hu => by cases hu; exact ht⟩
    · exact bind hbody ih ht

theorem plain
    (hstep : ∀ s i, I s → safe i = true → view (O.step s i) = O'.step (view s) i ∧ I (O.step s i))
    (hholds : ∀ s c, I s → O.holds s c = O'.holds (view s) c) (c : Code ι κ)
    (hc : c.plain safe = true) :
    Follows O O' view I c := by
  induction c with
  | block is =>
    intro s h
    obtain ⟨hv, hi⟩ := block safe hstep is hc h
    exact ⟨congrArg some hv, fun t ht => by cases ht; exact hi⟩
  | seq a b iha ihb =>
    obtain ⟨ha, hb⟩ := Bool.and_eq_true_iff.mp hc
    exact fun s h => bind (iha ha) (ihb hb) h
  | branch c a b iha ihb =>
    obtain ⟨ha, hb⟩ := Bool.and_eq_true_iff.mp hc
    intro s h
    simp only [exec, hholds s c h]
    split
    · exact iha ha s h
    · exact ihb hb s h
  | loop n head c body ihh ihb =>
    obtain ⟨hh, hb⟩ := Bool.and_eq_true_iff.mp hc
    exact loop n (hholds · c) (ihh hh) (ihb hb)
  | trap handler => exact absurd hc Bool.false_ne_true
  | stop => exact fun s _ => ⟨rfl, nofun⟩

theorem exec (hv : Views O O' view P H safe) (c : Code ι κ) (hc : c.handled safe = true) :
    Follows O O' view P c := by
  induction c with
  | block is =>
    intro s h
    obtain ⟨hb, hi⟩ := block (fun _ => true) (fun s i h _ => hv.step s i h) is
      (List.all_eq_true.mpr fun _ _ => rfl) h
    exact ⟨congrArg some hb, fun t ht => by cases ht; exact hi⟩
  | seq a b iha ihb =>
    obtain ⟨ha, hb⟩ := Bool.and_eq_true_iff.mp hc
    exact fun s h => bind (iha ha) (ihb hb) h
  | branch c a b iha ihb =>
    obtain ⟨ha, hb⟩ := Bool.and_eq_true_iff.mp hc
    intro s h
    simp only [Code.exec, hv.holds s c h]
    split
    · exact iha ha s h
    · exact ihb hb s h
  | loop n head c body ihh ihb =>
    obtain ⟨hh, hb⟩ := Bool.and_eq_true_iff.mp hc
    exact loop n (hv.holds · c) (ihh hh) (ihb hb)
  | trap handler =>
    intro s h
    obtain ⟨he, hp, hh⟩ := hv.enter s h
    have hrun := plain (I := fun s => P s ∧ H s)
      (fun s i hs hi => ⟨(hv.step s i hs.1).1, (hv.step s i hs.1).2, hv.handler s i hs.1 hs.2 hi⟩)
      (fun s c hs => hv.holds s c hs.1) handler hc (O.enter s) ⟨hp, hh⟩
    simp only [Code.exec, ← he]
    cases ht : handler.exec O (O.enter s) with
    | none =>
      rw [ht] at hrun
      rw [← hrun.1]
      exact ⟨rfl, nofun⟩
    | some t =>
      rw [ht] at hrun
      rw [← hrun.1]
      obtain ⟨hpt, hht⟩ := hrun.2 t rfl
      exact hv.leave (O.enter s) t hp hpt hht
  | stop => exact fun s _ => ⟨rfl, nofun⟩

theorem rounds (hv : Views O O' view P H safe) {c : Code ι κ} (hc : c.handled safe = true)
    (n : Nat) :
    ∀ s, P s → (rounds O c n s).map view = rounds O' c n (view s) ∧
      ∀ t, Code.rounds O c n s = some t → P t := by
  induction n with
  | zero => exact fun s h => ⟨rfl, fun t ht => by cases ht; exact h⟩
  | succ n ih => exact fun s h => bind ih (hv.exec c hc) h

theorem after (hv : Views O O' view P H safe) {init body : Code ι κ}
    (hi : init.handled safe = true) (hb : body.handled safe = true) (n : Nat) {s : σ} (h : P s) :
    (after O init body n s).map view = Code.after O' init body n (view s) ∧
      ∀ t, Code.after O init body n s = some t → P t :=
  bind (hv.exec init hi) (hv.rounds hb n) h

theorem total (hv : Views O O' view P H safe) {M : Type*} [AddCommMonoid M] {init body : Code ι κ}
    (hi : init.handled safe = true) (hb : body.handled safe = true) (f : τ → M) (n : Nat) {s : σ}
    (h : P s) :
    total O init body (fun t => f (view t)) s n = Code.total O' init body f (view s) n := by
  unfold Code.total
  refine Finset.sum_congr rfl fun k _ => ?_
  rw [← (hv.after hi hb k h).1, Option.map_map]
  rfl

end Views

end Code
