import Mathlib.Data.List.Basic

namespace Runs

variable {σ ε : Type*} {step : σ → ε → Option σ}

/-- The state after the events, if each of them was enabled in its turn. -/
def run (step : σ → ε → Option σ) : σ → List ε → Option σ
  | s, [] => some s
  | s, e :: es => (step s e).bind fun s' => run step s' es

@[simp] theorem run_nil (s : σ) : run step s [] = some s := rfl

theorem run_cons {s s' : σ} {e : ε} {es : List ε} :
    run step s (e :: es) = some s' ↔ ∃ t, step s e = some t ∧ run step t es = some s' :=
  Option.bind_eq_some_iff

theorem run_append {s s' : σ} {es fs : List ε} :
    run step s (es ++ fs) = some s' ↔ ∃ t, run step s es = some t ∧ run step t fs = some s' := by
  induction es generalizing s with
  | nil => simp
  | cons e es ih =>
    simp only [List.cons_append, run_cons, ih]
    constructor
    · rintro ⟨t, ht, u, hu, hs⟩
      exact ⟨u, ⟨t, ht, hu⟩, hs⟩
    · rintro ⟨u, ⟨t, ht, hu⟩, hs⟩
      exact ⟨t, ht, u, hu, hs⟩

theorem run_concat {s t s' : σ} {es : List ε} {e : ε} (h : run step s es = some t)
    (he : step t e = some s') : run step s (es ++ [e]) = some s' :=
  run_append.mpr ⟨t, h, run_cons.mpr ⟨s', he, rfl⟩⟩

/-- `C` holds of every event of a run in the state it is taken in. -/
def Along (step : σ → ε → Option σ) (C : σ → ε → Prop) : σ → List ε → Prop
  | _, [] => True
  | s, e :: es => C s e ∧ ∀ t, step s e = some t → Along step C t es

instance Along.decidable {C : σ → ε → Prop} [∀ s e, Decidable (C s e)] :
    (s : σ) → (es : List ε) → Decidable (Along step C s es)
  | _, [] => isTrue trivial
  | s, e :: es =>
    match h : step s e with
    | none => decidable_of_iff (C s e) ⟨fun hc => ⟨hc, fun t ht => by rw [h] at ht; cases ht⟩,
      And.left⟩
    | some t =>
      have := Along.decidable (C := C) t es
      decidable_of_iff (C s e ∧ Along step C t es)
        ⟨fun hc => ⟨hc.1, fun u hu => by rw [h] at hu; cases hu; exact hc.2⟩,
          fun hc => ⟨hc.1, hc.2 t h⟩⟩

theorem Along.cons {C : σ → ε → Prop} {s t : σ} {e : ε} {es : List ε} (he : C s e)
    (ht : step s e = some t) (h : Along step C t es) : Along step C s (e :: es) := by
  refine ⟨he, fun u hu => ?_⟩
  cases ht.symm.trans hu
  exact h

theorem Along.mono {C D : σ → ε → Prop} {s : σ} {es : List ε} (hcd : ∀ s e, C s e → D s e)
    (h : Along step C s es) : Along step D s es := by
  induction es generalizing s with
  | nil => trivial
  | cons e es ih => exact ⟨hcd s e h.1, fun t ht => ih (h.2 t ht)⟩

theorem Along.and {C D : σ → ε → Prop} {s : σ} {es : List ε} (hc : Along step C s es)
    (hd : Along step D s es) : Along step (fun s e => C s e ∧ D s e) s es := by
  induction es generalizing s with
  | nil => trivial
  | cons e es ih => exact ⟨⟨hc.1, hd.1⟩, fun t ht => ih (hc.2 t ht) (hd.2 t ht)⟩

theorem along_append {C : σ → ε → Prop} {s t : σ} {es fs : List ε}
    (h : Along step C s (es ++ fs)) (hr : run step s es = some t) :
    Along step C s es ∧ Along step C t fs := by
  induction es generalizing s with
  | nil =>
    cases hr
    exact ⟨trivial, h⟩
  | cons e es ih =>
    obtain ⟨u, hu, hr⟩ := run_cons.mp hr
    refine ⟨⟨h.1, fun v hv => ?_⟩, (ih (h.2 u hu) hr).2⟩
    rw [hu] at hv
    cases hv
    exact (ih (h.2 u hu) hr).1

theorem Along.append {C : σ → ε → Prop} {s t : σ} {es fs : List ε} (h : Along step C s es)
    (hr : run step s es = some t) (h' : Along step C t fs) : Along step C s (es ++ fs) := by
  induction es generalizing s with
  | nil =>
    cases hr
    exact h'
  | cons e es ih =>
    obtain ⟨u, hu, hr⟩ := run_cons.mp hr
    exact .cons h.1 hu (ih (h.2 u hu) hr)

/-- What holds of the events themselves holds along any run of them. -/
theorem along_of_mem {C : ε → Prop} {s : σ} {es : List ε} (h : ∀ e ∈ es, C e) :
    Along step (fun _ => C) s es := by
  induction es generalizing s with
  | nil => trivial
  | cons e es ih =>
    exact ⟨h e List.mem_cons_self, fun _ _ => ih fun f hf => h f (List.mem_cons_of_mem e hf)⟩

/-- A condition holds along a run if it holds after every proper prefix of it. -/
theorem along_of_prefix {C : σ → ε → Prop} {s : σ} {es : List ε}
    (h : ∀ pre e t, pre ++ [e] <+: es → run step s pre = some t → C t e) :
    Along step C s es := by
  induction es generalizing s with
  | nil => trivial
  | cons e es ih =>
    refine ⟨h [] e s ⟨es, rfl⟩ rfl, fun t ht => ih fun pre f u hp hu => ?_⟩
    exact h (e :: pre) f u (List.cons_prefix_cons.mpr ⟨rfl, hp⟩) (run_cons.mpr ⟨t, ht, hu⟩)

/-- How many events of a run meet `C` in the state they are taken in. -/
def count (step : σ → ε → Option σ) (C : σ → ε → Prop) [∀ s e, Decidable (C s e)] :
    σ → List ε → Nat
  | _, [] => 0
  | s, e :: es => (if C s e then 1 else 0) + (step s e).elim 0 fun t => count step C t es

theorem count_cons {C : σ → ε → Prop} [∀ s e, Decidable (C s e)] {s t : σ} {e : ε} {es : List ε}
    (h : step s e = some t) :
    count step C s (e :: es) = (if C s e then 1 else 0) + count step C t es := by
  rw [count, h]
  rfl

def Preserved (step : σ → ε → Option σ) (C : σ → ε → Prop) (I : σ → Prop) : Prop :=
  ∀ s e t, I s → C s e → step s e = some t → I t

/-- An invariant of the steps is an invariant of the runs. -/
theorem run_preserved {C : σ → ε → Prop} {I : σ → Prop} (hp : Preserved step C I) {s t : σ}
    {es : List ε} (hi : I s) (hc : Along step C s es) (hr : run step s es = some t) : I t := by
  induction es generalizing s with
  | nil =>
    cases hr
    exact hi
  | cons e es ih =>
    obtain ⟨u, hu, hr⟩ := run_cons.mp hr
    exact ih (hp s e u hi hc.1 hu) (hc.2 u hu) hr

/-- An invariant of every step, whatever the event. -/
theorem run_invariant {I : σ → Prop} (hp : ∀ s e t, I s → step s e = some t → I t)
    {s t : σ} {es : List ε} (hi : I s) (hr : run step s es = some t) : I t := by
  have hall : Along step (fun _ _ => True) s es := by
    clear hi hr
    induction es generalizing s with
    | nil => trivial
    | cons e es ih => exact ⟨trivial, fun _ _ => ih⟩
  exact run_preserved (C := fun _ _ => True) (fun s e t hi _ h => hp s e t hi h) hi hall hr

/-- One invariant may be used to show that another is preserved. -/
theorem Preserved.and {C : σ → ε → Prop} {I J : σ → Prop}
    (hi : ∀ s e t, I s → step s e = some t → I t)
    (hj : ∀ s e t, I s → J s → C s e → step s e = some t → J t) :
    Preserved step C fun s => I s ∧ J s :=
  fun s e t ⟨hs, js⟩ hc h => ⟨hi s e t hs h, hj s e t hs js hc h⟩

/-- Where every step is enabled, `P` holds after each of them if and only if each meets `C`. -/
theorem prefix_iff_along {C : σ → ε → Prop} {I P : σ → Prop}
    (hstep : ∀ s e, I s → ∃ t, step s e = some t ∧ I t ∧ (P t ↔ C s e)) {s : σ} (hi : I s)
    (hp : P s) (es : List ε) :
    (∀ pre, pre <+: es → ∃ t, run step s pre = some t ∧ P t) ↔ Along step C s es := by
  induction es generalizing s with
  | nil =>
    refine ⟨fun _ => trivial, fun _ pre hpre => ?_⟩
    rw [List.prefix_nil.mp hpre]
    exact ⟨s, rfl, hp⟩
  | cons e es ih =>
    obtain ⟨t, ht, hi', hpc⟩ := hstep s e hi
    constructor
    · intro h
      obtain ⟨u, hu, hpu⟩ := h [e] ⟨es, rfl⟩
      obtain ⟨v, hv, hu⟩ := run_cons.mp hu
      cases ht.symm.trans hv
      cases hu
      refine ⟨hpc.mp hpu, fun v hv => ?_⟩
      cases ht.symm.trans hv
      refine (ih hi' hpu).mp fun pre hpre => ?_
      obtain ⟨w, hw, hpw⟩ := h (e :: pre) (List.cons_prefix_cons.mpr ⟨rfl, hpre⟩)
      obtain ⟨v, hv, hw⟩ := run_cons.mp hw
      cases ht.symm.trans hv
      exact ⟨w, hw, hpw⟩
    · rintro ⟨hc, hes⟩ pre hpre
      cases pre with
      | nil => exact ⟨s, rfl, hp⟩
      | cons f pre =>
        obtain ⟨rfl, htail⟩ := List.cons_prefix_cons.mp hpre
        obtain ⟨u, hu, hpu⟩ := (ih hi' (hpc.mpr hc)).mpr (hes t ht) pre htail
        exact ⟨u, run_cons.mpr ⟨t, ht, hu⟩, hpu⟩

end Runs
