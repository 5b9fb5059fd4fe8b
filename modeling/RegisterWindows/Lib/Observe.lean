import RegisterWindows.Lib.Run

namespace Observe

variable {γ σ τ ε α : Type*} {exec : σ → ε → σ} {out : σ → ε → α}

def observe (exec : σ → ε → σ) (out : σ → ε → α) : σ → List ε → List α
  | _, [] => []
  | s, e :: es => out s e :: observe exec out (exec s e) es

theorem length_observe (s : σ) (es : List ε) : (observe exec out s es).length = es.length := by
  induction es generalizing s with
  | nil => rfl
  | cons e es ih => exact congrArg (· + 1) (ih (exec s e))

theorem observe_append (s : σ) (es fs : List ε) : observe exec out s (es ++ fs) =
    observe exec out s es ++ observe exec out (es.foldl exec s) fs := by
  induction es generalizing s with
  | nil => rfl
  | cons e es ih => exact congrArg (out s e :: ·) (ih (exec s e))

/-- On events that a function has changed, a machine is another machine. -/
theorem observe_map (f : ε → ε) (s : σ) (es : List ε) :
    observe exec out s (es.map f) =
      observe (fun s e => exec s (f e)) (fun s e => out s (f e)) s es := by
  induction es generalizing s with
  | nil => rfl
  | cons e es ih =>
    simp only [List.map_cons, observe]
    rw [ih]

/-- Two machines that stay related along a history show the same, if related states do. The
condition on an event may look at the history. -/
theorem observe_eq {next : γ → ε → γ} {C : γ → ε → Prop} {R : γ → σ → τ → Prop}
    {exec' : τ → ε → τ} {out' : τ → ε → α}
    (hexec : ∀ g s t e, R g s t → C g e → R (next g e) (exec s e) (exec' t e))
    (hout : ∀ g s t e, R g s t → C g e → out s e = out' t e)
    {g : γ} {s : σ} {t : τ} {es : List ε} (h : R g s t)
    (hc : Runs.Along (fun g e => some (next g e)) C g es) :
    observe exec out s es = observe exec' out' t es := by
  induction es generalizing g s t with
  | nil => rfl
  | cons e es ih =>
    obtain ⟨he, hes⟩ := hc
    simp only [observe, List.cons.injEq]
    exact ⟨hout g s t e h he, ih (hexec g s t e h he) (hes _ rfl)⟩

variable {next : γ → ε → γ} {C : γ → ε → Prop} {R : γ → σ → Prop} {g : γ} {s : σ} {es : List ε}

/-- A machine that implements its history shows what the history says. -/
theorem observe_refines {out' : γ → ε → α}
    (hexec : ∀ g s e, R g s → C g e → R (next g e) (exec s e))
    (hout : ∀ g s e, R g s → C g e → out s e = out' g e)
    (h : R g s) (hc : Runs.Along (fun g e => some (next g e)) C g es) :
    observe exec out s es = observe next out' g es :=
  observe_eq (R := fun g s t => t = g ∧ R g s)
    (fun g s _ e hr he => ⟨congrArg (next · e) hr.1, hexec g s e hr.2 he⟩)
    (fun g s _ e hr he => (hout g s e hr.2 he).trans (by rw [hr.1])) ⟨rfl, h⟩ hc

/-- It implements it after any number of events. -/
theorem foldl_refines (hexec : ∀ g s e, R g s → C g e → R (next g e) (exec s e))
    (h : R g s) (hc : Runs.Along (fun g e => some (next g e)) C g es) :
    R (es.foldl next g) (es.foldl exec s) := by
  induction es generalizing g s with
  | nil => exact h
  | cons e es ih => exact ih (hexec g s e h hc.1) (hc.2 _ rfl)

end Observe
