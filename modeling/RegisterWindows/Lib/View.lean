import Mathlib.Logic.Function.Basic

namespace View

variable {ν κ V : Type*} {view : ν → Option κ} {f g : κ → V} {c : κ}

def Reaches (view : ν → Option κ) (c : κ) : Prop := ∃ n, view n = some c

/-- Two files that no read can tell apart. -/
def Agree (view : ν → Option κ) (f g : κ → V) : Prop := ∀ c, Reaches view c → f c = g c

def read (view : ν → Option κ) (z : V) (f : κ → V) (n : ν) : V := (view n).elim z f

theorem Agree.read (h : Agree view f g) (z : V) (n : ν) :
    View.read view z f n = View.read view z g n := by
  unfold View.read
  cases hn : view n with
  | none => rfl
  | some c => exact h c ⟨n, hn⟩

variable [DecidableEq κ]

def write (view : ν → Option κ) (f : κ → V) (n : ν) (v : V) : κ → V :=
  (view n).elim f fun c => Function.update f c v

theorem write_of_not_reaches (h : ¬ Reaches view c) (f : κ → V) (n : ν) (v : V) :
    write view f n v c = f c := by
  unfold write
  cases hn : view n with
  | none => rfl
  | some q =>
    apply Function.update_of_ne
    rintro rfl
    exact h ⟨n, hn⟩

theorem Agree.update (h : Agree view f g) (c : κ) (v : V) :
    Agree view (Function.update f c v) (Function.update g c v) := by
  intro q hq
  by_cases hc : q = c
  · subst hc
    simp only [Function.update_self]
  · simp only [Function.update_of_ne hc]
    exact h q hq

theorem Agree.write (h : Agree view f g) (n : ν) (v : V) :
    Agree view (View.write view f n v) (View.write view g n v) := by
  unfold View.write
  cases view n with
  | none => exact h
  | some c => exact h.update c v

section
variable {ι : Type*} {w : ι → κ} {v : ι → V} {l : List ι}

theorem foldl_update_of_ne (hc : ∀ i ∈ l, c ≠ w i) (f : κ → V) :
    l.foldl (fun f i => Function.update f (w i) (v i)) f c = f c := by
  induction l generalizing f with
  | nil => rfl
  | cons i l ih =>
    have hrest := ih (fun j hj => hc j (List.mem_cons_of_mem _ hj)) (Function.update f (w i) (v i))
    exact hrest.trans (Function.update_of_ne (hc i List.mem_cons_self) _ _)

theorem foldl_update_self (hl : (l.map w).Nodup) {i : ι} (hi : i ∈ l) (f : κ → V) :
    l.foldl (fun f i => Function.update f (w i) (v i)) f (w i) = v i := by
  induction l generalizing f with
  | nil => cases hi
  | cons j l ih =>
    rw [List.map_cons, List.nodup_cons] at hl
    rcases List.mem_cons.mp hi with rfl | hi
    · have hne : ∀ k ∈ l, w i ≠ w k := fun k hk he => hl.1 (List.mem_map.mpr ⟨k, hk, he.symm⟩)
      exact (foldl_update_of_ne hne _).trans (Function.update_self ..)
    · exact ih hl.2 hi _

end

end View
