import Mathlib.Algebra.Ring.Nat
import Mathlib.Data.Fin.Basic
import Mathlib.Data.Nat.Count

structure Fifo (K : Type*) (n : Nat) where
  owner : Fin n → Option K
  slot : K → Option (Fin n)
  oldest : Fin n
  paired : ∀ k s, slot k = some s ↔ owner s = some k

namespace Fifo
variable {K : Type*} [DecidableEq K] {n : Nat} [NeZero n]

def empty : Fifo K n where
  owner _ := none
  slot _ := none
  oldest := 0
  paired _ _ := by simp only [reduceCtorEq]

/-- The oldest slot goes to a key that has none. -/
def allocate (F : Fifo K n) (k : K) (h : F.slot k = none) : Fifo K n where
  owner := Function.update F.owner F.oldest (some k)
  slot j := if j = k then some F.oldest else if F.owner F.oldest = some j then none else F.slot j
  oldest := F.oldest + 1
  paired j s := by
    have hk : F.owner s ≠ some k := fun ho => by simp [(F.paired k s).mpr ho] at h
    by_cases hjk : j = k
    · subst hjk
      by_cases hs : s = F.oldest
      · simp [hs]
      · simp [hs, hk, Ne.symm hs]
    · rw [if_neg hjk]
      by_cases hs : s = F.oldest
      · subst hs
        rw [Function.update_self]
        split
        · simp [Ne.symm hjk]
        · rename_i ho
          simp [F.paired, ho, Ne.symm hjk]
      · rw [Function.update_of_ne hs]
        split
        · rename_i ho
          have hj := (F.paired j F.oldest).mpr ho
          simp [← F.paired, hj, Ne.symm hs]
        · exact F.paired j s

def request (F : Fifo K n) (k : K) : Fifo K n :=
  if h : F.slot k = none then F.allocate k h else F

theorem request_of_none {F : Fifo K n} {k : K} (h : F.slot k = none) :
    F.request k = F.allocate k h := dif_pos h

theorem request_of_some {F : Fifo K n} {k : K} {s : Fin n} (h : F.slot k = some s) :
    F.request k = F := dif_neg (by simp [h])

/-- The slot that a request gets. -/
def granted (F : Fifo K n) (k : K) : Fin n := (F.slot k).getD F.oldest

variable (key : Nat → K)

def run : Nat → Fifo K n
  | 0 => empty
  | i + 1 => (run i).request (key i)

/-- Request `i` finds no slot. -/
def Misses (n : Nat) [NeZero n] (i : Nat) : Prop := (run (n := n) key i).slot (key i) = none

instance (i : Nat) : Decidable (Misses key n i) :=
  inferInstanceAs (Decidable ((run key i).slot (key i) = none))

theorem oldest_run (i : Nat) :
    (run (n := n) key i).oldest = Fin.ofNat n (Nat.count (Misses key n) i) := by
  induction i with
  | zero => rfl
  | succ i ih =>
    rw [Nat.count_succ, run]
    by_cases h : Misses key n i
    · rw [request_of_none h, if_pos h]
      change (run key i).oldest + 1 = _
      rw [ih]
      ext
      simp [Fin.val_add]
    · obtain ⟨s, hs⟩ := Option.ne_none_iff_exists'.mp h
      rw [request_of_some hs, if_neg h]
      exact ih

theorem exists_of_lt_count {p : Nat → Prop} [DecidablePred p] {v j : Nat} (h : v < Nat.count p j) :
    ∃ l < j, p l ∧ Nat.count p l = v := by
  induction j with
  | zero => simp at h
  | succ j ih =>
    by_cases hv : v < Nat.count p j
    · obtain ⟨l, hl, hp⟩ := ih hv
      exact ⟨l, Nat.lt_succ_of_lt hl, hp⟩
    · rw [Nat.count_succ] at h
      split at h
      · rename_i hp
        exact ⟨j, Nat.lt_succ_self j, hp, by omega⟩
      · omega

/-- A slot comes round again when every other slot has been given away in the meantime. -/
theorem oldest_first {i j : Nat} (hij : i < j) (hi : Misses key n i)
    (hs : (run (n := n) key i).oldest = (run key j).oldest) {s : Fin n}
    (hne : s ≠ (run key j).oldest) :
    ∃ l, i < l ∧ l < j ∧ Misses key n l ∧ (run key l).oldest = s := by
  have hn : 0 < n := Nat.pos_of_neZero n
  -- the slots are counted modulo `n`
  have hmod (l : Nat) : (run (n := n) key l).oldest.val = Nat.count (Misses key n) l % n :=
    congrArg Fin.val (oldest_run key l)
  generalize hc : Nat.count (Misses key n) = c at hmod
  have hlt : c i < c j := by
    have hsucc : c (i + 1) = c i + 1 := by rw [← hc, Nat.count_succ, if_pos hi]
    have hmono : c (i + 1) ≤ c j := hc ▸ Nat.count_monotone _ hij
    omega
  have hcong : c i % n = c j % n := by rw [← hmod, ← hmod, hs]
  have hround : c i + n ≤ c j := by
    have hdvd : n ∣ c j - c i := Nat.dvd_of_mod_eq_zero (Nat.sub_mod_eq_zero_of_mod_eq hcong.symm)
    have := Nat.le_of_dvd (by omega) hdvd
    omega
  have hsn : s.val ≠ c i % n := by
    rw [hcong, ← hmod]
    exact fun h => hne (Fin.ext h)
  obtain ⟨v, hv, hv', hvs⟩ : ∃ v, c i < v ∧ v < c i + n ∧ v % n = s.val := by
    have hdiv := Nat.div_add_mod (c i) n
    have hr := Nat.mod_lt (c i) hn
    by_cases hrs : c i % n < s.val
    · refine ⟨n * (c i / n) + s.val, by omega, by omega, ?_⟩
      rw [Nat.mul_add_mod, Nat.mod_eq_of_lt s.isLt]
    · refine ⟨n * (c i / n + 1) + s.val, ?_, ?_, ?_⟩
      · rw [Nat.mul_succ]
        omega
      · rw [Nat.mul_succ]
        omega
      · rw [Nat.mul_add_mod, Nat.mod_eq_of_lt s.isLt]
  obtain ⟨l, hlj, hl, hlv⟩ := exists_of_lt_count (p := Misses key n) (v := v) (j := j) (by
    rw [hc]
    omega)
  rw [hc] at hlv
  refine ⟨l, ?_, hlj, hl, Fin.ext (by rw [hmod, hlv, hvs])⟩
  by_contra hle
  have hmono : c l ≤ c i := hc ▸ Nat.count_monotone _ (Nat.le_of_not_lt hle)
  omega

end Fifo
