import Mathlib.Data.List.Range

namespace Ring

variable {n first k l w : Nat} {p : Nat → Bool}

/-- The slot that is filled after `k` others. -/
def slot (n first k : Nat) : Nat := (first + k) % n

theorem slot_lt (hn : 0 < n) : slot n first k < n := Nat.mod_lt _ hn

theorem slot_eq (hf : first < n) (hk : k ≤ n) :
    slot n first k = if first + k < n then first + k else first + k - n := by
  unfold slot
  split
  · rename_i h
    exact Nat.mod_eq_of_lt h
  · rename_i h
    rw [Nat.mod_eq_sub_mod (Nat.le_of_not_lt h)]
    exact Nat.mod_eq_of_lt (by omega)

/-- How many slots were filled before the slot `j`. -/
def age (n first j : Nat) : Nat := (j + n - first) % n

theorem age_slot (hf : first < n) (hk : k < n) : age n first (slot n first k) = k := by
  rw [slot_eq hf hk.le]
  unfold age
  split
  · rw [show first + k + n - first = k + n by omega, Nat.add_mod_right]
    exact Nat.mod_eq_of_lt hk
  · rw [show first + k - n + n - first = k by omega]
    exact Nat.mod_eq_of_lt hk

theorem slot_age {j : Nat} (hf : first < n) (hj : j < n) : slot n first (age n first j) = j := by
  have hage : age n first j = if first ≤ j then j - first else j + n - first := by
    unfold age
    split
    · rw [show j + n - first = j - first + n by omega, Nat.add_mod_right]
      exact Nat.mod_eq_of_lt (by omega)
    · exact Nat.mod_eq_of_lt (by omega)
  rw [hage, slot_eq hf (by split <;> omega)]
  split <;> split <;> omega

/-- `for i in 0 .. n - 1: if p i then last := i`, from 0. -/
def lastWhere (n : Nat) (p : Nat → Bool) : Nat :=
  (List.range n).foldl (fun last i => if p i then i else last) 0

theorem lastWhere_succ : lastWhere (n + 1) p = if p n then n else lastWhere n p := by
  unfold lastWhere
  rw [List.range_succ, List.foldl_append]
  rfl

theorem lastWhere_spec (h : ∃ i < n, p i = true) :
    p (lastWhere n p) = true ∧ lastWhere n p < n ∧ ∀ i < n, p i = true → i ≤ lastWhere n p := by
  induction n with
  | zero =>
    obtain ⟨i, hi, -⟩ := h
    exact absurd hi (Nat.not_lt_zero i)
  | succ n ih =>
    rw [lastWhere_succ]
    cases hn : p n with
    | true =>
      refine ⟨hn, Nat.lt_succ_self n, fun i hi _ => ?_⟩
      exact Nat.lt_succ_iff.mp hi
    | false =>
      have hbelow : ∀ i < n + 1, p i = true → i < n := by
        intro i hi hp
        rcases Nat.lt_succ_iff_lt_or_eq.mp hi with h | rfl
        · exact h
        · rw [hn] at hp
          cases hp
      obtain ⟨i, hi, hp⟩ := h
      obtain ⟨hlast, hlt, hmax⟩ := ih ⟨i, hbelow i hi hp, hp⟩
      exact ⟨hlast, Nat.lt_succ_of_lt hlt, fun j hj hpj => hmax j (hbelow j hj hpj) hpj⟩

/-- The slot that meets the test and was filled last: the last one below the slot that is
filled next, or else the last one of all. -/
def youngest (n next : Nat) (p : Nat → Bool) : Option Nat :=
  let before (i : Nat) : Bool := decide (i < next) && p i
  let after (i : Nat) : Bool := decide (next ≤ i) && p i
  if (List.range n).any p then
    some (if (List.range n).any before then lastWhere n before else lastWhere n after)
  else none

section
variable {len i : Nat} (hf : first < n) (hlen : len ≤ n)
  (hp : ∀ i < n, p i = true → ∃ k < len, slot n first k = i)

include hf hlen

theorem slot_lt_next (hk : k < len) :
    slot n first k < slot n first len ↔ first + len < n ∨ n ≤ first + k := by
  rw [slot_eq hf (hk.le.trans hlen), slot_eq hf hlen]
  split <;> split <;> omega

theorem slot_mono (hk : k < l) (hl : l < len)
    (hside : slot n first k < slot n first len ↔ slot n first l < slot n first len) :
    slot n first k < slot n first l := by
  rw [slot_lt_next hf hlen (hk.trans hl), slot_lt_next hf hlen hl] at hside
  rw [slot_eq hf ((hk.trans hl).le.trans hlen), slot_eq hf (hl.le.trans hlen)]
  split <;> split <;> omega

omit hf hlen in
theorem youngest_none (h : youngest n w p = none) (hi : i < n) : p i = false := by
  unfold youngest at h
  split at h
  · cases h
  · rename_i hany
    cases hpi : p i with
    | false => rfl
    | true => exact absurd (List.any_eq_true.mpr ⟨i, List.mem_range.mpr hi, hpi⟩) hany

include hp

/-- The last match on one side was filled last, if no later one is on the other side. -/
theorem lastWhere_youngest {q : Nat → Bool} (hq : ∀ i, q i = true → p i = true)
    (hex : ∃ i < n, q i = true)
    (hside : ∀ i j, q i = true → q j = true → (i < slot n first len ↔ j < slot n first len))
    (hrest : ∀ k l, k < l → l < len → q (slot n first k) = true → p (slot n first l) = true →
      q (slot n first l) = true) :
    p (lastWhere n q) = true ∧ ∃ k < len, slot n first k = lastWhere n q ∧
      ∀ l < len, k < l → p (slot n first l) = false := by
  obtain ⟨hlast, hlt, hmax⟩ := lastWhere_spec hex
  have hpj := hq _ hlast
  obtain ⟨k, hk, hslot⟩ := hp _ hlt hpj
  refine ⟨hpj, k, hk, hslot, fun l hl hkl => ?_⟩
  cases hpl : p (slot n first l) with
  | false => rfl
  | true =>
    rw [← hslot] at hlast hmax
    have hql := hrest k l hkl hl hlast hpl
    have hmono := slot_mono hf hlen hkl hl (hside _ _ hlast hql)
    have hle := hmax _ (slot_lt (Nat.lt_of_le_of_lt (Nat.zero_le first) hf)) hql
    exact absurd (Nat.lt_of_lt_of_le hmono hle) (Nat.lt_irrefl _)

theorem youngest_some (h : youngest n (slot n first len) p = some i) :
    p i = true ∧ ∃ k < len, slot n first k = i ∧ ∀ l < len, k < l → p (slot n first l) = false := by
  unfold youngest at h
  split at h
  case isFalse => cases h
  rename_i hany
  have hidx := Option.some.inj h
  clear h
  split at hidx
  · rename_i hbefore
    obtain ⟨j, hj, hb⟩ := List.any_eq_true.mp hbefore
    rw [← hidx]
    apply lastWhere_youngest hf hlen hp
    · intro i hi
      exact (Bool.and_eq_true_iff.mp hi).2
    · exact ⟨j, List.mem_range.mp hj, hb⟩
    · intro i j hi hj
      have hi' := of_decide_eq_true (Bool.and_eq_true_iff.mp hi).1
      have hj' := of_decide_eq_true (Bool.and_eq_true_iff.mp hj).1
      exact ⟨fun _ => hj', fun _ => hi'⟩
    · intro k l hkl hl hk hpl
      have hk' := of_decide_eq_true (Bool.and_eq_true_iff.mp hk).1
      rw [slot_lt_next hf hlen (hkl.trans hl)] at hk'
      have hl' : slot n first l < slot n first len := by
        rw [slot_lt_next hf hlen hl]
        omega
      exact Bool.and_eq_true_iff.mpr ⟨decide_eq_true hl', hpl⟩
  · rename_i hbefore
    have hafter : ∀ i < n, p i = true → slot n first len ≤ i := by
      intro i hi hpi
      by_contra hlt
      apply hbefore
      have hlt' : i < slot n first len := Nat.lt_of_not_le hlt
      exact List.any_eq_true.mpr
        ⟨i, List.mem_range.mpr hi, Bool.and_eq_true_iff.mpr ⟨decide_eq_true hlt', hpi⟩⟩
    obtain ⟨j, hj, hpj⟩ := List.any_eq_true.mp hany
    have hjn := List.mem_range.mp hj
    rw [← hidx]
    apply lastWhere_youngest hf hlen hp
    · intro i hi
      exact (Bool.and_eq_true_iff.mp hi).2
    · exact ⟨j, hjn, Bool.and_eq_true_iff.mpr ⟨decide_eq_true (hafter j hjn hpj), hpj⟩⟩
    · intro i j hi hj
      have hi' := of_decide_eq_true (Bool.and_eq_true_iff.mp hi).1
      have hj' := of_decide_eq_true (Bool.and_eq_true_iff.mp hj).1
      exact ⟨fun h => absurd h (Nat.not_lt.mpr hi'), fun h => absurd h (Nat.not_lt.mpr hj')⟩
    · intro k l hkl hl hk hpl
      have hln : slot n first l < n := slot_lt (Nat.lt_of_le_of_lt (Nat.zero_le first) hf)
      exact Bool.and_eq_true_iff.mpr ⟨decide_eq_true (hafter _ hln hpl), hpl⟩

end

end Ring
