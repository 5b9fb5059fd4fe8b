import RegisterWindows.Bench.Baseline
import RegisterWindows.Bench.Iteration

namespace RegisterWindows.Bench
open Port

/-- Words `A`, from byte `w` of `.bss` on. -/
def HoldsArrays (w : Nat) (A W : Nat → Word) : Prop :=
  ∀ k < 3200, 4 ∣ k → W (w + k) = A k

namespace HoldsArrays
variable {w t i j : Nat} {A W : Nat → Word} {v v' : Word}

theorem update (h : HoldsArrays w A W) (hij : i = w + j) (hv : v = v') :
    HoldsArrays w (Function.update A j v') (Function.update W i v) := by
  intro k hk h4
  by_cases hkj : k = j
  · rw [hij, hkj, hv, Function.update_self, Function.update_self]
  · rw [Function.update_of_ne (by omega), Function.update_of_ne hkj]
    exact h k hk h4

theorem pidStep (h : HoldsArrays w A W) (ht : t < 100) : pidStep w t W = pidStep 0 t A := by
  have hprev : W (pidPrev w + 4 * t) = A (pidPrev 0 + 4 * t) := by
    simpa using h (4 * t) (by omega) (by omega)
  have herr : W (pidErr w + 4 * t) = A (pidErr 0 + 4 * t) := by
    simpa [Nat.add_assoc] using h (400 + 4 * t) (by omega) (by omega)
  have hint : W (pidInt w + 4 * t) = A (pidInt 0 + 4 * t) := by
    simpa [Nat.add_assoc] using h (800 + 4 * t) (by omega) (by omega)
  simp only [Bench.pidStep, hprev, herr, hint]

theorem matNext (h : HoldsArrays w A W) (ht : t < 100) : matNext w t W = matNext 0 t A := by
  have hseed : W (matSeed w + 4 * t) = A (matSeed 0 + 4 * t) := by
    simpa [Nat.add_assoc] using h (1600 + 4 * t) (by omega) (by omega)
  simp only [Bench.matNext, hseed]

theorem telNext (h : HoldsArrays w A W) (ht : t < 100) : telNext w t W = telNext 0 t A := by
  have hfilt : W (telFilt w + 4 * t) = A (telFilt 0 + 4 * t) := by
    simpa [Nat.add_assoc] using h (2400 + 4 * t) (by omega) (by omega)
  simp only [Bench.telNext, hfilt]

theorem telChecksum (h : HoldsArrays w A W) (ht : t < 100) :
    telChecksum w t W = telChecksum 0 t A := by
  have hsum : W (telSum w + 4 * t) = A (telSum 0 + 4 * t) := by
    simpa [Nat.add_assoc] using h (2800 + 4 * t) (by omega) (by omega)
  simp only [Bench.telChecksum, hsum, h.telNext ht]

theorem workload (h : HoldsArrays w A W) (ht : t < 100) :
    HoldsArrays w (workload 0 t A) (workload w t W) := by
  unfold Bench.workload
  split
  · rw [h.pidStep ht]
    exact (((h.update (by simp) rfl).update (by simp; omega) rfl).update
      (by simp; omega) rfl).update
      (by simp; omega) rfl
  · split
    · rw [h.matNext ht]
      exact (h.update (by simp; omega) rfl).update (by simp; omega) rfl
    · rw [h.telNext ht, h.telChecksum ht]
      exact (h.update (by simp; omega) rfl).update (by simp; omega) rfl

theorem congr {W' : Nat → Word} (h : HoldsArrays w A W)
    (hW : ∀ k, w ≤ k → k < w + 3200 → W' k = W k) :
    HoldsArrays w A W' := by
  intro k hk h4
  rw [hW (w + k) (by omega) (by omega), h k hk h4]

end HoldsArrays

/-- The arrays, starting from `A`, after `n` tasks in turn. -/
def workDone (A : Nat → Word) : Nat → Nat → Word
  | 0 => A
  | n + 1 => workload 0 (n % 100) (workDone A n)

variable {L : BareMetal} {clock : Nat → Word} {A : Nat → Word}

theorem Baseline.after_workDone {m : Timed Flat} (h : HoldsArrays 0 A (L.words m.mem)) (n : Nat) :
    ∃ m', after Flat L clock n m = some m' ∧
      AtLoop L n m' ∧ HoldsArrays 0 (workDone A n) (L.words m'.mem) := by
  refine Code.after_ends (fun k m' => AtLoop L k m' ∧
    HoldsArrays 0 (workDone A k) (L.words m'.mem)) ?_ ?_ n
  · refine (ends_init m).mono ?_
    rintro m' ⟨hl, -, ha, -⟩
    exact ⟨hl, h.congr fun k _ hk => ha k (by omega)⟩
  · rintro k m' ⟨hl, ha⟩
    refine hl.next.mono fun u hu => ⟨hu.1, ?_⟩
    exact (ha.workload (Nat.mod_lt k (by decide))).congr fun j _ hj => hu.2.arrays j (by omega)

theorem Windowed.after_workDone {m : Timed Flat} (h : HoldsArrays 416 A (L.words m.mem)) (n : Nat) :
    ∃ m', after Flat L clock n m = some m' ∧
      (∃ s, AtLoop L (n % 100) s m') ∧ HoldsArrays 416 (workDone A n) (L.words m'.mem) := by
  refine Code.after_ends (fun k m' => (∃ s, AtLoop L (k % 100) s m') ∧
    HoldsArrays 416 (workDone A k) (L.words m'.mem)) ?_ ?_ n
  · refine (ends_init m).mono fun m' hi => ⟨⟨0, hi.atLoop⟩, ?_⟩
    exact h.congr fun k hk hk' => hi.arrays k hk (by omega)
  · rintro k m' ⟨⟨s, hl⟩, ha⟩
    refine (ends_round hl).mono fun u hu => ⟨⟨_, by simpa using hl.next hu⟩, ?_⟩
    exact (ha.workload hl.task_lt).congr fun j hj hj' => hu.arrays j hj (by omega)

/-- The workload arrays, by their first byte. -/
def arrays : List (Nat → Nat) :=
  [pidPrev, pidErr, pidInt, pidOut, matSeed, matOut, telFilt, telSum]

theorem holdsArrays_iff {w : Nat} {W : Nat → Word} :
    HoldsArrays w A W ↔ ∀ a ∈ arrays, ∀ u < 100, W (a w + 4 * u) = A (a 0 + 4 * u) := by
  constructor
  · intro h a ha u hu
    have hword (i : Nat) (hi : i < 8) : W (w + 400 * i + 4 * u) = A (400 * i + 4 * u) := by
      rw [Nat.add_assoc]
      exact h _ (by omega) (by omega)
    simp only [arrays, List.mem_cons, List.not_mem_nil, or_false] at ha
    rcases ha with rfl | rfl | rfl | rfl | rfl | rfl | rfl | rfl
    · simpa using hword 0 (by decide)
    · simpa using hword 1 (by decide)
    · simpa using hword 2 (by decide)
    · simpa using hword 3 (by decide)
    · simpa using hword 4 (by decide)
    · simpa using hword 5 (by decide)
    · simpa using hword 6 (by decide)
    · simpa using hword 7 (by decide)
  · intro h k hk h4
    obtain ⟨i, u, hi, hu, rfl⟩ : ∃ i u, i < 8 ∧ u < 100 ∧ k = 400 * i + 4 * u :=
      ⟨k / 400, k % 400 / 4, by omega, by omega, by omega⟩
    obtain rfl | rfl | rfl | rfl | rfl | rfl | rfl | rfl : i = 0 ∨ i = 1 ∨ i = 2 ∨ i = 3 ∨ i = 4 ∨
        i = 5 ∨ i = 6 ∨ i = 7 := by omega
    · simpa using h pidPrev (by simp [arrays]) u hu
    · simpa [Nat.add_assoc] using h pidErr (by simp [arrays]) u hu
    · simpa [Nat.add_assoc] using h pidInt (by simp [arrays]) u hu
    · simpa [Nat.add_assoc] using h pidOut (by simp [arrays]) u hu
    · simpa [Nat.add_assoc] using h matSeed (by simp [arrays]) u hu
    · simpa [Nat.add_assoc] using h matOut (by simp [arrays]) u hu
    · simpa [Nat.add_assoc] using h telFilt (by simp [arrays]) u hu
    · simpa [Nat.add_assoc] using h telSum (by simp [arrays]) u hu

/-- Both programs begin with zeros in the arrays. -/
def Zeroed {H : Type} (L : BareMetal) (w : Nat) (m : Timed H) : Prop :=
  ∀ a ∈ arrays, ∀ u < 100, L.words m.mem (a w + 4 * u) = 0

theorem same_work (L L' : BareMetal) (clock clock' : Nat → Word) (m m' : Timed Cva6.Regs)
    (hd : m.Default) (hd' : m'.Default) (hz : Zeroed L 0 m) (hz' : Zeroed L' 416 m') (n : Nat) :
    ∃ b w,
      Baseline.after Cva6.Regs L clock n m = some b ∧
      Windowed.after Cva6.Regs L' clock' n m' = some w ∧
      (∀ a ∈ arrays, ∀ u < 100, L.words b.mem (a 0 + 4 * u) = L'.words w.mem (a 416 + 4 * u)) ∧
      b.x s0 = L'.words w.mem Windowed.stateTaskId := by
  have hzero : HoldsArrays 0 (fun _ => 0) (L.words m.view.mem) := holdsArrays_iff.mpr hz
  have hzero' : HoldsArrays 416 (fun _ => 0) (L'.words m'.view.mem) := holdsArrays_iff.mpr hz'
  obtain ⟨b, hb, ⟨hl, ha⟩, -⟩ :=
    after_of_flat rfl rfl hd (@Baseline.after_workDone L clock _ _ hzero n)
  obtain ⟨w, hw, ⟨⟨s, hl'⟩, ha'⟩, -⟩ :=
    after_of_flat rfl rfl hd' (@Windowed.after_workDone L' clock' _ _ hzero' n)
  refine ⟨b, w, hb, hw, fun a hmem u hu => ?_, ?_⟩
  · exact (holdsArrays_iff.mp ha a hmem u hu).trans (holdsArrays_iff.mp ha' a hmem u hu).symm
  · exact (b.view_x s0).symm.trans (hl.task.trans hl'.task.symm)

theorem zeroed_reset (L : BareMetal) (w : Nat) : Zeroed L w Timed.reset := by
  intro a _ u _
  unfold BareMetal.words
  split <;> rfl

/-- The 500 iterations of the source. -/
theorem same_work_from_reset :
    ∃ b w,
      Baseline.after Cva6.Regs .small (BitVec.ofNat 32) 500 Timed.reset = some b ∧
      Windowed.after Cva6.Regs .small (BitVec.ofNat 32) 500 Timed.reset = some w ∧
      (∀ a ∈ arrays, ∀ u < 100, BareMetal.small.words b.mem (a 0 + 4 * u) =
        BareMetal.small.words w.mem (a 416 + 4 * u)) ∧
      b.x s0 = BareMetal.small.words w.mem Windowed.stateTaskId :=
  same_work .small .small (BitVec.ofNat 32) (BitVec.ofNat 32) Timed.reset Timed.reset rfl rfl
    (zeroed_reset _ _) (zeroed_reset _ _) 500

end RegisterWindows.Bench
