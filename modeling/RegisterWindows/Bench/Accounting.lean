import Mathlib.Data.BitVec
import RegisterWindows.Bench.Baseline
import RegisterWindows.Bench.Iteration

namespace RegisterWindows.Bench
open Port

variable {L : BareMetal} {clock : Nat → Word}

namespace Baseline

def accumulators {H : Type} (L : BareMetal) (b : Timed H) (p : Phase) : Word := L.words b.mem p.acc

/-- Every accumulator is the sum over the `n` iterations of how long its phase took. -/
def Accounted {H : Type} [ActiveConfig H] (L : BareMetal) (clock : Nat → Word) (m : Timed H)
    (n : Nat) (b : Timed H) : Prop :=
  accumulators L b =
    Code.total (ops H clock) (.block (init L)) (round L) (fun s p => p.elapsed clock s) m n

/-- What `run_workload` is going to leave in `t3` is the reading that will have been put there. -/
def KeepsStart {H : Type} [Core H] (L : BareMetal) (clock : Nat → Word) (b : Timed H) : Prop :=
  workloadT3 0 (taskId b) (L.words b.mem) = clock b.reads

theorem after_charged (m : Timed Flat) (n : Nat) :
    ∃ b, after Flat L clock n m = some b ∧ AtLoop L n b ∧ accumulators L b =
      Code.total (ops Flat clock) (.block (init L)) (round L) (Phase.charged L clock) m n := by
  refine Code.total_ends (AtLoop L) (Phase.charged L clock) (accumulators L) ?_ ?_ n
  · exact (ends_init m).mono fun b hb => ⟨hb.1, funext hb.2.1⟩
  · intro k b hb
    exact hb.next.mono fun u hu => ⟨hu.1, funext hu.2.accounts⟩

theorem charged_view (m : Timed Cva6.Regs) :
    Phase.charged L clock m.view = Phase.charged L clock m := by
  have htask : taskId m.view = taskId m := congrArg BitVec.toNat (m.view_x s0)
  funext p
  cases p with
  | workload => exact congrArg (clock (m.reads + 1) - workloadT3 0 · (L.words m.mem)) htask
  | saveRestore | trapRoundtrip | trapEntry | trapBody | mretReturn => rfl

/-- What the accumulators hold on CVA6. -/
theorem accumulators_after {m : Timed Cva6.Regs} (h : m.Default) (n : Nat) :
    ∃ b, after Cva6.Regs L clock n m = some b ∧ accumulators L b =
      Code.total (ops Cva6.Regs clock) (.block (init L)) (round L) (Phase.charged L clock) m n := by
  obtain ⟨b, hb, ⟨-, hacc⟩, -⟩ :=
    after_of_flat rfl rfl h (@after_charged L clock m.view n)
  refine ⟨b, hb, hacc.trans ?_⟩
  rw [← (views clock).total rfl rfl _ n h]
  exact congrArg (fun f => Code.total (ops Cva6.Regs clock) (.block (init L)) (round L) f m n)
    (funext charged_view)

theorem charged_eq_elapsed_iff {H : Type} [Core H] (b : Timed H) :
    Phase.charged L clock b = (fun p => p.elapsed clock b) ↔ KeepsStart L clock b := by
  constructor
  · intro h
    exact sub_right_injective (congrFun h .workload)
  · intro h
    funext p
    cases p with
    | workload => exact congrArg (clock (b.reads + 1) - ·) h
    | saveRestore | trapRoundtrip | trapEntry | trapBody | mretReturn => rfl

end Baseline

namespace Windowed

def accumulators {H : Type} (L : BareMetal) (b : Timed H) (p : Phase) : Word := L.words b.mem p.acc

/-- Every accumulator is the sum over the `n` iterations of how long its phase took. -/
def Accounted {H : Type} [ActiveConfig H] (L : BareMetal) (clock : Nat → Word) (m : Timed H)
    (n : Nat) (b : Timed H) : Prop :=
  accumulators L b =
    Code.total (ops H clock) (init L) (round L) (fun s p => p.elapsed L clock s) m n

/-- What `run_workload` is going to leave in `t3` is the reading that will have been put there. -/
def KeepsStart {H : Type} (L : BareMetal) (clock : Nat → Word) (b : Timed H) : Prop :=
  workloadT3 workloadArrays (taskId L b) (L.words b.mem) = clock b.reads

theorem after_charged (m : Timed Flat) (n : Nat) :
    ∃ b, after Flat L clock n m = some b ∧ (∃ s, AtLoop L (n % 100) s b) ∧ accumulators L b =
      Code.total (ops Flat clock) (init L) (round L) (Phase.charged L clock) m n := by
  refine Code.total_ends (fun k b => ∃ s, AtLoop L (k % 100) s b) (Phase.charged L clock)
    (accumulators L) ?_ ?_ n
  · exact (ends_init m).mono fun b hb => ⟨⟨0, hb.atLoop⟩, funext hb.accounts⟩
  · rintro k b ⟨s, hb⟩
    exact (ends_round hb).mono fun u hu => ⟨⟨_, by simpa using hb.next hu⟩, funext hu.accounts⟩

theorem accumulators_after {m : Timed Cva6.Regs} (h : m.Default) (n : Nat) :
    ∃ b, after Cva6.Regs L clock n m = some b ∧ accumulators L b =
      Code.total (ops Cva6.Regs clock) (init L) (round L) (Phase.charged L clock) m n := by
  obtain ⟨b, hb, ⟨-, hacc⟩, -⟩ :=
    after_of_flat rfl rfl h (@after_charged L clock m.view n)
  refine ⟨b, hb, hacc.trans ?_⟩
  rw [← (views clock).total rfl rfl _ n h]
  rfl

theorem charged_eq_elapsed_iff {H : Type} (b : Timed H) :
    Phase.charged L clock b = (fun p => p.elapsed L clock b) ↔ KeepsStart L clock b := by
  constructor
  · intro h
    exact sub_right_injective (congrFun h .workload)
  · intro h
    funext p
    cases p with
    | workload => exact congrArg (clock (b.reads + 1) - ·) h
    | spill | restore | stage | trapRoundtrip | trapEntry | trapBody | mretReturn => rfl

end Windowed

theorem words_reset (L : BareMetal) (k : Nat) : L.words Timed.reset.mem k = 0 := by
  unfold BareMetal.words
  split <;> rfl

/-- The first task leaves 13 in `t3`, if its arrays are zero. -/
theorem workloadT3_first {w : Nat} {W : Nat → Word} (h : ∀ k, w ≤ k → k < w + 3200 → W k = 0) :
    workloadT3 w 0 W = 13 := by
  have hprev : W w = 0 := h _ (by omega) (by omega)
  have hint : W (w + 800) = 0 := h _ (by omega) (by omega)
  simp [workloadT3, pidStep, hprev, hint]

theorem Baseline.not_keepsStart (hclock : clock 0 ≠ 13) :
    ∃ b, after Cva6.Regs L clock 0 Timed.reset = some b ∧ ¬ KeepsStart L clock b := by
  obtain ⟨b, hb, ⟨hl, -, harrays, hreads⟩, -⟩ := ends_of_flat (c := .block (init L)) rfl
    Timed.default_reset (@ends_init L clock Timed.reset.view)
  refine ⟨b, (Code.after_zero _ _ _ _).trans hb, fun h => hclock ?_⟩
  have htask : taskId b = 0 := congrArg BitVec.toNat ((b.view_x s0).symm.trans hl.task)
  have hread : b.reads = 0 := hreads
  have hword (k : Nat) (hk : k < 3200) : L.words b.mem k = 0 :=
    (harrays k hk).trans (words_reset L k)
  rw [KeepsStart, htask, hread, workloadT3_first fun k _ hk => hword k (by omega)] at h
  exact h.symm

theorem Windowed.not_keepsStart (hclock : clock 0 ≠ 13) :
    ∃ b, after Cva6.Regs L clock 0 Timed.reset = some b ∧ ¬ KeepsStart L clock b := by
  obtain ⟨b, hb, hi, -⟩ := ends_of_flat (c := init L) rfl Timed.default_reset
    (@ends_init L clock Timed.reset.view)
  refine ⟨b, (Code.after_zero _ _ _ _).trans hb, fun h => hclock ?_⟩
  have htask : taskId L b = 0 := congrArg BitVec.toNat hi.task
  have hread : b.reads = 0 := hi.reads
  have hword (k : Nat) (hk : 416 ≤ k) (hk' : k < 3616) : L.words b.mem k = 0 :=
    (hi.arrays k hk hk').trans (words_reset L k)
  rw [KeepsStart, htask, hread, workloadT3_first fun k hk hk' =>
    hword k hk (by simpa using hk')] at h
  exact h.symm

/-- When the two programs account every phase correctly, up to the end of iteration `n`. -/
theorem stress_accounted_iff (L : BareMetal) (clock : Nat → Word) (m : Timed Cva6.Regs)
    (h : m.Default) (n : Nat) :
    ((∀ k ≤ n, ∃ b, Baseline.after Cva6.Regs L clock k m = some b ∧
        Baseline.Accounted L clock m k b) ↔
      ∀ k < n, ∃ b, Baseline.after Cva6.Regs L clock k m = some b ∧
        Baseline.KeepsStart L clock b) ∧
    ((∀ k ≤ n, ∃ b, Windowed.after Cva6.Regs L clock k m = some b ∧
        Windowed.Accounted L clock m k b) ↔
      ∀ k < n, ∃ b, Windowed.after Cva6.Regs L clock k m = some b ∧
        Windowed.KeepsStart L clock b) :=
  ⟨Code.accumulates_iff (Baseline.accumulators_after h) Baseline.charged_eq_elapsed_iff n,
    Code.accumulates_iff (Windowed.accumulators_after h) Windowed.charged_eq_elapsed_iff n⟩

/-- The 500 iterations from the reset of CVA6, with a counter that shows 100 at the first reading. -/
theorem stress_accounted_iff_reset :
    let clock := fun k => BitVec.ofNat 32 (100 + k)
    ((∀ k ≤ 500, ∃ b, Baseline.after Cva6.Regs .small clock k Timed.reset = some b ∧
        Baseline.Accounted .small clock Timed.reset k b) ↔
      ∀ k < 500, ∃ b, Baseline.after Cva6.Regs .small clock k Timed.reset = some b ∧
        Baseline.KeepsStart .small clock b) ∧
    ((∀ k ≤ 500, ∃ b, Windowed.after Cva6.Regs .small clock k Timed.reset = some b ∧
        Windowed.Accounted .small clock Timed.reset k b) ↔
      ∀ k < 500, ∃ b, Windowed.after Cva6.Regs .small clock k Timed.reset = some b ∧
        Windowed.KeepsStart .small clock b) :=
  stress_accounted_iff .small _ Timed.reset Timed.default_reset 500

/-- There neither program has accounted its first iteration correctly. -/
theorem stress_not_accounted :
    let clock := fun k => BitVec.ofNat 32 (100 + k)
    (∃ b, Baseline.after Cva6.Regs .small clock 1 Timed.reset = some b ∧
      ¬ Baseline.Accounted .small clock Timed.reset 1 b) ∧
    ∃ b, Windowed.after Cva6.Regs .small clock 1 Timed.reset = some b ∧
      ¬ Windowed.Accounted .small clock Timed.reset 1 b := by
  intro clock
  constructor
  · obtain ⟨s, hs, hkeeps⟩ := @Baseline.not_keepsStart .small clock (by decide)
    obtain ⟨b, hb⟩ := @Baseline.accumulators_after .small clock _ Timed.default_reset 1
    exact ⟨b, hb.1, Code.not_accumulates hs hb fun h =>
      hkeeps ((Baseline.charged_eq_elapsed_iff s).mp h)⟩
  · obtain ⟨s, hs, hkeeps⟩ := @Windowed.not_keepsStart .small clock (by decide)
    obtain ⟨b, hb⟩ := @Windowed.accumulators_after .small clock _ Timed.default_reset 1
    exact ⟨b, hb.1, Code.not_accumulates hs hb fun h =>
      hkeeps ((Windowed.charged_eq_elapsed_iff s).mp h)⟩

end RegisterWindows.Bench
