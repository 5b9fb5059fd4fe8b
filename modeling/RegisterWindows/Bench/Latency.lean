import RegisterWindows.Bench.Trap

namespace RegisterWindows.Bench.Latency
open Port

@[simp] abbrev accTrapEntry : Nat := 0
@[simp] abbrev accTrapBody : Nat := 4
@[simp] abbrev accMretReturn : Nat := 8
@[simp] abbrev trapStartCycle : Nat := 12
@[simp] abbrev trapEntryCycle : Nat := 16
@[simp] abbrev mretStartCycle : Nat := 20
@[simp] abbrev loopCounter : Nat := 24
@[simp] abbrev loopIndex : Nat := 28

variable (L : BareMetal) (n : Word)

/-- `main` from the prefill of the signature to the loop. -/
def setup : List Inst :=
  [.li t0 0x120,
   .sw 0 0 t0,
   .sw 0 4 t0,
   .sw 0 8 t0,
   .sw 0 12 t0,
   .sw 0 16 t0,
   .sw 0 20 t0,
   .sw 0 24 t0,
   .sw 0 28 t0,
   .sw 0 32 t0,
   .sw 0 36 t0,
   .sw 0 40 t0,
   .sw 0 44 t0,
   la L t0 loopCounter,
   .li t1 n,
   .sw t1 0 t0,
   .li t0 0x134,
   .sw 0 0 t0,
   .li t0 0x138,
   .li t1 (-1),
   .sw t1 0 t0,
   .li t0 0x13c,
   .sw 0 0 t0,
   la L t0 loopIndex,
   .sw 0 0 t0,
   .li t0 0x118,
   .sw 0 0 t0,
   la L t0 accTrapEntry,
   .sw 0 0 t0,
   la L t0 accTrapBody,
   .sw 0 0 t0,
   la L t0 accMretReturn,
   .sw 0 0 t0]

/-- The test at the head of each loop. -/
def counter : List Inst :=
  [la L t0 loopCounter,
   .lw t1 0 t0]

/-- The minimum and the maximum in the signature, updated with the sample in `rs`. -/
def extremes (rs : Reg) : Asm :=
  .seq (.block
    [.li t0 0x138,
     .lw t1 0 t0])
  (.seq (.branch (.bltu rs t1) (.block [.sw rs 0 t0]) (.block []))
  (.seq (.block
    [.li t0 0x13c,
     .lw t1 0 t0])
    (.branch (.bltu t1 rs) (.block [.sw rs 0 t0]) (.block []))))

/-- From the division to the clamped average; the divisor is in `t2`. -/
def average : Asm :=
  .seq (.block
    [.li t0 0x134,
     .lw a3 0 t0,
     .li t0 0x138,
     .lw a1 0 t0,
     .li t0 0x13c,
     .lw a2 0 t0,
     .op .divu t0 a3 t2,
     .mv a4 t0])
  (.seq (.branch (.bltu a2 a1) (.block [.mv a2 a1]) (.block []))
  (.seq (.branch (.bltu a4 a1) (.block [.mv a4 a1]) (.block []))
    (.branch (.bltu a2 a4) (.block [.mv a4 a2]) (.block []))))

/-- The final stores. What is printed before them, by `print_str` and `print_hex32`, changes `t0`
.. `t5` and `a0`. -/
def signature : List Inst :=
  [.li t1 0x120,
   .sw a1 0 t1,
   .sw a2 4 t1,
   .sw a4 8 t1,
   .sw 0 12 t1,
   .li t0 0x134,
   .lw t2 0 t0,
   .sw t2 16 t1,
   la L t0 accTrapEntry,
   .lw t2 0 t0,
   .sw t2 20 t1,
   la L t0 accTrapBody,
   .lw t2 0 t0,
   .sw t2 24 t1,
   .sw 0 28 t1,
   .sw 0 32 t1,
   .sw 0 36 t1,
   la L t0 accMretReturn,
   .lw t2 0 t0,
   .sw t2 40 t1,
   .sw 0 44 t1]

/-- From `lat_cfg_a` to the `ecall`. -/
def latStage : Asm :=
  .seq (.block
    [la L t0 loopIndex,
     .lw t0 0 t0])
  (.seq (.branch (.beqz t0) (.block [.li t2 0x00200000]) (.block [.li t2 0x00200020]))
  (.block
    [.li t0 0x11c,
     .sw t2 0 t0,
     .csrw .windowStaged t2,
     .mcycle t4,
     la L t0 trapStartCycle,
     .sw t4 0 t0,
     .mcycle t4]))

/-- From the `ecall` to `lh_cfg_skip`. -/
def latSample : Asm :=
  .seq (.block
    [.mcycle t5,
     .op .sub t6 t5 t4,
     la L t0 trapEntryCycle,
     .lw t1 0 t0,
     la L t0 trapStartCycle,
     .lw t2 0 t0,
     .op .sub t3 t1 t2,
     la L t0 accTrapEntry,
     .lw t2 0 t0,
     .op .add t2 t2 t3,
     .sw t2 0 t0,
     la L t0 mretStartCycle,
     .lw t1 0 t0,
     .op .sub t3 t5 t1,
     la L t0 accMretReturn,
     .lw t2 0 t0,
     .op .add t2 t2 t3,
     .sw t2 0 t0,
     .li t0 0x11c,
     .lw t0 0 t0,
     .active t3])
  (.branch (.bne t3 t0) (.block [])
    (.block
      [.li t0 0x134,
       .lw t1 0 t0,
       .op .add t1 t1 t6,
       .sw t1 0 t0]))

/-- From `lh_max_done` to the jump back. -/
def latNext : List Inst :=
  [la L t0 loopCounter,
   .lw t2 0 t0,
   .opi .add t2 t2 (-1),
   .sw t2 0 t0,
   la L t0 loopIndex,
   .lw t1 0 t0,
   .opi .xor t1 t1 1,
   .sw t1 0 t0,
   .li t0 0x118,
   .sw t1 0 t0]

def latBody (code : Word) : Asm :=
  .seq (latStage L)
  (.seq (.trap (trapEntry L trapEntryCycle mretStartCycle accTrapBody code))
  (.seq (latSample L)
  (.seq (extremes t6)
    (.block (latNext L)))))

/-- `latency_hw_window.S` and `rr2_window_switch.S` with `n` iterations. They differ in the code
that a failing handler reports. -/
def latProgram (code : Word) : Asm :=
  .seq (.block (setup L n))
  (.seq (.loop (n.toNat + 1) (.block (counter L)) (.beqz t1) (latBody L code))
  (.seq (.block [.li t2 n])
  (.seq average
    (.block (signature L)))))

def latencyHwWindow : Asm := latProgram L n 0xbad00003

def rr2WindowSwitch : Asm := latProgram L n 0xbad00001

def scaleStage : Asm :=
  .seq (.block
    [la L t0 loopIndex,
     .lw t0 0 t0])
  (.seq (.branch (.beqz t0) (.block [.li t1 0x00080000])
    (.seq (.block [.li t1 1])
    (.branch (.beq t0 t1) (.block [.li t1 0x000c0008])
      (.seq (.block [.li t1 2])
      (.branch (.beq t0 t1) (.block [.li t1 0x00100014])
        (.block [.li t1 0x00140024]))))))
  (.block
    [.li t0 0x11c,
     .sw t1 0 t0,
     .csrw .windowStaged t1,
     .mcycle t2,
     la L t0 trapStartCycle,
     .sw t2 0 t0,
     .mcycle t2]))

def scaleSample : Asm :=
  .seq (.block
    [.mcycle t0,
     .op .sub t2 t0 t2,
     la L t1 trapEntryCycle,
     .lw t3 0 t1,
     la L t1 trapStartCycle,
     .lw t4 0 t1,
     .op .sub t5 t3 t4,
     la L t1 accTrapEntry,
     .lw t4 0 t1,
     .op .add t4 t4 t5,
     .sw t4 0 t1,
     la L t1 mretStartCycle,
     .lw t3 0 t1,
     .op .sub t5 t0 t3,
     la L t1 accMretReturn,
     .lw t4 0 t1,
     .op .add t4 t4 t5,
     .sw t4 0 t1,
     .li t0 0x11c,
     .lw t0 0 t0,
     .active t1])
  (.branch (.bne t1 t0) (.block [])
    (.block
      [.li t0 0x134,
       .lw t1 0 t0,
       .op .add t1 t1 t2,
       .sw t1 0 t0]))

def scaleNext : Asm :=
  .seq (.block
    [la L t0 loopCounter,
     .lw t2 0 t0,
     .opi .add t2 t2 (-1),
     .sw t2 0 t0,
     la L t0 loopIndex,
     .lw t1 0 t0,
     .opi .add t1 t1 1,
     .li t2 4])
  (.seq (.branch (.blt t1 t2) (.block []) (.block [.li t1 0]))
  (.block
    [.sw t1 0 t0,
     .li t0 0x118,
     .sw t1 0 t0]))

def scaleTrap : Asm := .trap (trapEntry L trapEntryCycle mretStartCycle accTrapBody 0xbad00005)

def scaleBody : Asm :=
  .seq (scaleStage L)
  (.seq (scaleTrap L)
  (.seq (scaleSample L)
  (.seq (extremes t2)
    (scaleNext L))))

def scale4MixedWindowSwitch : Asm :=
  .seq (.block (setup L n))
  (.seq (.loop (n.toNat + 1) (.block (counter L)) (.beqz t1) (scaleBody L))
  (.seq (.block
    [.li t2 n,
     .li t0 0x00200000,
     .csrw .windowStaged t0])
  (.seq (scaleTrap L)
  (.seq average
    (.block (signature L))))))

variable {L} {clock : Nat → Word} {m : Timed Flat}

/-- The sum, the minimum and the maximum so far, in `0x134` .. `0x13c`. -/
structure Totals where
  sum : Word
  min : Word
  max : Word

def totals (m : Timed Flat) : Totals := ⟨m.mem 0x134, m.mem 0x138, m.mem 0x13c⟩

theorem ends_setup (m : Timed Flat) :
    Code.Ends (ops Flat clock) (.block (setup L n)) m fun m' =>
      totals m' = ⟨0, -1, 0⟩ ∧ L.words m'.mem loopCounter = n ∧ L.words m'.mem loopIndex = 0 ∧
        L.words m'.mem accTrapBody = 0 ∧ m'.reads = m.reads := by
  simp [Code.ends_block, ops, setup, Timed.step, Timed.x_setX, totals]

def Totals.compare (t : Totals) (x : Word) : Totals where
  sum := t.sum
  min := if x.ult t.min then x else t.min
  max := if t.max.ult x then x else t.max

def Totals.add (t : Totals) (x : Word) : Totals := { t with sum := t.sum + x }

theorem ends_extremes {rs : Reg} (hrs : rs ≠ t0) (hrs' : rs ≠ t1) (m : Timed Flat) :
    Code.Ends (ops Flat clock) (extremes rs) m fun m' =>
      totals m' = (totals m).compare (m.x rs) ∧ L.words m'.mem = L.words m.mem ∧
        m'.reads = m.reads := by
  simp only [extremes, Code.ends_seq, Code.ends_block, Code.ends_branch, List.foldl_cons,
    List.foldl_nil, ops, Timed.step, Timed.holds]
  simp [Timed.x_setX, *]
  split <;> split <;> simp [totals, Totals.compare, *]

theorem ends_latStage (m : Timed Flat) :
    Code.Ends (ops Flat clock) (latStage L) m fun m' =>
      totals m' = totals m ∧
        L.words m'.mem = Function.update (L.words m.mem) trapStartCycle (clock m.reads) ∧
        m'.mem 0x11c = (if L.words m.mem loopIndex = 0 then 0x00200000 else 0x00200020) ∧
        m'.reads = m.reads + 2 := by
  simp only [latStage, Code.ends_seq, Code.ends_block, Code.ends_branch, List.foldl_cons,
    List.foldl_nil, ops, Timed.step, Timed.holds]
  simp [Timed.x_setX]
  split <;> simp [totals, *]

/-- The words that an iteration passes on to the next one. -/
structure Kept (L : BareMetal) (m m' : Timed Flat) : Prop where
  counter : L.words m'.mem loopCounter = L.words m.mem loopCounter
  index : L.words m'.mem loopIndex = L.words m.mem loopIndex
  body : L.words m'.mem accTrapBody = L.words m.mem accTrapBody

theorem ends_latSample (m : Timed Flat) :
    Code.Ends (ops Flat clock) (latSample L) m fun m' =>
      totals m' = (if 0x00200000 = m.mem 0x11c then (totals m).add (clock m.reads - m.x t4)
        else totals m) ∧
      m'.x t6 = clock m.reads - m.x t4 ∧ Kept L m m' ∧ m'.reads = m.reads + 1 := by
  have hactive (h : Flat) : ActiveConfig.activeConfig h = (0x00200000 : Word) := rfl
  simp only [latSample, Code.ends_seq, Code.ends_block, Code.ends_branch, List.foldl_cons,
    List.foldl_nil, ops, Timed.step, Timed.holds, hactive]
  simp [Timed.x_setX, Alu.eval]
  by_cases hcfg : 0x00200000#32 = m.mem 0x11c#32
  · simp only [if_pos hcfg]
    refine ⟨by simp [totals, Totals.add], ?_⟩
    constructor <;> simp
  · simp only [if_neg hcfg]
    refine ⟨by simp [totals], ?_⟩
    constructor <;> simp

theorem ends_latNext (m : Timed Flat) :
    Code.Ends (ops Flat clock) (.block (latNext L)) m fun m' =>
      totals m' = totals m ∧ L.words m'.mem loopCounter = L.words m.mem loopCounter - 1 ∧
        L.words m'.mem loopIndex = L.words m.mem loopIndex ^^^ 1 ∧
        L.words m'.mem accTrapBody = L.words m.mem accTrapBody ∧ m'.reads = m.reads := by
  simp [Code.ends_block, ops, latNext, Timed.step, Timed.x_setX, Alu.eval, totals, add_neg_one]

theorem ends_trap (code : Word) (m : Timed Flat) :
    Code.Ends (ops Flat clock) (.trap (trapEntry L trapEntryCycle mretStartCycle accTrapBody code)) m
      (Trapped L clock trapEntryCycle mretStartCycle accTrapBody m) :=
  ends_ecall L clock code (by decide) (by decide) (by decide) (by decide) (by decide) (by decide) m

theorem totals_trapped {entryCycle mretCycle accBody : Nat} {m m' : Timed Flat}
    (h : Trapped L clock entryCycle mretCycle accBody m m') : totals m' = totals m := by
  simp [totals, h.mem_low]

/-- The handler leaves `acc_trap_body` in the register of the start reading. -/
theorem ends_latBody (code : Word) (m : Timed Flat) :
    let body := L.words m.mem accTrapBody + (clock (m.reads + 3) - clock (m.reads + 2))
    let x := clock (m.reads + 4) - body
    Code.Ends (ops Flat clock) (latBody L code) m fun m' =>
      totals m' =
        (if L.words m.mem loopIndex = 0 then (totals m).add x else totals m).compare x ∧
      L.words m'.mem loopCounter = L.words m.mem loopCounter - 1 ∧
      L.words m'.mem loopIndex = L.words m.mem loopIndex ^^^ 1 ∧
      L.words m'.mem accTrapBody = body ∧ m'.reads = m.reads + 5 := by
  intro body x
  refine Code.Ends.seq (ends_latStage m) ?_
  rintro a ⟨hta, hwa, hca, hra⟩
  refine Code.Ends.seq (ends_trap code a) fun b hb => ?_
  refine Code.Ends.seq (ends_latSample b) ?_
  rintro c ⟨htc, hxc, hkc, hrc⟩
  refine Code.Ends.seq (ends_extremes (L := L) (by decide) (by decide) c) ?_
  rintro d ⟨htd, hwd, hrd⟩
  have hx : c.x t6 = x := by
    rw [hxc, hb.reads, hra, hb.x_t4, hwa, hra]
    simp [x, body]
  have hcfg : (0x00200000 : Word) = b.mem 0x11c ↔ L.words m.mem loopIndex = 0 := by
    rw [hb.mem_low _ (by decide), hca]
    by_cases h0 : L.words m.mem loopIndex = 0
    · simp only [h0, if_true]
    · simp only [h0, if_false, iff_false]
      decide
  refine (ends_latNext d).mono ?_
  rintro e ⟨hte, hcounter, hindex, hbody, hre⟩
  refine ⟨?_, ?_, ?_, ?_, ?_⟩
  · rw [hte, htd, htc, ← hxc, hx, totals_trapped hb, hta]
    simp only [hcfg]
  · rw [hcounter, hwd, hkc.counter, hb.words, hwa]
    simp
  · rw [hindex, hwd, hkc.index, hb.words, hwa]
    simp
  · rw [hbody, hwd, hkc.body, hb.words, hwa, hra]
    simp [body]
  · rw [hre, hrd, hrc, hb.reads, hra]

theorem ends_scaleStage (m : Timed Flat) :
    Code.Ends (ops Flat clock) (scaleStage L) m fun m' =>
      totals m' = totals m ∧
        L.words m'.mem = Function.update (L.words m.mem) trapStartCycle (clock m.reads) ∧
        m'.mem 0x11c ∈ ([0x00080000, 0x000c0008, 0x00100014, 0x00140024] : List Word) ∧
        m'.reads = m.reads + 2 := by
  simp only [scaleStage, Code.ends_seq, Code.ends_block, Code.ends_branch, List.foldl_cons,
    List.foldl_nil, ops, Timed.step, Timed.holds]
  simp [Timed.x_setX]
  split
  · simp [totals]
  · split
    · simp [totals]
    · split <;> simp [totals]

theorem ends_scaleSample (m : Timed Flat) (hcfg : (0x00200000 : Word) ≠ m.mem 0x11c) :
    Code.Ends (ops Flat clock) (scaleSample L) m fun m' =>
      totals m' = totals m ∧ m'.x t2 = clock m.reads - m.x t2 ∧ Kept L m m' ∧
        m'.reads = m.reads + 1 := by
  have hactive (h : Flat) : ActiveConfig.activeConfig h = (0x00200000 : Word) := rfl
  have hcfg' : ¬ 0x00200000#32 = m.mem 0x11c#32 := hcfg
  simp only [scaleSample, Code.ends_seq, Code.ends_block, Code.ends_branch, List.foldl_cons,
    List.foldl_nil, ops, Timed.step, Timed.holds, hactive]
  simp [Timed.x_setX, Alu.eval, hcfg']
  refine ⟨by simp [totals], ?_⟩
  constructor <;> simp

theorem ends_scaleNext (m : Timed Flat) :
    Code.Ends (ops Flat clock) (scaleNext L) m fun m' =>
      totals m' = totals m ∧ L.words m'.mem loopCounter = L.words m.mem loopCounter - 1 ∧
        m'.reads = m.reads := by
  simp only [scaleNext, Code.ends_seq, Code.ends_block, Code.ends_branch, List.foldl_cons,
    List.foldl_nil, ops, Timed.step, Timed.holds]
  simp [Timed.x_setX, Alu.eval, add_neg_one]
  split <;> simp [totals]

/-- Here the handler leaves its last reading in that register, and no staged configuration is ever
read back. -/
theorem ends_scaleBody (m : Timed Flat) :
    Code.Ends (ops Flat clock) (scaleBody L) m fun m' =>
      totals m' = (totals m).compare (clock (m.reads + 4) - clock (m.reads + 3)) ∧
      L.words m'.mem loopCounter = L.words m.mem loopCounter - 1 ∧ m'.reads = m.reads + 5 := by
  refine Code.Ends.seq (ends_scaleStage m) ?_
  rintro a ⟨hta, hwa, hca, hra⟩
  refine Code.Ends.seq (ends_trap _ a) fun b hb => ?_
  have hcfg : (0x00200000 : Word) ≠ b.mem 0x11c := by
    rw [hb.mem_low _ (by decide)]
    intro he
    rw [← he] at hca
    exact absurd hca (by decide)
  refine Code.Ends.seq (ends_scaleSample b hcfg) ?_
  rintro c ⟨htc, hxc, hkc, hrc⟩
  refine Code.Ends.seq (ends_extremes (L := L) (by decide) (by decide) c) ?_
  rintro d ⟨htd, hwd, hrd⟩
  refine (ends_scaleNext d).mono ?_
  rintro e ⟨hte, hcounter, hre⟩
  refine ⟨?_, ?_, ?_⟩
  · rw [hte, htd, htc, hxc, totals_trapped hb, hta, hb.reads, hb.x_t2, hra]
  · rw [hcounter, hwd, hkc.counter, hb.words, hwa]
    simp
  · rw [hre, hrd, hrc, hb.reads, hra]

/-- `acc_trap_body` after `k` iterations that began at reading `r`. -/
def trapBody (clock : Nat → Word) (r : Nat) : Nat → Word
  | 0 => 0
  | k + 1 => trapBody clock r k + (clock (r + 5 * k + 3) - clock (r + 5 * k + 2))

/-- The sample of iteration `k` in `lat_loop` and `rr2_loop`. -/
def latSampleAt (clock : Nat → Word) (r k : Nat) : Word :=
  clock (r + 5 * k + 4) - trapBody clock r (k + 1)

/-- The samples of `lat_cfg_a` are the ones that are added. -/
def latTotals (clock : Nat → Word) (r : Nat) : Nat → Totals
  | 0 => ⟨0, -1, 0⟩
  | k + 1 =>
    let x := latSampleAt clock r k
    (if k % 2 = 0 then (latTotals clock r k).add x else latTotals clock r k).compare x

/-- The sample of iteration `k` in `scale_loop`. -/
def scaleSampleAt (clock : Nat → Word) (r k : Nat) : Word :=
  clock (r + 5 * k + 4) - clock (r + 5 * k + 3)

def scaleTotals (clock : Nat → Word) (r : Nat) : Nat → Totals
  | 0 => ⟨0, -1, 0⟩
  | k + 1 => (scaleTotals clock r k).compare (scaleSampleAt clock r k)

/-- What a program stores at `0x120`, `0x124` and `0x128`. -/
structure Report where
  min : Word
  max : Word
  avg : Word

def report {H : Type} (m : Timed H) : Report := ⟨m.mem 0x120, m.mem 0x124, m.mem 0x128⟩

/-- The average and its bounds, after the clamps. -/
def Totals.report (t : Totals) (divisor : Word) : Report :=
  let max := if t.max.ult t.min then t.min else t.max
  let avg := Alu.divu.eval t.sum divisor
  let avg := if avg.ult t.min then t.min else avg
  ⟨t.min, max, if max.ult avg then max else avg⟩

theorem ends_average (m : Timed Flat) :
    Code.Ends (ops Flat clock) average m fun m' =>
      (⟨m'.x a1, m'.x a2, m'.x a4⟩ : Report) = (totals m).report (m.x t2) := by
  simp only [average, Code.ends_seq, Code.ends_block, Code.ends_branch, List.foldl_cons,
    List.foldl_nil, ops, Timed.step, Timed.holds]
  simp [Timed.x_setX]
  split <;> split <;> try split
  all_goals simp [Totals.report, totals, *]

theorem signature_run (m : Timed Flat) :
    report ((signature L).foldl (Timed.step clock) m) = ⟨m.x a1, m.x a2, m.x a4⟩ := by
  simp [report, signature, Timed.step, Timed.x_setX]

theorem ends_counter (m : Timed Flat) :
    Code.Ends (ops Flat clock) (.block (counter L)) m fun m' =>
      m'.holds (.beqz t1) = (L.words m.mem loopCounter == 0) ∧ m'.mem = m.mem ∧
        m'.reads = m.reads := by
  simp [Code.ends_block, ops, counter, Timed.step, Timed.holds, Timed.x_setX]

/-- The head of the loop, with `j` iterations to go. -/
structure LatHead (L : BareMetal) (clock : Nat → Word) (n : Word) (r j : Nat) (m : Timed Flat) :
    Prop where
  le : j ≤ n.toNat
  counter : L.words m.mem loopCounter = BitVec.ofNat 32 j
  index : L.words m.mem loopIndex = BitVec.ofNat 32 ((n.toNat - j) % 2)
  body : L.words m.mem accTrapBody = trapBody clock r (n.toNat - j)
  totals : totals m = latTotals clock r (n.toNat - j)
  reads : m.reads = r + 5 * (n.toNat - j)

theorem latHead_next (code : Word) {r k : Nat} {s : Timed Flat}
    (hs : LatHead L clock n r (k + 1) s) :
    Code.Ends (ops Flat clock) (.block (counter L)) s fun t => t.holds (.beqz t1) = false ∧
      Code.Ends (ops Flat clock) (latBody L code) t (LatHead L clock n r k) := by
  have hle := hs.le
  have hlt := n.isLt
  obtain ⟨d, hd, hd'⟩ : ∃ d, n.toNat - (k + 1) = d ∧ n.toNat - k = d + 1 := ⟨_, rfl, by omega⟩
  refine (ends_counter s).mono ?_
  rintro t ⟨hc, hmem, hreads⟩
  have hindex : L.words t.mem loopIndex = BitVec.ofNat 32 (d % 2) := by rw [hmem, hs.index, hd]
  have hbody : L.words t.mem accTrapBody = trapBody clock r d := by rw [hmem, hs.body, hd]
  have hread : t.reads = r + 5 * d := by rw [hreads, hs.reads, hd]
  have htotals : totals t = latTotals clock r d := by
    rw [← hd, ← hs.totals]
    simp only [Latency.totals, hmem]
  have hzero : L.words t.mem loopIndex = 0 ↔ d % 2 = 0 := by
    rw [hindex]
    rcases Nat.mod_two_eq_zero_or_one d with h | h <;> simp [h]
  refine ⟨hc.trans ?_, (ends_latBody code t).mono ?_⟩
  · rw [hs.counter]
    exact beq_false_of_ne (ofNat_succ_ne_zero (by omega))
  · rintro u ⟨hu, hcounter, hindex', hbody', hr⟩
    rw [hbody, hread] at hu hbody'
    refine ⟨by omega, ?_, ?_, ?_, ?_, ?_⟩
    · rw [hcounter, hmem, hs.counter, ofNat_succ_sub_one]
    · rw [hindex', hindex, hd']
      rcases Nat.mod_two_eq_zero_or_one d with h | h <;> simp [h, Nat.add_mod]
    · rw [hbody', hd']
      rfl
    · rw [hu, hd', htotals]
      simp only [hzero]
      rfl
    · rw [hr, hread, hd']
      omega

theorem ends_latLoop (code : Word) {r : Nat} (h : LatHead L clock n r n.toNat m) :
    Code.Ends (ops Flat clock)
      (.loop (n.toNat + 1) (.block (counter L)) (.beqz t1) (latBody L code)) m
      fun m' => totals m' = latTotals clock r n.toNat := by
  refine Code.Ends.loop (LatHead L clock n r) (fun s hs => ?_)
    (fun k s hs => latHead_next n code hs) (Nat.lt_succ_self _) h
  refine (ends_counter s).mono ?_
  rintro t ⟨hc, hmem, -⟩
  refine ⟨hc.trans ?_, ?_⟩
  · rw [hs.counter]
    rfl
  · have htotals := hs.totals
    simp only [Latency.totals, hmem] at htotals ⊢
    exact htotals

theorem ends_close {prep : Asm} {divisor : Word} {s : Timed Flat}
    (h : Code.Ends (ops Flat clock) prep s fun t => totals t = totals s ∧ t.x t2 = divisor) :
    Code.Ends (ops Flat clock) (.seq prep (.seq average (.block (signature L)))) s fun m' =>
      report m' = (totals s).report divisor := by
  refine Code.Ends.seq h ?_
  rintro t ⟨htotals, hdivisor⟩
  refine Code.Ends.seq (ends_average t) fun u hu => Code.ends_block.mpr ?_
  rw [← htotals, ← hdivisor, ← hu]
  exact signature_run u

/-- What `latency_hw_window.S` and `rr2_window_switch.S` report, as a function of the readings. -/
theorem ends_latProgram (code : Word) (m : Timed Flat) :
    Code.Ends (ops Flat clock) (latProgram L n code) m fun m' =>
      report m' = (latTotals clock m.reads n.toNat).report n := by
  refine Code.Ends.seq (ends_setup n m) ?_
  rintro s ⟨htotals, hcounter, hindex, hbody, hreads⟩
  have hs : LatHead L clock n m.reads n.toNat s := by
    refine ⟨Nat.le_refl _, ?_, ?_, ?_, ?_, ?_⟩
    · rw [hcounter, BitVec.ofNat_toNat, BitVec.setWidth_eq]
    all_goals simpa only [Nat.sub_self]
  refine Code.Ends.seq (ends_latLoop n code hs) fun t ht => ?_
  rw [← ht]
  exact ends_close (Code.ends_block.mpr ⟨rfl, by simp [ops, Timed.step, Timed.x_setX]⟩)

structure ScaleHead (L : BareMetal) (clock : Nat → Word) (n : Word) (r j : Nat) (m : Timed Flat) :
    Prop where
  le : j ≤ n.toNat
  counter : L.words m.mem loopCounter = BitVec.ofNat 32 j
  totals : totals m = scaleTotals clock r (n.toNat - j)
  reads : m.reads = r + 5 * (n.toNat - j)

theorem scaleHead_next {r k : Nat} {s : Timed Flat} (hs : ScaleHead L clock n r (k + 1) s) :
    Code.Ends (ops Flat clock) (.block (counter L)) s fun t => t.holds (.beqz t1) = false ∧
      Code.Ends (ops Flat clock) (scaleBody L) t (ScaleHead L clock n r k) := by
  have hle := hs.le
  have hlt := n.isLt
  obtain ⟨d, hd, hd'⟩ : ∃ d, n.toNat - (k + 1) = d ∧ n.toNat - k = d + 1 := ⟨_, rfl, by omega⟩
  refine (ends_counter s).mono ?_
  rintro t ⟨hc, hmem, hreads⟩
  have hread : t.reads = r + 5 * d := by rw [hreads, hs.reads, hd]
  have htotals : totals t = scaleTotals clock r d := by
    rw [← hd, ← hs.totals]
    simp only [Latency.totals, hmem]
  refine ⟨hc.trans ?_, (ends_scaleBody t).mono ?_⟩
  · rw [hs.counter]
    exact beq_false_of_ne (ofNat_succ_ne_zero (by omega))
  · rintro u ⟨hu, hcounter, hr⟩
    refine ⟨by omega, ?_, ?_, ?_⟩
    · rw [hcounter, hmem, hs.counter, ofNat_succ_sub_one]
    · rw [hu, hd', htotals, hread]
      rfl
    · rw [hr, hread, hd']
      omega

theorem ends_scaleLoop {r : Nat} (h : ScaleHead L clock n r n.toNat m) :
    Code.Ends (ops Flat clock)
      (.loop (n.toNat + 1) (.block (counter L)) (.beqz t1) (scaleBody L)) m
      fun m' => totals m' = scaleTotals clock r n.toNat := by
  refine Code.Ends.loop (ScaleHead L clock n r) (fun s hs => ?_)
    (fun k s hs => scaleHead_next n hs) (Nat.lt_succ_self _) h
  refine (ends_counter s).mono ?_
  rintro t ⟨hc, hmem, -⟩
  refine ⟨hc.trans ?_, ?_⟩
  · rw [hs.counter]
    rfl
  · have htotals := hs.totals
    simp only [Latency.totals, hmem] at htotals ⊢
    exact htotals

/-- The same for `scale4_mixed_window_switch.S`, where the final `ecall` replaces the divisor. -/
theorem ends_scale4MixedWindowSwitch (m : Timed Flat) :
    Code.Ends (ops Flat clock) (scale4MixedWindowSwitch L n) m fun m' =>
      ∃ divisor, report m' = (scaleTotals clock m.reads n.toNat).report divisor := by
  refine Code.Ends.seq (ends_setup n m) ?_
  rintro s ⟨htotals, hcounter, hindex, hbody, hreads⟩
  have hs : ScaleHead L clock n m.reads n.toNat s := by
    refine ⟨Nat.le_refl _, ?_, ?_, ?_⟩
    · rw [hcounter, BitVec.ofNat_toNat, BitVec.setWidth_eq]
    all_goals simpa only [Nat.sub_self]
  refine Code.Ends.seq (ends_scaleLoop n hs) fun t ht => ?_
  rw [← ht]
  refine Code.Ends.seq (P := fun u => totals u = totals t)
    (Code.ends_block.mpr (by simp [ops, Timed.step, totals])) fun u hu => ?_
  rw [← hu]
  have htrap : Code.Ends (ops Flat clock) (scaleTrap L) u fun v =>
      totals v = totals u ∧ v.x t2 = clock (u.reads + 1) :=
    (ends_trap _ u).mono fun v hv => ⟨totals_trapped hv, hv.x_t2⟩
  exact (ends_close htrap).mono fun v hv => ⟨_, hv⟩

end RegisterWindows.Bench.Latency
