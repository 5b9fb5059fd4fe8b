import RegisterWindows.Bench.Workload

namespace RegisterWindows.Bench.Baseline
open Port

@[simp] abbrev accWorkload : Nat := 3200
@[simp] abbrev accSaveRestore : Nat := 3204
@[simp] abbrev accTrapRoundtrip : Nat := 3208
@[simp] abbrev accTrapEntry : Nat := 3212
@[simp] abbrev accTrapBody : Nat := 3216
@[simp] abbrev accMretReturn : Nat := 3220
@[simp] abbrev switchStartCycle : Nat := 3224
@[simp] abbrev trapStartCycle : Nat := 3228
@[simp] abbrev trapEntryCycle : Nat := 3232
@[simp] abbrev mretStartCycle : Nat := 3236

section
variable (L : BareMetal)

/-- `_start`, and `main` from `li s0, 0` to `srb_loop`. -/
def init : List Inst :=
  [.li sp L.stackTop,
   .li s0 0,
   .li s1 500,
   .li s2 0,
   .li s3 (-1),
   .li s4 0,
   .li s5 0,
   .li s6 0,
   la L t0 accWorkload,
   .sw 0 0 t0,
   la L t0 accSaveRestore,
   .sw 0 0 t0,
   la L t0 accTrapRoundtrip,
   .sw 0 0 t0,
   la L t0 accTrapEntry,
   .sw 0 0 t0,
   la L t0 accTrapBody,
   .sw 0 0 t0,
   la L t0 accMretReturn,
   .sw 0 0 t0,
   .li t0 0x118,
   .sw 0 0 t0]

def storeLoop (minusOne : Word) : List Inst :=
  [.sw t0 0 t1,
   .opi .add t1 t1 4,
   .opi .add t0 t0 minusOne]

def loadLoop (minusOne : Word) : List Inst :=
  [.lw t2 0 t1,
   .opi .add t1 t1 4,
   .opi .add t0 t0 minusOne]

def enterFrame (size : Word) : List Inst :=
  [.opi .add sp sp size,
   .li t0 32,
   .mv t1 sp]

def swContextSaveRestore : Asm :=
  .seq (.block (enterFrame (-128)))
  (.seq (.loop 32 (.block (storeLoop (-1))) (.beqz t0) (.block []))
  (.seq (.block
    [.li t0 32,
     .mv t1 sp])
  (.seq (.loop 32 (.block (loadLoop (-1))) (.beqz t0) (.block []))
  (.block [.opi .add sp sp 128]))))

def callWorkload : Asm :=
  .seq (.block
    [.mcycle t3,
     .mv a0 s0])
  (.seq (runWorkload L 0)
  (.block
    [.mcycle t4,
     .op .sub t5 t4 t3,
     la L t0 accWorkload,
     .lw t1 0 t0,
     .op .add t1 t1 t5,
     .sw t1 0 t0,
     .mcycle t3,
     la L t0 switchStartCycle,
     .sw t3 0 t0,
     .mcycle t3]))

def afterSaveRestore : List Inst :=
  [.mcycle t4,
   .op .sub t5 t4 t3,
   la L t0 accSaveRestore,
   .lw t1 0 t0,
   .op .add t1 t1 t5,
   .sw t1 0 t0,
   .mcycle t3,
   la L t0 trapStartCycle,
   .sw t3 0 t0]

def afterTrap : List Inst :=
  [.mcycle t4,
   la L t0 trapEntryCycle,
   .lw t6 0 t0,
   la L t0 trapStartCycle,
   .lw t3 0 t0,
   .op .sub t5 t6 t3,
   la L t0 accTrapEntry,
   .lw t1 0 t0,
   .op .add t1 t1 t5,
   .sw t1 0 t0,
   la L t0 mretStartCycle,
   .lw t6 0 t0,
   .op .sub t5 t4 t6,
   la L t0 accMretReturn,
   .lw t1 0 t0,
   .op .add t1 t1 t5,
   .sw t1 0 t0,
   la L t0 trapStartCycle,
   .lw t3 0 t0,
   .op .sub t5 t4 t3,
   la L t0 accTrapRoundtrip,
   .lw t1 0 t0,
   .op .add t1 t1 t5,
   .sw t1 0 t0,
   la L t0 switchStartCycle,
   .lw t3 0 t0,
   .op .sub t2 t4 t3]

def nextTask : Asm :=
  .seq (.block [.op .add s2 s2 t2])
  (.seq (.branch (.bltu t2 s3) (.block [.mv s3 t2]) (.block []))
  (.seq (.branch (.bltu s4 t2) (.block [.mv s4 t2]) (.block []))
  (.seq (.block
    [.opi .add s5 s5 1,
     .opi .add s0 s0 1,
     .li t0 100])
  (.seq (.branch (.blt s0 t0) (.block []) (.block [.li s0 0]))
  (.block
    [.li t0 0x118,
     .sw s5 0 t0])))))

/-- `srb_loop`, from its test to the jump back. -/
def round : Asm :=
  .seq (callWorkload L)
  (.seq swContextSaveRestore
  (.seq (.block (afterSaveRestore L))
  (.seq (.trap (trapEntry L trapEntryCycle mretStartCycle accTrapBody 0xbad00008))
  (.seq (.block (afterTrap L))
    nextTask))))

end

/-- `main` of `stress_rt_baseline100.S` up to the `n`-th return to `srb_loop`, whose bound is left
to `n`. -/
def after (H : Type) [ActiveConfig H] (L : BareMetal) (clock : Nat → Word) (n : Nat) (m : Timed H) :
    Option (Timed H) :=
  Code.after (ops H clock) (.block (init L)) (round L) n m

variable {L : BareMetal} {clock : Nat → Word} {t : Nat} {m : Timed Flat}

/-- Pass `32 - k` of either loop of `sw_context_save_restore` is about to begin. -/
structure Passing (L : BareMetal) (m₀ : Timed Flat) (k : Nat) (m : Timed Flat) : Prop where
  le : k < 32
  x_t0 : m.x t0 = BitVec.ofNat 32 (k + 1)
  x_t1 : (m.x t1).toNat + 4 * (k + 1) = L.stackTop.toNat
  x_other : ∀ r, r ∉ [t0, t1, t2] → m.x r = m₀.x r
  words : L.words m.mem = L.words m₀.mem
  reads : m.reads = m₀.reads

theorem Passing.frame {m₀ : Timed Flat} {k : Nat} (h : Passing L m₀ k m) :
    ∀ j < 0x2000, m.x t1 ≠ L.addr j := by
  intro j hj he
  have hle := h.le
  have ht1 := h.x_t1
  have := L.below_stack
  rw [he, L.addr_toNat hj] at ht1
  omega

theorem storeLoop_run (v : Word) (m : Timed Flat) :
    let m' := (storeLoop v).foldl (Timed.step clock) m
    m'.x t0 = m.x t0 + v ∧ m'.x t1 = m.x t1 + 4 ∧
      (∀ r, r ∉ [t0, t1, t2] → m'.x r = m.x r) ∧
      m'.mem = Function.update m.mem (m.x t1) (m.x t0) ∧ m'.reads = m.reads := by
  refine ⟨?_, ?_, ?_, ?_, rfl⟩
  · simp [storeLoop, Timed.step, Timed.x_setX, Alu.eval]
  · simp [storeLoop, Timed.step, Timed.x_setX, Alu.eval]
  · intro r hr
    simp only [List.mem_cons, List.not_mem_nil, or_false, not_or] at hr
    simp [storeLoop, Timed.step, Timed.x_setX, hr]
  · simp [storeLoop, Timed.step]

theorem loadLoop_run (v : Word) (m : Timed Flat) :
    let m' := (loadLoop v).foldl (Timed.step clock) m
    m'.x t0 = m.x t0 + v ∧ m'.x t1 = m.x t1 + 4 ∧
      (∀ r, r ∉ [t0, t1, t2] → m'.x r = m.x r) ∧ m'.mem = m.mem ∧ m'.reads = m.reads := by
  refine ⟨?_, ?_, ?_, rfl, rfl⟩
  · simp [loadLoop, Timed.step, Timed.x_setX, Alu.eval]
  · simp [loadLoop, Timed.step, Timed.x_setX, Alu.eval]
  · intro r hr
    simp only [List.mem_cons, List.not_mem_nil, or_false, not_or] at hr
    simp [loadLoop, Timed.step, Timed.x_setX, hr]

structure Pass (L : BareMetal) (m m' : Timed Flat) : Prop where
  x_t0 : m'.x t0 = m.x t0 - 1
  x_t1 : m'.x t1 = m.x t1 + 4
  x_other : ∀ r, r ∉ [t0, t1, t2] → m'.x r = m.x r
  words : L.words m'.mem = L.words m.mem
  reads : m'.reads = m.reads

theorem Passing.store {m₀ : Timed Flat} {k : Nat} (h : Passing L m₀ k m) :
    Pass L m ((storeLoop (-1)).foldl (Timed.step clock) m) := by
  obtain ⟨h0, h1, ho, hm, hr⟩ := @storeLoop_run clock (-1) m
  refine ⟨h0.trans (add_neg_one _), h1, ho, ?_, hr⟩
  rw [hm]
  exact L.words_update_of_ne _ _ h.frame

theorem Passing.load {m₀ : Timed Flat} {k : Nat} (_ : Passing L m₀ k m) :
    Pass L m ((loadLoop (-1)).foldl (Timed.step clock) m) := by
  obtain ⟨h0, h1, ho, hm, hr⟩ := @loadLoop_run clock (-1) m
  exact ⟨h0.trans (add_neg_one _), h1, ho, congrArg L.words hm, hr⟩

structure Passed (L : BareMetal) (m m' : Timed Flat) : Prop where
  x_other : ∀ r, r ∉ [t0, t1, t2] → m'.x r = m.x r
  words : L.words m'.mem = L.words m.mem
  reads : m'.reads = m.reads

theorem Passing.next {m₀ m' : Timed Flat} {k : Nat} (h : Passing L m₀ (k + 1) m)
    (hp : Pass L m m') : Passing L m₀ k m' where
  le := Nat.lt_of_succ_lt h.le
  x_t0 := by rw [hp.x_t0, h.x_t0, ofNat_succ_sub_one]
  x_t1 := by
    have ht1 := h.x_t1
    have hlt := L.stackTop.isLt
    rw [hp.x_t1, BitVec.toNat_add, show (4 : Word).toNat = 4 from rfl]
    omega
  x_other r hr := (hp.x_other r hr).trans (h.x_other r hr)
  words := hp.words.trans h.words
  reads := hp.reads.trans h.reads

theorem ends_passes {m₀ : Timed Flat} {is : List Inst}
    (hpass : ∀ k m, Passing L m₀ k m → Pass L m (is.foldl (Timed.step clock) m))
    (h : Passing L m₀ 31 m) :
    Code.Ends (ops Flat clock) (.loop 32 (.block is) (.beqz t0) (.block [])) m (Passed L m₀) := by
  refine Code.Ends.loop (Passing L m₀) (fun s hs => ?_) (fun k s hs => ?_)
    (Nat.lt_succ_self 31) h
  · have hp := hpass 0 s hs
    refine Code.ends_block.mpr ⟨?_, fun r hr => (hp.x_other r hr).trans (hs.x_other r hr),
      hp.words.trans hs.words, hp.reads.trans hs.reads⟩
    have h0 := hp.x_t0
    rw [hs.x_t0] at h0
    exact beq_iff_eq.mpr h0
  · have hp := hs.next (hpass (k + 1) s hs)
    refine Code.ends_block.mpr ⟨?_, Code.ends_block.mpr hp⟩
    have hle := hp.le
    exact beq_false_of_ne (hp.x_t0 ▸ ofNat_succ_ne_zero (by omega))

theorem enterFrame_run (v : Word) (m : Timed Flat) :
    let m' := (enterFrame v).foldl (Timed.step clock) m
    m'.x sp = m.x sp + v ∧ m'.x t0 = 32 ∧ m'.x t1 = m.x sp + v ∧
      (∀ r, r ∉ [sp, t0, t1] → m'.x r = m.x r) ∧ m'.mem = m.mem ∧ m'.reads = m.reads := by
  refine ⟨?_, ?_, ?_, ?_, rfl, rfl⟩
  · simp [enterFrame, Timed.step, Timed.x_setX, Alu.eval]
  · simp [enterFrame, Timed.step, Timed.x_setX]
  · simp [enterFrame, Timed.step, Timed.x_setX, Alu.eval]
  · intro r hr
    simp only [List.mem_cons, List.not_mem_nil, or_false, not_or] at hr
    simp [enterFrame, Timed.step, Timed.x_setX, hr]

theorem Passed.trans {m' m'' : Timed Flat} (h : Passed L m m') (h' : Passed L m' m'') :
    Passed L m m'' where
  x_other r hr := (h'.x_other r hr).trans (h.x_other r hr)
  words := h'.words.trans h.words
  reads := h'.reads.trans h.reads

theorem secondPass_run (m : Timed Flat) :
    let m' := [Inst.li t0 32, .mv t1 sp].foldl (Timed.step clock) m
    m'.x t0 = 32 ∧ m'.x t1 = m.x sp ∧ (∀ r, r ∉ [t0, t1, t2] → m'.x r = m.x r) ∧
      m'.mem = m.mem ∧ m'.reads = m.reads := by
  refine ⟨?_, ?_, ?_, rfl, rfl⟩
  · simp [Timed.step, Timed.x_setX]
  · simp [Timed.step, Timed.x_setX]
  · intro r hr
    simp only [List.mem_cons, List.not_mem_nil, or_false, not_or] at hr
    simp [Timed.step, Timed.x_setX, hr]

theorem leaveFrame_run (v : Word) (m : Timed Flat) :
    let m' := [Inst.opi .add sp sp v].foldl (Timed.step clock) m
    (∀ r, m'.x r = if r = sp then m.x sp + v else m.x r) ∧ m'.mem = m.mem ∧
      m'.reads = m.reads := by
  refine ⟨fun r => ?_, rfl, rfl⟩
  simp [Timed.step, Timed.x_setX, Alu.eval]

theorem ends_swContextSaveRestore (hsp : m.x sp = L.stackTop) :
    Code.Ends (ops Flat clock) swContextSaveRestore m (Passed L m) := by
  have hframe : (L.stackTop + -128).toNat + 128 = L.stackTop.toNat := by
    have hbelow := L.below_stack
    have hlt := L.stackTop.isLt
    rw [BitVec.toNat_add, show (-128 : Word).toNat = 4294967168 from rfl]
    omega
  refine Code.Ends.seq (P := fun m₁ => m₁.x sp = L.stackTop + -128 ∧ Passing L m₁ 31 m₁ ∧
    (∀ r, r ∉ [sp, t0, t1] → m₁.x r = m.x r) ∧ L.words m₁.mem = L.words m.mem ∧
    m₁.reads = m.reads) ?_ ?_
  · obtain ⟨h2, h0, h1, ho, hm, hr⟩ := @enterFrame_run clock (-128) m
    rw [hsp] at h1 h2
    exact Code.ends_block.mpr ⟨h2, ⟨by decide, h0, h1 ▸ hframe, fun _ _ => rfl, rfl, rfl⟩, ho,
      congrArg L.words hm, hr⟩
  rintro m₁ ⟨h2, hp₁, ho₁, hw₁, hr₁⟩
  refine Code.Ends.seq (ends_passes (fun k m h => h.store) hp₁) fun m₂ hp₂ => ?_
  have h2₂ : m₂.x sp = L.stackTop + -128 := (hp₂.x_other sp (by decide)).trans h2
  refine Code.Ends.seq (P := fun m₃ => Passing L m₃ 31 m₃ ∧ Passed L m₂ m₃) ?_ ?_
  · obtain ⟨h0, h1, ho, hm, hr⟩ := @secondPass_run clock m₂
    rw [h2₂] at h1
    exact Code.ends_block.mpr ⟨⟨by decide, h0, h1 ▸ hframe, fun _ _ => rfl, rfl, rfl⟩,
      ho, congrArg L.words hm, hr⟩
  rintro m₃ ⟨hp₃, hs₃⟩
  refine Code.Ends.seq (ends_passes (fun k m h => h.load) hp₃) fun m₄ hp₄ => ?_
  have hp := (hp₂.trans hs₃).trans hp₄
  obtain ⟨hx, hm, hr⟩ := @leaveFrame_run clock 128 m₄
  refine Code.ends_block.mpr ⟨fun r hr => ?_, ?_, ?_⟩
  · refine (hx r).trans ?_
    by_cases hrsp : r = sp
    · rw [if_pos hrsp, hp.x_other sp (by decide), h2, BitVec.add_assoc, hrsp, hsp]
      exact BitVec.add_zero _
    · rw [if_neg hrsp, hp.x_other r hr]
      simp only [List.mem_cons, List.not_mem_nil, or_false, not_or] at hr
      exact ho₁ r (by simp [hr, hrsp])
  · exact (congrArg L.words hm).trans (hp.words.trans hw₁)
  · exact hr.trans (hp.reads.trans hr₁)

/-- What a piece of the loop may change besides memory. -/
def Scratch (m m' : Timed Flat) : Prop :=
  ∀ r, r ∉ [t0, t1, t2, t3, t4, t5, t6, a0] → m'.x r = m.x r

theorem Scratch.trans {m' m'' : Timed Flat} (h : Scratch m m') (h' : Scratch m' m'') :
    Scratch m m'' := fun r hr => (h' r hr).trans (h r hr)

theorem ends_callWorkload (ht : t < 100) (hs0 : m.x s0 = BitVec.ofNat 32 t) :
    Code.Ends (ops Flat clock) (callWorkload L) m fun m' =>
      L.words m'.mem = Function.update (Function.update (workload 0 t (L.words m.mem))
        accWorkload (L.words m.mem accWorkload +
          (clock (m.reads + 1) - workloadT3 0 t (L.words m.mem))))
        switchStartCycle (clock (m.reads + 2)) ∧
      m'.x t3 = clock (m.reads + 3) ∧ m'.reads = m.reads + 4 ∧ Scratch m m' := by
  refine Code.Ends.seq (P := fun m₁ => m₁.x a0 = BitVec.ofNat 32 t ∧ m₁.mem = m.mem ∧
    m₁.reads = m.reads + 1 ∧ Scratch m m₁) ?_ ?_
  · have hs0' : m.x 8 = BitVec.ofNat 32 t := hs0
    refine Code.ends_block.mpr ⟨?_, rfl, rfl, fun r hr => ?_⟩
    · simp [ops, Timed.step, Timed.x_setX, hs0']
    · simp only [List.mem_cons, List.not_mem_nil, or_false, not_or] at hr
      simp [ops, Timed.step, Timed.x_setX, hr]
  rintro m₁ ⟨ha₁, hm₁, hr₁, hs₁⟩
  refine Code.Ends.seq (ends_runWorkload (Nat.zero_le _) ht ha₁) fun m₂ h₂ => ?_
  have hw₂ := h₂.words
  have h3₂ := h₂.x_t3
  have hr₂ := h₂.confined.reads
  rw [hm₁] at hw₂ h3₂
  rw [hr₁] at hr₂
  have hacc : L.words m₂.mem accWorkload = L.words m.mem accWorkload := by
    rw [hw₂, workload_outside 0 ht _ (.inr (by decide))]
  have h3₂' : m₂.x 28 = workloadT3 0 t (L.words m.mem) := h3₂
  refine Code.ends_block.mpr ⟨?_, ?_, ?_, fun r hr => ?_⟩
  · simp [ops, Timed.step, Timed.x_setX, Alu.eval, hr₂, h3₂', hacc, ← hw₂]
  · simp [ops, Timed.step, Timed.x_setX, hr₂]
  · simp [ops, Timed.step, hr₂]
  · have hr' := hr
    simp only [List.mem_cons, List.not_mem_nil, or_false, not_or] at hr
    have h := h₂.confined.x_other r (by simp [hr])
    simp [ops, Timed.step, Timed.x_setX, hr, h, hs₁ r hr']

theorem ends_afterSaveRestore (m : Timed Flat) :
    Code.Ends (ops Flat clock) (.block (afterSaveRestore L)) m fun m' =>
      L.words m'.mem = Function.update (Function.update (L.words m.mem)
        accSaveRestore (L.words m.mem accSaveRestore + (clock m.reads - m.x t3)))
        trapStartCycle (clock (m.reads + 1)) ∧
      m'.reads = m.reads + 2 ∧ Scratch m m' := by
  refine Code.ends_block.mpr ⟨?_, rfl, fun r hr => ?_⟩
  · simp [ops, afterSaveRestore, Timed.step, Timed.x_setX, Alu.eval]
  · simp only [List.mem_cons, List.not_mem_nil, or_false, not_or] at hr
    simp [ops, afterSaveRestore, Timed.step, Timed.x_setX, hr]

theorem ends_afterTrap (m : Timed Flat) :
    let W := L.words m.mem
    Code.Ends (ops Flat clock) (.block (afterTrap L)) m fun m' =>
      L.words m'.mem = Function.update (Function.update (Function.update W
        accTrapEntry (W accTrapEntry + (W trapEntryCycle - W trapStartCycle)))
        accMretReturn (W accMretReturn + (clock m.reads - W mretStartCycle)))
        accTrapRoundtrip (W accTrapRoundtrip + (clock m.reads - W trapStartCycle)) ∧
      m'.reads = m.reads + 1 ∧ Scratch m m' := by
  refine Code.ends_block.mpr ⟨?_, rfl, fun r hr => ?_⟩
  · simp [ops, afterTrap, Timed.step, Timed.x_setX, Alu.eval]
  · simp only [List.mem_cons, List.not_mem_nil, or_false, not_or] at hr
    simp [ops, afterTrap, Timed.step, Timed.x_setX, hr]

theorem ends_nextTask (ht : t < 100) (hs0 : m.x s0 = BitVec.ofNat 32 t) :
    Code.Ends (ops Flat clock) nextTask m fun m' =>
      L.words m'.mem = L.words m.mem ∧ m'.x s0 = BitVec.ofNat 32 ((t + 1) % 100) ∧
        m'.x s5 = m.x s5 + 1 ∧ m'.x sp = m.x sp ∧ m'.reads = m.reads := by
  have hs0' : m.x 8 = BitVec.ofNat 32 t := hs0
  simp only [nextTask, Code.ends_seq, Code.ends_block, Code.ends_branch, List.foldl_cons,
    List.foldl_nil, ops, Timed.step, Timed.holds]
  simp [Timed.x_setX, Alu.eval, hs0']
  split
  · rename_i hlt
    rw [next_slt ht, decide_eq_true_iff] at hlt
    rw [Nat.mod_eq_of_lt hlt, BitVec.ofNat_add]
  · rename_i hlt
    rw [next_slt ht, decide_eq_true_iff] at hlt
    rw [show t + 1 = 100 by omega]

/-- The task of the iteration that begins in `m`. -/
def taskId {H : Type} [Core H] (m : Timed H) : Nat := (m.x s0).toNat

/-- What the accumulators are named after. -/
inductive Phase where
  | workload
  | saveRestore
  | trapRoundtrip
  | trapEntry
  | trapBody
  | mretReturn
deriving DecidableEq, Repr

namespace Phase

def acc : Phase → Nat
  | workload => accWorkload
  | saveRestore => accSaveRestore
  | trapRoundtrip => accTrapRoundtrip
  | trapEntry => accTrapEntry
  | trapBody => accTrapBody
  | mretReturn => accMretReturn

/-- Which of the readings of an iteration is taken at the start of the phase. -/
def start : Phase → Nat
  | workload => 0
  | saveRestore => 3
  | trapRoundtrip => 5
  | trapEntry => 5
  | trapBody => 6
  | mretReturn => 7

def stop : Phase → Nat
  | workload => 1
  | saveRestore => 4
  | trapRoundtrip => 8
  | trapEntry => 6
  | trapBody => 7
  | mretReturn => 8

/-- How long the phase takes in the iteration that begins in `m`. -/
def elapsed {H : Type} (clock : Nat → Word) (p : Phase) (m : Timed H) : Word :=
  clock (m.reads + p.stop) - clock (m.reads + p.start)

/-- What is added to its accumulator: `run_workload` has replaced the start reading. -/
def charged {H : Type} [Core H] (L : BareMetal) (clock : Nat → Word) (m : Timed H) : Phase → Word
  | workload => clock (m.reads + 1) - workloadT3 0 (taskId m) (L.words m.mem)
  | p => p.elapsed clock m

end Phase

theorem Scratch.of_trapped {m m' : Timed Flat}
    (h : Trapped L clock trapEntryCycle mretStartCycle accTrapBody m m') : Scratch m m' := by
  intro r hr
  simp only [List.mem_cons, List.not_mem_nil, or_false, not_or] at hr
  exact h.x_other r (by simp [hr])

theorem Scratch.of_passed {m m' : Timed Flat} (h : Passed L m m') : Scratch m m' := by
  intro r hr
  simp only [List.mem_cons, List.not_mem_nil, or_false, not_or] at hr
  exact h.x_other r (by simp [hr])

/-- What an iteration with task `t` does. -/
structure Round (L : BareMetal) (clock : Nat → Word) (t : Nat) (m m' : Timed Flat) : Prop where
  task : m'.x s0 = BitVec.ofNat 32 ((t + 1) % 100)
  iteration : m'.x s5 = m.x s5 + 1
  stack : m'.x sp = m.x sp
  reads : m'.reads = m.reads + 9
  arrays : ∀ k < 3200, L.words m'.mem k = workload 0 t (L.words m.mem) k
  accounts : ∀ p : Phase, L.words m'.mem p.acc = L.words m.mem p.acc + Phase.charged L clock m p

theorem ends_round (ht : t < 100) (hs0 : m.x s0 = BitVec.ofNat 32 t) (hsp : m.x sp = L.stackTop) :
    Code.Ends (ops Flat clock) (round L) m (Round L clock t m) := by
  refine Code.Ends.seq (ends_callWorkload ht hs0) ?_
  rintro m₁ ⟨hw₁, h3₁, hr₁, hs₁⟩
  refine Code.Ends.seq (ends_swContextSaveRestore ((hs₁ sp (by decide)).trans hsp)) fun m₂ hp₂ => ?_
  have hs₂ := hs₁.trans (.of_passed hp₂)
  have hw₂ := hp₂.words.trans hw₁
  have h3₂ := (hp₂.x_other t3 (by decide)).trans h3₁
  have hr₂ := hp₂.reads.trans hr₁
  refine Code.Ends.seq (ends_afterSaveRestore m₂) ?_
  rintro m₃ ⟨hw₃, hr₃, hs₃⟩
  refine Code.Ends.seq (ends_ecall L clock _ (by decide) (by decide) (by decide) (by decide)
    (by decide) (by decide) m₃) fun m₄ h₄ => ?_
  have hw₄ := h₄.words
  have hr₄ := h₄.reads
  refine Code.Ends.seq (ends_afterTrap m₄) ?_
  rintro m₅ ⟨hw₅, hr₅, hs₅⟩
  have hs := ((hs₂.trans hs₃).trans (.of_trapped h₄)).trans hs₅
  refine (ends_nextTask (L := L) ht ((hs s0 (by decide)).trans hs0)).mono ?_
  rintro m₆ ⟨hw₆, h0₆, h5₆, h2₆, hr₆⟩
  rw [hr₂] at hw₃ hr₃
  rw [h3₂, hw₂] at hw₃
  rw [hr₃, hw₃] at hw₄
  rw [hr₃] at hr₄
  rw [hr₄, hw₄] at hw₅
  have hw := hw₆.trans hw₅
  refine ⟨h0₆, ?_, ?_, ?_, fun k hk => ?_, fun p => ?_⟩
  · rw [h5₆, hs s5 (by decide)]
  · rw [h2₆, hs sp (by decide)]
  · rw [hr₆, hr₅, hr₄]
  · have hne (j : Nat) (hj : 3200 ≤ j) : k ≠ j := by omega
    rw [hw]
    simp [hne]
  · have hout (k : Nat) (hk : 3200 ≤ k) : workload 0 t (L.words m.mem) k = L.words m.mem k :=
      workload_outside 0 ht _ (.inr (by omega))
    have htask : taskId m = t := by
      rw [taskId, hs0, BitVec.toNat_ofNat]
      omega
    rw [hw]
    cases p <;>
      simp [Phase.charged, Phase.acc, Phase.elapsed, Phase.start, Phase.stop, hout, htask]

/-- `srb_loop` is about to begin iteration `n`. -/
structure AtLoop (L : BareMetal) (n : Nat) (m : Timed Flat) : Prop where
  task : m.x s0 = BitVec.ofNat 32 (n % 100)
  stack : m.x sp = L.stackTop

theorem ends_init (m : Timed Flat) :
    Code.Ends (ops Flat clock) (.block (init L)) m fun m' =>
      AtLoop L 0 m' ∧ (∀ p : Phase, L.words m'.mem p.acc = 0) ∧
      (∀ k < 3200, L.words m'.mem k = L.words m.mem k) ∧ m'.reads = m.reads := by
  refine Code.ends_block.mpr ⟨⟨?_, ?_⟩, fun p => ?_, fun k hk => ?_, rfl⟩
  · simp [ops, init, Timed.step, Timed.x_setX]
  · simp [ops, init, Timed.step, Timed.x_setX]
  · cases p <;> simp [ops, init, Timed.step, Timed.x_setX, Phase.acc]
  · have hne (j : Nat) (hj : 3200 ≤ j) : k ≠ j := by omega
    simp [ops, init, Timed.step, Timed.x_setX, hne]

theorem AtLoop.next {n : Nat} (h : AtLoop L n m) :
    Code.Ends (ops Flat clock) (round L) m fun m' =>
      AtLoop L (n + 1) m' ∧ Round L clock (n % 100) m m' := by
  refine (ends_round (Nat.mod_lt n (by decide)) h.task h.stack).mono fun m' hm => ⟨⟨?_, ?_⟩, hm⟩
  · rw [hm.task, Nat.mod_add_mod]
  · rw [hm.stack, h.stack]

end RegisterWindows.Bench.Baseline
