import RegisterWindows.Bench.Workload

namespace RegisterWindows.Bench.Windowed
open Port

@[simp] abbrev taskToSlot : Nat := 0
@[simp] abbrev slotToTask : Nat := 400
@[simp] abbrev workloadArrays : Nat := 416
@[simp] abbrev spillBuf : Nat := 3616
@[simp] abbrev stateTaskId : Nat := 4128
@[simp] abbrev stateOldestSlot : Nat := 4132
@[simp] abbrev stateIter : Nat := 4136
@[simp] abbrev sumTotalSwitch : Nat := 4140
@[simp] abbrev minTotalSwitch : Nat := 4144
@[simp] abbrev maxTotalSwitch : Nat := 4148
@[simp] abbrev cfgMismatchCount : Nat := 4152
@[simp] abbrev stateSlot : Nat := 4156
@[simp] abbrev accWorkload : Nat := 4160
@[simp] abbrev accSpill : Nat := 4164
@[simp] abbrev accRestore : Nat := 4168
@[simp] abbrev accStage : Nat := 4172
@[simp] abbrev accTrapRoundtrip : Nat := 4176
@[simp] abbrev accTrapEntry : Nat := 4180
@[simp] abbrev accTrapBody : Nat := 4184
@[simp] abbrev accMretReturn : Nat := 4188
@[simp] abbrev switchStartCycle : Nat := 4192
@[simp] abbrev trapStartCycle : Nat := 4196
@[simp] abbrev trapEntryCycle : Nat := 4200
@[simp] abbrev mretStartCycle : Nat := 4204

section
variable (L : BareMetal)

/-- `srw_init_task_slot` and `srw_init_slot_task`. -/
def initLoop (minusOne : Word) : List Inst :=
  [.sw t2 0 t0,
   .opi .add t0 t0 4,
   .opi .add t1 t1 minusOne]

def initState : List Inst :=
  [la L t0 stateTaskId,
   .sw 0 0 t0,
   la L t0 stateOldestSlot,
   .sw 0 0 t0,
   la L t0 stateIter,
   .sw 0 0 t0,
   la L t0 sumTotalSwitch,
   .sw 0 0 t0,
   la L t0 minTotalSwitch,
   .li t1 (-1),
   .sw t1 0 t0,
   la L t0 maxTotalSwitch,
   .sw 0 0 t0,
   la L t0 cfgMismatchCount,
   .sw 0 0 t0,
   la L t0 accWorkload,
   .sw 0 0 t0,
   la L t0 accSpill,
   .sw 0 0 t0,
   la L t0 accRestore,
   .sw 0 0 t0,
   la L t0 accStage,
   .sw 0 0 t0,
   la L t0 accTrapRoundtrip,
   .sw 0 0 t0,
   la L t0 accTrapEntry,
   .sw 0 0 t0,
   la L t0 accTrapBody,
   .sw 0 0 t0,
   la L t0 accMretReturn,
   .sw 0 0 t0,
   .li t0 0x118,
   .sw 0 0 t0]

/-- `main` from the initialisation of the tables to `srw_loop`. -/
def init : Asm :=
  .seq (.block
    [la L t0 taskToSlot,
     .li t1 100,
     .li t2 (-1)])
  (.seq (.loop 100 (.block (initLoop (-1))) (.beqz t1) (.block []))
  (.seq (.block
    [la L t0 slotToTask,
     .li t1 4,
     .li t2 (-1)])
  (.seq (.loop 4 (.block (initLoop (-1))) (.beqz t1) (.block []))
  (.block (initState L)))))

def spillStore (minusOne : Word) : List Inst :=
  [.sw t2 0 t0,
   .opi .add t0 t0 4,
   .opi .add t2 t2 1,
   .opi .add t1 t1 minusOne]

def spillLoad (minusOne : Word) : List Inst :=
  [.lw t2 0 t0,
   .opi .add t0 t0 4,
   .opi .add t1 t1 minusOne]

/-- The task is in `a0`, the slot in `a1`. -/
def spillSimulate : Asm :=
  .seq (.block
    [la L t0 spillBuf,
     .opi .sll t1 a1 7,
     .op .add t0 t0 t1,
     .li t1 32,
     .mv t2 a0])
  (.seq (.loop 32 (.block (spillStore (-1))) (.beqz t1) (.block []))
  (.seq (.block
    [la L t0 spillBuf,
     .opi .sll t1 a1 7,
     .op .add t0 t0 t1,
     .li t1 32])
  (.loop 32 (.block (spillLoad (-1))) (.beqz t1) (.block []))))

/-- Same cost model as spill. -/
def restoreSimulate : Asm := spillSimulate L

def callWorkload : Asm :=
  .seq (.block
    [la L t0 stateIter,
     .lw t1 0 t0,
     .li t2 500,
     -- bge t1, t2, srw_done
     la L t0 stateTaskId,
     .lw t6 0 t0,
     .mcycle t3,
     .mv a0 t6])
  (.seq (runWorkload L workloadArrays)
  (.block
    [.mcycle t4,
     .op .sub t5 t4 t3,
     la L t0 accWorkload,
     .lw t1 0 t0,
     .op .add t1 t1 t5,
     .sw t1 0 t0,
     .mcycle t3,
     la L t0 switchStartCycle,
     .sw t3 0 t0]))

/-- The key is in `t6`. -/
def lookup : List Inst :=
  [la L t0 taskToSlot,
   .opi .sll t1 t6 2,
   .op .add t0 t0 t1,
   .lw t2 0 t0]

/-- Evict the oldest slot. -/
def evict : List Inst :=
  [la L t0 stateOldestSlot,
   .lw t2 0 t0,
   la L t0 stateSlot,
   .sw t2 0 t0,
   la L t0 slotToTask,
   .opi .sll t1 t2 2,
   .op .add t0 t0 t1,
   .lw t3 0 t0]

def beforeSpill (minusOne : Word) : List Inst :=
  [la L t4 taskToSlot,
   .opi .sll t5 t3 2,
   .op .add t4 t4 t5,
   .li t6 minusOne,
   .sw t6 0 t4,
   la L t0 stateSlot,
   .lw t2 0 t0,
   .mcycle t4,
   .mv a0 t3,
   .mv a1 t2]

/-- `acc_spill` or `acc_restore`. -/
def afterSpill (acc : Nat) : List Inst :=
  [.mcycle t5,
   .op .sub t6 t5 t4,
   la L t0 acc,
   .lw t1 0 t0,
   .op .add t1 t1 t6,
   .sw t1 0 t0]

def spillOld : Asm :=
  .seq (.block (beforeSpill L (-1)))
  (.seq (spillSimulate L)
  (.block (afterSpill L accSpill)))

def beforeRestore : List Inst :=
  [la L t0 stateTaskId,
   .lw a0 0 t0,
   la L t0 stateSlot,
   .lw t2 0 t0,
   .mcycle t4,
   .mv a1 t2]

def restoreNew : Asm :=
  .seq (.block (beforeRestore L))
  (.seq (restoreSimulate L)
  (.block (afterSpill L accRestore)))

/-- Mappings update, and oldest = (oldest + 1) % 4. -/
def mappings : List Inst :=
  [la L t0 stateSlot,
   .lw t2 0 t0,
   la L t3 stateTaskId,
   .lw t3 0 t3,
   la L t0 taskToSlot,
   .opi .sll t1 t3 2,
   .op .add t0 t0 t1,
   .sw t2 0 t0,
   la L t0 slotToTask,
   .opi .sll t1 t2 2,
   .op .add t0 t0 t1,
   .sw t3 0 t0,
   la L t0 stateOldestSlot,
   .lw t1 0 t0,
   .opi .add t1 t1 1,
   .opi .and t1 t1 3,
   .sw t1 0 t0]

/-- No slot: the path that does not take `bgez t2, srw_have_slot`. -/
def allocate : Asm :=
  .seq (.block (evict L))
  (.seq (.branch (.bltz t3) (.block []) (spillOld L))
  (.seq (restoreNew L)
  (.block (mappings L))))

/-- From `srw_loop` to `srw_have_slot`, where the slot is in `t2`. -/
def toHaveSlot : Asm :=
  .seq (callWorkload L)
  (.seq (.block (lookup L))
  (.branch (.bgez t2) (.block []) (allocate L)))

def stage (base : Word) : List Inst :=
  [la L t0 stateSlot,
   .sw t2 0 t0,
   .lw t2 0 t0,
   .opi .sll t0 t2 5,
   .li t1 base,
   .op .add t1 t1 t0,
   .li t0 0x11c,
   .sw t1 0 t0,
   .mcycle t3,
   .csrw .windowStaged t1,
   .mcycle t4,
   .op .sub t5 t4 t3,
   la L t0 accStage,
   .lw t6 0 t0,
   .op .add t6 t6 t5,
   .sw t6 0 t0,
   .mcycle t3,
   la L t0 trapStartCycle,
   .sw t3 0 t0]

def afterTrap : List Inst :=
  [.mcycle t4,
   la L t0 trapEntryCycle,
   .lw t6 0 t0,
   la L t0 trapStartCycle,
   .lw t3 0 t0,
   .op .sub t5 t6 t3,
   la L t0 accTrapEntry,
   .lw t3 0 t0,
   .op .add t3 t3 t5,
   .sw t3 0 t0,
   la L t0 mretStartCycle,
   .lw t6 0 t0,
   .op .sub t5 t4 t6,
   la L t0 accMretReturn,
   .lw t3 0 t0,
   .op .add t3 t3 t5,
   .sw t3 0 t0,
   la L t0 trapStartCycle,
   .lw t3 0 t0,
   .op .sub t5 t4 t3,
   la L t0 accTrapRoundtrip,
   .lw t6 0 t0,
   .op .add t6 t6 t5,
   .sw t6 0 t0,
   la L t0 switchStartCycle,
   .lw t3 0 t0,
   .op .sub t5 t4 t3]

/-- Verify active cfg. -/
def verify (mask : Word) : Asm :=
  .seq (.block
    [.active t6,
     .li t0 0x11c,
     .lw t1 0 t0,
     .li t0 mask,
     .op .and t6 t6 t0,
     .op .and t1 t1 t0])
  (.branch (.beq t6 t1) (.block [])
    (.branch (.bnez t6) (.block [])
      (.block
        [la L t0 cfgMismatchCount,
         .lw t1 0 t0,
         .opi .add t1 t1 1,
         .sw t1 0 t0])))

/-- The sum, the minimum and the maximum of the whole switch, which is in `t5`. -/
def totals : Asm :=
  .seq (.block
    [la L t0 sumTotalSwitch,
     .lw t1 0 t0,
     .op .add t1 t1 t5,
     .sw t1 0 t0,
     la L t0 minTotalSwitch,
     .lw t1 0 t0])
  (.seq (.branch (.bltu t5 t1) (.block [la L t0 minTotalSwitch, .sw t5 0 t0]) (.block []))
  (.seq (.block
    [la L t0 maxTotalSwitch,
     .lw t1 0 t0])
  (.branch (.bltu t1 t5) (.block [la L t0 maxTotalSwitch, .sw t5 0 t0]) (.block []))))

def nextTask : Asm :=
  .seq (.block
    [la L t0 stateIter,
     .lw t1 0 t0,
     .opi .add t1 t1 1,
     .sw t1 0 t0,
     la L t3 stateTaskId,
     .lw t6 0 t3,
     .opi .add t6 t6 1,
     .li t0 100])
  (.seq (.branch (.blt t6 t0) (.block []) (.block [.li t6 0]))
  (.block
    [la L t0 stateTaskId,
     .sw t6 0 t0,
     la L t0 stateIter,
     .lw t1 0 t0,
     .li t0 0x118,
     .sw t1 0 t0]))

/-- From `srw_have_slot` to the jump back. -/
def haveSlot : Asm :=
  .seq (.block (stage L 0x00200000))
  (.seq (.trap (trapEntry L trapEntryCycle mretStartCycle accTrapBody 0xbad00007))
  (.seq (.block (afterTrap L))
  (.seq (verify L 0x00ffffff)
  (.seq (totals L)
    (nextTask L)))))

/-- `srw_loop`, from its test to the jump back. -/
def round : Asm := .seq (toHaveSlot L) (haveSlot L)

end

/-- `main` of `stress_rt_window100.S` up to the `n`-th return to `srw_loop`, whose bound is left
to `n`. -/
def after (H : Type) [ActiveConfig H] (L : BareMetal) (clock : Nat → Word) (n : Nat) (m : Timed H) :
    Option (Timed H) :=
  Code.after (ops H clock) (init L) (round L) n m

variable {L : BareMetal} {clock : Nat → Word} {t : Nat} {m : Timed Flat}

/-- Only `t0`, `t1`, `t2` and `.bss` are written, and the counter is not read. -/
structure Light (L : BareMetal) (m m' : Timed Flat) : Prop where
  x_other : ∀ r, r ∉ [t0, t1, t2] → m'.x r = m.x r
  mem_other : ∀ a : Word, (∀ k < 0x2000, a ≠ L.addr k) → m'.mem a = m.mem a
  reads : m'.reads = m.reads

theorem Light.trans {m m' m'' : Timed Flat} (h : Light L m m') (h' : Light L m' m'') :
    Light L m m'' where
  x_other r hr := (h'.x_other r hr).trans (h.x_other r hr)
  mem_other a ha := (h'.mem_other a ha).trans (h.mem_other a ha)
  reads := h'.reads.trans h.reads

/-- The words from `lo` on, `4 * n` bytes of them, after `f` has been stored in them. -/
def filled (lo n : Nat) (f : Nat → Word) (W : Nat → Word) (k : Nat) : Word :=
  if lo ≤ k ∧ k < lo + 4 * n ∧ 4 ∣ k - lo then f ((k - lo) / 4) else W k

theorem filled_outside {lo n k : Nat} (f : Nat → Word) (W : Nat → Word)
    (hk : k < lo ∨ lo + 4 * n ≤ k) : filled lo n f W k = W k :=
  if_neg (by omega)

theorem filled_inside {lo n i : Nat} (f : Nat → Word) (W : Nat → Word) (hi : i < n) :
    filled lo n f W (lo + 4 * i) = f i := by
  rw [filled, if_pos ⟨by omega, by omega, ⟨i, by omega⟩⟩]
  congr 1
  omega

theorem filled_succ (lo n : Nat) (f : Nat → Word) (W : Nat → Word) :
    filled lo (n + 1) f W = Function.update (filled lo n f W) (lo + 4 * n) (f n) := by
  funext k
  by_cases hk : k = lo + 4 * n
  · subst hk
    rw [Function.update_self]
    exact filled_inside f W (Nat.lt_succ_self n)
  · rw [Function.update_of_ne hk, filled, filled]
    by_cases hin : lo ≤ k ∧ k < lo + 4 * n ∧ 4 ∣ k - lo
    · rw [if_pos hin, if_pos ⟨hin.1, by omega, hin.2.2⟩]
    · rw [if_neg hin, if_neg (by omega)]

/-- One pass of a loop that stores a word; `g` takes it to the next one. -/
structure StorePass (g : Word → Word) (m m' : Timed Flat) : Prop where
  x_t0 : m'.x t0 = m.x t0 + 4
  x_t1 : m'.x t1 = m.x t1 - 1
  x_t2 : m'.x t2 = g (m.x t2)
  x_other : ∀ r, r ∉ [t0, t1, t2] → m'.x r = m.x r
  mem : m'.mem = Function.update m.mem (m.x t0) (m.x t2)
  reads : m'.reads = m.reads

theorem initLoop_run (v : Word) (m : Timed Flat) :
    let m' := (initLoop v).foldl (Timed.step clock) m
    m'.x t0 = m.x t0 + 4 ∧ m'.x t1 = m.x t1 + v ∧ m'.x t2 = m.x t2 ∧
      (∀ r, r ∉ [t0, t1, t2] → m'.x r = m.x r) ∧
      m'.mem = Function.update m.mem (m.x t0) (m.x t2) ∧ m'.reads = m.reads := by
  refine ⟨?_, ?_, ?_, ?_, ?_, rfl⟩
  · simp [initLoop, Timed.step, Timed.x_setX, Alu.eval]
  · simp [initLoop, Timed.step, Timed.x_setX, Alu.eval]
  · simp [initLoop, Timed.step, Timed.x_setX]
  · intro r hr
    simp only [List.mem_cons, List.not_mem_nil, or_false, not_or] at hr
    simp [initLoop, Timed.step, Timed.x_setX, hr]
  · simp [initLoop, Timed.step]

theorem spillStore_run (v : Word) (m : Timed Flat) :
    let m' := (spillStore v).foldl (Timed.step clock) m
    m'.x t0 = m.x t0 + 4 ∧ m'.x t1 = m.x t1 + v ∧ m'.x t2 = m.x t2 + 1 ∧
      (∀ r, r ∉ [t0, t1, t2] → m'.x r = m.x r) ∧
      m'.mem = Function.update m.mem (m.x t0) (m.x t2) ∧ m'.reads = m.reads := by
  refine ⟨?_, ?_, ?_, ?_, ?_, rfl⟩
  · simp [spillStore, Timed.step, Timed.x_setX, Alu.eval]
  · simp [spillStore, Timed.step, Timed.x_setX, Alu.eval]
  · simp [spillStore, Timed.step, Timed.x_setX, Alu.eval]
  · intro r hr
    simp only [List.mem_cons, List.not_mem_nil, or_false, not_or] at hr
    simp [spillStore, Timed.step, Timed.x_setX, hr]
  · simp [spillStore, Timed.step]

theorem spillLoad_run (v : Word) (m : Timed Flat) :
    let m' := (spillLoad v).foldl (Timed.step clock) m
    m'.x t1 = m.x t1 + v ∧ (∀ r, r ∉ [t0, t1, t2] → m'.x r = m.x r) ∧ m'.mem = m.mem ∧
      m'.reads = m.reads := by
  refine ⟨?_, ?_, rfl, rfl⟩
  · simp [spillLoad, Timed.step, Timed.x_setX, Alu.eval]
  · intro r hr
    simp only [List.mem_cons, List.not_mem_nil, or_false, not_or] at hr
    simp [spillLoad, Timed.step, Timed.x_setX, hr]

/-- Before a pass of such a loop, with `k` more to come after it. -/
def Storing (L : BareMetal) (lo n : Nat) (f : Nat → Word) (m₀ : Timed Flat) (k : Nat)
    (m : Timed Flat) : Prop :=
  ∃ i, i + (k + 1) = n ∧ m.x t0 = L.addr (lo + 4 * i) ∧ m.x t1 = BitVec.ofNat 32 (k + 1) ∧
    m.x t2 = f i ∧ L.words m.mem = filled lo i f (L.words m₀.mem) ∧ Light L m₀ m

theorem StorePass.stored {m₀ m' : Timed Flat} {g : Word → Word} {lo i : Nat} {f : Nat → Word}
    (hp : StorePass g m m') (hg : ∀ i, g (f i) = f (i + 1)) (hlo : lo + 4 * i < 0x2000)
    (h0 : m.x t0 = L.addr (lo + 4 * i)) (h2 : m.x t2 = f i)
    (hw : L.words m.mem = filled lo i f (L.words m₀.mem)) (hl : Light L m₀ m) :
    m'.x t0 = L.addr (lo + 4 * (i + 1)) ∧ m'.x t2 = f (i + 1) ∧
      L.words m'.mem = filled lo (i + 1) f (L.words m₀.mem) ∧ Light L m₀ m' := by
  refine ⟨?_, ?_, ?_, fun r hr => (hp.x_other r hr).trans (hl.x_other r hr), fun a ha => ?_,
    hp.reads.trans hl.reads⟩
  · rw [hp.x_t0, h0]
    exact L.addr_add _ 4
  · rw [hp.x_t2, h2, hg]
  · rw [hp.mem, h0, h2, L.words_update _ _ hlo, hw, filled_succ]
  · rw [hp.mem, h0, Function.update_of_ne (ha _ hlo), hl.mem_other a ha]

theorem ends_stores {is : List Inst} {g : Word → Word} {f : Nat → Word} {lo n : Nat}
    (hpass : ∀ m, StorePass g m (is.foldl (Timed.step clock) m)) (hg : ∀ i, g (f i) = f (i + 1))
    (hlo : lo + 4 * n ≤ 0x2000) (hn : 0 < n) (h0 : m.x t0 = L.addr lo)
    (h1 : m.x t1 = BitVec.ofNat 32 n) (h2 : m.x t2 = f 0) :
    Code.Ends (ops Flat clock) (.loop n (.block is) (.beqz t1) (.block [])) m fun m' =>
      L.words m'.mem = filled lo n f (L.words m.mem) ∧ Light L m m' := by
  have hstart : Storing L lo n f m (n - 1) m := by
    refine ⟨0, by omega, h0, ?_, h2, ?_, fun _ _ => rfl, fun _ _ => rfl, rfl⟩
    · rw [h1, Nat.sub_add_cancel hn]
    · funext k
      exact (filled_outside f _ (by omega)).symm
  refine Code.Ends.loop (Storing L lo n f m) ?_ ?_ (Nat.sub_lt hn Nat.one_pos) hstart
  · rintro s ⟨i, hi, hs0, hs1, hs2, hw, hl⟩
    obtain ⟨-, -, hw', hl'⟩ := (hpass s).stored hg (by omega) hs0 hs2 hw hl
    refine Code.ends_block.mpr ⟨?_, hi ▸ hw', hl'⟩
    have h1' := (hpass s).x_t1
    rw [hs1] at h1'
    exact beq_iff_eq.mpr h1'
  · rintro k s ⟨i, hi, hs0, hs1, hs2, hw, hl⟩
    obtain ⟨hs0', hs2', hw', hl'⟩ := (hpass s).stored hg (by omega) hs0 hs2 hw hl
    have h1' := (hpass s).x_t1
    rw [hs1, ofNat_succ_sub_one] at h1'
    refine Code.ends_block.mpr ⟨?_, Code.ends_block.mpr ⟨i + 1, by omega, hs0', h1', hs2', hw',
      hl'⟩⟩
    exact beq_false_of_ne (h1' ▸ ofNat_succ_ne_zero (by omega))

theorem ends_loads {n : Nat} (hn : 0 < n) (hn' : n < 4294967296)
    (h1 : m.x t1 = BitVec.ofNat 32 n) :
    Code.Ends (ops Flat clock) (.loop n (.block (spillLoad (-1))) (.beqz t1) (.block [])) m
      fun m' => m'.mem = m.mem ∧ Light L m m' := by
  have hpass (s : Timed Flat) : let s' := (spillLoad (-1)).foldl (Timed.step clock) s
      s'.x t1 = s.x t1 - 1 ∧ s'.mem = s.mem ∧ Light L s s' := by
    obtain ⟨h1, hx, hm, hr⟩ := @spillLoad_run clock (-1) s
    exact ⟨h1.trans (add_neg_one _), hm, hx, fun a _ => congrFun hm a, hr⟩
  refine Code.Ends.loop (fun k s => k < n ∧ s.x t1 = BitVec.ofNat 32 (k + 1) ∧ s.mem = m.mem ∧
    Light L m s) ?_ ?_ (Nat.sub_lt hn Nat.one_pos)
    ⟨Nat.sub_lt hn Nat.one_pos, by rw [h1, Nat.sub_add_cancel hn], rfl, fun _ _ => rfl,
      fun _ _ => rfl, rfl⟩
  · rintro s ⟨-, hs1, hm, hl⟩
    obtain ⟨hs1', hm', hl'⟩ := hpass s
    rw [hs1] at hs1'
    exact Code.ends_block.mpr ⟨beq_iff_eq.mpr hs1', hm'.trans hm, hl.trans hl'⟩
  · rintro k s ⟨hk, hs1, hm, hl⟩
    obtain ⟨hs1', hm', hl'⟩ := hpass s
    rw [hs1, ofNat_succ_sub_one] at hs1'
    refine Code.ends_block.mpr ⟨?_, Code.ends_block.mpr ⟨by omega, hs1', hm'.trans hm,
      hl.trans hl'⟩⟩
    exact beq_false_of_ne (hs1' ▸ ofNat_succ_ne_zero (by omega))

theorem addr_slot (k s : Nat) :
    Alu.add.eval (L.addr k) (Alu.sll.eval (BitVec.ofNat 32 s) 7#32) = L.addr (k + 128 * s) := by
  rw [← L.addr_add]
  change L.addr k + BitVec.ofNat 32 s <<< 7 = _
  congr 1
  apply BitVec.eq_of_toNat_eq
  simp only [BitVec.toNat_shiftLeft, BitVec.toNat_ofNat, Nat.shiftLeft_eq]
  omega

/-- The words after `spill_simulate`. -/
def spilled (slot : Nat) (task : Word) (W : Nat → Word) : Nat → Word :=
  filled (spillBuf + 128 * slot) 32 (fun i => task + BitVec.ofNat 32 i) W

theorem ends_spillSimulate {s : Nat} (hs : s < 4) (h1 : m.x a1 = BitVec.ofNat 32 s) :
    Code.Ends (ops Flat clock) (spillSimulate L) m fun m' =>
      L.words m'.mem = spilled s (m.x a0) (L.words m.mem) ∧ Light L m m' := by
  refine Code.Ends.seq (P := fun m₁ => m₁.x t0 = L.addr (spillBuf + 128 * s) ∧ m₁.x t1 = 32 ∧
    m₁.x t2 = m.x a0 ∧ m₁.mem = m.mem ∧ Light L m m₁) ?_ ?_
  · have h1' : m.x 11 = BitVec.ofNat 32 s := h1
    refine Code.ends_block.mpr ⟨?_, ?_, ?_, rfl, ?_, fun _ _ => rfl, rfl⟩
    · simp [ops, Timed.step, Timed.x_setX, h1', addr_slot]
    · simp [ops, Timed.step, Timed.x_setX]
    · simp [ops, Timed.step, Timed.x_setX]
    · intro r hr
      simp only [List.mem_cons, List.not_mem_nil, or_false, not_or] at hr
      simp [ops, Timed.step, Timed.x_setX, hr]
  rintro m₁ ⟨h0₁, h1₁, h2₁, hm₁, hl₁⟩
  have hpass (m : Timed Flat) :
      StorePass (· + 1) m ((spillStore (-1)).foldl (Timed.step clock) m) := by
    obtain ⟨h0, h1, h2, hx, hm, hr⟩ := @spillStore_run clock (-1) m
    exact ⟨h0, h1.trans (add_neg_one _), h2, hx, hm, hr⟩
  refine Code.Ends.seq (ends_stores (f := fun i => m.x a0 + BitVec.ofNat 32 i) hpass
    (fun i => ?_) (by simp; omega) (by decide) h0₁ h1₁ (h2₁.trans (BitVec.add_zero _).symm)) ?_
  · rw [BitVec.add_assoc]
    exact congrArg (m.x a0 + ·) (BitVec.ofNat_add i 1).symm
  rintro m₂ ⟨hw₂, hl₂⟩
  refine Code.Ends.seq (P := fun m₃ => m₃.x t1 = 32 ∧ m₃.mem = m₂.mem ∧ Light L m₂ m₃) ?_ ?_
  · refine Code.ends_block.mpr ⟨?_, rfl, ?_, fun _ _ => rfl, rfl⟩
    · simp [ops, Timed.step, Timed.x_setX]
    · intro r hr
      simp only [List.mem_cons, List.not_mem_nil, or_false, not_or] at hr
      simp [ops, Timed.step, Timed.x_setX, hr]
  rintro m₃ ⟨h1₃, hm₃, hl₃⟩
  refine (ends_loads (L := L) (by decide) (by decide) h1₃).mono ?_
  rintro m₄ ⟨hm₄, hl₄⟩
  refine ⟨?_, ((hl₁.trans hl₂).trans hl₃).trans hl₄⟩
  rw [hm₄, hm₃, hw₂, hm₁]
  rfl

/-- Memory outside `.bss` is left alone. -/
def Outside (L : BareMetal) (m m' : Timed Flat) : Prop :=
  ∀ a : Word, (∀ k < 0x2000, a ≠ L.addr k) → m'.mem a = m.mem a

theorem Outside.trans {m m' m'' : Timed Flat} (h : Outside L m m') (h' : Outside L m' m'') :
    Outside L m m'' := fun a ha => (h' a ha).trans (h a ha)

/-- The words when the lookup begins. -/
def atLookup {H : Type} (L : BareMetal) (clock : Nat → Word) (t : Nat) (m : Timed H) : Nat → Word :=
  Function.update (Function.update (workload workloadArrays t (L.words m.mem))
    accWorkload (L.words m.mem accWorkload +
      (clock (m.reads + 1) - workloadT3 workloadArrays t (L.words m.mem))))
    switchStartCycle (clock (m.reads + 2))

theorem ends_callWorkload (ht : t < 100) (htask : L.words m.mem stateTaskId = BitVec.ofNat 32 t) :
    Code.Ends (ops Flat clock) (callWorkload L) m fun m' =>
      L.words m'.mem = atLookup L clock t m ∧
      m'.x t6 = workloadT6 workloadArrays t (L.words m.mem) (BitVec.ofNat 32 t) ∧
      m'.reads = m.reads + 3 ∧ Outside L m m' := by
  have htask' : L.words m.mem 4128 = BitVec.ofNat 32 t := htask
  refine Code.Ends.seq (P := fun m₁ => m₁.x a0 = BitVec.ofNat 32 t ∧
    m₁.x t6 = BitVec.ofNat 32 t ∧ m₁.mem = m.mem ∧ m₁.reads = m.reads + 1) ?_ ?_
  · refine Code.ends_block.mpr ⟨?_, ?_, rfl, rfl⟩
    · simp [ops, Timed.step, Timed.x_setX, htask']
    · simp [ops, Timed.step, Timed.x_setX, htask']
  rintro m₁ ⟨ha₁, h6₁, hm₁, hr₁⟩
  refine Code.Ends.seq (ends_runWorkload (Nat.le_refl _) ht ha₁) fun m₂ h₂ => ?_
  have hw₂ := h₂.words
  have h3₂ : m₂.x 28 = _ := h₂.x_t3
  have h6₂ : m₂.x 31 = _ := h₂.x_t6
  have hr₂ := h₂.confined.reads
  rw [hm₁] at hw₂ h3₂ h6₂
  rw [h6₁] at h6₂
  rw [hr₁] at hr₂
  have hacc : L.words m₂.mem 4160 = L.words m.mem 4160 := by
    rw [hw₂, workload_outside _ ht _ (.inr (by decide))]
  refine Code.ends_block.mpr ⟨?_, ?_, ?_, fun a ha => ?_⟩
  · simp [ops, Timed.step, Timed.x_setX, Alu.eval, hr₂, h3₂, hacc, hw₂, atLookup]
  · simp [ops, Timed.step, Timed.x_setX, h6₂]
  · simp [ops, Timed.step, hr₂]
  · have h := h₂.confined.mem_other a ha
    rw [hm₁] at h
    simp [ops, Timed.step, Timed.x_setX, ha, h]

theorem ends_lookup (m : Timed Flat) :
    Code.Ends (ops Flat clock) (.block (lookup L)) m fun m' =>
      m'.x t2 = m.mem (L.addr taskToSlot + m.x t6 <<< 2) ∧ m'.mem = m.mem ∧
        m'.reads = m.reads := by
  refine Code.ends_block.mpr ⟨?_, rfl, rfl⟩
  simp [ops, lookup, Timed.step, Timed.x_setX]
  rfl

theorem ends_evict {s : Nat} (hs : s < 4)
    (ho : L.words m.mem stateOldestSlot = BitVec.ofNat 32 s) :
    Code.Ends (ops Flat clock) (.block (evict L)) m fun m' =>
      m'.x t3 = L.words m.mem (slotToTask + 4 * s) ∧
      L.words m'.mem = Function.update (L.words m.mem) stateSlot (BitVec.ofNat 32 s) ∧
      m'.reads = m.reads ∧ Outside L m m' := by
  have ho' : L.words m.mem 4132 = BitVec.ofNat 32 s := ho
  have hb : 400 + 4 * s < 0x2000 := by omega
  have hne : 400 + 4 * s ≠ 4156 := by omega
  refine Code.ends_block.mpr ⟨?_, ?_, rfl, fun a ha => ?_⟩
  · simp [ops, evict, Timed.step, Timed.x_setX, ho', addr_element, hb, hne]
  · simp [ops, evict, Timed.step, Timed.x_setX, ho']
  · simp [ops, evict, Timed.step, Timed.x_setX, ha]

theorem Light.outside {m m' : Timed Flat} (h : Light L m m') : Outside L m m' := h.mem_other

theorem ends_afterSpill {acc : Nat} (hacc : acc < 0x2000) (m : Timed Flat) :
    Code.Ends (ops Flat clock) (.block (afterSpill L acc)) m fun m' =>
      L.words m'.mem = Function.update (L.words m.mem) acc
        (L.words m.mem acc + (clock m.reads - m.x t4)) ∧
      m'.reads = m.reads + 1 ∧ Outside L m m' := by
  refine Code.ends_block.mpr ⟨?_, rfl, fun a ha => ?_⟩
  · simp [ops, afterSpill, Timed.step, Timed.x_setX, Alu.eval, hacc]
  · simp [ops, afterSpill, Timed.step, Timed.x_setX, ha _ hacc]

theorem ends_beforeSpill {s u : Nat} (hu : u < 100)
    (hs : L.words m.mem stateSlot = BitVec.ofNat 32 s) (h3 : m.x t3 = BitVec.ofNat 32 u) (v : Word) :
    Code.Ends (ops Flat clock) (.block (beforeSpill L v)) m fun m' =>
      m'.x a0 = BitVec.ofNat 32 u ∧ m'.x a1 = BitVec.ofNat 32 s ∧ m'.x t4 = clock m.reads ∧
      L.words m'.mem = Function.update (L.words m.mem) (taskToSlot + 4 * u) v ∧
      m'.reads = m.reads + 1 ∧ Outside L m m' := by
  have hs' : L.words m.mem 4156 = BitVec.ofNat 32 s := hs
  have h3' : m.x 28 = BitVec.ofNat 32 u := h3
  have hb : 4 * u < 0x2000 := by omega
  have hne : 4156 ≠ 4 * u := by omega
  refine Code.ends_block.mpr ⟨?_, ?_, ?_, ?_, rfl, fun a ha => ?_⟩
  · simp [ops, beforeSpill, Timed.step, Timed.x_setX, h3']
  · simp [ops, beforeSpill, Timed.step, Timed.x_setX, h3', hs', addr_element, hb, hne]
  · simp [ops, beforeSpill, Timed.step, Timed.x_setX]
  · simp [ops, beforeSpill, Timed.step, Timed.x_setX, h3', addr_element, hb]
  · simp [ops, beforeSpill, Timed.step, Timed.x_setX, h3', addr_element, ha _ hb]

theorem ends_spillOld {s u : Nat} (hlt : s < 4) (hu : u < 100)
    (hs : L.words m.mem stateSlot = BitVec.ofNat 32 s) (h3 : m.x t3 = BitVec.ofNat 32 u) :
    Code.Ends (ops Flat clock) (spillOld L) m fun m' =>
      L.words m'.mem = Function.update (spilled s (BitVec.ofNat 32 u)
          (Function.update (L.words m.mem) (taskToSlot + 4 * u) (-1)))
        accSpill (L.words m.mem accSpill + (clock (m.reads + 1) - clock m.reads)) ∧
      m'.reads = m.reads + 2 ∧ Outside L m m' := by
  refine Code.Ends.seq (ends_beforeSpill hu hs h3 (-1)) ?_
  rintro m₁ ⟨ha₁, hb₁, h4₁, hw₁, hr₁, ho₁⟩
  refine Code.Ends.seq (ends_spillSimulate hlt hb₁) ?_
  rintro m₂ ⟨hw₂, hl₂⟩
  refine (@ends_afterSpill L clock accSpill (by decide) m₂).mono ?_
  rintro m₃ ⟨hw₃, hr₃, ho₃⟩
  have h4₂ := (hl₂.x_other t4 (by decide)).trans h4₁
  have hr₂ := hl₂.reads.trans hr₁
  rw [ha₁, hw₁] at hw₂
  have hacc : L.words m₂.mem accSpill = L.words m.mem accSpill := by
    rw [hw₂, spilled, filled_outside _ _ (.inr (by simp; omega)),
      Function.update_of_ne (by simp; omega)]
  rw [hr₂, h4₂, hacc, hw₂] at hw₃
  exact ⟨hw₃, by rw [hr₃, hr₂], (ho₁.trans hl₂.outside).trans ho₃⟩

theorem ends_beforeRestore {s : Nat} (hs : L.words m.mem stateSlot = BitVec.ofNat 32 s) :
    Code.Ends (ops Flat clock) (.block (beforeRestore L)) m fun m' =>
      m'.x a0 = L.words m.mem stateTaskId ∧ m'.x a1 = BitVec.ofNat 32 s ∧
      m'.x t4 = clock m.reads ∧ m'.mem = m.mem ∧ m'.reads = m.reads + 1 := by
  have hs' : L.words m.mem 4156 = BitVec.ofNat 32 s := hs
  refine Code.ends_block.mpr ⟨?_, ?_, ?_, rfl, rfl⟩
  · simp [ops, beforeRestore, Timed.step, Timed.x_setX]
  · simp [ops, beforeRestore, Timed.step, Timed.x_setX, hs']
  · simp [ops, beforeRestore, Timed.step, Timed.x_setX]

theorem ends_restoreNew {s : Nat} (hlt : s < 4)
    (hs : L.words m.mem stateSlot = BitVec.ofNat 32 s) :
    Code.Ends (ops Flat clock) (restoreNew L) m fun m' =>
      L.words m'.mem = Function.update
        (spilled s (L.words m.mem stateTaskId) (L.words m.mem))
        accRestore (L.words m.mem accRestore + (clock (m.reads + 1) - clock m.reads)) ∧
      m'.reads = m.reads + 2 ∧ Outside L m m' := by
  refine Code.Ends.seq (ends_beforeRestore hs) ?_
  rintro m₁ ⟨ha₁, hb₁, h4₁, hm₁, hr₁⟩
  refine Code.Ends.seq (ends_spillSimulate hlt hb₁) ?_
  rintro m₂ ⟨hw₂, hl₂⟩
  refine (@ends_afterSpill L clock accRestore (by decide) m₂).mono ?_
  rintro m₃ ⟨hw₃, hr₃, ho₃⟩
  have h4₂ := (hl₂.x_other t4 (by decide)).trans h4₁
  have hr₂ := hl₂.reads.trans hr₁
  rw [ha₁, hm₁] at hw₂
  have hacc : L.words m₂.mem accRestore = L.words m.mem accRestore := by
    rw [hw₂, spilled, filled_outside _ _ (.inr (by simp; omega))]
  rw [hr₂, h4₂, hacc, hw₂] at hw₃
  refine ⟨hw₃, by rw [hr₃, hr₂], fun a ha => ?_⟩
  rw [ho₃ a ha, hl₂.mem_other a ha, hm₁]

theorem next_slot : ∀ s < 4, Alu.and.eval (Alu.add.eval (BitVec.ofNat 32 s) 1#32) 3#32 =
    BitVec.ofNat 32 ((s + 1) % 4) := by decide

theorem ends_mappings {s : Nat} (hlt : s < 4) (ht : t < 100)
    (hs : L.words m.mem stateSlot = BitVec.ofNat 32 s)
    (htask : L.words m.mem stateTaskId = BitVec.ofNat 32 t)
    (ho : L.words m.mem stateOldestSlot = BitVec.ofNat 32 s) :
    Code.Ends (ops Flat clock) (.block (mappings L)) m fun m' =>
      m'.x t2 = BitVec.ofNat 32 s ∧
      L.words m'.mem = Function.update (Function.update (Function.update (L.words m.mem)
        (taskToSlot + 4 * t) (BitVec.ofNat 32 s)) (slotToTask + 4 * s) (BitVec.ofNat 32 t))
        stateOldestSlot (BitVec.ofNat 32 ((s + 1) % 4)) ∧
      m'.reads = m.reads ∧ Outside L m m' := by
  have hs' : L.words m.mem 4156 = BitVec.ofNat 32 s := hs
  have htask' : L.words m.mem 4128 = BitVec.ofNat 32 t := htask
  have ho' : L.words m.mem 4132 = BitVec.ofNat 32 s := ho
  have hb : 4 * t < 0x2000 := by omega
  have hb' : 400 + 4 * s < 0x2000 := by omega
  have hne : 4132 ≠ 4 * t := by omega
  have hne' : 4132 ≠ 400 + 4 * s := by omega
  have hnext := next_slot s hlt
  refine Code.ends_block.mpr ⟨?_, ?_, rfl, fun a ha => ?_⟩
  · simp [ops, mappings, Timed.step, Timed.x_setX, hs', addr_element]
  · simp [ops, mappings, Timed.step, Timed.x_setX, hs', htask', ho', addr_element, hb, hb', hne,
      hne', hnext]
  · simp [ops, mappings, Timed.step, Timed.x_setX, hs', htask', addr_element, ha _ hb, ha _ hb', ha]

/-- The two report words that an iteration writes besides `.bss`. -/
def OutsideReport (L : BareMetal) (m m' : Timed Flat) : Prop :=
  ∀ a : Word, (∀ k < 0x2000, a ≠ L.addr k) → a ≠ 0x118 → a ≠ 0x11c → m'.mem a = m.mem a

theorem Outside.report {m m' : Timed Flat} (h : Outside L m m') : OutsideReport L m m' :=
  fun a ha _ _ => h a ha

theorem OutsideReport.trans {m m' m'' : Timed Flat} (h : OutsideReport L m m')
    (h' : OutsideReport L m' m'') : OutsideReport L m m'' :=
  fun a ha h118 h11c => (h' a ha h118 h11c).trans (h a ha h118 h11c)

theorem ends_stage (base : Word) (m : Timed Flat) :
    Code.Ends (ops Flat clock) (.block (stage L base)) m fun m' =>
      L.words m'.mem = Function.update (Function.update (Function.update (L.words m.mem)
        stateSlot (m.x t2))
        accStage (L.words m.mem accStage + (clock (m.reads + 1) - clock m.reads)))
        trapStartCycle (clock (m.reads + 2)) ∧
      m'.mem 0x11c = base + m.x t2 <<< 5 ∧ m'.reads = m.reads + 3 ∧ OutsideReport L m m' := by
  refine Code.ends_block.mpr ⟨?_, ?_, rfl, fun a ha h118 h11c => ?_⟩
  · simp [ops, stage, Timed.step, Timed.x_setX, Alu.eval]
  · simp [ops, stage, Timed.step, Timed.x_setX]
    rfl
  · have h11c' : ¬ a = 284#32 := h11c
    simp [ops, stage, Timed.step, Timed.x_setX, ha, h11c']

theorem ends_afterTrap (m : Timed Flat) :
    let W := L.words m.mem
    Code.Ends (ops Flat clock) (.block (afterTrap L)) m fun m' =>
      L.words m'.mem = Function.update (Function.update (Function.update W
        accTrapEntry (W accTrapEntry + (W trapEntryCycle - W trapStartCycle)))
        accMretReturn (W accMretReturn + (clock m.reads - W mretStartCycle)))
        accTrapRoundtrip (W accTrapRoundtrip + (clock m.reads - W trapStartCycle)) ∧
      m'.reads = m.reads + 1 ∧ Outside L m m' := by
  refine Code.ends_block.mpr ⟨?_, rfl, fun a ha => ?_⟩
  · simp [ops, afterTrap, Timed.step, Timed.x_setX, Alu.eval]
  · simp [ops, afterTrap, Timed.step, Timed.x_setX, ha]

/-- The report that is only printed: `sum_total_switch` .. `cfg_mismatch_count`. -/
def Reported (L : BareMetal) (m m' : Timed Flat) : Prop :=
  (∀ k, k ∉ [sumTotalSwitch, minTotalSwitch, maxTotalSwitch, cfgMismatchCount] →
    L.words m'.mem k = L.words m.mem k) ∧ m'.reads = m.reads ∧ Outside L m m'

theorem Reported.trans {m m' m'' : Timed Flat} (h : Reported L m m') (h' : Reported L m' m'') :
    Reported L m m'' :=
  ⟨fun k hk => (h'.1 k hk).trans (h.1 k hk), h'.2.1.trans h.2.1, h.2.2.trans h'.2.2⟩

theorem Reported.of_words {m m' : Timed Flat} (hw : L.words m'.mem = L.words m.mem)
    (hr : m'.reads = m.reads) (ho : Outside L m m') : Reported L m m' :=
  ⟨fun k _ => congrFun hw k, hr, ho⟩

theorem Reported.of_update {m m' : Timed Flat} {j : Nat} {v : Word}
    (hj : j ∈ [sumTotalSwitch, minTotalSwitch, maxTotalSwitch, cfgMismatchCount])
    (hw : L.words m'.mem = Function.update (L.words m.mem) j v) (hr : m'.reads = m.reads)
    (ho : Outside L m m') : Reported L m m' := by
  refine ⟨fun k hk => ?_, hr, ho⟩
  rw [hw, Function.update_of_ne]
  rintro rfl
  exact hk hj

theorem ends_verify (mask : Word) (m : Timed Flat) :
    Code.Ends (ops Flat clock) (verify L mask) m (Reported L m) := by
  refine Code.Ends.seq (P := fun m₁ => m₁.mem = m.mem ∧ m₁.reads = m.reads)
    (Code.ends_block.mpr ⟨rfl, rfl⟩) ?_
  rintro m₁ ⟨hm₁, hr₁⟩
  have hsame : Code.Ends (ops Flat clock) (.block []) m₁ (Reported L m) :=
    Code.ends_block.mpr (.of_words (congrArg L.words hm₁) hr₁ fun a _ => congrFun hm₁ a)
  rw [Code.ends_branch]
  split
  · exact hsame
  · rw [Code.ends_branch]
    split
    · exact hsame
    · refine Code.ends_block.mpr (.of_update (j := cfgMismatchCount)
        (v := L.words m.mem cfgMismatchCount + 1) (by decide) ?_ hr₁ fun a ha => ?_)
      · simp [ops, Timed.step, Timed.x_setX, Alu.eval, hm₁]
      · simp [ops, Timed.step, Timed.x_setX, hm₁, ha]

theorem ends_extreme {j : Nat} (c : Cond)
    (hj : j ∈ [sumTotalSwitch, minTotalSwitch, maxTotalSwitch, cfgMismatchCount]) (m : Timed Flat) :
    Code.Ends (ops Flat clock) (.branch c (.block [la L t0 j, .sw t5 0 t0]) (.block [])) m
      (Reported L m) := by
  have hb : j < 0x2000 := by
    simp only [List.mem_cons, List.not_mem_nil, or_false] at hj
    rcases hj with rfl | rfl | rfl | rfl <;> decide
  rw [Code.ends_branch]
  split
  · refine Code.ends_block.mpr (.of_update (v := m.x t5) hj ?_ rfl fun a ha => ?_)
    · simp [ops, Timed.step, Timed.x_setX, hb]
    · simp [ops, Timed.step, Timed.x_setX, ha _ hb]
  · exact Code.ends_block.mpr (.of_words rfl rfl fun _ _ => rfl)

theorem ends_totals (m : Timed Flat) :
    Code.Ends (ops Flat clock) (totals L) m (Reported L m) := by
  refine Code.Ends.seq (P := Reported L m) ?_ fun m₁ h₁ => ?_
  · refine Code.ends_block.mpr (.of_update (j := sumTotalSwitch)
      (v := L.words m.mem sumTotalSwitch + m.x t5) (by decide) ?_ rfl fun a ha => ?_)
    · simp [ops, Timed.step, Timed.x_setX, Alu.eval]
    · simp [ops, Timed.step, Timed.x_setX, ha]
  refine Code.Ends.seq (ends_extreme (j := minTotalSwitch) _ (by decide) m₁) fun m₂ h₂ => ?_
  refine Code.Ends.seq (P := Reported L m₂)
    (Code.ends_block.mpr (.of_words rfl rfl fun _ _ => rfl)) fun m₃ h₃ => ?_
  exact (ends_extreme (j := maxTotalSwitch) _ (by decide) m₃).mono fun m₄ h₄ =>
    ((h₁.trans h₂).trans h₃).trans h₄

theorem ends_nextTask (ht : t < 100) (htask : L.words m.mem stateTaskId = BitVec.ofNat 32 t) :
    Code.Ends (ops Flat clock) (nextTask L) m fun m' =>
      L.words m'.mem = Function.update (Function.update (L.words m.mem)
        stateIter (L.words m.mem stateIter + 1))
        stateTaskId (BitVec.ofNat 32 ((t + 1) % 100)) ∧
      m'.reads = m.reads ∧ OutsideReport L m m' := by
  have htask' : L.words m.mem 4128 = BitVec.ofNat 32 t := htask
  simp only [nextTask, Code.ends_seq, Code.ends_block, Code.ends_branch, List.foldl_cons,
    List.foldl_nil, ops, Timed.step, Timed.holds]
  simp [Timed.x_setX, Alu.eval, htask']
  have hword : (if BitVec.slt (BitVec.ofNat 32 t + 1#32) 100#32 = true then
      BitVec.ofNat 32 t + 1#32 else 0#32) = BitVec.ofNat 32 ((t + 1) % 100) := by
    rw [next_slt ht]
    by_cases hlt : t + 1 < 100
    · rw [if_pos (decide_eq_true hlt), Nat.mod_eq_of_lt hlt, BitVec.ofNat_add]
    · rw [if_neg (by simpa using hlt), show t + 1 = 100 by omega]
  split
  · rename_i hlt
    rw [if_pos hlt] at hword
    refine ⟨by rw [hword], fun a ha h118 _ => ?_⟩
    have h118' : ¬ a = 280#32 := h118
    simp [ha, h118']
  · rename_i hlt
    rw [if_neg hlt] at hword
    refine ⟨by rw [hword], fun a ha h118 _ => ?_⟩
    have h118' : ¬ a = 280#32 := h118
    simp [ha, h118']

end RegisterWindows.Bench.Windowed
