import RegisterWindows.Bench.Trap

namespace RegisterWindows.Bench
open Port

section
variable (L : BareMetal) (w : Nat)

/-- The arrays of `run_workload` follow each other in `.bss` from byte `w` on. -/
@[simp] abbrev pidPrev : Nat := w
@[simp] abbrev pidErr : Nat := w + 400
@[simp] abbrev pidInt : Nat := w + 800
@[simp] abbrev pidOut : Nat := w + 1200
@[simp] abbrev matSeed : Nat := w + 1600
@[simp] abbrev matOut : Nat := w + 2000
@[simp] abbrev telFilt : Nat := w + 2400
@[simp] abbrev telSum : Nat := w + 2800

/-- err = (task*7 + 13) - prev -/
def pidSignal : List Inst :=
  [la L t0 (pidPrev w),
   .opi .sll t1 a0 2,
   .op .add t0 t0 t1,
   .lw t2 0 t0,
   .li t3 7,
   .op .mul t4 a0 t3,
   .opi .add t4 t4 13,
   .op .sub t5 t4 t2,
   .sw t4 0 t0]

def pidIntegral : List Inst :=
  [la L t0 (pidInt w),
   .opi .sll t1 a0 2,
   .op .add t0 t0 t1,
   .lw t3 0 t0,
   .op .add t3 t3 t5,
   .sw t3 0 t0]

/-- out = 5*err + int + 2*(err-prev_err) -/
def pidOutput : List Inst :=
  [la L t0 (pidErr w),
   .opi .sll t1 a0 2,
   .op .add t0 t0 t1,
   .lw t6 0 t0,
   .sw t5 0 t0,
   .op .sub t6 t5 t6,
   .li t0 5,
   .op .mul t0 t5 t0,
   .opi .sll t6 t6 1,
   .op .add t0 t0 t3,
   .op .add t0 t0 t6,
   la L t1 (pidOut w),
   .opi .sll t2 a0 2,
   .op .add t1 t1 t2,
   .sw t0 0 t1]

/-- seed = seed*mult + inc -/
def matrixSeed (mult inc : Word) : List Inst :=
  [la L t0 (matSeed w),
   .opi .sll t1 a0 2,
   .op .add t0 t0 t1,
   .lw t2 0 t0,
   .li t3 mult,
   .op .mul t2 t2 t3,
   .li t3 inc,
   .op .add t2 t2 t3,
   .sw t2 0 t0]

/-- 2x2 integer multiply checksum-like -/
def matrixProduct : List Inst :=
  [.opi .and t3 t2 0xff,
   .opi .srl t4 t2 8,
   .opi .and t4 t4 0xff,
   .opi .srl t5 t2 16,
   .opi .and t5 t5 0xff,
   .opi .srl t6 t2 24,
   .opi .and t6 t6 0xff,
   .op .mul t0 t3 t3,
   .op .mul t1 t4 t5,
   .op .add t0 t0 t1,
   .op .mul t1 t3 t4,
   .op .mul t2 t4 t6,
   .op .add t1 t1 t2,
   .op .xor t0 t0 t1,
   la L t1 (matOut w),
   .opi .sll t2 a0 2,
   .op .add t1 t1 t2,
   .sw t0 0 t1]

/-- filt = (7*filt + 9*sample) >> 4, sample from task id -/
def telemetryFilter : List Inst :=
  [la L t0 (telFilt w),
   .opi .sll t1 a0 2,
   .op .add t0 t0 t1,
   .lw t2 0 t0,
   .li t3 13,
   .op .mul t4 a0 t3,
   .opi .add t4 t4 19,
   .li t5 7,
   .op .mul t2 t2 t5,
   .li t5 9,
   .op .mul t4 t4 t5,
   .op .add t2 t2 t4,
   .opi .srl t2 t2 4,
   .sw t2 0 t0]

/-- checksum/update -/
def telemetrySum : List Inst :=
  [la L t0 (telSum w),
   .opi .sll t1 a0 2,
   .op .add t0 t0 t1,
   .lw t3 0 t0,
   .op .add t3 t3 t2,
   .opi .xor t3 t3 0x5a5,
   .sw t3 0 t0]

def workloadPid : Asm :=
  .seq (.block (pidSignal L w)) (.seq (.block (pidIntegral L w)) (.block (pidOutput L w)))

def workloadMatrix : Asm :=
  .seq (.block (matrixSeed L w 1664525 1013904223)) (.block (matrixProduct L w))

def workloadTelemetry : Asm := .seq (.block (telemetryFilter L w)) (.block (telemetrySum L w))

/-- The task is in `a0`. -/
def runWorkload : Asm :=
  .seq (.block
    [.li t0 3,
     .op .remu t1 a0 t0])
  (.branch (.beqz t1) (workloadPid L w)
    (.seq (.block [.li t0 1])
      (.branch (.beq t1 t0) (workloadMatrix L w)
        (workloadTelemetry L w))))

/-- The numbers of a PID step of task `t`. -/
structure Pid where
  signal : Word
  err : Word
  int : Word
  deriv : Word
  out : Word

def pidStep (t : Nat) (W : Nat → Word) : Pid :=
  let signal := BitVec.ofNat 32 t * 7 + 13
  let err := signal - W (pidPrev w + 4 * t)
  let int := W (pidInt w + 4 * t) + err
  let deriv := (err - W (pidErr w + 4 * t)) <<< 1
  ⟨signal, err, int, deriv, err * 5 + int + deriv⟩

def matNext (t : Nat) (W : Nat → Word) : Word := W (matSeed w + 4 * t) * 1664525 + 1013904223

/-- The checksum of the matrix product. -/
def matChecksum (seed : Word) : Word :=
  let a := seed &&& 0xff
  let b := seed >>> 8 &&& 0xff
  let c := seed >>> 16 &&& 0xff
  let d := seed >>> 24 &&& 0xff
  (a * a + b * c) ^^^ (a * b + b * d)

def telNext (t : Nat) (W : Nat → Word) : Word :=
  (W (telFilt w + 4 * t) * 7 + (BitVec.ofNat 32 t * 13 + 19) * 9) >>> 4

def telChecksum (t : Nat) (W : Nat → Word) : Word :=
  (W (telSum w + 4 * t) + telNext w t W) ^^^ 0x5a5

/-- The words of `.bss` after the workload of task `t`. -/
def workload (t : Nat) (W : Nat → Word) : Nat → Word :=
  if t % 3 = 0 then
    let p := pidStep w t W
    Function.update (Function.update (Function.update (Function.update W
      (pidPrev w + 4 * t) p.signal) (pidInt w + 4 * t) p.int)
      (pidErr w + 4 * t) p.err) (pidOut w + 4 * t) p.out
  else if t % 3 = 1 then
    Function.update (Function.update W (matSeed w + 4 * t) (matNext w t W))
      (matOut w + 4 * t) (matChecksum (matNext w t W))
  else
    Function.update (Function.update W (telFilt w + 4 * t) (telNext w t W))
      (telSum w + 4 * t) (telChecksum w t W)

theorem workload_outside {t k : Nat} (ht : t < 100) (W : Nat → Word) (hk : k < w ∨ w + 3200 ≤ k) :
    workload w t W k = W k := by
  unfold workload
  split
  · simp only [pidPrev, pidErr, pidInt, pidOut]
    rw [Function.update_of_ne (by omega), Function.update_of_ne (by omega),
      Function.update_of_ne (by omega), Function.update_of_ne (by omega)]
  · split
    · simp only [matSeed, matOut]
      rw [Function.update_of_ne (by omega), Function.update_of_ne (by omega)]
    · simp only [telFilt, telSum]
      rw [Function.update_of_ne (by omega), Function.update_of_ne (by omega)]

/-- What is left in `t3`. -/
def workloadT3 (t : Nat) (W : Nat → Word) : Word :=
  if t % 3 = 0 then (pidStep w t W).int
  else if t % 3 = 1 then matNext w t W &&& 0xff
  else telChecksum w t W

/-- What is left in `t6`, if `key` was in it. -/
def workloadT6 (t : Nat) (W : Nat → Word) (key : Word) : Word :=
  if t % 3 = 0 then (pidStep w t W).deriv
  else if t % 3 = 1 then matNext w t W >>> 24 &&& 0xff
  else key

end

/-- Only temporaries and `.bss` are written, and the counter is not read. -/
structure Confined (L : BareMetal) (m m' : Timed Flat) : Prop where
  x_other : ∀ r, r ∉ [t0, t1, t2, t3, t4, t5, t6] → m'.x r = m.x r
  mem_other : ∀ a : Word, (∀ k < 0x2000, a ≠ L.addr k) → m'.mem a = m.mem a
  reads : m'.reads = m.reads

theorem Confined.trans {L : BareMetal} {m m' m'' : Timed Flat} (h : Confined L m m')
    (h' : Confined L m' m'') : Confined L m m'' where
  x_other r hr := (h'.x_other r hr).trans (h.x_other r hr)
  mem_other a ha := (h'.mem_other a ha).trans (h.mem_other a ha)
  reads := h'.reads.trans h.reads

section
variable {L : BareMetal} {w t : Nat} {clock : Nat → Word} {m : Timed Flat}

theorem addr_element (k t : Nat) :
    Alu.add.eval (L.addr k) (Alu.sll.eval (BitVec.ofNat 32 t) 2#32) = L.addr (k + 4 * t) := by
  rw [← L.addr_add]
  change L.addr k + BitVec.ofNat 32 t <<< 2 = _
  congr 1
  apply BitVec.eq_of_toNat_eq
  simp only [BitVec.toNat_shiftLeft, BitVec.toNat_ofNat, Nat.shiftLeft_eq]
  omega

theorem ends_pidSignal (hb : w + 4 * t < 0x2000) (ha : m.x a0 = BitVec.ofNat 32 t) :
    Code.Ends (ops Flat clock) (.block (pidSignal L w)) m fun m' =>
      L.words m'.mem = Function.update (L.words m.mem) (pidPrev w + 4 * t)
        (pidStep w t (L.words m.mem)).signal ∧
      m'.x t5 = (pidStep w t (L.words m.mem)).err ∧ m'.x t6 = m.x t6 ∧ Confined L m m' := by
  have ha' : m.x 10 = BitVec.ofNat 32 t := ha
  refine Code.ends_block.mpr ⟨?_, ?_, ?_, ?_, ?_, rfl⟩
  · simp [ops, pidSignal, Timed.step, Timed.x_setX, ha', addr_element, hb]
    rfl
  · simp [ops, pidSignal, Timed.step, Timed.x_setX, ha', addr_element, hb]
    rfl
  · simp [ops, pidSignal, Timed.step, Timed.x_setX]
  · intro r hr
    simp only [List.mem_cons, List.not_mem_nil, or_false, not_or] at hr
    simp [ops, pidSignal, Timed.step, Timed.x_setX, hr]
  · intro a hm
    simp [ops, pidSignal, Timed.step, Timed.x_setX, ha', addr_element, hm _ hb]

theorem ends_pidIntegral (hb : w + 800 + 4 * t < 0x2000)
    (ha : m.x a0 = BitVec.ofNat 32 t) :
    Code.Ends (ops Flat clock) (.block (pidIntegral L w)) m fun m' =>
      L.words m'.mem = Function.update (L.words m.mem) (pidInt w + 4 * t)
        (L.words m.mem (pidInt w + 4 * t) + m.x t5) ∧
      m'.x t3 = L.words m.mem (pidInt w + 4 * t) + m.x t5 ∧ m'.x t5 = m.x t5 ∧
      m'.x t6 = m.x t6 ∧ Confined L m m' := by
  have ha' : m.x 10 = BitVec.ofNat 32 t := ha
  refine Code.ends_block.mpr ⟨?_, ?_, ?_, ?_, ?_, ?_, rfl⟩
  · simp [ops, pidIntegral, Timed.step, Timed.x_setX, ha', addr_element, hb]
    rfl
  · simp [ops, pidIntegral, Timed.step, Timed.x_setX, ha', addr_element, hb]
    rfl
  · simp [ops, pidIntegral, Timed.step, Timed.x_setX]
  · simp [ops, pidIntegral, Timed.step, Timed.x_setX]
  · intro r hr
    simp only [List.mem_cons, List.not_mem_nil, or_false, not_or] at hr
    simp [ops, pidIntegral, Timed.step, Timed.x_setX, hr]
  · intro a hm
    simp [ops, pidIntegral, Timed.step, Timed.x_setX, ha', addr_element, hm _ hb]

theorem ends_pidOutput (hb : w + 400 + 4 * t < 0x2000) (hb' : w + 1200 + 4 * t < 0x2000)
    (ha : m.x a0 = BitVec.ofNat 32 t) :
    Code.Ends (ops Flat clock) (.block (pidOutput L w)) m fun m' =>
      L.words m'.mem = Function.update (Function.update (L.words m.mem)
        (pidErr w + 4 * t) (m.x t5)) (pidOut w + 4 * t)
        (m.x t5 * 5 + m.x t3 + (m.x t5 - L.words m.mem (pidErr w + 4 * t)) <<< 1) ∧
      m'.x t3 = m.x t3 ∧ m'.x t6 = (m.x t5 - L.words m.mem (pidErr w + 4 * t)) <<< 1 ∧
      Confined L m m' := by
  have ha' : m.x 10 = BitVec.ofNat 32 t := ha
  refine Code.ends_block.mpr ⟨?_, ?_, ?_, ?_, ?_, rfl⟩
  · simp [ops, pidOutput, Timed.step, Timed.x_setX, ha', addr_element, hb, hb']
    rfl
  · simp [ops, pidOutput, Timed.step, Timed.x_setX]
  · simp [ops, pidOutput, Timed.step, Timed.x_setX, ha', addr_element, hb]
    rfl
  · intro r hr
    simp only [List.mem_cons, List.not_mem_nil, or_false, not_or] at hr
    simp [ops, pidOutput, Timed.step, Timed.x_setX, hr]
  · intro a hm
    simp [ops, pidOutput, Timed.step, Timed.x_setX, ha', addr_element, hm _ hb, hm _ hb']

theorem ends_matrixSeed (mult inc : Word) (hb : w + 1600 + 4 * t < 0x2000)
    (ha : m.x a0 = BitVec.ofNat 32 t) :
    Code.Ends (ops Flat clock) (.block (matrixSeed L w mult inc)) m fun m' =>
      L.words m'.mem = Function.update (L.words m.mem) (matSeed w + 4 * t)
        (L.words m.mem (matSeed w + 4 * t) * mult + inc) ∧
      m'.x t2 = L.words m.mem (matSeed w + 4 * t) * mult + inc ∧ Confined L m m' := by
  have ha' : m.x 10 = BitVec.ofNat 32 t := ha
  refine Code.ends_block.mpr ⟨?_, ?_, ?_, ?_, rfl⟩
  · simp [ops, matrixSeed, Timed.step, Timed.x_setX, ha', addr_element, hb]
    rfl
  · simp [ops, matrixSeed, Timed.step, Timed.x_setX, ha', addr_element, hb]
    rfl
  · intro r hr
    simp only [List.mem_cons, List.not_mem_nil, or_false, not_or] at hr
    simp [ops, matrixSeed, Timed.step, Timed.x_setX, hr]
  · intro a hm
    simp [ops, matrixSeed, Timed.step, Timed.x_setX, ha', addr_element, hm _ hb]

theorem ends_matrixProduct (hb : w + 2000 + 4 * t < 0x2000) (ha : m.x a0 = BitVec.ofNat 32 t) :
    Code.Ends (ops Flat clock) (.block (matrixProduct L w)) m fun m' =>
      L.words m'.mem = Function.update (L.words m.mem) (matOut w + 4 * t) (matChecksum (m.x t2)) ∧
      m'.x t3 = m.x t2 &&& 0xff ∧ m'.x t6 = m.x t2 >>> 24 &&& 0xff ∧ Confined L m m' := by
  have ha' : m.x 10 = BitVec.ofNat 32 t := ha
  refine Code.ends_block.mpr ⟨?_, ?_, ?_, ?_, ?_, rfl⟩
  · simp [ops, matrixProduct, Timed.step, Timed.x_setX, ha', addr_element, hb]
    rfl
  · simp [ops, matrixProduct, Timed.step, Timed.x_setX]
    rfl
  · simp [ops, matrixProduct, Timed.step, Timed.x_setX]
    rfl
  · intro r hr
    simp only [List.mem_cons, List.not_mem_nil, or_false, not_or] at hr
    simp [ops, matrixProduct, Timed.step, Timed.x_setX, hr]
  · intro a hm
    simp [ops, matrixProduct, Timed.step, Timed.x_setX, ha', addr_element, hm _ hb]

theorem ends_telemetryFilter (hb : w + 2400 + 4 * t < 0x2000) (ha : m.x a0 = BitVec.ofNat 32 t) :
    Code.Ends (ops Flat clock) (.block (telemetryFilter L w)) m fun m' =>
      L.words m'.mem = Function.update (L.words m.mem) (telFilt w + 4 * t)
        (telNext w t (L.words m.mem)) ∧
      m'.x t2 = telNext w t (L.words m.mem) ∧ m'.x t6 = m.x t6 ∧ Confined L m m' := by
  have ha' : m.x 10 = BitVec.ofNat 32 t := ha
  refine Code.ends_block.mpr ⟨?_, ?_, ?_, ?_, ?_, rfl⟩
  · simp [ops, telemetryFilter, Timed.step, Timed.x_setX, ha', addr_element, hb]
    rfl
  · simp [ops, telemetryFilter, Timed.step, Timed.x_setX, ha', addr_element, hb]
    rfl
  · simp [ops, telemetryFilter, Timed.step, Timed.x_setX]
  · intro r hr
    simp only [List.mem_cons, List.not_mem_nil, or_false, not_or] at hr
    simp [ops, telemetryFilter, Timed.step, Timed.x_setX, hr]
  · intro a hm
    simp [ops, telemetryFilter, Timed.step, Timed.x_setX, ha', addr_element, hm _ hb]

theorem ends_telemetrySum (hb : w + 2800 + 4 * t < 0x2000) (ha : m.x a0 = BitVec.ofNat 32 t) :
    Code.Ends (ops Flat clock) (.block (telemetrySum L w)) m fun m' =>
      L.words m'.mem = Function.update (L.words m.mem) (telSum w + 4 * t)
        ((L.words m.mem (telSum w + 4 * t) + m.x t2) ^^^ 0x5a5) ∧
      m'.x t3 = (L.words m.mem (telSum w + 4 * t) + m.x t2) ^^^ 0x5a5 ∧ m'.x t6 = m.x t6 ∧
      Confined L m m' := by
  have ha' : m.x 10 = BitVec.ofNat 32 t := ha
  refine Code.ends_block.mpr ⟨?_, ?_, ?_, ?_, ?_, rfl⟩
  · simp [ops, telemetrySum, Timed.step, Timed.x_setX, ha', addr_element, hb]
    rfl
  · simp [ops, telemetrySum, Timed.step, Timed.x_setX, ha', addr_element, hb]
    rfl
  · simp [ops, telemetrySum, Timed.step, Timed.x_setX]
  · intro r hr
    simp only [List.mem_cons, List.not_mem_nil, or_false, not_or] at hr
    simp [ops, telemetrySum, Timed.step, Timed.x_setX, hr]
  · intro a hm
    simp [ops, telemetrySum, Timed.step, Timed.x_setX, ha', addr_element, hm _ hb]

end

theorem next_slt {t : Nat} (ht : t < 100) :
    BitVec.slt (BitVec.ofNat 32 t + 1#32) 100#32 = decide (t + 1 < 100) := by
  have hnat : (BitVec.ofNat 32 t + 1#32).toNat = t + 1 := by
    simp only [BitVec.toNat_add, BitVec.toNat_ofNat]
    omega
  have hint : (BitVec.ofNat 32 t + 1#32).toInt = t + 1 := by
    rw [BitVec.toInt_eq_toNat_of_lt (by omega), hnat]
    rfl
  rw [BitVec.slt_eq_decide, hint]
  exact decide_eq_decide.mpr (by simp; omega)

/-- What `run_workload` does for task `t`. -/
structure Worked (L : BareMetal) (w t : Nat) (m m' : Timed Flat) : Prop where
  words : L.words m'.mem = workload w t (L.words m.mem)
  x_t3 : m'.x t3 = workloadT3 w t (L.words m.mem)
  x_t6 : m'.x t6 = workloadT6 w t (L.words m.mem) (m.x t6)
  confined : Confined L m m'

section
variable {L : BareMetal} {w t : Nat} {clock : Nat → Word} {m : Timed Flat}

theorem Confined.x_a0 {m' : Timed Flat} (h : Confined L m m') : m'.x a0 = m.x a0 :=
  h.x_other a0 (by decide)

theorem ends_workloadPid (hw : w ≤ 416) (ht : t < 100) (h0 : t % 3 = 0)
    (ha : m.x a0 = BitVec.ofNat 32 t) :
    Code.Ends (ops Flat clock) (workloadPid L w) m (Worked L w t m) := by
  refine Code.Ends.seq (ends_pidSignal (by omega) ha) ?_
  rintro m₁ ⟨hw₁, hx₁, -, hc₁⟩
  refine Code.Ends.seq (ends_pidIntegral (by omega) (hc₁.x_a0.trans ha)) ?_
  rintro m₂ ⟨hw₂, hi₂, hx₂, -, hc₂⟩
  have hc := hc₁.trans hc₂
  refine (ends_pidOutput (by omega) (by omega) (hc.x_a0.trans ha)).mono ?_
  rintro m₃ ⟨hw₃, hx₃, hd₃, hc₃⟩
  have hint : L.words m₁.mem (pidInt w + 4 * t) = L.words m.mem (pidInt w + 4 * t) := by
    rw [hw₁, Function.update_of_ne (by simp)]
  have herr : L.words m₂.mem (pidErr w + 4 * t) = L.words m.mem (pidErr w + 4 * t) := by
    rw [hw₂, hw₁, Function.update_of_ne (by simp), Function.update_of_ne (by simp)]
  rw [hint, hx₁] at hw₂ hi₂
  rw [herr, hx₂, hx₁] at hw₃ hd₃
  refine ⟨?_, ?_, ?_, hc.trans hc₃⟩
  · rw [hw₃, hw₂, hw₁, hi₂, workload, if_pos h0]
    rfl
  · rw [hx₃, hi₂, workloadT3, if_pos h0]
    rfl
  · rw [hd₃, workloadT6, if_pos h0]
    rfl

theorem ends_workloadMatrix (hw : w ≤ 416) (ht : t < 100) (h1 : t % 3 = 1)
    (ha : m.x a0 = BitVec.ofNat 32 t) :
    Code.Ends (ops Flat clock) (workloadMatrix L w) m (Worked L w t m) := by
  have h0 : ¬ t % 3 = 0 := by omega
  refine Code.Ends.seq (ends_matrixSeed 1664525 1013904223 (by omega) ha) ?_
  rintro m₁ ⟨hw₁, hx₁, hc₁⟩
  refine (ends_matrixProduct (by omega) (hc₁.x_a0.trans ha)).mono ?_
  rintro m₂ ⟨hw₂, h3, h6, hc₂⟩
  rw [hx₁] at hw₂ h3 h6
  refine ⟨?_, ?_, ?_, hc₁.trans hc₂⟩
  · rw [hw₂, hw₁, workload, if_neg h0, if_pos h1]
    rfl
  · rw [h3, workloadT3, if_neg h0, if_pos h1]
    rfl
  · rw [h6, workloadT6, if_neg h0, if_pos h1]
    rfl

theorem ends_workloadTelemetry (hw : w ≤ 416) (ht : t < 100) (h0 : ¬ t % 3 = 0)
    (h1 : ¬ t % 3 = 1) (ha : m.x a0 = BitVec.ofNat 32 t) :
    Code.Ends (ops Flat clock) (workloadTelemetry L w) m (Worked L w t m) := by
  refine Code.Ends.seq (ends_telemetryFilter (by omega) ha) ?_
  rintro m₁ ⟨hw₁, hx₁, h6₁, hc₁⟩
  refine (ends_telemetrySum (by omega) (hc₁.x_a0.trans ha)).mono ?_
  rintro m₂ ⟨hw₂, h3, h6₂, hc₂⟩
  have hsum : L.words m₁.mem (telSum w + 4 * t) = L.words m.mem (telSum w + 4 * t) := by
    rw [hw₁, Function.update_of_ne (by simp)]
  rw [hsum, hx₁] at hw₂ h3
  refine ⟨?_, ?_, ?_, hc₁.trans hc₂⟩
  · rw [hw₂, hw₁, workload, if_neg h0, if_neg h1]
    rfl
  · rw [h3, workloadT3, if_neg h0, if_neg h1]
    rfl
  · rw [h6₂, h6₁, workloadT6, if_neg h0, if_neg h1]

theorem remu_three (ht : t < 100) :
    Alu.remu.eval (BitVec.ofNat 32 t) 3#32 = BitVec.ofNat 32 (t % 3) := by
  apply BitVec.eq_of_toNat_eq
  change (BitVec.ofNat 32 t % 3#32).toNat = _
  have ht' : t % 2 ^ 32 = t := Nat.mod_eq_of_lt (by omega)
  have hr : t % 3 % 2 ^ 32 = t % 3 := Nat.mod_eq_of_lt (by omega)
  simp only [BitVec.toNat_umod, BitVec.toNat_ofNat, ht', hr]

theorem Worked.of_confined {m₁ m' : Timed Flat} (hw : L.words m₁.mem = L.words m.mem)
    (h6 : m₁.x t6 = m.x t6) (hc : Confined L m m₁) (h : Worked L w t m₁ m') :
    Worked L w t m m' where
  words := by rw [h.words, hw]
  x_t3 := by rw [h.x_t3, hw]
  x_t6 := by rw [h.x_t6, hw, h6]
  confined := hc.trans h.confined

theorem ends_workloadClass (ha : m.x a0 = BitVec.ofNat 32 t) (ht : t < 100) :
    Code.Ends (ops Flat clock) (.block [.li t0 3, .op .remu t1 a0 t0]) m fun m' =>
      m'.x t1 = BitVec.ofNat 32 (t % 3) ∧ L.words m'.mem = L.words m.mem ∧ m'.x t6 = m.x t6 ∧
      Confined L m m' := by
  have ha' : m.x 10 = BitVec.ofNat 32 t := ha
  refine Code.ends_block.mpr ⟨?_, rfl, ?_, ?_, fun _ _ => rfl, rfl⟩
  · simp [ops, Timed.step, Timed.x_setX, ha', remu_three ht]
  · simp [ops, Timed.step, Timed.x_setX]
  · intro r hr
    simp only [List.mem_cons, List.not_mem_nil, or_false, not_or] at hr
    simp [ops, Timed.step, Timed.x_setX, hr]

theorem ends_workloadOne :
    Code.Ends (ops Flat clock) (.block [.li t0 1]) m fun m' =>
      m'.x t0 = 1 ∧ m'.x t1 = m.x t1 ∧ L.words m'.mem = L.words m.mem ∧ m'.x t6 = m.x t6 ∧
      Confined L m m' := by
  refine Code.ends_block.mpr ⟨rfl, rfl, rfl, rfl, ?_, fun _ _ => rfl, rfl⟩
  intro r hr
  simp only [List.mem_cons, List.not_mem_nil, or_false, not_or] at hr
  simp [ops, Timed.step, Timed.x_setX, hr]

theorem ends_runWorkload (hw : w ≤ 416) (ht : t < 100) (ha : m.x a0 = BitVec.ofNat 32 t) :
    Code.Ends (ops Flat clock) (runWorkload L w) m (Worked L w t m) := by
  refine Code.Ends.seq (ends_workloadClass (L := L) ha ht) ?_
  rintro m₁ ⟨h1, hw₁, h6₁, hc₁⟩
  have h1' : m₁.x 6 = BitVec.ofNat 32 (t % 3) := h1
  refine Code.ends_branch.mpr ?_
  by_cases h0 : t % 3 = 0
  · rw [if_pos (by simp [ops, Timed.holds, h1', h0])]
    exact (ends_workloadPid hw ht h0 (hc₁.x_a0.trans ha)).mono fun m' h =>
      h.of_confined hw₁ h6₁ hc₁
  obtain h | h : t % 3 = 1 ∨ t % 3 = 2 := by omega
  all_goals
    rw [if_neg (by simp [ops, Timed.holds, h1', h])]
    refine Code.Ends.seq (ends_workloadOne (L := L)) ?_
    rintro m₂ ⟨ht0, ht1, hw₂, h6₂, hc₂⟩
    have ht0' : m₂.x 5 = 1 := ht0
    have ht1' : m₂.x 6 = BitVec.ofNat 32 (t % 3) := ht1.trans h1
    have hc := hc₁.trans hc₂
    have ha₂ := hc.x_a0.trans ha
    refine Code.ends_branch.mpr ?_
  · rw [if_pos (by simp [ops, Timed.holds, ht0', ht1', h])]
    exact (ends_workloadMatrix hw ht h ha₂).mono fun m' h =>
      h.of_confined (hw₂.trans hw₁) (h6₂.trans h6₁) hc
  · rw [if_neg (by simp [ops, Timed.holds, ht0', ht1', h])]
    exact (ends_workloadTelemetry hw ht h0 (by omega) ha₂).mono fun m' h =>
      h.of_confined (hw₂.trans hw₁) (h6₂.trans h6₁) hc

end

end RegisterWindows.Bench
