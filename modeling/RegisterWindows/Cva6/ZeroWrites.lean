import RegisterWindows.Cva6.CsrRegfile
import RegisterWindows.Cva6.RegfileFpga
import RegisterWindows.Lib.Observe

namespace RegisterWindows.Cva6

/-- What a register file is asked from one clock edge to the next. -/
inductive FileOp (w d : Nat) where
  | switch (config : BitVec w)
  | commit (ports : List (WritePort d))
  | read (raddr : Reg)

variable {w d : Nat}

/-- The integer register file with `window_config_i`. -/
structure Ff (w d : Nat) where
  config : BitVec w
  mem : Mem d

namespace Ff

def reset : Ff w d := ⟨defaultWindowConfig w, fun _ => 0⟩

def exec (h : Ff w d) : FileOp w d → Ff w d
  | .switch config => { h with config := config }
  | .commit ports => { h with mem := registerWriteBehavioral true h.config h.mem ports }
  | .read _ => h

def output (h : Ff w d) : FileOp w d → Option (BitVec d)
  | .read raddr => some (rdata true h.config h.mem raddr)
  | _ => none

def outputs (ops : List (FileOp w d)) : List (Option (BitVec d)) :=
  Observe.observe exec output reset ops

end Ff

/-- The port without its write to `x0`. -/
def WritePort.dropZero (port : WritePort d) : WritePort d :=
  { port with we := port.we && port.waddr != 0 }

def FileOp.dropZero : FileOp w d → FileOp w d
  | .commit ports => .commit (ports.map WritePort.dropZero)
  | op => op

/-- The active window, and the cells that were written as `x0` last. -/
structure ZeroLedger (w : Nat) where
  config : BitVec w
  viaZero : PhysReg → Bool

namespace ZeroLedger

/-- Cell 0 is cleared at every clock edge. -/
def port (config : BitVec w) (viaZero : PhysReg → Bool) (port : WritePort d) : PhysReg → Bool :=
  fun p => if weDec config port p then decide (port.waddr = 0 ∧ p ≠ 0) else viaZero p

def next (k : ZeroLedger w) : FileOp w d → ZeroLedger w
  | .switch config => { k with config := config }
  | .commit ports => { k with viaZero := ports.foldl (port k.config) k.viaZero }
  | .read _ => k

def step (k : ZeroLedger w) (op : FileOp w d) : Option (ZeroLedger w) := some (k.next op)

def reset : ZeroLedger w := ⟨defaultWindowConfig w, fun _ => false⟩

/-- No register is read in a cell that was written as `x0` last. -/
def Clean (k : ZeroLedger w) : FileOp w d → Prop
  | .read raddr =>
    ∀ p, windowTranslation k.config raddr = some p → raddr = 0 ∨ k.viaZero p = false
  | _ => True

instance (k : ZeroLedger w) : DecidablePred (k.Clean : FileOp w d → Prop)
  | .read _ => inferInstanceAs (Decidable (∀ _ : PhysReg, _ → _ ∨ _))
  | .switch _ => isTrue trivial
  | .commit _ => isTrue trivial

end ZeroLedger

/-- Two files that differ only where `x0` was written last. -/
def AgreeOff (viaZero : PhysReg → Bool) (mem mem' : Mem d) : Prop :=
  ∀ p, viaZero p = false → mem p = mem' p

theorem weDec_dropZero (config : BitVec w) (port : WritePort d) (p : PhysReg) :
    weDec config port.dropZero p = (weDec config port p && port.waddr != 0) := by
  unfold weDec WritePort.dropZero
  cases windowTranslation config port.waddr with
  | none => rfl
  | some q =>
    by_cases hq : q = p <;> simp [hq]

theorem AgreeOff.port {viaZero : PhysReg → Bool} {mem mem' : Mem d} (h : AgreeOff viaZero mem mem')
    (config : BitVec w) (port : WritePort d) :
    AgreeOff (ZeroLedger.port config viaZero port)
      (Function.update (writePort config mem port.dropZero) 0 0)
      (Function.update (writePort config mem' port) 0 0) := by
  intro p hp
  by_cases h0 : p = 0
  · subst h0
    simp
  · rw [Function.update_of_ne h0, Function.update_of_ne h0, writePort_apply, writePort_apply,
      weDec_dropZero]
    unfold ZeroLedger.port at hp
    cases hw : weDec config port p with
    | false =>
      simp only [hw, Bool.false_eq_true, if_false] at hp
      simpa using h p hp
    | true =>
      -- the cell is not stale, so it was not written as `x0`
      have hne : port.waddr ≠ 0 := by simpa [hw, h0] using hp
      simp [hne, WritePort.dropZero]

theorem AgreeOff.ports {viaZero : PhysReg → Bool} {mem mem' : Mem d}
    (h : AgreeOff viaZero mem mem') (config : BitVec w) (ports : List (WritePort d)) :
    AgreeOff (ports.foldl (ZeroLedger.port config) viaZero)
      (registerWriteBehavioral true config mem (ports.map WritePort.dropZero))
      (registerWriteBehavioral true config mem' ports) := by
  unfold registerWriteBehavioral
  induction ports generalizing viaZero mem mem' with
  | nil => exact h
  | cons port ports ih => exact ih (h.port config port)

/-- The file without the writes to `x0`, the file with them, and what sets them apart. -/
structure DropsZero (k : ZeroLedger w) (h h' : Ff w d) : Prop where
  config : h.config = k.config
  config' : h'.config = k.config
  mem : AgreeOff k.viaZero h.mem h'.mem

namespace DropsZero
variable {k : ZeroLedger w} {h h' : Ff w d}

theorem exec (hd : DropsZero k h h') (op : FileOp w d) :
    DropsZero (k.next op) (h.exec op.dropZero) (h'.exec op) := by
  cases op with
  | switch config => exact ⟨rfl, rfl, hd.mem⟩
  | read raddr => exact hd
  | commit ports =>
    have hmem := hd.mem.ports k.config ports
    refine ⟨hd.config, hd.config', ?_⟩
    simp only [Ff.exec, FileOp.dropZero, hd.config, hd.config']
    exact hmem

theorem output (hd : DropsZero k h h') (op : FileOp w d) (hc : k.Clean op) :
    h.output op.dropZero = h'.output op := by
  cases op with
  | switch config | commit ports => rfl
  | read raddr =>
    simp only [Ff.output, FileOp.dropZero, rdata, hd.config, hd.config', true_and,
      Option.some.injEq]
    split
    · rfl
    · rename_i hr
      cases hp : windowTranslation k.config raddr with
      | none => rfl
      | some p => exact hd.mem p ((hc p hp).resolve_left hr)

end DropsZero

/-- Every sequence whose reads stay off the cells that were written as `x0` last reads the same
without its writes to `x0`. -/
theorem outputs_dropZero (ops : List (FileOp w d))
    (hc : Runs.Along ZeroLedger.step ZeroLedger.Clean ZeroLedger.reset ops) :
    Ff.outputs (ops.map FileOp.dropZero) = Ff.outputs ops := by
  have hreset : DropsZero ZeroLedger.reset (Ff.reset : Ff w d) Ff.reset :=
    ⟨rfl, rfl, fun _ _ => rfl⟩
  unfold Ff.outputs
  rw [Observe.observe_map]
  exact Observe.observe_eq (C := ZeroLedger.Clean) (R := DropsZero)
    (fun _ _ _ op hd _ => hd.exec op) (fun _ _ _ op hd hc => hd.output op hc) hreset hc

/-- Two windows over cells 40 to 47 and 39 to 46; `x1` of the second is `x0` of the first. -/
def overlapped (reads : Reg) : List (FileOp 32 32) :=
  [.switch 0x00080028, .commit [⟨true, 0, 7⟩, ⟨true, 2, 5⟩], .switch 0x00080027, .read reads]

theorem overlapped_dropZero :
    Ff.outputs ((overlapped 3).map FileOp.dropZero) = Ff.outputs (overlapped 3) :=
  outputs_dropZero (overlapped 3) (by decide)

theorem overlapped_not_dropZero :
    Ff.outputs ((overlapped 1).map FileOp.dropZero) ≠ Ff.outputs (overlapped 1) := by
  decide

end RegisterWindows.Cva6
