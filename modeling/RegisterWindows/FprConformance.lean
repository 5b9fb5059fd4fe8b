import Mathlib.Data.BitVec
import RegisterWindows.Cva6.Interference
import RegisterWindows.Spike.RegfileT
import RegisterWindows.Spike.Processor

namespace RegisterWindows
open Cva6 Spike View

variable {d : Nat}

inductive FpOp (d : Nat) where
  | write (r : Reg) (value : BitVec d)
  | read (r : Reg)
  /-- `csrw 0x801`. -/
  | csrw (val : Word)
  | trap
  | mret

/-- What moves the window, and the places at which code uses floating-point registers. -/
inductive FpStep where
  | code
  | csrw (val : Word)
  | trap
  | mret
deriving DecidableEq, Repr

/-- The operation itself, but for code. -/
def FpStep.op : FpStep → Option (FpOp d)
  | .code => none
  | .csrw val => some (.csrw val)
  | .trap => some .trap
  | .mret => some .mret

def FpOp.uses : FpOp d → Bool
  | .write .. => true
  | .read _ => true
  | _ => false

def fpExec (regs : Reg → BitVec d) : FpOp d → Reg → BitVec d
  | .write r value => Function.update regs r value
  | _ => regs

def fpOutput (regs : Reg → BitVec d) : FpOp d → Option (BitVec d)
  | .read r => some (regs r)
  | _ => none

def lastWritten (ops : List (FpOp d)) : List (Option (BitVec d)) :=
  Observe.observe fpExec fpOutput (fun _ => 0) ops

namespace Spike

def NFPR : SizeT := 32

/-- `processor_t` with `regfile_t<freg_t, NFPR, false> FPR`. -/
structure FpHart (d : Nat) where
  core : Processor
  FPR : RegfileT (BitVec d) NFPR false

/-- What `window_config_csr_t::write` does to this file. -/
def writeFprConfig (f : RegfileT (BitVec d) NFPR false) (val : SizeT) :
    RegfileT (BitVec d) NFPR false :=
  let new_base := val &&& 0xFFFF
  let new_size := (val >>> 16) &&& 0xFFFF
  f.setWindowConfig new_base (if new_size = 0 then 32 else new_size)

namespace FpHart

def exec (h : FpHart d) : FpOp d → FpHart d
  | .write r value => { h with FPR := h.FPR.write (index r) value }
  | .read _ => h
  | .csrw val => { h with core := h.core.putStaged val }
  | .trap => ⟨h.core.takeTrap, h.FPR.setWindowConfig 0 32⟩
  | .mret => ⟨h.core.mret, writeFprConfig h.FPR h.core.window_staged⟩

def output (h : FpHart d) : FpOp d → Option (BitVec d)
  | .read r => some (h.FPR.read (index r))
  | _ => none

def outputs (p₀ : Processor) (ops : List (FpOp d)) : List (Option (BitVec d)) :=
  Observe.observe exec output ⟨p₀, RegfileT.reset⟩ ops

end FpHart

/-- The window of the floating-point file: its first cell, and how many names it has. -/
structure FpWindow where
  base : Nat
  size : Nat
deriving DecidableEq, Repr

namespace FpWindow

def all : FpWindow := ⟨0, 32⟩

/-- A base in the file is taken. Base 32 takes all the names away, and a base beyond it none. -/
def install (w : FpWindow) (base size : Nat) : FpWindow :=
  let size := if size = 0 then 32 else size
  if base < 32 then ⟨base, min size (32 - base)⟩
  else if base = 32 then ⟨w.base, 0⟩
  else ⟨w.base, 32⟩

end FpWindow

/-- The configuration in CSR 0x801, and the window that the file has been given. -/
structure InForce where
  staged : SizeT
  window : FpWindow
deriving DecidableEq

namespace InForce

def start (p₀ : Processor) : InForce := ⟨p₀.window_staged, .all⟩

def next (c : InForce) : FpOp d → InForce
  | .csrw val => { c with staged := val.setWidth 64 }
  | .trap => { c with window := .all }
  | .mret => { c with
      window := c.window.install (c.staged.toNat % 65536) (c.staged.toNat / 65536 % 65536) }
  | .write .. => c
  | .read _ => c

/-- A floating-point register is written or read with all of them in the window. -/
def Open (c : InForce) : FpOp d → Prop
  | .write .. => c.window = .all
  | .read _ => c.window = .all
  | _ => True

end InForce

/-- The file has the window that the configurations give it. -/
structure Installed (w : FpWindow) (f : RegfileT (BitVec d) NFPR false) : Prop where
  base : f.base_offset.toNat = w.base
  size : min f.window_size.toNat 32 = w.size
  inside : w.base < 32

namespace Installed
variable {w : FpWindow} {f : RegfileT (BitVec d) NFPR false}

theorem reset : Installed .all (RegfileT.reset : RegfileT (BitVec d) NFPR false) :=
  ⟨rfl, rfl, by decide⟩

theorem trap (f : RegfileT (BitVec d) NFPR false) : Installed .all (f.setWindowConfig 0 32) :=
  ⟨rfl, rfl, by decide⟩

theorem write (h : Installed w f) (i : SizeT) (value : BitVec d) :
    Installed w (f.write i value) := by
  rw [RegfileT.write_eq]
  exact ⟨h.base, h.size, h.inside⟩

theorem setWindowConfig (h : Installed w f) {base size : SizeT} (hb : base.toNat < 2 ^ 16)
    (hs : size.toNat < 2 ^ 16) (h0 : size ≠ 0) :
    Installed (w.install base.toNat size.toNat) (f.setWindowConfig base size) := by
  have hN : NFPR.toNat = 32 := rfl
  have hpos : size.toNat ≠ 0 := fun he => h0 (BitVec.eq_of_toNat_eq he)
  have hsum : (base + size).toNat = base.toNat + size.toNat := by
    rw [BitVec.toNat_add]
    omega
  have hsub : (NFPR - base).toNat = (2 ^ 64 - base.toNat + 32) % 2 ^ 64 := BitVec.toNat_sub ..
  have hbase := h.base
  have hin := h.inside
  unfold FpWindow.install RegfileT.setWindowConfig
  simp only [if_neg hpos, gt_iff_lt, BitVec.lt_def, hN, hsum]
  by_cases hlt : base.toNat < 32
  · simp only [hlt, if_true]
    refine ⟨rfl, ?_, hlt⟩
    by_cases hover : 32 < base.toNat + size.toNat
    · rw [if_pos hover, hsub]
      change min _ 32 = min size.toNat (32 - base.toNat)
      omega
    · rw [if_neg hover]
      change min size.toNat 32 = min size.toNat (32 - base.toNat)
      omega
  · have hover : 32 < base.toNat + size.toNat := by omega
    simp only [hlt, hover, if_false, if_true]
    by_cases he : base.toNat = 32
    · refine ⟨by rw [if_pos he]; exact hbase, ?_, by rw [if_pos he]; exact hin⟩
      rw [if_pos he, hsub, he]
      rfl
    · refine ⟨by rw [if_neg he]; exact hbase, ?_, by rw [if_neg he]; exact hin⟩
      rw [if_neg he, hsub]
      change min _ 32 = 32
      omega

theorem writeFprConfig (h : Installed w f) (val : SizeT) :
    Installed (w.install (val.toNat % 65536) (val.toNat / 65536 % 65536))
      (writeFprConfig f val) := by
  have hand (a : SizeT) : (a &&& 0xFFFF).toNat = a.toNat % 65536 := by
    rw [BitVec.toNat_and]
    exact Nat.and_two_pow_sub_one_eq_mod _ 16
  have hbase := hand val
  have hsize : ((val >>> 16) &&& 0xFFFF).toNat = val.toNat / 65536 % 65536 := by
    rw [hand, BitVec.toNat_ushiftRight, Nat.shiftRight_eq_div_pow]
  rw [← hbase, ← hsize]
  unfold Spike.writeFprConfig
  by_cases h0 : (val >>> 16) &&& 0xFFFF = 0
  · simp only [h0, if_true]
    have hset : Installed (w.install (val &&& 0xFFFF).toNat (32 : SizeT).toNat)
        (f.setWindowConfig (val &&& 0xFFFF) 32) :=
      h.setWindowConfig (by rw [hbase]; omega) (by decide) (by decide)
    exact hset
  · simp only [h0, if_false]
    exact h.setWindowConfig (by rw [hbase]; omega) (by rw [hsize]; omega) h0

theorem cell (h : Installed .all f) (r : Reg) : f.cell (index r) = some (index r) := by
  have hbase : f.base_offset = 0 := BitVec.eq_of_toNat_eq h.base
  have hsize : min f.window_size.toNat 32 = 32 := h.size
  have hr := index_toNat r
  have hlt := r.isLt
  have hN : NFPR.toNat = 32 := rfl
  have hadd : index r + 0 = index r := BitVec.add_zero _
  have hin : index r < f.window_size ∧ index r + f.base_offset < NFPR := by
    rw [hbase, hadd, BitVec.lt_def, BitVec.lt_def]
    omega
  unfold RegfileT.cell
  rw [if_neg (by simp), if_pos hin, hbase, hadd]

theorem cell_last (h : Installed w f) (hw : w ≠ .all) : f.cell (index 31) = none := by
  have h31 : (index 31).toNat = 31 := index_toNat 31
  have hN : NFPR.toNat = 32 := rfl
  have hbase := h.base
  have hsize := h.size
  have hin := h.inside
  have hout : ¬ (index 31 < f.window_size ∧ index 31 + f.base_offset < NFPR) := by
    rw [BitVec.lt_def, BitVec.lt_def, BitVec.toNat_add, h31, hN]
    rintro ⟨hs, hb⟩
    have hb0 : w.base = 0 := by omega
    have hs32 : w.size = 32 := by omega
    apply hw
    cases w
    cases hb0
    cases hs32
    rfl
  unfold RegfileT.cell
  rw [if_neg (by simp), if_neg hout]

end Installed

/-- The hart has what the configurations say, and each cell the last value of its register. -/
structure Agrees (c : InForce) (h : FpHart d) (regs : Reg → BitVec d) : Prop where
  staged : h.core.window_staged = c.staged
  window : Installed c.window h.FPR
  cells : ∀ r, h.FPR.data (index r) = regs r

namespace Agrees
variable {c : InForce} {h : FpHart d} {regs : Reg → BitVec d}

theorem exec (ha : Agrees c h regs) {op : FpOp d} (ho : c.Open op) :
    Agrees (c.next op) (h.exec op) (fpExec regs op) := by
  obtain ⟨hs, hw, hc⟩ := ha
  cases op with
  | read r => exact ⟨hs, hw, hc⟩
  | csrw val => exact ⟨rfl, hw, hc⟩
  | trap => exact ⟨hs, .trap _, hc⟩
  | mret =>
    refine ⟨hs, ?_, hc⟩
    have hset := hw.writeFprConfig h.core.window_staged
    rw [hs] at hset
    simpa only [InForce.next, FpHart.exec, hs] using hset
  | write r value =>
    have hall : c.window = .all := ho
    refine ⟨hs, hw.write _ _, fun j => ?_⟩
    rw [hall] at hw
    simp only [FpHart.exec, fpExec, RegfileT.write_eq, View.write, hw.cell, Option.elim_some]
    by_cases hj : j = r
    · subst hj
      rw [Function.update_self, Function.update_self]
    · have hne : index j ≠ index r := by
        intro he
        have hv := congrArg BitVec.toNat he
        rw [index_toNat, index_toNat] at hv
        exact hj (Fin.ext hv)
      rw [Function.update_of_ne hne, Function.update_of_ne hj]
      exact hc j

theorem output (ha : Agrees c h regs) {op : FpOp d} (ho : c.Open op) :
    h.output op = fpOutput regs op := by
  cases op with
  | read r =>
    have hall : c.window = .all := ho
    have hw := ha.window
    rw [hall] at hw
    simp only [FpHart.output, fpOutput, RegfileT.read_eq, View.read, hw.cell, Option.elim_some,
      ha.cells]
  | write r value | csrw val | trap | mret => rfl

end Agrees

theorem agrees_start (p₀ : Processor) :
    Agrees (InForce.start p₀) (⟨p₀, RegfileT.reset⟩ : FpHart d) fun _ => 0 :=
  ⟨rfl, .reset, fun _ => rfl⟩

/-- While all the registers are in the window whenever one is used, each reads as it was written
last. -/
theorem outputs_of_open {p₀ : Processor} {ops : List (FpOp d)}
    (ho : Runs.Along (fun c op => some (c.next op)) InForce.Open (InForce.start p₀) ops) :
    FpHart.outputs p₀ ops = lastWritten ops := by
  have hexec (c : InForce) (h : FpHart d) (regs : Reg → BitVec d) (op : FpOp d)
      (ha : Agrees c h regs) (ho : c.Open op) : Agrees (c.next op) (h.exec op) (fpExec regs op) :=
    ha.exec ho
  have hout (c : InForce) (h : FpHart d) (regs : Reg → BitVec d) (op : FpOp d)
      (ha : Agrees c h regs) (ho : c.Open op) : h.output op = fpOutput regs op := ha.output ho
  exact Observe.observe_eq hexec hout (agrees_start p₀) ho

/-- A run of these steps, with any accesses at the places for code. -/
inductive Fills : List FpStep → List (FpOp d) → Prop
  | nil : Fills [] []
  | code {steps : List FpStep} {ops : List (FpOp d)} (used : List (FpOp d))
      (hu : ∀ op ∈ used, op.uses = true) (h : Fills steps ops) :
      Fills (.code :: steps) (used ++ ops)
  | move {step : FpStep} {op : FpOp d} {steps : List FpStep} {ops : List (FpOp d)}
      (ho : step.op = some op) (h : Fills steps ops) : Fills (step :: steps) (op :: ops)

namespace InForce

def step (c : InForce) (s : FpStep) : Option InForce :=
  some ((s.op (d := 0)).elim c c.next)

/-- Code finds all the registers in the window. -/
def Usable (c : InForce) (s : FpStep) : Prop := s = .code → c.window = .all

instance (c : InForce) : DecidablePred c.Usable := fun s =>
  inferInstanceAs (Decidable (s = .code → c.window = .all))

end InForce

theorem next_of_uses {op : FpOp d} (hu : op.uses = true) (c : InForce) : c.next op = c := by
  cases op with
  | write r value | read r => rfl
  | csrw val | trap | mret => cases hu

theorem open_of_uses {op : FpOp d} {c : InForce} (hc : c.window = .all) : c.Open op := by
  cases op with
  | write r value | read r => exact hc
  | csrw val | trap | mret => trivial

theorem step_op {s : FpStep} {op : FpOp d} (ho : s.op = some op) (c : InForce) :
    c.step s = some (c.next op) ∧ c.Open op := by
  cases s with
  | code => cases ho
  | csrw val | trap | mret =>
    cases ho
    exact ⟨rfl, trivial⟩

theorem Fills.open {steps : List FpStep} {ops : List (FpOp d)} (h : Fills steps ops) {c : InForce}
    (hc : Runs.Along InForce.step InForce.Usable c steps) :
    Runs.Along (fun c op => some (c.next op)) InForce.Open c ops := by
  induction h generalizing c with
  | nil => trivial
  | code used hu h ih =>
    have hall : c.window = .all := hc.1 rfl
    have hrest := ih (hc.2 c rfl)
    clear h ih hc
    induction used with
    | nil => exact hrest
    | cons op used ihu =>
      refine ⟨open_of_uses hall, fun t ht => ?_⟩
      cases ht
      rw [next_of_uses (hu op List.mem_cons_self)]
      exact ihu fun o ho => hu o (List.mem_cons_of_mem op ho)
  | move ho h ih =>
    obtain ⟨hs, hopen⟩ := step_op ho c
    refine ⟨hopen, fun t ht => ?_⟩
    cases ht
    exact ih (hc.2 _ hs)

/-- The run without any code. -/
def quiet (steps : List FpStep) : List (FpOp d) := steps.filterMap FpStep.op

theorem fills_quiet (steps : List FpStep) : Fills steps (quiet steps : List (FpOp d)) := by
  induction steps with
  | nil => exact .nil
  | cons s steps ih =>
    cases s with
    | code => exact .code [] (by simp) ih
    | csrw val | trap | mret => exact .move rfl ih

theorem Fills.append {pre steps : List FpStep} {ops ops' : List (FpOp d)} (h : Fills pre ops)
    (h' : Fills steps ops') : Fills (pre ++ steps) (ops ++ ops') := by
  induction h with
  | nil => exact h'
  | code used hu h ih =>
    rw [List.append_assoc]
    exact .code used hu ih
  | move ho h ih => exact .move ho ih

theorem quiet_agrees {c : InForce} {h : FpHart d} (ha : Agrees c h fun _ => 0)
    {pre : List FpStep} {t : InForce} (hr : Runs.run InForce.step c pre = some t) :
    Agrees t ((quiet pre).foldl FpHart.exec h) fun _ => 0 := by
  induction pre generalizing c h with
  | nil =>
    cases hr
    exact ha
  | cons s pre ih =>
    obtain ⟨u, hu, hr⟩ := Runs.run_cons.mp hr
    cases s with
    | code =>
      cases hu
      exact ih ha hr
    | csrw val =>
      cases hu
      exact ih (ha.exec (show c.Open (.csrw val : FpOp d) from trivial)) hr
    | trap =>
      cases hu
      exact ih (ha.exec (show c.Open (.trap : FpOp d) from trivial)) hr
    | mret =>
      cases hu
      exact ih (ha.exec (show c.Open (.mret : FpOp d) from trivial)) hr

theorem lost_last (hd : 0 < d) {c : InForce} {h : FpHart d} (ha : Agrees c h fun _ => 0)
    (hc : c.window ≠ .all) (regs : Reg → BitVec d) :
    Observe.observe FpHart.exec FpHart.output h [.write 31 1, .read 31] ≠
      Observe.observe fpExec fpOutput regs [.write 31 1, .read 31] := by
  have hcell := ha.window.cell_last hc
  have hw : h.FPR.write (index 31) 1 = h.FPR := by
    rw [RegfileT.write_eq, View.write, hcell]
    rfl
  have h0 : h.FPR.read (index 31) = 0 := by
    rw [RegfileT.read_eq, View.read, hcell]
    exact ha.cells 0
  intro he
  simp only [Observe.observe, FpHart.exec, FpHart.output, fpExec, fpOutput, hw, h0,
    Function.update_self, List.cons.injEq, Option.some.injEq, and_true, true_and] at he
  exact hd.ne' (BitVec.one_eq_zero_iff.mp he.symm)

end Spike

namespace Cva6

/-- `FULL_WINDOW_CONFIG`. -/
def fullWindowConfig : Word := 0x00200000

/-- The floating-point file of CVA6, one write at a time. -/
def fprExec (mem : Mem d) : FpOp d → Mem d
  | .write r value => registerWriteBehavioral false fullWindowConfig mem [⟨true, r, value⟩]
  | _ => mem

def fprOutput (mem : Mem d) : FpOp d → Option (BitVec d)
  | .read r => some (rdata false fullWindowConfig mem r)
  | _ => none

def fprOutputs (ops : List (FpOp d)) : List (Option (BitVec d)) :=
  Observe.observe fprExec fprOutput (fun _ => 0) ops

theorem windowTranslation_full (r : Reg) :
    windowTranslation fullWindowConfig r = some ⟨r.val, reg_lt r⟩ := Window.phys_kernel r

/-- A file with all of its registers in the window is an ordinary one. -/
theorem fprOutputs_eq (ops : List (FpOp d)) : fprOutputs ops = lastWritten ops := by
  refine Observe.observe_refines (C := fun _ _ => True)
    (R := fun regs mem => ∀ r : Reg, mem ⟨r.val, reg_lt r⟩ = regs r) ?_ ?_ (fun _ => rfl)
    (Runs.along_of_mem fun _ _ => trivial)
  · intro regs mem op h _ r
    cases op with
    | write r' value =>
      simp only [fprExec, fpExec, registerWriteBehavioral, List.foldl_cons, List.foldl_nil,
        writePort, windowTranslation_full, if_true]
      by_cases hr : r = r'
      · subst hr
        simp
      · have hcell : (⟨r.val, reg_lt r⟩ : PhysReg) ≠ ⟨r'.val, reg_lt r'⟩ := fun he =>
          hr (Fin.ext (Fin.mk.inj he))
        simp [Function.update_of_ne hr, Function.update_of_ne hcell, h r]
    | read r' | csrw val | trap | mret => exact h r
  · intro regs mem op h _
    cases op with
    | read r =>
      simp only [fprOutput, fpOutput, rdata, windowTranslation_full, h r]
      simp
    | write r value | csrw val | trap | mret => rfl

end Cva6

/-- Wherever code uses floating-point registers, any such code reads them as they were written
last, as on CVA6, exactly if at each of these places all the registers are in the window that the
configurations give. -/
theorem fpr_lastWritten_iff (hd : 0 < d) (p₀ : Processor) (steps : List FpStep) :
    (∀ ops : List (FpOp d), Fills steps ops →
      FpHart.outputs p₀ ops = lastWritten ops ∧ FpHart.outputs p₀ ops = fprOutputs ops) ↔
    Runs.Along InForce.step InForce.Usable (InForce.start p₀) steps := by
  constructor
  · intro h
    refine Runs.along_of_prefix fun pre s t hp hr hs => ?_
    subst hs
    by_contra hw
    obtain ⟨rest, rfl⟩ := hp
    -- code that writes the last register and reads it, and nothing before
    have hfill : Fills (pre ++ [.code] ++ rest)
        (quiet pre ++ ([.write 31 1, .read 31] ++ quiet rest) : List (FpOp d)) := by
      rw [List.append_assoc]
      exact (fills_quiet pre).append (.code _ (by simp [FpOp.uses]) (fills_quiet rest))
    have hout := (h _ hfill).1
    unfold FpHart.outputs lastWritten at hout
    rw [Observe.observe_append, Observe.observe_append, Observe.observe_append,
      Observe.observe_append] at hout
    have htail := (List.append_inj hout (by simp only [Observe.length_observe])).2
    have hlost := (List.append_inj htail (by simp only [Observe.length_observe])).1
    exact lost_last hd (quiet_agrees (agrees_start p₀) hr) hw _ hlost
  · intro hc ops hf
    have heq := outputs_of_open (hf.open hc)
    exact ⟨heq, heq.trans (fprOutputs_eq ops).symm⟩

/-- A task in cells 32 to 47, whose window has no floating-point register, and one in cells 33
to 48, whose window has them all. -/
def fpSwitch (val : Word) : List (FpOp 64) := [.write 1 7, .csrw val, .mret, .read 1]

theorem fpSwitch_lastWritten :
    FpHart.outputs Processor.reset (fpSwitch 0x00100021) = lastWritten (fpSwitch 0x00100021) ∧
      FpHart.outputs Processor.reset (fpSwitch 0x00100021) = fprOutputs (fpSwitch 0x00100021) := by
  refine (fpr_lastWritten_iff (by decide) Processor.reset
    [.code, .csrw 0x00100021, .mret, .code]).mpr (by decide) _ ?_
  exact .code [.write 1 7] (by simp [FpOp.uses]) (.move rfl (.move rfl
    (.code [.read 1] (by simp [FpOp.uses]) .nil)))

theorem fpSwitch_lost :
    FpHart.outputs Processor.reset (fpSwitch 0x00100020) ≠ lastWritten (fpSwitch 0x00100020) := by
  decide

end RegisterWindows
