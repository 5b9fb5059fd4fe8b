import RegisterWindows.Core
import RegisterWindows.Cva6.Hart

namespace RegisterWindows.Cva6
open Runs

/-- What the port reaches of the core: CSR 0x800, CSR 0x801 and the integer registers. -/
structure Regs where
  windowConfig : Word
  prevWindowConfig : Word
  mem : Mem 32

def Regs.reset : Regs := ⟨defaultWindowConfig 32, 0, fun _ => 0⟩

/-- The single write port an instruction of the port uses. -/
def writeReg (h : Regs) (r : Reg) (v : Word) : Regs :=
  { h with mem := registerWriteBehavioral true h.windowConfig h.mem [⟨true, r, v⟩] }

instance : WindowedCore Regs where
  reg h r := rdata true h.windowConfig h.mem r
  setReg := writeReg
  staged := Regs.prevWindowConfig
  stage h v := { h with prevWindowConfig := v }
  active h := decode h.windowConfig
  cell := Regs.mem
  interrupted := Regs.windowConfig
  trap h := { h with
    prevWindowConfig := h.windowConfig
    windowConfig := defaultWindowConfig 32 }
  mret h := { h with windowConfig := h.prevWindowConfig }

theorem writeReg_self (h : Regs) {r : Reg} (v : Word) {p : PhysReg} (hr : r ≠ 0)
    (hp : (decode h.windowConfig).phys r = some p) : (writeReg h r v).mem p = v := by
  have hp0 : p ≠ 0 := by
    intro h0
    have hval := (Window.phys_some hp).2
    rw [h0] at hval
    exact hr (Fin.ext (by simp only [Fin.val_zero] at hval ⊢; omega))
  simp [writeReg, registerWriteBehavioral, writePort, windowTranslation, hp, hp0]

theorem writeReg_ne (h : Regs) {r : Reg} (v : Word) {p : PhysReg} (hp0 : p ≠ 0)
    (hp : (decode h.windowConfig).phys r ≠ some p) : (writeReg h r v).mem p = h.mem p := by
  simp only [writeReg, registerWriteBehavioral, List.foldl_cons, List.foldl_nil, if_true,
    Function.update_of_ne hp0, writePort, windowTranslation]
  cases hq : (decode h.windowConfig).phys r with
  | some q =>
    refine Function.update_of_ne (fun he => hp ?_) _ _
    rw [he, hq]
  | none => rfl

theorem writeReg_apply (h : Regs) (r : Reg) (v : Word) {p : PhysReg} (hp : p ≠ 0) :
    (writeReg h r v).mem p =
      if windowTranslation h.windowConfig r = some p then v else h.mem p := by
  simp only [writeReg, registerWriteBehavioral, List.foldl_cons, List.foldl_nil, if_true,
    Function.update_of_ne hp, writePort]
  cases hq : windowTranslation h.windowConfig r with
  | none => rfl
  | some q =>
    by_cases hqp : q = p
    · subst hqp
      simp
    · rw [if_neg fun he => hqp (Option.some.inj he)]
      exact Function.update_of_ne (Ne.symm hqp) ..

theorem writeReg_zero (h : Regs) (r : Reg) (v : Word) : (writeReg h r v).mem 0 = 0 := by
  simp only [writeReg, registerWriteBehavioral, List.foldl_cons, List.foldl_nil, if_true]
  exact Function.update_self ..

instance : LawfulCore Regs where
  reg_eq h r := by
    by_cases hr : r = 0
    · simp [Core.reg, rdata, hr]
    · simp only [Core.reg, rdata, windowTranslation, WindowedCore.active, hr]
      cases (decode h.windowConfig).phys r <;> rfl
  active_setReg _ _ _ := rfl
  cell_setReg_self h _ v _ hr hp := writeReg_self h v hr hp
  cell_setReg_ne h _ v _ hp0 hp := writeReg_ne h v hp0 hp
  staged_setReg _ _ _ := rfl
  interrupted_setReg _ _ _ := rfl
  staged_stage _ _ := rfl
  active_stage _ _ hk := hk
  cell_stage _ _ := rfl
  staged_trap _ := rfl
  active_trap _ := decode_default (.inl rfl)
  cell_trap _ := rfl
  interrupted_mret _ _ := rfl
  cell_mret _ := rfl
  active_mret h w hw hs := by
    rw [WindowedCore.active, WindowedCore.mret]
    exact (congrArg decode hs).trans (decode_config hw)
  active_mret_kernel h hs := by
    rw [WindowedCore.active, WindowedCore.mret]
    exact (congrArg decode hs).trans (by decide)
  active_mret_zero_low h r p hs hp := by
    have hnone : (decode h.prevWindowConfig).phys r = none :=
      (congrArg (fun c => (decode c).phys r) hs).trans (windowTranslation_zero r)
    cases hnone.symm.trans hp

def Hart.core (h : Hart 32 32) : Regs := ⟨h.csrs.windowConfig, h.csrs.prevWindowConfig, h.mem⟩

theorem Hart.core_clock (cfg : Cfg) {h h' : Hart 32 32} {i : Input 32 32}
    (hs : clock cfg h i = some h') :
    h'.core = ⟨(cycle cfg h.csrs i.csr).windowConfig, (windowsTaken cfg h.csrs i.csr).2,
      registerWriteBehavioral true h.csrs.windowConfig h.mem i.ports⟩ := by
  cases hs
  rw [← prevWindowConfig_cycle]
  rfl

/-- An instruction that commits a register. -/
theorem core_clock_setReg (cfg : Cfg) {h h' : Hart 32 32} {i : Input 32 32} {r : Reg} {v : Word}
    (hi : Quiet cfg h.csrs i.csr) (hp : i.ports = [⟨true, r, v⟩]) (hs : clock cfg h i = some h') :
    h'.core = Core.setReg h.core r v := by
  rw [Hart.core_clock cfg hs, windowConfig_cycle cfg _ hi.stays,
    windowsTaken_silent cfg _ hi.silent, hi.calm, hp]
  rfl

/-- `csrw 0x801`. -/
theorem core_clock_stage (cfg : Cfg) {h h' : Hart 32 32} {i : Input 32 32} {v : Word}
    (hi : i.csr.op = .staged .write v) (ht : trapTaken cfg h.csrs i.csr = false)
    (hp : i.ports = []) (hs : clock cfg h i = some h') : h'.core = Core.stage h.core v := by
  rw [Hart.core_clock cfg hs, windowConfig_cycle cfg _ (by rw [hi]; exact nofun), windowsTaken, ht,
    hi, hp]
  rfl

/-- A trap to any privilege level. -/
theorem core_clock_trap (cfg : Cfg) {h h' : Hart 32 32} {i : Input 32 32}
    (hi : i.csr.op ≠ .mret) (ht : trapTaken cfg h.csrs i.csr = true)
    (hp : i.ports = []) (hs : clock cfg h i = some h') : h'.core = WindowedCore.trap h.core := by
  rw [Hart.core_clock cfg hs, windowConfig_cycle cfg _ hi, windowsTaken, ht, hp]
  rfl

theorem core_clock_mret (cfg : Cfg) {h h' : Hart 32 32} {i : Input 32 32}
    (hi : i.csr.op = .mret) (ht : trapTaken cfg h.csrs i.csr = false)
    (hp : i.ports = []) (hs : clock cfg h i = some h') : h'.core = WindowedCore.mret h.core := by
  rw [Hart.core_clock cfg hs, windowConfig_mret cfg _ hi, windowsTaken, ht, hi, hp]
  rfl

/-- CVA6 with the one change the port's frames assume: an `mret` with 0 staged
installs the default window. -/
structure ZeroSafe extends Regs

def ZeroSafe.reset : ZeroSafe := ⟨Regs.reset⟩

instance : WindowedCore ZeroSafe where
  reg h := Core.reg h.toRegs
  setReg h r v := ⟨Core.setReg h.toRegs r v⟩
  staged h := h.prevWindowConfig
  stage h v := ⟨Core.stage h.toRegs v⟩
  active h := WindowedCore.active h.toRegs
  cell h := h.mem
  interrupted h := h.windowConfig
  trap h := ⟨WindowedCore.trap h.toRegs⟩
  mret h := { h with
    windowConfig :=
      if h.prevWindowConfig = 0 then defaultWindowConfig 32 else h.prevWindowConfig }

instance : LawfulCore ZeroSafe where
  reg_eq h := LawfulCore.reg_eq h.toRegs
  active_setReg _ _ _ := rfl
  cell_setReg_self h := LawfulCore.cell_setReg_self h.toRegs
  cell_setReg_ne h := LawfulCore.cell_setReg_ne h.toRegs
  staged_setReg _ _ _ := rfl
  interrupted_setReg _ _ _ := rfl
  staged_stage _ _ := rfl
  active_stage _ _ hk := hk
  cell_stage _ _ := rfl
  staged_trap _ := rfl
  active_trap _ := decode_default (.inl rfl)
  cell_trap _ := rfl
  interrupted_mret _ h0 := if_neg h0
  cell_mret _ := rfl
  active_mret h w hw hs := by
    refine (congrArg decode (if_neg ?_)).trans ((congrArg decode hs).trans (decode_config hw))
    exact fun h0 => hw.config_ne_zero (hs.symm.trans h0)
  active_mret_kernel h hs := by
    refine (congrArg decode (if_neg ?_)).trans ((congrArg decode hs).trans (by decide))
    exact fun h0 => absurd (hs.symm.trans h0) (by decide)
  active_mret_zero_low h r p hs hp := by
    have hk : (Window.kernel).phys r = some p :=
      (congrArg (fun c => (decode c).phys r) (if_pos hs)).symm.trans hp
    rw [Window.phys_kernel] at hk
    cases hk
    exact r.isLt

instance : StagesZeroAsKernel ZeroSafe where
  active_mret_zero _ hs := (congrArg decode (if_pos hs)).trans (decode_default (.inl rfl))

end RegisterWindows.Cva6
