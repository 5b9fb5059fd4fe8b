import RegisterWindows.Core
import RegisterWindows.Spike.Regfile

namespace RegisterWindows.Spike

structure Processor where
  XPR : Regfile
  window_active : SizeT
  window_staged : SizeT
  previous_window_config : SizeT

namespace Processor

/-- `put_csr(0x801, val)`: the dump looks at both halves of the file through the
window it is about to restore. -/
def putStaged (p : Processor) (val : Word) : Processor :=
  let saved_base := p.XPR.base_offset
  let saved_size := p.XPR.window_size
  { p with
    window_staged := val.setWidth 64
    XPR := ((p.XPR.setWindowConfig 0 32).setWindowConfig 32 32).setWindowConfig
      saved_base saved_size }

/-- `get_csr(0x801)`, as a register of the 32-bit hart takes it. -/
def getStaged (p : Processor) : Word := p.window_staged.setWidth 32

/-- The window part of `take_trap`; it comes before the choice of the handling mode. -/
def takeTrap (p : Processor) : Processor :=
  let current_base := p.XPR.base_offset
  let current_size := p.XPR.window_size
  { p with
    previous_window_config := (current_size <<< 16) ||| (current_base &&& 0xFFFF)
    XPR := p.XPR.setWindowConfig 0 32 }

/-- `window_config_csr_t::write`. -/
def writeWindowConfig (f : Regfile) (val : SizeT) : Regfile :=
  let new_base := val &&& 0xFFFF
  let new_size := (val >>> 16) &&& 0xFFFF
  f.setWindowConfig new_base (if new_size = 0 then 32 else new_size)

/-- The window part of `mret.h`. -/
def mret (p : Processor) : Processor :=
  let prev_win_config := p.window_staged
  let restore_size := (prev_win_config >>> 16) &&& 0xFFFF
  let restore_base := prev_win_config &&& 0xFFFF
  { p with
    window_active := prev_win_config
    XPR := writeWindowConfig (p.XPR.setWindowConfig restore_base restore_size) prev_win_config }

end Processor

def Processor.reset : Processor := ⟨Regfile.reset, 0, 0, 0⟩

instance : WindowedCore Processor where
  reg p i := p.XPR.read i
  setReg p i v := { p with XPR := p.XPR.write i v }
  staged := Processor.getStaged
  stage := Processor.putStaged
  active p := p.XPR.window
  cell p := p.XPR.data
  interrupted := Processor.getStaged
  trap := Processor.takeTrap
  mret := Processor.mret

theorem window_putStaged {p : Processor} {val : Word} (hk : p.XPR.window = Window.kernel) :
    (p.putStaged val).XPR.window = Window.kernel := by
  have hbase : p.XPR.base_offset = 0 := BitVec.eq_of_toNat_eq (congrArg Window.base hk)
  have hsize : min p.XPR.window_size.toNat 32 = 32 := congrArg Window.size hk
  simp only [Processor.putStaged, hbase]
  exact Regfile.window_setWindowConfig_zero _ (by omega)

theorem window_kernel (f : Regfile) : (f.setWindowConfig 0 32).window = Window.kernel :=
  f.window_setWindowConfig_zero (by decide)

theorem fields (p : Processor) :
    (p.window_staged &&& 0xFFFF).toNat = p.getStaged.toNat % 65536 ∧
      ((p.window_staged >>> 16) &&& 0xFFFF).toNat = p.getStaged.toNat / 65536 := by
  have hand (a : SizeT) : (a &&& 0xFFFF).toNat = a.toNat % 65536 := by
    rw [BitVec.toNat_and]
    exact Nat.and_two_pow_sub_one_eq_mod _ 16
  have hlow : p.getStaged.toNat = p.window_staged.toNat % 4294967296 := BitVec.toNat_setWidth ..
  rw [hand, hand, BitVec.toNat_ushiftRight, Nat.shiftRight_eq_div_pow, hlow]
  omega

/-- Both writes of `mret` ask for the same window, so one that fits the file is installed. -/
theorem window_mret {p : Processor} {base size : Nat}
    (hs : p.getStaged.toNat = size * 65536 + base) (hsize : 1 ≤ size) (hle : size ≤ 32)
    (hin : base + size ≤ 64) : p.mret.XPR.window = ⟨base, size⟩ := by
  obtain ⟨hb, hz⟩ := fields p
  rw [hs] at hb hz
  have hne : (p.window_staged >>> 16) &&& 0xFFFF ≠ 0 := by
    intro h0
    rw [h0, show (0 : SizeT).toNat = 0 from rfl] at hz
    omega
  have hN : NXPR.toNat = 64 := rfl
  rw [Processor.mret, Processor.writeWindowConfig, if_neg hne, Regfile.window_setWindowConfig]
  · exact congrArg₂ Window.mk (by omega) (by omega)
  · rw [BitVec.lt_def]
    omega
  · omega

theorem window_mret_legal {p : Processor} {w : Window} (hw : w.Legal)
    (hs : p.getStaged = w.config) : p.mret.XPR.window = w :=
  window_mret (by rw [hs, hw.config_toNat]) hw.size_pos hw.size_le hw.inside

/-- A size of 0 is read as 32, so an `mret` with nothing staged selects the kernel window. -/
theorem window_mret_zero {p : Processor} (hs : p.getStaged = 0) :
    p.mret.XPR.window = Window.kernel := by
  obtain ⟨hbase, hsize⟩ := fields p
  rw [hs] at hbase hsize
  have hb0 : p.window_staged &&& 0xFFFF = 0 := BitVec.eq_of_toNat_eq hbase
  have hs0 : (p.window_staged >>> 16) &&& 0xFFFF = 0 := BitVec.eq_of_toNat_eq hsize
  rw [Processor.mret, Processor.writeWindowConfig, hb0, hs0, if_pos rfl]
  exact window_kernel _

instance : LawfulCore Processor where
  reg_eq p := p.XPR.read_eq
  active_setReg p := p.XPR.window_write
  cell_setReg_self _ _ v _ hr hp := Regfile.data_write_self v hr hp
  cell_setReg_ne _ _ v _ _ hp := Regfile.data_write_ne v hp
  staged_setReg _ _ _ := rfl
  interrupted_setReg _ _ _ := rfl
  staged_stage p v := by
    change (v.setWidth 64 : SizeT).setWidth 32 = v
    simp
  active_stage _ _ hk := window_putStaged hk
  cell_stage _ _ := rfl
  staged_trap _ := rfl
  active_trap p := window_kernel p.XPR
  cell_trap _ := rfl
  interrupted_mret _ _ := rfl
  cell_mret _ := rfl
  active_mret _ _ hw hs := window_mret_legal hw hs
  active_mret_kernel p hs := by
    have hn : p.getStaged.toNat = 32 * 65536 + 0 := congrArg BitVec.toNat hs
    exact window_mret hn (by decide) (by decide) (by decide)
  active_mret_zero_low p r q hs hq := by
    have hk : p.mret.XPR.window.phys r = some q := hq
    rw [window_mret_zero hs, Window.phys_kernel] at hk
    cases hk
    exact r.isLt

instance : StagesZeroAsKernel Processor where
  active_mret_zero _ hs := window_mret_zero hs

end RegisterWindows.Spike
