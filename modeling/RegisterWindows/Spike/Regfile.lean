import Mathlib.Logic.Function.Basic
import RegisterWindows.Window

namespace RegisterWindows.Spike

/-- `size_t`, and `reg_t`. -/
abbrev SizeT := BitVec 64

def NXPR : SizeT := 64

/-- `regfile_t<reg_t, NXPR, true>`. The offset never leaves the file, and nothing writes word 0 after
`reset`. -/
structure Regfile where
  data : PhysReg → Word
  base_offset : SizeT
  window_size : SizeT
  base_lt : base_offset < NXPR
  data_zero : data 0 = 0

namespace Regfile

/-- `set_window_config`; the subtraction wraps for a base beyond the file. -/
def setWindowConfig (f : Regfile) (base size : SizeT) : Regfile where
  data := f.data
  base_offset := if base < NXPR then base else f.base_offset
  window_size := if base + size > NXPR then NXPR - base else size
  base_lt := by
    split
    · assumption
    · exact f.base_lt
  data_zero := f.data_zero

/-- `physical_index`, for an access inside the window and the file. -/
def physicalIndex (f : Regfile) (i : Reg) : Option PhysReg :=
  let i : SizeT := BitVec.ofNat 64 i.val
  if i ≥ f.window_size then none
  else if h : i + f.base_offset < NXPR then some ⟨(i + f.base_offset).toNat, h⟩
  else none

/-- The part of the file that the 32 names reach; after `reset` the size is that of the file. -/
def window (f : Regfile) : Window := ⟨f.base_offset.toNat, min f.window_size.toNat 32⟩

def reset : Regfile where
  data _ := 0
  base_offset := 0
  window_size := NXPR
  base_lt := by decide
  data_zero := rfl

theorem base_toNat_lt (f : Regfile) : f.base_offset.toNat < 64 := f.base_lt

theorem index_toNat (f : Regfile) (i : Reg) :
    (BitVec.ofNat 64 i.val + f.base_offset).toNat = f.base_offset.toNat + i.val := by
  have := f.base_toNat_lt
  have := i.isLt
  rw [BitVec.toNat_add, BitVec.toNat_ofNat]
  omega

theorem physicalIndex_eq (f : Regfile) (i : Reg) : f.physicalIndex i = f.window.phys i := by
  have hlt := i.isLt
  have hi : (BitVec.ofNat 64 i.val).toNat = i.val := by
    rw [BitVec.toNat_ofNat]
    omega
  have hsum := f.index_toNat i
  have hsize : (BitVec.ofNat 64 i.val ≥ f.window_size) ↔ f.window_size.toNat ≤ i.val := by
    rw [ge_iff_le, BitVec.le_def, hi]
  have hfile : (BitVec.ofNat 64 i.val + f.base_offset < NXPR) ↔
      f.base_offset.toNat + i.val < 64 := by
    rw [BitVec.lt_def, hsum]
    rfl
  unfold physicalIndex
  by_cases hs : f.window_size.toNat ≤ i.val
  · have hout : ¬ i.val < f.window.size := by
      simp only [window]
      omega
    rw [if_pos (hsize.mpr hs), Window.phys_none (fun h => hout h.1)]
  · rw [if_neg (fun h => hs (hsize.mp h))]
    by_cases hb : f.base_offset.toNat + i.val < 64
    · have hin : i.val < f.window.size := by
        simp only [window]
        omega
      rw [dif_pos (hfile.mpr hb), Window.phys_of_lt hin hb]
      exact congrArg some (Fin.ext hsum)
    · rw [dif_neg (fun h => hb (hfile.mp h)), Window.phys_none (fun h => hb h.2)]

theorem physicalIndex_ne_zero {f : Regfile} {i : Reg} {p : PhysReg} (hi : i ≠ 0)
    (hp : f.physicalIndex i = some p) : p ≠ 0 := by
  rw [physicalIndex_eq] at hp
  intro h0
  have hval := (Window.phys_some hp).2
  rw [h0] at hval
  exact hi (Fin.ext (by simp only [Fin.val_zero] at hval ⊢; omega))

def setData (f : Regfile) (p : PhysReg) (value : Word) (hp : p ≠ 0) : Regfile where
  data := Function.update f.data p value
  base_offset := f.base_offset
  window_size := f.window_size
  base_lt := f.base_lt
  data_zero := (Function.update_of_ne hp.symm _ _).trans f.data_zero

def write (f : Regfile) (i : Reg) (value : Word) : Regfile :=
  if hi : i = 0 then f
  else match hp : f.physicalIndex i with
    | some p => f.setData p value (physicalIndex_ne_zero hi hp)
    | none => f

/-- `operator []`. -/
def read (f : Regfile) (i : Reg) : Word :=
  if i = 0 then f.data 0
  else match f.physicalIndex i with
    | some p => f.data p
    | none => f.data 0

theorem read_eq (f : Regfile) (i : Reg) :
    f.read i = if i = 0 then 0 else
      match f.window.phys i with
      | some p => f.data p
      | none => 0 := by
  rw [read, f.data_zero, physicalIndex_eq]

theorem window_write (f : Regfile) (i : Reg) (v : Word) : (f.write i v).window = f.window := by
  unfold write
  split
  · rfl
  · split <;> rfl

theorem data_write_self {f : Regfile} {i : Reg} (v : Word) {p : PhysReg} (hi : i ≠ 0)
    (hp : f.window.phys i = some p) : (f.write i v).data p = v := by
  rw [← physicalIndex_eq] at hp
  rw [write, dif_neg hi]
  split
  · rename_i q hq
    cases hp.symm.trans hq
    exact Function.update_self _ _ _
  · rename_i hq
    cases hp.symm.trans hq

theorem data_write_ne {f : Regfile} {i : Reg} (v : Word) {p : PhysReg}
    (hp : f.window.phys i ≠ some p) : (f.write i v).data p = f.data p := by
  rw [← physicalIndex_eq] at hp
  unfold write
  split
  · rfl
  · split
    · rename_i q hq
      refine Function.update_of_ne (fun he => hp ?_) _ _
      rw [he, hq]
    · rfl

theorem window_setWindowConfig (f : Regfile) {base size : SizeT} (hb : base < NXPR)
    (hfit : base.toNat + size.toNat ≤ 64) :
    (f.setWindowConfig base size).window = ⟨base.toNat, min size.toNat 32⟩ := by
  have hsum : ¬ base + size > NXPR := by
    rw [gt_iff_lt, BitVec.lt_def, BitVec.toNat_add]
    have : NXPR.toNat = 64 := rfl
    omega
  simp only [window, setWindowConfig, if_pos hb, if_neg hsum]

theorem window_setWindowConfig_zero (f : Regfile) {size : SizeT} (hs : 32 ≤ size.toNat) :
    (f.setWindowConfig 0 size).window = Window.kernel := by
  have h0 : (0 : SizeT) < NXPR := by decide
  simp only [window, setWindowConfig, if_pos h0, Window.kernel, Window.mk.injEq]
  refine ⟨rfl, ?_⟩
  split
  · decide
  · omega

end Regfile

end RegisterWindows.Spike
