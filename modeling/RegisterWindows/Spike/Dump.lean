import RegisterWindows.Spike.Processor

namespace RegisterWindows.Spike

namespace Regfile

def dumped (f : Regfile) : Regfile :=
  ((f.setWindowConfig 0 32).setWindowConfig 32 32).setWindowConfig f.base_offset f.window_size

@[simp] theorem data_dumped (f : Regfile) : f.dumped.data = f.data := rfl

@[simp] theorem base_offset_dumped (f : Regfile) : f.dumped.base_offset = f.base_offset :=
  if_pos f.base_lt

/-- A size that runs over the end of the file is clamped now. -/
theorem window_size_dumped (f : Regfile) :
    f.dumped.window_size =
      if f.base_offset + f.window_size > NXPR then NXPR - f.base_offset else f.window_size := rfl

/-- The sum of a wrapped size and the base may be a small number again, and then the size stays. -/
theorem window_size_toNat (f : Regfile) :
    f.dumped.window_size.toNat =
      if 64 < (f.base_offset.toNat + f.window_size.toNat) % 18446744073709551616 then
        64 - f.base_offset.toNat
      else f.window_size.toNat := by
  have hlt := f.base_toNat_lt
  have hN : NXPR.toNat = 64 := rfl
  have hsub : (NXPR - f.base_offset).toNat = 64 - f.base_offset.toNat := by
    rw [BitVec.toNat_sub_of_le (BitVec.le_def.mpr (by omega)), hN]
  rw [window_size_dumped, apply_ite BitVec.toNat, hsub]
  simp only [gt_iff_lt, BitVec.lt_def, BitVec.toNat_add, hN]

/-- Clamped or not, the size ends the window at the same name or beyond the file. -/
theorem physicalIndex_dumped (f : Regfile) (i : Reg) :
    f.dumped.physicalIndex i = f.physicalIndex i := by
  have hlt := f.base_toNat_lt
  have hi := i.isLt
  have hsize := f.window_size_toNat
  have hb : f.dumped.window.base = f.window.base := congrArg BitVec.toNat f.base_offset_dumped
  have hsame : i.val < f.dumped.window.size ∧ f.window.base + i.val < 64 ↔
      i.val < f.window.size ∧ f.window.base + i.val < 64 := by
    simp only [window, hsize]
    split <;> omega
  rw [physicalIndex_eq, physicalIndex_eq]
  unfold Window.phys
  simp only [hb, hsame]

/-- The clamping changes the size exactly when the sum is beyond the file. -/
theorem dumped_eq_iff (f : Regfile) :
    f.dumped = f ↔ f.base_offset + f.window_size ≤ NXPR := by
  constructor
  · intro h
    by_contra hgt
    have hsize : NXPR - f.base_offset = f.window_size :=
      (f.window_size_dumped.trans (if_pos (BitVec.not_le.mp hgt))).symm.trans
        (congrArg window_size h)
    rw [← hsize, BitVec.add_comm, BitVec.sub_add_cancel] at hgt
    exact hgt (BitVec.le_refl _)
  · intro hle
    have hsize : f.dumped.window_size = f.window_size := if_neg (BitVec.not_lt.mpr hle)
    have hbase := f.base_offset_dumped
    have hdata := f.data_dumped
    generalize f.dumped = g at *
    obtain ⟨_, _, _, _, _⟩ := f
    obtain ⟨_, _, _, _, _⟩ := g
    cases hsize
    cases hbase
    cases hdata
    rfl

end Regfile

/-- Each name reaches the word it reached before, and each word holds what it held. -/
structure SameRegisters (p p' : Processor) : Prop where
  reach : ∀ i : Reg, p'.XPR.physicalIndex i = p.XPR.physicalIndex i
  data : p'.XPR.data = p.XPR.data

def OnlyStaged (p p' : Processor) : Prop := { p' with window_staged := p.window_staged } = p

theorem sameRegisters_putStaged (p : Processor) (val : Word) :
    SameRegisters p (p.putStaged val) where
  reach := p.XPR.physicalIndex_dumped
  data := rfl

theorem onlyStaged_putStaged_iff (p : Processor) (val : Word) :
    OnlyStaged p (p.putStaged val) ↔ p.XPR.dumped = p.XPR := by
  constructor
  · exact congrArg Processor.XPR
  · intro h
    exact congrArg (fun f : Regfile => { p with XPR := f }) h

/-- The program cannot see the dump. The restore is exact unless the sum of base and size, as it
wraps, is beyond the file. -/
theorem putStaged_invisible (p : Processor) (val : Word) :
    SameRegisters p (p.putStaged val) ∧
      (SameRegisters p (p.putStaged val) ∧ OnlyStaged p (p.putStaged val) ↔
        p.XPR.base_offset + p.XPR.window_size ≤ NXPR) := by
  have hsame := sameRegisters_putStaged p val
  refine ⟨hsame, ?_⟩
  rw [and_iff_right hsame, onlyStaged_putStaged_iff, Regfile.dumped_eq_iff]

/-- After an `mret` to a base beyond the file the size is 2^64 - 1, and 64 after the dump. -/
theorem putStaged_size :
    let p := (Processor.reset.putStaged 0x00200041).mret
    p.XPR.window_size = 0xFFFFFFFFFFFFFFFF ∧ (p.putStaged 0).XPR.window_size = 64 ∧
      ¬ OnlyStaged p (p.putStaged 0) := by
  refine ⟨by decide, by decide, ?_⟩
  rw [onlyStaged_putStaged_iff, Regfile.dumped_eq_iff]
  decide

end RegisterWindows.Spike
