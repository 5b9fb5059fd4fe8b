import Mathlib.Data.Nat.Bitwise

namespace RegisterWindows

/-- Both FreeRTOS builds of the repository are RV32, so `portWORD_SIZE` is 4. -/
abbrev Word := BitVec 32

/-- A logical register name `x0` .. `x31`, as an instruction encodes it. -/
abbrev Reg := Fin 32

/-- A cell of the 64-entry physical integer register file. -/
abbrev PhysReg := Fin 64

/-- One proof for the literals of all modules. -/
instance neZero_reg : NeZero 32 := ⟨by decide⟩

instance neZero_physReg : NeZero 64 := ⟨by decide⟩

instance lawfulBEq_reg : LawfulBEq Reg := inferInstance

instance lawfulBEq_word : LawfulBEq Word := inferInstance

theorem reg_lt (r : Reg) : r.val < 64 := by omega

/-- The part of the physical file that the logical names reach. -/
structure Window where
  base : Nat
  size : Nat
deriving DecidableEq, Repr

namespace Window

/-- The window every trap handler runs in. -/
def kernel : Window := ⟨0, 32⟩

/-- Physical cell behind a logical name; none outside the window or the file. -/
def phys (w : Window) (r : Reg) : Option PhysReg :=
  if h : r.val < w.size ∧ w.base + r.val < 64 then some ⟨w.base + r.val, h.2⟩ else none

/-- A window a task may own: inside the file and clear of the kernel's half. -/
structure Legal (w : Window) : Prop where
  above_kernel : 32 ≤ w.base
  size_pos : 1 ≤ w.size
  size_le : w.size ≤ 32
  inside : w.base + w.size ≤ 64

instance (w : Window) : Decidable w.Legal :=
  decidable_of_iff (32 ≤ w.base ∧ 1 ≤ w.size ∧ w.size ≤ 32 ∧ w.base + w.size ≤ 64)
    ⟨fun ⟨a, b, c, d⟩ => ⟨a, b, c, d⟩, fun ⟨a, b, c, d⟩ => ⟨a, b, c, d⟩⟩

def Disjoint (a b : Window) : Prop :=
  a.base + a.size ≤ b.base ∨ b.base + b.size ≤ a.base

instance (a b : Window) : Decidable (a.Disjoint b) := inferInstanceAs (Decidable (_ ∨ _))

/-- `( size << 16 ) | ( base & 0xFFFF )`, the packing `vPortTaskSetRegisterWindow` does. -/
def pack (ulBase ulSize : Word) : Word := (ulSize <<< 16) ||| (ulBase &&& 0xFFFF#32)

/-- The configuration word that names the window in a frame or a CSR. -/
def config (w : Window) : Word := pack (BitVec.ofNat 32 w.base) (BitVec.ofNat 32 w.size)

theorem phys_some {w : Window} {r : Reg} {p : PhysReg} (h : w.phys r = some p) :
    r.val < w.size ∧ p.val = w.base + r.val := by
  unfold phys at h
  split at h
  · rename_i hr
    cases h
    exact ⟨hr.1, rfl⟩
  · cases h

theorem phys_of_lt {w : Window} {r : Reg} (hs : r.val < w.size) (hb : w.base + r.val < 64) :
    w.phys r = some ⟨w.base + r.val, hb⟩ := by
  simp [phys, hs, hb]

theorem phys_none {w : Window} {r : Reg} (h : ¬ (r.val < w.size ∧ w.base + r.val < 64)) :
    w.phys r = none := dif_neg h

/-- Two names of one window never share a cell. -/
theorem phys_inj {w : Window} {r r' : Reg} {p : PhysReg} (h : w.phys r = some p)
    (h' : w.phys r' = some p) : r = r' := by
  have hr := (phys_some h).2
  have hr' := (phys_some h').2
  exact Fin.ext (by omega)

@[simp] theorem phys_kernel (r : Reg) : kernel.phys r = some ⟨r.val, reg_lt r⟩ := by
  have hr := r.isLt
  simp only [phys, kernel, Nat.zero_add, hr, true_and]
  exact dif_pos (by omega)

theorem Legal.phys_high {w : Window} (hw : w.Legal) {r : Reg} {p : PhysReg}
    (h : w.phys r = some p) : 32 ≤ p.val := by
  have := (phys_some h).2
  have := hw.above_kernel
  omega

theorem Disjoint.phys_ne {a b : Window} (hd : a.Disjoint b) {r r' : Reg} {p : PhysReg}
    (ha : a.phys r = some p) : b.phys r' ≠ some p := by
  intro hb
  obtain ⟨hsa, hpa⟩ := phys_some ha
  obtain ⟨hsb, hpb⟩ := phys_some hb
  rcases hd with hd | hd <;> omega

theorem and_ffff_toNat (v : Word) : (v &&& 0xFFFF#32).toNat = v.toNat % 65536 := by
  rw [BitVec.toNat_and]
  exact Nat.and_two_pow_sub_one_eq_mod _ 16

/-- The two 16-bit fields of a packed configuration. -/
theorem pack_toNat (ulBase ulSize : Word) :
    (pack ulBase ulSize).toNat = ulSize.toNat % 65536 * 65536 + ulBase.toNat % 65536 := by
  have hsh : (ulSize <<< 16).toNat = ulSize.toNat % 65536 * 65536 := by
    rw [BitVec.toNat_shiftLeft, Nat.shiftLeft_eq]
    omega
  rw [pack, BitVec.toNat_or, hsh, and_ffff_toNat]
  have h := Nat.shiftLeft_add_eq_or_of_lt (i := 16) (b := ulBase.toNat % 65536)
    (Nat.mod_lt _ (by decide)) (ulSize.toNat % 65536)
  simpa only [Nat.shiftLeft_eq, Nat.reducePow] using h.symm

theorem Legal.config_toNat {w : Window} (hw : w.Legal) :
    w.config.toNat = w.size * 65536 + w.base := by
  have := hw.size_le
  have := hw.inside
  rw [config, pack_toNat, BitVec.toNat_ofNat, BitVec.toNat_ofNat]
  omega

theorem Legal.config_base {w : Window} (hw : w.Legal) :
    w.config &&& 0xFFFF#32 = BitVec.ofNat 32 w.base := by
  apply BitVec.eq_of_toNat_eq
  have := hw.inside
  rw [and_ffff_toNat, hw.config_toNat, BitVec.toNat_ofNat]
  omega

theorem Legal.config_base_ne_zero {w : Window} (hw : w.Legal) :
    w.config &&& 0xFFFF#32 ≠ 0#32 := by
  rw [hw.config_base]
  intro h
  have := congrArg BitVec.toNat h
  have := hw.above_kernel
  have := hw.inside
  simp only [BitVec.toNat_ofNat] at *
  omega

theorem Legal.config_ne_zero {w : Window} (hw : w.Legal) : w.config ≠ 0#32 := by
  intro h
  exact hw.config_base_ne_zero (by rw [h]; rfl)

/-- A legal window is determined by its configuration word. -/
theorem config_inj {a b : Window} (ha : a.Legal) (hb : b.Legal) (h : a.config = b.config) :
    a = b := by
  have hn := congrArg BitVec.toNat h
  rw [ha.config_toNat, hb.config_toNat] at hn
  have := ha.inside
  have := hb.inside
  obtain ⟨ab, az⟩ := a
  obtain ⟨bb, bz⟩ := b
  simp only [mk.injEq] at *
  omega

end Window

end RegisterWindows
