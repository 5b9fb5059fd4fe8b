import RegisterWindows.Lib.View
import RegisterWindows.Port.Fpu

namespace RegisterWindows.Port
open Machine RegisterWindows.Core WindowedCore LawfulCore

theorem portFpuRegSlot_lt {i : Nat} (hi : i ≤ 32) : portFpuRegSlot i < 2 ^ 30 := by
  simp only [portFpuRegSlot]
  omega

/-- A trap does not change FS. -/
theorem statusFs_trapStatus (v : Word) : statusFs (trapStatus v) = statusFs v := by
  unfold statusFs trapStatus
  apply BitVec.eq_of_getLsbD_eq
  intro i hi
  rcases i with _ | _ | i
  · split <;> simp
  · split <;> simp
  · have h3 : (3#32).getLsbD (i + 1 + 1) = false := by
      have hlt : 3 < 2 ^ (i + 1 + 1) := by
        have := Nat.pow_le_pow_right (by decide : 0 < 2) (by omega : 2 ≤ i + 1 + 1)
        omega
      simp [BitVec.getLsbD, Nat.testBit_lt_two_pow hlt]
    simp [h3]

theorem dirty_trapStatus {v : Word} (h : Dirty v) : Dirty (trapStatus v) :=
  (statusFs_trapStatus v).trans h

section
variable {H : Type} [Core H]

theorem run_storeFs (L : Image) (m : FpuMachine H) (fs : List FReg) :
    m.run L (storeFs fs) = { m with mem := fs.foldl (fun mem (i : FReg) =>
      Function.update mem (m.x sp + slot (portFpuRegSlot i)) (m.f i)) m.mem } := by
  induction fs generalizing m with
  | nil => rfl
  | cons i fs ih => exact ih (m.exec L (.storeF i (portFpuRegOffset i) sp))

theorem mem_storeFs_other (L : Image) (m : FpuMachine H) (fs : List FReg) {a : Word}
    (ha : ∀ i ∈ fs, a ≠ m.x sp + slot (portFpuRegSlot i)) :
    (m.run L (storeFs fs)).mem a = m.mem a := by
  rw [run_storeFs]
  exact View.foldl_update_of_ne ha m.mem

theorem mem_storeFs (L : Image) (m : FpuMachine H) {fs : List FReg} (hnd : fs.Nodup)
    {i : FReg} (hi : i ∈ fs) :
    (m.run L (storeFs fs)).mem (m.x sp + slot (portFpuRegSlot i)) = m.f i := by
  have hinj : Function.Injective fun i : FReg => m.x sp + slot (portFpuRegSlot i) := by
    intro i j he
    have hij := (add_slot_inj (portFpuRegSlot_lt i.isLt.le) (portFpuRegSlot_lt j.isLt.le)).mp he
    exact Fin.ext (Nat.add_left_cancel hij)
  rw [run_storeFs]
  exact View.foldl_update_self (hnd.map hinj) hi m.mem

theorem run_loadFs (L : Image) (m : FpuMachine H) (fs : List FReg) :
    m.run L (loadFs fs) = { m with f := (m.run L (loadFs fs)).f } ∧
    ∀ i, (m.run L (loadFs fs)).f i =
      if i ∈ fs then m.mem (m.x sp + slot (portFpuRegSlot i)) else m.f i := by
  induction fs generalizing m with
  | nil => exact ⟨rfl, fun _ => rfl⟩
  | cons j fs ih =>
    obtain ⟨hrest, hf⟩ := ih (m.exec L (.loadF j (portFpuRegOffset j) sp))
    refine ⟨hrest, fun i => (hf i).trans ?_⟩
    by_cases hi : i ∈ fs
    · simp only [hi, List.mem_cons, or_true, if_true]
      rfl
    · by_cases hij : i = j
      · subst hij
        simp only [hi, List.mem_cons, or_false, if_true, if_false, FpuMachine.exec,
          Function.update_self, portFpuRegOffset]
      · simp only [hi, hij, List.mem_cons, or_false, if_false, FpuMachine.exec,
          Function.update_of_ne hij]

end

section
variable {H : Type} [WindowedCore H]

/-- What the kernel sees of the hart. -/
def FpuMachine.view (m : FpuMachine H) : FpuMachine Flat :=
  { toMachine := m.toMachine.view, f := m.f, fcsr := m.fcsr }

variable [LawfulCore H]

theorem FpuMachine.view_x (m : FpuMachine H) (r : Reg) : m.view.x r = m.x r :=
  Machine.view_x m.toMachine r

/-- Code run under the kernel window, next to the same code on a flat file. -/
structure FpuRun (m m' : FpuMachine H) (n : FpuMachine Flat) : Prop where
  kernel : m'.Kernel
  view : m'.view = n
  high : ∀ p : PhysReg, 32 ≤ p.val → cell m'.core p = cell m.core p

theorem fpuRun_exec (L : Image) {m : FpuMachine H} (hk : m.Kernel) (i : FpuInstr) :
    FpuRun m (m.exec L i) (m.view.exec L i) := by
  have hset (r : Reg) (v : Word) (p : PhysReg) (hp : 32 ≤ p.val) :
      cell (m.setX r v).core p = cell m.core p := cell_exec_high L hk (.li r v) hp
  cases i with
  | int i =>
    obtain ⟨hv, hk'⟩ := view_exec L hk i
    refine ⟨hk', ?_, fun p hp => cell_exec_high L hk i hp⟩
    simp only [FpuMachine.view, FpuMachine.exec, hv]
  | srl rd rs n =>
    refine ⟨hk.setX _ _, ?_, hset _ _⟩
    simp only [FpuMachine.view, FpuMachine.exec, view_setX hk, Machine.view_x]
  | storeF fs off base =>
    refine ⟨hk, ?_, fun _ _ => rfl⟩
    simp only [FpuMachine.view, FpuMachine.exec, Machine.view_x]
    rfl
  | loadF fd off base =>
    refine ⟨hk, ?_, fun _ _ => rfl⟩
    simp only [FpuMachine.view, FpuMachine.exec, Machine.view_x]
    rfl
  | csrrFcsr rd =>
    refine ⟨hk.setX _ _, ?_, hset _ _⟩
    simp only [FpuMachine.view, FpuMachine.exec, view_setX hk]
  | csrwFcsr rs =>
    refine ⟨hk, ?_, fun _ _ => rfl⟩
    simp only [FpuMachine.view, FpuMachine.exec, Machine.view_x]

omit [LawfulCore H] in
theorem FpuRun.refl {m : FpuMachine H} (hk : m.Kernel) : FpuRun m m m.view :=
  ⟨hk, rfl, fun _ _ => rfl⟩

theorem FpuRun.andThen (L : Image) {m m' : FpuMachine H} {n : FpuMachine Flat}
    (h : FpuRun m m' n) (is : List FpuInstr) : FpuRun m (m'.run L is) (n.run L is) := by
  induction is generalizing m' n with
  | nil => exact h
  | cons i is ih =>
    have hstep := fpuRun_exec L h.kernel i
    rw [h.view] at hstep
    exact ih ⟨hstep.kernel, hstep.view, fun p hp => (hstep.high p hp).trans (h.high p hp)⟩

theorem FpuRun.x_eq {m m' : FpuMachine H} {n : FpuMachine Flat} (h : FpuRun m m' n)
    (r : Reg) : m'.x r = n.x r := by
  rw [← h.view, FpuMachine.view_x]

end

namespace Fpu

theorem popFpuContext (f : Word) : f + -portFpuContextSize + portFpuContextSize = f := by
  rw [BitVec.add_assoc, BitVec.add_comm (-_), BitVec.add_right_neg, BitVec.add_zero]

theorem fpuContext_add (f : Word) (k : Nat) :
    f + slot k = f + -portFpuContextSize + slot (portFpuRegCount + k) := by
  rw [slot_add, ← BitVec.add_assoc, ← portFpuContextSize, popFpuContext]

theorem frame_ne_fpu {f : Word} {j k : Nat} (hj : 2 ≤ j) (hj' : j < 33)
    (hk : k ≤ portFpuRegSlot 32) :
    f + slot j ≠ f + -portFpuContextSize + slot k := by
  simp only [portFpuRegSlot] at hk
  intro he
  rw [fpuContext_add f j] at he
  have := (add_slot_inj (by simp only [portFpuRegCount]; omega) (by omega)).mp he
  simp only [portFpuRegCount] at this
  omega

/-- Only integer registers differ. -/
structure RegsOnly (m m' : FpuMachine Flat) : Prop where
  mem : m'.mem = m.mem
  mepc : m'.mepc = m.mepc
  mcause : m'.mcause = m.mcause
  mstatus : m'.mstatus = m.mstatus
  staged : m'.core.staged = m.core.staged
  f : m'.f = m.f
  fcsr : m'.fcsr = m.fcsr

theorem run_fsTest (L : Image) (m : FpuMachine Flat) (rs : Reg) :
    RegsOnly m (m.run L (fsTest rs)) ∧
    ((m.run L (fsTest rs)).x t1 ≠ (m.run L (fsTest rs)).x t2 ↔ ¬ Dirty (m.x rs)) ∧
    ∀ r, r ≠ t1 → r ≠ t2 → (m.run L (fsTest rs)).x r = m.x r := by
  refine ⟨⟨rfl, rfl, rfl, rfl, rfl, rfl, rfl⟩, ?_, fun r h1 h2 => ?_⟩
  · simp [fsTest, FpuMachine.run, FpuMachine.exec, Dirty, statusFs]
  · simp at h1 h2
    simp [fsTest, FpuMachine.run, FpuMachine.exec, h1, h2]

theorem run_statusTest (L : Image) (m : FpuMachine Flat) :
    RegsOnly m (m.run L (ints [.csrr t0 .mstatus] ++ fsTest t0)) ∧
    ((m.run L (ints [.csrr t0 .mstatus] ++ fsTest t0)).x t1 ≠
      (m.run L (ints [.csrr t0 .mstatus] ++ fsTest t0)).x t2 ↔ ¬ Dirty m.mstatus) ∧
    (m.run L (ints [.csrr t0 .mstatus] ++ fsTest t0)).x sp = m.x sp := by
  rw [FpuMachine.run_append]
  obtain ⟨hregs, htest, hx⟩ := run_fsTest L (m.run L (ints [.csrr t0 .mstatus])) t0
  have ht0 : (m.run L (ints [.csrr t0 .mstatus])).x t0 = m.mstatus := by
    rw [FpuMachine.run_ints]
    simp
  have hsp : (m.run L (ints [.csrr t0 .mstatus])).x sp = m.x sp := by
    rw [FpuMachine.run_ints]
    simp
  rw [ht0] at htest
  exact ⟨⟨hregs.mem, hregs.mepc, hregs.mcause, hregs.mstatus, hregs.staged, hregs.f, hregs.fcsr⟩,
    htest, (hx sp (by decide) (by decide)).trans hsp⟩

end Fpu

end RegisterWindows.Port
