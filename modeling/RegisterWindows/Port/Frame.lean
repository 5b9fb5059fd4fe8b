import RegisterWindows.Port.Asm

namespace RegisterWindows.Port
open Machine

/-- The five words every frame has, whichever path saved it. -/
@[ext] structure FrameHead where
  pc : Word
  mstatus : Word
  nesting : Word
  windowCfg : Word
  contextType : Word
deriving DecidableEq, Repr

def headAt (mem : Word → Word) (frame : Word) : FrameHead :=
  ⟨mem (frame + slot 0), mem (frame + slot 1), mem (frame + slot portCriticalNestingOffset),
    mem (frame + slot portWindowCfgOffset), mem (frame + slot portContextTypeOffset)⟩

/-- All 33 words of the frame lie in one task's stack. -/
def InStack (L : Image) (handle frame : Word) : Prop :=
  ∀ k < 33, L.region (frame + slot k) = .stack handle

/-- None of the 33 words belongs to a global or a TCB. -/
def FreeFrame (L : Image) (frame : Word) : Prop :=
  ∀ k < 33, (L.region (frame + slot k)).Free

theorem InStack.free {L : Image} {h f : Word} (hin : InStack L h f) : FreeFrame L f := by
  intro k hk
  rw [hin k hk]
  trivial

/-- Words up to four gigabytes apart have different offsets. -/
theorem slot_inj_of_lt {i j : Nat} (hi : i < 2 ^ 30) (hj : j < 2 ^ 30) :
    slot i = slot j ↔ i = j := by
  refine ⟨fun h => ?_, fun h => h ▸ rfl⟩
  have hn := congrArg BitVec.toNat h
  simp only [slot, portWordSize, BitVec.toNat_ofNat] at hn
  omega

@[simp] theorem slot_inj {i j : Nat} (hi : i < 33) (hj : j < 33) : slot i = slot j ↔ i = j :=
  slot_inj_of_lt (by omega) (by omega)

theorem slot_add (i j : Nat) : slot (i + j) = slot i + slot j := by
  simp only [slot, Nat.add_mul, BitVec.ofNat_add]

theorem add_slot (a : Word) (i j : Nat) : a + slot i + slot j = a + slot (i + j) := by
  rw [slot_add, BitVec.add_assoc]

theorem add_slot_inj {a : Word} {i j : Nat} (hi : i < 2 ^ 30) (hj : j < 2 ^ 30) :
    a + slot i = a + slot j ↔ i = j :=
  (BitVec.add_right_inj _).trans (slot_inj_of_lt hi hj)

@[simp] theorem add_slot_neg (f : Word) {i n : Nat} (h : n ≤ i) :
    f + slot i + -slot n = f + slot (i - n) := by
  obtain ⟨k, rfl⟩ := Nat.exists_eq_add_of_le h
  rw [Nat.add_comm, slot_add, Nat.add_sub_cancel, ← BitVec.add_assoc, BitVec.add_assoc (f + _),
    BitVec.add_right_neg, BitVec.add_zero]

theorem InStack.ne_sym {L : Image} {h f : Word} (hin : InStack L h f) {k : Nat} (hk : k < 33)
    (s : Sym) : f + slot k ≠ L.addr s :=
  L.addr_ne (fun s => by rw [hin k hk]; exact Region.noConfusion)

theorem InStack.ne_tcb {L : Image} {h f t t' : Word} (hin : InStack L h f) {k : Nat}
    (hk : k < 33) (ht : L.region t = .tcb t') : f + slot k ≠ t := by
  intro he
  have := hin k hk
  rw [he, ht] at this
  cases this

theorem InStack.ne_slot {L : Image} {h f a : Word} (hin : InStack L h f)
    (ha : L.region a ≠ .stack h) {k : Nat} (hk : k < 33) : a ≠ f + slot k := by
  intro he
  exact ha (he ▸ hin k hk)

theorem headAt_congr {mem mem' : Word → Word} {f : Word}
    (h : ∀ k < 33, mem' (f + slot k) = mem (f + slot k)) : headAt mem' f = headAt mem f := by
  simp only [headAt, portCriticalNestingOffset, portWindowCfgOffset, portContextTypeOffset]
  rw [h 0 (by omega), h 1 (by omega), h 30 (by omega), h 31 (by omega), h 32 (by omega)]

section
variable {H : Type}

@[simp] theorem core_store (m : Machine H) (a v : Word) : (m.store a v).core = m.core := rfl
@[simp] theorem mepc_store (m : Machine H) (a v : Word) : (m.store a v).mepc = m.mepc := rfl
@[simp] theorem mcause_store (m : Machine H) (a v : Word) : (m.store a v).mcause = m.mcause := rfl
@[simp] theorem mstatus_store (m : Machine H) (a v : Word) :
    (m.store a v).mstatus = m.mstatus := rfl
theorem mem_store (m : Machine H) (a v : Word) :
    (m.store a v).mem = Function.update m.mem a v := rfl
@[simp] theorem mem_store_self (m : Machine H) (a v : Word) : (m.store a v).mem a = v :=
  Function.update_self ..

@[simp] theorem mem_store_of_ne (m : Machine H) {a b : Word} (v : Word) (h : b ≠ a) :
    (m.store a v).mem b = m.mem b := Function.update_of_ne h ..

end

section
variable {H : Type} [Core H]

attribute [simp] Machine.exec Machine.readCsr

@[simp] theorem x_store (m : Machine H) (a v : Word) (r : Reg) : (m.store a v).x r = m.x r := rfl
@[simp] theorem mem_setX (m : Machine H) (r : Reg) (v : Word) : (m.setX r v).mem = m.mem := rfl
@[simp] theorem mepc_setX (m : Machine H) (r : Reg) (v : Word) : (m.setX r v).mepc = m.mepc := rfl
@[simp] theorem mcause_setX (m : Machine H) (r : Reg) (v : Word) :
    (m.setX r v).mcause = m.mcause := rfl
@[simp] theorem mstatus_setX (m : Machine H) (r : Reg) (v : Word) :
    (m.setX r v).mstatus = m.mstatus := rfl

@[simp] theorem mem_writeCsr (m : Machine H) (c : Csr) (v : Word) :
    (m.writeCsr c v).mem = m.mem := by cases c <;> rfl
@[simp] theorem mepc_writeCsr (m : Machine H) (c : Csr) (v : Word) :
    (m.writeCsr c v).mepc = if c = .mepc then v else m.mepc := by cases c <;> rfl
@[simp] theorem mstatus_writeCsr (m : Machine H) (c : Csr) (v : Word) :
    (m.writeCsr c v).mstatus = if c = .mstatus then v else m.mstatus := by cases c <;> rfl

theorem run_storeGprs (L : Image) (m : Machine H) (gprs : List (Reg × Nat)) :
    (m.run L (storeGprs gprs)).core = m.core ∧ (m.run L (storeGprs gprs)).mepc = m.mepc ∧
    (m.run L (storeGprs gprs)).mcause = m.mcause ∧
    (m.run L (storeGprs gprs)).mstatus = m.mstatus := by
  induction gprs generalizing m with
  | nil => exact ⟨rfl, rfl, rfl, rfl⟩
  | cons g gprs ih => exact ih (m.exec L (.storeX g.1 (slot g.2) sp))

theorem mem_storeGprs_other (L : Image) (m : Machine H) (gprs : List (Reg × Nat)) {a : Word}
    (ha : ∀ g ∈ gprs, a ≠ m.x sp + slot g.2) : (m.run L (storeGprs gprs)).mem a = m.mem a := by
  induction gprs generalizing m with
  | nil => rfl
  | cons g gprs ih =>
    have hrest := ih (m.exec L (.storeX g.1 (slot g.2) sp))
      (fun g' hg' => ha g' (List.mem_cons_of_mem _ hg'))
    exact hrest.trans (mem_store_of_ne m _ (ha g List.mem_cons_self))

theorem mem_storeGprs (L : Image) (m : Machine H) {gprs : List (Reg × Nat)}
    (hlt : ∀ g ∈ gprs, g.2 < 33) (hnd : (gprs.map Prod.snd).Nodup) {g : Reg × Nat}
    (hg : g ∈ gprs) : (m.run L (storeGprs gprs)).mem (m.x sp + slot g.2) = m.x g.1 := by
  induction gprs generalizing m with
  | nil => cases hg
  | cons g' gprs ih =>
    simp only [List.map_cons, List.nodup_cons] at hnd
    have hlt' : ∀ q ∈ gprs, q.2 < 33 := fun q hq => hlt q (List.mem_cons_of_mem _ hq)
    rcases List.mem_cons.mp hg with rfl | hg
    · have hrest := mem_storeGprs_other L (m.exec L (.storeX g.1 (slot g.2) sp)) gprs
        (a := m.x sp + slot g.2) (by
          intro q hq he
          have hgs := hlt g List.mem_cons_self
          have hqs := hlt' q hq
          have hk := (add_slot_inj (by omega) (by omega)).mp he
          exact hnd.1 (List.mem_map.mpr ⟨q, hq, hk.symm⟩))
      exact hrest.trans (mem_store_self ..)
    · exact ih (m.exec L (.storeX g'.1 (slot g'.2) sp)) hlt' hnd.2 hg

end

@[simp] theorem flat_x_zero (m : Machine Flat) : m.x 0 = 0 := rfl

@[simp] theorem flat_x_setX (m : Machine Flat) (r r' : Reg) (v : Word) :
    (m.setX r v).x r' = if r' = r ∧ r ≠ 0 then v else m.x r' := by
  by_cases hz : r' = 0
  · subst hz
    rw [flat_x_zero, flat_x_zero, if_neg (fun h => h.2 h.1.symm)]
  · by_cases hr : r' = r
    · subst hr
      simp [Machine.x, Machine.setX, Core.reg, Core.setReg, hz]
    · simp [Machine.x, Machine.setX, Core.reg, Core.setReg, hz, hr]

@[simp] theorem flat_staged (f : Flat) : Core.staged f = f.staged := rfl

@[simp] theorem flat_staged_setX (m : Machine Flat) (r : Reg) (v : Word) :
    (m.setX r v).core.staged = m.core.staged := rfl

@[simp] theorem flat_x_writeCsr (m : Machine Flat) (c : Csr) (v : Word) (r : Reg) :
    (m.writeCsr c v).x r = m.x r := by cases c <;> rfl
@[simp] theorem flat_staged_writeCsr (m : Machine Flat) (c : Csr) (v : Word) :
    (m.writeCsr c v).core.staged = if c = .windowStaged then v else m.core.staged := by
  cases c <;> rfl

theorem run_loadGprs (L : Image) (m : Machine Flat) (gprs : List (Reg × Nat)) :
    (m.run L (loadGprs gprs)).mem = m.mem ∧ (m.run L (loadGprs gprs)).mepc = m.mepc ∧
    (m.run L (loadGprs gprs)).mstatus = m.mstatus ∧
    (m.run L (loadGprs gprs)).core.staged = m.core.staged := by
  induction gprs generalizing m with
  | nil => exact ⟨rfl, rfl, rfl, rfl⟩
  | cons g gprs ih => exact ih (m.exec L (.loadX g.1 (slot g.2) sp))

theorem x_loadGprs_other (L : Image) (m : Machine Flat) (gprs : List (Reg × Nat)) {r : Reg}
    (hr : r ∉ gprs.map Prod.fst) : (m.run L (loadGprs gprs)).x r = m.x r := by
  induction gprs generalizing m with
  | nil => rfl
  | cons g gprs ih =>
    simp only [List.map_cons, List.mem_cons, not_or] at hr
    have hrest := ih (m.exec L (.loadX g.1 (slot g.2) sp)) hr.2
    refine hrest.trans ?_
    rw [Machine.exec, flat_x_setX, if_neg (fun h => hr.1 h.1)]

theorem x_loadGprs (L : Image) (m : Machine Flat) {gprs : List (Reg × Nat)}
    (hz : 0 ∉ gprs.map Prod.fst) (hsp : sp ∉ gprs.map Prod.fst)
    (hnd : (gprs.map Prod.fst).Nodup) {g : Reg × Nat} (hg : g ∈ gprs) :
    (m.run L (loadGprs gprs)).x g.1 = m.mem (m.x sp + slot g.2) := by
  induction gprs generalizing m with
  | nil => cases hg
  | cons g' gprs ih =>
    simp only [List.map_cons, List.mem_cons, not_or, List.nodup_cons] at hz hsp hnd
    rcases List.mem_cons.mp hg with rfl | hg
    · have hrest := x_loadGprs_other L (m.exec L (.loadX g.1 (slot g.2) sp)) gprs hnd.1
      refine hrest.trans ?_
      rw [Machine.exec, flat_x_setX, if_pos ⟨rfl, Ne.symm hz.1⟩]
    · have hrest := ih (m.exec L (.loadX g'.1 (slot g'.2) sp)) hz.2 hsp.2 hnd.2 hg
      refine hrest.trans ?_
      rw [Machine.exec, flat_x_setX, if_neg (fun h => hsp.1 h.1), mem_setX]

end RegisterWindows.Port
