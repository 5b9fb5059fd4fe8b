import RegisterWindows.Port.FpuFrame

namespace RegisterWindows.Port.Fpu
open Machine RegisterWindows.Core WindowedCore LawfulCore

section
variable {H : Type} [WindowedCore H] [LawfulCore H] {m m' : FpuMachine H}
  {n : FpuMachine Flat}

theorem fpuRun_saveRest (L : Image) (h : FpuRun m m' n) :
    FpuRun m (saveRest L m') (saveRest L n) := by
  have hstatus := h.andThen L (ints statusSave ++ fsTest t0)
  simp only [saveRest, hstatus.x_eq]
  refine FpuRun.andThen L ?_ _
  split
  · exact hstatus
  · exact hstatus.andThen L _

theorem fpuRun_trapHandler (L : Image) (hk : m.Kernel) :
    FpuRun m (freertosRiscvTrapHandler L m) (freertosRiscvTrapHandler L m.view) := by
  have hsave : FpuRun m (portcontextSaveContextInternal L m)
      (portcontextSaveContextInternal L m.view) := by
    have htest := (FpuRun.refl hk).andThen L (ints windowBaseTest)
    have hhead := htest.andThen L (ints fullSaveHead)
    have hfs := hhead.andThen L (ints [.csrr t0 .mstatus] ++ fsTest t0)
    simp only [portcontextSaveContextInternal, htest.x_eq]
    split
    · exact fpuRun_saveRest L htest
    · refine fpuRun_saveRest L ?_
      simp only [fullSave, hfs.x_eq]
      split
      · exact hfs
      · exact hfs.andThen L _
  unfold freertosRiscvTrapHandler
  generalize portcontextSaveContextInternal L m = q, portcontextSaveContextInternal L m.view = n
    at hsave
  have hcause := hsave.andThen L (ints [.csrr a0 .mcause, .csrr a1 .mepc])
  simp only [hcause.x_eq]
  split
  · exact hcause.andThen L (ints [.addi a1 a1 4, .storeX a1 0 sp, .loadSym sp .xISRStackTop])
  · exact hcause.andThen L (ints [.storeX a1 0 sp, .loadSym sp .xISRStackTop])

end

/-- The full save before the FPU block. -/
structure SavedGprs (L : Image) (f : Word) (m m' : Machine Flat) : Prop where
  sp : m'.x sp = f
  mepc : m'.mepc = m.mepc
  mcause : m'.mcause = m.mcause
  mstatus : m'.mstatus = m.mstatus
  gprs : ∀ g ∈ lowGprs ++ highGprs, m'.mem (f + slot g.2) = m.x g.1
  nesting : m'.mem (f + slot portCriticalNestingOffset) = m.mem (L.addr .xCriticalNesting)
  mem_other : ∀ a, (∀ k, 2 ≤ k → k ≤ 30 → a ≠ f + slot k) → m'.mem a = m.mem a

theorem run_fullSaveHead (L : Image) (m : Machine Flat) {f : Word} (hf : f = pushed (m.x sp))
    (hin : FreeFrame L f) : SavedGprs L f m (m.run L fullSaveHead) := by
  have hslots : ∀ g ∈ highGprs ++ lowGprs, 2 ≤ g.2 ∧ g.2 < 30 := by decide
  have hregs : ∀ g ∈ highGprs ++ lowGprs, g.1 ≠ 2 := by decide
  have hnd : ((highGprs ++ lowGprs).map Prod.snd).Nodup := by decide
  rw [show fullSaveHead = .addi sp sp (-portContextSize) :: (storeGprs (highGprs ++ lowGprs) ++
    [.loadSym t0 .xCriticalNesting, .storeX t0 (slot portCriticalNestingOffset) sp]) from rfl,
    run_cons, exec_push, ← hf, run_append]
  have hsp : (m.setX sp f).x sp = f := by simp
  obtain ⟨hcore, hmepc, hmcause, hmstatus⟩ :=
    run_storeGprs L (m.setX sp f) (highGprs ++ lowGprs)
  have hother : ∀ a, (∀ g ∈ highGprs ++ lowGprs, a ≠ f + slot g.2) →
      ((m.setX sp f).run L (storeGprs (highGprs ++ lowGprs))).mem a = m.mem a := fun a ha =>
    mem_storeGprs_other L (m.setX sp f) _ (hsp ▸ ha)
  have hget : ∀ g ∈ highGprs ++ lowGprs,
      ((m.setX sp f).run L (storeGprs (highGprs ++ lowGprs))).mem (f + slot g.2) =
        (m.setX sp f).x g.1 := by
    intro g hg
    have h := mem_storeGprs L (m.setX sp f) (fun g hg => (hslots g hg).2.trans (by omega)) hnd hg
    rwa [hsp] at h
  generalize (m.setX sp f).run L (storeGprs (highGprs ++ lowGprs)) = n at *
  have hnsp : n.x 2 = f := by
    rw [Machine.x, hcore]
    exact hsp
  have hsym : n.mem (L.addr .xCriticalNesting) = m.mem (L.addr .xCriticalNesting) :=
    hother _ fun g hg => (L.ne_addr_of_free (hin _ ((hslots g hg).2.trans (by omega))) _).symm
  constructor
  case gprs =>
    intro g hg
    have hg' : g ∈ highGprs ++ lowGprs := List.mem_append.mpr (List.mem_append.mp hg).symm
    obtain ⟨hlo, hhi⟩ := hslots g hg'
    have hne : g.2 ≠ 30 := by omega
    have hlt : g.2 < 33 := by omega
    simp [hnsp, hlt, hne, hget g hg', hregs g hg']
  case mem_other =>
    intro a ha
    have hstores := hother a fun g hg => ha g.2 (hslots g hg).1 (hslots g hg).2.le
    simp [hnsp, ha 30 (by omega) (by omega), hstores]
  all_goals simp [hnsp, hmepc, hmcause, hmstatus, hsym]

/-- What the FPU block pushes below `sp`. -/
structure SavedFs (g : Word) (m m' : FpuMachine Flat) : Prop where
  sp : m'.x sp = g
  mepc : m'.mepc = m.mepc
  mcause : m'.mcause = m.mcause
  mstatus : m'.mstatus = m.mstatus
  f : ∀ i : FReg, m'.mem (g + slot (portFpuRegSlot i)) = m.f i
  fcsr : m'.mem (g + slot (portFpuRegSlot 32)) = m.fcsr.setWidth 32
  mem_other : ∀ a, (∀ k, 2 ≤ k → k ≤ portFpuRegSlot 32 → a ≠ g + slot k) →
    m'.mem a = m.mem a

theorem run_saveFpuContext (L : Image) (m : FpuMachine Flat) {g : Word}
    (hg : g = m.x sp + -portFpuContextSize) :
    SavedFs g m (m.run L portcontexSaveFpuContext) := by
  obtain ⟨q, hq⟩ : ∃ q : FpuMachine Flat, q = { m with toMachine := m.setX sp g } := ⟨_, rfl⟩
  have hpush : m.run L (ints [.addi sp sp (-portFpuContextSize)]) = q := by
    rw [hq, hg]
    rfl
  have hqsp : q.x sp = g := by simp [hq]
  have hq' : q.mepc = m.mepc ∧ q.mcause = m.mcause ∧ q.mstatus = m.mstatus ∧ q.mem = m.mem ∧
      q.f = m.f ∧ q.fcsr = m.fcsr := by
    rw [hq]
    exact ⟨rfl, rfl, rfl, rfl, rfl, rfl⟩
  obtain ⟨hmepc, hmcause, hmstatus, hmem, hf, hfcsr⟩ := hq'
  rw [portcontexSaveFpuContext, FpuMachine.run_append, FpuMachine.run_append, hpush]
  have hstores := run_storeFs L q (List.finRange 32)
  have hget : ∀ i : FReg, (q.run L (storeFs (List.finRange 32))).mem
      (g + slot (portFpuRegSlot i)) = m.f i := by
    intro i
    have := mem_storeFs L q (List.nodup_finRange 32) (List.mem_finRange i)
    rwa [hqsp, hf] at this
  have hother : ∀ a, (∀ i : FReg, a ≠ g + slot (portFpuRegSlot i)) →
      (q.run L (storeFs (List.finRange 32))).mem a = m.mem a := by
    intro a ha
    rw [mem_storeFs_other L q _ (fun i _ => hqsp ▸ ha i), hmem]
  have hkept : (q.run L (storeFs (List.finRange 32))).core = q.core ∧
      (q.run L (storeFs (List.finRange 32))).mepc = m.mepc ∧
      (q.run L (storeFs (List.finRange 32))).mcause = m.mcause ∧
      (q.run L (storeFs (List.finRange 32))).mstatus = m.mstatus ∧
      (q.run L (storeFs (List.finRange 32))).fcsr = m.fcsr := by
    rw [hstores]
    exact ⟨rfl, hmepc, hmcause, hmstatus, hfcsr⟩
  generalize q.run L (storeFs (List.finRange 32)) = p at hget hother hkept ⊢
  obtain ⟨hcore, hmepc, hmcause, hmstatus, hfcsr⟩ := hkept
  have hsp : p.x 2 = g := by
    rw [Machine.x, hcore]
    exact hqsp
  constructor
  case f =>
    intro i
    have hne : g + slot (portFpuRegSlot i) ≠ g + slot (portFpuRegSlot 32) := by
      intro he
      have hi := (add_slot_inj (portFpuRegSlot_lt i.isLt.le) (portFpuRegSlot_lt le_rfl)).mp he
      exact absurd (Nat.add_left_cancel hi) i.isLt.ne
    simp [FpuMachine.run, FpuMachine.exec, portFpuRegOffset, hsp, mem_store,
      Function.update_of_ne hne, hget]
  case mem_other =>
    intro a ha
    have hne := ha (portFpuRegSlot 32) (by decide) le_rfl
    have hstored := hother a fun i => ha _ (Nat.le_add_right 2 _) (Nat.add_le_add_left i.isLt.le 2)
    simp [FpuMachine.run, FpuMachine.exec, portFpuRegOffset, hsp, hne, hstored]
  all_goals simp [FpuMachine.run, FpuMachine.exec, portFpuRegOffset, hsp, hmepc, hmcause,
    hmstatus, hfcsr]

/-- The context of a task without a window: the frame `f`, and below it, if the FPU is dirty,
the FPU context. -/
structure SavedFull (L : Image) (f : Word) (m m' : FpuMachine Flat) : Prop where
  sp : m'.x sp = if Dirty m.mstatus then f + -portFpuContextSize else f
  mepc : m'.mepc = m.mepc
  mcause : m'.mcause = m.mcause
  mstatus : m'.mstatus = m.mstatus
  gprs : ∀ g ∈ lowGprs ++ highGprs, m'.mem (f + slot g.2) = m.x g.1
  nesting : m'.mem (f + slot portCriticalNestingOffset) = m.mem (L.addr .xCriticalNesting)
  fs : Dirty m.mstatus → ∀ i : FReg,
    m'.mem (f + -portFpuContextSize + slot (portFpuRegSlot i)) = m.f i
  fcsr : Dirty m.mstatus →
    m'.mem (f + -portFpuContextSize + slot (portFpuRegSlot 32)) = m.fcsr.setWidth 32
  mem_other : ∀ a, (∀ k, 2 ≤ k → k ≤ 30 → a ≠ f + slot k) →
    (Dirty m.mstatus → ∀ k, 2 ≤ k → k ≤ portFpuRegSlot 32 →
      a ≠ f + -portFpuContextSize + slot k) → m'.mem a = m.mem a

theorem fullSave_spec (L : Image) (m : FpuMachine Flat) {f : Word}
    (hf : f = pushed (m.x sp)) (hin : FreeFrame L f) : SavedFull L f m (fullSave L m) := by
  have hslots : ∀ g ∈ lowGprs ++ highGprs, 2 ≤ g.2 ∧ g.2 < 30 := by decide
  obtain ⟨n, hn⟩ : ∃ n, n = m.run L (ints fullSaveHead) := ⟨_, rfl⟩
  have hnrun := hn.trans (FpuMachine.run_ints L m fullSaveHead)
  have hsaved : SavedGprs L f m.toMachine n.toMachine := by
    rw [hnrun]
    exact run_fullSaveHead L m.toMachine hf hin
  have hnf : n.f = m.f ∧ n.fcsr = m.fcsr := by
    rw [hnrun]
    exact ⟨rfl, rfl⟩
  obtain ⟨hregs, htest, hpsp⟩ := run_statusTest L n
  simp only [fullSave, ← hn]
  generalize n.run L (ints [.csrr t0 .mstatus] ++ fsTest t0) = p at hregs htest hpsp ⊢
  rw [hsaved.mstatus] at htest
  rw [hsaved.sp] at hpsp
  have hpmem : p.mem = n.mem := hregs.mem
  have hmepc : p.mepc = m.mepc := hregs.mepc.trans hsaved.mepc
  have hmcause : p.mcause = m.mcause := hregs.mcause.trans hsaved.mcause
  have hmstatus : p.mstatus = m.mstatus := hregs.mstatus.trans hsaved.mstatus
  have hpf : p.f = m.f := hregs.f.trans hnf.1
  have hpfcsr : p.fcsr = m.fcsr := hregs.fcsr.trans hnf.2
  by_cases hd : Dirty m.mstatus
  · rw [if_neg (fun hne => htest.mp hne hd)]
    have hpush := run_saveFpuContext L p (g := f + -portFpuContextSize) (by rw [hpsp])
    constructor
    case sp => rw [if_pos hd, hpush.sp]
    case mepc => exact hpush.mepc.trans hmepc
    case mcause => exact hpush.mcause.trans hmcause
    case mstatus => exact hpush.mstatus.trans hmstatus
    case gprs =>
      intro g hg
      rw [hpush.mem_other _ fun k _ hk => frame_ne_fpu (hslots g hg).1
        ((hslots g hg).2.trans (by omega)) hk, hpmem, hsaved.gprs g hg]
    case nesting =>
      rw [hpush.mem_other _ fun k _ hk => frame_ne_fpu (by decide) (by decide) hk, hpmem,
        hsaved.nesting]
    case fs => exact fun _ i => by rw [hpush.f i, hpf]
    case fcsr => exact fun _ => by rw [hpush.fcsr, hpfcsr]
    case mem_other =>
      intro a ha hfpu
      rw [hpush.mem_other a (hfpu hd), hpmem, hsaved.mem_other a ha]
  · rw [if_pos (htest.mpr hd)]
    constructor
    case sp => rw [if_neg hd, hpsp]
    case gprs => exact fun g hg => by rw [hpmem, hsaved.gprs g hg]
    case nesting => rw [hpmem, hsaved.nesting]
    case fs => exact fun h => absurd h hd
    case fcsr => exact fun h => absurd h hd
    case mem_other => exact fun a ha _ => by rw [hpmem, hsaved.mem_other a ha]
    all_goals assumption

/-- From label 1 on, with `sp` at `f`: whatever `f` is, words 31 and 32 above it become 0. -/
structure SavedRest (L : Image) (f : Word) (m m' : FpuMachine Flat) : Prop where
  sp : m'.x sp = f
  mepc : m'.mepc = m.mepc
  mcause : m'.mcause = m.mcause
  top : m'.mem (m.mem (L.addr .pxCurrentTCB)) = f
  status : m'.mem (f + slot 1) = m.mstatus
  windowCfg : m'.mem (f + slot portWindowCfgOffset) = 0
  contextType : m'.mem (f + slot portContextTypeOffset) = 0
  mem_other : ∀ a, a ≠ m.mem (L.addr .pxCurrentTCB) →
    (∀ k ∈ [1, 31, 32], a ≠ f + slot k) → m'.mem a = m.mem a

theorem saveRest_spec (L : Image) (m : FpuMachine Flat) {f t : Word} (hsp : m.x sp = f)
    (htcb : L.region (m.mem (L.addr .pxCurrentTCB)) = .tcb t) (hr : FreeFrame L f) :
    SavedRest L f m (saveRest L m) := by
  have hs := fun (k : Nat) (hk : k < 33) => (L.ne_addr_of_free (hr k hk) .pxCurrentTCB).symm
  have ht := fun (k : Nat) (hk : k < 33) => L.ne_tcb_of_free (hr k hk) htcb
  have hsp' : m.x 2 = f := hsp
  obtain ⟨q, hq⟩ : ∃ q, q = m.run L (ints statusSave) := ⟨_, rfl⟩
  have hqint : q.toMachine = (m.setX t0 m.mstatus).store (f + slot 1) m.mstatus := by
    rw [hq, FpuMachine.run_ints]
    simp [statusSave, hsp']
  have hqt0 : q.x t0 = m.mstatus := by simp [hqint]
  have hqsp : q.x sp = f := by simp [hqint, hsp']
  obtain ⟨hregs, -, hx⟩ := run_fsTest L q t0
  have hfs : m.run L (ints statusSave ++ fsTest t0) = q.run L (fsTest t0) := by
    rw [FpuMachine.run_append, hq]
  simp only [saveRest, hfs]
  generalize q.run L (fsTest t0) = p at hregs hx ⊢
  have hpsp : p.x 2 = f := (hx sp (by decide) (by decide)).trans hqsp
  have hpmem : p.mem = Function.update m.mem (f + slot 1) m.mstatus := by
    rw [hregs.mem, hqint]
    rfl
  have hpc : p.mepc = m.mepc ∧ p.mcause = m.mcause := by
    rw [hregs.mepc, hregs.mcause, hqint]
    exact ⟨rfl, rfl⟩
  -- marking the FPU as clean touches registers and `mstatus` only
  obtain ⟨n, hn, hnmem, hnsp, hnmepc, hnmcause⟩ : ∃ n : FpuMachine Flat,
      (if p.x t1 ≠ p.x t2 then p else p.run L (ints markClean)) = n ∧ n.mem = p.mem ∧
        n.x 2 = f ∧ n.mepc = m.mepc ∧ n.mcause = m.mcause := by
    split
    · exact ⟨p, rfl, rfl, hpsp, hpc⟩
    · refine ⟨_, rfl, ?_⟩
      rw [FpuMachine.run_ints]
      refine ⟨by simp [markClean], by simp [markClean, hpsp], by simp [markClean, hpc], ?_⟩
      exact hpc.2
  rw [hn, FpuMachine.run_ints]
  rw [hpmem] at hnmem
  constructor
  case mem_other =>
    intro a ha hk
    simp at hk
    simp [saveTail, hnsp, hnmem, hs, hk, ha]
  all_goals simp [saveTail, hnsp, hnmem, hs, ht, hnmepc, hnmcause]

section
variable {H : Type} [Core H]

/-- What the trap handler leaves in the TCB. A task with a window gets no frame: its context is
taken to be where `sp` is. -/
def savedFrame (L : Image) (m : FpuMachine H) : Word :=
  if m.mem (L.addr .portCurrentTaskWindowBase) ≠ 0 then m.x sp
  else if Dirty m.mstatus then pushed (m.x sp) + -portFpuContextSize
  else pushed (m.x sp)

/-- The words that the restore code takes for the context. -/
def contextWords (mstatus : Word) : Nat :=
  if Dirty mstatus then portFpuRegCount + 33 else 33

theorem contextWords_ge (mstatus : Word) : 33 ≤ contextWords mstatus := by
  unfold contextWords
  split <;> omega

/-- The context of a task without a window whose FPU is dirty, below the stack pointer `top`. -/
structure SavedDirty (L : Image) (top : Word) (m m' : FpuMachine H) : Prop where
  fs : ∀ i : FReg, portFpuRegSlot i ≠ 31 → portFpuRegSlot i ≠ 32 →
    m'.mem (pushed top + -portFpuContextSize + slot (portFpuRegSlot i)) = m.f i
  fcsr : m'.mem (pushed top + -portFpuContextSize + slot (portFpuRegSlot 32)) =
    m.fcsr.setWidth 32
  gprs : ∀ g ∈ lowGprs ++ highGprs,
    m'.mem (pushed top + slot g.2) = if g.1 = t0 then 0 else m.x g.1
  /-- The word at which the restore code looks for `window_cfg` is not written. -/
  stale : m'.mem (pushed top + slot portWindowCfgOffset) =
    m.mem (pushed top + slot portWindowCfgOffset)

/-- What the trap handler has written when it jumps to the C handler. -/
structure Saved (L : Image) (m m' : FpuMachine H) : Prop where
  top : m'.mem (m.mem (L.addr .pxCurrentTCB)) = savedFrame L m
  pc : m'.mem (savedFrame L m + slot 0) = resumePc m.mcause m.mepc
  status : m'.mem (savedFrame L m + slot 1) = m.mstatus
  windowCfg : m'.mem (savedFrame L m + slot portWindowCfgOffset) = 0
  contextType : m'.mem (savedFrame L m + slot portContextTypeOffset) = 0
  dirty : m.mem (L.addr .portCurrentTaskWindowBase) = 0 → Dirty m.mstatus →
    SavedDirty L (m.x sp) m m'
  windowed : m.mem (L.addr .portCurrentTaskWindowBase) ≠ 0 → ∀ a,
    a ≠ m.mem (L.addr .pxCurrentTCB) → (∀ k ∈ [0, 1, 31, 32], a ≠ savedFrame L m + slot k) →
    m'.mem a = m.mem a
  mem_other : ∀ a, a ≠ m.mem (L.addr .pxCurrentTCB) →
    (∀ k < contextWords m.mstatus, a ≠ savedFrame L m + slot k) → m'.mem a = m.mem a

/-- What is taken for the context misses the globals and the TCBs. It may lie in the stack of
another task. -/
structure FpuRoom (L : Image) (h : Word) (m : FpuMachine H) : Prop where
  tcb : L.region (m.mem (L.addr .pxCurrentTCB)) = .tcb h
  free : ∀ k < contextWords m.mstatus, (L.region (savedFrame L m + slot k)).Free

theorem FpuRoom.inFrame {L : Image} {h : Word} {m : FpuMachine H} (hr : FpuRoom L h m) :
    FreeFrame L (savedFrame L m) :=
  fun k hk => hr.free k (hk.trans_le (contextWords_ge m.mstatus))

theorem FpuRoom.frame {L : Image} {h : Word} {m : FpuMachine H} (hr : FpuRoom L h m)
    (hflag : m.mem (L.addr .portCurrentTaskWindowBase) = 0) : FreeFrame L (pushed (m.x sp)) := by
  intro k hk
  by_cases hd : Dirty m.mstatus
  · have hword := hr.free (portFpuRegCount + k) (by rw [contextWords, if_pos hd]; omega)
    rwa [savedFrame, if_neg (not_not_intro hflag), if_pos hd, ← fpuContext_add] at hword
  · have hword := hr.inFrame k hk
    rwa [savedFrame, if_neg (not_not_intro hflag), if_neg hd] at hword

end

/-- Label 1 is reached with `sp` at what is then taken for the context. -/
structure Reached (L : Image) (m n : FpuMachine Flat) : Prop where
  save : portcontextSaveContextInternal L m = saveRest L n
  frame : n.x sp = savedFrame L m
  mepc : n.mepc = m.mepc
  mcause : n.mcause = m.mcause
  mstatus : n.mstatus = m.mstatus
  windowed : m.mem (L.addr .portCurrentTaskWindowBase) ≠ 0 → n.mem = m.mem
  legacy : m.mem (L.addr .portCurrentTaskWindowBase) = 0 → ∃ q, RegsOnly m q ∧
    (∀ r, q.x r = if r = t0 then 0 else m.x r) ∧ SavedFull L (pushed (m.x sp)) q n

theorem exists_reached (L : Image) (m : FpuMachine Flat) {h : Word}
    (hr : FpuRoom L h m) : ∃ n, Reached L m n := by
  obtain ⟨q, hq⟩ : ∃ q, q = m.run L (ints windowBaseTest) := ⟨_, rfl⟩
  have hqint : q.toMachine = (m.setX t0 (L.addr .portCurrentTaskWindowBase)).setX t0
      (m.mem (L.addr .portCurrentTaskWindowBase)) := by
    rw [hq, FpuMachine.run_ints]
    exact run_windowBaseTest L m.toMachine
  have hregs : RegsOnly m q := by
    rw [hq, FpuMachine.run_ints]
    exact ⟨rfl, rfl, rfl, rfl, rfl, rfl, rfl⟩
  have hx : ∀ r, q.x r = if r = t0 then m.mem (L.addr .portCurrentTaskWindowBase) else m.x r := by
    intro r
    by_cases hr : r = 5 <;> simp [hqint, hr]
  have ht0 : q.x t0 = m.mem (L.addr .portCurrentTaskWindowBase) := (hx t0).trans (if_pos rfl)
  have hsp : q.x sp = m.x sp := hx sp
  have hsave : portcontextSaveContextInternal L m =
      if m.mem (L.addr .portCurrentTaskWindowBase) ≠ 0 then saveRest L q
      else saveRest L (fullSave L q) := by
    simp only [portcontextSaveContextInternal, ← hq, ht0]
  by_cases hflag : m.mem (L.addr .portCurrentTaskWindowBase) = 0
  · have hfull := fullSave_spec L q (f := pushed (m.x sp)) (by rw [hsp]) (hr.frame hflag)
    rw [if_neg (not_not_intro hflag)] at hsave
    refine ⟨_, hsave, ?_, hfull.mepc.trans hregs.mepc, hfull.mcause.trans hregs.mcause,
      hfull.mstatus.trans hregs.mstatus, fun h => absurd hflag h, fun _ => ⟨q, hregs, ?_, hfull⟩⟩
    · rw [hfull.sp, hregs.mstatus, savedFrame, if_neg (not_not_intro hflag)]
    · rw [hflag] at hx
      exact hx
  · rw [if_pos hflag] at hsave
    refine ⟨q, hsave, ?_, hregs.mepc, hregs.mcause, hregs.mstatus, fun _ => hregs.mem,
      fun h => absurd h hflag⟩
    rw [hsp, savedFrame, if_pos hflag]

theorem mem_handler (L : Image) (m n : FpuMachine Flat)
    (hn : n = portcontextSaveContextInternal L m) :
    (freertosRiscvTrapHandler L m).mem = (n.store (n.x sp) (resumePc n.mcause n.mepc)).mem := by
  simp only [freertosRiscvTrapHandler, ← hn, FpuMachine.run_ints, resumePc]
  by_cases hc : n.mcause.msb = false <;> simp [hc, mem_store]

theorem contextWords_dirty {mstatus : Word} (hd : Dirty mstatus) :
    contextWords mstatus = portFpuRegCount + 33 := if_pos hd

theorem contextWords_lt (mstatus : Word) : contextWords mstatus < 100 := by
  unfold contextWords
  split
  · decide
  · decide

theorem SavedFull.outside {L : Image} {f a : Word} {m n : FpuMachine Flat}
    (hs : SavedFull L f m n)
    (ha : ∀ k < contextWords m.mstatus,
      a ≠ (if Dirty m.mstatus then f + -portFpuContextSize else f) + slot k) :
    n.mem a = m.mem a := by
  have hlt : portFpuRegSlot 32 < portFpuRegCount + 33 := by decide
  by_cases hd : Dirty m.mstatus
  · simp only [contextWords_dirty hd, if_pos hd] at ha
    refine hs.mem_other a (fun k _ hk => ?_) fun _ k _ hk => ha k (by omega)
    rw [fpuContext_add f k]
    exact ha _ (by omega)
  · simp only [contextWords, if_neg hd] at ha
    exact hs.mem_other a (fun k _ hk => ha k (by omega)) fun h => absurd h hd

section
variable {L : Image} {m n : FpuMachine Flat} {h : Word}

theorem FpuRoom.ne_tcb (hr : FpuRoom L h m) {k : Nat} (hk : k < contextWords m.mstatus) :
    savedFrame L m + slot k ≠ m.mem (L.addr .pxCurrentTCB) := by
  exact L.ne_tcb_of_free (hr.free k hk) hr.tcb

theorem savedFrame_ne {k : Nat} (hpos : 0 < k) (hk : k < 2 ^ 30) :
    savedFrame L m + slot k ≠ savedFrame L m + slot 0 := by
  intro he
  have := (add_slot_inj hk (by omega)).mp he
  omega

namespace Reached

theorem outside (hn : Reached L m n) {a : Word}
    (ha : ∀ k < contextWords m.mstatus, a ≠ savedFrame L m + slot k) : n.mem a = m.mem a := by
  by_cases hflag : m.mem (L.addr .portCurrentTaskWindowBase) = 0
  · obtain ⟨q, hq, -, hfull⟩ := hn.legacy hflag
    rw [← hq.mem]
    refine hfull.outside fun k hk => ?_
    rw [hq.mstatus] at hk ⊢
    have hne := ha k hk
    rwa [savedFrame, if_neg (not_not_intro hflag)] at hne
  · rw [hn.windowed hflag]

theorem tcb (hr : FpuRoom L h m) (hn : Reached L m n) :
    n.mem (L.addr .pxCurrentTCB) = m.mem (L.addr .pxCurrentTCB) := by
  refine hn.outside fun k hk he => ?_
  exact L.ne_addr_of_free (hr.free k hk) _ he.symm

theorem rest (hr : FpuRoom L h m) (hn : Reached L m n) :
    SavedRest L (savedFrame L m) n (saveRest L n) :=
  saveRest_spec L n hn.frame (by rw [hn.tcb hr]; exact hr.tcb) hr.inFrame

theorem mem_handler (hr : FpuRoom L h m) (hn : Reached L m n) :
    (freertosRiscvTrapHandler L m).mem =
      ((saveRest L n).store (savedFrame L m + slot 0) (resumePc m.mcause m.mepc)).mem := by
  have hrest := hn.rest hr
  rw [Fpu.mem_handler L m _ hn.save.symm, hrest.sp, hrest.mepc, hrest.mcause, hn.mepc, hn.mcause,
    show savedFrame L m + slot 0 = savedFrame L m from BitVec.add_zero _]

theorem mem_other (hr : FpuRoom L h m) (hn : Reached L m n) {a : Word}
    (ha : a ≠ m.mem (L.addr .pxCurrentTCB))
    (hk : ∀ k ∈ [0, 1, 31, 32], a ≠ savedFrame L m + slot k) :
    (freertosRiscvTrapHandler L m).mem a = n.mem a := by
  rw [hn.mem_handler hr, mem_store_of_ne _ _ (hk 0 (by simp))]
  exact (hn.rest hr).mem_other a (hn.tcb hr ▸ ha) fun k hk' => hk k (List.mem_cons_of_mem _ hk')

theorem mem_word (hr : FpuRoom L h m) (hn : Reached L m n) {k : Nat}
    (hk : k < contextWords m.mstatus) (hnot : k ∉ [0, 1, 31, 32]) :
    (freertosRiscvTrapHandler L m).mem (savedFrame L m + slot k) =
      n.mem (savedFrame L m + slot k) := by
  have hlt := contextWords_lt m.mstatus
  refine hn.mem_other hr (hr.ne_tcb hk) fun j hj he => hnot ?_
  have hj' : j < 2 ^ 30 := by
    simp at hj
    omega
  rwa [(add_slot_inj (by omega) hj').mp he]

/-- The context of a task without a window whose FPU is dirty. -/
theorem dirty (hr : FpuRoom L h m) (hn : Reached L m n)
    (hflag : m.mem (L.addr .portCurrentTaskWindowBase) = 0) (hd : Dirty m.mstatus) :
    SavedDirty L (m.x sp) m (freertosRiscvTrapHandler L m) := by
  obtain ⟨q, hq, hx, hfull⟩ := hn.legacy hflag
  have hqd : Dirty q.mstatus := by
    rw [hq.mstatus]
    exact hd
  have hframe : savedFrame L m = pushed (m.x sp) + -portFpuContextSize := by
    rw [savedFrame, if_neg (not_not_intro hflag), if_pos hd]
  have hword : ∀ k < portFpuRegCount + 33, k ∉ [0, 1, 31, 32] →
      (freertosRiscvTrapHandler L m).mem (pushed (m.x sp) + -portFpuContextSize + slot k) =
        n.mem (pushed (m.x sp) + -portFpuContextSize + slot k) := by
    intro k hk hnot
    rw [← hframe]
    exact hn.mem_word hr (by rw [contextWords_dirty hd]; exact hk) hnot
  have hslots : ∀ g ∈ lowGprs ++ highGprs, g.2 < 33 := by decide
  have hupper : ∀ k < 33, (freertosRiscvTrapHandler L m).mem (pushed (m.x sp) + slot k) =
      n.mem (pushed (m.x sp) + slot k) := by
    intro k hk
    have hw : 33 ≤ portFpuRegCount := by decide
    rw [fpuContext_add]
    exact hword _ (by omega) (by simp; omega)
  constructor
  case fs =>
    intro i h31 h32
    have hi := i.isLt
    simp only [portFpuRegSlot] at h31 h32
    rw [hword _ (by simp only [portFpuRegSlot, portFpuRegCount]; omega)
      (by simp [portFpuRegSlot]; omega), hfull.fs hqd i, hq.f]
  case fcsr =>
    rw [hword _ (by decide) (by decide), hfull.fcsr hqd, hq.fcsr]
  case gprs =>
    intro g hg
    rw [hupper g.2 (hslots g hg), hfull.gprs g hg, hx]
  case stale =>
    rw [hupper portWindowCfgOffset (by decide), hfull.mem_other _ (fun k _ hk he => ?_)
      (fun _ k _ hk => frame_ne_fpu (by decide) (by decide) hk), hq.mem]
    have := (add_slot_inj (by decide) (by omega)).mp he
    simp at this
    omega

end Reached

theorem freertosRiscvTrapHandler_flat (hr : FpuRoom L h m) :
    Saved L m (freertosRiscvTrapHandler L m) := by
  obtain ⟨n, hn⟩ := exists_reached L m hr
  have hrest := hn.rest hr
  have hmem := hn.mem_handler hr
  have hge := contextWords_ge m.mstatus
  constructor
  case top =>
    rw [hmem, mem_store_of_ne _ _ (hr.ne_tcb (k := 0) (by omega)).symm, ← hn.tcb hr]
    exact hrest.top
  case pc => rw [hmem, mem_store_self]
  case status =>
    rw [hmem, mem_store_of_ne _ _ (savedFrame_ne (by decide) (by decide)), hrest.status, hn.mstatus]
  case windowCfg =>
    rw [hmem, mem_store_of_ne _ _ (savedFrame_ne (by decide) (by decide)), hrest.windowCfg]
  case contextType =>
    rw [hmem, mem_store_of_ne _ _ (savedFrame_ne (by decide) (by decide)), hrest.contextType]
  case dirty => exact hn.dirty hr
  case windowed =>
    intro hflag a ha hk
    rw [hn.mem_other hr ha hk, hn.windowed hflag]
  case mem_other =>
    intro a ha hk
    rw [hn.mem_other hr ha fun k hk' => hk k ?_, hn.outside hk]
    simp at hk'
    omega

end

section
variable {H : Type} [WindowedCore H] [LawfulCore H] {L : Image}
  {m m' : FpuMachine H}

theorem savedFrame_view (L : Image) (m : FpuMachine H) : savedFrame L m.view = savedFrame L m := by
  simp only [savedFrame, FpuMachine.view_x]
  rfl

theorem Saved.of_view (hs : Saved L m.view m'.view) : Saved L m m' := by
  have hf := savedFrame_view L m
  have hdirty := hs.dirty
  have htop := hs.top
  have hpc := hs.pc
  have hstatus := hs.status
  have hcfg := hs.windowCfg
  have htype := hs.contextType
  have hwin := hs.windowed
  have hother := hs.mem_other
  simp only [hf, FpuMachine.view_x] at hdirty htop hpc hstatus hcfg htype hwin hother
  refine ⟨htop, hpc, hstatus, hcfg, htype, fun h0 hd => ?_, hwin, hother⟩
  have hsaved := hdirty h0 hd
  have hgprs := hsaved.gprs
  simp only [FpuMachine.view_x] at hgprs
  exact ⟨hsaved.fs, hsaved.fcsr, hgprs, hsaved.stale⟩

/-- What the trap handler of the FPU build saves. -/
theorem freertosRiscvTrapHandler_spec (L : Image) {m : FpuMachine H} (hk : m.Kernel) {h : Word}
    (hr : FpuRoom L h m) : Saved L m (freertosRiscvTrapHandler L m) := by
  have hs := freertosRiscvTrapHandler_flat (m := m.view) (h := h)
    ⟨hr.tcb, by rw [savedFrame_view]; exact hr.free⟩
  rw [← (fpuRun_trapHandler L hk).view] at hs
  exact hs.of_view

end

end RegisterWindows.Port.Fpu
