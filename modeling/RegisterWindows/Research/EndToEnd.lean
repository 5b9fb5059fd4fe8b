import RegisterWindows.Research.Asm

namespace RegisterWindows.Research.EndToEnd
open RegisterWindows.Core WindowedCore LawfulCore Port Hart

structure Globals where
  tcb : TaskId → Tcb
  currentTask : TaskId
  currentMode : Word
  experimentDone : Word

def modeHardware : Word := 0

/-- What `run_scheduler` leaves in the C objects and in `pending_window`, and its result. -/
structure Scheduled where
  globals : Globals
  pendingWindow : Word
  pc : Word

/-- `run_scheduler`. -/
def schedule (g : Globals) (oldPc : Word) : Scheduled :=
  let tcb := Function.update g.tcb g.currentTask { g.tcb g.currentTask with pc := oldPc }
  if g.experimentDone ≠ 0 then ⟨{ g with tcb := tcb }, 0, oldPc⟩
  else
    let next := g.currentTask.next
    let g := { g with tcb := tcb, currentTask := next }
    if g.currentMode = modeHardware then ⟨g, (tcb next).windowCfg, (tcb next).pc⟩
    -- `perform_dummy_software_save_restore` writes nothing but its own frame
    else ⟨g, 0, oldPc⟩

/-- The address of `pending_window`, and that of the instruction after `call run_scheduler`. -/
structure Image where
  pendingWindow : Word
  back : Word

/-- The words from `sp` on that no handler of the two exceeds with its frame. -/
def InFrame (sp a : Word) : Prop := (a - sp).toNat < 48

instance (sp a : Word) : Decidable (InFrame sp a) := inferInstanceAs (Decidable (_ < _))

/-- `run_scheduler`, compiled: the frame of its caller is left alone. -/
def runScheduler {H : Type} [Core H] (L : Image) (o : Leftover) (m : Hart H Globals) :
    Hart H Globals :=
  let s := schedule m.globals (m.x a0)
  { m.returns o s.pc with
    mem := fun a =>
      if a = L.pendingWindow then s.pendingWindow
      else if InFrame (m.x sp) a then m.mem a
      else o.mem a
    globals := s.globals }

def callScheduler : List Inst :=
  [.csrr a0 .mepc,
   .addi a0 a0 4,
   .call,
   .csrw .mepc a0]

def takePending (L : Image) : List Inst :=
  [.la t0 L.pendingWindow,
   .lw t1 0 t0,
   .sw 0 0 t0]

/-- `beqz t1, just_mret`, and the write that it skips. -/
def switchWindow : Asm := .branch (.beqz t1) (.block []) (.block [.csrw .windowStaged t1])

def saved : List (Reg × Word) :=
  [(ra, 32), (t0, 0), (t1, 4), (t2, 8), (t3, 12), (t4, 16), (a0, 20), (a1, 24), (a2, 28)]

def restored : List (Reg × Word) :=
  [(ra, 32), (a2, 28), (a1, 24), (a0, 20), (t4, 16), (t3, 12), (t2, 8), (t1, 4), (t0, 0)]

/-- The handler of `End-to-End Latency`, up to its `mret`. -/
def trapEntry (L : Image) : Asm :=
  .seq (.block (push 48 saved ++ callScheduler ++ takePending L ++ pop 48 restored)) switchWindow

/-- The handler of `Test-Workload2`, up to its `mret`. -/
def hardwareTrapEntry (L : Image) : Asm :=
  .seq (.block (push 16 [(ra, 12)] ++ callScheduler ++ pop 16 [(ra, 12)] ++ takePending L))
    switchWindow

/-- The caller-saved registers that `trap_entry` does not save. -/
def unsaved : List Reg := [a3, a4, a5, a6, a7, t5, t6]

section
variable {H : Type} [WindowedCore H]

/-- From the trap in `m` to the `mret` in `t`, a handler has made the switch that the scheduler
asked for. -/
structure Switches (L : Image) (m t : Hart H Globals) : Prop where
  windowWrites : t.windowWrites =
    if (schedule m.globals (m.mepc + 4)).pendingWindow = 0 then m.windowWrites
    else (schedule m.globals (m.mepc + 4)).pendingWindow :: m.windowWrites
  mepc : t.mepc = (schedule m.globals (m.mepc + 4)).pc
  cleared : t.mem L.pendingWindow = 0
  kernel : t.Kernel

/-- And nothing else. -/
structure Performs (L : Image) (m t : Hart H Globals) : Prop extends Switches L m t where
  regs : ∀ r, t.x r = m.x r

variable [LawfulCore H]

/-- From before `csrr a0, mepc` to after `csrw mepc, a0`. -/
structure Called (L : Image) (o : Leftover) (m t : Hart H Globals) : Prop where
  kernel : t.Kernel
  windowWrites : t.windowWrites = m.windowWrites
  mepc : t.mepc = (schedule m.globals (m.mepc + 4)).pc
  pending : t.mem L.pendingWindow = (schedule m.globals (m.mepc + 4)).pendingWindow
  frame : ∀ a, a ≠ L.pendingWindow → InFrame (m.x sp) a → t.mem a = m.mem a
  kept : ∀ r, r ∉ callerSaved → t.x r = m.x r
  left : ∀ r ∈ callerSaved, r ≠ a0 → t.x r = o.regs r

omit [LawfulCore H] in
theorem runScheduler_mem (L : Image) (o : Leftover) (m : Hart H Globals) (a : Word) :
    (runScheduler L o m).mem a =
      if a = L.pendingWindow then (schedule m.globals (m.x a0)).pendingWindow
      else if InFrame (m.x sp) a then m.mem a else o.mem a := rfl

theorem runScheduler_x (L : Image) (o : Leftover) {m : Hart H Globals} (hk : m.Kernel) (r : Reg) :
    (runScheduler L o m).x r =
      if r = a0 then (schedule m.globals (m.x a0)).pc
      else if r ∈ callerSaved then o.regs r else m.x r :=
  hk.x_returns o (schedule m.globals (m.x a0)).pc r

theorem called (L : Image) (o : Leftover) {m : Hart H Globals} (hk : m.Kernel) :
    Called L o m (callScheduler.foldl (Hart.step (runScheduler L o) L.back) m) := by
  let m' := m.atCall L.back
  have hk' : m'.Kernel := hk.atCall _
  have hold : m'.x a0 = m.mepc + 4 := hk.x_atCall _ a0
  have hsp : m'.x sp = m.x sp := hk.x_atCall _ sp
  have hg : m'.globals = m.globals := rfl
  have hmem := runScheduler_mem L o m'
  have hx := runScheduler_x L o hk'
  rw [hg, hold] at hmem hx
  rw [hsp] at hmem
  have hret : RegsOnly m' (m'.returns o (schedule m'.globals (m'.x a0)).pc) :=
      RegsOnly.returns _ _ _
  set t := runScheduler L o m'
  change Called L o m (t.writeCsr .mepc (t.x a0))
  have hkt : t.Kernel := hret.active.trans hk'
  have hwt : t.windowWrites = m.windowWrites := hret.windowWrites
  exact {
    kernel := hkt
    windowWrites := hwt
    mepc := hx a0
    pending := (hmem _).trans (if_pos rfl)
    frame := fun a hp hf => by
      refine (hmem a).trans ?_
      rw [if_neg hp, if_pos hf]
      rfl
    kept := fun r hr => by
      have ha : r ≠ a0 := fun h => hr (h ▸ by decide)
      have hra : r ≠ ra := fun h => hr (h ▸ by decide)
      refine (hx r).trans ?_
      rw [if_neg ha, if_neg hr, hk.x_atCall, if_neg hra, if_neg ha]
    left := fun r hr ha => by
      refine (hx r).trans ?_
      rw [if_neg ha, if_pos hr] }

/-- `pending_window` is read into `t1` and cleared. -/
structure Taken (L : Image) (m t : Hart H Globals) : Prop where
  kernel : t.Kernel
  windowWrites : t.windowWrites = m.windowWrites
  mepc : t.mepc = m.mepc
  mem : t.mem = Function.update m.mem L.pendingWindow 0
  x : ∀ r, t.x r =
    if r = t1 then m.mem L.pendingWindow else if r = t0 then L.pendingWindow else m.x r

theorem taken (L : Image) (o : Leftover) {m : Hart H Globals} (hk : m.Kernel) :
    Taken L m ((takePending L).foldl (Hart.step (runScheduler L o) L.back) m) := by
  let m₁ := m.setX t0 L.pendingWindow
  have hk₁ : m₁.Kernel := hk.setX _ _
  have ht0 : m₁.x t0 + 0 = L.pendingWindow :=
    (BitVec.add_zero _).trans (hk.x_setX t0 t0 L.pendingWindow)
  let m₂ := m₁.setX t1 (m₁.mem (m₁.x t0 + 0))
  have hk₂ : m₂.Kernel := hk₁.setX _ _
  have hx : ∀ r, m₂.x r =
      if r = t1 then m.mem L.pendingWindow else if r = t0 then L.pendingWindow else m.x r := by
    intro r
    rw [hk₁.x_setX, ht0, hk.x_setX]
    by_cases h1 : r = t1 <;> by_cases h0 : r = t0 <;> simp [h1, h0, m₁]
  have hstore : m₂.x t0 + 0 = L.pendingWindow := (BitVec.add_zero _).trans (hx t0)
  refine ⟨hk₂, rfl, rfl, ?_, hx⟩
  change Function.update m.mem (m₂.x t0 + 0) (m₂.x 0) = _
  rw [hstore, x_zero]

/-- CSR 0x801 is written with what is in `t1`, unless that is 0. -/
structure Shifted (m t : Hart H Globals) : Prop where
  kernel : t.Kernel
  windowWrites : t.windowWrites = if m.x t1 = 0 then m.windowWrites else m.x t1 :: m.windowWrites
  mepc : t.mepc = m.mepc
  mem : t.mem = m.mem
  x : ∀ r, t.x r = m.x r

theorem shifted (L : Image) (o : Leftover) {m : Hart H Globals} (hk : m.Kernel) :
    ∃ t, switchWindow.exec (ops (runScheduler L o) L.back) m = some t ∧ Shifted m t := by
  have hb : (ops (runScheduler L o) L.back).holds m (.beqz t1) = (m.x t1 == 0) := rfl
  simp only [switchWindow, Code.exec, hb, beq_iff_eq]
  by_cases hz : m.x t1 = 0
  · refine ⟨m, if_pos hz, hk, ?_, rfl, rfl, fun _ => rfl⟩
    rw [if_pos hz]
  · refine ⟨m.writeCsr .windowStaged (m.x t1), if_neg hz, hk.stage _, ?_, rfl, rfl, hk.x_stage _⟩
    rw [if_neg hz]
    rfl

/-- The word of the frame in which a register is saved. -/
def slot (m : Hart H Globals) (f : Reg × Word) : Word := m.x sp - 48 + f.2

/-- What `trap_entry` does in every case; the branch at its end tests what `t1` has been restored
to. -/
structure Handled (L : Image) (o : Leftover) (m t : Hart H Globals) : Prop where
  windowWrites : t.windowWrites =
    if t.x t1 = 0 then m.windowWrites else t.x t1 :: m.windowWrites
  mepc : t.mepc = (schedule m.globals (m.mepc + 4)).pc
  cleared : t.mem L.pendingWindow = 0
  kernel : t.Kernel
  saved : ∀ f ∈ saved, t.x f.1 = if slot m f = L.pendingWindow then 0 else m.x f.1
  unsaved : ∀ r ∈ unsaved, t.x r = o.regs r
  kept : ∀ r, r ∉ callerSaved → t.x r = m.x r

theorem trapEntry_handled (L : Image) (o : Leftover) {m : Hart H Globals} (hk : m.Kernel) :
    ∃ t, (trapEntry L).exec (ops (runScheduler L o) L.back) m = some t ∧ Handled L o m t := by
  have h₁ := pushed (runScheduler L o) L.back hk 48 EndToEnd.saved (by decide) (by decide)
  set m₁ := (push 48 EndToEnd.saved).foldl (Hart.step (runScheduler L o) L.back) m
  have h₂ := called L o h₁.kernel
  set m₂ := callScheduler.foldl (Hart.step (runScheduler L o) L.back) m₁
  have h₃ := taken L o h₂.kernel
  set m₃ := (takePending L).foldl (Hart.step (runScheduler L o) L.back) m₂
  have h₄ := popped (runScheduler L o) L.back h₃.kernel 48 restored (by decide) (by decide)
    (by decide)
  set m₄ := (pop 48 restored).foldl (Hart.step (runScheduler L o) L.back) m₃
  obtain ⟨t, ht, h₅⟩ := shifted L o h₄.kernel
  have hexec : (trapEntry L).exec (ops (runScheduler L o) L.back) m = some t := by
    refine Option.bind_eq_some_iff.mpr ⟨m₄, ?_, ht⟩
    simp only [Code.exec, List.foldl_append]
    rfl
  have hsp₁ : m₁.x sp = m.x sp - 48 := h₁.x sp
  have hsp₃ : m₃.x sp = m.x sp - 48 := (h₃.x sp).trans ((h₂.kept sp (by decide)).trans hsp₁)
  have hlt : ∀ f ∈ EndToEnd.saved, f.2.toNat < 48 := by simp [EndToEnd.saved]
  have hframe : ∀ f ∈ EndToEnd.saved,
      m₃.mem (slot m f) = if slot m f = L.pendingWindow then 0 else m.x f.1 := by
    intro f hf
    rw [h₃.mem]
    by_cases hp : slot m f = L.pendingWindow
    · rw [if_pos hp, hp, Function.update_self]
    · have hin : InFrame (m₁.x sp) (slot m f) := by
        rw [hsp₁, InFrame, slot, BitVec.add_comm, BitVec.add_sub_cancel]
        exact hlt f hf
      rw [if_neg hp, Function.update_of_ne hp, h₂.frame _ hp hin]
      exact h₁.mem f hf
  -- a register that neither the frame nor the hand-over of `pending_window` is about
  have hx : ∀ r, r ≠ sp ∧ r ∉ restored.map Prod.fst ∧ r ≠ t1 ∧ r ≠ t0 → t.x r = m₂.x r := by
    rintro r ⟨hsp, hr, h1, h0⟩
    rw [h₅.x, h₄.x_other r hsp hr, h₃.x, if_neg h1, if_neg h0]
  have hout : ∀ r ∈ EndToEnd.unsaved,
      r ≠ sp ∧ r ∉ restored.map Prod.fst ∧ r ≠ t1 ∧ r ≠ t0 ∧ r ∈ callerSaved ∧ r ≠ a0 := by decide
  have hkept : ∀ r, r ∉ callerSaved → r ≠ sp →
      r ≠ sp ∧ r ∉ restored.map Prod.fst ∧ r ≠ t1 ∧ r ≠ t0 := by decide
  refine ⟨t, hexec, ?_, ?_, ?_, h₅.kernel, fun f hf => ?_, fun r hr => ?_, fun r hr => ?_⟩
  · rw [h₅.windowWrites, h₅.x, h₄.windowWrites, h₃.windowWrites, h₂.windowWrites, h₁.windowWrites]
  · rw [h₅.mepc, h₄.mepc, h₃.mepc, h₂.mepc, h₁.globals, h₁.mepc]
  · rw [h₅.mem, h₄.mem, h₃.mem, Function.update_self]
  · have hmem : ∀ f ∈ EndToEnd.saved, f ∈ restored := by simp [EndToEnd.saved, restored]
    rw [h₅.x, h₄.x_of_mem f (hmem f hf), hsp₃]
    exact hframe f hf
  · obtain ⟨hsp, hr', h1, h0, hc, ha⟩ := hout r hr
    rw [hx r ⟨hsp, hr', h1, h0⟩, h₂.left r hc ha]
  · by_cases hsp : r = sp
    · rw [h₅.x, hsp, h₄.x_sp, hsp₃, BitVec.sub_add_cancel]
    · rw [hx r (hkept r hr hsp), h₂.kept r hr, h₁.x, if_neg hsp]

/-- The handler of `Test-Workload2` gives up its frame before it reads `pending_window`: it makes
the switch that it is asked for whatever it has interrupted, but with the caller-saved registers of
the scheduler. -/
theorem hardwareTrapEntry_switches (L : Image) (o : Leftover) {m : Hart H Globals}
    (hk : m.Kernel) :
    Code.Ends (ops (runScheduler L o) L.back) (hardwareTrapEntry L) m fun t =>
      Switches L m t ∧ (∀ r, r ∉ callerSaved → t.x r = m.x r) ∧
        ∀ r ∈ callerSaved, r ∉ [ra, t0, t1, a0] → t.x r = o.regs r := by
  have h₁ := pushed (runScheduler L o) L.back hk 16 [(ra, 12)] (by decide) (by decide)
  set m₁ := (push 16 [(ra, 12)]).foldl (Hart.step (runScheduler L o) L.back) m
  have h₂ := called L o h₁.kernel
  set m₂ := callScheduler.foldl (Hart.step (runScheduler L o) L.back) m₁
  have h₃ := popped (runScheduler L o) L.back h₂.kernel 16 [(ra, 12)] (by decide)
    (by decide) (by decide)
  set m₃ := (pop 16 [(ra, 12)]).foldl (Hart.step (runScheduler L o) L.back) m₂
  have h₄ := taken L o h₃.kernel
  set m₄ := (takePending L).foldl (Hart.step (runScheduler L o) L.back) m₃
  obtain ⟨t, ht, h₅⟩ := shifted L o h₄.kernel
  have hexec : (hardwareTrapEntry L).exec (ops (runScheduler L o) L.back) m = some t := by
    refine Option.bind_eq_some_iff.mpr ⟨m₄, ?_, ht⟩
    simp only [Code.exec, List.foldl_append]
    rfl
  have hpending : m₄.x t1 = (schedule m.globals (m.mepc + 4)).pendingWindow := by
    refine (h₄.x t1).trans ?_
    rw [if_pos rfl, h₃.mem, h₂.pending, h₁.globals, h₁.mepc]
  have hx : ∀ r, r ≠ sp → r ∉ [ra, t0, t1] → t.x r = m₂.x r := by
    intro r hsp hr
    simp only [List.mem_cons, List.not_mem_nil, or_false, not_or] at hr
    rw [h₅.x, h₄.x, if_neg hr.2.2, if_neg hr.2.1]
    exact h₃.x_other r hsp (by simpa using hr.1)
  have hkept : ∀ r, r ∉ callerSaved → r ∉ [ra, t0, t1] := by decide
  have hleft : ∀ r ∈ callerSaved, r ∉ [ra, t0, t1, a0] → r ≠ sp ∧ r ∉ [ra, t0, t1] ∧ r ≠ a0 := by
    decide
  refine ⟨t, hexec, ⟨?_, ?_, ?_, h₅.kernel⟩, fun r hr => ?_, fun r hr hr' => ?_⟩
  · rw [h₅.windowWrites, hpending, h₄.windowWrites, h₃.windowWrites, h₂.windowWrites,
      h₁.windowWrites]
  · rw [h₅.mepc, h₄.mepc, h₃.mepc, h₂.mepc, h₁.globals, h₁.mepc]
  · rw [h₅.mem, h₄.mem, Function.update_self]
  · by_cases hsp : r = sp
    · rw [hsp, h₅.x]
      refine (h₄.x sp).trans (h₃.x_sp.trans ?_)
      rw [h₂.kept sp (by decide), h₁.x, if_pos rfl, BitVec.sub_add_cancel]
    · rw [hx r hsp (hkept r hr), h₂.kept r hr, h₁.x, if_neg hsp]
  · obtain ⟨hsp, hr', ha⟩ := hleft r hr hr'
    rw [hx r hsp hr', h₂.left r hr ha]

end

theorem written_inj {v w : Word} {ws : List Word}
    (h : (if v = 0 then ws else v :: ws) = if w = 0 then ws else w :: ws) : v = w := by
  by_cases hv : v = 0 <;> by_cases hw : w = 0
  · exact hv.trans hw.symm
  · rw [if_pos hv, if_neg hw] at h
    exact absurd h.symm (List.cons_ne_self w ws)
  · rw [if_neg hv, if_pos hw] at h
    exact absurd h (List.cons_ne_self v ws)
  · rw [if_neg hv, if_neg hw] at h
    exact (List.cons_eq_cons.mp h).1

/-- `trap_entry` makes the switch that it is asked for, and no other, if the task that it has
interrupted happens to have the very window in `t1`; and it gives back the registers that it has not
saved if `run_scheduler` has not touched them. -/
theorem trapEntry_performs_iff (L : Image) (o : Leftover) (m : Hart Spike.Processor Globals) :
    Code.Ends (ops (runScheduler L o) L.back) (trapEntry L) m.ecall (Performs L m.ecall) ↔
      m.ecall.x t1 = (schedule m.globals (m.pc + 4)).pendingWindow ∧
      (∀ r ∈ unsaved, o.regs r = m.ecall.x r) ∧
      ∀ f ∈ saved, slot m.ecall f = L.pendingWindow → m.ecall.x f.1 = 0 := by
  have hk : m.ecall.Kernel := active_trap _
  obtain ⟨t, ht, h⟩ := trapEntry_handled L o hk
  have hends : Code.Ends (ops (runScheduler L o) L.back) (trapEntry L) m.ecall
      (Performs L m.ecall) ↔ Performs L m.ecall t := by
    unfold Code.Ends
    rw [ht]
    exact ⟨fun ⟨u, hu, hp⟩ => Option.some.inj hu ▸ hp, fun hp => ⟨t, rfl, hp⟩⟩
  rw [hends]
  constructor
  · intro hp
    refine ⟨?_, fun r hr => ?_, fun f hf hslot => ?_⟩
    · have hw := h.windowWrites.symm.trans hp.windowWrites
      exact (hp.regs t1).symm.trans (written_inj hw)
    · exact (h.unsaved r hr).symm.trans (hp.regs r)
    · have hs := h.saved f hf
      rw [if_pos hslot, hp.regs] at hs
      exact hs
  · rintro ⟨ht1, hunsaved, hslot⟩
    have hsaved : ∀ f ∈ saved, t.x f.1 = m.ecall.x f.1 := by
      intro f hf
      rw [h.saved f hf]
      split
      · rename_i hs
        exact (hslot f hf hs).symm
      · rfl
    have hasked : t.x t1 = (schedule m.globals (m.pc + 4)).pendingWindow :=
      (hsaved (t1, 4) (by decide)).trans ht1
    have hcover : ∀ r, r ∈ callerSaved → r ∈ saved.map Prod.fst ∨ r ∈ unsaved := by decide
    refine ⟨⟨?_, h.mepc, h.cleared, h.kernel⟩, fun r => ?_⟩
    · rw [h.windowWrites, hasked]
      rfl
    · by_cases hr : r ∈ callerSaved
      · rcases hcover r hr with hr | hr
        · obtain ⟨f, hf, rfl⟩ := List.mem_map.mp hr
          exact hsaved f hf
        · exact (h.unsaved r hr).trans (hunsaved r hr)
      · exact h.kept r hr

/-- Task A of `End-to-End Latency` at its first `ecall` with windows, with 0 in `t1`. -/
def latencyTest : Hart Spike.Processor Globals where
  core := setReg Spike.Processor.reset sp 0x80006000
  pc := 0x80000400
  mepc := 0
  mcause := 0
  mstatus := 0
  mem := fun _ => 0
  mscratch := 0
  globals := ⟨fun k => ⟨if k = .b then 0x80000300 else 0, k.windowCfg⟩, .a, modeHardware, 0⟩
  windowWrites := []

def latencyImage : Image := ⟨0x80003000, 0x80000060⟩

/-- The scheduler asks for the window of task B, and CSR 0x801 is not written, even though
`run_scheduler` leaves all registers as they are. -/
theorem trapEntry_not_performs :
    ¬ Code.Ends
      (ops (runScheduler latencyImage ⟨latencyTest.ecall.x, fun _ => 0⟩) latencyImage.back)
      (trapEntry latencyImage) latencyTest.ecall (Performs latencyImage latencyTest.ecall) := by
  rintro ⟨t, ht, hp⟩
  obtain ⟨u, hu, h⟩ := trapEntry_handled latencyImage ⟨latencyTest.ecall.x, fun _ => 0⟩
    (m := latencyTest.ecall) (active_trap _)
  cases ht.symm.trans hu
  have hw := h.windowWrites.symm.trans hp.windowWrites
  have ht1 : latencyTest.ecall.x t1 = 0 := by decide +kernel
  have hasked : (schedule latencyTest.ecall.globals (latencyTest.ecall.mepc + 4)).pendingWindow =
      0x00200020 := by decide +kernel
  have hne := (hp.regs t1).symm.trans (written_inj hw)
  rw [ht1, hasked] at hne
  exact absurd hne (by decide)

end RegisterWindows.Research.EndToEnd
