import RegisterWindows.MinimalContext

namespace RegisterWindows
open Machine RegisterWindows.Core WindowedCore

/-- The instruction sets the CSR. -/
def Instr.writes (c : Csr) : Instr → Bool
  | .csrw c' _ => c' == c
  | _ => false

theorem Machine.readCsr_exec {H : Type} [Core H] (L : Image) (m : Machine H) {c : Csr}
    (hc : c ≠ .windowStaged) {i : Instr} (hi : i.writes c = false) :
    (m.exec L i).readCsr c = m.readCsr c := by
  cases i with
  | csrw c' r =>
    have hne : c ≠ c' := by
      rintro rfl
      simp [Instr.writes] at hi
    cases c <;> cases c' <;> first | rfl | contradiction
  | _ => cases c <;> first | rfl | contradiction

theorem Machine.readCsr_run {H : Type} [Core H] (L : Image) (m : Machine H) {c : Csr}
    (hc : c ≠ .windowStaged) {is : List Instr} (hi : ∀ i ∈ is, i.writes c = false) :
    (m.run L is).readCsr c = m.readCsr c := by
  induction is generalizing m with
  | nil => rfl
  | cons i is ih =>
    rw [run_cons, ih (m.exec L i) fun j hj => hi j (List.mem_cons_of_mem i hj)]
    exact readCsr_exec L m hc (hi i List.mem_cons_self)

def Instr.stores : Instr → Bool
  | .storeX _ _ _ => true
  | _ => false

theorem Machine.mem_run {H : Type} [Core H] (L : Image) (m : Machine H) {is : List Instr}
    (hi : ∀ i ∈ is, i.stores = false) : (m.run L is).mem = m.mem := by
  induction is generalizing m with
  | nil => rfl
  | cons i is ih =>
    rw [run_cons, ih (m.exec L i) fun j hj => hi j (List.mem_cons_of_mem i hj)]
    cases i with
    | storeX => cases hi _ List.mem_cons_self
    | csrw c r => exact Port.mem_writeCsr m c (m.x r)
    | _ => rfl

namespace Port

/-- The start of a windowed first task but for its `bnez` and its `mret`. -/
def startInstrs : List Instr := startHead ++ startWindowed

/-- How many of them come before interrupts are enabled, by `csrw mstatus, t2`. -/
def startMasked : Nat := 14

theorem startInstrs_mstatus : ∀ i ∈ startInstrs.take startMasked, i.writes .mstatus = false := by
  decide

theorem startInstrs_mepc : ∀ i ∈ startInstrs.drop startMasked, i.writes .mepc = false := by
  decide

theorem startInstrs_stores : ∀ i ∈ startInstrs.drop (startMasked + 1), i.stores = false := by
  decide

section
variable {H : Type} [WindowedCore H]

/-- The state after `k` instructions of the start. -/
def startUpTo (L : Image) (k : Nat) (m : Machine H) : Machine H := m.run L (startInstrs.take k)

/-- The other instructions and the `mret`. -/
def startFrom (L : Image) (k : Nat) (m : Machine H) : Machine H :=
  (m.run L (startInstrs.drop k)).execMret

/-- Without an interrupt the two parts are the whole routine. -/
theorem startFrom_startUpTo (L : Image) (m : Machine H) (k : Nat)
    (h : (m.run L startHead).x t0 ≠ 0) :
    startFrom L k (startUpTo L k m) = xPortStartFirstTask L m := by
  unfold startFrom startUpTo
  rw [← run_append, List.take_append_drop, startInstrs, run_append, xPortStartFirstTask, if_pos h]
  rfl

theorem startUpTo_mstatus (L : Image) (m : Machine H) {k : Nat} (hk : k ≤ startMasked) :
    (startUpTo L k m).mstatus = m.mstatus := by
  apply readCsr_run L m (c := .mstatus) nofun
  intro i hi
  apply startInstrs_mstatus i
  rw [← Nat.min_eq_left hk, ← List.take_take] at hi
  exact List.mem_of_mem_take hi

theorem startFrom_pc (L : Image) (m : Machine H) {k : Nat} (hk : startMasked ≤ k) :
    (startFrom L k m).pc = m.mepc := by
  apply readCsr_run L m (c := .mepc) nofun
  intro i hi
  apply startInstrs_mepc i
  rw [← Nat.add_sub_cancel' hk, ← List.drop_drop] at hi
  exact List.mem_of_mem_drop hi

theorem startUpTo_mem [LawfulCore H] (L : Image) {m : Machine H} (hm : m.Kernel) {h f : Word}
    (hin : InStack L h f) (hf : m.mem (m.mem (L.addr .pxCurrentTCB)) = f)
    (hp : m.mem (L.addr .pxCriticalNesting) = L.addr .xCriticalNesting) {k : Nat}
    (hk : startMasked < k) {a : Word} (hnest : a ≠ L.addr .xCriticalNesting)
    (hflag : a ≠ L.addr .portCurrentTaskWindowBase) : (startUpTo L k m).mem a = m.mem a := by
  have htake : startInstrs.take k = (startHead ++ startWindowedHead) ++
      (startInstrs.drop (startMasked + 1)).take (k - (startMasked + 1)) := by
    conv_lhs => rw [← Nat.add_sub_cancel' hk, List.take_add]
    rfl
  have htail : ∀ i ∈ (startInstrs.drop (startMasked + 1)).take (k - (startMasked + 1)),
      i.stores = false := fun i hi => startInstrs_stores i (List.mem_of_mem_take hi)
  unfold startUpTo
  rw [htake, run_append, mem_run L _ htail, run_append]
  obtain ⟨hmem0, hsp0, -⟩ := run_startHead L m.view hf
  obtain ⟨-, -, hmem, -⟩ := run_startWindowedHead L (m.view.run L startHead) hsp0 hin.free
    (by rw [hmem0]; exact hp)
  have hview := (kernelRun_start L hm startWindowedHead).view
  rw [← hview, view_mem] at hmem
  rw [hmem, Function.update_of_ne hnest, Function.update_of_ne hflag, hmem0]
  rfl

end

end Port

namespace System
open Port

variable {H : Type} [WindowedCore H] {L : Image} {s s' : System H}

/-- `MIE` is set. -/
def InterruptsEnabled (m : Machine H) : Prop := m.mstatus &&& 0x8#32 ≠ 0

/-- `k` instructions into the start of the current task, at the address `place k`. For the trap
handler it is that task which runs. -/
def starting (L : Image) (place : Nat → Word) (k : Nat) (s : System H) : System H :=
  { s with
    m := { startUpTo L k s.m with pc := place k }
    mode := .task
    granted := (s.head (s.current L)).windowCfg }

/-- What the first instruction of the task finds. -/
structure SameStart (L : Image) (m m' : Machine H) : Prop where
  pc : m'.pc = m.pc
  mstatus : m'.mstatus = m.mstatus
  nesting : m'.mem (L.addr .xCriticalNesting) = m.mem (L.addr .xCriticalNesting)
  a0 : m'.x a0 = m.x a0
  ra : m'.x ra = m.x ra
  sp : m'.x sp = m.x sp
  active : active m'.core = active m.core

/-- The scheduler is about to start a windowed task, with interrupts disabled. -/
structure ToStart (L : Image) (s : System H) : Prop where
  mode : s.mode = .boot
  created : s.current L ∈ s.created
  windowed : (s.head (s.current L)).windowCfg ≠ 0
  masked : ¬ InterruptsEnabled s.m

section
variable [LawfulCore H] {place : Nat → Word} {k : Nat}

theorem ToStart.starting_mem (hw : s.Wf L) (ht : s.ToStart L) (hk : startMasked < k) {a : Word}
    (hnest : a ≠ L.addr .xCriticalNesting) (hflag : a ≠ L.addr .portCurrentTaskWindowBase) :
    (s.starting L place k).m.mem a = s.m.mem a :=
  startUpTo_mem L (hw.kernel (by rw [ht.mode]; decide)) (hw.frame _ ht.created) rfl
    hw.nestingPtr hk hnest hflag

theorem ToStart.starting_current (hw : s.Wf L) (ht : s.ToStart L) (hk : startMasked < k) :
    (s.starting L place k).current L = s.current L :=
  ht.starting_mem hw hk (by simp) (by simp)

theorem ToStart.starting_wf (hw : s.Wf L) (ht : s.ToStart L) (hk : startMasked < k) :
    (s.starting L place k).Wf L := by
  have hframe : ∀ T ∈ s.created, (s.starting L place k).frameOf T = s.frameOf T := by
    intro T hT
    apply ht.starting_mem hw hk <;> rintro rfl <;> cases (L.region_addr _).symm.trans (hw.tcb _ hT)
  constructor
  · exact (ht.starting_mem hw hk (by simp) (by simp)).trans hw.nestingPtr
  · exact hw.tcb
  · intro T hT
    rw [hframe T hT]
    exact hw.frame T hT
  · intro _
    rw [ht.starting_current hw hk]
    exact ht.created
  · intro hm
    exact absurd rfl hm

theorem ToStart.pc (hw : s.Wf L) (ht : s.ToStart L) :
    (xPortStartFirstTask L s.m).pc = (s.head (s.current L)).pc := by
  obtain ⟨s', hs⟩ : ∃ s', step L s .start = some s' := ⟨_, if_pos ⟨ht.mode, ht.created⟩⟩
  have hst := step_start hw hs
  have hm : s'.m = xPortStartFirstTask L s.m := by rw [hst.eq]
  rw [← hm]
  obtain ⟨-, m', hm', hw', -⟩ | ⟨h0, -⟩ := hst.paths
  · rw [hm']
    exact hw'.mepc
  · exact absurd h0 ht.windowed

omit [LawfulCore H] in
theorem ToStart.unmasked (ht : s.ToStart L) (hen : InterruptsEnabled (startUpTo L k s.m)) :
    startMasked < k := by
  by_contra hk
  apply ht.masked
  unfold InterruptsEnabled at hen ⊢
  rwa [startUpTo_mstatus L s.m (Nat.le_of_not_lt hk)] at hen

/-- After an interrupt the `mret` of the start goes back to the instruction that was
interrupted: the trap has put its address into `mepc`, where the entry point was. -/
theorem ToStart.interrupted_pc (hw : s.Wf L) (ht : s.ToStart L)
    (hen : InterruptsEnabled (startUpTo L k s.m)) {cause : Word} (hc : cause.msb = true)
    {span : List Event} {s₁ s₂ : System H}
    (habs : Absence L (s.current L) cause span (s.starting L place k) s₁ s₂ s') :
    (startFrom L k s'.m).pc = place k := by
  have hk := ht.unmasked hen
  have hres := habs.headResumed (ht.starting_wf hw hk)
  rw [startFrom_pc L s'.m (Nat.le_of_lt hk), hres.mepc, resumePc, hc]
  rfl

/-- Wherever an interrupt is taken in the start of a windowed first task, and whatever runs
until it is resumed, the task does not start as it does without it. -/
theorem interrupted_start {s₀ : System H} (hb : s₀.Boot L) {es : List Event}
    (hr : Runs.run (step L) s₀ es = some s) (ht : s.ToStart L)
    (hplace : ∀ j ≤ startInstrs.length, place j ≠ (s.head (s.current L)).pc)
    (hk : k ≤ startInstrs.length) (hen : InterruptsEnabled (startUpTo L k s.m)) {cause : Word}
    (hc : cause.msb = true) {span : List Event} {s₁ s₂ : System H}
    (habs : Absence L (s.current L) cause span (s.starting L place k) s₁ s₂ s') :
    ¬ SameStart L (xPortStartFirstTask L s.m) (startFrom L k s'.m) := by
  have hw := run_wf hb.wf hr
  intro hsame
  apply hplace k hk
  rw [← ht.interrupted_pc hw hen hc habs, ← ht.pc hw]
  exact hsame.pc

end

/-- The task of the small image, about to start; the scheduler has disabled interrupts. -/
def firstWindowed : List Event :=
  [.create 0x1000 0x2F00 0x8000 0x77, .setWindow 0x1000 32 16, .switch 0x1000, .mstatus 0]

/-- Where the start routine lies in the small image. -/
def smallPlace (k : Nat) : Word := 0x400 + slot k

/-- A machine timer interrupt at that boundary, whose handler goes straight back. -/
structure TimerInterrupt (k : Nat) (s s₁ s' : System Cva6.Regs) : Prop where
  run : Runs.run (step smallImage) (small Cva6.Regs.reset) firstWindowed = some s
  ready : s.ToStart smallImage
  entry : (s.head (s.current smallImage)).pc = 0x8000
  enabled : InterruptsEnabled (startUpTo smallImage k s.m)
  absence : Absence smallImage (s.current smallImage) 0x80000007 []
    (s.starting smallImage smallPlace k) s₁ s₁ s'

theorem timerInterrupt {k : Nat} (hk : startMasked < k)
    (hfacts : (Runs.run (step smallImage) (small Cva6.Regs.reset) firstWindowed).map
      (fun s => (decide (s.mode = .boot ∧ s.current smallImage ∈ s.created),
        (s.head (s.current smallImage)).windowCfg, (s.head (s.current smallImage)).pc,
        s.m.mstatus, (startUpTo smallImage k s.m).mstatus &&& 0x8#32,
        (step smallImage (s.starting smallImage smallPlace k) (.trap 0x80000007)).isSome)) =
      some (true, 0x00100020, 0x8000, 0, 8, true)) :
    ∃ s s₁ s', TimerInterrupt k s s₁ s' := by
  obtain ⟨s, hs, hf⟩ := Option.map_eq_some_iff.mp hfacts
  simp only [Prod.mk.injEq, decide_eq_true_eq] at hf
  obtain ⟨⟨hmode, hcreated⟩, hcfg, hpc, hmask, hen, hsome⟩ := hf
  obtain ⟨s₁, h₁⟩ := Option.isSome_iff_exists.mp hsome
  have hb : (small Cva6.Regs.reset).Boot smallImage := boot_small (by decide)
  have hw := run_wf hb.wf hs
  have ht : s.ToStart smallImage := by
    refine ⟨hmode, hcreated, ?_, ?_⟩
    · rw [hcfg]
      decide
    · unfold InterruptsEnabled
      rw [hmask]
      decide
  have hw' : (s.starting smallImage smallPlace k).Wf smallImage := ht.starting_wf hw hk
  obtain ⟨s', habs⟩ := trip_at_once hw' h₁
  rw [ht.starting_current hw hk] at habs
  refine ⟨s, s₁, s', hs, ht, hpc, ?_, habs.toAbsence⟩
  unfold InterruptsEnabled
  rw [hen]
  decide

theorem smallPlace_ne : ∀ j ≤ startInstrs.length, smallPlace j ≠ 0x8000 := by decide

/-- The tick arrives just before the `mret`. -/
theorem timerInterrupt_differs :
    ∃ s s₁ s' : System Cva6.Regs, TimerInterrupt 45 s s₁ s' ∧
      ¬ SameStart smallImage (xPortStartFirstTask smallImage s.m)
        (startFrom smallImage 45 s'.m) := by
  obtain ⟨s, s₁, s', h⟩ := timerInterrupt (k := 45) (by decide) (by decide +kernel)
  refine ⟨s, s₁, s', h, ?_⟩
  apply interrupted_start (boot_small (by decide)) h.run h.ready ?_ (by decide) h.enabled
    (by decide) h.absence
  rw [h.entry]
  exact smallPlace_ne

/-- Right after `csrw mstatus, t2` the task is not started at `0x8000` but at `0x43C`, in the
middle of the start routine. -/
theorem timerInterrupt_lost :
    ∃ s s₁ s' : System Cva6.Regs, TimerInterrupt 15 s s₁ s' ∧
      (xPortStartFirstTask smallImage s.m).pc = 0x8000 ∧
      (startFrom smallImage 15 s'.m).pc = 0x43C ∧
      ¬ SameStart smallImage (xPortStartFirstTask smallImage s.m)
        (startFrom smallImage 15 s'.m) := by
  obtain ⟨s, s₁, s', h⟩ := timerInterrupt (k := 15) (by decide) (by decide +kernel)
  have hw := run_wf (boot_small (by decide)).wf h.run
  have hpc := (h.ready.pc hw).trans h.entry
  have hpc' := h.ready.interrupted_pc hw h.enabled (by decide) h.absence
  refine ⟨s, s₁, s', h, hpc, hpc', fun hsame => ?_⟩
  exact absurd (hpc'.symm.trans (hsame.pc.trans hpc)) (by decide)

end System
end RegisterWindows
