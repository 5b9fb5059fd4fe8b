import RegisterWindows.MinimalContext

namespace RegisterWindows.System
open Machine Port WindowedCore LawfulCore RegisterWindows.Core

variable {H : Type} [WindowedCore H] {L : Image} {s s' : System H}

/-- `T` is created in `s`, others run for `span`, and `e` enters it in `s₂`. -/
structure FirstEntry (L : Image) (T top pxCode params : Word) (span : List Event)
    (s s₁ s₂ : System H) (e : Event) (s' : System H) : Prop where
  create : step L s (.create T top pxCode params) = some s₁
  run : Runs.run (step L) s₁ span = some s₂
  away : Runs.Along (step L) (Away L T) s₁ span
  next : s₂.current L = T
  enters : e.enters = true
  entry : step L s₂ e = some s'

/-- The initial context as a task is promised it, read through the window it runs in. -/
structure InitialContext (L : Image) (top params : Word) (s s' : System H) : Prop where
  a0 : s'.m.x a0 = params
  ra : s'.m.x ra = s.m.mem (L.addr .xTaskReturnAddress)
  sp : s'.m.x sp = top
  nesting : s'.m.mem (L.addr .xCriticalNesting) = 0

/-- The context that is made, in the cells of the kernel window. A first task without a
window is entered through `ra`, and one with a window starts on top of its frame. -/
structure Entered (L : Image) (T top pxCode params : Word) (s s₂ : System H) (e : Event)
    (s' : System H) : Prop where
  pc : s'.m.pc = pxCode
  nesting : s'.m.mem (L.addr .xCriticalNesting) = 0
  a0 : cell s'.m.core 10 = params
  ra : cell s'.m.core 1 = if e = .start ∧ (s₂.head T).windowCfg = 0 then pxCode
    else s.m.mem (L.addr .xTaskReturnAddress)
  sp : cell s'.m.core 2 = if e = .start ∧ (s₂.head T).windowCfg ≠ 0 then pushed top else top
  kernel : e = .start → (s₂.head T).windowCfg = 0 → s'.m.Kernel
  reads : s'.m.Kernel → ∀ r : Reg, r ≠ 0 → s'.m.x r = cell s'.m.core ⟨r.val, reg_lt r⟩

section
variable [LawfulCore H] {T top pxCode params : Word} {span : List Event} {s₁ s₂ : System H}
  {e : Event}

theorem FirstEntry.parked (hw : s.Wf L) (hf : FirstEntry L T top pxCode params span s s₁ s₂ e s') :
    s₂.Wf L ∧ s₂.Parked L T (pushed top) (· ≠ portWindowCfgOffset)
      fun k => s₁.m.mem (pushed top + slot k) := by
  have hc := step_create hf.create
  have hw₁ := step_wf hw hf.create
  have hT : T ∈ s₁.created := by
    rw [hc.eq]
    exact List.mem_cons_self
  have hout : s₁.SwitchedOut L T := by
    intro hm
    rw [step_current hw hf.create (by simp)]
    rw [hc.eq] at hm
    rintro rfl
    exact hc.fresh (hw.current (by rw [show s.mode = .task from hm]; decide))
  exact run_parked hw₁ ⟨hT, hout, hc.frame, fun _ _ _ => rfl⟩ hf.away (fun h => absurd rfl h) hf.run

theorem FirstEntry.words (hw : s.Wf L) (hf : FirstEntry L T top pxCode params span s s₁ s₂ e s') :
    s₂.head T = { initialHead s.m.mstatus pxCode with windowCfg := (s₂.head T).windowCfg } ∧
      s₂.m.mem (pushed top + slot 2) = s.m.mem (L.addr .xTaskReturnAddress) ∧
      s₂.m.mem (pushed top + slot 8) = params := by
  obtain ⟨-, hp⟩ := hf.parked hw
  have hc := step_create hf.create
  obtain ⟨mem, hmem, hinit⟩ := hc.init
  have hword : ∀ k < 33, s₁.m.mem (pushed top + slot k) = mem (pushed top + slot k) := by
    intro k hk
    rw [hmem, Function.update_of_ne (hc.stack.ne_tcb hk hc.tcb)]
  have hhead : headAt s₁.m.mem (pushed top) = initialHead s.m.mstatus pxCode :=
    (headAt_congr hword).trans hinit.head
  refine ⟨hp.head.trans ?_, ?_, ?_⟩
  · rw [hhead]
  · exact (hp.words 2 (by decide) (by decide)).trans ((hword 2 (by decide)).trans hinit.ra)
  · exact (hp.words 8 (by decide) (by decide)).trans ((hword 8 (by decide)).trans hinit.a0)

theorem FirstEntry.dispatched (hw : s.Wf L)
    (hf : FirstEntry L T top pxCode params span s s₁ s₂ .dispatch s') :
    Entered L T top pxCode params s s₂ .dispatch s' := by
  obtain ⟨hw₂, hp⟩ := hf.parked hw
  obtain ⟨hhead, hra, ha0⟩ := hf.words hw
  have hd := step_dispatch hw₂ hf.entry
  have hres := hd.restored
  rw [hf.next, hp.frame] at hres
  rw [System.head, hp.frame] at hhead
  have hcell : ∀ r : Reg, r ≠ 0 → cell s'.m.core ⟨r.val, reg_lt r⟩ =
      (portcontextRestoreContext L s₂.m).x r := by
    intro r hr
    rw [hd.run.kernel.x_eq hr, hd.eq]
    exact congrFun (cell_mret _) _
  have hgpr : ∀ g ∈ lowGprs ++ highGprs, g.1 = 1 ∨ g.1 = 10 →
      (portcontextRestoreContext L s₂.m).x g.1 = s₂.m.mem (pushed top + slot g.2) := by
    intro g hg hr
    rw [hres.gprs (Or.inl (congrArg FrameHead.contextType hhead)) g hg]
    rcases hr with hr | hr <;> simp [loaded, hr]
  constructor
  case pc =>
    rw [hd.eq]
    exact hres.mepc.trans (congrArg FrameHead.pc hhead)
  case nesting =>
    rw [hd.eq]
    exact hres.nesting.trans (congrArg FrameHead.nesting hhead)
  case a0 => exact (hcell 10 (by decide)).trans ((hgpr (10, 8) (by decide) (by decide)).trans ha0)
  case ra =>
    rw [if_neg (by simp)]
    exact (hcell 1 (by decide)).trans ((hgpr (1, 2) (by decide) (by decide)).trans hra)
  case sp =>
    rw [if_neg (by simp)]
    exact (hcell 2 (by decide)).trans (hres.sp.trans (pushed_add top))
  case kernel =>
    intro he
    cases he
  case reads => exact fun hk _ hr => hk.x_eq hr

theorem FirstEntry.started (hw : s.Wf L)
    (hf : FirstEntry L T top pxCode params span s s₁ s₂ .start s') :
    Entered L T top pxCode params s s₂ .start s' := by
  obtain ⟨hw₂, hp⟩ := hf.parked hw
  obtain ⟨hhead, hra, ha0⟩ := hf.words hw
  have hpaths := (step_start hw₂ hf.entry).paths
  rw [hf.next, hp.frame] at hpaths
  have hpc : (headAt s₂.m.mem (pushed top)).pc = pxCode := by
    rw [← hp.frame]
    exact congrArg FrameHead.pc hhead
  have hnest : (headAt s₂.m.mem (pushed top)).nesting = 0 := by
    rw [← hp.frame]
    exact congrArg FrameHead.nesting hhead
  obtain ⟨hc, m', hm', hst, n, hrun⟩ | ⟨hc, m', hm', hst, n, hrun⟩ := hpaths
  · have hcell : ∀ r : Reg, r ≠ 0 → cell s'.m.core ⟨r.val, reg_lt r⟩ = m'.x r := by
      intro r hr
      rw [hrun.kernel.x_eq hr, hm']
      exact congrFun (cell_mret _) _
    constructor
    case pc =>
      rw [hm']
      exact hst.mepc.trans hpc
    case nesting =>
      rw [hm']
      exact hst.nesting.trans hnest
    case a0 => exact (hcell 10 (by decide)).trans ((hst.gprs (10, 8) (by decide)).trans ha0)
    case ra =>
      rw [if_neg fun h => hc h.2]
      exact (hcell 1 (by decide)).trans ((hst.gprs (1, 2) (by decide)).trans hra)
    case sp =>
      rw [if_pos ⟨rfl, hc⟩]
      exact (hcell 2 (by decide)).trans hst.sp
    case kernel => exact fun _ h => absurd h hc
    case reads => exact fun hk _ hr => hk.x_eq hr
  · have hcell : ∀ r : Reg, r ≠ 0 → cell s'.m.core ⟨r.val, reg_lt r⟩ = m'.x r := by
      intro r hr
      rw [hrun.kernel.x_eq hr, hm']
    constructor
    case pc =>
      rw [hm']
      exact hst.ra.trans hpc
    case nesting =>
      rw [hm']
      exact hst.nesting.trans hnest
    case a0 => exact (hcell 10 (by decide)).trans ((hst.gprs (10, 8) (by decide)).trans ha0)
    case ra =>
      rw [if_pos ⟨rfl, hc⟩]
      exact (hcell 1 (by decide)).trans (hst.ra.trans hpc)
    case sp =>
      rw [if_neg fun h => h.2 hc]
      exact (hcell 2 (by decide)).trans (hst.sp.trans (pushed_add top))
    case kernel =>
      intro _ _
      rw [hm']
      exact hrun.kernel
    case reads => exact fun hk _ hr => hk.x_eq hr

/-- Whichever path enters a task first, and whatever was called on it before, the entry code
has made this of its initial frame. -/
theorem entered_first {s₀ : System H} (hb : s₀.Boot L) {es : List Event}
    (hr : Runs.run (step L) s₀ es = some s)
    (hf : FirstEntry L T top pxCode params span s s₁ s₂ e s') :
    Entered L T top pxCode params s s₂ e s' := by
  have hw := run_wf hb.wf hr
  have henters := hf.enters
  cases e with
  | dispatch => exact hf.dispatched hw
  | start => exact hf.started hw
  | _ => cases henters

end

/-- The task `0x1000` at `0x8000` with the parameter `0x77`, the first to start on CVA6. -/
theorem firstRun_entered :
    ∃ s₁ s₂ s' : System Cva6.Regs,
      FirstEntry smallImage 0x1000 0x2F00 0x8000 0x77 [.switch 0x1000] (small Cva6.Regs.reset)
        s₁ s₂ .start s' ∧
      Entered smallImage 0x1000 0x2F00 0x8000 0x77 (small Cva6.Regs.reset) s₂ .start s' := by
  have hfacts : (Runs.run (step smallImage) (small Cva6.Regs.reset)
      [.create 0x1000 0x2F00 0x8000 0x77, .switch 0x1000, .start]).isSome := by decide +kernel
  obtain ⟨s', hrun⟩ := Option.isSome_iff_exists.mp hfacts
  obtain ⟨s₁, h₁, hrun⟩ := Runs.run_cons.mp hrun
  obtain ⟨s₂, h₂, hrun⟩ := Runs.run_cons.mp hrun
  obtain ⟨t, ht, hend⟩ := Runs.run_cons.mp hrun
  cases hend
  have hb : (small Cva6.Regs.reset).Boot smallImage := boot_small (by decide)
  have hf : FirstEntry smallImage 0x1000 0x2F00 0x8000 0x77 [.switch 0x1000]
      (small Cva6.Regs.reset) s₁ s₂ .start s' :=
    ⟨h₁, Runs.run_cons.mpr ⟨s₂, h₂, rfl⟩, ⟨nofun, fun _ _ => trivial⟩,
      switch_current h₂, rfl, ht⟩
  exact ⟨s₁, s₂, s', hf, entered_first hb (Runs.run_nil _) hf⟩

/-- It does not find `xTaskReturnAddress` in `ra`. -/
theorem firstRun_ra :
    ∃ s₁ s₂ s' : System Cva6.Regs,
      step smallImage (small Cva6.Regs.reset) (.create 0x1000 0x2F00 0x8000 0x77) = some s₁ ∧
      step smallImage s₁ (.switch 0x1000) = some s₂ ∧ step smallImage s₂ .start = some s' ∧
      ¬ InitialContext smallImage 0x2F00 0x77 (small Cva6.Regs.reset) s' := by
  have hfacts : (Runs.run (step smallImage) (small Cva6.Regs.reset)
      [.create 0x1000 0x2F00 0x8000 0x77, .switch 0x1000, .start]).map (fun s => s.m.x ra) =
        some 0x8000 := by decide +kernel
  obtain ⟨s', hrun, hra⟩ := Option.map_eq_some_iff.mp hfacts
  obtain ⟨s₁, h₁, hrun⟩ := Runs.run_cons.mp hrun
  obtain ⟨s₂, h₂, hrun⟩ := Runs.run_cons.mp hrun
  obtain ⟨t, ht, hend⟩ := Runs.run_cons.mp hrun
  cases hend
  refine ⟨s₁, s₂, s', h₁, h₂, ht, fun hi => ?_⟩
  have hret : (small Cva6.Regs.reset).m.mem (smallImage.addr .xTaskReturnAddress) = 0x700 :=
    (by decide : smallData (smallImage.addr .xTaskReturnAddress) = 0x700)
  exact absurd (hra.symm.trans (hi.ra.trans hret)) (by decide)

/-- Each name is mapped to the physical register of its own number. -/
def MapsKernel (s : System H) : Prop :=
  ∀ r : Reg, (active s.m.core).phys r = some ⟨r.val, reg_lt r⟩

theorem Dispatched.cva6_windowConfig {s s' : System Cva6.Regs} (hd : Dispatched L s s') :
    s'.m.core.windowConfig = (s.head (s.current L)).windowCfg := by
  rw [hd.eq]
  exact hd.restored.staged

theorem cva6_unmapped {s : System Cva6.Regs} (h : s.m.core.windowConfig = 0) (r : Reg) :
    (active s.m.core).phys r = none := by
  rw [show active s.m.core = Cva6.decode s.m.core.windowConfig from rfl, h]
  exact Cva6.windowTranslation_zero r

/-- A task whose frame has window word 0 is never dispatched into the kernel window on CVA6:
it reads 0 from every register. -/
theorem cva6_dispatch_zero {s₀ s s' : System Cva6.Regs} (hb : s₀.Boot L) {es : List Event}
    (hr : Runs.run (step L) s₀ es = some s) (h : step L s .dispatch = some s')
    (h0 : (s.head (s.current L)).windowCfg = 0) : ¬ MapsKernel s' ∧ ∀ r, s'.m.x r = 0 := by
  have hd := step_dispatch (run_wf hb.wf hr) h
  have hnone := cva6_unmapped (hd.cva6_windowConfig.trans h0)
  refine ⟨fun hmap => ?_, fun r => ?_⟩
  · cases (hnone 0).symm.trans (hmap 0)
  · rw [Machine.x, reg_eq, hnone r]
    split <;> rfl

/-- A yield of the task of `legacyRun` puts 0 into its frame. -/
theorem legacyRun_trapped :
    ∃ s s' : System Cva6.Regs,
      Runs.run (step smallImage) (small Cva6.Regs.reset) (legacyRun ++ [.trap 11]) = some s ∧
      step smallImage s .dispatch = some s' ∧ (s.head (s.current smallImage)).windowCfg = 0 := by
  obtain ⟨s, s₁, s', hs, ht, hflag⟩ := trip_small Cva6.Regs.reset legacyRun 11 (T := 0x1000)
    (f := fun s => s.m.mem (smallImage.addr .portCurrentTaskWindowBase)) (v := 0) (by decide)
    (by decide +kernel)
  have hw := run_wf (boot_small (by decide)).wf hs
  refine ⟨s₁, s', Runs.run_concat hs ht.trap, ht.dispatch, ?_⟩
  rw [ht.back]
  exact ht.windowCfg_zero hw hflag

theorem legacyRun_dispatch_zero :
    ∃ s s' : System Cva6.Regs,
      Runs.run (step smallImage) (small Cva6.Regs.reset) (legacyRun ++ [.trap 11]) = some s ∧
      step smallImage s .dispatch = some s' ∧ ¬ MapsKernel s' ∧ s'.m.x t0 = 0 := by
  have hb : (small Cva6.Regs.reset).Boot smallImage := boot_small (by decide)
  obtain ⟨s, s', hs, h, h0⟩ := legacyRun_trapped
  obtain ⟨hmap, hread⟩ := cva6_dispatch_zero hb hs h h0
  exact ⟨s, s', hs, h, hmap, hread t0⟩

/-- The task is then dispatched without a usable register. -/
theorem legacyRun_unmapped :
    ∃ s s' : System Cva6.Regs,
      Runs.run (step smallImage) (small Cva6.Regs.reset) (legacyRun ++ [.trap 11]) = some s ∧
      step smallImage s .dispatch = some s' ∧ (s.head (s.current smallImage)).windowCfg = 0 ∧
      ¬ MapsKernel s' := by
  obtain ⟨s, s', hs, h, h0⟩ := legacyRun_trapped
  refine ⟨s, s', hs, h, h0, fun hmap => ?_⟩
  have hw := run_wf (boot_small (by decide)).wf hs
  have hnone := cva6_unmapped ((step_dispatch hw h).cva6_windowConfig.trans h0) 0
  cases hnone.symm.trans (hmap 0)

end RegisterWindows.System
