import RegisterWindows.Cva6.Core
import RegisterWindows.FullContext
import RegisterWindows.Ownership

namespace RegisterWindows.System
open Machine Port WindowedCore LawfulCore RegisterWindows.Core

variable {H : Type} [WindowedCore H] {L : Image}
  {s s' : System H} {W : Assignment}

/-- The task runs in the same window again and finds every register of its own there. -/
structure ResumedWindow (L : Image) (w : Window) (s : System H) (cause : Word) (s' : System H) :
    Prop extends HeadResumed L s cause s' where
  active : active s'.m.core = active s.m.core
  config : interrupted s'.m.core = interrupted s.m.core
  gprs : ∀ r : Reg, r.val < w.size → s'.m.x r = s.m.x r

section
variable [LawfulCore H] {T cause : Word} {span : List Event} {s₁ s₂ : System H}

theorem Trip.staged (hw : s.Wf L) (ht : Trip L T cause span s s₁ s₂ s')
    (hflag : s.m.mem (L.addr .portCurrentTaskWindowBase) ≠ 0) :
    Core.staged (portcontextRestoreContext L s₂.m).core = interrupted s.m.core := by
  obtain ⟨hw₂, -⟩ := ht.parked hw
  refine (step_dispatch hw₂ ht.dispatch).restored.staged.trans ?_
  rw [ht.back]
  exact (ht.windowCfg hw).trans ((if_neg hflag).trans (staged_trap s.m.core))

/-- A task that left a window is dispatched into the one its frame names now. -/
theorem Absence.windowed (hw : s.Wf L) (ht : Absence L T cause span s s₁ s₂ s') {v : Window}
    (hv : v.Legal) (hcfg : (s₂.head T).windowCfg = v.config) : active s'.m.core = v := by
  have hd := step_dispatch (ht.parked hw).1 ht.dispatch
  have hstaged := hd.restored.staged
  rw [ht.back] at hstaged
  rw [hd.eq]
  exact active_mret _ v hv (hstaged.trans hcfg)

theorem Absence.cells {w : Window} (hk : s.Kept (Spares T w) L)
    (ht : Absence L T cause span s s₁ s₂ s')
    (hc : Runs.Along (step L) (Keeps (Spares T w) L) s₁ span) (hl : w.Legal) {r : Reg}
    {p : PhysReg} (hr : w.phys r = some p) : cell s'.m.core p = cell s.m.core p := by
  have hhigh := hl.phys_high hr
  have hkeeps : Keeps (Spares T w) L s (.trap cause) := ⟨trivial, nofun⟩
  have hk₁ := step_kept (spares_zero T w) hk hkeeps ht.trap
  have hspan := run_window hk₁ hl (ht.left hk.wf fun _ => True).2.out ht.away hc ht.run hr
  rw [step_cell_high (ht.parked hk.wf).1 ht.dispatch hhigh nofun, hspan,
    step_cell_high hk.wf ht.trap hhigh nofun]

/-- A windowed task comes back to its window and finds every register there, although
none of them was stored. -/
theorem Trip.minimal {w : Window} (hk : s.Kept (Spares T w) L) (ht : Trip L T cause span s s₁ s₂ s')
    (hc : Runs.Along (step L) (Keeps (Spares T w) L) s₁ span) (hl : w.Legal)
    (hg : s.granted = w.config) : ResumedWindow L w s cause s' := by
  have hg0 : s.granted ≠ 0 := by
    rw [hg]
    exact hl.config_ne_zero
  have hint : interrupted s.m.core = w.config := (hk.holds.interrupted ht.mode hg0).trans hg
  have ha := hk.holds.active ht.mode w hl hg
  have hflag : s.m.mem (L.addr .portCurrentTaskWindowBase) ≠ 0 := by
    rw [hk.flagged.task ht.mode, hg]
    exact hl.config_base_ne_zero
  have hd := step_dispatch (ht.parked hk.wf).1 ht.dispatch
  have hstaged := (ht.staged hk.wf hflag).trans hint
  have ha' : active s'.m.core = w := by
    rw [hd.eq]
    exact active_mret _ w hl hstaged
  have hint' : interrupted s'.m.core = w.config := by
    rw [hd.eq]
    exact (interrupted_mret _ (by rw [hstaged]; exact hl.config_ne_zero)).trans hstaged
  refine ⟨ht.headResumed hk.wf, ha'.trans ha.symm, hint'.trans hint.symm, fun r _ => ?_⟩
  exact x_eq_of_active ha ha' (fun _ _ => ht.cells hk hc hl) r

theorem Trip.own (hk : s.Kept W.Own L) {w : Window} (ht : Trip L T cause span s s₁ s₂ s')
    (hc : Runs.Along (step L) (Keeps W.Own L) s₁ span) (hw : W.window T = some w)
    (hg : s.granted ≠ 0) : ResumedWindow L w s cause s' := by
  have hspares : ∀ U cfg, W.Own U cfg → Spares T w U cfg := fun _ _ => Assignment.Own.spares hw
  obtain ⟨v, hv, hcfg⟩ := (hk.copies.granted ht.mode).resolve_left hg
  rw [ht.current, hw] at hv
  cases hv
  exact ht.minimal (hk.mono hspares) (hc.mono fun _ _ => Keeps.mono hspares) (W.legal T w hw) hcfg

theorem Trip.cell_t0 (hw : s.Wf L) (ht : Trip L T cause span s s₁ s₂ s')
    (hflag : s.m.mem (L.addr .portCurrentTaskWindowBase) ≠ 0)
    (hint : interrupted s.m.core ≠ 0) :
    cell s'.m.core 5 = s.m.mem (L.addr .xCriticalNesting) := by
  have hd := step_dispatch (ht.parked hw).1 ht.dispatch
  have hhead := ht.head hw
  have htype : (s₂.head T).contextType ≠ 0 := by
    rw [hhead, show (savedHead L (s.m.takeTrap cause)).contextType = 1 from if_neg hflag]
    decide
  have hsaved : (s₂.head T).windowCfg = interrupted s.m.core :=
    (ht.windowCfg hw).trans ((if_neg hflag).trans (staged_trap s.m.core))
  have hcfg : (s₂.head T).windowCfg ≠ 0 := by
    rw [hsaved]
    exact hint
  have hscratch := hd.restored.scratch
  rw [ht.back] at hscratch
  have ht0 := hscratch htype hcfg
  rw [hd.run.kernel.x_eq (by decide : t0 ≠ 0)] at ht0
  rw [hd.eq]
  refine (congrFun (cell_mret _) _).trans (ht0.trans ?_)
  exact congrArg FrameHead.nesting hhead

/-- A windowed task that runs in the kernel window shares `t0` with the restore code. -/
theorem Trip.kernel (hw : s.Wf L) (ht : Trip L T cause span s s₁ s₂ s')
    (hflag : s.m.mem (L.addr .portCurrentTaskWindowBase) ≠ 0)
    (hint : interrupted s.m.core = Window.kernel.config) :
    s'.m.Kernel ∧ s'.m.x t0 = s.m.mem (L.addr .xCriticalNesting) ∧
      s'.m.x sp = s.nextFrame + portContextSize ∧
      s'.m.mem (L.addr .portCurrentTaskWindowBase) = 0 ∧ s'.granted = Window.kernel.config := by
  obtain ⟨hw₂, hp⟩ := ht.parked hw
  have hd := step_dispatch hw₂ ht.dispatch
  have hhead := ht.head hw
  have hstaged := (ht.staged hw hflag).trans hint
  have hk : (portcontextRestoreContext L s₂.m).execMret.Kernel := active_mret_kernel _ hstaged
  have hcfg : (s₂.head T).windowCfg = Window.kernel.config := by
    rw [ht.windowCfg hw]
    exact (if_neg hflag).trans ((staged_trap s.m.core).trans hint)
  have hres := hd.restored
  rw [ht.back] at hres
  have hx := hd.run.kernel.x_execMret hk
  have ht0 := ht.cell_t0 hw hflag (by rw [hint]; decide)
  rw [hd.eq] at ht0
  rw [hd.eq, ht.back]
  refine ⟨hk, ?_, ?_, ?_, hcfg⟩
  · exact (hk.x_eq (by decide : t0 ≠ 0)).trans ht0
  · refine (hx sp).trans (hres.sp.trans ?_)
    rw [hp.frame]
  · refine hres.flag.trans ?_
    rw [show (headAt s₂.m.mem (s₂.frameOf T)).windowCfg = _ from hcfg]
    decide

end

/-- From any state of a run in which the first task stages what its `window_cfg` says, a windowed
task that traps on CVA6 resumes with the registers of its window, over any span of other steps. -/
theorem cva6_resumedWindow {s₀ s s' : System Cva6.Regs} (hb : s₀.Boot L) {es : List Event}
    (hc : Runs.Along (step L) (Keeps W.Own L) s₀ es) (hr : Runs.run (step L) s₀ es = some s)
    {T cause : Word} {span : List Event} {s₁ s₂ : System Cva6.Regs} {w : Window}
    (ht : Trip L T cause span s s₁ s₂ s') (hc' : Runs.Along (step L) (Keeps W.Own L) s₁ span)
    (hw : W.window T = some w) (hg : s.granted ≠ 0) : ResumedWindow L w s cause s' :=
  ht.own (run_kept Assignment.own_zero hb.kept hc hr) hc' hw hg

/-- The task `0x1000` owns cells 32 to 47. -/
def soloAssignment : Assignment where
  window T := if T = 0x1000 then some ⟨32, 16⟩ else none
  legal T w h := by
    split at h
    · cases h
      decide
    · cases h
  disjoint T U w v hne hw hv := by
    split at hw
    · split at hv
      · rename_i h h'
        exact absurd (h.trans h'.symm) hne
      · cases hv
    · cases hw

/-- It is the first to start, from a stack whose word 3 below the initial frame is `x5`. -/
def soloRun (x5 : Word) : List Event :=
  [.store 0x2E88 x5, .create 0x1000 0x2F00 0x8000 0, .setWindow 0x1000 32 16, .switch 0x1000,
   .start, .reg t0 9]

/-- Two tasks: `0x1000` owns cells 32 to 47, and `0x1100` cells 48 to 63. -/
def pairWindow (T : Word) : Option Window :=
  if T = 0x1000 then some ⟨32, 16⟩ else if T = 0x1100 then some ⟨48, 16⟩ else none

theorem pairWindow_some {T : Word} {w : Window} (h : pairWindow T = some w) :
    T = 0x1000 ∧ w = ⟨32, 16⟩ ∨ T = 0x1100 ∧ w = ⟨48, 16⟩ := by
  unfold pairWindow at h
  split at h
  · rename_i hT
    cases h
    exact Or.inl ⟨hT, rfl⟩
  split at h
  · rename_i hT
    cases h
    exact Or.inr ⟨hT, rfl⟩
  · cases h

def pairAssignment : Assignment where
  window := pairWindow
  legal T w h := by
    obtain ⟨-, rfl⟩ | ⟨-, rfl⟩ := pairWindow_some h <;> decide
  disjoint T U w v hne hw hv := by
    obtain ⟨hT, rfl⟩ | ⟨hT, rfl⟩ := pairWindow_some hw <;>
      obtain ⟨hU, rfl⟩ | ⟨hU, rfl⟩ := pairWindow_some hv
    · exact absurd (hT.trans hU.symm) hne
    · decide
    · decide
    · exact absurd (hT.trans hU.symm) hne

/-- The first of them has started as in `soloRun`. -/
def pairRun : List Event :=
  [.store 0x2E88 0x00100020, .create 0x1000 0x2F00 0x8000 0, .create 0x1100 0x3F00 0x8000 0,
   .setWindow 0x1000 32 16, .setWindow 0x1100 48 16, .switch 0x1000, .start, .reg t0 9]

/-- While it is away, the second one is dispatched and writes its own `t0`. -/
theorem pairRun_resumes :
    ∃ s s₁ s₂ s' : System Cva6.Regs,
      Runs.run (step smallImage) (small Cva6.Regs.reset) pairRun = some s ∧
      Trip smallImage 0x1000 11 (visitBy 0x1100 0x1000 t0 4) s s₁ s₂ s' ∧
      ResumedWindow smallImage ⟨32, 16⟩ s 11 s' := by
  obtain ⟨s, s₁, s₂, s', hs, ht, hg⟩ := trip_visited Cva6.Regs.reset pairRun 11
    (visitBy 0x1100 0x1000 t0 4) (T := 0x1000) (P := fun s _ => s.granted = 0x00100020)
    (by decide) (by decide +kernel)
  have hb : (small Cva6.Regs.reset).Boot smallImage := boot_small (by decide)
  have hkeeps : Runs.Along (step smallImage) (Keeps pairAssignment.Own smallImage)
      (small Cva6.Regs.reset) (pairRun ++ .trap 11 :: visitBy 0x1100 0x1000 t0 4) := by
    decide +kernel
  obtain ⟨hc, -, hc'⟩ := Runs.along_append hkeeps hs
  exact ⟨s, s₁, s₂, s', hs, ht,
    cva6_resumedWindow hb hc hs ht (hc' s₁ ht.trap) rfl (by rw [hg]; decide)⟩

/-- With 0x00200000 in that word the same task runs in the kernel window, and its `t0` is lost. -/
theorem soloRun_cva6_lost :
    ∃ s s₁ s' : System Cva6.Regs,
      (∀ e ∈ soloRun 0x00200000, Follows soloAssignment.Own e) ∧
      Runs.run (step smallImage) (small Cva6.Regs.reset) (soloRun 0x00200000) = some s ∧
      Trip smallImage 0x1000 11 [] s s₁ s₁ s' ∧ s.granted ≠ 0 ∧
      ¬ ResumedWindow smallImage ⟨32, 16⟩ s 11 s' := by
  obtain ⟨s, s₁, s', hs, ht, hf⟩ := trip_small Cva6.Regs.reset (soloRun 0x00200000) 11 (T := 0x1000)
    (f := fun s => [s.granted, interrupted s.m.core, s.m.x t0,
      s.m.mem (smallImage.addr .xCriticalNesting),
      s.m.mem (smallImage.addr .portCurrentTaskWindowBase)])
    (v := [0x00100020, 0x00200000, 9, 0, 32]) (by decide) (by decide +kernel)
  simp only [List.cons.injEq, and_true] at hf
  obtain ⟨hg, hint, hx, hnest, hflag⟩ := hf
  have hb : (small Cva6.Regs.reset).Boot smallImage := boot_small (by decide)
  have hw := run_wf hb.wf hs
  obtain ⟨-, hx', -⟩ := ht.kernel hw (by rw [hflag]; decide) (by rw [hint]; decide)
  refine ⟨s, s₁, s', by decide, hs, ht, by rw [hg]; decide, fun hres => ?_⟩
  have hsame := hres.gprs t0 (by decide)
  rw [hx', hnest, hx] at hsame
  exact absurd hsame (by decide)

/-- The same on Spike, where `csrr 0x801` in the handler reads what was staged last. -/
theorem spike_resumedWindow {s₀ s s' : System Spike.Processor} (hb : s₀.Boot L) {es : List Event}
    (hc : Runs.Along (step L) (Keeps W.Own L) s₀ es) (hr : Runs.run (step L) s₀ es = some s)
    {T cause : Word} {span : List Event} {s₁ s₂ : System Spike.Processor} {w : Window}
    (ht : Trip L T cause span s s₁ s₂ s') (hc' : Runs.Along (step L) (Keeps W.Own L) s₁ span)
    (hw : W.window T = some w) (hg : s.granted ≠ 0) : ResumedWindow L w s cause s' :=
  ht.own (run_kept Assignment.own_zero hb.kept hc hr) hc' hw hg

theorem pairRun_resumes_spike :
    ∃ s s₁ s₂ s' : System Spike.Processor,
      Runs.run (step smallImage) (small Spike.Processor.reset) pairRun = some s ∧
      Trip smallImage 0x1000 11 (visitBy 0x1100 0x1000 t0 4) s s₁ s₂ s' ∧
      ResumedWindow smallImage ⟨32, 16⟩ s 11 s' := by
  obtain ⟨s, s₁, s₂, s', hs, ht, hg⟩ := trip_visited Spike.Processor.reset pairRun 11
    (visitBy 0x1100 0x1000 t0 4) (T := 0x1000) (P := fun s _ => s.granted = 0x00100020)
    (by decide) (by decide +kernel)
  have hb : (small Spike.Processor.reset).Boot smallImage := boot_small (by decide)
  have hkeeps : Runs.Along (step smallImage) (Keeps pairAssignment.Own smallImage)
      (small Spike.Processor.reset) (pairRun ++ .trap 11 :: visitBy 0x1100 0x1000 t0 4) := by
    decide +kernel
  obtain ⟨hc, -, hc'⟩ := Runs.along_append hkeeps hs
  exact ⟨s, s₁, s₂, s', hs, ht,
    spike_resumedWindow hb hc hs ht (hc' s₁ ht.trap) rfl (by rw [hg]; decide)⟩

theorem step_reg [LawfulCore H] (hw : s.Wf L) (r : Reg) (v : Word) :
    ∃ t, step L s (.reg r v) = some t ∧ t.Wf L ∧ t.m = s.m.setX r v ∧ t.mode = s.mode ∧
      t.granted = s.granted := by
  have h : step L s (.reg r v) = some { s with m := s.m.setX r v } := rfl
  exact ⟨_, h, step_wf hw h, rfl, rfl, rfl⟩

/-- With 0x00200000 in word 3 the task stays in the kernel window after its first dispatch by
the restore macro too, from now on with full saves, and `t0` is lost at the second trap. -/
theorem soloRun_spike_lost :
    ∃ s s₁ s' : System Spike.Processor,
      (∀ e ∈ soloRun 0x00200000, Follows soloAssignment.Own e) ∧
      Runs.run (step smallImage) (small Spike.Processor.reset)
        (soloRun 0x00200000 ++ [.trap 11, .dispatch, .reg t0 9]) = some s ∧
      Trip smallImage 0x1000 11 [] s s₁ s₁ s' ∧ s.granted ≠ 0 ∧
      ¬ ResumedWindow smallImage ⟨32, 16⟩ s 11 s' := by
  obtain ⟨s, s₁, t, hs, ht, hf⟩ := trip_small Spike.Processor.reset (soloRun 0x00200000) 11
    (T := 0x1000) (f := fun s => [interrupted s.m.core, s.nextFrame,
      s.m.mem (smallImage.addr .portCurrentTaskWindowBase)])
    (v := [0x00200000, pushed 0x2E7C, 32]) (by decide) (by decide +kernel)
  simp only [List.cons.injEq, and_true] at hf
  obtain ⟨hint, hnext, hflag⟩ := hf
  have hb : (small Spike.Processor.reset).Boot smallImage := boot_small (by decide)
  have hw := run_wf hb.wf hs
  have hw₁ := step_wf hw ht.trap
  obtain ⟨hk, -, hsp, hflag', hg⟩ := ht.kernel hw (by rw [hflag]; decide) (by rw [hint]; decide)
  rw [hnext, pushed_add] at hsp
  have hd := step_dispatch hw₁ ht.dispatch
  have hcur' : t.current smallImage = 0x1000 :=
    (step_current hw₁ ht.dispatch (by simp)).trans ht.back
  -- the task writes `t0` and traps again
  obtain ⟨u, hu, hwu, hum, humode, hug⟩ := step_reg (step_wf hw₁ ht.dispatch) t0 9
  have hku : u.m.Kernel := by
    rw [hum]
    exact hk.setX _ _
  have hcuru : u.current smallImage = 0x1000 :=
    (step_current (step_wf hw₁ ht.dispatch) hu (by simp)).trans hcur'
  have hspu : u.m.x sp = 0x2E7C := by
    rw [hum, hk.x_setX, if_neg (by decide), hsp]
  have hroom : InStack smallImage (u.current smallImage) u.nextFrame := by
    rw [hcuru, show u.nextFrame = pushed (u.m.x sp) from congrArg pushed (hku.x_takeTrap 11 sp),
      hspu]
    decide
  have hmu : u.mode = .task := by rw [humode, hd.eq]
  obtain ⟨u₁, hu₁⟩ : ∃ u₁, step smallImage u (.trap 11) = some u₁ := trap_of_room hmu hroom
  obtain ⟨u', htu⟩ := trip_at_once hwu hu₁
  have hflagu : u.m.mem (smallImage.addr .portCurrentTaskWindowBase) = 0 := by
    rw [hum]
    exact hflag'
  have hlost := htu.full hwu hku hflagu (htu.windowCfg_zero hwu hflagu) (r := t0) (by decide)
  rw [hcuru] at htu
  have hrun : Runs.run (step smallImage) s [.trap 11, .dispatch, .reg t0 9] = some u :=
    Runs.run_cons.mpr ⟨s₁, ht.trap, Runs.run_cons.mpr ⟨t, ht.dispatch,
      Runs.run_cons.mpr ⟨u, hu, rfl⟩⟩⟩
  refine ⟨u, u₁, u', by decide, Runs.run_append.mpr ⟨s, hs, hrun⟩, htu,
    by rw [hug, hg]; decide, fun hres => ?_⟩
  have hsame := hres.gprs t0 (by decide)
  rw [hlost, hum, hk.x_setX, if_pos (by decide)] at hsame
  exact absurd ((if_pos rfl).symm.trans hsame) (by decide)

end RegisterWindows.System
