import RegisterWindows.MinimalContext

namespace RegisterWindows.System
open Machine Port WindowedCore LawfulCore RegisterWindows.Core

variable {H : Type} [WindowedCore H] {L : Image} {s s' : System H}

/-- The task reads, through the window it now runs in, the registers it had at the trap. -/
structure Retargeted (L : Image) (s : System H) (cause : Word) (s' : System H) : Prop
    extends HeadResumed L s cause s' where
  gprs : ∀ r : Reg, r.val < (active s'.m.core).size → s'.m.x r = s.m.x r

/-- The window at the dispatch is one in which the registers already are: the kernel window
for a task that left it, or the start of the window it left. -/
inductive InPlace (L : Image) (T : Word) (s s₂ : System H) : Prop
  | full (legacy : s.granted = 0) (cfg : (s₂.head T).windowCfg = 0) (scratch : ScratchAgrees L s s₂)
      (globals : ∀ r, Global r → s₂.m.x r = s.m.x r)
  | minimal (w v : Window) (wlegal : w.Legal) (vlegal : v.Legal) (granted : s.granted = w.config)
      (cfg : (s₂.head T).windowCfg = v.config) (base : v.base = w.base) (size : v.size ≤ w.size)

/-- While the task is away nobody else is given a window that meets the one it left. -/
def Spared (L : Image) (T : Word) (s s₁ : System H) (span : List Event) : Prop :=
  ∀ w : Window, w.Legal → s.granted = w.config →
    s.Copies (Spares T w) L ∧ Runs.Along (step L) (Keeps (Spares T w) L) s₁ span

section
variable [LawfulCore H] {T cause : Word} {span : List Event} {s₁ s₂ : System H}

theorem Absence.inPlace_minimal {w v : Window} (hk : s.Kept (Spares T w) L)
    (ht : Absence L T cause span s s₁ s₂ s')
    (hc : Runs.Along (step L) (Keeps (Spares T w) L) s₁ span) (hw : w.Legal) (hv : v.Legal)
    (hg : s.granted = w.config) (hcfg : (s₂.head T).windowCfg = v.config) (hbase : v.base = w.base)
    (hsize : v.size ≤ w.size) : Retargeted L s cause s' := by
  have ha := hk.holds.active ht.mode w hw hg
  have ha' := ht.windowed hk.wf hv hcfg
  refine ⟨ht.headResumed hk.wf, fun r hr => ?_⟩
  rw [ha'] at hr
  have hfile : w.base + r.val < 64 := by
    have := hw.inside
    omega
  have hpw := Window.phys_of_lt (w := w) (by omega) hfile
  have hpv : v.phys r = w.phys r := by
    rw [hpw, Window.phys_of_lt hr (by rw [hbase]; exact hfile)]
    simp only [hbase]
  rw [Machine.x, Machine.x, reg_eq, reg_eq, ha, ha', hpv, hpw]
  simp only [ht.cells hk hc hw hpw]

theorem Absence.inPlace_full [StagesZeroAsKernel H] (hw : s.Wf L) (hk : s.m.Kernel)
    (hflag : s.m.mem (L.addr .portCurrentTaskWindowBase) = 0)
    (ht : Absence L T cause span s s₁ s₂ s') (hcfg : (s₂.head T).windowCfg = 0)
    (hscratch : ScratchAgrees L s s₂) (hglob : ∀ r, Global r → s₂.m.x r = s.m.x r) :
    Retargeted L s cause s' := by
  refine ⟨ht.headResumed hw, fun r _ => ?_⟩
  by_cases hr : Global r
  · exact (ht.globals hw hcfg hr).trans (hglob r hr)
  · exact (ht.full hw hk hflag hcfg hr).trans (afterFull_eq_iff.mpr hscratch r hr)

/-- Whatever is called on a task while it is switched out, its registers are there again when
the window at the dispatch is one they already are in. -/
theorem retargeted_of_inPlace [StagesZeroAsKernel H] {s₀ : System H} (hb : s₀.Boot L)
    {es : List Event} (hc : Runs.Along (step L) (StartsConfigured L) s₀ es)
    (hr : Runs.run (step L) s₀ es = some s) (ht : Absence L T cause span s s₁ s₂ s')
    (hspared : Spared L T s s₁ span) (hin : InPlace L T s s₂) : Retargeted L s cause s' := by
  have hkeeps : Runs.Along (step L) (Keeps (fun _ _ => True) L) s₀ es :=
    hc.mono fun _ e h => ⟨follows_true e, h⟩
  have hk := run_kept (fun _ => trivial) hb.kept hkeeps hr
  cases hin with
  | full legacy cfg scratch globals =>
    have hkernel := run_legacyInKernel hb hr ht.mode legacy
    exact ht.inPlace_full hk.wf hkernel (hk.flagged.legacy ht.mode legacy) cfg scratch globals
  | minimal w v wlegal vlegal granted cfg base size =>
    obtain ⟨hcopies, hspan⟩ := hspared w wlegal granted
    exact ht.inPlace_minimal ⟨hk.wf, hk.flagged, hk.holds, hcopies⟩ hspan wlegal vlegal granted
      cfg base size

end

/-- The task of `soloRun`, moved to another window and back to half of its own. -/
theorem soloRun_retargeted :
    ∃ s s₁ s₂ s' : System Cva6.ZeroSafe,
      Runs.run (step smallImage) (small Cva6.ZeroSafe.reset) (soloRun 0x00100020) = some s ∧
      Absence smallImage 0x1000 11 [.setWindow 0x1000 48 16, .setWindow 0x1000 32 8] s s₁ s₂ s' ∧
      Retargeted smallImage s 11 s' := by
  have hfacts : (Runs.run (step smallImage) (small Cva6.ZeroSafe.reset) (soloRun 0x00100020)).map
      (fun s => (s.current smallImage, s.granted, (Runs.run (step smallImage) s
        [.trap 11, .setWindow 0x1000 48 16, .setWindow 0x1000 32 8]).map System.mode)) =
      some (0x1000, 0x00100020, some .handler) := by decide +kernel
  obtain ⟨s, hs, hf⟩ := Option.map_eq_some_iff.mp hfacts
  simp only [Prod.mk.injEq] at hf
  obtain ⟨hcur, hg, hspan⟩ := hf
  obtain ⟨s₂, hrun, hm₂⟩ := Option.map_eq_some_iff.mp hspan
  obtain ⟨s₁, h₁, hrun⟩ := Runs.run_cons.mp hrun
  have hb : (small Cva6.ZeroSafe.reset).Boot smallImage := boot_small (by decide)
  have hkeeps : Runs.Along (step smallImage) (Keeps soloAssignment.Own smallImage)
      (small Cva6.ZeroSafe.reset) (soloRun 0x00100020) := by decide +kernel
  have hk := run_kept Assignment.own_zero hb.kept hkeeps hs
  obtain ⟨s', habs⟩ := absence_in_handler hk.wf h₁ hrun (by simp [Event.enters]) hm₂
  rw [hcur] at habs
  refine ⟨s, s₁, s₂, s', hs, habs, retargeted_of_inPlace hb (hkeeps.mono fun _ _ => And.right) hs
    habs ?_ ?_⟩
  · intro w hw hgw
    cases Window.config_inj (b := ⟨32, 16⟩) hw (by decide) (hgw.symm.trans hg)
    refine ⟨hk.copies.mono fun _ _ => Assignment.Own.spares rfl, ?_⟩
    have hcall (u : System Cva6.ZeroSafe) (b z : Word) :
        StartsConfigured smallImage u (.setWindow 0x1000 b z) := by
      intro he
      cases he
    exact ⟨⟨fun _ => Or.inl rfl, hcall _ _ _⟩, fun _ _ => ⟨⟨fun _ => Or.inl rfl, hcall _ _ _⟩,
      fun _ _ => trivial⟩⟩
  · -- the second call is the one the dispatch finds in the frame
    obtain ⟨t, ht, hrun⟩ := Runs.run_cons.mp hrun
    obtain ⟨u, hu, hend⟩ := Runs.run_cons.mp hrun
    cases hend
    have hwt := step_wf (step_wf hk.wf h₁) ht
    rcases step_setWindow hu with ⟨h0, -⟩ | ha
    · exact absurd h0 (by decide)
    · exact .minimal ⟨32, 16⟩ ⟨32, 8⟩ (by decide) (by decide) hg (ha.windowCfg hwt) rfl (by decide)

/-- The task `0x1000`, still without a window, when it has put 9 into `s0`. -/
def unwindowedRun : List Event :=
  [.create 0x1000 0x2F00 0x8000 0, .switch 0x1000, .start, .reg 8 9]

/-- Given cells 32 to 47 while it is switched out, it reads its `s0` as 0. -/
theorem unwindowedRun_lost :
    ∃ s s₁ s₂ s' : System Cva6.ZeroSafe,
      Runs.run (step smallImage) (small Cva6.ZeroSafe.reset) unwindowedRun = some s ∧
      Absence smallImage 0x1000 11 [.setWindow 0x1000 32 16] s s₁ s₂ s' ∧
      Spared smallImage 0x1000 s s₁ [.setWindow 0x1000 32 16] ∧
        ¬ Retargeted smallImage s 11 s' := by
  have hfacts : (Runs.run (step smallImage) (small Cva6.ZeroSafe.reset) unwindowedRun).map
      (fun s => (s.current smallImage, s.granted, s.m.x 8, cell s.m.core 40,
        (Runs.run (step smallImage) s [.trap 11, .setWindow 0x1000 32 16]).map System.mode)) =
      some (0x1000, 0, 9, 0, some .handler) := by decide +kernel
  obtain ⟨s, hs, hf⟩ := Option.map_eq_some_iff.mp hfacts
  simp only [Prod.mk.injEq] at hf
  obtain ⟨hcur, hg, hx, hcell, hspan⟩ := hf
  obtain ⟨s₂, hrun, hm₂⟩ := Option.map_eq_some_iff.mp hspan
  obtain ⟨s₁, h₁, hrun⟩ := Runs.run_cons.mp hrun
  have hb : (small Cva6.ZeroSafe.reset).Boot smallImage := boot_small (by decide)
  have hw := run_wf hb.wf hs
  have hw₁ := step_wf hw h₁
  obtain ⟨s', habs⟩ := absence_in_handler hw h₁ hrun (by simp [Event.enters]) hm₂
  rw [hcur] at habs
  obtain ⟨t, hcall, hend⟩ := Runs.run_cons.mp hrun
  cases hend
  refine ⟨s, s₁, s₂, s', hs, habs, ?_, fun hres => ?_⟩
  · intro w hl hgw
    exact absurd (hgw.symm.trans hg) hl.config_ne_zero
  · have hactive : active s'.m.core = ⟨32, 16⟩ := by
      rcases step_setWindow hcall with ⟨h0, -⟩ | ha
      · exact absurd h0 (by decide)
      · exact habs.windowed hw (by decide) (ha.windowCfg hw₁)
    have hkeep : cell s'.m.core 40 = 0 := by
      rw [step_cell_high (habs.parked hw).1 habs.dispatch (by decide) (by intro r v he; cases he),
        step_cell_high hw₁ hcall (by decide) (by intro r v he; cases he),
        step_cell_high hw h₁ (by decide) (by intro r v he; cases he), hcell]
    have hsame := hres.gprs 8 (by rw [hactive]; decide)
    have hread : s'.m.x 8 = cell s'.m.core 40 := by
      rw [Machine.x, reg_eq, hactive]
      rfl
    rw [hread, hkeep, hx] at hsame
    exact absurd hsame (by decide)

end RegisterWindows.System
