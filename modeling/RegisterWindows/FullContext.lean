import RegisterWindows.Spike.Processor
import RegisterWindows.Trip

namespace RegisterWindows.System
open Machine Port WindowedCore LawfulCore RegisterWindows.Core

variable {H : Type} [WindowedCore H] {L : Image} {s s' : System H}

section
variable [LawfulCore H]

/-- What a full save and restore makes of a register: five of them are not restored. -/
def afterFull (L : Image) (m m₂ : Machine H) (r : Reg) : Word :=
  if r = t0 then 0
  else if r = t2 then 0
  else if r = t4 then pushed (m.x sp)
  else if r = t5 then L.addr .portWindowKernelStageCount
  else if r = t6 then m₂.mem (L.addr .portWindowKernelStageCount) + 1
  else m.x r

theorem exists_gpr : ∀ r : Reg, r ≠ 0 → r ≠ 2 → ¬ Global r →
    ∃ g ∈ lowGprs ++ highGprs, g.1 = r := by decide

theorem gpr_slot : ∀ {g}, g ∈ lowGprs ++ highGprs → g.2 < 33 ∧ g.2 ≠ portWindowCfgOffset := by
  decide

section
variable [StagesZeroAsKernel H] {T cause : Word} {span : List Event} {s₁ s₂ : System H}

theorem Absence.kernel (hw : s.Wf L) (ht : Absence L T cause span s s₁ s₂ s')
    (hcfg : (s₂.head T).windowCfg = 0) :
    s'.m.Kernel ∧ ∀ r, s'.m.x r = (portcontextRestoreContext L s₂.m).x r := by
  obtain ⟨hw₂, -⟩ := ht.parked hw
  have hd := step_dispatch hw₂ ht.dispatch
  have hstaged := hd.restored.staged
  rw [ht.back] at hstaged
  have hk : (portcontextRestoreContext L s₂.m).execMret.Kernel :=
    StagesZeroAsKernel.active_mret_zero _ (hstaged.trans hcfg)
  rw [hd.eq]
  exact ⟨hk, hd.run.kernel.x_execMret hk⟩

theorem Absence.full (hw : s.Wf L) (hk : s.m.Kernel)
    (hflag : s.m.mem (L.addr .portCurrentTaskWindowBase) = 0)
    (ht : Absence L T cause span s s₁ s₂ s') (hcfg : (s₂.head T).windowCfg = 0) {r : Reg}
    (hr : ¬ Global r) : s'.m.x r = afterFull L s.m s₂.m r := by
  obtain ⟨htr, -⟩ := ht.left hw fun _ => True
  obtain ⟨hw₂, hp⟩ := ht.parked hw
  have hres := (step_dispatch hw₂ ht.dispatch).restored
  have hsp : s.nextFrame = pushed (s.m.x sp) := congrArg pushed (hk.x_takeTrap cause sp)
  rw [ht.back, hp.frame] at hres
  rw [System.head, hp.frame] at hcfg
  rw [(ht.kernel hw (by rw [System.head, hp.frame]; exact hcfg)).2]
  by_cases h0 : r = 0
  · subst h0
    simp [afterFull]
  by_cases h2 : r = 2
  · subst h2
    have hback := hres.sp
    rw [hsp, pushed_add] at hback
    simpa [afterFull] using hback
  · obtain ⟨g, hg, rfl⟩ := exists_gpr r h0 h2 hr
    have hword : s₂.m.mem (s.nextFrame + slot g.2) = if g.1 = t0 then 0 else s.m.x g.1 := by
      rw [hp.words g.2 (gpr_slot hg).1 (gpr_slot hg).2, ← hk.x_takeTrap cause]
      exact htr.saved.gprs hflag g hg
    have hcfg' : s₂.m.mem (s.nextFrame + slot portWindowCfgOffset) = 0 := hcfg
    rw [hres.gprs (Or.inr hcfg) g hg, hword, loaded, hcfg', if_pos rfl, hsp]
    by_cases h5 : g.1 = 5
    · simp [afterFull, h5]
    · simp [afterFull, h5]

/-- `gp` and `tp` are those of whoever ran last. -/
theorem Absence.globals (hw : s.Wf L) (ht : Absence L T cause span s s₁ s₂ s')
    (hcfg : (s₂.head T).windowCfg = 0) {r : Reg} (hr : Global r) : s'.m.x r = s₂.m.x r := by
  rw [(ht.kernel hw hcfg).2]
  exact (step_dispatch (ht.parked hw).1 ht.dispatch).restored.globals r hr

omit [StagesZeroAsKernel H] in
theorem Trip.windowCfg_zero (hw : s.Wf L)
    (hflag : s.m.mem (L.addr .portCurrentTaskWindowBase) = 0)
    (ht : Trip L T cause span s s₁ s₂ s') : (s₂.head T).windowCfg = 0 :=
  (ht.windowCfg hw).trans (if_pos hflag)

end

/-- What the task was executing in is there again: `x1`, `sp` and `x5` .. `x31`, and the
parts both layouts keep. -/
structure Resumed (L : Image) (s : System H) (cause : Word) (s' : System H) : Prop
    extends HeadResumed L s cause s' where
  gprs : ∀ r : Reg, ¬ Global r → s'.m.x r = s.m.x r

/-- The five scratch registers hold by chance what the port's own code leaves in them. -/
structure ScratchAgrees (L : Image) (s s₂ : System H) : Prop where
  x5 : s.m.x t0 = 0
  x7 : s.m.x t2 = 0
  x29 : s.m.x t4 = pushed (s.m.x sp)
  x30 : s.m.x t5 = L.addr .portWindowKernelStageCount
  x31 : s.m.x t6 = s₂.m.mem (L.addr .portWindowKernelStageCount) + 1

instance (L : Image) (s s₂ : System H) : Decidable (ScratchAgrees L s s₂) :=
  decidable_of_iff (s.m.x t0 = 0 ∧ s.m.x t2 = 0 ∧ s.m.x t4 = pushed (s.m.x sp) ∧
      s.m.x t5 = L.addr .portWindowKernelStageCount ∧
      s.m.x t6 = s₂.m.mem (L.addr .portWindowKernelStageCount) + 1)
    ⟨fun ⟨h5, h7, h29, h30, h31⟩ => ⟨h5, h7, h29, h30, h31⟩,
      fun h => ⟨h.x5, h.x7, h.x29, h.x30, h.x31⟩⟩

omit [LawfulCore H] in
theorem afterFull_eq_iff {s₂ : System H} :
    (∀ r : Reg, ¬ Global r → afterFull L s.m s₂.m r = s.m.x r) ↔ ScratchAgrees L s s₂ := by
  constructor
  · intro h
    exact ⟨(h t0 (by decide)).symm, (h t2 (by decide)).symm, (h t4 (by decide)).symm,
      (h t5 (by decide)).symm, (h t6 (by decide)).symm⟩
  · intro h r _
    unfold afterFull
    split
    · rename_i hr
      rw [hr, h.x5]
    split
    · rename_i hr
      rw [hr, h.x7]
    split
    · rename_i hr
      rw [hr, h.x29]
    split
    · rename_i hr
      rw [hr, h.x30]
    split
    · rename_i hr
      rw [hr, h.x31]
    · rfl

/-- A task without a window gets its whole context back exactly when five of its registers
already held what the save and restore code puts there. -/
theorem resumed_iff [StagesZeroAsKernel H] {s₀ : System H} (hb : s₀.Boot L) {es : List Event}
    (hr : Runs.run (step L) s₀ es = some s) {T cause : Word} {span : List Event} {s₁ s₂ : System H}
    (ht : Trip L T cause span s s₁ s₂ s') (h0 : s.granted = 0) :
    Resumed L s cause s' ↔ ScratchAgrees L s s₂ := by
  obtain ⟨hw, hf⟩ := run_flagged hb hr
  have hk : s.m.Kernel := run_legacyInKernel hb hr ht.mode h0
  have hflag := hf.legacy ht.mode h0
  have hx : ∀ r : Reg, ¬ Global r → s'.m.x r = afterFull L s.m s₂.m r :=
    fun r hr => ht.full hw hk hflag (ht.windowCfg_zero hw hflag) hr
  rw [← afterFull_eq_iff]
  constructor
  · intro h r hr
    exact (hx r hr).symm.trans (h.gprs r hr)
  · intro h
    exact ⟨ht.headResumed hw, fun r hr => (hx r hr).trans (h r hr)⟩

/-- The task `0x1000` on Spike, first to start, when it has put 9 into `t0`. -/
def legacyRun : List Event := [.create 0x1000 0x2F00 0x8000 0, .switch 0x1000, .start, .reg t0 9]

/-- A yield at that point comes back with `t0` changed. -/
theorem legacyRun_not_resumed :
    ∃ s s₁ s' : System Spike.Processor,
      Runs.run (step smallImage) (small Spike.Processor.reset) legacyRun = some s ∧
      Trip smallImage 0x1000 11 [] s s₁ s₁ s' ∧ s.granted = 0 ∧ ¬ Resumed smallImage s 11 s' := by
  obtain ⟨s, s₁, s', hs, ht, hf⟩ := trip_small Spike.Processor.reset legacyRun 11 (T := 0x1000)
    (f := fun s => (s.granted, s.m.x t0)) (v := (0, 9)) (by decide) (by decide +kernel)
  obtain ⟨h0, hx⟩ := Prod.mk.inj hf
  have hb : (small Spike.Processor.reset).Boot smallImage := boot_small (by decide)
  obtain ⟨hw, hfl⟩ := run_flagged hb hs
  refine ⟨s, s₁, s', hs, ht, h0, fun hres => ?_⟩
  have hk : s.m.Kernel := run_legacyInKernel hb hs ht.mode h0
  have hflag := hfl.legacy ht.mode h0
  have hlost := ht.full hw hk hflag (ht.windowCfg_zero hw hflag) (r := t0) (by decide)
  rw [hres.gprs t0 (by decide), hx] at hlost
  exact absurd (hlost.trans (if_pos rfl)) (by decide)

/-- The same task with the values in its registers that the port would leave there, and a
second legacy task. -/
def luckyRun : List Event :=
  [.create 0x1000 0x2F00 0x8000 0, .create 0x1100 0x3F00 0x8000 0, .switch 0x1000, .start,
   .reg t0 0, .reg t2 0, .reg t4 (pushed 0x2F00),
   .reg t5 (smallImage.addr .portWindowKernelStageCount), .reg t6 2]

/-- The dispatch of the second task is the first that counts. -/
theorem luckyRun_resumed :
    ∃ s s₁ s₂ s' : System Spike.Processor,
      Runs.run (step smallImage) (small Spike.Processor.reset) luckyRun = some s ∧
      Trip smallImage 0x1000 11 (visitBy 0x1100 0x1000 t0 4) s s₁ s₂ s' ∧
      Resumed smallImage s 11 s' := by
  obtain ⟨s, s₁, s₂, s', hs, ht, h0, hagrees⟩ := trip_visited Spike.Processor.reset luckyRun 11
    (visitBy 0x1100 0x1000 t0 4) (T := 0x1000)
    (P := fun s s₂ => s.granted = 0 ∧ ScratchAgrees smallImage s s₂) (by decide) (by decide +kernel)
  have hb : (small Spike.Processor.reset).Boot smallImage := boot_small (by decide)
  exact ⟨s, s₁, s₂, s', hs, ht, (resumed_iff hb hs ht h0).mpr hagrees⟩

end

end RegisterWindows.System
