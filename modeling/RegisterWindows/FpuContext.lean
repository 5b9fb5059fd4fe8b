import RegisterWindows.MinimalContext
import RegisterWindows.FpuSystem

namespace RegisterWindows
open Machine Port WindowedCore LawfulCore

/-- What 0 staged selects does not depend on the rest of the core. -/
class ZeroUniform (H : Type) [WindowedCore H] : Prop where
  active_mret_zero : ∀ h h' : H, Core.staged h = 0 → Core.staged h' = 0 →
    active (mret h) = active (mret h')

instance {H : Type} [WindowedCore H] [StagesZeroAsKernel H] : ZeroUniform H where
  active_mret_zero h h' h0 h0' :=
    (StagesZeroAsKernel.active_mret_zero h h0).trans
      (StagesZeroAsKernel.active_mret_zero h' h0').symm

instance : ZeroUniform Cva6.Regs where
  active_mret_zero _ _ h0 h0' := congrArg Cva6.decode (h0.trans h0'.symm)

/-- A task without a window, or with one of its own. -/
inductive TaskKind where
  | legacy
  | windowed (w : Window)

namespace TaskKind

variable {H : Type} [WindowedCore H]

/-- Such a task runs, in the window that it was given. -/
def Runs (L : Image) (s : FpuSystem H) : TaskKind → Prop
  | .legacy => s.m.Kernel ∧ s.m.mem (L.addr .portCurrentTaskWindowBase) = 0 ∧ s.granted = 0
  | .windowed w => w.Legal ∧ active s.m.core = w ∧
      s.m.mem (L.addr .portCurrentTaskWindowBase) ≠ 0 ∧ s.granted = w.config

/-- The registers it has; `gp` and `tp` are the kernel's. -/
def Names : TaskKind → Reg → Prop
  | .legacy, r => ¬ Global r
  | .windowed w, r => r.val < w.size

/-- The words that the trap handler means by the context. Of a task with a window it writes four
only. -/
def contextWords : TaskKind → List Nat
  | .legacy => List.range (portFpuRegCount + 33)
  | .windowed _ => [0, 1, 31, 32]

end TaskKind

namespace FpuSystem
open RegisterWindows.System

variable {H : Type} [WindowedCore H] {L : Image}

/-- The floating point registers, `fcsr`, the registers of the task and its window are as they
were. -/
structure Resumed (k : TaskKind) (s s' : FpuSystem H) : Prop where
  f : s'.f = s.f
  fcsr : s'.fcsr = s.fcsr
  window : active s'.m.core = active s.m.core
  windowCfg : s'.granted = s.granted
  gprs : ∀ r : Reg, k.Names r → s'.m.x r = s.m.x r

/-- Since the trap, nobody has written the context. -/
def Intact (L : Image) (cause : Word) (s s₁ s₂ : FpuSystem H) (k : TaskKind) : Prop :=
  ∀ n ∈ k.contextWords,
    s₂.m.mem (s.trapFrame L cause + slot n) = s₁.m.mem (s.trapFrame L cause + slot n)

/-- Two words of the FPU context are overwritten with `window_cfg` and `context_type`. -/
def Overlapped (i : FReg) : Prop :=
  portFpuRegSlot i = portWindowCfgOffset ∨ portFpuRegSlot i = portContextTypeOffset

instance (i : FReg) : Decidable (Overlapped i) := inferInstanceAs (Decidable (_ ∨ _))

/-- Without a window: the overlapped registers are 0 anyway, the stack word two below `sp`, which
is staged, is 0 too and stands for the kernel window, and five registers hold what the restore code
leaves in them. -/
structure LegacyHeld (L : Image) (s s₂ : FpuSystem H) : Prop where
  fs : ∀ i, Overlapped i → s.f i = 0
  stale : s.m.mem (pushed (s.m.x sp) + slot portWindowCfgOffset) = 0
  kernelWindow : ∀ h : H, Core.staged h = 0 → active (mret h) = Window.kernel
  scratch : ScratchAgrees L s.toSystem s₂.toSystem

/-- With a window, nothing is saved but the resume address and `mstatus`: the words above physical
register 2 happen to hold the context, and nobody has written the window. -/
structure WindowedHeld (w : Window) (s s₂ : FpuSystem H) : Prop where
  fs : ∀ i, s.f i = if Overlapped i then 0
    else s₂.m.mem (cell s.m.core 2 + slot (portFpuRegSlot i))
  fcsr : s.fcsr = (s₂.m.mem (cell s.m.core 2 + slot (portFpuRegSlot 32))).setWidth 8
  windowCfg : s₂.m.mem (cell s.m.core 2 + slot (portFpuRegCount + portWindowCfgOffset)) = w.config
  cells : ∀ r : Reg, r ≠ 0 → r.val < w.size → ∀ p, w.phys r = some p →
    cell s₂.m.core p = cell s.m.core p

def Held (L : Image) (s s₂ : FpuSystem H) : TaskKind → Prop
  | .legacy => LegacyHeld L s s₂
  | .windowed w => WindowedHeld w s s₂

structure Spared (L : Image) (cause : Word) (s s₁ s₂ : FpuSystem H) (k : TaskKind) : Prop where
  intact : Intact L cause s s₁ s₂ k
  held : Held L s s₂ k

/-- The dispatch finds a context that the trap has written with the FPU dirty. -/
structure Kept (L : Image) (cause : Word) (s s₁ s₂ s' : FpuSystem H) : Prop where
  saved : Fpu.Saved L (s.trapped cause) s₁.hart
  restored : Fpu.Restored L (s.trapFrame L cause) s₂.hart
    (Fpu.portcontextRestoreContext L s₂.hart)
  overlapped : s₂.m.mem (s.trapFrame L cause + slot portWindowCfgOffset) = 0 ∧
    s₂.m.mem (s.trapFrame L cause + slot portContextTypeOffset) = 0
  dispatched : Dispatched L s₂ s'

section
variable {T cause : Word} {span : List FpuEvent} {s s₁ s₂ s' : FpuSystem H}

theorem Trip.kept [LawfulCore H] (hw : s.Wf L) (ht : Trip L T cause span s s₁ s₂ s')
    (hd : Dirty s.m.mstatus) {k : TaskKind} (hi : Intact L cause s s₁ s₂ k) :
    Kept L cause s s₁ s₂ s' := by
  have hhead : ∀ n ∈ [1, 31, 32], n ∈ k.contextWords := by
    cases k with
    | legacy => simp [TaskKind.contextWords, portFpuRegCount]
    | windowed w => simp [TaskKind.contextWords]
  have htr := step_trap hw ht.trap
  have hdirty : Dirty (s.trapped cause).mstatus := dirty_trapStatus hd
  have hfree : ∀ n < portFpuRegCount + 33, (L.region (s.trapFrame L cause + slot n)).Free :=
    fun n hn => htr.free n (by rwa [Fpu.contextWords_dirty hdirty])
  obtain ⟨hw₂, hp⟩ := ht.parked hw
  have hdis := step_dispatch hw₂ ht.dispatch
  have hframe : s₂.m.mem (s₂.current L) = s.trapFrame L cause := by
    rw [ht.back]
    exact hp.frame
  have hcfg := (hi 31 (hhead 31 (by simp))).trans htr.saved.windowCfg
  have htype := (hi 32 (hhead 32 (by simp))).trans htr.saved.contextType
  refine ⟨htr.saved, ?_, ⟨hcfg, htype⟩, hdis⟩
  refine Fpu.portcontextRestoreContext_spec L (hw₂.kernel (by rw [hdis.was]; decide)) hframe
    hw₂.nestingPtr hfree htype ?_
  rw [show s₂.hart.mem (s.trapFrame L cause + slot 1) = _ from
    (hi 1 (hhead 1 (by simp))).trans htr.saved.status]
  exact hdirty

theorem Kept.f_eq (hc : Kept L cause s s₁ s₂ s') (i : FReg) :
    s'.f i = s₂.m.mem (s.trapFrame L cause + slot (portFpuRegSlot i)) := by
  rw [hc.dispatched.hart.2.1, hc.restored.fs i]
  rfl

theorem Kept.fcsr_eq (hc : Kept L cause s s₁ s₂ s') :
    s'.fcsr = (s₂.m.mem (s.trapFrame L cause + slot (portFpuRegSlot 32))).setWidth 8 := by
  rw [hc.dispatched.hart.2.2, hc.restored.fcsr]
  rfl

theorem Kept.f_overlapped (hc : Kept L cause s s₁ s₂ s') {i : FReg} (ho : Overlapped i) :
    s'.f i = 0 := by
  rw [hc.f_eq]
  rcases ho with h31 | h32
  · rw [h31]
    exact hc.overlapped.1
  · rw [h32]
    exact hc.overlapped.2

variable [LawfulCore H]

section
variable (hk : TaskKind.legacy.Runs L s) (hd : Dirty s.m.mstatus) (hc : Kept L cause s s₁ s₂ s')
  (hi : Intact L cause s s₁ s₂ .legacy)
include hk hd

theorem legacy_trapFrame : s.trapFrame L cause = pushed (s.m.x sp) + -portFpuContextSize := by
  have hflag : (s.trapped cause).mem (L.addr .portCurrentTaskWindowBase) = 0 := hk.2.1
  have hdirty : Dirty (s.trapped cause).mstatus := dirty_trapStatus hd
  have hsp : (s.trapped cause).x sp = s.m.x sp := hk.1.x_takeTrap cause sp
  rw [trapFrame, Fpu.savedFrame, if_neg (not_not_intro hflag), if_pos hdirty, hsp]

include hc

theorem Kept.legacy_saved : Fpu.SavedDirty L (s.m.x sp) (s.trapped cause) s₁.hart := by
  have hsp : (s.trapped cause).x sp = s.m.x sp := hk.1.x_takeTrap cause sp
  have hsaved := hc.saved.dirty hk.2.1 (dirty_trapStatus hd)
  rwa [hsp] at hsaved

theorem Kept.legacy_restored : Fpu.Restored L (pushed (s.m.x sp) + -portFpuContextSize) s₂.hart
    (Fpu.portcontextRestoreContext L s₂.hart) := by
  rw [← legacy_trapFrame hk hd]
  exact hc.restored

include hi

omit hc in
theorem legacy_word {n : Nat} (hn : n < 33) :
    s₂.m.mem (pushed (s.m.x sp) + slot n) = s₁.m.mem (pushed (s.m.x sp) + slot n) := by
  rw [Fpu.fpuContext_add, ← legacy_trapFrame hk hd]
  exact hi _ (List.mem_range.mpr (by omega))

theorem Kept.legacy_stale : s₂.m.mem (pushed (s.m.x sp) + slot portWindowCfgOffset) =
    s.m.mem (pushed (s.m.x sp) + slot portWindowCfgOffset) :=
  (legacy_word hk hd hi (by decide)).trans (hc.legacy_saved hk hd).stale

theorem Kept.legacy_granted :
    s'.granted = s.m.mem (pushed (s.m.x sp) + slot portWindowCfgOffset) := by
  rw [hc.dispatched.granted, (hc.legacy_restored hk hd).staged, Fpu.popFpuContext]
  exact hc.legacy_stale hk hd hi

theorem Kept.legacy_f (i : FReg) : s'.f i = if Overlapped i then 0 else s.f i := by
  by_cases ho : Overlapped i
  · rw [if_pos ho, hc.f_overlapped ho]
  · have hlt : portFpuRegSlot i < portFpuRegCount + 33 := by
      simp only [portFpuRegSlot, portFpuRegCount]
      omega
    rw [if_neg ho, hc.f_eq, hi _ (List.mem_range.mpr hlt), legacy_trapFrame hk hd]
    exact (hc.legacy_saved hk hd).fs i (fun h31 => ho (Or.inl h31)) fun h32 => ho (Or.inr h32)

theorem Kept.legacy_fcsr : s'.fcsr = s.fcsr := by
  rw [hc.fcsr_eq, hi _ (List.mem_range.mpr (by decide)), legacy_trapFrame hk hd,
    show s₁.m.mem _ = _ from (hc.legacy_saved hk hd).fcsr,
    BitVec.setWidth_setWidth_of_le _ (by decide)]
  exact BitVec.setWidth_eq _

theorem Kept.legacy_x (h0 : s.m.mem (pushed (s.m.x sp) + slot portWindowCfgOffset) = 0)
    (hk' : s'.m.Kernel) {r : Reg} (hr : ¬ Global r) : s'.m.x r = afterFull L s.m s₂.m r := by
  have hres := hc.legacy_restored hk hd
  have hx : s'.m.x r = (Fpu.portcontextRestoreContext L s₂.hart).x r := by
    rw [hc.dispatched.hart.1] at hk' ⊢
    exact hc.dispatched.run.kernel.x_execMret hk' r
  rw [hx]
  by_cases hz : r = 0
  · subst hz
    simp [afterFull]
  by_cases h2 : r = 2
  · subst h2
    have hback := hres.sp
    rw [Fpu.popFpuContext, pushed_add] at hback
    simpa [afterFull] using hback
  · obtain ⟨g, hg, rfl⟩ := exists_gpr r hz h2 hr
    have hvalue : s₂.m.mem (pushed (s.m.x sp) + slot g.2) = if g.1 = t0 then 0 else s.m.x g.1 := by
      refine (legacy_word hk hd hi (gpr_slot hg).1).trans
        (((hc.legacy_saved hk hd).gprs g hg).trans ?_)
      rw [show (s.trapped cause).x g.1 = s.m.x g.1 from hk.1.x_takeTrap cause g.1]
    rw [hres.gprs g hg, Fpu.popFpuContext, show s₂.hart.mem _ = _ from hvalue, loaded,
      show s₂.hart.mem (pushed (s.m.x sp) + slot portWindowCfgOffset) = 0 from
        (hc.legacy_stale hk hd hi).trans h0, if_pos rfl]
    by_cases h5 : g.1 = 5
    · simp [afterFull, h5]
    · simp only [afterFull, h5, if_false]
      rfl

end

theorem legacy_iff [ZeroUniform H] (hk : TaskKind.legacy.Runs L s) (hd : Dirty s.m.mstatus)
    (hc : Kept L cause s s₁ s₂ s') (hi : Intact L cause s s₁ s₂ .legacy) :
    Resumed .legacy s s' ↔ LegacyHeld L s s₂ := by
  have hgranted := hc.legacy_granted hk hd hi
  have hf := hc.legacy_f hk hd hi
  have hkernel := hk.1
  have h0 := hk.2.2
  have hstaged := hc.dispatched.granted.symm.trans hgranted
  have hactive : active s'.m.core =
      active (mret (Fpu.portcontextRestoreContext L s₂.hart).core) := by
    rw [hc.dispatched.hart.1]
    rfl
  constructor
  · intro hres
    have hstale := hgranted.symm.trans (hres.windowCfg.trans h0)
    have hkernel' : s'.m.Kernel := hres.window.trans hkernel
    refine ⟨fun i ho => ?_, hstale, fun h hz => ?_, afterFull_eq_iff.mp fun r hr => ?_⟩
    · rw [← hres.f, hf, if_pos ho]
    · rw [ZeroUniform.active_mret_zero h _ hz (hstaged.trans hstale), ← hactive]
      exact hkernel'
    · exact (hc.legacy_x hk hd hi hstale hkernel' hr).symm.trans (hres.gprs r hr)
  · intro hs
    have hkernel' : s'.m.Kernel := hactive.trans (hs.kernelWindow _ (hstaged.trans hs.stale))
    refine ⟨funext fun i => ?_, hc.legacy_fcsr hk hd hi, hkernel'.trans hkernel.symm,
      hgranted.trans (hs.stale.trans h0.symm), fun r hr => ?_⟩
    · rw [hf]
      by_cases ho : Overlapped i
      · rw [if_pos ho, hs.fs i ho]
      · rw [if_neg ho]
    · exact (hc.legacy_x hk hd hi hs.stale hkernel' hr).trans (afterFull_eq_iff.mpr hs.scratch r hr)

theorem Kept.cell_high (hc : Kept L cause s s₁ s₂ s') {p : PhysReg} (hp : 32 ≤ p.val) :
    cell s'.m.core p = cell s₂.m.core p := by
  rw [hc.dispatched.hart.1]
  exact (congrFun (cell_mret _) p).trans (hc.dispatched.run.high p hp)

theorem windowed_trapFrame {w : Window} (hk : (TaskKind.windowed w).Runs L s) :
    s.trapFrame L cause = cell s.m.core 2 := by
  have hkernel : (s.trapped cause).Kernel := active_trap s.m.core
  have hsp : (s.trapped cause).x sp = cell s.m.core 2 :=
    (hkernel.x_eq (by decide : sp ≠ 0)).trans (congrFun (cell_trap s.m.core) 2)
  have hwin : (s.trapped cause).mem (L.addr .portCurrentTaskWindowBase) ≠ 0 := hk.2.2.1
  rw [trapFrame, Fpu.savedFrame, if_pos hwin, hsp]

theorem windowed_iff {w : Window} (hk : (TaskKind.windowed w).Runs L s)
    (hc : Kept L cause s s₁ s₂ s') : Resumed (.windowed w) s s' ↔ WindowedHeld w s s₂ := by
  have hframe : s.trapFrame L cause = cell s.m.core 2 := windowed_trapFrame hk
  have hgranted : s'.granted =
      s₂.m.mem (cell s.m.core 2 + slot (portFpuRegCount + portWindowCfgOffset)) := by
    rw [hc.dispatched.granted, hc.restored.staged, hframe, portFpuContextSize, add_slot]
    rfl
  have hf : ∀ i, s'.f i = if Overlapped i then 0
      else s₂.m.mem (cell s.m.core 2 + slot (portFpuRegSlot i)) := by
    intro i
    by_cases ho : Overlapped i
    · rw [if_pos ho, hc.f_overlapped ho]
    · rw [if_neg ho, hc.f_eq, hframe]
  have hfcsr := hc.fcsr_eq
  rw [hframe] at hfcsr
  obtain ⟨hl, ha, -, hcfg⟩ := hk
  have hactive : s₂.m.mem (cell s.m.core 2 + slot (portFpuRegCount + portWindowCfgOffset)) =
      w.config → active s'.m.core = w := by
    intro h
    rw [hc.dispatched.hart.1]
    exact active_mret _ w hl (hc.dispatched.granted.symm.trans (hgranted.trans h))
  constructor
  · intro hres
    have hword := hgranted.symm.trans (hres.windowCfg.trans hcfg)
    have ha' := hactive hword
    refine ⟨fun i => ?_, hres.fcsr.symm.trans hfcsr, hword, fun r h0 hr p hp => ?_⟩
    · rw [← hf i, hres.f]
    · have hx := hres.gprs r hr
      simp only [Machine.x, reg_eq, if_neg h0, ha, ha', hp] at hx
      rw [← hc.cell_high (hl.phys_high hp)]
      exact hx
  · intro hs
    have ha' := hactive hs.windowCfg
    refine ⟨funext fun i => (hf i).trans (hs.fs i).symm, hfcsr.trans hs.fcsr.symm,
      ha'.trans ha.symm, hgranted.trans (hs.windowCfg.trans hcfg.symm), fun r hr => ?_⟩
    by_cases h0 : r = 0
    · subst h0
      simp
    · simp only [Machine.x, reg_eq, if_neg h0, ha, ha']
      cases hp : w.phys r with
      | none => rfl
      | some p => exact (hc.cell_high (hl.phys_high hp)).trans (hs.cells r h0 hr p hp)

/-- A task whose FPU is dirty when it is interrupted, whoever runs until it is dispatched again,
comes back with its floating point registers, `fcsr`, its own registers and its window, from a
context that nobody has written since, exactly when these held by chance what the port's code
makes of them. -/
theorem fpResumed_iff [ZeroUniform H] {s₀ : FpuSystem H} (hb : s₀.Boot L) {es : List FpuEvent}
    (hr : Runs.run (step L) s₀ es = some s) {k : TaskKind} (hk : k.Runs L s)
    (hd : Dirty s.m.mstatus) (ht : Trip L T cause span s s₁ s₂ s') :
    Resumed k s s' ∧ Intact L cause s s₁ s₂ k ↔ Spared L cause s s₁ s₂ k := by
  have hiff : Intact L cause s s₁ s₂ k → (Resumed k s s' ↔ Held L s s₂ k) := by
    intro hi
    have hc := ht.kept (run_wf (wf_of_boot hb) hr) hd hi
    cases k with
    | legacy => exact legacy_iff hk hd hc hi
    | windowed w => exact windowed_iff hk hc
  constructor
  · rintro ⟨hres, hi⟩
    exact ⟨hi, (hiff hi).mp hres⟩
  · rintro ⟨hi, hh⟩
    exact ⟨(hiff hi).mpr hh, hi⟩

theorem trip_at_once (hw : s.Wf L) (h : step L s (.trap cause) = some s₁) :
    ∃ s', Trip L (s.current L) cause [] s s₁ s₁ s' := by
  have ht := step_trap hw h
  exact ⟨_, ht.was, rfl, h, rfl, trivial, ht.mem_sym hw _, if_pos ht.mode⟩

end

/-- The FPU build before `main`. -/
def small (core : Cva6.Regs) : FpuSystem Cva6.Regs :=
  { toSystem := System.small core, f := fun _ => 0, fcsr := 0 }

/-- The tasks `0x1000` and `0x1100` have cells 32 to 47 and 48 to 63, `0x1200` has no window and
is started first. What lies above the stack of `0x1000` is its context by chance. -/
def matchingRun : List FpuEvent :=
  [.base (.store 0x3004 0x700), .base (.store 0x3078 0x1F), .base (.store 0x30F0 0x00100020),
    .create 0x1000 0x2FF0 0x8000 0 0, .create 0x1100 0x3FF0 0x8100 0 0,
    .create 0x1200 0x4FF0 0x8200 0 0, .base (.setWindow 0x1000 32 16),
    .base (.setWindow 0x1100 48 16), .base (.switch 0x1200), .base .start, .trap 11,
    .base (.switch 0x1000), .dispatch, .base (.reg a0 5), .base (.mstatus mstatusFsDirty),
    .freg 3 0x700, .fcsr 0x1F]

/-- The other windowed task is dispatched, writes registers of both files, and traps. -/
def matchingSpan : List FpuEvent :=
  [.base (.switch 0x1100), .dispatch, .base (.reg a0 9), .base (.mstatus mstatusFsDirty),
    .freg 3 9, .fcsr 0, .trap 11, .base (.switch 0x1000)]

theorem matchingRun_resumed :
    ∃ s s₁ s₂ s' : FpuSystem Cva6.Regs,
      Runs.run (step smallImage) (small Cva6.Regs.reset) matchingRun = some s ∧
      Trip smallImage 0x1000 11 matchingSpan s s₁ s₂ s' ∧ Resumed (.windowed ⟨32, 16⟩) s s' := by
  have hfacts : (Runs.run (step smallImage) (small Cva6.Regs.reset) matchingRun).any (fun s =>
      (step smallImage s (.trap 11)).any fun s₁ =>
      (Runs.run (step smallImage) s₁ matchingSpan).any fun s₂ =>
      decide (s.mode = .task ∧ s.current smallImage = 0x1000 ∧ Dirty s.m.mstatus ∧
        active s.m.core = ⟨32, 16⟩ ∧ s.m.mem (smallImage.addr .portCurrentTaskWindowBase) ≠ 0 ∧
        s.granted = 0x00100020 ∧ cell s.m.core 2 = 0x2FF0 ∧
        Runs.Along (step smallImage) (Away smallImage 0x1000) s₁ matchingSpan ∧
        s₂.mode = .handler ∧ s₂.current smallImage = 0x1000 ∧
        (∀ n ∈ [0, 1, 31, 32], s₂.m.mem (0x2FF0 + slot n) = s₁.m.mem (0x2FF0 + slot n)) ∧
        (∀ i, s.f i = if Overlapped i then 0 else s₂.m.mem (0x2FF0 + slot (portFpuRegSlot i))) ∧
        s.fcsr = (s₂.m.mem (0x2FF0 + slot (portFpuRegSlot 32))).setWidth 8 ∧
        s₂.m.mem (0x2FF0 + slot (portFpuRegCount + portWindowCfgOffset)) = 0x00100020 ∧
        ∀ r : Reg, r ≠ 0 → r.val < 16 → ∀ p, (⟨32, 16⟩ : Window).phys r = some p →
          cell s₂.m.core p = cell s.m.core p)) = true := by
    decide +kernel
  obtain ⟨s, hs, hf⟩ := (Option.any_eq_true _ _).mp hfacts
  obtain ⟨s₁, h₁, hf⟩ := (Option.any_eq_true _ _).mp hf
  obtain ⟨s₂, h₂, hf⟩ := (Option.any_eq_true _ _).mp hf
  obtain ⟨hm, hT, hd, ha, hflag, hg, hsp, haway, hm₂, hT₂, hintact, hfs, hfcsr, hword, hcells⟩ :=
    of_decide_eq_true hf
  have hl : (⟨32, 16⟩ : Window).Legal := by decide
  have hcfg : (0x00100020 : Word) = (⟨32, 16⟩ : Window).config := by decide
  have hk : (TaskKind.windowed ⟨32, 16⟩).Runs smallImage s := ⟨hl, ha, hflag, hg.trans hcfg⟩
  have ht : Trip smallImage 0x1000 11 matchingSpan s s₁ s₂ _ :=
    ⟨hm, hT, h₁, h₂, haway, hT₂, if_pos hm₂⟩
  refine ⟨s, s₁, s₂, _, hs, ht, ((fpResumed_iff (boot_small (by decide)) hs hk hd ht).mpr
    ⟨fun n hn => ?_, ?_⟩).1⟩
  · rw [windowed_trapFrame hk, hsp]
    exact hintact n hn
  · rw [← hsp] at hfs hfcsr hword
    exact ⟨hfs, hfcsr, hword.trans hcfg, hcells⟩

/-- A task without a window that has put 7 into `f29`. -/
def legacyRun : List FpuEvent :=
  [.create 0x1000 0x2FF0 0x8000 0 0, .base (.switch 0x1000), .base .start,
    .base (.mstatus mstatusFsDirty), .freg 29 7]

/-- It comes back with 0 in `f29`. -/
theorem legacyRun_f29 :
    ∃ s s₁ s' : FpuSystem Cva6.Regs,
      Runs.run (step smallImage) (small Cva6.Regs.reset) legacyRun = some s ∧
      TaskKind.legacy.Runs smallImage s ∧ Dirty s.m.mstatus ∧
      Trip smallImage 0x1000 11 [] s s₁ s₁ s' ∧ s.f 29 = 7 ∧ s'.f 29 = 0 ∧
      ¬ Resumed .legacy s s' := by
  have hfacts : (Runs.run (step smallImage) (small Cva6.Regs.reset) legacyRun).any (fun s =>
      decide (s.current smallImage = 0x1000 ∧ (step smallImage s (.trap 11)).isSome = true ∧
        Dirty s.m.mstatus ∧ active s.m.core = Window.kernel ∧
        s.m.mem (smallImage.addr .portCurrentTaskWindowBase) = 0 ∧ s.granted = 0 ∧
        s.f 29 = 7)) = true := by
    decide +kernel
  obtain ⟨s, hs, hf⟩ := (Option.any_eq_true _ _).mp hfacts
  obtain ⟨hT, hsome, hd, ha, hflag, hg, h7⟩ := of_decide_eq_true hf
  obtain ⟨s₁, h₁⟩ := Option.isSome_iff_exists.mp hsome
  have hb : (small Cva6.Regs.reset).Boot smallImage := boot_small (by decide)
  have hw := run_wf (wf_of_boot hb) hs
  obtain ⟨s', ht⟩ := trip_at_once hw h₁
  rw [hT] at ht
  have hk : TaskKind.legacy.Runs smallImage s := ⟨ha, hflag, hg⟩
  have hi : Intact smallImage 11 s s₁ s₁ .legacy := fun _ _ => rfl
  have h0 : s'.f 29 = 0 := by
    rw [(ht.kept hw hd hi).legacy_f hk hd hi, if_pos (by decide)]
  refine ⟨s, s₁, s', hs, hk, hd, ht, h7, h0, fun hres => ?_⟩
  rw [hres.f, h7] at h0
  exact absurd h0 (by decide)

end FpuSystem

end RegisterWindows
