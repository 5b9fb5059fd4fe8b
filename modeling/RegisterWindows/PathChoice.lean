import RegisterWindows.Entry
import RegisterWindows.MinimalContext

namespace RegisterWindows.System
open Machine Port WindowedCore LawfulCore

variable {L : Image} {s s' : System Cva6.Regs}

/-- The low halfword of a configuration, its base. -/
def baseField (cfg : Word) : Word := cfg &&& 0xFFFF#32

/-- `port_current_task_window_base` is the base of the active window. -/
def Matched (L : Image) (s : System Cva6.Regs) : Prop :=
  s.m.mem (L.addr .portCurrentTaskWindowBase) = baseField s.m.core.windowConfig

/-- A trap taken now is saved by the window that it interrupts. -/
structure ChosenByWindow (L : Image) (s : System Cva6.Regs) : Prop where
  flag : Matched L s
  path : ∀ c s', step L s (.trap c) = some s' →
    (s'.kind (s.current L) = .minimal ↔ baseField s.m.core.windowConfig ≠ 0)

/-- A first task with a window is started where its `window_cfg` says, as far as the base goes. -/
def StartsAtBase (L : Image) (s : System Cva6.Regs) (e : Event) : Prop :=
  e = .start → (s.head (s.current L)).windowCfg ≠ 0 →
    baseField (s.m.mem (s.frameOf (s.current L) + slot 3)) =
      baseField (s.head (s.current L)).windowCfg

instance (L : Image) (s : System Cva6.Regs) (e : Event) : Decidable (StartsAtBase L s e) :=
  inferInstanceAs (Decidable (_ → _))

theorem Matched.chosen (hw : s.Wf L) (hm : s.Matched L) : s.ChosenByWindow L where
  flag := hm
  path c s' h := by
    have ht := step_trap hw h
    rw [ht.eq, ← hm]
    simp only [Function.update_self]
    split <;> simp_all

theorem baseField_kernel {cfg : Word} (h : Cva6.decode cfg = Window.kernel) :
    baseField cfg = 0 := by
  have hbase : (cfg.extractLsb' 0 16).toNat = 0 := congrArg Window.base h
  apply BitVec.eq_of_toNat_eq
  rw [baseField, Window.and_ffff_toNat]
  simpa using hbase

theorem Dispatched.matched (hd : Dispatched L s s') : s'.Matched L := by
  have hflag : s'.m.mem (L.addr .portCurrentTaskWindowBase) =
      (s.head (s.current L)).windowCfg &&& 0xFFFF#32 := by
    rw [hd.eq]
    exact hd.restored.flag
  unfold Matched
  rw [hflag, hd.cva6_windowConfig]
  rfl

/-- The first start sets the flag from one word of the frame and the window from another. -/
theorem Started.matched_iff (hf : s.Flagged L) (hs : Started L s s') :
    s'.Matched L ↔ StartsAtBase L s .start := by
  unfold Matched
  rcases hs.paths with ⟨hnz, m', hm', hst, -⟩ | ⟨hz, m', hm', hst, n, hrun⟩
  · have hflag : s'.m.mem (L.addr .portCurrentTaskWindowBase) =
        baseField (s.head (s.current L)).windowCfg := by
      rw [hm']
      exact hst.flag
    have hconfig : s'.m.core.windowConfig = s.m.mem (s.frameOf (s.current L) + slot 3) := by
      rw [hm']
      exact hst.staged
    rw [hflag, hconfig]
    exact ⟨fun h _ _ => h.symm, fun h => (h rfl hnz).symm⟩
  · have hflag : s'.m.mem (L.addr .portCurrentTaskWindowBase) = 0 := by
      rw [hm']
      exact (hst.mem_other _ (by simp)).trans (hf.boot hs.was)
    have hconfig : baseField s'.m.core.windowConfig = 0 := by
      rw [hm']
      exact baseField_kernel hrun.kernel
    rw [hflag, hconfig]
    exact ⟨fun _ _ h0 => absurd hz h0, fun _ => rfl⟩

theorem step_matched (hw : s.Wf L) (hf : s.Flagged L) (hm : s.mode = .task → s.Matched L)
    {e : Event} (hc : StartsAtBase L s e) (h : step L s e = some s') (ht : s'.mode = .task) :
    s'.Matched L := by
  have hkeep : e.enters = false → s'.mode = s.mode →
      s'.m.core.windowConfig = s.m.core.windowConfig → s'.Matched L := by
    intro hn hmode hconfig
    unfold Matched
    rw [step_flag hw h hn, hconfig]
    exact hm (hmode ▸ ht)
  cases step_kind hw h with
  | reg r v => exact hkeep rfl rfl (interrupted_setReg s.m.core r v)
  | switch => exact hkeep rfl rfl rfl
  | trap c htr =>
    rw [htr.eq] at ht
    cases ht
  | dispatch hd => exact hd.matched
  | start hs => exact (hs.matched_iff hf).mpr hc
  | create T t p q hcr => exact hkeep rfl (by rw [hcr.eq]) (by rw [hcr.eq])
  | assigns _ T ha => exact hkeep ha.not_enters (by rw [ha.eq]) (by rw [ha.core])
  | plain _ hp hnull heq hcore =>
    exact hkeep (Event.plain_not_enters hp) (by rw [heq]) (by rw [hcore])

/-- On CVA6 every trap of a run finds the flag at the base of the window it interrupts, and is
saved by it, exactly when a windowed first task is started at its base. -/
theorem chosenByWindow_iff {s₀ : System Cva6.Regs} (hb : s₀.Boot L) {es : List Event}
    (hr : Runs.run (step L) s₀ es = some s') :
    (∀ pre s, pre <+: es → Runs.run (step L) s₀ pre = some s → s.mode = .task →
      s.ChosenByWindow L) ↔ Runs.Along (step L) (StartsAtBase L) s₀ es := by
  constructor
  · intro h
    refine Runs.along_of_prefix fun pre e t hp ht he => ?_
    subst he
    obtain ⟨rest, rfl⟩ := hp
    obtain ⟨u, hu, -⟩ := Runs.run_append.mp hr
    obtain ⟨t', ht', hstep⟩ := Runs.run_append.mp hu
    cases ht.symm.trans ht'
    obtain ⟨u', hu', hend⟩ := Runs.run_cons.mp hstep
    cases hend
    have hinv := run_flagged hb ht
    have hs := step_start hinv.1 hu'
    exact (hs.matched_iff hinv.2).mp
      (h _ _ (List.prefix_append _ _) hu (by rw [hs.eq])).flag rfl
  · rintro halong pre s ⟨rest, rfl⟩ hs hm
    have hpre : Runs.Along (step L) (StartsAtBase L) s₀ pre := (Runs.along_append halong hs).1
    have hinv := Runs.run_preserved
      (I := fun s : System Cva6.Regs => (s.Wf L ∧ s.Flagged L) ∧ (s.mode = .task → s.Matched L))
      (fun s e t hi hc h => ⟨⟨step_wf hi.1.1 h, step_flagged hi.1.1 hi.1.2 h⟩,
        step_matched hi.1.1 hi.1.2 hi.2 hc h⟩)
      ⟨⟨hb.wf, hb.flagged⟩, fun h => by rw [hb.mode] at h; cases h⟩ hpre hs
    exact (hinv.2 hm).chosen hinv.1.1

/-- The windowed task of `soloRun`, whose word 3 is its `window_cfg`. -/
theorem soloRun_chosenByWindow :
    ∃ s : System Cva6.Regs,
      Runs.run (step smallImage) (small Cva6.Regs.reset) (soloRun 0x00100020) = some s ∧
      ∀ pre t, pre <+: soloRun 0x00100020 →
        Runs.run (step smallImage) (small Cva6.Regs.reset) pre = some t → t.mode = .task →
        t.ChosenByWindow smallImage := by
  have hfacts : (Runs.run (step smallImage) (small Cva6.Regs.reset)
      (soloRun 0x00100020)).isSome := by decide +kernel
  obtain ⟨s, hs⟩ := Option.isSome_iff_exists.mp hfacts
  exact ⟨s, hs, (chosenByWindow_iff (boot_small (by decide)) hs).mpr (by decide +kernel)⟩

/-- A task with cells 32 to 47 that is the first to start, with a word 3 of 0. -/
def unstagedRun : List Event :=
  [.create 0x1000 0x2F00 0x8000 0, .setWindow 0x1000 32 16, .switch 0x1000, .start]

/-- Its window has base 0, and it is saved as if it had base 32. -/
theorem unstagedRun_mismatched :
    ∃ s s' : System Cva6.Regs,
      Runs.run (step smallImage) (small Cva6.Regs.reset) unstagedRun = some s ∧ s.mode = .task ∧
      step smallImage s (.trap 11) = some s' ∧ baseField s.m.core.windowConfig = 0 ∧
      s'.kind 0x1000 = .minimal ∧ ¬ s.ChosenByWindow smallImage := by
  have hfacts : (Runs.run (step smallImage) (small Cva6.Regs.reset) unstagedRun).map (fun s =>
      (s.mode, baseField s.m.core.windowConfig,
        s.m.mem (smallImage.addr .portCurrentTaskWindowBase),
        (step smallImage s (.trap 11)).map fun s' => s'.kind 0x1000)) =
      some (.task, 0, 0x20, some .minimal) := by decide +kernel
  obtain ⟨s, hs, hf⟩ := Option.map_eq_some_iff.mp hfacts
  simp only [Prod.mk.injEq] at hf
  obtain ⟨hm, hbase, hflag, htrap⟩ := hf
  obtain ⟨s', hs', hkind⟩ := Option.map_eq_some_iff.mp htrap
  refine ⟨s, s', hs, hm, hs', hbase, hkind, fun hc => ?_⟩
  have hmatched : _ = _ := hc.flag
  rw [hflag, hbase] at hmatched
  exact absurd hmatched (by decide)

end RegisterWindows.System
