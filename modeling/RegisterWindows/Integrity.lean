import RegisterWindows.Cva6.Core
import RegisterWindows.MinimalContext

namespace RegisterWindows.System
open Machine Port WindowedCore LawfulCore RegisterWindows.Core

variable {H : Type} [WindowedCore H] {L : Image} {s s' : System H}

/-- A frame has its registers stored, or names the window they were left in. -/
def Restorable : FrameKind → FrameHead → Prop
  | .minimal, h => h.contextType = 1 ∧ h.windowCfg ≠ 0
  | _, h => h.contextType = 0

theorem Restorable.not_invalid {k : FrameKind} {h : FrameHead} (hr : Restorable k h) :
    ¬ InvalidMinimal h := by
  intro hi
  cases k with
  | minimal => exact hr.2 hi.2
  | initial | full => exact hi.1 hr

theorem Restorable.initial {mstatus pxCode : Word} {k : FrameKind} (hk : k ≠ .minimal) :
    Restorable k (initialHead mstatus pxCode) := by
  cases k with
  | minimal => exact absurd rfl hk
  | initial | full => rfl

theorem Restorable.of_windowCfg {k : FrameKind} {h h' : FrameHead} (hr : Restorable k h)
    (htype : h'.contextType = h.contextType) (hcfg : k = .minimal → h'.windowCfg ≠ 0) :
    Restorable k h' := by
  cases k with
  | minimal => exact ⟨htype.trans hr.1, hcfg rfl⟩
  | initial | full => exact htype.trans hr

/-- A task whose minimal frame waits for it. -/
def MinimallySaved (L : Image) (s : System H) (T : Word) : Prop :=
  s.SwitchedOut L T ∧ s.kind T = .minimal

instance (L : Image) (s : System H) (T : Word) : Decidable (MinimallySaved L s T) :=
  inferInstanceAs (Decidable ((_ → _) ∧ _))

/-- No call clears the window word of a minimal frame, and a first task that is going to be
saved minimally has something in word 3 of its frame to be started with. -/
def KeepsWindow (L : Image) (s : System H) (e : Event) : Prop :=
  match e with
  | .setWindow T _ _ => MinimallySaved L s T → s.assignedCfg e ≠ 0
  | .setBorrowing T _ => MinimallySaved L s T → s.assignedCfg e ≠ 0
  | .start => (s.head (s.current L)).windowCfg &&& 0xFFFF#32 ≠ 0 →
      s.m.mem (s.frameOf (s.current L) + slot 3) ≠ 0
  | _ => True

instance KeepsWindow.decidable (L : Image) (s : System H) : DecidablePred (KeepsWindow L s)
  | .setWindow T _ _ => inferInstanceAs (Decidable (MinimallySaved L s T → _ ≠ _))
  | .setBorrowing T _ => inferInstanceAs (Decidable (MinimallySaved L s T → _ ≠ _))
  | .start => inferInstanceAs (Decidable (_ ≠ _ → _ ≠ _))
  | .reg .. | .store .. | .jump _ | .mstatus _ | .nesting _ | .trap _ | .switch _ | .dispatch
  | .create .. => isTrue trivial

omit [WindowedCore H] in
theorem KeepsWindow.call {e : Event} {T : Word} (hk : KeepsWindow L s e)
    (ht : e.assignsTo T = true) (hm : MinimallySaved L s T) : s.assignedCfg e ≠ 0 := by
  cases e with
  | setWindow U | setBorrowing U =>
    have hU : U = T := by simpa [Event.assignsTo] using ht
    exact hk (hU ▸ hm)
  | _ => cases ht

/-- Every frame can be restored, none has failed to be, and the running task, if it is going
to be saved minimally, is in a window that CSR 0x801 can name. -/
structure Integrity (L : Image) (s : System H) : Prop where
  frame : ∀ T ∈ s.created, s.SwitchedOut L T → Restorable (s.kind T) (s.head T)
  invalid : s.m.mem (L.addr .portWindowInvalidMinimalRestore) = 0
  running : s.mode = .task → s.m.mem (L.addr .portCurrentTaskWindowBase) ≠ 0 →
    interrupted s.m.core ≠ 0

theorem Boot.integrity (hb : s.Boot L) : s.Integrity L where
  frame T hT := by rw [hb.created] at hT; cases hT
  invalid := hb.invalid
  running hm := by rw [hb.mode] at hm; cases hm

section
variable [LawfulCore H]

theorem step_frameKind (hw : s.Wf L) {e : Event} (h : step L s e = some s') {T : Word}
    (hT : T ∈ s.created) (ht : ∀ c, e = .trap c → T ≠ s.current L) : s'.kind T = s.kind T := by
  cases step_kind hw h with
  | reg | switch => rfl
  | trap c hc =>
    rw [hc.eq]
    exact Function.update_of_ne (ht c rfl) ..
  | dispatch hd => rw [hd.eq]
  | start hs => rw [hs.eq]
  | create U t p q hc =>
    rw [hc.eq]
    refine Function.update_of_ne ?_ ..
    rintro rfl
    exact hc.fresh hT
  | assigns _ U ha => rw [ha.eq]
  | plain _ hp hnull heq hcore => rw [heq]

theorem Integrity.frame_step (hw : s.Wf L) (hi : s.Integrity L) {e : Event}
    (h : step L s e = some s') {T : Word} (hT : T ∈ s.created) (hout : s.SwitchedOut L T)
    (he : e.assignsTo T = false) : Restorable (s'.kind T) (s'.head T) := by
  have ht : ∀ c, e = .trap c → T ≠ s.current L := by
    rintro c rfl
    exact hout (step_trap hw h).was
  rw [step_frameKind hw h hT ht, step_head hw h hT hout he]
  exact hi.frame T hT hout

theorem Trapped.restorable (hi : s.Integrity L) {c : Word} (ht : Trapped L s c s') :
    Restorable (s'.kind (s.current L)) (s'.head (s.current L)) := by
  have htop : s'.frameOf (s.current L) = s.nextFrame := ht.saved.top
  have htype : (s'.head (s.current L)).contextType =
      if s.m.mem (L.addr .portCurrentTaskWindowBase) = 0 then 0 else 1 := by
    rw [System.head, htop]
    exact congrArg FrameHead.contextType ht.saved.head
  have hkind : s'.kind (s.current L) =
      if s.m.mem (L.addr .portCurrentTaskWindowBase) = 0 then .full else .minimal := by
    rw [ht.eq]
    exact Function.update_self ..
  by_cases hflag : s.m.mem (L.addr .portCurrentTaskWindowBase) = 0
  · rw [if_pos hflag] at htype hkind
    rw [hkind]
    exact htype
  · rw [if_neg hflag] at htype hkind
    rw [hkind]
    refine ⟨htype, ?_⟩
    rw [ht.windowCfg, if_neg hflag]
    exact hi.running ht.was hflag

theorem Dispatched.running (hd : Dispatched L s s')
    (hflag : s'.m.mem (L.addr .portCurrentTaskWindowBase) ≠ 0) : interrupted s'.m.core ≠ 0 := by
  rw [hd.eq] at hflag ⊢
  have hne : (s.head (s.current L)).windowCfg ≠ 0 := by
    intro h0
    refine hflag (hd.restored.flag.trans ?_)
    rw [show (headAt s.m.mem (s.frameOf (s.current L))).windowCfg = 0 from h0]
    rfl
  have hstaged := hd.restored.staged
  have hs0 : staged (portcontextRestoreContext L s.m).core ≠ 0 := by
    rw [hstaged]
    exact hne
  rw [show interrupted (portcontextRestoreContext L s.m).execMret.core = _ from
    interrupted_mret _ hs0]
  exact hs0

theorem Started.running (hf : s.Flagged L) (hk : KeepsWindow L s .start) (hs : Started L s s')
    (hflag : s'.m.mem (L.addr .portCurrentTaskWindowBase) ≠ 0) : interrupted s'.m.core ≠ 0 := by
  obtain ⟨-, m', hm', hst, -⟩ | ⟨-, m', hm', hst, -⟩ := hs.paths
  · rw [hm'] at hflag ⊢
    have hs0 : staged m'.core ≠ 0 := by
      rw [hst.staged]
      exact hk (hst.flag ▸ hflag)
    rw [show interrupted m'.execMret.core = _ from interrupted_mret _ hs0]
    exact hs0
  · rw [hm'] at hflag
    exact absurd ((hst.mem_other _ (by simp)).trans (hf.boot hs.was)) hflag

theorem step_invalid (hw : s.Wf L) (hi : s.Integrity L) {e : Event} (h : step L s e = some s') :
    s'.m.mem (L.addr .portWindowInvalidMinimalRestore) = 0 := by
  rw [← hi.invalid]
  cases e with
  | dispatch =>
    have hd := step_dispatch hw h
    have hc := hw.current (by rw [hd.was]; decide)
    have hok : ¬ InvalidMinimal (headAt s.m.mem (s.frameOf (s.current L))) :=
      (hi.frame _ hc fun hm => by rw [hd.was] at hm; cases hm).not_invalid
    have hinv := hd.restored.invalid
    rw [if_neg hok] at hinv
    rw [hd.eq]
    exact hinv.trans (BitVec.add_zero _)
  | start =>
    obtain ⟨-, m', hm', hst, -⟩ | ⟨-, m', hm', hst, -⟩ := (step_start hw h).paths
    · rw [hm']
      exact hst.mem_other _ (by simp) (by simp)
    · rw [hm']
      exact hst.mem_other _ (by simp)
  | _ => exact step_sym hw h (by simp [Writes])

theorem step_integrity (hw : s.Wf L) (hf : s.Flagged L) (hi : s.Integrity L) {e : Event}
    (hk : KeepsWindow L s e) (h : step L s e = some s') : s'.Integrity L := by
  have hold : (∀ c, e ≠ .trap c) → ∀ T ∈ s.created, s'.SwitchedOut L T →
      e.assignsTo T = false → Restorable (s'.kind T) (s'.head T) := fun hnt T hT hout =>
    hi.frame_step hw h hT (switchedOut_of_step hw h hnt hout)
  have hrun : e.enters = false → s'.mode = s.mode →
      interrupted s'.m.core = interrupted s.m.core →
      s'.mode = .task → s'.m.mem (L.addr .portCurrentTaskWindowBase) ≠ 0 →
      interrupted s'.m.core ≠ 0 := by
    intro he hmode hint hm hflag
    rw [hint]
    exact hi.running (hmode ▸ hm) (step_flag hw h he ▸ hflag)
  have hcount := step_invalid hw hi h
  cases step_kind hw h with
  | reg r v =>
    exact ⟨fun T hT hout => hold (by simp) T hT hout rfl, hcount,
      hrun rfl rfl (interrupted_setReg _ _ _)⟩
  | switch U hm hU => exact ⟨fun T hT hout => hold (by simp) T hT hout rfl, hcount,
    hrun rfl rfl rfl⟩
  | trap c ht =>
    refine ⟨fun T hT _ => ?_, hcount, fun hm => by rw [ht.eq] at hm; cases hm⟩
    have hT' : T ∈ s.created := by rw [ht.eq] at hT; exact hT
    by_cases hc : T = s.current L
    · rw [hc]
      exact ht.restorable hi
    · exact hi.frame_step hw h hT' (fun _ => hc) rfl
  | dispatch hd =>
    have hcre : s'.created = s.created := by rw [hd.eq]
    exact ⟨fun T hT hout => hold (by simp) T (hcre ▸ hT) hout rfl, hcount, fun _ => hd.running⟩
  | start hs =>
    have hcre : s'.created = s.created := by rw [hs.eq]
    exact ⟨fun T hT hout => hold (by simp) T (hcre ▸ hT) hout rfl, hcount,
      fun _ => hs.running hf hk⟩
  | create U t p q hc =>
    refine ⟨fun T hT hout => ?_, hcount, hrun rfl (by rw [hc.eq]) (by rw [hc.eq])⟩
    by_cases hTU : T = U
    · subst hTU
      have hkind : s'.kind T = .initial := by
        rw [hc.eq]
        exact Function.update_self ..
      rw [hc.head, hkind]
      exact .initial (by decide)
    · rw [hc.eq] at hT
      exact hold (by simp) T ((List.mem_cons.mp hT).resolve_left hTU) hout rfl
  | assigns _ U ha =>
    have hcre : s'.created = s.created := by rw [ha.eq]
    refine ⟨fun T hT hout => ?_, hcount,
      hrun ha.not_enters (by rw [ha.eq]) (by rw [ha.core])⟩
    have hT' := hcre ▸ hT
    have hout' := switchedOut_of_step hw h ha.not_trap hout
    by_cases hTU : T = U
    · subst hTU
      have htype : (s'.head T).contextType = (s.head T).contextType := by
        rw [System.head, step_frameOf hw h hT' fun c hc => absurd hc (ha.not_trap c)]
        exact step_frame_word hw h hT' hout' (by decide) (fun h => absurd h (by decide))
      rw [step_frameKind hw h hT' fun c hc => absurd hc (ha.not_trap c)]
      refine (hi.frame T hT' hout').of_windowCfg htype fun hmin => ?_
      rw [ha.windowCfg hw]
      exact hk.call ha.target ⟨hout', hmin⟩
    · refine hold ha.not_trap T hT' hout ?_
      simpa using fun h => hTU (Event.assignsTo_unique h ha.target)
  | plain _ hp hnull heq hcore =>
    have hcre : s'.created = s.created := by rw [heq]
    refine ⟨fun T hT hout => ?_, hcount,
      hrun (Event.plain_not_enters hp) (by rw [heq]) (by rw [hcore])⟩
    exact hold (by rintro c rfl; cases hp) T (hcre ▸ hT) hout
      (hnull T (hw.ne_zero (hcre ▸ hT)))

/-- In every run in which no call clears the window word of a minimal frame, every frame the
restore macro can meet is restorable and the counter of invalid minimal restores stays 0. -/
theorem run_integrity {s₀ : System H} (hb : s₀.Boot L) {es : List Event}
    (hk : Runs.Along (step L) (KeepsWindow L) s₀ es) (hr : Runs.run (step L) s₀ es = some s) :
    s.Integrity L := by
  have hp : Runs.Preserved (step L) (KeepsWindow L)
      fun s : System H => (s.Wf L ∧ s.Flagged L) ∧ s.Integrity L :=
    Runs.Preserved.and (fun _ _ _ hi h => ⟨step_wf hi.1 h, step_flagged hi.1 hi.2 h⟩)
      (fun _ _ _ hw hi hk h => step_integrity hw.1 hw.2 hi hk h)
  exact (Runs.run_preserved hp ⟨⟨hb.wf, hb.flagged⟩, hb.integrity⟩ hk hr).2

end

/-- A windowed task that has been saved minimally, and is moved to another window. -/
theorem soloRun_integrity :
    ∃ s : System Cva6.Regs,
      Runs.run (step smallImage) (small Cva6.Regs.reset)
        (soloRun 0x00100020 ++ [.trap 11, .setWindow 0x1000 48 16]) = some s ∧
      s.Integrity smallImage := by
  have hfacts : (Runs.run (step smallImage) (small Cva6.Regs.reset)
      (soloRun 0x00100020 ++ [.trap 11, .setWindow 0x1000 48 16])).isSome := by decide +kernel
  obtain ⟨s, hs⟩ := Option.isSome_iff_exists.mp hfacts
  exact ⟨s, hs, run_integrity (boot_small (by decide)) (by decide +kernel) hs⟩

/-- Let it borrow the kernel window instead, and its next dispatch loads registers that were
never stored. -/
theorem soloRun_invalid :
    ∃ s s' : System Cva6.Regs,
      Runs.run (step smallImage) (small Cva6.Regs.reset)
        (soloRun 0x00100020 ++ [.trap 11, .setBorrowing 0x1000 pdTRUE]) = some s ∧
      step smallImage s .dispatch = some s' ∧
      s'.m.mem (smallImage.addr .portWindowInvalidMinimalRestore) = 1 := by
  have hfacts : (Runs.run (step smallImage) (small Cva6.Regs.reset) (soloRun 0x00100020)).map
      (fun s => ([s.current smallImage,
        s.m.mem (smallImage.addr .portCurrentTaskWindowBase),
        s.m.mem (smallImage.addr .portWindowInvalidMinimalRestore)],
        (Runs.run (step smallImage) s [.trap 11, .setBorrowing 0x1000 pdTRUE]).map System.mode)) =
      some ([0x1000, 32, 0], some .handler) := by decide +kernel
  obtain ⟨s, hs, hf⟩ := Option.map_eq_some_iff.mp hfacts
  simp only [Prod.mk.injEq, List.cons.injEq, and_true] at hf
  obtain ⟨⟨hcur, hflag, hcount⟩, hspan⟩ := hf
  obtain ⟨s₂, hrun, hm₂⟩ := Option.map_eq_some_iff.mp hspan
  obtain ⟨s₁, h₁, hone⟩ := Runs.run_cons.mp hrun
  obtain ⟨t, hcall, hend⟩ := Runs.run_cons.mp hone
  cases hend
  have hw := run_wf (boot_small (by decide)).wf hs
  have hw₁ := step_wf hw h₁
  obtain ⟨s', habs⟩ := absence_in_handler hw h₁ hone (by simp [Event.enters]) hm₂
  rw [hcur] at habs
  refine ⟨s₂, s', Runs.run_append.mpr ⟨s, hs, hrun⟩, habs.dispatch, ?_⟩
  have hd := step_dispatch (habs.parked hw).1 habs.dispatch
  have hinv : InvalidMinimal (headAt s₂.m.mem (s₂.frameOf (s₂.current smallImage))) := by
    rw [habs.back, show headAt s₂.m.mem (s₂.frameOf 0x1000) = _ from habs.head hw]
    refine ⟨?_, ?_⟩
    · have htype : (savedHead smallImage (s.m.takeTrap 11)).contextType = 1 :=
        if_neg (by rw [show (s.m.takeTrap 11).mem = s.m.mem from rfl, hflag]; decide)
      exact fun h => absurd (htype.symm.trans h) (by decide)
    · rcases step_setBorrowing hcall with ⟨h0, -⟩ | ha
      · exact absurd h0 (by decide)
      · exact ha.windowCfg hw₁
  have hkeep : s₂.m.mem (smallImage.addr .portWindowInvalidMinimalRestore) = 0 := by
    rw [step_sym hw₁ hcall (by simp [Writes]), step_sym hw h₁ (by simp [Writes]), hcount]
  have hres := hd.restored.invalid
  rw [if_pos hinv, hkeep] at hres
  rw [hd.eq]
  exact hres

end RegisterWindows.System
