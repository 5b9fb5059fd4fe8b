import RegisterWindows.Wf

namespace RegisterWindows.System
open Machine Port WindowedCore LawfulCore RegisterWindows.Core

variable {H : Type} [WindowedCore H] {L : Image} {s s' : System H}

/-- The save path flag follows the window the running task was given; a task that was
given none runs in the lower half of the file. -/
structure Flagged (L : Image) (s : System H) : Prop where
  boot : s.mode = .boot → s.m.mem (L.addr .portCurrentTaskWindowBase) = 0
  task : s.mode = .task →
    s.m.mem (L.addr .portCurrentTaskWindowBase) = s.granted &&& 0xFFFF#32
  low : s.mode = .task → s.granted = 0 → ∀ r p, (active s.m.core).phys r = some p → p.val < 32

theorem Flagged.legacy (hf : s.Flagged L) (hm : s.mode = .task) (h0 : s.granted = 0) :
    s.m.mem (L.addr .portCurrentTaskWindowBase) = 0 := by
  rw [hf.task hm, h0]
  rfl

theorem Boot.flagged (hb : s.Boot L) : s.Flagged L where
  boot _ := hb.flag
  task h := by rw [hb.mode] at h; cases h
  low h := by rw [hb.mode] at h; cases h

section
variable [LawfulCore H]

theorem step_flag (hw : s.Wf L) {e : Event} (h : step L s e = some s') (hn : e.enters = false) :
    s'.m.mem (L.addr .portCurrentTaskWindowBase) =
      s.m.mem (L.addr .portCurrentTaskWindowBase) := by
  apply step_sym hw h
  cases e <;> simp_all [Writes, Event.enters]

theorem step_flagged (hw : s.Wf L) (hf : s.Flagged L) {e : Event} (h : step L s e = some s') :
    s'.Flagged L := by
  have hkeep : e.enters = false → s'.mode = s.mode → s'.granted = s.granted →
      active s'.m.core = active s.m.core → s'.Flagged L := by
    intro hn hm hg ha
    have hflag := step_flag hw h hn
    refine ⟨fun hb => ?_, fun ht => ?_, fun ht h0 => ?_⟩
    · rw [hflag]; exact hf.boot (hm ▸ hb)
    · rw [hflag, hg]; exact hf.task (hm ▸ ht)
    · rw [ha]; exact hf.low (hm ▸ ht) (hg ▸ h0)
  cases step_kind hw h with
  | reg r v => exact hkeep rfl rfl rfl (active_setReg _ _ _)
  | switch => exact hkeep rfl rfl rfl rfl
  | trap c ht =>
    have hm : s'.mode = .handler := by rw [ht.eq]
    constructor <;> intro h <;> rw [hm] at h <;> cases h
  | dispatch hd =>
    have hm : s'.mode = .task := by rw [hd.eq]
    have hg : s'.granted = (s.head (s.current L)).windowCfg := by rw [hd.eq]
    refine ⟨fun h => absurd (hm.symm.trans h) (by decide), fun _ => ?_, fun _ h0 r p hp => ?_⟩
    · rw [hg, hd.eq]
      exact hd.restored.flag
    · rw [hd.eq] at hp
      exact active_mret_zero_low _ r p (hd.restored.staged.trans (hg ▸ h0)) hp
  | start hs =>
    have hm : s'.mode = .task := by rw [hs.eq]
    have hg : s'.granted = (s.head (s.current L)).windowCfg := by rw [hs.eq]
    refine ⟨fun h => absurd (hm.symm.trans h) (by decide), fun _ => ?_, fun _ h0 r p hp => ?_⟩
    · rw [hg]
      obtain ⟨-, m', hm', hst, -⟩ | ⟨hz, m', hm', hst, -⟩ := hs.paths
      · rw [hm']
        exact hst.flag
      · rw [hm', hz]
        exact (hst.mem_other _ (by simp)).trans (hf.boot hs.was)
    · obtain ⟨hnz, -⟩ | ⟨-, m', hm', -, n, hrun⟩ := hs.paths
      · exact absurd (hg ▸ h0) hnz
      · rw [hm'] at hp
        exact hrun.kernel.phys_low hp
  | create T t p q hc =>
    exact hkeep rfl (by rw [hc.eq]) (by rw [hc.eq]) (by rw [hc.eq])
  | assigns _ T ha =>
    exact hkeep ha.not_enters (by rw [ha.eq]) (by rw [ha.eq])
      (by rw [ha.core])
  | plain _ hp hnull heq hcore =>
    exact hkeep (Event.plain_not_enters hp) (by rw [heq]) (by rw [heq])
      (by rw [hcore])

theorem run_flagged (hb : s.Boot L) {es : List Event} (h : Runs.run (step L) s es = some s') :
    s'.Wf L ∧ s'.Flagged L :=
  Runs.run_invariant (I := fun s => s.Wf L ∧ s.Flagged L)
    (fun _ _ _ hi h => ⟨step_wf hi.1 h, step_flagged hi.1 hi.2 h⟩) ⟨hb.wf, hb.flagged⟩ h

/-- Every trap pushes its frame below physical register 2, whatever the task's own `sp` is. -/
theorem nextFrame_eq (s : System H) : s.nextFrame = pushed (cell s.m.core 2) := by
  have hk : Machine.Kernel { s.m with core := trap s.m.core } := active_trap _
  unfold nextFrame
  rw [hk.x_eq (by decide : sp ≠ 0)]
  exact congrArg pushed (congrFun (cell_trap s.m.core) 2)

theorem Dispatched.cell_sp (hd : Dispatched L s s') :
    cell s'.m.core 2 = s.frameOf (s.current L) + portContextSize := by
  rw [← hd.restored.sp, hd.run.kernel.x_eq (by decide : sp ≠ 0), hd.eq]
  exact congrFun (cell_mret _) 2

/-- A task with `window_cfg` 0 runs in the kernel window, if that is what 0 stages. -/
def LegacyInKernel (s : System H) : Prop := s.mode = .task → s.granted = 0 → s.m.Kernel

theorem step_legacyInKernel [StagesZeroAsKernel H] (hw : s.Wf L) (hl : s.LegacyInKernel)
    {e : Event} (h : step L s e = some s') : s'.LegacyInKernel := by
  intro hm h0
  cases step_kind hw h with
  | reg r v => exact (hl hm h0).setX r v
  | switch => exact hl hm h0
  | trap c ht => rw [ht.eq] at hm; cases hm
  | dispatch hd =>
    rw [hd.eq] at h0 ⊢
    exact StagesZeroAsKernel.active_mret_zero _ (hd.restored.staged.trans h0)
  | start hs =>
    obtain ⟨hnz, -⟩ | ⟨-, m', hm', -, n, hrun⟩ := hs.paths
    · rw [hs.eq] at h0
      exact absurd h0 hnz
    · rw [hm']
      exact hrun.kernel
  | create T t p q hc =>
    rw [hc.eq] at hm h0 ⊢
    exact hl hm h0
  | assigns _ T ha =>
    rw [Machine.Kernel, ha.core]
    rw [ha.eq] at hm h0
    exact hl hm h0
  | plain _ hp hnull heq hcore =>
    rw [Machine.Kernel, hcore]
    rw [heq] at hm h0
    exact hl hm h0

theorem run_legacyInKernel [StagesZeroAsKernel H] (hb : s.Boot L) {es : List Event}
    (h : Runs.run (step L) s es = some s') : s'.LegacyInKernel :=
  (Runs.run_invariant (I := fun s => s.Wf L ∧ s.LegacyInKernel)
    (fun _ _ _ hi h => ⟨step_wf hi.1 h, step_legacyInKernel hi.1 hi.2 h⟩)
    ⟨hb.wf, fun hm => by rw [hb.mode] at hm; cases hm⟩ h).2

/-- A step that does not enter `T`. -/
def Away (L : Image) (T : Word) (s : System H) (e : Event) : Prop :=
  e.enters = true → s.current L ≠ T

instance (L : Image) (T : Word) (s : System H) (e : Event) : Decidable (Away L T s e) :=
  inferInstanceAs (Decidable (_ → _))

/-- `T` runs in `s`, traps, is away for `span`, and is dispatched in `s₂`. -/
structure Absence (L : Image) (T cause : Word) (span : List Event) (s s₁ s₂ s' : System H) :
    Prop where
  mode : s.mode = .task
  current : s.current L = T
  trap : step L s (.trap cause) = some s₁
  run : Runs.run (step L) s₁ span = some s₂
  away : Runs.Along (step L) (Away L T) s₁ span
  back : s₂.current L = T
  dispatch : step L s₂ .dispatch = some s'

/-- An absence in which nobody changes the window of `T`. -/
structure Trip (L : Image) (T cause : Word) (span : List Event) (s s₁ s₂ s' : System H) : Prop
    extends Absence L T cause span s s₁ s₂ s' where
  uncalled : ∀ e ∈ span, e.assignsTo T = false

/-- What the tasks and the handlers leave alone while `T` is switched out: the words of its
frame that `K` names. -/
structure Parked (L : Image) (T f : Word) (K : Nat → Prop) (word : Nat → Word) (s : System H) :
    Prop where
  created : T ∈ s.created
  out : s.SwitchedOut L T
  frame : s.frameOf T = f
  words : ∀ k < 33, K k → s.m.mem (f + slot k) = word k

theorem step_parked (hw : s.Wf L) {T f : Word} {K : Nat → Prop} {word : Nat → Word}
    (hp : s.Parked L T f K word) {e : Event} (he : Away L T s e)
    (hK : K portWindowCfgOffset → e.assignsTo T = false) (h : step L s e = some s') :
    s'.Parked L T f K word where
  created := step_created hw h hp.created
  out := step_switchedOut hw h hp.out he
  frame := by
    rw [step_frameOf hw h hp.created, hp.frame]
    rintro c rfl
    exact hp.out (step_trap hw h).was
  words k hk hKk := by
    rw [← hp.words k hk hKk, ← hp.frame]
    exact step_frame_word hw h hp.created hp.out hk fun h31 => hK (h31 ▸ hKk)

theorem run_parked (hw : s.Wf L) {T f : Word} {K : Nat → Prop} {word : Nat → Word}
    (hp : s.Parked L T f K word) {es : List Event} (ha : Runs.Along (step L) (Away L T) s es)
    (hK : K portWindowCfgOffset → ∀ e ∈ es, e.assignsTo T = false)
    (h : Runs.run (step L) s es = some s') : s'.Wf L ∧ s'.Parked L T f K word := by
  have hboth : Runs.Along (step L)
      (fun s e => Away L T s e ∧ (K portWindowCfgOffset → e.assignsTo T = false)) s es :=
    ha.and (Runs.along_of_mem fun e he h31 => hK h31 e he)
  exact Runs.run_preserved (Runs.Preserved.and (fun _ _ _ hw h => step_wf hw h)
    (fun _ _ _ hw hp he h => step_parked hw hp he.1 he.2 h)) ⟨hw, hp⟩ hboth h

omit [WindowedCore H] [LawfulCore H] in
theorem Parked.head {T f : Word} {mem : Word → Word}
    (hp : s.Parked L T f (· ≠ portWindowCfgOffset) fun k => mem (f + slot k)) :
    s.head T = { headAt mem f with windowCfg := (s.head T).windowCfg } := by
  have hword : ∀ k < 33, k ≠ portWindowCfgOffset →
      s.m.mem (s.frameOf T + slot k) = mem (f + slot k) := by
    intro k hk h31
    rw [hp.frame]
    exact hp.words k hk h31
  refine FrameHead.ext ?_ ?_ ?_ rfl ?_
  · exact hword 0 (by decide) (by decide)
  · exact hword 1 (by decide) (by decide)
  · exact hword 30 (by decide) (by decide)
  · exact hword 32 (by decide) (by decide)

section
variable {T cause : Word} {span : List Event} {s₁ s₂ : System H}

theorem Absence.left (hw : s.Wf L) (ht : Absence L T cause span s s₁ s₂ s') (K : Nat → Prop) :
    Trapped L s cause s₁ ∧
      s₁.Parked L T s.nextFrame K (fun k => s₁.m.mem (s.nextFrame + slot k)) := by
  have htr := step_trap hw ht.trap
  have hc := hw.current (by rw [ht.mode]; decide)
  rw [ht.current] at hc
  refine ⟨htr, step_created hw ht.trap hc, ?_, ?_, fun k _ _ => rfl⟩
  · intro hm
    rw [htr.eq] at hm
    cases hm
  · rw [← ht.current]
    exact htr.saved.top

/-- But for the window word, the frame that the trap writes is the one the dispatch finds. -/
theorem Absence.parked (hw : s.Wf L) (ht : Absence L T cause span s s₁ s₂ s') :
    s₂.Wf L ∧ s₂.Parked L T s.nextFrame (· ≠ portWindowCfgOffset)
      (fun k => s₁.m.mem (s.nextFrame + slot k)) :=
  run_parked (step_wf hw ht.trap) (ht.left hw _).2 ht.away (fun h => absurd rfl h) ht.run

theorem Absence.head (hw : s.Wf L) (ht : Absence L T cause span s s₁ s₂ s') :
    s₂.head T = { savedHead L (s.m.takeTrap cause) with windowCfg := (s₂.head T).windowCfg } := by
  obtain ⟨-, hp⟩ := ht.parked hw
  have hsaved := (ht.left hw fun _ => True).1.saved.head
  exact hp.head.trans (congrArg (fun h => { h with windowCfg := (s₂.head T).windowCfg }) hsaved)

theorem Trip.windowCfg (hw : s.Wf L) (ht : Trip L T cause span s s₁ s₂ s') :
    (s₂.head T).windowCfg = (savedHead L (s.m.takeTrap cause)).windowCfg := by
  have htr := (ht.left hw fun _ => True).1
  obtain ⟨-, hp⟩ := run_parked (step_wf hw ht.trap) (ht.left hw fun _ => True).2 ht.away
    (fun _ => ht.uncalled) ht.run
  have hword := hp.words portWindowCfgOffset (by decide) trivial
  refine Eq.trans ?_ (congrArg FrameHead.windowCfg htr.saved.head)
  rw [System.head, hp.frame]
  exact hword

end

/-- The parts of the context that both frame layouts keep. `mstatus` is what `mret` makes
of the image the handler saw. -/
structure HeadResumed (L : Image) (s : System H) (cause : Word) (s' : System H) : Prop where
  pc : s'.m.pc = resumePc cause s.m.pc
  mepc : s'.m.mepc = resumePc cause s.m.pc
  mstatus : s'.m.mstatus = mretStatus (s.m.takeTrap cause).mstatus
  nesting : s'.m.mem (L.addr .xCriticalNesting) = s.m.mem (L.addr .xCriticalNesting)

theorem Absence.headResumed (hw : s.Wf L) {T cause : Word} {span : List Event} {s₁ s₂ : System H}
    (ht : Absence L T cause span s s₁ s₂ s') : HeadResumed L s cause s' := by
  obtain ⟨hw₂, -⟩ := ht.parked hw
  have hd := step_dispatch hw₂ ht.dispatch
  have hhead := ht.head hw
  have hres := hd.restored
  rw [ht.back] at hres
  have hmepc := hres.mepc.trans (congrArg FrameHead.pc hhead)
  rw [hd.eq]
  exact ⟨hmepc, hmepc, congrArg mretStatus (hres.mstatus.trans (congrArg FrameHead.mstatus hhead)),
    hres.nesting.trans (congrArg FrameHead.nesting hhead)⟩

omit [LawfulCore H] in
theorem trap_of_room {cause : Word} (hm : s.mode = .task)
    (hin : InStack L (s.current L) s.nextFrame) : ∃ s₁, step L s (.trap cause) = some s₁ :=
  ⟨_, if_pos ⟨hm, hin⟩⟩

omit [LawfulCore H] in
theorem dispatch_of_handler (hm : s.mode = .handler) : ∃ s', step L s .dispatch = some s' :=
  ⟨_, if_pos hm⟩

omit [LawfulCore H] in
theorem switch_of_created {T : Word} (hm : s.mode = .handler) (hT : T ∈ s.created) :
    ∃ s', step L s (.switch T) = some s' :=
  ⟨_, if_pos ⟨by rw [hm]; decide, hT⟩⟩

omit [LawfulCore H] in
theorem switch_mode {T : Word} (h : step L s (.switch T) = some s') : s'.mode = s.mode := by
  simp only [step] at h
  split at h
  · cases h
    rfl
  · cases h

/-- A trap whose handler does something for the task and dispatches it again. -/
theorem absence_in_handler (hw : s.Wf L) {cause : Word} {span : List Event} {s₁ s₂ : System H}
    (h : step L s (.trap cause) = some s₁) (hr : Runs.run (step L) s₁ span = some s₂)
    (hspan : ∀ e ∈ span, e.enters = false ∧ ∀ T, e ≠ .switch T) (hm : s₂.mode = .handler) :
    ∃ s', Absence L (s.current L) cause span s s₁ s₂ s' := by
  obtain ⟨s', hd⟩ := dispatch_of_handler hm
  have haway : Runs.Along (step L) (Away L (s.current L)) s₁ span :=
    (Runs.along_of_mem fun e he => (hspan e he).1).mono fun _ _ h1 h2 => by rw [h1] at h2; cases h2
  have hcur : s₂.Wf L ∧ s₂.current L = s₁.current L :=
    Runs.run_preserved (Runs.Preserved.and (fun _ _ _ hw h => step_wf hw h)
      (fun _ _ _ hw hc he h => (step_current hw h he).trans hc)) ⟨step_wf hw h, rfl⟩
      (Runs.along_of_mem fun e he => (hspan e he).2) hr
  exact ⟨s', (step_trap hw h).was, rfl, h, hr, haway,
    hcur.2.trans (step_current hw h (by simp)), hd⟩

theorem trip_at_once (hw : s.Wf L) {cause : Word} {s₁ : System H}
    (h : step L s (.trap cause) = some s₁) :
    ∃ s', Trip L (s.current L) cause [] s s₁ s₁ s' := by
  have hm : s₁.mode = .handler := by rw [(step_trap hw h).eq]
  obtain ⟨s', ht⟩ := absence_in_handler hw h (Runs.run_nil s₁) (by simp) hm
  exact ⟨s', ht, by simp⟩

/-- A trap whose handler dispatches the same task at once, after a run of the small system that is
evaluated up to it. -/
theorem trip_small {α : Type} (core : H) (es : List Event) (cause : Word) {f : System H → α} {v : α}
    (hk : active core = Window.kernel)
    (h : (Runs.run (step smallImage) (small core) es).map (fun s =>
      (s.current smallImage, f s, (step smallImage s (.trap cause)).isSome)) = some (T, v, true)) :
    ∃ s s₁ s', Runs.run (step smallImage) (small core) es = some s ∧
      Trip smallImage T cause [] s s₁ s₁ s' ∧ f s = v := by
  obtain ⟨s, hs, hf⟩ := Option.map_eq_some_iff.mp h
  simp only [Prod.mk.injEq] at hf
  obtain ⟨rfl, hv, hsome⟩ := hf
  obtain ⟨s₁, h₁⟩ := Option.isSome_iff_exists.mp hsome
  obtain ⟨s', ht⟩ := trip_at_once (run_wf (boot_small hk).wf hs) h₁
  exact ⟨s, s₁, s', hs, ht, hv⟩

/-- Another task is dispatched, writes one of its registers and traps back. -/
def visitBy (U T : Word) (r : Reg) (v : Word) : List Event :=
  [.switch U, .dispatch, .reg r v, .trap 11, .switch T]

omit [LawfulCore H] in
/-- The same with steps in between that run to where the task can be dispatched. -/
theorem trip_visited (core : H) (es : List Event) (cause : Word) (span : List Event)
    {P : System H → System H → Prop} [∀ s s₂, Decidable (P s s₂)]
    (hspan : ∀ e ∈ span, e.assignsTo T = false)
    (h : ((Runs.run (step smallImage) (small core) es).bind fun s =>
      (step smallImage s (.trap cause)).bind fun s₁ =>
      (Runs.run (step smallImage) s₁ span).map fun s₂ =>
        decide ((s.mode = .task ∧ s.current smallImage = T) ∧
          (s₂.mode = .handler ∧ s₂.current smallImage = T) ∧
          Runs.Along (step smallImage) (Away smallImage T) s₁ span ∧ P s s₂)) = some true) :
    ∃ s s₁ s₂ s', Runs.run (step smallImage) (small core) es = some s ∧
      Trip smallImage T cause span s s₁ s₂ s' ∧ P s s₂ := by
  obtain ⟨s, hs, h⟩ := Option.bind_eq_some_iff.mp h
  obtain ⟨s₁, h₁, h⟩ := Option.bind_eq_some_iff.mp h
  obtain ⟨s₂, h₂, h⟩ := Option.map_eq_some_iff.mp h
  obtain ⟨⟨hmode, hcur⟩, ⟨hmode₂, hcur₂⟩, haway, hp⟩ := of_decide_eq_true h
  obtain ⟨s', h'⟩ := dispatch_of_handler (L := smallImage) hmode₂
  exact ⟨s, s₁, s₂, s', hs, ⟨⟨hmode, hcur, h₁, h₂, haway, hcur₂, h'⟩, hspan⟩, hp⟩

end

end RegisterWindows.System
