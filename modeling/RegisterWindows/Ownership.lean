import RegisterWindows.Trip

namespace RegisterWindows.System
open Machine Port WindowedCore LawfulCore RegisterWindows.Core

variable {H : Type} [WindowedCore H] {L : Image} {s s' : System H} {P Q : Word → Word → Prop}

/-- `vPortTaskSetRegisterWindow` gives a task a configuration that `P` allows it. -/
def Follows (P : Word → Word → Prop) : Event → Prop
  | .setWindow T ulBase ulSize => T ≠ 0 → P T (Window.pack ulBase ulSize)
  | _ => True

instance Follows.decidable [∀ T, DecidablePred (P T)] : DecidablePred (Follows P)
  | .setWindow T _ _ => inferInstanceAs (Decidable (T ≠ 0 → P T _))
  | .reg .. | .store .. | .jump _ | .mstatus _ | .nesting _ | .trap _ | .switch _ | .dispatch
  | .start | .create .. | .setBorrowing .. => isTrue trivial

theorem Follows.mono (hpq : ∀ T cfg, P T cfg → Q T cfg) {e : Event} (h : Follows P e) :
    Follows Q e := by
  cases e with
  | setWindow => exact fun hT => hpq _ _ (h hT)
  | _ => trivial

theorem follows_true (e : Event) : Follows (fun _ _ => True) e := by
  cases e with
  | setWindow => exact fun _ => trivial
  | _ => trivial

/-- When a windowed task is the first to start, word 3 of its frame repeats its
`window_cfg`: that word, the saved `x5`, is what `xPortStartFirstTaskWindowed` stages. -/
def StartsConfigured (L : Image) (s : System H) (e : Event) : Prop :=
  e = .start → (s.head (s.current L)).windowCfg ≠ 0 →
    s.m.mem (s.frameOf (s.current L) + slot 3) = (s.head (s.current L)).windowCfg

instance (L : Image) (s : System H) (e : Event) : Decidable (StartsConfigured L s e) :=
  inferInstanceAs (Decidable (_ → _))

/-- The core knows the window the running task was given. -/
structure Holds (s : System H) : Prop where
  interrupted : s.mode = .task → s.granted ≠ 0 → interrupted s.m.core = s.granted
  active : s.mode = .task → ∀ w : Window, w.Legal → s.granted = w.config → active s.m.core = w

theorem Boot.holds (hb : s.Boot L) : s.Holds where
  interrupted h := by rw [hb.mode] at h; cases h
  active h := by rw [hb.mode] at h; cases h

theorem Holds.of_eq (hh : s.Holds) (hm : s'.mode = s.mode) (hg : s'.granted = s.granted)
    (hi : WindowedCore.interrupted s'.m.core = WindowedCore.interrupted s.m.core)
    (ha : WindowedCore.active s'.m.core = WindowedCore.active s.m.core) : s'.Holds where
  interrupted h h0 := by
    rw [hi, hg]
    exact hh.interrupted (hm ▸ h) (hg ▸ h0)
  active h w hl hgw := by
    rw [ha]
    exact hh.active (hm ▸ h) w hl (hg ▸ hgw)

/-- Every copy of a task's configuration is one that `P` allows it. -/
structure Copies (P : Word → Word → Prop) (L : Image) (s : System H) : Prop where
  tcb : ∀ T ∈ s.created, P T (s.tcb T).ulPortWindowConfig
  frame : ∀ T ∈ s.created, s.SwitchedOut L T → P T (s.head T).windowCfg
  granted : s.mode = .task → P (s.current L) s.granted

theorem Boot.copies (hb : s.Boot L) : s.Copies P L where
  tcb T hT := by rw [hb.created] at hT; cases hT
  frame T hT := by rw [hb.created] at hT; cases hT
  granted h := by rw [hb.mode] at h; cases h

omit [WindowedCore H] in
theorem Copies.mono (hpq : ∀ T cfg, P T cfg → Q T cfg) (h : s.Copies P L) : s.Copies Q L where
  tcb T hT := hpq _ _ (h.tcb T hT)
  frame T hT hout := hpq _ _ (h.frame T hT hout)
  granted hm := hpq _ _ (h.granted hm)

section
variable [LawfulCore H]

theorem step_holds (hw : s.Wf L) (hh : s.Holds) {e : Event} (hc : StartsConfigured L s e)
    (h : step L s e = some s') : s'.Holds := by
  cases step_kind hw h with
  | reg r v => exact hh.of_eq rfl rfl (interrupted_setReg _ _ _) (active_setReg _ _ _)
  | switch => exact hh.of_eq rfl rfl rfl rfl
  | trap c ht =>
    have hm : s'.mode = .handler := by rw [ht.eq]
    constructor <;> intro h <;> rw [hm] at h <;> cases h
  | dispatch hd =>
    have hst := hd.restored.staged
    rw [hd.eq]
    refine ⟨fun _ h0 => ?_, fun _ w hl hg => active_mret _ w hl (hst.trans hg)⟩
    exact (interrupted_mret _ (by rw [hst]; exact h0)).trans hst
  | start hs =>
    have hg : s'.granted = (s.head (s.current L)).windowCfg := by rw [hs.eq]
    obtain ⟨hnz, m', hm', hst, -⟩ | ⟨hz, -⟩ := hs.paths
    · have hstaged : staged m'.core = s'.granted := by
        rw [hg, hst.staged]
        exact hc rfl hnz
      refine ⟨fun _ h0 => ?_, fun _ w hl hgw => ?_⟩
      · rw [hm']
        exact (interrupted_mret _ (by rw [hstaged]; exact h0)).trans hstaged
      · rw [hm']
        exact active_mret _ w hl (hstaged.trans hgw)
    · refine ⟨fun _ h0 => absurd (hg.trans hz) h0, fun _ w hl hgw => ?_⟩
      exact absurd (hgw.symm.trans (hg.trans hz)) hl.config_ne_zero
  | create T t p q hc =>
    exact hh.of_eq (by rw [hc.eq]) (by rw [hc.eq]) (by rw [hc.eq]) (by rw [hc.eq])
  | assigns _ T ha =>
    exact hh.of_eq (by rw [ha.eq]) (by rw [ha.eq]) (by rw [ha.core]) (by rw [ha.core])
  | plain _ hp hnull heq hcore =>
    exact hh.of_eq (by rw [heq]) (by rw [heq]) (by rw [hcore]) (by rw [hcore])

theorem step_head (hw : s.Wf L) {e : Event} (h : step L s e = some s') {T : Word}
    (hT : T ∈ s.created) (hout : s.SwitchedOut L T) (he : e.assignsTo T = false) :
    s'.head T = s.head T := by
  have hf : s'.frameOf T = s.frameOf T := by
    refine step_frameOf hw h hT ?_
    rintro c rfl
    exact hout (step_trap hw h).was
  rw [head, hf]
  exact headAt_congr fun k hk => step_frame hw h hT hout he hk

omit [LawfulCore H] in
theorem Assigns.windowCfg (hw : s.Wf L) {e : Event} {T : Word} (ha : Assigns s e T s') :
    (s'.head T).windowCfg = s.assignedCfg e := by
  have hin := hw.frame T ha.created
  have htop : s.m.mem T ≠ 0 := by
    intro h0
    have h := hin 0 (by omega)
    rw [frameOf, h0] at h
    exact Region.noConfusion (L.region_null.symm.trans h)
  have hmem := ha.assigned.mem
  rw [if_neg htop] at hmem
  have hT : T ≠ s.m.mem T + slot portWindowCfgOffset :=
    (hin.ne_tcb (by decide) (hw.tcb T ha.created)).symm
  simp only [head, headAt, frameOf, hmem, Function.update_of_ne hT, Function.update_self]

/-- The new frame of a task carries what the window flag and the core said of it. -/
theorem Trapped.windowCfg {c : Word} (ht : Trapped L s c s') :
    (s'.head (s.current L)).windowCfg =
      if s.m.mem (L.addr .portCurrentTaskWindowBase) = 0 then 0
      else WindowedCore.interrupted s.m.core := by
  have htop : s'.frameOf (s.current L) = s.nextFrame := ht.saved.top
  rw [head, htop]
  refine (congrArg FrameHead.windowCfg ht.saved.head).trans ?_
  simp only [savedHead]
  rw [show staged (s.m.takeTrap c).core = WindowedCore.interrupted s.m.core from staged_trap _]
  rfl

omit [WindowedCore H] [LawfulCore H] in
theorem Assigns.tcb_cfg {e : Event} {T : Word} (ha : Assigns s e T s') :
    (s'.tcb T).ulPortWindowConfig = s.assignedCfg e := by
  rw [ha.assigned.tcb, Function.update_self]

omit [LawfulCore H] in
theorem Assigns.allowed (h0 : ∀ T, P T 0) (hw : s.Wf L) (ho : s.Copies P L) {e : Event} {T : Word}
    (ha : Assigns s e T s') (hc : Follows P e) : P T (s.assignedCfg e) := by
  have htarget := ha.target
  cases e with
  | setWindow U ulBase ulSize =>
    have hU : U = T := by simpa [Event.assignsTo] using htarget
    exact hU ▸ hc (hU ▸ hw.ne_zero ha.created)
  | setBorrowing U xEnable =>
    have hU : U = T := by simpa [Event.assignsTo] using htarget
    simp only [assignedCfg]
    split
    · rw [hU]
      exact ho.tcb T ha.created
    · exact h0 T
  | _ => cases htarget

theorem Trapped.allowed (h0 : ∀ T, P T 0) (hf : s.Flagged L) (hh : s.Holds) (ho : s.Copies P L)
    {c : Word} (ht : Trapped L s c s') : P (s.current L) (s'.head (s.current L)).windowCfg := by
  rw [ht.windowCfg]
  split
  · exact h0 _
  · rename_i hflag
    have hg : s.granted ≠ 0 := by
      intro hg
      rw [hf.task ht.was, hg] at hflag
      exact hflag rfl
    rw [hh.interrupted ht.was hg]
    exact ho.granted ht.was

theorem Copies.step_tcb (h0 : ∀ T, P T 0) (hw : s.Wf L) (ho : s.Copies P L) {e : Event}
    (hc : Follows P e) (h : step L s e = some s') {T : Word} (hT : T ∈ s'.created) :
    P T (s'.tcb T).ulPortWindowConfig := by
  rcases created_of_step hw h hT with hT | ⟨t, p, q, rfl, hcr⟩
  · cases he : e.assignsTo T with
    | false =>
      rw [System.step_tcb hw h hT he]
      exact ho.tcb T hT
    | true =>
      have ha := step_assigned hw h hT he
      rw [ha.tcb_cfg]
      exact ha.allowed h0 hw ho hc
  · rw [hcr.tcb_new]
    exact h0 T

theorem Copies.step_frame (h0 : ∀ T, P T 0) (hw : s.Wf L) (hf : s.Flagged L) (hh : s.Holds)
    (ho : s.Copies P L) {e : Event} (hc : Follows P e) (h : step L s e = some s') {T : Word}
    (hT : T ∈ s'.created) (hout : s'.SwitchedOut L T) : P T (s'.head T).windowCfg := by
  rcases created_of_step hw h hT with hT | ⟨t, p, q, rfl, hcr⟩
  · cases he : e.assignsTo T with
    | true =>
      have ha := step_assigned hw h hT he
      rw [ha.windowCfg hw]
      exact ha.allowed h0 hw ho hc
    | false =>
      by_cases hout' : s.SwitchedOut L T
      · rw [step_head hw h hT hout' he]
        exact ho.frame T hT hout'
      · -- it has just been trapped
        obtain ⟨c, rfl⟩ : ∃ c, e = .trap c := by
          by_contra hnt
          exact hout' (switchedOut_of_step hw h (fun c hc => hnt ⟨c, hc⟩) hout)
        have hcur : T = s.current L := by
          by_contra hne
          exact hout' fun _ => hne
        rw [hcur]
        exact (step_trap hw h).allowed h0 hf hh ho
  · rw [hcr.head]
    exact h0 T

theorem Copies.step_granted (hw : s.Wf L) (ho : s.Copies P L) {e : Event}
    (h : step L s e = some s') (hm : s'.mode = .task) : P (s'.current L) s'.granted := by
  have hsame : (∀ T, e ≠ .switch T) → s'.granted = s.granted → s'.mode = s.mode →
      P (s'.current L) s'.granted := by
    intro hns hg hm'
    rw [step_current hw h hns, hg]
    exact ho.granted (hm' ▸ hm)
  have henters : (∀ T, e ≠ .switch T) → s.current L ∈ s.created → s.mode ≠ .task →
      s'.granted = (s.head (s.current L)).windowCfg → P (s'.current L) s'.granted := by
    intro hns hcr hwas hg
    rw [step_current hw h hns, hg]
    exact ho.frame _ hcr fun h => absurd h hwas
  cases step_kind hw h with
  | reg r v => exact hsame (by simp) rfl rfl
  | switch U hs hU => exact absurd hm hs
  | trap c ht =>
    rw [ht.eq] at hm
    cases hm
  | dispatch hd =>
    have hwas : s.mode ≠ .task := by
      rw [hd.was]
      decide
    exact henters (by simp) (hw.current (by rw [hd.was]; decide)) hwas (by rw [hd.eq])
  | start hs =>
    have hwas : s.mode ≠ .task := by
      rw [hs.was]
      decide
    exact henters (by simp) hs.created hwas (by rw [hs.eq])
  | create U t p q hcr => exact hsame (by simp) (by rw [hcr.eq]) (by rw [hcr.eq])
  | assigns _ U ha => exact hsame ha.not_switch (by rw [ha.eq]) (by rw [ha.eq])
  | plain _ hp hnull heq hcore =>
    exact hsame (by rintro U rfl; cases hp) (by rw [heq]) (by rw [heq])

theorem step_copies (h0 : ∀ T, P T 0) (hw : s.Wf L) (hf : s.Flagged L) (hh : s.Holds)
    (ho : s.Copies P L) {e : Event} (hc : Follows P e) (h : step L s e = some s') :
    s'.Copies P L where
  tcb _ hT := ho.step_tcb h0 hw hc h hT
  frame _ hT hout := ho.step_frame h0 hw hf hh hc h hT hout
  granted hm := ho.step_granted hw h hm

/-- The invariants of runs in which tasks are given allowed windows only. -/
structure Kept (P : Word → Word → Prop) (L : Image) (s : System H) : Prop where
  wf : s.Wf L
  flagged : s.Flagged L
  holds : s.Holds
  copies : s.Copies P L

omit [LawfulCore H] in
theorem Boot.kept (hb : s.Boot L) : s.Kept P L := ⟨hb.wf, hb.flagged, hb.holds, hb.copies⟩

omit [LawfulCore H] in
theorem Kept.mono (hpq : ∀ T cfg, P T cfg → Q T cfg) (h : s.Kept P L) : s.Kept Q L :=
  ⟨h.wf, h.flagged, h.holds, h.copies.mono hpq⟩

/-- Steps of such runs. -/
def Keeps (P : Word → Word → Prop) (L : Image) (s : System H) (e : Event) : Prop :=
  Follows P e ∧ StartsConfigured L s e

instance [∀ T, DecidablePred (P T)] (s : System H) (e : Event) : Decidable (Keeps P L s e) :=
  inferInstanceAs (Decidable (_ ∧ _))

omit [WindowedCore H] [LawfulCore H] in
theorem Keeps.mono (hpq : ∀ T cfg, P T cfg → Q T cfg) {e : Event} (h : Keeps P L s e) :
    Keeps Q L s e := ⟨h.1.mono hpq, h.2⟩

theorem step_kept (h0 : ∀ T, P T 0) (hk : s.Kept P L) {e : Event} (hc : Keeps P L s e)
    (h : step L s e = some s') : s'.Kept P L :=
  ⟨step_wf hk.wf h, step_flagged hk.wf hk.flagged h, step_holds hk.wf hk.holds hc.2 h,
    step_copies h0 hk.wf hk.flagged hk.holds hk.copies hc.1 h⟩

theorem run_kept (h0 : ∀ T, P T 0) (hk : s.Kept P L) {es : List Event}
    (hc : Runs.Along (step L) (Keeps P L) s es) (h : Runs.run (step L) s es = some s') :
    s'.Kept P L :=
  Runs.run_preserved (fun _ _ _ hk hc h => step_kept h0 hk hc h) hk hc h

/-- What the tasks other than `T` may be given while `T` has its registers in `w`. -/
def Spares (T : Word) (w : Window) (U cfg : Word) : Prop :=
  U = T ∨ cfg = 0 ∨ ∃ v : Window, v.Legal ∧ v.Disjoint w ∧ cfg = v.config

theorem spares_zero (T : Word) (w : Window) (U : Word) : Spares T w U 0 := Or.inr (Or.inl rfl)

omit [LawfulCore H] in
theorem Kept.active_ne {T : Word} {w : Window} (hk : s.Kept (Spares T w) L) (hm : s.mode = .task)
    (hT : T ≠ s.current L) (hw : w.Legal) {r r' : Reg} {p : PhysReg} (hp : w.phys r = some p) :
    (active s.m.core).phys r' ≠ some p := by
  have hhigh := hw.phys_high hp
  obtain h0 | ⟨v, hv, hdis, hcfg⟩ := (hk.copies.granted hm).resolve_left hT.symm
  · intro hp'
    have := hk.flagged.low hm h0 r' p hp'
    omega
  · rw [hk.holds.active hm v hv hcfg]
    exact fun hp' => hdis.phys_ne hp' hp

/-- A cell that no other task's window reaches stays as `T` left it. -/
theorem run_spared {T : Word} {p : PhysReg} (h0 : ∀ U, P U 0) (hp : 32 ≤ p.val)
    (hmiss : ∀ t : System H, t.Kept P L → t.mode = .task → T ≠ t.current L →
      ∀ r, (active t.m.core).phys r ≠ some p)
    (hk : s.Kept P L) (hout : s.SwitchedOut L T) {es : List Event}
    (ha : Runs.Along (step L) (Away L T) s es) (hc : Runs.Along (step L) (Keeps P L) s es)
    (h : Runs.run (step L) s es = some s') : cell s'.m.core p = cell s.m.core p := by
  induction es generalizing s with
  | nil =>
    cases h
    rfl
  | cons e es ih =>
    obtain ⟨t, ht, h⟩ := Runs.run_cons.mp h
    have hrest := ih (step_kept h0 hk hc.1 ht) (step_switchedOut hk.wf ht hout ha.1) (ha.2 t ht)
      (hc.2 t ht) h
    apply hrest.trans
    exact step_cell_high hk.wf ht hp fun r _ _ hm => hmiss s hk hm (hout hm) r

/-- Over a whole absence the task finds its cells as it left them. -/
theorem run_window {T : Word} {w : Window} (hk : s.Kept (Spares T w) L) (hw : w.Legal)
    (hout : s.SwitchedOut L T) {es : List Event} (ha : Runs.Along (step L) (Away L T) s es)
    (hc : Runs.Along (step L) (Keeps (Spares T w) L) s es)
    (h : Runs.run (step L) s es = some s') {r : Reg} {p : PhysReg} (hr : w.phys r = some p) :
    cell s'.m.core p = cell s.m.core p := by
  apply run_spared (spares_zero T w) (hw.phys_high hr) _ hk hout ha hc h
  intro t hkt hm hT r'
  exact hkt.active_ne hm hT hw hr

theorem x_eq_of_active {m m' : Machine H} {w : Window} (ha : active m.core = w)
    (ha' : active m'.core = w)
    (hc : ∀ r p, w.phys r = some p → cell m'.core p = cell m.core p) (r : Reg) :
    m'.x r = m.x r := by
  rw [Machine.x, Machine.x, reg_eq, reg_eq, ha, ha']
  cases hp : w.phys r with
  | none => rfl
  | some p => simp only [hc r p hp]

end

/-- A choice of one window for some of the tasks: legal ones, and no two overlap. -/
structure Assignment where
  window : Word → Option Window
  legal : ∀ T w, window T = some w → w.Legal
  disjoint : ∀ T U w v, T ≠ U → window T = some w → window U = some v → w.Disjoint v

namespace Assignment
variable {W : Assignment}

/-- A configuration word that can stand for the window of `T`. -/
def Own (W : Assignment) (T cfg : Word) : Prop :=
  cfg = 0 ∨ ∃ w, W.window T = some w ∧ cfg = w.config

instance (T : Word) : DecidablePred (W.Own T) := fun cfg =>
  match h : W.window T with
  | none => decidable_of_iff (cfg = 0) (by simp [Own, h])
  | some w => decidable_of_iff (cfg = 0 ∨ cfg = w.config) (by simp [Own, h])

theorem own_zero (T : Word) : W.Own T 0 := Or.inl rfl

theorem Own.spares {T : Word} {w : Window} (hw : W.window T = some w) {U cfg : Word}
    (h : W.Own U cfg) : Spares T w U cfg := by
  by_cases hU : U = T
  · exact Or.inl hU
  · refine Or.inr (h.imp id ?_)
    rintro ⟨v, hv, rfl⟩
    exact ⟨v, W.legal U v hv, W.disjoint U T v w hU hv hw, rfl⟩

end Assignment

end RegisterWindows.System
