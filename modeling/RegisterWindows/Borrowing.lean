import RegisterWindows.Agreement

namespace RegisterWindows

/-- A call that lets the task borrow. -/
def Event.enables (T : Word) : Event → Bool
  | .setBorrowing U xEnable => U == T && xEnable != Port.pdFALSE
  | _ => false

/-- A call that gives the task another window. -/
def Event.rewindows (T : Word) : Event → Bool
  | .setWindow U _ _ => U == T
  | _ => false

namespace System
open Machine Port WindowedCore LawfulCore RegisterWindows.Core

variable {H : Type} [WindowedCore H] {L : Image} {s s' t u : System H} {T cfg : Word}

/-- What a trap taken now would save as the window of the running task. -/
def savedNow (L : Image) (s : System H) : Word :=
  if s.m.mem (L.addr .portCurrentTaskWindowBase) = 0 then 0 else interrupted s.m.core

/-- Neither a call on the task nor an entry into it. -/
def Uncalled (L : Image) (T : Word) (s : System H) (e : Event) : Prop :=
  Away L T s e ∧ e.assignsTo T = false

/-- The task has its window back: in its TCB, in its frame, and when it is next dispatched. -/
structure Reversed (L : Image) (T cfg : Word) (s : System H) : Prop where
  tcb : (s.tcb T).ulPortWindowConfig = cfg
  borrow : (s.tcb T).ucPortBorrowKernelWindow = 0
  frame : (s.head T).windowCfg = cfg
  dispatched : ∀ fs t t', Runs.Along (step L) (Uncalled L T) s fs →
    Runs.run (step L) s fs = some t → t.current L = T → step L t .dispatch = some t' →
    staged (portcontextRestoreContext L t.m).core = cfg ∧
      ∀ w : Window, w.Legal → cfg = w.config → active t'.m.core = w

/-- The task can come to be dispatched again before another call on it. -/
def Interruptible (L : Image) (T : Word) (s : System H) : Prop :=
  ∃ fs t, Runs.Along (step L) (Uncalled L T) s fs ∧ Runs.run (step L) s fs = some t ∧
    t.mode = .handler ∧ t.current L = T

section
variable [LawfulCore H]

/-- Enabling forgets the configuration, and nothing but `vPortTaskSetRegisterWindow` knows it. -/
theorem step_cfg (hw : s.Wf L) {e : Event} (h : step L s e = some s') (hT : T ∈ s.created)
    (he : e.rewindows T = false) : (s'.tcb T).ulPortWindowConfig =
      if e.enables T then 0 else (s.tcb T).ulPortWindowConfig := by
  cases hcall : e.assignsTo T with
  | false =>
    rw [step_tcb hw h hT hcall]
    cases e <;> simp_all [Event.enables, Event.assignsTo]
  | true =>
    cases e with
    | setWindow U ulBase ulSize =>
      rw [show Event.rewindows T (.setWindow U ulBase ulSize) = _ from hcall] at he
      cases he
    | setBorrowing U xEnable =>
      have hU : U = T := by simpa [Event.assignsTo] using hcall
      subst hU
      rcases step_setBorrowing h with ⟨rfl, -⟩ | ha
      · exact absurd rfl (hw.ne_zero hT)
      · rw [ha.tcb_cfg]
        by_cases hb : xEnable = pdFALSE <;> simp [assignedCfg, Event.enables, hb]
    | _ => cases hcall

theorem run_cfg (hw : s.Wf L) (hT : T ∈ s.created) {es : List Event}
    (hes : ∀ e ∈ es, e.rewindows T = false) (h : Runs.run (step L) s es = some t) :
    t.Wf L ∧ T ∈ t.created ∧ (t.tcb T).ulPortWindowConfig =
      if es.any (Event.enables T) then 0 else (s.tcb T).ulPortWindowConfig := by
  induction es generalizing s with
  | nil =>
    cases h
    exact ⟨hw, hT, rfl⟩
  | cons e es ih =>
    obtain ⟨s₁, h₁, h⟩ := Runs.run_cons.mp h
    obtain ⟨hwt, hTt, hcfg⟩ := ih (step_wf hw h₁) (step_created hw h₁ hT)
      (fun f hf => hes f (List.mem_cons_of_mem e hf)) h
    refine ⟨hwt, hTt, hcfg.trans ?_⟩
    rw [step_cfg hw h₁ hT (hes e List.mem_cons_self), List.any_cons]
    cases e.enables T <;> cases es.any (Event.enables T) <;> rfl

theorem step_running (hw : s.Wf L) {e : Event} (h : step L s e = some s') (hm : s.mode = .task)
    (he : ∀ c, e ≠ .trap c) :
    s'.mode = .task ∧ s'.current L = s.current L ∧ s'.savedNow L = s.savedNow L := by
  have hkeep : e.enters = false → (∀ U, e ≠ .switch U) → s'.mode = s.mode →
      interrupted s'.m.core = interrupted s.m.core →
      s'.mode = .task ∧ s'.current L = s.current L ∧ s'.savedNow L = s.savedNow L := by
    intro hn hs hm' hi
    refine ⟨hm'.trans hm, step_current hw h hs, ?_⟩
    simp only [savedNow, step_flag hw h hn, hi]
  cases step_kind hw h with
  | reg r v => exact hkeep rfl nofun rfl (interrupted_setReg _ _ _)
  | switch U hs hU => exact absurd hm hs
  | trap c ht => exact absurd rfl (he c)
  | dispatch hd => rw [hd.was] at hm; cases hm
  | start hs => rw [hs.was] at hm; cases hm
  | create U t p q hc => exact hkeep rfl nofun (by rw [hc.eq]) (by rw [hc.eq])
  | assigns _ U ha => exact hkeep ha.not_enters ha.not_switch (by rw [ha.eq]) (by rw [ha.core])
  | plain _ hp hnull heq hcore =>
    exact hkeep (Event.plain_not_enters hp) (by rintro U rfl; cases hp) (by rw [heq])
      (by rw [hcore])

/-- Where the window of a task is until it is dispatched: in its frame, or, as long as it runs on,
in the core. -/
structure Waits (L : Image) (T cfg : Word) (s : System H) : Prop where
  wf : s.Wf L
  created : T ∈ s.created
  window : (s.SwitchedOut L T ∧ (s.head T).windowCfg = cfg) ∨
    (s.mode = .task ∧ s.current L = T ∧ s.savedNow L = cfg)

theorem step_waits (hw : s.Waits L T cfg) {e : Event} (he : Uncalled L T s e)
    (h : step L s e = some s') : s'.Waits L T cfg := by
  refine ⟨step_wf hw.wf h, step_created hw.wf h hw.created, ?_⟩
  rcases hw.window with ⟨hout, hcfg⟩ | ⟨hm, rfl, hcfg⟩
  · refine Or.inl ⟨step_switchedOut hw.wf h hout he.1, ?_⟩
    rw [step_head hw.wf h hw.created hout he.2]
    exact hcfg
  · by_cases htrap : ∃ c, e = .trap c
    · obtain ⟨c, rfl⟩ := htrap
      have ht := step_trap hw.wf h
      refine Or.inl ⟨fun hm' => ?_, ht.windowCfg.trans hcfg⟩
      rw [ht.eq] at hm'
      cases hm'
    · obtain ⟨hm', hcur, hsaved⟩ := step_running hw.wf h hm (not_exists.mp htrap)
      exact Or.inr ⟨hm', hcur, hsaved.trans hcfg⟩

theorem Waits.dispatched (hw : s.Waits L T cfg) (hc : s.current L = T)
    (h : step L s .dispatch = some s') :
    staged (portcontextRestoreContext L s.m).core = cfg ∧
      ∀ w : Window, w.Legal → cfg = w.config → active s'.m.core = w := by
  have hd := step_dispatch hw.wf h
  rcases hw.window with ⟨-, hcfg⟩ | ⟨hm, -⟩
  · have hst : staged (portcontextRestoreContext L s.m).core = cfg := by
      rw [← hcfg, ← hc]
      exact hd.restored.staged
    refine ⟨hst, fun w hl hcw => ?_⟩
    rw [hd.eq]
    exact active_mret _ w hl (hst.trans hcw)
  · rw [hd.was] at hm
    cases hm

theorem Assigns.waits (hw : t.Wf L) {e : Event} (ha : Assigns t e T u) (h : step L t e = some u)
    (hm : t.mode = .task) (hc : t.current L = T) : u.Waits L T (t.savedNow L) := by
  obtain ⟨hm', hcur, hsaved⟩ := step_running hw h hm ha.not_trap
  exact ⟨step_wf hw h, step_created hw h ha.created, Or.inr ⟨hm', hcur.trans hc, hsaved⟩⟩

/-- After any calls of `vPortTaskSetKernelBorrowing` on a task, interleaved with anything but
another window for it, a last one that ends the borrowing gives it back its window exactly when
none before it began to borrow, and, if the task runs at the last call and is to be dispatched
again, a trap would save that window for it. -/
theorem borrowing_reversed_iff {s₀ : System H} (hb : s₀.Boot L) {pre es : List Event}
    (hpre : Runs.run (step L) s₀ pre = some s) (hT : T ∈ s.created)
    (hes : ∀ e ∈ es, e.rewindows T = false) (hr : Runs.run (step L) s es = some t)
    (hd : step L t (.setBorrowing T pdFALSE) = some u) :
    Reversed L T (s.tcb T).ulPortWindowConfig u ↔
      ((∀ e ∈ es, e.enables T = false) ∨ (s.tcb T).ulPortWindowConfig = 0) ∧
      (t.mode = .task → t.current L = T → u.Interruptible L T →
        t.savedNow L = (s.tcb T).ulPortWindowConfig) := by
  obtain ⟨hw, hTt, hcfg⟩ := run_cfg (run_wf hb.wf hpre) hT hes hr
  have ha : Assigns t (.setBorrowing T pdFALSE) T u :=
    (step_setBorrowing hd).resolve_left fun h0 => hw.ne_zero hTt h0.1
  have hassigned : t.assignedCfg (.setBorrowing T pdFALSE) = (t.tcb T).ulPortWindowConfig := by
    simp [assignedCfg]
  have htcb : (u.tcb T).ulPortWindowConfig = (t.tcb T).ulPortWindowConfig :=
    ha.tcb_cfg.trans hassigned
  constructor
  · intro hrev
    refine ⟨?_, fun hm hc hi => ?_⟩
    · rcases Bool.eq_false_or_eq_true (es.any (Event.enables T)) with hany | hnone
      · rw [hany, if_pos rfl] at hcfg
        exact Or.inr (by rw [← hrev.tcb, htcb, hcfg])
      · exact Or.inl fun e he => by simpa using List.any_eq_false.mp hnone e he
    · obtain ⟨fs, v, hfs, hv, hmv, hcv⟩ := hi
      obtain ⟨v', hv'⟩ := dispatch_of_handler (L := L) hmv
      have hwaits := Runs.run_preserved (fun _ _ _ hi he h => step_waits hi he h)
        (ha.waits hw hd hm hc) hfs hv
      exact (hwaits.dispatched hcv hv').1.symm.trans (hrev.dispatched fs v v' hfs hv hcv hv').1
  · rintro ⟨hcond, hrun⟩
    have hkept : (t.tcb T).ulPortWindowConfig = (s.tcb T).ulPortWindowConfig := by
      rcases hcond with hnone | h0
      · have hany : es.any (Event.enables T) = false :=
          List.any_eq_false.mpr fun e he => by simp [hnone e he]
        simpa [hany] using hcfg
      · simpa [h0] using hcfg
    have hframe : (u.head T).windowCfg = (s.tcb T).ulPortWindowConfig := by
      rw [ha.windowCfg hw, hassigned, hkept]
    have hwaits : u.Interruptible L T → u.Waits L T (s.tcb T).ulPortWindowConfig := by
      intro hi
      by_cases hrunning : t.mode = .task ∧ t.current L = T
      · obtain ⟨hm, hcur⟩ := hrunning
        exact hrun hm hcur hi ▸ ha.waits hw hd hm hcur
      · refine ⟨step_wf hw hd, step_created hw hd hTt,
          Or.inl ⟨fun hm hT' => hrunning ⟨?_, ?_⟩, hframe⟩⟩
        · rw [ha.eq] at hm
          exact hm
        · rw [← step_current hw hd (by intro T he; cases he), hT']
    refine ⟨htcb.trans hkept, ?_, hframe, fun fs v v' hfs hv hc hv' => ?_⟩
    · rw [ha.assigned.tcb, Function.update_self]
      rfl
    · have hwv : v.Wf L := run_wf (step_wf hw hd) hv
      have hi : u.Interruptible L T := ⟨fs, v, hfs, hv, (step_dispatch hwv hv').was, hc⟩
      have hv₂ := Runs.run_preserved (fun _ _ _ hi he h => step_waits hi he h) (hwaits hi) hfs hv
      exact hv₂.dispatched hc hv'

end

/-- A task with cells 32 to 47 before the scheduler starts. -/
def ownWindow : List Event := [.create 0x1000 0x2F00 0x8000 0, .setWindow 0x1000 32 16]

theorem ownWindow_reversed :
    ∃ s t u : System Cva6.Regs,
      Runs.run (step smallImage) (small Cva6.Regs.reset) ownWindow = some s ∧
      Runs.run (step smallImage) s [.setBorrowing 0x1000 pdFALSE] = some t ∧
      step smallImage t (.setBorrowing 0x1000 pdFALSE) = some u ∧
      Reversed smallImage 0x1000 (s.tcb 0x1000).ulPortWindowConfig u := by
  have hfacts : (Runs.run (step smallImage) (small Cva6.Regs.reset) ownWindow).map (fun s =>
      (s.created, (Runs.run (step smallImage) s [.setBorrowing 0x1000 pdFALSE]).map fun t =>
        (t.mode, (step smallImage t (.setBorrowing 0x1000 pdFALSE)).isSome))) =
      some ([0x1000], some (.boot, true)) := by decide +kernel
  obtain ⟨s, hs, hf⟩ := Option.map_eq_some_iff.mp hfacts
  obtain ⟨hcre, hf⟩ := Prod.mk.inj hf
  obtain ⟨t, ht, hf⟩ := Option.map_eq_some_iff.mp hf
  obtain ⟨hm, hsome⟩ := Prod.mk.inj hf
  obtain ⟨u, hu⟩ := Option.isSome_iff_exists.mp hsome
  refine ⟨s, t, u, hs, ht, hu, ?_⟩
  have hT : (0x1000 : Word) ∈ s.created := by simp [hcre]
  refine (borrowing_reversed_iff (boot_small (by decide)) hs hT (by simp [Event.rewindows]) ht
    hu).mpr ⟨Or.inl (by decide), fun hmt => ?_⟩
  rw [hm] at hmt
  cases hmt

/-- One round of borrowing, and the window is lost. -/
theorem ownWindow_lost :
    ∃ s u : System Cva6.Regs,
      Runs.run (step smallImage) (small Cva6.Regs.reset) ownWindow = some s ∧
      (s.tcb 0x1000).ulPortWindowConfig = 0x00100020 ∧
      Runs.run (step smallImage) s [.setBorrowing 0x1000 pdTRUE, .setBorrowing 0x1000 pdFALSE] =
        some u ∧ ¬ Reversed smallImage 0x1000 0x00100020 u := by
  have hfacts : (Runs.run (step smallImage) (small Cva6.Regs.reset) ownWindow).map (fun s =>
      ((s.tcb 0x1000).ulPortWindowConfig, (Runs.run (step smallImage) s
        [.setBorrowing 0x1000 pdTRUE, .setBorrowing 0x1000 pdFALSE]).map fun u =>
          (u.tcb 0x1000).ulPortWindowConfig)) = some (0x00100020, some 0) := by decide +kernel
  obtain ⟨s, hs, hf⟩ := Option.map_eq_some_iff.mp hfacts
  obtain ⟨hcfg, hf⟩ := Prod.mk.inj hf
  obtain ⟨u, hu, h0⟩ := Option.map_eq_some_iff.mp hf
  refine ⟨s, u, hs, hcfg, hu, fun hrev => ?_⟩
  have htcb := hrev.tcb
  rw [h0] at htcb
  exact absurd htcb (by decide)

end System

end RegisterWindows
