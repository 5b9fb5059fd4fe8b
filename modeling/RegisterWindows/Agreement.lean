import RegisterWindows.Cva6.Core
import RegisterWindows.MinimalContext

namespace RegisterWindows.System
open Machine Port WindowedCore LawfulCore RegisterWindows.Core

variable {H : Type} [WindowedCore H] {L : Image} {s s' : System H}

/-- What the save paths keep of the configuration a task was entered with. -/
def savedConfig (granted : Word) : Word := if granted &&& 0xFFFF#32 = 0 then 0 else granted

/-- When a task traps, its TCB still asks for the window it was entered with, and the save
paths can tell that window from none; and the first task to start is given its own. -/
def TrapsUnchanged (L : Image) (s : System H) (e : Event) : Prop :=
  match e with
  | .trap _ => (s.tcb (s.current L)).effective = savedConfig s.granted
  | .start => StartsConfigured L s e
  | _ => True

instance TrapsUnchanged.decidable (L : Image) (s : System H) : DecidablePred (TrapsUnchanged L s)
  | .trap _ => inferInstanceAs (Decidable (_ = _))
  | .start => inferInstanceAs (Decidable (StartsConfigured L s .start))
  | .reg .. | .store .. | .jump _ | .mstatus _ | .nesting _ | .switch _ | .dispatch
  | .create .. | .setWindow .. | .setBorrowing .. => isTrue trivial

omit [WindowedCore H] in
theorem TrapsUnchanged.starts {e : Event} (h : TrapsUnchanged L s e) : StartsConfigured L s e := by
  cases e with
  | start => exact h
  | _ => exact nofun

/-- The TCB of every task that is switched out agrees with its frame. -/
def Agrees (L : Image) (s : System H) : Prop :=
  ∀ T ∈ s.created, s.SwitchedOut L T → (s.head T).windowCfg = (s.tcb T).effective

/-- What an entry into the current task tells the core. -/
structure Staged (L : Image) (s : System H) : Prop where
  dispatch : s.mode = .handler →
    staged (portcontextRestoreContext L s.m).core = (s.tcb (s.current L)).effective
  start : ∀ s', TrapsUnchanged L s .start → step L s .start = some s' →
    (s.tcb (s.current L)).effective ≠ 0 →
    interrupted s'.m.core = (s.tcb (s.current L)).effective

omit [WindowedCore H] in
theorem Assigns.effective {e : Event} {T : Word} (ha : Assigns s e T s') :
    (s'.tcb T).effective = s.assignedCfg e := by
  have htarget := ha.target
  rw [ha.assigned.tcb, Function.update_self]
  cases e with
  | setWindow U ulBase ulSize => exact Tcb.effective_own rfl
  | setBorrowing U xEnable =>
    by_cases hb : xEnable = pdFALSE
    · exact Tcb.effective_own (if_pos hb)
    · have hone : assignedBorrow (.setBorrowing U xEnable) = 1 := if_neg hb
      have hne : assignedBorrow (.setBorrowing U xEnable) ≠ 0 := by
        rw [hone]
        decide
      exact (Tcb.effective_borrowing hne).trans (if_neg hb).symm
  | _ => cases htarget

section
variable [LawfulCore H]

/-- The window word of a new frame, as a function of what the task was entered with. -/
theorem Trapped.savedConfig (hf : s.Flagged L) (hh : s.Holds) {c : Word} (ht : Trapped L s c s') :
    (s'.head (s.current L)).windowCfg = savedConfig s.granted := by
  rw [ht.windowCfg, hf.task ht.was, System.savedConfig]
  by_cases h0 : s.granted &&& 0xFFFF#32 = 0
  · rw [if_pos h0, if_pos h0]
  · rw [if_neg h0, if_neg h0]
    refine hh.interrupted ht.was fun hg => h0 ?_
    rw [hg]
    rfl

theorem step_agrees (hw : s.Wf L) (hf : s.Flagged L) (hh : s.Holds) (ha : s.Agrees L) {e : Event}
    (hk : TrapsUnchanged L s e) (h : step L s e = some s') : s'.Agrees L := by
  -- a task that was switched out before and is not called upon
  have hold : ∀ T ∈ s.created, s.SwitchedOut L T → e.assignsTo T = false →
      (s'.head T).windowCfg = (s'.tcb T).effective := by
    intro T hT hout he
    rw [step_head hw h hT hout he, step_tcb hw h hT he]
    exact ha T hT hout
  cases step_kind hw h with
  | trap c ht =>
    intro T hT _
    have hT' : T ∈ s.created := by rw [ht.eq] at hT; exact hT
    by_cases hc : T = s.current L
    · rw [hc, ht.savedConfig hf hh, ← show _ = savedConfig s.granted from hk,
        step_tcb hw h (hc ▸ hT') rfl]
    · exact hold T hT' (fun _ => hc) rfl
  | create U t p q hc =>
    intro T hT hout
    by_cases hTU : T = U
    · rw [hTU, hc.head, hc.tcb_new]
      rfl
    · rw [hc.eq] at hT
      exact hold T ((List.mem_cons.mp hT).resolve_left hTU)
        (switchedOut_of_step hw h (by simp) hout) rfl
  | assigns _ U hU =>
    intro T hT hout
    have hT' : T ∈ s.created := by rw [hU.eq] at hT; exact hT
    by_cases hTU : T = U
    · rw [hTU, hU.windowCfg hw, hU.effective]
    · refine hold T hT' (switchedOut_of_step hw h hU.not_trap hout) ?_
      simpa using fun h => hTU (Event.assignsTo_unique h hU.target)
  | reg r v =>
    exact fun T hT hout => hold T hT (switchedOut_of_step hw h (by simp) hout) rfl
  | switch U hm hU =>
    exact fun T hT hout => hold T hT (switchedOut_of_step hw h (by simp) hout) rfl
  | dispatch hd =>
    intro T hT hout
    rw [hd.eq] at hT
    exact hold T hT (switchedOut_of_step hw h (by simp) hout) rfl
  | start hs =>
    intro T hT hout
    rw [hs.eq] at hT
    exact hold T hT (switchedOut_of_step hw h (by simp) hout) rfl
  | plain _ hp hnull heq hcore =>
    intro T hT hout
    rw [heq] at hT
    exact hold T hT (switchedOut_of_step hw h (by rintro c rfl; cases hp) hout)
      (hnull T (hw.ne_zero hT))

theorem Agrees.staged (hw : s.Wf L) (hh : s.Holds) (ha : s.Agrees L) : s.Staged L where
  dispatch hm := by
    have hc := hw.current (by rw [hm]; decide)
    obtain ⟨s', hs⟩ := dispatch_of_handler (L := L) hm
    refine (step_dispatch hw hs).restored.staged.trans (ha _ hc fun hm' => ?_)
    rw [hm] at hm'
    cases hm'
  start s' hk hs h0 := by
    have hst := step_start hw hs
    have hcfg : (s.head (s.current L)).windowCfg = (s.tcb (s.current L)).effective := by
      refine ha _ hst.created fun hm => ?_
      rw [hst.was] at hm
      cases hm
    have hg : s'.granted = (s.head (s.current L)).windowCfg := by rw [hst.eq]
    have hm' : s'.mode = .task := by rw [hst.eq]
    rw [← hcfg, ← hg]
    exact (step_holds hw hh hk.starts hs).interrupted hm' (by rw [hg, hcfg]; exact h0)

/-- In every run in which tasks trap with the window they were entered with, the TCB, the frame
and the core agree on the window of every task that is switched out. -/
theorem run_agrees {s₀ : System H} (hb : s₀.Boot L) {es : List Event}
    (hk : Runs.Along (step L) (TrapsUnchanged L) s₀ es) (hr : Runs.run (step L) s₀ es = some s) :
    s.Agrees L ∧ s.Staged L := by
  have hp : Runs.Preserved (step L) (TrapsUnchanged L)
      fun s : System H => ((s.Wf L ∧ s.Flagged L) ∧ s.Holds) ∧ s.Agrees L := by
    rintro s e t ⟨⟨⟨hw, hf⟩, hh⟩, ha⟩ hk h
    exact ⟨⟨⟨step_wf hw h, step_flagged hw hf h⟩, step_holds hw hh hk.starts h⟩,
      step_agrees hw hf hh ha hk h⟩
  have hempty : s₀.Agrees L := fun T hT => by rw [hb.created] at hT; cases hT
  have hi := Runs.run_preserved hp ⟨⟨⟨hb.wf, hb.flagged⟩, hb.holds⟩, hempty⟩ hk hr
  exact ⟨hi.2, hi.2.staged hi.1.1.1 hi.1.2⟩

end

/-- The windowed task of `soloRun` after a yield. -/
theorem soloRun_agrees :
    ∃ s : System Cva6.Regs,
      Runs.run (step smallImage) (small Cva6.Regs.reset) (soloRun 0x00100020 ++ [.trap 11]) =
        some s ∧ s.Agrees smallImage ∧ s.Staged smallImage := by
  have hfacts : (Runs.run (step smallImage) (small Cva6.Regs.reset)
      (soloRun 0x00100020 ++ [.trap 11])).isSome := by decide +kernel
  obtain ⟨s, hs⟩ := Option.isSome_iff_exists.mp hfacts
  exact ⟨s, hs, run_agrees (boot_small (by decide)) (by decide +kernel) hs⟩

/-- A task with a window of base 0 that has just started. -/
def baseZeroRun : List Event :=
  [.store 0x2E88 0x00200000, .create 0x1000 0x2F00 0x8000 0, .setWindow 0x1000 0 32,
   .switch 0x1000, .start]

/-- The save path takes base 0 for no window at all, and only the TCB still knows better. -/
theorem baseZeroRun_disagrees :
    ∃ s : System Cva6.Regs,
      Runs.run (step smallImage) (small Cva6.Regs.reset) (baseZeroRun ++ [.trap 11]) = some s ∧
      (s.tcb 0x1000).effective = 0x00200000 ∧ (s.head 0x1000).windowCfg = 0 ∧
      ¬ s.Agrees smallImage := by
  have hfacts : (Runs.run (step smallImage) (small Cva6.Regs.reset) baseZeroRun).map
      (fun s => ([s.current smallImage, s.m.mem (smallImage.addr .portCurrentTaskWindowBase),
        (s.tcb 0x1000).effective], s.created, (step smallImage s (.trap 11)).isSome)) =
      some ([0x1000, 0, 0x00200000], [0x1000], true) := by decide +kernel
  obtain ⟨s, hs, hf⟩ := Option.map_eq_some_iff.mp hfacts
  simp only [Prod.mk.injEq, List.cons.injEq, and_true] at hf
  obtain ⟨⟨hcur, hflag, htcb⟩, hcre, hsome⟩ := hf
  obtain ⟨s₁, h₁⟩ := Option.isSome_iff_exists.mp hsome
  have hw := run_wf (boot_small (by decide)).wf hs
  have ht := step_trap hw h₁
  have hT : (0x1000 : Word) ∈ s.created := by
    rw [hcre]
    exact List.mem_cons_self
  have hcfg : (s₁.head 0x1000).windowCfg = 0 := by
    rw [← hcur, ht.windowCfg, if_pos hflag]
  have heff : (s₁.tcb 0x1000).effective = 0x00200000 := by
    rw [step_tcb hw h₁ hT rfl, htcb]
  refine ⟨s₁, Runs.run_concat hs h₁, heff, hcfg, fun ha => ?_⟩
  have hsame := ha 0x1000 (step_created hw h₁ hT) fun hm => by rw [ht.eq] at hm; cases hm
  rw [hcfg, heff] at hsame
  exact absurd hsame (by decide)

end RegisterWindows.System
