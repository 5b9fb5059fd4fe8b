import RegisterWindows.Entry

namespace RegisterWindows
open Machine Port

inductive WindowCall where
  | vPortTaskSetRegisterWindow (ulBase ulSize : Word)
  | vPortTaskSetKernelBorrowing (xEnable : BaseType)
deriving DecidableEq, Repr

/-- The call as one step. -/
def WindowCall.call {H : Type} (L : Image) (k : Rtos H) (xTask : Word) :
    WindowCall → Option (Rtos H)
  | .vPortTaskSetRegisterWindow ulBase ulSize => k.vPortTaskSetRegisterWindow L xTask ulBase ulSize
  | .vPortTaskSetKernelBorrowing xEnable => k.vPortTaskSetKernelBorrowing L xTask xEnable

/-- What the call is about to do. -/
inductive CallPoint where
  | entry
  | context
  | fetch
  | store
  | done
deriving DecidableEq, Repr

/-- A call that can be preempted between its steps. Only the two accesses to the TCB members are
critical sections; the stack pointer is fetched and used outside of them. -/
structure ApiCall where
  caller : Word
  xTask : Word
  fn : WindowCall
  point : CallPoint
  ulWindowConfig : Word
  pxTopOfStack : Word
deriving DecidableEq

namespace ApiCall

def begin (caller xTask : Word) (fn : WindowCall) : ApiCall := ⟨caller, xTask, fn, .entry, 0, 0⟩

/-- `xBorrowKernelWindow` of `vTaskSetWindowingContext`. -/
def borrows (c : ApiCall) : BaseType :=
  match c.fn with
  | .vPortTaskSetRegisterWindow _ _ => pdFALSE
  | .vPortTaskSetKernelBorrowing xEnable => xEnable

/-- The word for the frame. -/
def frameCfg (c : ApiCall) : Word :=
  match c.fn with
  | .vPortTaskSetRegisterWindow _ _ => c.ulWindowConfig
  | .vPortTaskSetKernelBorrowing xEnable => if xEnable ≠ pdFALSE then 0 else c.ulWindowConfig

end ApiCall

/-- A system in which a task, or `main`, is inside a call. -/
structure Preempted (H : Type) where
  sys : System H
  call : ApiCall
  /-- History: the frame that the target's last trap since the fetch has pushed. -/
  pushedSince : Option Word

inductive PreemptedEvent where
  | advance
  | other (e : Event)

namespace Preempted
open RegisterWindows.System WindowedCore LawfulCore

variable {H : Type}

/-- The caller has the processor. -/
def CallerRuns (L : Image) (p : Preempted H) : Prop :=
  p.sys.mode = .boot ∨ (p.sys.mode = .task ∧ p.sys.current L = p.call.caller)

instance (L : Image) (p : Preempted H) : Decidable (p.CallerRuns L) :=
  inferInstanceAs (Decidable (_ ∨ _))

/-- `ulWindowConfig`, and the machine after the critical section in which it may be read. -/
def localConfig (L : Image) (p : Preempted H) : Rtos H × Word :=
  match p.call.fn with
  | .vPortTaskSetRegisterWindow ulBase ulSize => (p.sys.toRtos, Window.pack ulBase ulSize)
  | .vPortTaskSetKernelBorrowing xEnable =>
    if xEnable = pdFALSE then
      match p.sys.toRtos.xTaskGetWindowingContext L p.call.xTask with
      | (k, some (cfg, _, _)) => (k, cfg)
      | (k, none) => (k, 0)
    else (p.sys.toRtos, 0)

/-- One step of the caller. -/
def advance (L : Image) (p : Preempted H) : Option (Preempted H) :=
  if p.CallerRuns L ∧ (p.call.xTask = 0 ∨ p.call.xTask ∈ p.sys.created) then
    match p.call.point with
    | .entry =>
      if p.call.xTask = 0 then some { p with call := { p.call with point := .done } }
      else some { p with
        sys := { p.sys with toRtos := (p.localConfig L).1 }
        call := { p.call with point := .context, ulWindowConfig := (p.localConfig L).2 } }
    | .context =>
      (p.sys.toRtos.vTaskSetWindowingContext L p.call.xTask p.call.ulWindowConfig
        p.call.borrows).map fun k => { p with
          sys := { p.sys with toRtos := k }
          call := { p.call with point := .fetch } }
    | .fetch => some { p with
        call := { p.call with point := .store, pxTopOfStack := p.sys.m.mem p.call.xTask }
        pushedSince := none }
    | .store => some { p with
        sys := { p.sys with m :=
          (if p.call.pxTopOfStack ≠ 0 then
            p.sys.m.store (p.call.pxTopOfStack + slot portWindowCfgOffset) p.call.frameCfg
          else p.sys.m) }
        call := { p.call with point := .done } }
    | .done => none
  else none

variable [WindowedCore H]

/-- Other tasks, handlers and the caller's own traps come between the steps of the call. -/
def step (L : Image) (p : Preempted H) : PreemptedEvent → Option (Preempted H)
  | .advance => p.advance L
  | .other e => (RegisterWindows.System.step L p.sys e).map fun s => { p with
      sys := s
      pushedSince := match e with
        | .trap _ => if p.sys.current L = p.call.xTask then some p.sys.nextFrame else p.pushedSince
        | _ => p.pushedSince }

/-- A step of the caller writes nothing but the window members of the target's TCB and, at the
end, the window word of the frame that the target is switched out on. -/
structure OnlySavedFrame (L : Image) (p p' : Preempted H) : Prop where
  tcb : ∀ T ≠ p.call.xTask, p'.sys.tcb T = p.sys.tcb T
  last : ∀ T, (p'.sys.tcb T).ucPortLastContextType = (p.sys.tcb T).ucPortLastContextType
  before : p.call.point ≠ .store → p'.sys.m.mem = p.sys.m.mem
  out : p.call.point = .store → p.sys.SwitchedOut L p.call.xTask
  word : p.call.point = .store → p.call.pxTopOfStack + slot portWindowCfgOffset =
    p.sys.frameOf p.call.xTask + slot portWindowCfgOffset
  store : p.call.point = .store → p'.sys.m.mem =
    Function.update p.sys.m.mem (p.sys.frameOf p.call.xTask + slot portWindowCfgOffset)
      p.call.frameCfg

/-- The target is not the caller, and what it has pushed since the fetch is at the fetched
address. -/
def Fresh (p : Preempted H) : Prop :=
  (p.sys.mode = .task → p.call.xTask ≠ p.call.caller) ∧
    ∀ f ∈ p.pushedSince, f = p.call.pxTopOfStack

/-- What is known of a call in progress. -/
structure Tracks (L : Image) (p : Preempted H) : Prop where
  wf : p.sys.Wf L
  target : p.call.point = .entry ∨ p.call.point = .done ∨ p.call.xTask ∈ p.sys.created
  stack : p.call.point = .store → InStack L p.call.xTask p.call.pxTopOfStack
  frame : p.call.point = .store →
    p.sys.frameOf p.call.xTask = p.pushedSince.getD p.call.pxTopOfStack

section
variable {L : Image} {p p' : Preempted H}

omit [WindowedCore H] in
theorem localConfig_spec (L : Image) (p : Preempted H) :
    (p.localConfig L).1.m.mem = p.sys.m.mem ∧ (p.localConfig L).1.m.core = p.sys.m.core ∧
      (p.localConfig L).1.tcb = p.sys.tcb := by
  have hget : ∀ T, (p.sys.xTaskGetWindowingContext L T).1.m.mem = p.sys.m.mem ∧
      (p.sys.xTaskGetWindowingContext L T).1.m.core = p.sys.m.core ∧
      (p.sys.xTaskGetWindowingContext L T).1.tcb = p.sys.tcb := by
    intro T
    simp only [Rtos.xTaskGetWindowingContext, Rtos.exit_enter_critical]
    split <;> exact ⟨rfl, rfl, rfl⟩
  unfold localConfig
  split
  · exact ⟨rfl, rfl, rfl⟩
  · split
    · have h := hget p.call.xTask
      split
      · rename_i hk
        rw [hk] at h
        exact h
      · rename_i hk
        rw [hk] at h
        exact h
    · exact ⟨rfl, rfl, rfl⟩

/-- What a step of the caller does. -/
structure Advanced (L : Image) (p p' : Preempted H) : Prop where
  runs : p.CallerRuns L
  sys : p'.sys = { p.sys with toRtos := p'.sys.toRtos }
  core : p'.sys.m.core = p.sys.m.core
  mem : p'.sys.m.mem = if p.call.point = .store ∧ p.call.pxTopOfStack ≠ 0 then
      Function.update p.sys.m.mem (p.call.pxTopOfStack + slot portWindowCfgOffset) p.call.frameCfg
    else p.sys.m.mem
  tcb : ∀ T ≠ p.call.xTask, p'.sys.tcb T = p.sys.tcb T
  last : ∀ T, (p'.sys.tcb T).ucPortLastContextType = (p.sys.tcb T).ucPortLastContextType
  caller : p'.call.caller = p.call.caller
  xTask : p'.call.xTask = p.call.xTask
  target : p'.call.point = .done ∨ p.call.xTask ∈ p.sys.created
  fetch : p'.call.point = .store → p.call.point = .fetch ∧ p'.pushedSince = none ∧
    p'.call.pxTopOfStack = p.sys.frameOf p.call.xTask

theorem advanced (hi : p.Tracks L) (h : p.advance L = some p') : Advanced L p p' := by
  unfold advance at h
  split at h
  case isFalse => cases h
  rename_i hg
  obtain ⟨hruns, htarget⟩ := hg
  cases hp : p.call.point with
  | entry =>
    simp only [hp] at h
    split at h
    · cases h
      exact ⟨hruns, rfl, rfl, by simp [hp], fun _ _ => rfl, fun _ => rfl, rfl, rfl, Or.inl rfl,
        nofun⟩
    · rename_i h0
      obtain ⟨hmem, hcore, htcb⟩ := localConfig_spec L p
      cases h
      refine ⟨hruns, rfl, hcore, ?_, fun T _ => congrFun htcb T, fun T => ?_, rfl, rfl,
        Or.inr (htarget.resolve_left h0), nofun⟩
      · simpa [hp] using hmem
      · exact congrArg Tcb.ucPortLastContextType (congrFun htcb T)
  | context =>
    simp only [hp] at h
    have hT : p.call.xTask ∈ p.sys.created := by simpa [hp] using hi.target
    obtain ⟨k, hk, h⟩ := Option.map_eq_some_iff.mp h
    obtain ⟨k', hk', hcore, -, hmem, htcb⟩ := Rtos.vTaskSetWindowingContext_of_ne L p.sys.toRtos
      (hi.wf.ne_zero hT) p.call.ulWindowConfig p.call.borrows
    cases hk.symm.trans hk'
    cases h
    refine ⟨hruns, rfl, hcore, ?_, fun T hne => ?_, fun T => ?_, rfl, rfl, Or.inr hT,
      nofun⟩
    · simpa [hp] using hmem
    · exact (congrFun htcb T).trans (Function.update_of_ne hne _ _)
    · simp only [htcb]
      by_cases hne : T = p.call.xTask
      · subst hne
        simp
      · simp [hne]
  | fetch =>
    simp only [hp] at h
    have hT : p.call.xTask ∈ p.sys.created := by simpa [hp] using hi.target
    cases h
    exact ⟨hruns, rfl, rfl, by simp [hp], fun _ _ => rfl, fun _ => rfl, rfl, rfl, Or.inr hT,
      fun _ => ⟨hp, rfl, rfl⟩⟩
  | store =>
    simp only [hp] at h
    have hT : p.call.xTask ∈ p.sys.created := by simpa [hp] using hi.target
    cases h
    refine ⟨hruns, rfl, ?_, ?_, fun _ _ => rfl, fun _ => rfl, rfl, rfl, Or.inl rfl, nofun⟩
    · simp only
      split <;> rfl
    · by_cases h0 : p.call.pxTopOfStack = 0
      · simp [h0]
      · simp only [h0, hp, ne_eq, not_false_eq_true, and_self, if_true]
        rfl
  | done =>
    simp only [hp] at h
    cases h

theorem Tracks.ne_null (hi : p.Tracks L) (hp : p.call.point = .store) :
    p.call.pxTopOfStack ≠ 0 := by
  intro h0
  have hreg := hi.stack hp 0 (by decide)
  rw [h0, show (0 : Word) + slot 0 = 0 from rfl, L.region_null] at hreg
  cases hreg

theorem Advanced.mem_other (hi : p.Tracks L) (ha : Advanced L p p') {a : Word}
    (hr : L.region a ≠ .stack p.call.xTask) : p'.sys.m.mem a = p.sys.m.mem a := by
  rw [ha.mem]
  split
  · rename_i hp
    exact Function.update_of_ne ((hi.stack hp.1).ne_slot hr (by decide)) ..
  · rfl

theorem Advanced.wf (hi : p.Tracks L) (ha : Advanced L p p') : p'.sys.Wf L := by
  have hcre : p'.sys.created = p.sys.created := by rw [ha.sys]
  have hmode : p'.sys.mode = p.sys.mode := by rw [ha.sys]
  have hsym : ∀ x, p'.sys.m.mem (L.addr x) = p.sys.m.mem (L.addr x) := by
    intro x
    exact ha.mem_other hi (by simp [L.region_addr])
  have hcur : p'.sys.current L = p.sys.current L := hsym _
  refine ⟨(hsym _).trans hi.wf.nestingPtr, hcre ▸ hi.wf.tcb, fun T hT => ?_, fun hm => ?_,
    fun hm => ?_⟩
  · rw [hcre] at hT
    have hframe : p'.sys.frameOf T = p.sys.frameOf T :=
      ha.mem_other hi (by simp [hi.wf.tcb T hT])
    rw [hframe]
    exact hi.wf.frame T hT
  · rw [hcur, hcre]
    exact hi.wf.current (hmode ▸ hm)
  · rw [Machine.Kernel, ha.core]
    exact hi.wf.kernel (hmode ▸ hm)

theorem advance_tracks (hi : p.Tracks L) (h : p.advance L = some p') : p'.Tracks L := by
  have ha := advanced hi h
  have hcre : p'.sys.created = p.sys.created := by rw [ha.sys]
  refine ⟨ha.wf hi, ?_, fun hp => ?_, fun hp => ?_⟩
  · rw [ha.xTask, hcre]
    exact Or.inr ha.target
  · obtain ⟨hpoint, -, hpx⟩ := ha.fetch hp
    rw [ha.xTask, hpx]
    exact hi.wf.frame _ (by simpa [hpoint] using hi.target)
  · obtain ⟨hpoint, hnone, hpx⟩ := ha.fetch hp
    have hmem : p'.sys.m.mem = p.sys.m.mem := by simpa [hpoint] using ha.mem
    rw [ha.xTask, hnone, hpx]
    exact congrFun hmem p.call.xTask

theorem Advanced.callerRuns (hi : p.Tracks L) (ha : Advanced L p p') : p'.CallerRuns L := by
  have hmode : p'.sys.mode = p.sys.mode := by rw [ha.sys]
  have hcur : p'.sys.current L = p.sys.current L := ha.mem_other hi (by simp [L.region_addr])
  rw [CallerRuns, hmode, hcur, ha.caller]
  exact ha.runs

omit [WindowedCore H] in
theorem call_eq (h0 : p.call.xTask ≠ 0) : p.call.fn.call L p.sys.toRtos p.call.xTask =
    ((p.localConfig L).1.vTaskSetWindowingContext L p.call.xTask (p.localConfig L).2
      p.call.borrows).map fun k => k.writeFrameCfg p.call.xTask
        { p.call with ulWindowConfig := (p.localConfig L).2 }.frameCfg := by
  cases hfn : p.call.fn with
  | vPortTaskSetRegisterWindow ulBase ulSize =>
    simp only [localConfig, ApiCall.borrows, ApiCall.frameCfg, hfn]
    exact if_neg h0
  | vPortTaskSetKernelBorrowing xEnable =>
    simp only [localConfig, ApiCall.borrows, ApiCall.frameCfg, hfn]
    exact if_neg h0

section
variable (hruns : p.CallerRuns L) (hT : p.call.xTask ∈ p.sys.created)
include hruns hT

omit [WindowedCore H] in
theorem advance_entry (hp : p.call.point = .entry) (h0 : p.call.xTask ≠ 0) :
    ∃ q, p.advance L = some q ∧ q.sys.toRtos = (p.localConfig L).1 ∧
      q.sys.created = p.sys.created ∧
      q.call = { p.call with point := .context, ulWindowConfig := (p.localConfig L).2 } := by
  simp only [advance, hp, if_pos (And.intro hruns (Or.inr hT)), if_neg h0]
  exact ⟨_, rfl, rfl, rfl, rfl⟩

omit [WindowedCore H] in
theorem advance_context (hp : p.call.point = .context) {k : Rtos H}
    (hk : p.sys.toRtos.vTaskSetWindowingContext L p.call.xTask p.call.ulWindowConfig
      p.call.borrows = some k) :
    ∃ q, p.advance L = some q ∧ q.sys.toRtos = k ∧ q.sys.created = p.sys.created ∧
      q.call = { p.call with point := .fetch } := by
  simp only [advance, hp, if_pos (And.intro hruns (Or.inr hT)), hk]
  exact ⟨_, rfl, rfl, rfl, rfl⟩

omit [WindowedCore H] in
theorem advance_fetch (hp : p.call.point = .fetch) :
    ∃ q r, p.advance L = some q ∧ q.advance L = some r ∧
      r.sys.toRtos = p.sys.toRtos.writeFrameCfg p.call.xTask p.call.frameCfg := by
  simp only [advance, hp, if_pos (And.intro hruns (Or.inr hT))]
  refine ⟨_, _, rfl, if_pos ⟨hruns, Or.inr hT⟩, ?_⟩
  by_cases h0 : p.sys.m.mem p.call.xTask = 0
  · simp only [Rtos.writeFrameCfg, h0, ne_eq, not_true_eq_false, if_false]
  · simp only [Rtos.writeFrameCfg, h0, ne_eq, not_false_eq_true, if_true]
    rfl

end

/-- Without preemption the four steps are the call. -/
theorem run_uninterrupted (hi : p.Tracks L) (hruns : p.CallerRuns L) (hp : p.call.point = .entry)
    (hT : p.call.xTask ∈ p.sys.created) :
    (Runs.run (step L) p [.advance, .advance, .advance, .advance]).map (fun q => q.sys.toRtos) =
      p.call.fn.call L p.sys.toRtos p.call.xTask := by
  have h0 := hi.wf.ne_zero hT
  rw [call_eq h0]
  obtain ⟨k, hk, -⟩ := Rtos.vTaskSetWindowingContext_of_ne L (p.localConfig L).1 h0
    (p.localConfig L).2 p.call.borrows
  obtain ⟨p₁, h₁, hk₁, hc₁, hcall₁⟩ := advance_entry hruns hT hp h0
  have hi₁ := advance_tracks hi h₁
  have hruns₁ := (advanced hi h₁).callerRuns hi
  obtain ⟨p₂, h₂, hk₂, hc₂, hcall₂⟩ := advance_context hruns₁ (by rw [hcall₁, hc₁]; exact hT)
    (by rw [hcall₁]) (k := k) (by rw [hk₁, hcall₁]; exact hk)
  have hruns₂ := (advanced hi₁ h₂).callerRuns hi₁
  obtain ⟨p₃, p₄, h₃, h₄, hk₄⟩ := advance_fetch hruns₂
    (by rw [hcall₂, hcall₁, hc₂, hc₁]; exact hT) (by rw [hcall₂])
  have hrun : Runs.run (step L) p [.advance, .advance, .advance, .advance] = some p₄ :=
    Runs.run_cons.mpr ⟨p₁, h₁, Runs.run_cons.mpr ⟨p₂, h₂, Runs.run_cons.mpr ⟨p₃, h₃,
      Runs.run_cons.mpr ⟨p₄, h₄, rfl⟩⟩⟩⟩
  rw [hrun, hk, Option.map_some, Option.map_some, hk₄, hk₂, hcall₂, hcall₁]
  rfl

variable [LawfulCore H]

theorem other_tracks (hi : p.Tracks L) {e : Event} (h : step L p (.other e) = some p') :
    p'.Tracks L := by
  obtain ⟨s, hs, rfl⟩ := Option.map_eq_some_iff.mp h
  refine ⟨step_wf hi.wf hs, ?_, hi.stack, fun hp => ?_⟩
  · exact hi.target.imp_right (Or.imp_right (step_created hi.wf hs))
  · have hT : p.call.xTask ∈ p.sys.created := by
      simpa [show p.call.point = .store from hp] using hi.target
    have hframe := hi.frame hp
    cases e with
    | trap c =>
      by_cases hc : p.sys.current L = p.call.xTask
      · simp only [hc, if_true, Option.getD_some]
        rw [← hc]
        exact (step_trap hi.wf hs).saved.top
      · simp only [hc, if_false]
        exact (step_frameOf hi.wf hs hT fun _ _ => Ne.symm hc).trans hframe
    | _ => exact (step_frameOf hi.wf hs hT nofun).trans hframe

theorem step_tracks (hi : p.Tracks L) {e : PreemptedEvent} (h : step L p e = some p') :
    p'.Tracks L := by
  cases e with
  | advance => exact advance_tracks hi h
  | other e => exact other_tracks hi h

theorem run_tracks {s₀ : System H} (hb : s₀.Boot L) {caller xTask : Word} {fn : WindowCall}
    {es : List PreemptedEvent}
    (h : Runs.run (step L) ⟨s₀, .begin caller xTask fn, none⟩ es = some p) : p.Tracks L :=
  Runs.run_invariant (I := Tracks L) (fun _ _ _ hi h => step_tracks hi h)
    ⟨hb.wf, Or.inl rfl, fun hp => (by cases hp), fun hp => (by cases hp)⟩ h

/-- Wherever the call is preempted, its next step writes nothing but the TCB members and the
saved frame of the target, unless it is the store, and the caller has called on itself, or the
target has since the fetch pushed another frame. -/
theorem onlySavedFrame_iff {s₀ : System H} (hb : s₀.Boot L) {caller xTask : Word} {fn : WindowCall}
    {es : List PreemptedEvent}
    (hr : Runs.run (step L) ⟨s₀, .begin caller xTask fn, none⟩ es = some p)
    (h : step L p .advance = some p') :
    OnlySavedFrame L p p' ↔ (p.call.point = .store → p.Fresh) := by
  have hi := run_tracks hb hr
  have ha := advanced hi h
  constructor
  · intro hw hp
    have hpx : p.call.pxTopOfStack = p.sys.frameOf p.call.xTask :=
      (BitVec.add_left_inj _).mp (hw.word hp)
    refine ⟨fun hm => ?_, fun f hf => ?_⟩
    · rcases ha.runs with hboot | ⟨-, hcur⟩
      · rw [hm] at hboot
        cases hboot
      · rw [← hcur]
        exact hw.out hp hm
    · have hframe := hi.frame hp
      rw [Option.mem_def.mp hf, Option.getD_some, ← hpx] at hframe
      exact hframe.symm
  · intro hfresh
    have hpx : p.call.point = .store → p.sys.frameOf p.call.xTask = p.call.pxTopOfStack := by
      intro hp
      rw [hi.frame hp]
      cases hpush : p.pushedSince with
      | none => rfl
      | some f => exact (hfresh hp).2 f hpush
    refine ⟨ha.tcb, ha.last, fun hp => by simpa [hp] using ha.mem, fun hp hm => ?_,
      fun hp => by rw [hpx hp], fun hp => ?_⟩
    · rcases ha.runs with hboot | ⟨-, hcur⟩
      · rw [hm] at hboot
        cases hboot
      · rw [hcur]
        exact (hfresh hp).1 hm
    · rw [hpx hp, ha.mem, if_pos ⟨hp, hi.ne_null hp⟩]

end

/-- The first task sets the window of the second, which has not run yet. -/
def otherCall : List PreemptedEvent :=
  [.other (.create 0x1000 0x2F00 0x8000 0), .other (.create 0x1100 0x3F00 0x8100 0),
    .other (.switch 0x1000), .other .start, .advance, .advance, .advance]

theorem otherCall_savedFrame :
    ∃ p p' : Preempted Cva6.Regs,
      Runs.run (step smallImage) ⟨small Cva6.Regs.reset,
        .begin 0x1000 0x1100 (.vPortTaskSetRegisterWindow 32 16), none⟩ otherCall = some p ∧
      step smallImage p .advance = some p' ∧ p.call.point = .store ∧
      OnlySavedFrame smallImage p p' := by
  have hfacts : (Runs.run (step smallImage) ⟨small Cva6.Regs.reset,
      .begin 0x1000 0x1100 (.vPortTaskSetRegisterWindow 32 16), none⟩ otherCall).map (fun p =>
        (p.call.point, p.call.xTask, p.call.caller, p.pushedSince,
          (step smallImage p .advance).isSome)) =
      some (.store, 0x1100, 0x1000, none, true) := by decide +kernel
  obtain ⟨p, hp, hf⟩ := Option.map_eq_some_iff.mp hfacts
  simp only [Prod.mk.injEq] at hf
  obtain ⟨hpoint, hT, hcaller, hpush, hsome⟩ := hf
  obtain ⟨p', hp'⟩ := Option.isSome_iff_exists.mp hsome
  have hfresh : p.Fresh := by simp [Fresh, hT, hcaller, hpush]
  exact ⟨p, p', hp, hp', hpoint,
    (onlySavedFrame_iff (boot_small (by decide)) hp hp').mpr fun _ => hfresh⟩

/-- A task sets its own window while it has a word on its stack. -/
def ownCall : List PreemptedEvent :=
  [.other (.create 0x1000 0x2F00 0x8000 0), .other (.switch 0x1000), .other .start,
    .other (.reg sp 0x2EC0), .other (.store 0x2EF8 5), .advance, .advance, .advance]

/-- The word is overwritten. -/
theorem ownCall_overwrites :
    ∃ p p' : Preempted Cva6.Regs,
      Runs.run (step smallImage) ⟨small Cva6.Regs.reset,
        .begin 0x1000 0x1000 (.vPortTaskSetRegisterWindow 32 16), none⟩ ownCall = some p ∧
      step smallImage p .advance = some p' ∧ p.sys.m.x sp = 0x2EC0 ∧ p.sys.m.mem 0x2EF8 = 5 ∧
      p'.sys.m.mem 0x2EF8 = 0x00100020 ∧ ¬ OnlySavedFrame smallImage p p' := by
  have hfacts : (Runs.run (step smallImage) ⟨small Cva6.Regs.reset,
      .begin 0x1000 0x1000 (.vPortTaskSetRegisterWindow 32 16), none⟩ ownCall).any (fun p =>
        decide (p.call.point = .store ∧ p.sys.mode = .task ∧
          p.call.xTask = p.sys.current smallImage ∧ p.sys.m.x sp = 0x2EC0 ∧
          p.sys.m.mem 0x2EF8 = 5 ∧
          (step smallImage p .advance).map (fun p' => p'.sys.m.mem 0x2EF8) = some 0x00100020)) =
      true := by decide +kernel
  obtain ⟨p, hp, hf⟩ := (Option.any_eq_true _ _).mp hfacts
  obtain ⟨hpoint, hm, hT, hsp, hold, hstep⟩ := of_decide_eq_true hf
  obtain ⟨p', hp', hnew⟩ := Option.map_eq_some_iff.mp hstep
  refine ⟨p, p', hp, hp', hsp, hold, hnew, fun hw => ?_⟩
  exact hw.out hpoint hm hT

end Preempted

end RegisterWindows
