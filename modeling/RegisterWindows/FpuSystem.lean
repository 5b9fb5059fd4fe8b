import RegisterWindows.Wf
import RegisterWindows.Port.FpuSave
import RegisterWindows.Port.FpuRestore

namespace RegisterWindows
open Machine Port WindowedCore LawfulCore

/-- A system whose hart has floating point registers. -/
structure FpuSystem (H : Type) extends System H where
  f : FReg → Word
  fcsr : BitVec 8

inductive FpuEvent where
  /-- Anything that the FPU build does as the build without it. -/
  | base (e : Event)
  /-- An instruction writes a floating point register. -/
  | freg (i : FReg) (v : Word)
  | fcsr (v : BitVec 8)
  | trap (cause : Word)
  | dispatch
  /-- Task creation, by code that has `x7` in `t2`. -/
  | create (T pxTopOfStack pxCode pvParameters x7 : Word)

/-- The events whose code does not depend on `configENABLE_FPU`. -/
def Event.fpuFree : Event → Bool
  | .trap _ => false
  | .dispatch => false
  | .create _ _ _ _ => false
  | _ => true

namespace FpuSystem
open RegisterWindows.System

variable {H : Type}

def hart (s : FpuSystem H) : FpuMachine H := ⟨s.m, s.f, s.fcsr⟩

variable [WindowedCore H]

/-- The hart at the entry of the trap handler. -/
def trapped (s : FpuSystem H) (cause : Word) : FpuMachine H :=
  { s.hart with toMachine := s.m.takeTrap cause }

/-- Where the trap handler leaves the context. -/
def trapFrame (L : Image) (s : FpuSystem H) (cause : Word) : Word :=
  Fpu.savedFrame L (s.trapped cause)

def step (L : Image) (s : FpuSystem H) : FpuEvent → Option (FpuSystem H)
  | .base e =>
    if e.fpuFree = true then
      (RegisterWindows.System.step L s.toSystem e).map fun t => { s with toSystem := t }
    else none
  | .freg i v =>
    if statusFs s.m.mstatus ≠ 0 then
      some { s with
        m := { s.m with mstatus := s.m.mstatus ||| mstatusFsDirty }
        f := Function.update s.f i v }
    else none
  | .fcsr v =>
    if statusFs s.m.mstatus ≠ 0 then
      some { s with
        m := { s.m with mstatus := s.m.mstatus ||| mstatusFsDirty }
        fcsr := v }
    else none
  | .trap cause =>
    -- what is taken for the context misses the globals and the TCBs; it need not lie in the
    -- stack of the task
    if s.mode = .task ∧ ∀ k < Fpu.contextWords (s.trapped cause).mstatus,
        (L.region (s.trapFrame L cause + slot k)).Free then
      let m := Fpu.freertosRiscvTrapHandler L (s.trapped cause)
      some { s with
        m := m.toMachine, f := m.f, fcsr := m.fcsr
        mode := .handler
        kind := Function.update s.kind (s.current L) .full }
    else none
  | .dispatch =>
    if s.mode = .handler then
      let m := Fpu.portcontextRestoreContext L s.hart
      some { s with
        m := m.execMret, f := m.f, fcsr := m.fcsr
        mode := .task
        granted := Core.staged m.core }
    else none
  | .create T pxTopOfStack pxCode pvParameters x7 =>
    if s.mode ≠ .handler ∧ T ∉ s.created ∧ L.region T = .tcb T ∧
        InStack L T (pushed pxTopOfStack) then
      let (mem, pxNewTop) :=
        Fpu.pxPortInitialiseStack L s.m.mstatus s.m.mem pxTopOfStack pxCode pvParameters x7
      some { s with
        m := { s.m with mem := Function.update mem T pxNewTop }
        tcb := Function.update s.tcb T Tcb.zero
        created := T :: s.created
        kind := Function.update s.kind T .initial }
    else none

/-- As without the FPU, but that a context may lie in any stack. -/
structure Wf (L : Image) (s : FpuSystem H) : Prop where
  nestingPtr : s.m.mem (L.addr .pxCriticalNesting) = L.addr .xCriticalNesting
  tcb : ∀ T ∈ s.created, L.region T = .tcb T
  frame : ∀ T ∈ s.created, FreeFrame L (s.frameOf T)
  current : s.mode ≠ .boot → s.current L ∈ s.created
  kernel : s.mode ≠ .task → s.m.Kernel

theorem wf_of_boot {L : Image} {s : FpuSystem H} (hb : s.Boot L) : s.Wf L where
  nestingPtr := hb.nestingPtr
  tcb T hT := by rw [hb.created] at hT; cases hT
  frame T hT := by rw [hb.created] at hT; cases hT
  current h := absurd hb.mode h
  kernel _ := hb.kernel

variable {L : Image} {s s' : FpuSystem H}

structure Trapped (L : Image) (s : FpuSystem H) (cause : Word) (s' : FpuSystem H) : Prop where
  was : s.mode = .task
  free : ∀ k < Fpu.contextWords (s.trapped cause).mstatus,
    (L.region (s.trapFrame L cause + slot k)).Free
  saved : Fpu.Saved L (s.trapped cause) s'.hart
  run : FpuRun (s.trapped cause) s'.hart (Fpu.freertosRiscvTrapHandler L (s.trapped cause).view)
  created : s'.created = s.created
  mode : s'.mode = .handler

structure Dispatched (L : Image) (s s' : FpuSystem H) : Prop where
  was : s.mode = .handler
  hart : s'.m = (Fpu.portcontextRestoreContext L s.hart).execMret ∧
    s'.f = (Fpu.portcontextRestoreContext L s.hart).f ∧
    s'.fcsr = (Fpu.portcontextRestoreContext L s.hart).fcsr
  granted : s'.granted = Core.staged (Fpu.portcontextRestoreContext L s.hart).core
  run : FpuRun s.hart (Fpu.portcontextRestoreContext L s.hart)
    (Fpu.portcontextRestoreContext L s.hart.view)
  mem_other : ∀ a, (∀ x ∈ restoreWrites, a ≠ L.addr x) → s'.m.mem a = s.m.mem a
  created : s'.created = s.created
  mode : s'.mode = .task

structure Created (L : Image) (s : FpuSystem H) (T top : Word) (s' : FpuSystem H) : Prop where
  mode : s.mode ≠ .handler ∧ s'.mode = s.mode
  fresh : T ∉ s.created
  tcb : L.region T = .tcb T
  stack : InStack L T (pushed top)
  created : s'.created = T :: s.created
  core : s'.m.core = s.m.core
  frame : s'.frameOf T = pushed top
  mem_other : ∀ a, a ≠ T → (∀ k < 33, a ≠ pushed top + slot k) → s'.m.mem a = s.m.mem a

/-- The other steps: a TCB keeps its word, and the processor changes hands by a choice of the
kernel or by the start of the first task only. -/
structure Based (L : Image) (s : FpuSystem H) (e : Event) (s' : FpuSystem H) : Prop where
  mem_tcb : ∀ a t, L.region a = .tcb t → s'.m.mem a = s.m.mem a
  nestingPtr : s'.m.mem (L.addr .pxCriticalNesting) = s.m.mem (L.addr .pxCriticalNesting)
  created : s'.created = s.created
  moves :
    (s'.mode = s.mode ∧ s'.current L = s.current L) ∨
    (s.mode ≠ .task ∧ s'.mode = s.mode ∧ s'.current L ∈ s.created) ∨
    (e.enters = true ∧ s.current L ∈ s.created ∧ s'.mode = .task ∧ s'.current L = s.current L)
  kernel : s.m.Kernel → s'.mode ≠ .task → s'.m.Kernel

theorem Trapped.frameOf {cause : Word} (ht : Trapped L s cause s') :
    s'.frameOf (s.current L) = s.trapFrame L cause := ht.saved.top

theorem Trapped.inFrame {cause : Word} (ht : Trapped L s cause s') :
    FreeFrame L (s.trapFrame L cause) :=
  fun k hk => ht.free k (hk.trans_le (Fpu.contextWords_ge _))

theorem Trapped.mem_object (hw : s.Wf L) {cause : Word} (ht : Trapped L s cause s') {a : Word}
    (ha : ¬ (L.region a).Free) (htcb : L.region a ≠ .tcb (s.current L)) :
    s'.m.mem a = s.m.mem a := by
  have hc := hw.current (by rw [ht.was]; decide)
  refine ht.saved.mem_other a ?_ fun k hk he => ha (he ▸ ht.free k hk)
  rintro rfl
  exact htcb (hw.tcb _ hc)

theorem Trapped.mem_sym (hw : s.Wf L) {cause : Word} (ht : Trapped L s cause s') (x : Sym) :
    s'.m.mem (L.addr x) = s.m.mem (L.addr x) :=
  ht.mem_object hw (by rw [L.region_addr]; exact not_false) (by simp [L.region_addr])

theorem Trapped.frameOf_other (hw : s.Wf L) {cause : Word} (ht : Trapped L s cause s') {T : Word}
    (hT : T ∈ s.created) (hne : T ≠ s.current L) : s'.frameOf T = s.frameOf T :=
  ht.mem_object hw (by rw [hw.tcb T hT]; exact not_false) (by simpa [hw.tcb T hT] using hne)

omit [WindowedCore H] in
theorem Created.mem_object {T top : Word} (hc : Created L s T top s') {a : Word}
    (ha : ¬ (L.region a).Free) (htcb : L.region a ≠ .tcb T) : s'.m.mem a = s.m.mem a := by
  refine hc.mem_other a ?_ fun k hk he => ha (he ▸ hc.stack.free k hk)
  rintro rfl
  exact htcb hc.tcb

omit [WindowedCore H] in
theorem Created.mem_sym {T top : Word} (hc : Created L s T top s') (x : Sym) :
    s'.m.mem (L.addr x) = s.m.mem (L.addr x) :=
  hc.mem_object (by rw [L.region_addr]; exact not_false) (by simp [L.region_addr])

theorem Created.frameOf_other (hw : s.Wf L) {T top : Word} (hc : Created L s T top s') {U : Word}
    (hU : U ∈ s.created) : s'.frameOf U = s.frameOf U := by
  have hne : U ≠ T := by
    rintro rfl
    exact hc.fresh hU
  exact hc.mem_object (by rw [hw.tcb U hU]; exact not_false) (by simpa [hw.tcb U hU] using hne)

theorem Dispatched.current_eq (hd : Dispatched L s s') : s'.current L = s.current L :=
  hd.mem_other _ (by simp [restoreWrites])

theorem Dispatched.frameOf_eq (hw : s.Wf L) (hd : Dispatched L s s') {T : Word}
    (hT : T ∈ s.created) : s'.frameOf T = s.frameOf T :=
  hd.mem_other T fun _ _ => L.addr_ne fun x => by rw [hw.tcb T hT]; exact Region.noConfusion

theorem Based.frameOf_eq (hw : s.Wf L) {e : Event} (hb : Based L s e s') {T : Word}
    (hT : T ∈ s.created) : s'.frameOf T = s.frameOf T :=
  hb.mem_tcb T T (hw.tcb T hT)

theorem Based.wf (hw : s.Wf L) {e : Event} (hb : Based L s e s') : s'.Wf L := by
  refine ⟨hb.nestingPtr.trans hw.nestingPtr, hb.created ▸ hw.tcb, fun T hT => ?_, fun hm => ?_,
    fun hm => ?_⟩
  · rw [hb.created] at hT
    rw [hb.frameOf_eq hw hT]
    exact hw.frame T hT
  · rw [hb.created]
    rcases hb.moves with ⟨hmode, hcur⟩ | ⟨-, -, hcur⟩ | ⟨-, hc, -, hcur⟩
    · rw [hcur]
      exact hw.current (hmode ▸ hm)
    · exact hcur
    · rw [hcur]
      exact hc
  · refine hb.kernel (hw.kernel ?_) hm
    rcases hb.moves with ⟨hmode, -⟩ | ⟨hmode, -⟩ | ⟨-, -, hmode, -⟩
    · exact hmode ▸ hm
    · exact hmode
    · exact absurd hmode hm

theorem Trapped.wf (hw : s.Wf L) {cause : Word} (ht : Trapped L s cause s') : s'.Wf L := by
  have hc := hw.current (by rw [ht.was]; decide)
  refine ⟨(ht.mem_sym hw _).trans hw.nestingPtr, ht.created ▸ hw.tcb, fun T hT => ?_,
    fun _ => ?_, fun _ => ht.run.kernel⟩
  · rw [ht.created] at hT
    by_cases hcT : T = s.current L
    · subst hcT
      rw [ht.frameOf]
      exact ht.inFrame
    · rw [ht.frameOf_other hw hT hcT]
      exact hw.frame T hT
  · rw [System.current, ht.mem_sym hw, ht.created]
    exact hc

theorem Dispatched.wf (hw : s.Wf L) (hd : Dispatched L s s') : s'.Wf L := by
  have hc := hw.current (by rw [hd.was]; decide)
  refine ⟨?_, hd.created ▸ hw.tcb, fun T hT => ?_, fun _ => ?_, fun hm => absurd hd.mode hm⟩
  · rw [hd.mem_other _ (by simp [restoreWrites])]
    exact hw.nestingPtr
  · rw [hd.created] at hT
    rw [hd.frameOf_eq hw hT]
    exact hw.frame T hT
  · rw [hd.current_eq, hd.created]
    exact hc

theorem Created.wf (hw : s.Wf L) {T top : Word} (hc : Created L s T top s') : s'.Wf L := by
  refine ⟨(hc.mem_sym _).trans hw.nestingPtr, fun U hU => ?_, fun U hU => ?_, fun hm => ?_,
    fun hm => ?_⟩
  · rw [hc.created] at hU
    rcases List.mem_cons.mp hU with rfl | hU
    · exact hc.tcb
    · exact hw.tcb U hU
  · rw [hc.created] at hU
    rcases List.mem_cons.mp hU with rfl | hU
    · rw [hc.frame]
      exact hc.stack.free
    · rw [hc.frameOf_other hw hU]
      exact hw.frame U hU
  · rw [System.current, hc.mem_sym, hc.created]
    exact List.mem_cons_of_mem _ (hw.current (hc.mode.2 ▸ hm))
  · rw [Machine.Kernel, hc.core]
    exact hw.kernel (hc.mode.2 ▸ hm)

theorem step_freg {i : FReg} {v : Word} (h : step L s (.freg i v) = some s') :
    ∃ st f, s' = { s with m := { s.m with mstatus := st }, f := f } := by
  simp only [step] at h
  split at h
  · cases h
    exact ⟨_, _, rfl⟩
  · cases h

theorem step_fcsr {v : BitVec 8} (h : step L s (.fcsr v) = some s') :
    ∃ st c, s' = { s with m := { s.m with mstatus := st }, fcsr := c } := by
  simp only [step] at h
  split at h
  · cases h
    exact ⟨_, _, rfl⟩
  · cases h

section
variable [LawfulCore H]

theorem step_trap (hw : s.Wf L) {cause : Word} (h : step L s (.trap cause) = some s') :
    Trapped L s cause s' := by
  simp only [step] at h
  split at h
  · rename_i hg
    have hc := hw.current (by rw [hg.1]; decide)
    have hk : (s.trapped cause).Kernel := active_trap s.m.core
    cases h
    exact ⟨hg.1, hg.2, Fpu.freertosRiscvTrapHandler_spec L hk ⟨hw.tcb _ hc, hg.2⟩,
      Fpu.fpuRun_trapHandler L hk, rfl, rfl⟩
  · cases h

theorem step_dispatch (hw : s.Wf L) (h : step L s .dispatch = some s') : Dispatched L s s' := by
  simp only [step] at h
  split at h
  · rename_i hg
    have hk : s.hart.Kernel := hw.kernel (by rw [hg]; decide)
    cases h
    exact ⟨hg, ⟨rfl, rfl, rfl⟩, rfl, Fpu.fpuRun_restore L hk,
      fun _ ha => Fpu.mem_restore L hk hw.nestingPtr ha, rfl, rfl⟩
  · cases h

omit [LawfulCore H] in
theorem step_create {T top pxCode params x7 : Word}
    (h : step L s (.create T top pxCode params x7) = some s') : Created L s T top s' := by
  simp only [step] at h
  split at h
  · rename_i hg
    obtain ⟨hmode, hfresh, htcb, hin⟩ := hg
    obtain ⟨htop, hother⟩ :=
      Fpu.pxPortInitialiseStack_spec L s.m.mstatus s.m.mem top pxCode params x7
    have hslots : ∀ k ∈ initialisedSlots, k < 33 := by decide
    cases h
    refine ⟨⟨hmode, rfl⟩, hfresh, htcb, hin, rfl, rfl, ?_, fun a ha hk => ?_⟩
    · simp only [frameOf, htop, Function.update_self]
    · exact (Function.update_of_ne ha ..).trans (hother a fun k hk' => hk k (hslots k hk'))
  · cases h

omit [LawfulCore H] in
theorem Based.of_store {e : Event} {a v : Word} (htcb : ∀ t, L.region a ≠ .tcb t)
    (hptr : ∀ x, L.region a = .sym x → x ≠ .pxCriticalNesting ∧ x ≠ .pxCurrentTCB) :
    Based L s e { s with m := s.m.store a v } := by
  have hsym : ∀ x, x = .pxCriticalNesting ∨ x = .pxCurrentTCB → L.addr x ≠ a := by
    rintro x hx rfl
    obtain ⟨h1, h2⟩ := hptr x (L.region_addr x)
    exact hx.elim h1 h2
  refine ⟨fun b t hb => mem_store_of_ne _ _ ?_, mem_store_of_ne _ _ (hsym _ (.inl rfl)), rfl,
    .inl ⟨rfl, mem_store_of_ne _ _ (hsym _ (.inr rfl))⟩, fun hk _ => hk⟩
  rintro rfl
  exact htcb t hb

omit [LawfulCore H] in
theorem Based.of_assigns (hw : s.Wf L) {e : Event} {T : Word} {t : System H}
    (ha : Assigns s.toSystem e T t) : Based L s e { s with toSystem := t } := by
  have hmem : ∀ b, ¬ (L.region b).Free → t.m.mem b = s.m.mem b := by
    intro b hb
    rw [ha.assigned.mem]
    split
    · rfl
    · apply Function.update_of_ne
      rintro rfl
      exact hb (hw.frame T ha.created portWindowCfgOffset (by decide))
  have hsym : ∀ x, t.m.mem (L.addr x) = s.m.mem (L.addr x) := fun x =>
    hmem _ (by rw [L.region_addr]; exact not_false)
  refine ⟨fun b u hb => hmem b (by rw [hb]; exact not_false), hsym _, by rw [ha.eq],
    .inl ⟨by rw [ha.eq], hsym _⟩, fun hk _ => ?_⟩
  rw [Machine.Kernel, ha.core]
  exact hk

theorem step_base (hw : s.Wf L) {e : Event} (h : step L s (.base e) = some s') :
    Based L s e s' := by
  simp only [step] at h
  split at h
  case isFalse => cases h
  rename_i hfree
  obtain ⟨t, ht, rfl⟩ := Option.map_eq_some_iff.mp h
  cases e with
  | reg r v =>
    cases ht
    exact ⟨fun _ _ _ => rfl, rfl, rfl, .inl ⟨rfl, rfl⟩, fun hk _ => hk.setX r v⟩
  | jump | mstatus =>
    cases ht
    exact ⟨fun _ _ _ => rfl, rfl, rfl, .inl ⟨rfl, rfl⟩, fun hk _ => hk⟩
  | store a v =>
    simp only [System.step] at ht
    split at ht
    · rename_i hg
      cases ht
      rcases Writes.of_mayStore (v := v) hg with hr | ⟨u, hr, -⟩
      · exact Based.of_store (by simp [hr]) (by simp [hr])
      · exact Based.of_store (by simp [hr]) (by simp [hr])
    · cases ht
  | nesting v =>
    cases ht
    refine Based.of_store (by simp [L.region_addr]) fun x hx => ?_
    rw [L.region_addr] at hx
    cases hx
    decide
  | switch T =>
    simp only [System.step] at ht
    split at ht
    · rename_i hg
      cases ht
      refine ⟨fun b t hb => mem_store_of_ne _ _ ?_, mem_store_of_ne _ _ (by simp), rfl,
        .inr (.inl ⟨hg.1, rfl, ?_⟩), fun hk _ => hk⟩
      · rintro rfl
        rw [L.region_addr] at hb
        cases hb
      · rw [System.current, mem_store_self]
        exact hg.2
    · cases ht
  | start =>
    have hs := started_of_step (fun hm => hw.kernel (by rw [hm]; decide)) hw.frame hw.nestingPtr ht
    have hmem : ∀ b, b ≠ L.addr .xCriticalNesting → b ≠ L.addr .portCurrentTaskWindowBase →
        t.m.mem b = s.m.mem b := by
      intro b h1 h2
      obtain ⟨-, m', hm, hst, -⟩ | ⟨-, m', hm, hst, -⟩ := hs.paths
      · rw [hm]
        exact hst.mem_other b h1 h2
      · rw [hm]
        exact hst.mem_other b h1
    have hne : ∀ b t, L.region b = .tcb t → ∀ x, b ≠ L.addr x := fun b t hb x =>
      L.addr_ne fun y => by rw [hb]; exact Region.noConfusion
    refine ⟨fun b t hb => hmem b (hne b t hb _) (hne b t hb _), hmem _ (by simp) (by simp),
      by rw [hs.eq], .inr (.inr ⟨rfl, hs.created, by rw [hs.eq], hmem _ (by simp) (by simp)⟩),
      fun _ hm => absurd (by rw [hs.eq]) hm⟩
  | setWindow T ulBase ulSize =>
    rcases step_setWindow ht with ⟨-, rfl⟩ | ha
    · exact ⟨fun _ _ _ => rfl, rfl, rfl, .inl ⟨rfl, rfl⟩, fun hk _ => hk⟩
    · exact Based.of_assigns hw ha
  | setBorrowing T xEnable =>
    rcases step_setBorrowing ht with ⟨-, rfl⟩ | ha
    · exact ⟨fun _ _ _ => rfl, rfl, rfl, .inl ⟨rfl, rfl⟩, fun hk _ => hk⟩
    · exact Based.of_assigns hw ha
  | trap | dispatch | create => cases hfree

theorem step_wf (hw : s.Wf L) {e : FpuEvent} (h : step L s e = some s') : s'.Wf L := by
  cases e with
  | base e => exact (step_base hw h).wf hw
  | freg i v =>
    obtain ⟨st, f, rfl⟩ := step_freg h
    exact ⟨hw.nestingPtr, hw.tcb, hw.frame, hw.current, hw.kernel⟩
  | fcsr v =>
    obtain ⟨st, c, rfl⟩ := step_fcsr h
    exact ⟨hw.nestingPtr, hw.tcb, hw.frame, hw.current, hw.kernel⟩
  | trap c => exact (step_trap hw h).wf hw
  | dispatch => exact (step_dispatch hw h).wf hw
  | create U top pxCode params x7 => exact (step_create h).wf hw

theorem run_wf (hw : s.Wf L) {es : List FpuEvent} (h : Runs.run (step L) s es = some s') :
    s'.Wf L :=
  Runs.run_invariant (I := fun s : FpuSystem H => s.Wf L) (fun _ _ _ hw h => step_wf hw h) hw h

end

/-- A step that neither enters `T` nor calls the window API on it. -/
def Away (L : Image) (T : Word) (s : FpuSystem H) : FpuEvent → Prop
  | .base e => (e.enters = true → s.current L ≠ T) ∧ e.assignsTo T = false
  | .dispatch => s.current L ≠ T
  | _ => True

instance (T : Word) (s : FpuSystem H) : (e : FpuEvent) → Decidable (Away L T s e)
  | .base e => inferInstanceAs (Decidable ((e.enters = true → _) ∧ _))
  | .dispatch => inferInstanceAs (Decidable (_ ≠ _))
  | .freg .. | .fcsr _ | .trap _ | .create .. => inferInstanceAs (Decidable True)

/-- `T` runs in `s`, traps, is away for `span`, and is dispatched in `s₂`. -/
structure Trip (L : Image) (T cause : Word) (span : List FpuEvent) (s s₁ s₂ s' : FpuSystem H) :
    Prop where
  mode : s.mode = .task
  current : s.current L = T
  trap : step L s (.trap cause) = some s₁
  run : Runs.run (step L) s₁ span = some s₂
  away : Runs.Along (step L) (Away L T) s₁ span
  back : s₂.current L = T
  dispatch : step L s₂ .dispatch = some s'

/-- While `T` is switched out, its TCB points at its context. What is there may be overwritten:
the context of another task can lie in the same words. -/
structure Parked (L : Image) (T f : Word) (s : FpuSystem H) : Prop where
  created : T ∈ s.created
  out : s.SwitchedOut L T
  frame : s.frameOf T = f

section
variable [LawfulCore H] {T cause : Word} {span : List FpuEvent} {s₁ s₂ : FpuSystem H}

theorem step_parked (hw : s.Wf L) {f : Word} (hp : s.Parked L T f) {e : FpuEvent}
    (he : Away L T s e) (h : step L s e = some s') : s'.Parked L T f := by
  cases e with
  | base e =>
    have hb := step_base hw h
    refine ⟨hb.created ▸ hp.created, fun hm => ?_, (hb.frameOf_eq hw hp.created).trans hp.frame⟩
    rcases hb.moves with ⟨hmode, hcur⟩ | ⟨hmode, hmode', -⟩ | ⟨henters, -, -, hcur⟩
    · rw [hcur]
      exact hp.out (hmode ▸ hm)
    · exact absurd (hmode' ▸ hm) hmode
    · rw [hcur]
      exact (he.1 henters).symm
  | freg i v =>
    obtain ⟨st, f, rfl⟩ := step_freg h
    exact ⟨hp.created, hp.out, hp.frame⟩
  | fcsr v =>
    obtain ⟨st, c, rfl⟩ := step_fcsr h
    exact ⟨hp.created, hp.out, hp.frame⟩
  | trap c =>
    have ht := step_trap hw h
    have hne : T ≠ s.current L := hp.out ht.was
    refine ⟨ht.created ▸ hp.created, fun hm => ?_, ?_⟩
    · rw [ht.mode] at hm
      cases hm
    · exact (ht.frameOf_other hw hp.created hne).trans hp.frame
  | dispatch =>
    have hd := step_dispatch hw h
    refine ⟨hd.created ▸ hp.created, fun _ => ?_, (hd.frameOf_eq hw hp.created).trans hp.frame⟩
    rw [hd.current_eq]
    exact Ne.symm he
  | create U top pxCode params x7 =>
    have hc := step_create h
    refine ⟨hc.created ▸ List.mem_cons_of_mem _ hp.created, fun hm => ?_,
      (hc.frameOf_other hw hp.created).trans hp.frame⟩
    rw [System.current, hc.mem_sym]
    exact hp.out (hc.mode.2 ▸ hm)

theorem run_parked (hw : s.Wf L) {f : Word} (hp : s.Parked L T f) {es : List FpuEvent}
    (ha : Runs.Along (step L) (Away L T) s es) (h : Runs.run (step L) s es = some s') :
    s'.Wf L ∧ s'.Parked L T f :=
  Runs.run_preserved (I := fun s : FpuSystem H => s.Wf L ∧ s.Parked L T f)
    (Runs.Preserved.and (fun _ _ _ hw h => step_wf hw h)
      (fun _ _ _ hw hp he h => step_parked hw hp he h)) ⟨hw, hp⟩ ha h

theorem Trip.parked (hw : s.Wf L) (ht : Trip L T cause span s s₁ s₂ s') :
    s₂.Wf L ∧ s₂.Parked L T (s.trapFrame L cause) := by
  have htr := step_trap hw ht.trap
  refine run_parked (step_wf hw ht.trap) ⟨?_, fun hm => ?_, ?_⟩ ht.away ht.run
  · rw [htr.created, ← ht.current]
    exact hw.current (by rw [ht.mode]; decide)
  · rw [htr.mode] at hm
    cases hm
  · rw [← ht.current]
    exact htr.frameOf

end

end FpuSystem

end RegisterWindows
