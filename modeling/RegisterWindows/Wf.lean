import RegisterWindows.System

namespace RegisterWindows.System
open Machine Port WindowedCore LawfulCore

variable {H : Type} [WindowedCore H] {L : Image} {s s' : System H}

omit [WindowedCore H] in
theorem Writes.of_mayStore {a v : Word} (h : s.mayStore L a = true) :
    Writes L s (.store a v) (L.region a) := by
  simp only [mayStore] at h
  split at h
  · exact Or.inl ‹_›
  · rename_i task hreg
    refine Or.inr ⟨task, hreg, ?_⟩
    simpa using h
  · cases h
  · cases h

theorem Assigns.mem_other (hw : s.Wf L) {e : Event} {T : Word} (ha : Assigns s e T s') {a : Word}
    (hr : L.region a ≠ .stack T) : s'.m.mem a = s.m.mem a := by
  rw [ha.assigned.mem]
  split
  · rfl
  · exact Function.update_of_ne ((hw.frame T ha.created).ne_slot hr (by decide)) ..

/-- An address outside the objects an event may write keeps its word. -/
theorem step_mem [LawfulCore H] (hw : s.Wf L) {e : Event} (h : step L s e = some s') {a : Word}
    (ha : ¬ Writes L s e (L.region a)) : s'.m.mem a = s.m.mem a := by
  have hsym {l : List Sym} (hn : ¬ ∃ x ∈ l, L.region a = .sym x) : ∀ x ∈ l, a ≠ L.addr x :=
    fun x hx he => hn ⟨x, hx, he ▸ L.region_addr x⟩
  cases e with
  | reg | jump | mstatus =>
    cases h
    rfl
  | store b v =>
    simp only [step] at h
    split at h
    · rename_i hg
      cases h
      refine mem_store_of_ne _ _ (fun he => ha ?_)
      subst he
      exact Writes.of_mayStore hg
    · cases h
  | nesting v =>
    cases h
    exact mem_store_of_ne _ _ (fun he => ha (he ▸ L.region_addr _))
  | trap cause =>
    have ht := step_trap hw h
    obtain ⟨htcb, hstack⟩ := not_or.mp ha
    have hc := hw.current (by rw [ht.was]; decide)
    refine ht.saved.mem_other a ?_ (fun k hk => ht.room.ne_slot hstack hk)
    rintro rfl
    exact htcb (hw.tcb _ hc)
  | switch T =>
    simp only [step] at h
    split at h
    · cases h
      exact mem_store_of_ne _ _ (fun he => ha (he ▸ L.region_addr _))
    · cases h
  | dispatch =>
    have hd := step_dispatch hw h
    rw [hd.eq]
    exact hd.restored.mem_other a (hsym ha)
  | start =>
    have hs := hsym (l := restoreWrites) ha
    obtain ⟨-, m', hm, hst, -⟩ | ⟨-, m', hm, hst, -⟩ := (step_start hw h).paths
    · rw [hm]
      exact hst.mem_other a (hs _ (by decide)) (hs _ (by decide))
    · rw [hm]
      exact hst.mem_other a (hs _ (by decide))
  | create T top pxCode params =>
    have hc := step_create h
    obtain ⟨htcb, hstack⟩ := not_or.mp ha
    obtain ⟨mem, hmem, hinit⟩ := hc.init
    rw [hmem, Function.update_of_ne, hinit.mem_other]
    · intro k hk
      exact hc.stack.ne_slot hstack (by revert k; decide)
    · rintro rfl
      exact htcb hc.tcb
  | setWindow T ulBase ulSize =>
    rcases step_setWindow h with ⟨-, rfl⟩ | has
    · rfl
    · exact has.mem_other hw ha
  | setBorrowing T xEnable =>
    rcases step_setBorrowing h with ⟨-, rfl⟩ | has
    · rfl
    · exact has.mem_other hw ha

section
variable [LawfulCore H]

theorem step_sym (hw : s.Wf L) {e : Event} (h : step L s e = some s') {x : Sym}
    (hx : ¬ Writes L s e (.sym x)) : s'.m.mem (L.addr x) = s.m.mem (L.addr x) :=
  step_mem hw h (by rw [L.region_addr]; exact hx)

theorem step_nestingPtr (hw : s.Wf L) {e : Event} (h : step L s e = some s') :
    s'.m.mem (L.addr .pxCriticalNesting) = s.m.mem (L.addr .pxCriticalNesting) := by
  apply step_sym hw h
  cases e <;> simp [Writes, restoreWrites]

theorem step_current (hw : s.Wf L) {e : Event} (h : step L s e = some s')
    (he : ∀ T, e ≠ .switch T) : s'.current L = s.current L := by
  apply step_sym hw h
  cases e with
  | switch T => exact absurd rfl (he T)
  | _ => simp [Writes, restoreWrites]

omit [LawfulCore H] in
theorem switch_current {T : Word} (h : step L s (.switch T) = some s') : s'.current L = T := by
  simp only [step] at h
  split at h
  · cases h
    exact mem_store_self _ _ _
  · cases h

theorem step_frameOf (hw : s.Wf L) {e : Event} (h : step L s e = some s') {T : Word}
    (hT : T ∈ s.created) (ht : ∀ c, e = .trap c → T ≠ s.current L) :
    s'.frameOf T = s.frameOf T := by
  apply step_mem hw h
  rw [hw.tcb T hT]
  cases e with
  | trap c => simpa [Writes] using ht c rfl
  | create U =>
    have hfresh := (step_create h).fresh
    have hne : T ≠ U := by
      rintro rfl
      exact hfresh hT
    simpa [Writes] using hne
  | _ => simp [Writes]

/-- The stack of a task that is switched out is changed by the window API alone. -/
theorem step_stack (hw : s.Wf L) {e : Event} (h : step L s e = some s') {T : Word}
    (hT : T ∈ s.created) (hout : s.SwitchedOut L T) (he : e.assignsTo T = false) {a : Word}
    (ha : L.region a = .stack T) : s'.m.mem a = s.m.mem a := by
  apply step_mem hw h
  rw [ha]
  cases e with
  | store a v =>
    rintro (h | ⟨U, hU, hfree | ⟨hm, hc⟩⟩)
    · cases h
    · cases hU
      exact hfree hT
    · cases hU
      exact hout hm hc
  | trap c => simpa [Writes] using hout (step_trap hw h).was
  | create U =>
    have hfresh := (step_create h).fresh
    have hne : T ≠ U := by
      rintro rfl
      exact hfresh hT
    simpa [Writes] using hne
  | setWindow U | setBorrowing U =>
    intro h
    cases h
    simp [Event.assignsTo] at he
  | _ => simp [Writes]

theorem step_frame (hw : s.Wf L) {e : Event} (h : step L s e = some s') {T : Word}
    (hT : T ∈ s.created) (hout : s.SwitchedOut L T) (he : e.assignsTo T = false) {k : Nat}
    (hk : k < 33) : s'.m.mem (s.frameOf T + slot k) = s.m.mem (s.frameOf T + slot k) :=
  step_stack hw h hT hout he (hw.frame T hT k hk)

end

/-- What a step can be. The last case is an instruction other than a register write or an
API call on `NULL`: only the machine moves, and its core does not. -/
inductive StepKind (L : Image) (s : System H) : Event → System H → Prop
  | reg (r : Reg) (v : Word) : StepKind L s (.reg r v) { s with m := s.m.setX r v }
  | switch (T : Word) (hm : s.mode ≠ .task) (hT : T ∈ s.created) :
      StepKind L s (.switch T) { s with m := s.m.store (L.addr .pxCurrentTCB) T }
  | trap {s' : System H} (c : Word) (ht : Trapped L s c s') : StepKind L s (.trap c) s'
  | dispatch {s' : System H} (hd : Dispatched L s s') : StepKind L s .dispatch s'
  | start {s' : System H} (hs : Started L s s') : StepKind L s .start s'
  | create {s' : System H} (T t p q : Word) (hc : Created L s T t p q s') :
      StepKind L s (.create T t p q) s'
  | assigns {s' : System H} (e : Event) (T : Word) (ha : Assigns s e T s') : StepKind L s e s'
  | plain {s' : System H} (e : Event) (hp : e.plain = true)
      (hnull : ∀ T, T ≠ 0 → e.assignsTo T = false) (heq : s' = { s with m := s'.m })
      (hcore : s'.m.core = s.m.core) : StepKind L s e s'

theorem step_kind [LawfulCore H] (hw : s.Wf L) {e : Event} (h : step L s e = some s') :
    StepKind L s e s' := by
  cases e with
  | reg r v =>
    cases h
    exact .reg r v
  | store =>
    simp only [step] at h
    split at h
    · cases h
      exact .plain _ rfl (fun _ _ => rfl) rfl rfl
    · cases h
  | switch T =>
    simp only [step] at h
    split at h
    · rename_i hg
      cases h
      exact .switch T hg.1 hg.2
    · cases h
  | jump | mstatus | nesting =>
    cases h
    exact .plain _ rfl (fun _ _ => rfl) rfl rfl
  | trap c => exact .trap c (step_trap hw h)
  | dispatch => exact .dispatch (step_dispatch hw h)
  | start => exact .start (step_start hw h)
  | create T t p q => exact .create T t p q (step_create h)
  | setWindow T ulBase ulSize =>
    rcases step_setWindow h with ⟨rfl, rfl⟩ | ha
    · exact .plain _ rfl (fun T hT => by simpa [Event.assignsTo] using hT.symm) rfl rfl
    · exact .assigns _ T ha
  | setBorrowing T xEnable =>
    rcases step_setBorrowing h with ⟨rfl, rfl⟩ | ha
    · exact .plain _ rfl (fun T hT => by simpa [Event.assignsTo] using hT.symm) rfl rfl
    · exact .assigns _ T ha

theorem Event.assignsTo_unique {e : Event} {T U : Word} (h : e.assignsTo T = true)
    (h' : e.assignsTo U = true) : T = U := by
  cases e <;> simp_all [Event.assignsTo]

omit [WindowedCore H] in
theorem Created.head {T t p q : Word} (hc : Created L s T t p q s') :
    s'.head T = initialHead s.m.mstatus p := by
  obtain ⟨mem, hmem, hinit⟩ := hc.init
  rw [System.head, hc.frame, ← hinit.head, hmem]
  exact headAt_congr fun k hk => Function.update_of_ne (hc.stack.ne_tcb hk hc.tcb) ..

omit [WindowedCore H] in
theorem Created.tcb_new {T t p q : Word} (hc : Created L s T t p q s') :
    s'.tcb T = Tcb.zero := by
  rw [hc.eq]
  exact Function.update_self ..

theorem step_created [LawfulCore H] (hw : s.Wf L) {e : Event} (h : step L s e = some s')
    {T : Word} (hT : T ∈ s.created) : T ∈ s'.created := by
  cases step_kind hw h with
  | reg | switch => exact hT
  | trap c ht => rw [ht.eq]; exact hT
  | dispatch hd => rw [hd.eq]; exact hT
  | start hs => rw [hs.eq]; exact hT
  | create U t p q hc => rw [hc.eq]; exact List.mem_cons_of_mem _ hT
  | assigns _ U ha => rw [ha.eq]; exact hT
  | plain _ hp hnull heq hcore => rw [heq]; exact hT

/-- The tasks after a step are those before it, and one that the step created. -/
theorem created_of_step [LawfulCore H] (hw : s.Wf L) {e : Event} (h : step L s e = some s')
    {T : Word} (hT : T ∈ s'.created) :
    T ∈ s.created ∨ ∃ t p q, e = .create T t p q ∧ Created L s T t p q s' := by
  cases step_kind hw h with
  | reg | switch => exact Or.inl hT
  | trap c ht => rw [ht.eq] at hT; exact Or.inl hT
  | dispatch hd => rw [hd.eq] at hT; exact Or.inl hT
  | start hs => rw [hs.eq] at hT; exact Or.inl hT
  | create U t p q hc =>
    have hT' := hT
    rw [hc.eq] at hT'
    rcases List.mem_cons.mp hT' with rfl | hT'
    · exact Or.inr ⟨t, p, q, rfl, hc⟩
    · exact Or.inl hT'
  | assigns _ U ha => rw [ha.eq] at hT; exact Or.inl hT
  | plain _ hp hnull heq hcore => rw [heq] at hT; exact Or.inl hT

/-- A call on a task is the step that assigns it its window. -/
theorem step_assigned [LawfulCore H] (hw : s.Wf L) {e : Event} (h : step L s e = some s')
    {T : Word} (hT : T ∈ s.created) (he : e.assignsTo T = true) : Assigns s e T s' := by
  cases step_kind hw h with
  | assigns _ U ha =>
    cases Event.assignsTo_unique he ha.target
    exact ha
  | plain _ hp hnull heq hcore =>
    rw [hnull T (hw.ne_zero hT)] at he
    cases he
  | _ => cases he

omit [WindowedCore H] in
theorem Assigns.core {e : Event} {T : Word} (ha : Assigns s e T s') :
    s'.m.core = s.m.core := ha.assigned.core

omit [WindowedCore H] in
theorem Assigns.not_trap {e : Event} {T : Word} (ha : Assigns s e T s') (c : Word) :
    e ≠ .trap c := by
  rintro rfl
  cases ha.target

omit [WindowedCore H] in
theorem Assigns.not_switch {e : Event} {T : Word} (ha : Assigns s e T s') (U : Word) :
    e ≠ .switch U := by
  rintro rfl
  cases ha.target

omit [WindowedCore H] in
theorem Assigns.not_enters {e : Event} {T : Word} (ha : Assigns s e T s') :
    e.enters = false := by
  have := ha.target
  cases e <;> first | rfl | cases this

theorem Event.plain_not_enters {e : Event} (h : e.plain = true) : e.enters = false := by
  cases e <;> first | rfl | cases h

theorem step_wf [LawfulCore H] (hw : s.Wf L) {e : Event} (h : step L s e = some s') :
    s'.Wf L := by
  have hptr : s'.m.mem (L.addr .pxCriticalNesting) = L.addr .xCriticalNesting :=
    (step_nestingPtr hw h).trans hw.nestingPtr
  have hcur : (∀ T, e ≠ .switch T) → s'.current L = s.current L := step_current hw h
  have hframe : (∀ c, e ≠ .trap c) → ∀ T ∈ s.created, InStack L T (s'.frameOf T) := by
    intro he T hT
    rw [step_frameOf hw h hT (fun c hc => absurd hc (he c))]
    exact hw.frame T hT
  cases step_kind hw h with
  | reg r v => exact ⟨hptr, hw.tcb, hframe (by simp), hw.current, fun hm => (hw.kernel hm).setX r v⟩
  | switch T hm hT =>
    refine ⟨hptr, hw.tcb, hframe (by simp), fun _ => ?_, hw.kernel⟩
    simpa [System.current] using hT
  | trap c ht =>
    have hc := hw.current (by rw [ht.was]; decide)
    refine ⟨hptr, by rw [ht.eq]; exact hw.tcb, fun T hT => ?_, fun _ => ?_, fun _ => ht.run.kernel⟩
    · have hT' : T ∈ s.created := by rw [ht.eq] at hT; exact hT
      by_cases hcT : T = s.current L
      · subst hcT
        rw [show s'.frameOf (s.current L) = s.nextFrame from ht.saved.top]
        exact ht.room
      · rw [step_frameOf hw h hT' (fun _ _ => hcT)]
        exact hw.frame T hT'
    · rw [hcur (by simp), ht.eq]
      exact hc
  | dispatch hd =>
    have hc := hw.current (by rw [hd.was]; decide)
    refine ⟨hptr, by rw [hd.eq]; exact hw.tcb, fun T hT => ?_, fun _ => ?_, fun hm => ?_⟩
    · exact hframe (by simp) T (by rw [hd.eq] at hT; exact hT)
    · rw [hcur (by simp), hd.eq]
      exact hc
    · rw [hd.eq] at hm
      exact absurd rfl hm
  | start hs =>
    refine ⟨hptr, by rw [hs.eq]; exact hw.tcb, fun T hT => ?_, fun _ => ?_, fun hm => ?_⟩
    · exact hframe (by simp) T (by rw [hs.eq] at hT; exact hT)
    · rw [hcur (by simp), hs.eq]
      exact hs.created
    · rw [hs.eq] at hm
      exact absurd rfl hm
  | create U t p q hc =>
    refine ⟨hptr, fun T hT => ?_, fun T hT => ?_, fun hm => ?_, fun hm => ?_⟩
    · rw [hc.eq] at hT
      rcases List.mem_cons.mp hT with rfl | hT
      · exact hc.tcb
      · exact hw.tcb T hT
    · rw [hc.eq] at hT
      rcases List.mem_cons.mp hT with rfl | hT
      · rw [hc.frame]
        exact hc.stack
      · exact hframe (by simp) T hT
    · rw [hc.eq] at hm
      rw [hcur (by simp), hc.eq]
      exact List.mem_cons_of_mem _ (hw.current hm)
    · rw [hc.eq] at hm ⊢
      exact hw.kernel hm
  | assigns _ U ha =>
    have hnt : ∀ c, e ≠ .trap c := ha.not_trap
    have hns : ∀ T, e ≠ .switch T := ha.not_switch
    have hm : s'.mode = s.mode := by rw [ha.eq]
    have hcr : s'.created = s.created := by rw [ha.eq]
    refine ⟨hptr, hcr ▸ hw.tcb, hcr ▸ hframe hnt, fun h => ?_, fun h => ?_⟩
    · rw [hcur hns, hcr]
      exact hw.current (hm ▸ h)
    · rw [Machine.Kernel, ha.core]
      exact hw.kernel (hm ▸ h)
  | plain _ hp hnull heq hcore =>
    have hm : s'.mode = s.mode := by rw [heq]
    have hcr : s'.created = s.created := by rw [heq]
    refine ⟨hptr, hcr ▸ hw.tcb, fun T hT => ?_, fun h => ?_, fun h => ?_⟩
    · exact hframe (by rintro c rfl; cases hp) T (hcr ▸ hT)
    · rw [hcur (by rintro U rfl; cases hp), hcr]
      exact hw.current (hm ▸ h)
    · rw [Machine.Kernel, hcore]
      exact hw.kernel (hm ▸ h)

theorem Boot.wf (hb : s.Boot L) : s.Wf L where
  nestingPtr := hb.nestingPtr
  tcb T hT := by rw [hb.created] at hT; cases hT
  frame T hT := by rw [hb.created] at hT; cases hT
  current h := absurd hb.mode h
  kernel _ := hb.kernel

section
variable [LawfulCore H]

theorem run_wf (hw : s.Wf L) {es : List Event} (h : Runs.run (step L) s es = some s') : s'.Wf L :=
  Runs.run_invariant (fun _ _ _ hw h => step_wf hw h) hw h

theorem step_switchedOut (hw : s.Wf L) {e : Event} (h : step L s e = some s') {T : Word}
    (hout : s.SwitchedOut L T) (he : e.enters = true → s.current L ≠ T) :
    s'.SwitchedOut L T := by
  intro hm
  cases step_kind hw h with
  | reg => exact hout hm
  | switch U hs hU => exact absurd hm hs
  | trap c ht => rw [ht.eq] at hm; cases hm
  | dispatch hd =>
    rw [step_current hw h (by simp)]
    exact (he rfl).symm
  | start hs =>
    rw [step_current hw h (by simp)]
    exact (he rfl).symm
  | create U t p q hc =>
    rw [step_current hw h (by simp)]
    rw [hc.eq] at hm
    exact hout hm
  | assigns _ U ha =>
    rw [step_current hw h ha.not_switch]
    rw [ha.eq] at hm
    exact hout hm
  | plain _ hp hnull heq hcore =>
    rw [step_current hw h (by rintro T rfl; cases hp)]
    rw [heq] at hm
    exact hout hm

/-- The window API writes one word of a stack only, in the frame. -/
theorem step_stack_word (hw : s.Wf L) {e : Event} (h : step L s e = some s') {T : Word}
    (hT : T ∈ s.created) (hout : s.SwitchedOut L T) {a : Word} (ha : L.region a = .stack T)
    (he : a = s.frameOf T + slot portWindowCfgOffset → e.assignsTo T = false) :
    s'.m.mem a = s.m.mem a := by
  cases hcall : e.assignsTo T with
  | false => exact step_stack hw h hT hout hcall ha
  | true =>
    cases step_kind hw h with
    | assigns _ U hU =>
      cases Event.assignsTo_unique hcall hU.target
      rw [hU.assigned.mem]
      split
      · rfl
      · apply Function.update_of_ne
        intro heq
        rw [he heq] at hcall
        cases hcall
    | plain _ hp hnull heq hcore =>
      rw [hnull T (hw.ne_zero hT)] at hcall
      cases hcall
    | _ => cases hcall

theorem step_frame_word (hw : s.Wf L) {e : Event} (h : step L s e = some s') {T : Word}
    (hT : T ∈ s.created) (hout : s.SwitchedOut L T) {k : Nat} (hk : k < 33)
    (he : k = portWindowCfgOffset → e.assignsTo T = false) :
    s'.m.mem (s.frameOf T + slot k) = s.m.mem (s.frameOf T + slot k) := by
  apply step_stack_word hw h hT hout (hw.frame T hT k hk)
  intro heq
  exact he ((add_slot_inj (by omega) (by decide)).mp heq)

/-- The only way out of the processor is a trap. -/
theorem switchedOut_of_step (hw : s.Wf L) {e : Event} (h : step L s e = some s')
    (he : ∀ c, e ≠ .trap c) {T : Word} (hout : s'.SwitchedOut L T) : s.SwitchedOut L T := by
  intro hm
  cases step_kind hw h with
  | reg => exact hout hm
  | switch U hs hU => exact absurd hm hs
  | trap c ht => exact absurd rfl (he c)
  | dispatch hd => rw [hd.was] at hm; cases hm
  | start hs => rw [hs.was] at hm; cases hm
  | create U t p q hc =>
    rw [← step_current hw h (by simp)]
    exact hout (by rw [hc.eq]; exact hm)
  | assigns _ U ha =>
    rw [← step_current hw h ha.not_switch]
    exact hout (by rw [ha.eq]; exact hm)
  | plain _ hp hnull heq hcore =>
    rw [← step_current hw h (by rintro T rfl; cases hp)]
    exact hout (by rw [heq]; exact hm)

/-- The TCB members are set by creation and by the window API. -/
theorem step_tcb (hw : s.Wf L) {e : Event} (h : step L s e = some s') {T : Word}
    (hT : T ∈ s.created) (he : e.assignsTo T = false) : s'.tcb T = s.tcb T := by
  cases step_kind hw h with
  | reg | switch => rfl
  | trap c ht => rw [ht.eq]
  | dispatch hd => rw [hd.eq]
  | start hs => rw [hs.eq]
  | create U t p q hc =>
    rw [hc.eq]
    refine Function.update_of_ne ?_ ..
    rintro rfl
    exact hc.fresh hT
  | assigns _ U ha =>
    rw [ha.assigned.tcb]
    refine Function.update_of_ne ?_ ..
    rintro rfl
    rw [ha.target] at he
    cases he
  | plain _ hp hnull heq hcore => rw [heq]

/-- Nobody but the running task and the entry into a task touches the upper half of the
physical file. -/
theorem step_cell_high (hw : s.Wf L) {e : Event} (h : step L s e = some s') {p : PhysReg}
    (hp : 32 ≤ p.val) (he : ∀ r v, e = .reg r v → s.mode = .task →
      (active s.m.core).phys r ≠ some p) : cell s'.m.core p = cell s.m.core p := by
  have hz : p ≠ 0 := by
    rintro rfl
    simp at hp
  cases step_kind hw h with
  | reg r v =>
    refine cell_setReg_ne _ _ _ _ hz ?_
    by_cases hm : s.mode = .task
    · exact he r v rfl hm
    · rw [show active s.m.core = Window.kernel from hw.kernel hm, Window.phys_kernel]
      intro hr
      have := congrArg Fin.val (Option.some.inj hr)
      simp only at this
      omega
  | switch => rfl
  | trap c ht =>
    rw [ht.run.high p hp]
    exact congrFun (cell_trap _) p
  | dispatch hd =>
    rw [hd.eq]
    exact (congrFun (cell_mret _) p).trans (hd.run.high p hp)
  | start hs =>
    obtain ⟨-, m', hm, -, n, hrun⟩ | ⟨-, m', hm, -, n, hrun⟩ := hs.paths
    · rw [hm]
      exact (congrFun (cell_mret _) p).trans (hrun.high p hp)
    · rw [hm]
      exact hrun.high p hp
  | create U t p q hc => rw [hc.eq]
  | assigns _ U ha => rw [ha.core]
  | plain _ hp hnull heq hcore => rw [hcore]

end

end RegisterWindows.System
