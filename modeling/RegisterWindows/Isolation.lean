import RegisterWindows.Cva6.Core
import RegisterWindows.MinimalContext

namespace RegisterWindows.System
open Machine Port WindowedCore LawfulCore RegisterWindows.Core

variable {L : Image} {s s' : System Cva6.Regs} {T : Word} {p : PhysReg}

/-- The configurations that a task may be given while `T` has the cell `p` for itself. -/
def Unshared (T : Word) (p : PhysReg) (U cfg : Word) : Prop :=
  U = T ∨ ∀ r : Reg, (Cva6.decode cfg).phys r ≠ some p

instance (U : Word) : DecidablePred (Unshared T p U) := fun _ =>
  inferInstanceAs (Decidable (_ ∨ _))

theorem unshared_zero (T : Word) (p : PhysReg) (U : Word) : Unshared T p U 0 := by
  apply Or.inr
  intro r hr
  rw [Cva6.decode_zero] at hr
  exact absurd (Window.phys_some hr).1 (Nat.not_lt_zero _)

theorem Kept.active_granted {P : Word → Word → Prop} (hk : s.Kept P L) (hm : s.mode = .task)
    (hg : s.granted ≠ 0) : active s.m.core = Cva6.decode s.granted :=
  congrArg Cva6.decode (hk.holds.interrupted hm hg)

theorem Kept.active_unshared (hk : s.Kept (Unshared T p) L) (hm : s.mode = .task)
    (hT : T ≠ s.current L) (hp : 32 ≤ p.val) (r : Reg) : (active s.m.core).phys r ≠ some p := by
  by_cases hg : s.granted = 0
  · intro hr
    have hlow := hk.flagged.low hm hg r p hr
    omega
  · rw [hk.active_granted hm hg]
    rcases hk.copies.granted hm with hcur | hother
    · exact absurd hcur.symm hT
    · exact hother r

theorem base_ne_zero {cfg : Word} {r : Reg} (hr : (Cva6.decode cfg).phys r = some p)
    (hp : 32 ≤ p.val) : cfg &&& 0xFFFF#32 ≠ 0 := by
  intro h0
  have hval := (Window.phys_some hr).2
  have hlt := r.isLt
  have hbase : (Cva6.decode cfg).base = (cfg &&& 0xFFFF#32).toNat := by
    rw [Window.and_ffff_toNat]
    simp only [Cva6.decode, BitVec.extractLsb'_toNat, Nat.shiftRight_zero]
  rw [hbase, h0, show (0 : Word).toNat = 0 from rfl] at hval
  omega

theorem Kept.windowed {P : Word → Word → Prop} (hk : s.Kept P L) (hm : s.mode = .task)
    (hbase : s.granted &&& 0xFFFF#32 ≠ 0) :
    s.granted ≠ 0 ∧ s.m.mem (L.addr .portCurrentTaskWindowBase) ≠ 0 := by
  constructor
  · intro h0
    rw [h0] at hbase
    exact hbase rfl
  · rw [hk.flagged.task hm]
    exact hbase

theorem Trip.active_granted {P : Word → Word → Prop} (hk : s.Kept P L) {cause : Word}
    {span : List Event} {s₁ s₂ : System Cva6.Regs} (ht : Trip L T cause span s s₁ s₂ s')
    (hbase : s.granted &&& 0xFFFF#32 ≠ 0) :
    active s.m.core = Cva6.decode s.granted ∧ active s'.m.core = Cva6.decode s.granted := by
  obtain ⟨hg, hflag⟩ := hk.windowed ht.mode hbase
  have hstaged : Core.staged (portcontextRestoreContext L s₂.m).core = s.granted :=
    (ht.staged hk.wf hflag).trans (hk.holds.interrupted ht.mode hg)
  constructor
  · exact hk.active_granted ht.mode hg
  · rw [(step_dispatch (ht.parked hk.wf).1 ht.dispatch).eq]
    exact congrArg Cva6.decode hstaged

/-- Whatever windows the API has handed out, a register that lies in the upper half of the file,
where no other task has a register, is as the task left it when it runs next. -/
theorem isolated {s₀ : System Cva6.Regs} (hb : s₀.Boot L) {es : List Event}
    (hc : Runs.Along (step L) (Keeps (Unshared T p) L) s₀ es)
    (hr : Runs.run (step L) s₀ es = some s) {cause : Word} {span : List Event}
    {s₁ s₂ : System Cva6.Regs} (ht : Trip L T cause span s s₁ s₂ s')
    (hc' : Runs.Along (step L) (Keeps (Unshared T p) L) s₁ span) {r : Reg}
    (hreg : (Cva6.decode s.granted).phys r = some p) (hp : 32 ≤ p.val) :
    s'.m.x r = s.m.x r := by
  have hk : s.Kept (Unshared T p) L := run_kept (unshared_zero T p) hb.kept hc hr
  have hw₂ : s₂.Wf L := (ht.parked hk.wf).1
  obtain ⟨hactive, hactive'⟩ := ht.active_granted hk (base_ne_zero hreg hp)
  have hkeeps : Keeps (Unshared T p) L s (.trap cause) := ⟨trivial, nofun⟩
  have hk₁ := step_kept (unshared_zero T p) hk hkeeps ht.trap
  have hspan : cell s₂.m.core p = cell s₁.m.core p := by
    apply run_spared (unshared_zero T p) hp _ hk₁ (ht.left hk.wf fun _ => True).2.out ht.away hc'
      ht.run
    intro t hkt hm hT r'
    exact hkt.active_unshared hm hT hp r'
  have hcell : cell s'.m.core p = cell s.m.core p :=
    (step_cell_high hw₂ ht.dispatch hp nofun).trans
      (hspan.trans (step_cell_high hk.wf ht.trap hp nofun))
  unfold Machine.x
  simp only [reg_eq, hactive, hactive', hreg, hcell]

/-- A task that a handler dispatches may write a register and trap again. -/
theorem visit (hw : s.Wf L) (hm : s.mode = .handler) {r : Reg} (hr : r ≠ 0) (hp : 32 ≤ p.val)
    (hreg : (Cva6.decode (s.head (s.current L)).windowCfg).phys r = some p) (v cause : Word) :
    ∃ s', Runs.run (step L) s [.dispatch, .reg r v, .trap cause] = some s' ∧
      s'.mode = .handler ∧ cell s'.m.core p = v := by
  obtain ⟨b, hb⟩ := dispatch_of_handler (L := L) hm
  have hwb := step_wf hw hb
  have hd := step_dispatch hw hb
  have hmb : b.mode = .task := by rw [hd.eq]
  have hactive : active b.m.core = Cva6.decode (s.head (s.current L)).windowCfg := by
    rw [hd.eq]
    exact congrArg Cva6.decode hd.restored.staged
  have hreach : (active b.m.core).phys r = some p := by
    rw [hactive]
    exact hreg
  obtain ⟨c, hc, hwc, hmc, hmodec, -⟩ := step_reg (L := L) hwb r v
  have hcell : cell c.m.core p = v := by
    rw [hmc]
    exact cell_setReg_self _ _ _ _ hr hreach
  have hp2 : p ≠ 2 := by
    intro h2
    rw [h2] at hp
    exact absurd hp (by decide)
  have hsp : cell c.m.core 2 = cell b.m.core 2 := by
    rw [hmc]
    apply cell_setReg_ne _ _ _ _ (by decide)
    rw [hreach]
    exact fun h2 => hp2 (Option.some.inj h2)
  have hcur : c.current L = s.current L :=
    (step_current hwb hc (by simp)).trans (step_current hw hb (by simp))
  have hroom : InStack L (c.current L) c.nextFrame := by
    rw [nextFrame_eq, hsp, hd.cell_sp, pushed_of_add, hcur]
    exact hw.frame _ (hw.current (by rw [hm]; decide))
  obtain ⟨e, he⟩ : ∃ e, step L c (.trap cause) = some e := trap_of_room (hmodec.trans hmb) hroom
  refine ⟨e, ?_, ?_, ?_⟩
  · exact Runs.run_cons.mpr ⟨b, hb, Runs.run_cons.mpr ⟨c, hc, Runs.run_cons.mpr ⟨e, he, rfl⟩⟩⟩
  · rw [(step_trap hwc he).eq]
  · exact (step_cell_high hwc he hp nofun).trans hcell

theorem visited (hw : s.Wf L) (hm : s.mode = .handler) {U : Word} (hT : T ∈ s.created)
    (hU : U ∈ s.created) (hne : U ≠ T) {r : Reg} (hr : r ≠ 0) (hp : 32 ≤ p.val)
    (hreg : (Cva6.decode (s.head U).windowCfg).phys r = some p) (v cause : Word) :
    ∃ span s', Runs.run (step L) s span = some s' ∧ Runs.Along (step L) (Away L T) s span ∧
      (∀ e ∈ span, e.assignsTo T = false) ∧ s'.current L = T ∧ s'.mode = .handler ∧
      cell s'.m.core p = v := by
  obtain ⟨a, ha⟩ := switch_of_created (L := L) hm hU
  have hwa := step_wf hw ha
  have hma : a.mode = .handler := (switch_mode ha).trans hm
  have hca : a.current L = U := switch_current ha
  have hhead : a.head U = s.head U :=
    step_head hw ha hU (fun h => by rw [hm] at h; cases h) rfl
  obtain ⟨e, hvisit, hme, hcell⟩ := visit hwa hma hr hp (by rw [hca, hhead]; exact hreg) v cause
  have hwe := run_wf hwa hvisit
  have hTe : T ∈ e.created :=
    (Runs.run_invariant (I := fun t => t.Wf L ∧ T ∈ t.created)
      (fun _ _ _ hi h => ⟨step_wf hi.1 h, step_created hi.1 h hi.2⟩)
      ⟨hwa, step_created hw ha hT⟩ hvisit).2
  obtain ⟨s', h'⟩ := switch_of_created (L := L) hme hTe
  have haway : Runs.Along (step L) (Away L T) s (.switch U ::
      ([.dispatch, .reg r v, .trap cause] ++ [.switch T])) := by
    refine ⟨nofun, fun t hta => ⟨fun _ => ?_, fun u _ => ?_⟩⟩
    · rw [ha] at hta
      cases hta
      rw [hca]
      exact hne
    · refine ⟨nofun, fun _ _ => ⟨nofun, fun _ _ => ⟨nofun, fun _ _ => trivial⟩⟩⟩
  exact ⟨_, s', Runs.run_cons.mpr ⟨a, ha, Runs.run_concat hvisit h'⟩, haway,
    by simp [Event.assignsTo], switch_current h', (switch_mode h').trans hme,
    (step_cell_high hwe h' hp nofun).trans hcell⟩

/-- The condition is needed: a task whose window reaches that cell as well may run in between
and leave any value there. -/
theorem intruded {P : Word → Word → Prop} (hk : s.Kept P L) {cause : Word} {s₁ : System Cva6.Regs}
    (h₁ : step L s (.trap cause) = some s₁) {r : Reg} (hr : r ≠ 0)
    (hreg : (Cva6.decode s.granted).phys r = some p) (hp : 32 ≤ p.val) {U : Word}
    (hU : U ∈ s.created) (hne : U ≠ s.current L) {r' : Reg} (hr' : r' ≠ 0)
    (hreg' : (Cva6.decode (s.head U).windowCfg).phys r' = some p) (v : Word) :
    ∃ span s₂ s', Trip L (s.current L) cause span s s₁ s₂ s' ∧ s'.m.x r = v := by
  have htrap := step_trap hk.wf h₁
  have hm₁ : s₁.mode = .handler := by rw [htrap.eq]
  have hw₁ := step_wf hk.wf h₁
  have hU₁ : U ∈ s₁.created := step_created hk.wf h₁ hU
  have hT₁ : s.current L ∈ s₁.created :=
    step_created hk.wf h₁ (hk.wf.current (by rw [htrap.was]; decide))
  have hhead : s₁.head U = s.head U := step_head hk.wf h₁ hU (fun _ => hne) rfl
  obtain ⟨span, s₂, hrun, haway, huncalled, hback, hm₂, hcell⟩ :=
    visited hw₁ hm₁ hT₁ hU₁ hne hr' hp (by rw [hhead]; exact hreg') v cause
  obtain ⟨s', h'⟩ := dispatch_of_handler (L := L) hm₂
  have htrip : Trip L (s.current L) cause span s s₁ s₂ s' :=
    ⟨⟨htrap.was, rfl, h₁, hrun, haway, hback, h'⟩, huncalled⟩
  refine ⟨span, s₂, s', htrip, ?_⟩
  have hcell' : cell s'.m.core p = v :=
    (step_cell_high (run_wf hw₁ hrun) h' hp nofun).trans hcell
  unfold Machine.x
  simp only [reg_eq, (htrip.active_granted hk (base_ne_zero hreg hp)).2, hreg, hcell', hr, if_false]

/-- The same holds of the kernel's half: a window that reaches cell 5 there shares it with the
restore code, which leaves the critical nesting in it. -/
theorem intruded_by_kernel {P : Word → Word → Prop} (hk : s.Kept P L) {cause : Word}
    {span : List Event} {s₁ s₂ : System Cva6.Regs} (ht : Trip L T cause span s s₁ s₂ s')
    (hbase : s.granted &&& 0xFFFF#32 ≠ 0) {r : Reg} (hr : r ≠ 0)
    (hreg : (Cva6.decode s.granted).phys r = some 5) :
    s'.m.x r = s.m.mem (L.addr .xCriticalNesting) := by
  obtain ⟨hg, hflag⟩ := hk.windowed ht.mode hbase
  have hcell := ht.cell_t0 hk.wf hflag (by rw [hk.holds.interrupted ht.mode hg]; exact hg)
  unfold Machine.x
  simp only [reg_eq, (ht.active_granted hk hbase).2, hreg, hcell, hr, if_false]

/-- Two tasks of `sequence_test.c`, in the windows of cells 40 to 51 and 48 to 63. The first one
to run puts values into its `x5` and `x9`, which are cells 45 and 49. -/
def sequenceRun : List Event :=
  [.store 0x2E88 0x000C0028, .create 0x1000 0x2F00 0x8000 1, .create 0x1100 0x3F00 0x8000 2,
   .setWindow 0x1000 40 12, .setWindow 0x1100 48 16, .switch 0x1000, .start, .reg 5 7, .reg 9 7]

/-- Nobody shares cell 45, whatever the other task puts into its `x1`. -/
theorem sequenceRun_isolated :
    ∃ s s₁ s₂ s' : System Cva6.Regs,
      Runs.run (step smallImage) (small Cva6.Regs.reset) sequenceRun = some s ∧
      Trip smallImage 0x1000 11 (visitBy 0x1100 0x1000 1 9) s s₁ s₂ s' ∧ s'.m.x 5 = s.m.x 5 := by
  obtain ⟨s, s₁, s₂, s', hs, ht, hg⟩ := trip_visited Cva6.Regs.reset sequenceRun 11
    (visitBy 0x1100 0x1000 1 9) (T := 0x1000) (P := fun s _ => s.granted = 0x000C0028)
    (by decide) (by decide +kernel)
  have hb : (small Cva6.Regs.reset).Boot smallImage := boot_small (by decide)
  have hkeeps : Runs.Along (step smallImage) (Keeps (Unshared 0x1000 45) smallImage)
      (small Cva6.Regs.reset) (sequenceRun ++ .trap 11 :: visitBy 0x1100 0x1000 1 9) := by
    decide +kernel
  obtain ⟨hc, -, hc'⟩ := Runs.along_append hkeeps hs
  have hreg : (Cva6.decode s.granted).phys 5 = some 45 := by
    rw [hg]
    decide
  exact ⟨s, s₁, s₂, s', hs, ht, isolated hb hc hs ht (hc' s₁ ht.trap) hreg (by decide)⟩

/-- The other task has cell 49 as its `x1`, and leaves 9 there. -/
theorem sequenceRun_intruded :
    ∃ (s s₁ s₂ s' : System Cva6.Regs) (span : List Event),
      Runs.run (step smallImage) (small Cva6.Regs.reset) sequenceRun = some s ∧
      Trip smallImage 0x1000 11 span s s₁ s₂ s' ∧ s.m.x 9 = 7 ∧ s'.m.x 9 = 9 := by
  have hfacts : (Runs.run (step smallImage) (small Cva6.Regs.reset) sequenceRun).map
      (fun s => ([s.current smallImage, s.granted, s.m.x 9, (s.head 0x1100).windowCfg],
        s.created, (step smallImage s (.trap 11)).isSome)) =
      some ([0x1000, 0x000C0028, 7, 0x00100030], [0x1100, 0x1000], true) := by decide +kernel
  obtain ⟨s, hs, hf⟩ := Option.map_eq_some_iff.mp hfacts
  simp only [Prod.mk.injEq, List.cons.injEq, and_true] at hf
  obtain ⟨⟨hcur, hg, hx, hhead⟩, hcreated, hsome⟩ := hf
  obtain ⟨s₁, h₁⟩ := Option.isSome_iff_exists.mp hsome
  have hb : (small Cva6.Regs.reset).Boot smallImage := boot_small (by decide)
  have hkeeps : Runs.Along (step smallImage) (Keeps (fun _ _ => True) smallImage)
      (small Cva6.Regs.reset) sequenceRun := by decide +kernel
  have hk := run_kept (fun _ => trivial) hb.kept hkeeps hs
  obtain ⟨span, s₂, s', ht, hx'⟩ := intruded (p := 49) (r := 9) (U := 0x1100) hk h₁
    (by decide) (by rw [hg]; decide) (by decide) (by rw [hcreated]; simp)
    (by rw [hcur]; decide) (by decide : (1 : Reg) ≠ 0) (by rw [hhead]; decide) 9
  rw [hcur] at ht
  exact ⟨s, s₁, s₂, s', span, hs, ht, hx, hx'⟩

end RegisterWindows.System
