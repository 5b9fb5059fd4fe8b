import RegisterWindows.MinimalContext

namespace RegisterWindows.System
open Machine Port WindowedCore LawfulCore

variable {H : Type} [WindowedCore H] {L : Image} {s s' : System H} {T : Word}

/-- The stack of `T` is one range of addresses, away from both ends of the address space. -/
structure StackRange (L : Image) (T : Word) (lo hi : Nat) : Prop where
  lo_le : 4 ≤ lo
  hi_le : hi + 4 ≤ 2 ^ 32
  region : ∀ a, L.region a = .stack T ↔ lo ≤ a.toNat ∧ a.toNat < hi

section
variable {lo hi : Nat} {f : Word}

theorem slot_succ_toNat (k : Nat) :
    (f + slot (k + 1)).toNat = ((f + slot k).toNat + 4) % 2 ^ 32 := by
  rw [slot_add, ← BitVec.add_assoc, BitVec.toNat_add]
  rfl

theorem StackRange.slot_toNat (hR : StackRange L T lo hi) (hin : InStack L T f) {k : Nat}
    (hk : k < 33) : (f + slot k).toNat = f.toNat + 4 * k := by
  induction k with
  | zero => exact congrArg BitVec.toNat (BitVec.add_zero f)
  | succ k ih =>
    have hprev := ih (by omega)
    have hlo := ((hR.region _).mp (hin (k + 1) hk)).1
    have hhi := ((hR.region _).mp (hin k (by omega))).2
    have hpos := hR.lo_le
    have htop := hR.hi_le
    rw [slot_succ_toNat] at hlo ⊢
    omega

theorem StackRange.byte_toNat (hR : StackRange L T lo hi) (hin : InStack L T f) {b : Nat}
    (hb : b ≤ 132) : (f + BitVec.ofNat 32 b).toNat = f.toNat + b := by
  have hlast := hR.slot_toNat hin (by decide : 32 < 33)
  have hhi := ((hR.region _).mp (hin 32 (by decide))).2
  have htop := hR.hi_le
  rw [BitVec.toNat_add, BitVec.toNat_ofNat]
  omega

end

/-- The frame of a trap lies below the `sp` of the task, and from there up the stack is as the
task left it when it resumes. -/
structure StackSpared (L : Image) (T : Word) (s s' : System H) : Prop where
  below : ∀ b < portContextSize.toNat,
    (s.nextFrame + BitVec.ofNat 32 b).toNat < (s.m.x sp).toNat
  above : ∀ a, L.region a = .stack T → (s.m.x sp).toNat ≤ a.toNat → s'.m.mem a = s.m.mem a

section
variable [LawfulCore H]

theorem run_stack (hw : s.Wf L) (hT : T ∈ s.created) (hout : s.SwitchedOut L T) {a : Word}
    (ha : L.region a = .stack T) (hne : a ≠ s.frameOf T + slot portWindowCfgOffset)
    {es : List Event} (haway : Runs.Along (step L) (Away L T) s es)
    (h : Runs.run (step L) s es = some s') : s'.m.mem a = s.m.mem a := by
  induction es generalizing s with
  | nil =>
    cases h
    rfl
  | cons e es ih =>
    obtain ⟨t, ht, h⟩ := Runs.run_cons.mp h
    have hframe : t.frameOf T = s.frameOf T := by
      apply step_frameOf hw ht hT
      rintro c rfl
      exact hout (step_trap hw ht).was
    have hrest := ih (step_wf hw ht) (step_created hw ht hT)
      (step_switchedOut hw ht hout haway.1) (by rw [hframe]; exact hne) (haway.2 t ht) h
    apply hrest.trans
    exact step_stack_word hw ht hT hout ha fun he => absurd he hne

section
variable {cause : Word} {span : List Event} {s₁ s₂ : System H} {lo hi : Nat}

theorem Absence.stack (hw : s.Wf L) (ht : Absence L T cause span s s₁ s₂ s') {a : Word}
    (ha : L.region a = .stack T) (hframe : ∀ k < 33, a ≠ s.nextFrame + slot k) :
    s'.m.mem a = s.m.mem a := by
  obtain ⟨htrap, hp⟩ := ht.left hw fun _ => True
  have hw₁ := step_wf hw ht.trap
  have htcb : a ≠ (s.m.takeTrap cause).mem (L.addr .pxCurrentTCB) := by
    intro he
    have hr := hw.tcb _ (hw.current (by rw [ht.mode]; decide))
    rw [show s.current L = a from he.symm, ha] at hr
    cases hr
  have hsave : s₁.m.mem a = s.m.mem a := htrap.saved.mem_other a htcb hframe
  have hspan : s₂.m.mem a = s₁.m.mem a := by
    apply run_stack hw₁ hp.created hp.out ha _ ht.away ht.run
    rw [hp.frame]
    exact hframe _ (by decide)
  have hload : s'.m.mem a = s₂.m.mem a := by
    apply step_mem (run_wf hw₁ ht.run) ht.dispatch
    rw [ha]
    simp [Writes]
  exact hload.trans (hspan.trans hsave)

/-- What the task has on its stack survives a trap exactly if its `sp` is not below physical
register 2, which the trap pushes the frame from. -/
theorem Absence.spared_iff (hw : s.Wf L) (ht : Absence L T cause span s s₁ s₂ s')
    (hR : StackRange L T lo hi) :
    StackSpared L T s s' ↔ (cell s.m.core 2).toNat ≤ (s.m.x sp).toNat := by
  have hin : InStack L T s.nextFrame := by
    rw [← ht.current]
    exact (step_trap hw ht.trap).room
  have hbyte : ∀ b ≤ 132, (s.nextFrame + BitVec.ofNat 32 b).toNat = s.nextFrame.toNat + b :=
    fun _ => hR.byte_toNat hin
  have htop : (cell s.m.core 2).toNat = s.nextFrame.toNat + 132 := by
    rw [← hbyte 132 (by decide), nextFrame_eq]
    exact congrArg BitVec.toNat (pushed_add (cell s.m.core 2)).symm
  have hsize : portContextSize.toNat = 132 := rfl
  constructor
  · intro hs
    have hlast := hs.below 131 (by decide)
    rw [hbyte 131 (by decide)] at hlast
    omega
  · intro hle
    constructor
    · intro b hb
      rw [hbyte b (by omega)]
      omega
    · intro a ha hab
      apply ht.stack hw ha
      intro k hk he
      rw [he, hR.slot_toNat hin hk] at hab
      omega

end

/-- What `LegalCfg` allows a task: a window of its own, above the kernel's half. -/
def LegalCfg (_ cfg : Word) : Prop := cfg = 0 ∨ ∃ w : Window, w.Legal ∧ cfg = w.config

/-- Physical register 2 is still where the entry into the task left it: at the end of the frame,
or at its start if the task was the first to run. -/
def Anchored (L : Image) (s : System H) : Prop :=
  s.mode = .task → s.granted ≠ 0 →
    cell s.m.core 2 = s.frameOf (s.current L) + portContextSize ∨
      cell s.m.core 2 = s.frameOf (s.current L)

theorem step_anchored (hk : s.Kept LegalCfg L) (ha : s.Anchored L) {e : Event}
    (h : step L s e = some s') : s'.Anchored L := by
  have hkeep : (∀ T, e ≠ .switch T) → (∀ c, e ≠ .trap c) → s'.mode = s.mode →
      s'.granted = s.granted → cell s'.m.core 2 = cell s.m.core 2 → s'.Anchored L := by
    intro hns hnt hm hg hc hm' hg'
    have hcur := hk.wf.current (by rw [← hm, hm']; decide)
    rw [hc, step_current hk.wf h hns, step_frameOf hk.wf h hcur fun c hc => absurd hc (hnt c)]
    exact ha (hm ▸ hm') (hg ▸ hg')
  cases step_kind hk.wf h with
  | reg r v =>
    intro hm hg
    obtain ⟨w, hl, hcfg⟩ := (hk.copies.granted hm).resolve_left hg
    have hactive := hk.holds.active hm w hl hcfg
    have hc : cell (s.m.setX r v).core 2 = cell s.m.core 2 := by
      apply cell_setReg_ne _ _ _ _ (by decide)
      rw [hactive]
      intro h2
      exact absurd (hl.phys_high h2) (by decide)
    exact hkeep nofun nofun rfl rfl hc hm hg
  | switch U hm hU => exact fun h => absurd h hm
  | trap c ht =>
    intro hm
    rw [ht.eq] at hm
    cases hm
  | dispatch hd =>
    intro _ _
    have hcur := hk.wf.current (by rw [hd.was]; decide)
    rw [step_current hk.wf h nofun, step_frameOf hk.wf h hcur nofun]
    exact Or.inl hd.cell_sp
  | start hs =>
    intro _ hg
    rw [step_current hk.wf h nofun, step_frameOf hk.wf h hs.created nofun]
    rcases hs.paths with ⟨-, m', hm', hst, n, hrun⟩ | ⟨hz, -⟩
    · right
      rw [hm', ← hst.sp, hrun.kernel.x_eq (by decide : sp ≠ 0)]
      exact congrFun (cell_mret _) 2
    · rw [hs.eq] at hg
      exact absurd hz hg
  | create U t p q hc =>
    exact hkeep nofun nofun (by rw [hc.eq]) (by rw [hc.eq]) (by rw [hc.eq])
  | assigns _ U hU =>
    exact hkeep hU.not_switch hU.not_trap (by rw [hU.eq]) (by rw [hU.eq]) (by rw [hU.core])
  | plain _ hp hnull heq hcore =>
    refine hkeep ?_ ?_ (by rw [heq]) (by rw [heq]) (by rw [hcore])
    · rintro U rfl
      cases hp
    · rintro c rfl
      cases hp

theorem run_anchored {s₀ : System H} (hb : s₀.Boot L) {es : List Event}
    (hc : Runs.Along (step L) (Keeps LegalCfg L) s₀ es) (hr : Runs.run (step L) s₀ es = some s) :
    s.Anchored L := by
  have hboth : Runs.Preserved (step L) (Keeps LegalCfg L)
      fun s : System H => s.Kept LegalCfg L ∧ s.Anchored L := by
    intro s e t hi hc h
    exact ⟨step_kept (fun _ => Or.inl rfl) hi.1 hc h, step_anchored hi.1 hi.2 h⟩
  have hstart : s₀.Anchored L := by
    intro hm
    rw [hb.mode] at hm
    cases hm
  exact (Runs.run_preserved hboth ⟨hb.kept, hstart⟩ hc hr).2

/-- What the task has on its stack survives a trap exactly if its `sp` is not below physical
register 2, which the trap pushes the frame from. -/
theorem stackSpared_iff {s₀ : System H} (hb : s₀.Boot L) {es : List Event}
    (hr : Runs.run (step L) s₀ es = some s) {cause : Word} {span : List Event} {s₁ s₂ : System H}
    (ht : Absence L T cause span s s₁ s₂ s') {lo hi : Nat} (hR : StackRange L T lo hi) :
    StackSpared L T s s' ↔ (cell s.m.core 2).toNat ≤ (s.m.x sp).toNat :=
  ht.spared_iff (run_wf hb.wf hr) hR

end

theorem smallImage_stack : StackRange smallImage 0x1000 0x2000 0x3000 where
  lo_le := by decide
  hi_le := by decide
  region a := by
    change (if a = 0 then Region.other
      else if a.toNat / 0x1000 = 0 then (smallLayout[a.toNat / 4 - 1]?).elim .other .sym
      else if a.toNat / 0x1000 = 1 then .tcb a
      else if a.toNat / 0x1000 < 5 then
        .stack (BitVec.ofNat 32 (0x1000 + 0x100 * (a.toNat / 0x1000 - 2)))
      else .other) = .stack 0x1000 ↔ _
    constructor
    · intro h
      split at h
      · cases h
      split at h
      · cases hsym : smallLayout[a.toNat / 4 - 1]? <;> rw [hsym] at h <;> cases h
      split at h
      · cases h
      split at h
      · have hpage := congrArg BitVec.toNat (Region.stack.inj h)
        rw [BitVec.toNat_ofNat, show (0x1000 : Word).toNat = 0x1000 from rfl] at hpage
        omega
      · cases h
    · intro hpage
      have hdiv : a.toNat / 0x1000 = 2 := by omega
      have hne : a ≠ 0 := by
        intro h0
        rw [h0] at hdiv
        exact absurd hdiv (by decide)
      rw [if_neg hne, hdiv]
      rfl

/-- The first task of `pairRun` has moved its `sp` to `sp₀` when it traps. -/
def movedRun (sp₀ : Word) : List Event := pairRun ++ [.reg sp sp₀]

theorem movedRun_spared :
    ∃ s s₁ s₂ s' : System Cva6.Regs,
      Runs.run (step smallImage) (small Cva6.Regs.reset) (movedRun 0x2F00) = some s ∧
      Absence smallImage 0x1000 11 (visitBy 0x1100 0x1000 sp 0x3E00) s s₁ s₂ s' ∧
      StackSpared smallImage 0x1000 s s' := by
  obtain ⟨s, s₁, s₂, s', hs, ht, hle⟩ := trip_visited Cva6.Regs.reset (movedRun 0x2F00) 11
    (visitBy 0x1100 0x1000 sp 0x3E00) (T := 0x1000)
    (P := fun s _ => (cell s.m.core 2).toNat ≤ (s.m.x sp).toNat) (by decide) (by decide +kernel)
  have hb : (small Cva6.Regs.reset).Boot smallImage := boot_small (by decide)
  exact ⟨s, s₁, s₂, s', hs, ht.toAbsence,
    (stackSpared_iff hb hs ht.toAbsence smallImage_stack).mpr hle⟩

/-- With its `sp` below the kernel's, the frame is written over the words it has there: here the
`context_type` word of that frame over its word at `0x2E78`. -/
theorem movedRun_overwritten :
    ∃ s s₁ s' : System Cva6.Regs,
      Runs.run (step smallImage) (small Cva6.Regs.reset) (movedRun 0x2E00) = some s ∧
      Absence smallImage 0x1000 11 [] s s₁ s₁ s' ∧ s.m.x sp = 0x2E00 ∧
      s.m.mem 0x2E78 = 0 ∧ s₁.m.mem 0x2E78 = 1 ∧ ¬ StackSpared smallImage 0x1000 s s' := by
  obtain ⟨s, s₁, s', hs, ht, hf⟩ := trip_small Cva6.Regs.reset (movedRun 0x2E00) 11 (T := 0x1000)
    (f := fun s => ([s.m.x sp, s.nextFrame, s.m.mem 0x2E78],
      (step smallImage s (.trap 11)).map fun s₁ => s₁.m.mem 0x2E78))
    (v := ([0x2E00, 0x2DF8, 0], some 1)) (by decide) (by decide +kernel)
  simp only [Prod.mk.injEq, List.cons.injEq, and_true] at hf
  obtain ⟨⟨hsp, hframe, hold⟩, hsome⟩ := hf
  have hnew : s₁.m.mem 0x2E78 = 1 := by
    rw [ht.trap] at hsome
    exact Option.some.inj hsome
  refine ⟨s, s₁, s', hs, ht.toAbsence, hsp, hold, hnew, fun hspared => ?_⟩
  have hlast := hspared.below 131 (by decide)
  rw [hframe, hsp] at hlast
  exact absurd hlast (by decide)

end RegisterWindows.System
