import RegisterWindows.Spike.Processor
import RegisterWindows.Trace

namespace RegisterWindows.Spike

namespace Processor

/-- `get_csr(0x800)` and `put_csr(0x800, val)`: a variable of its own. -/
def getActive (p : Processor) : Word := p.window_active.setWidth 32

def putActive (p : Processor) (val : Word) : Processor :=
  { p with window_active := val.setWidth 64 }

def exec (p : Processor) : Op → Processor
  | .write r v => { p with XPR := p.XPR.write r v }
  | .csrw .active v => p.putActive v
  | .csrw .staged v => p.putStaged v
  | .trap => p.takeTrap
  | .mret => p.mret
  | .read _ => p
  | .csrr _ => p

/-- What an instruction returns to the program. -/
def output (p : Processor) : Op → Option Word
  | .read r => some (p.XPR.read r)
  | .csrr .active => some p.getActive
  | .csrr .staged => some p.getStaged
  | _ => none

/-- After `reset`, which leaves `window_active` and `window_staged` as it finds them. -/
structure AfterReset (p : Processor) : Prop where
  xpr : p.XPR = Regfile.reset
  staged : p.getStaged = 0 ∨ (Window.ofConfig p.getStaged).Fits

end Processor

/-- The configurations of the active window, of the last `csrw 0x800` or `mret`, and of the last
`csrw 0x801`. -/
structure Shadow where
  current : Word
  told : Word
  staged : Word
deriving DecidableEq, Repr

def Shadow.next (s : Shadow) : Op → Shadow
  | .csrw .active v => { s with told := v }
  | .csrw .staged v => { s with staged := v }
  | .trap => { s with current := Window.kernel.config }
  | .mret => { s with
      told := s.staged
      current := if s.staged = 0 then Window.kernel.config else s.staged }
  | .write .. => s
  | .read _ => s
  | .csrr _ => s

theorem Shadow.current_mret (s : Shadow) :
    (s.next .mret).current = if s.staged = 0 then Window.kernel.config else s.staged := rfl

def Processor.shadow (p : Processor) : Shadow := ⟨Window.kernel.config, p.getActive, p.getStaged⟩

/-- The processor is in the window that its history says, and knows of it what that says. -/
structure Shadows (s : Shadow) (p : Processor) : Prop where
  told : p.getActive = s.told
  staged : p.getStaged = s.staged
  window : p.XPR.window = Window.ofConfig s.current
  current_fits : (Window.ofConfig s.current).Fits
  staged_fits : s.staged = 0 ∨ (Window.ofConfig s.staged).Fits
  inside : p.XPR.base_offset.toNat + p.XPR.window_size.toNat ≤ 64

theorem inside_setWindowConfig (f : Regfile) {base size : SizeT} (hb : base < NXPR)
    (hs : size.toNat < 2 ^ 32) :
    (f.setWindowConfig base size).base_offset.toNat +
      (f.setWindowConfig base size).window_size.toNat ≤ 64 := by
  have hN : NXPR.toNat = 64 := rfl
  have hlt : base.toNat < 64 := hb
  have hsum : (base + size).toNat = base.toNat + size.toNat := by
    rw [BitVec.toNat_add]
    omega
  have hbase : (f.setWindowConfig base size).base_offset = base := if_pos hb
  have hsize : (f.setWindowConfig base size).window_size =
      if base + size > NXPR then NXPR - base else size := rfl
  rw [hbase, hsize]
  by_cases hfit : base + size > NXPR
  · rw [if_pos hfit, BitVec.toNat_sub]
    omega
  · rw [if_neg hfit]
    have hle : (base + size).toNat ≤ NXPR.toNat := BitVec.not_lt.mp hfit
    omega

theorem putStaged_window {p : Processor} (val : Word)
    (hin : p.XPR.base_offset.toNat + p.XPR.window_size.toNat ≤ 64) :
    (p.putStaged val).XPR.window = p.XPR.window :=
  Regfile.window_setWindowConfig _ p.XPR.base_lt hin

theorem putStaged_inside {p : Processor} (val : Word)
    (hin : p.XPR.base_offset.toNat + p.XPR.window_size.toNat ≤ 64) :
    (p.putStaged val).XPR.base_offset.toNat + (p.putStaged val).XPR.window_size.toNat ≤ 64 :=
  inside_setWindowConfig _ p.XPR.base_lt (by omega)

theorem getStaged_putStaged (p : Processor) (val : Word) : (p.putStaged val).getStaged = val := by
  change (val.setWidth 64 : SizeT).setWidth 32 = val
  simp

theorem getActive_putActive (p : Processor) (val : Word) : (p.putActive val).getActive = val := by
  change (val.setWidth 64 : SizeT).setWidth 32 = val
  simp

theorem mret_window {s : Shadow} {p : Processor} (h : Shadows s p) :
    p.mret.XPR.window = Window.ofConfig (s.next .mret).current := by
  rw [Shadow.current_mret]
  rcases h.staged_fits with h0 | hfits
  · rw [if_pos h0, window_mret_zero (h.staged.trans h0)]
    exact Window.fits_kernel.ofConfig_config.symm
  · rw [if_neg hfits.ne_zero]
    apply window_mret _ hfits.size_pos hfits.size_le hfits.inside
    rw [h.staged]
    simp only [Window.ofConfig]
    omega

theorem mret_inside {s : Shadow} {p : Processor} (h : Shadows s p) :
    p.mret.XPR.base_offset.toNat + p.mret.XPR.window_size.toNat ≤ 64 := by
  obtain ⟨hbase, hsize⟩ := fields p
  have hlt : p.getStaged.toNat < 2 ^ 32 := p.getStaged.isLt
  unfold Processor.mret Processor.writeWindowConfig
  apply inside_setWindowConfig
  · rw [BitVec.lt_def, hbase, h.staged]
    rcases h.staged_fits with h0 | hfits
    · rw [h0]
      decide
    · have hpos := hfits.size_pos
      have hin := hfits.inside
      simp only [Window.ofConfig] at hpos hin
      have hN : NXPR.toNat = 64 := rfl
      omega
  · split
    · decide
    · omega

/-- Every instruction keeps the processor and its history together. -/
theorem Shadows.exec {s : Shadow} {p : Processor} (h : Shadows s p) {op : Op} (hf : op.Fitting) :
    Shadows (s.next op) (p.exec op) := by
  cases op with
  | write r v =>
    refine ⟨h.told, h.staged, (p.XPR.window_write r v).trans h.window, h.current_fits,
      h.staged_fits, ?_⟩
    have hsame : (p.XPR.write r v).base_offset = p.XPR.base_offset ∧
        (p.XPR.write r v).window_size = p.XPR.window_size := by
      unfold Regfile.write
      split
      · exact ⟨rfl, rfl⟩
      · split <;> exact ⟨rfl, rfl⟩
    simp only [Processor.exec, hsame.1, hsame.2]
    exact h.inside
  | read | csrr => exact h
  | csrw csr v =>
    cases csr with
    | active =>
      exact ⟨getActive_putActive p v, h.staged, h.window, h.current_fits, h.staged_fits, h.inside⟩
    | staged =>
      exact ⟨h.told, getStaged_putStaged p v, (putStaged_window v h.inside).trans h.window,
        h.current_fits, Or.inr hf, putStaged_inside v h.inside⟩
  | trap =>
    refine ⟨h.told, h.staged, ?_, ?_, h.staged_fits, ?_⟩
    · exact (window_kernel p.XPR).trans Window.fits_kernel.ofConfig_config.symm
    · simp only [Shadow.next, Window.fits_kernel.ofConfig_config]
      exact Window.fits_kernel
    · exact inside_setWindowConfig _ (by decide) (by decide)
  | mret =>
    refine ⟨h.staged, h.staged, mret_window h, ?_, h.staged_fits, mret_inside h⟩
    rw [Shadow.current_mret]
    split
    · rw [Window.fits_kernel.ofConfig_config]
      exact Window.fits_kernel
    · rename_i h0
      exact h.staged_fits.resolve_left h0

theorem Shadows.run {s : Shadow} {p : Processor} (h : Shadows s p) {ops : List Op}
    (hf : ∀ op ∈ ops, op.Fitting) :
    Shadows (ops.foldl Shadow.next s) (ops.foldl Processor.exec p) := by
  induction ops generalizing s p with
  | nil => exact h
  | cons op ops ih =>
    apply ih (h.exec (hf op List.mem_cons_self))
    exact fun o ho => hf o (List.mem_cons_of_mem op ho)

theorem Processor.AfterReset.shadows {p : Processor} (h : p.AfterReset) : Shadows p.shadow p where
  told := rfl
  staged := rfl
  window := by
    rw [h.xpr]
    exact (by decide : Regfile.reset.window = Window.ofConfig Window.kernel.config)
  current_fits := (by decide : (Window.ofConfig Window.kernel.config).Fits)
  staged_fits := h.staged
  inside := by
    rw [h.xpr]
    decide

theorem afterReset_reset : Processor.reset.AfterReset := ⟨rfl, Or.inl rfl⟩

/-- CSR 0x800 reads as the configuration of the window that is translated with. -/
def Coherent (p : Processor) : Prop := p.getActive = p.XPR.window.config

/-- CSR 0x800 is coherent exactly when the configuration that was last written to it or installed
by an `mret` is that of the active window, and a write to it selects no window but that one. -/
theorem coherent_iff {p₀ : Processor} (h0 : p₀.AfterReset) {ops : List Op}
    (hf : ∀ op ∈ ops, op.Fitting) :
    (Coherent (ops.foldl Processor.exec p₀) ↔
      (ops.foldl Shadow.next p₀.shadow).told = (ops.foldl Shadow.next p₀.shadow).current) ∧
    ∀ cfg, (Window.ofConfig cfg).Fits →
      (((ops.foldl Processor.exec p₀).exec (.csrw .active cfg)).XPR.window = Window.ofConfig cfg ↔
        cfg = (ops.foldl Shadow.next p₀.shadow).current) := by
  have h := h0.shadows.run hf
  constructor
  · unfold Coherent
    rw [h.told, h.window, Window.config_ofConfig h.current_fits]
  · intro cfg _
    rw [show ((ops.foldl Processor.exec p₀).exec (.csrw .active cfg)).XPR.window = _ from h.window]
    exact ⟨fun he => (Window.ofConfig_inj he).symm, fun he => by rw [he]⟩

/-- After the first `mret` of a run. -/
theorem firstMret_coherent :
    Coherent ([.csrw .staged 0x00100020, .mret].foldl Processor.exec Processor.reset) :=
  (coherent_iff afterReset_reset
    (by decide : ∀ op ∈ [Op.csrw .staged 0x00100020, .mret], op.Fitting)).1.mpr (by decide)

/-- After the first trap of a run that was in another window, and after a write to CSR 0x800. -/
theorem trap_not_coherent :
    ¬ Coherent ([.csrw .staged 0x00100020, .mret, .trap].foldl Processor.exec Processor.reset) ∧
      ([.csrw .active 0x00100020].foldl Processor.exec Processor.reset).XPR.window ≠
        Window.ofConfig 0x00100020 := by
  unfold Coherent
  decide

/-- What CSR 0x801 holds after one more instruction: only a `csrw` of it counts. -/
def lastStaged (staged : Word) : Op → Word
  | .csrw .staged v => v
  | _ => staged

theorem getStaged_exec (p : Processor) (op : Op) :
    (p.exec op).getStaged = lastStaged p.getStaged op := by
  cases op with
  | csrw csr v =>
    cases csr with
    | active => rfl
    | staged => exact getStaged_putStaged p v
  | write | read | csrr | trap | mret => rfl

theorem getStaged_run (p : Processor) (ops : List Op) :
    (ops.foldl Processor.exec p).getStaged = ops.foldl lastStaged p.getStaged := by
  induction ops generalizing p with
  | nil => rfl
  | cons op ops ih => exact (ih (p.exec op)).trans (by rw [getStaged_exec]; rfl)

/-- A handler up to its `mret`: it may be interrupted itself, and does not write CSR 0x801. -/
def Op.Unstaging : Op → Prop
  | .csrw .staged _ => False
  | .mret => False
  | _ => True

theorem lastStaged_of_unstaging {staged : Word} {ops : List Op}
    (h : ∀ op ∈ ops, Op.Unstaging op) : ops.foldl lastStaged staged = staged := by
  induction ops generalizing staged with
  | nil => rfl
  | cons op ops ih =>
    refine (ih fun o ho => h o (List.mem_cons_of_mem op ho)).trans ?_
    have hop := h op List.mem_cons_self
    cases op with
    | csrw csr v =>
      cases csr with
      | active => rfl
      | staged => cases hop
    | mret => cases hop
    | _ => rfl

/-- What a trap from `p` has to keep to: its handler reads the interrupted window in CSR 0x801
until it writes it, and an `mret` without such a write goes back to that window. -/
def KeepsInterrupted (p : Processor) : Prop :=
  ∀ handler : List Op, (∀ op ∈ handler, Op.Unstaging op) →
    (handler.foldl Processor.exec p.takeTrap).output (.csrr .staged) = some p.XPR.window.config ∧
      ((handler.foldl Processor.exec p.takeTrap).exec .mret).XPR.window = p.XPR.window

/-- Of any program, whatever it writes to the two CSRs: a trap from a window that fits reports
and resumes that window exactly when the last write to CSR 0x801 was its configuration already.
The trap itself records it where nobody looks. -/
theorem keepsInterrupted_iff (p₀ : Processor) (ops : List Op)
    (hw : (ops.foldl Processor.exec p₀).XPR.window.Fits) :
    KeepsInterrupted (ops.foldl Processor.exec p₀) ↔
      ops.foldl lastStaged p₀.getStaged = (ops.foldl Processor.exec p₀).XPR.window.config := by
  have hst := getStaged_run p₀ ops
  obtain ⟨p, hp⟩ : ∃ p, p = ops.foldl Processor.exec p₀ := ⟨_, rfl⟩
  rw [← hp] at hw hst ⊢
  rw [← hst]
  have htrap : p.takeTrap.getStaged = p.getStaged := rfl
  constructor
  · intro hk
    obtain ⟨hread, -⟩ := hk [] (by simp)
    exact Option.some.inj hread
  · intro he handler hh
    have hend : (handler.foldl Processor.exec p.takeTrap).getStaged = p.XPR.window.config :=
      (getStaged_run _ handler).trans ((lastStaged_of_unstaging hh).trans (htrap.trans he))
    constructor
    · exact congrArg some hend
    · apply window_mret _ hw.size_pos hw.size_le hw.inside
      rw [hend, hw.config_toNat]

/-- A window that was staged and installed is reported and resumed at the first trap. -/
theorem installed_keepsInterrupted :
    KeepsInterrupted ([.csrw .staged 0x00100020, .mret].foldl Processor.exec Processor.reset) :=
  (keepsInterrupted_iff Processor.reset [.csrw .staged 0x00100020, .mret] (by decide)).mpr
    (by decide)

/-- With another window staged in the meantime, the handler is told that one. -/
theorem restaged_not_keepsInterrupted :
    ¬ KeepsInterrupted ([.csrw .staged 0x00100020, .mret, .csrw .staged 0x00100030].foldl
      Processor.exec Processor.reset) := by
  intro hk
  obtain ⟨hread, -⟩ := hk [] (by simp)
  exact absurd hread (by decide)

end RegisterWindows.Spike
