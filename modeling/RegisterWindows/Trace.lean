import RegisterWindows.Window

namespace RegisterWindows

/-- CSR 0x800 and CSR 0x801. -/
inductive WindowCsr where
  | active
  | staged
deriving DecidableEq, Repr

inductive Op where
  | write (r : Reg) (v : Word)
  | read (r : Reg)
  | csrr (csr : WindowCsr)
  | csrw (csr : WindowCsr) (v : Word)
  /-- A trap into machine mode. -/
  | trap
  | mret
deriving DecidableEq, Repr

namespace Window

/-- The window that the two halfwords of a configuration describe. -/
def ofConfig (cfg : Word) : Window := ⟨cfg.toNat % 65536, cfg.toNat / 65536⟩

/-- A window that names at most 32 cells, all of them in the file. -/
structure Fits (w : Window) : Prop where
  size_pos : 1 ≤ w.size
  size_le : w.size ≤ 32
  inside : w.base + w.size ≤ 64

instance (w : Window) : Decidable w.Fits :=
  decidable_of_iff (1 ≤ w.size ∧ w.size ≤ 32 ∧ w.base + w.size ≤ 64)
    ⟨fun ⟨a, b, c⟩ => ⟨a, b, c⟩, fun ⟨a, b, c⟩ => ⟨a, b, c⟩⟩

theorem fits_kernel : kernel.Fits := by decide

theorem Fits.config_toNat {w : Window} (hw : w.Fits) :
    w.config.toNat = w.size * 65536 + w.base := by
  have hle := hw.size_le
  have hin := hw.inside
  unfold config
  rw [pack_toNat, BitVec.toNat_ofNat, BitVec.toNat_ofNat]
  omega

theorem Fits.ofConfig_config {w : Window} (hw : w.Fits) : ofConfig w.config = w := by
  have hn := hw.config_toNat
  have hin := hw.inside
  obtain ⟨b, z⟩ := w
  simp only [ofConfig, hn, mk.injEq] at *
  omega

theorem ofConfig_inj {a b : Word} (h : ofConfig a = ofConfig b) : a = b := by
  simp only [ofConfig, mk.injEq] at h
  apply BitVec.eq_of_toNat_eq
  omega

theorem config_ofConfig {cfg : Word} (h : (ofConfig cfg).Fits) : (ofConfig cfg).config = cfg :=
  ofConfig_inj h.ofConfig_config

theorem Fits.ne_zero {cfg : Word} (h : (ofConfig cfg).Fits) : cfg ≠ 0 := by
  rintro rfl
  exact absurd h.size_pos (by decide)

end Window

/-- Every configuration that is written fits the file. -/
def Op.Fitting : Op → Prop
  | .csrw _ v => (Window.ofConfig v).Fits
  | _ => True

instance : DecidablePred Op.Fitting
  | .csrw _ v => inferInstanceAs (Decidable (Window.ofConfig v).Fits)
  | .write .. | .read _ | .csrr _ | .trap | .mret => isTrue trivial

end RegisterWindows
