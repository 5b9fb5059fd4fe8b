import RegisterWindows.Cva6.Core
import RegisterWindows.Spike.Shadow

namespace RegisterWindows

namespace Cva6

def Regs.exec (h : Regs) : Op → Regs
  | .write r v => writeReg h r v
  | .csrw .active v => { h with windowConfig := v }
  | .csrw .staged v => { h with prevWindowConfig := v }
  | .trap => WindowedCore.trap h
  | .mret => WindowedCore.mret h
  | .read _ => h
  | .csrr _ => h

def Regs.output (h : Regs) : Op → Option Word
  | .read r => some (rdata true h.windowConfig h.mem r)
  | .csrr .active => some h.windowConfig
  | .csrr .staged => some h.prevWindowConfig
  | _ => none

/-- `csrw 0x800`, at the clock edge that commits it. -/
theorem core_clock_window (cfg : Cfg) {h h' : Hart 32 32} {i : Input 32 32} {v : Word}
    (hi : i.csr.op = .window .write v) (ht : trapTaken cfg h.csrs i.csr = false)
    (hp : i.ports = []) (hs : clock cfg h i = some h') :
    h'.core = h.core.exec (.csrw .active v) := by
  rw [Hart.core_clock cfg hs, windowConfig_cycle cfg _ (by rw [hi]; exact nofun), windowsTaken, ht,
    hi, hp]
  rfl

theorem decode_eq_ofConfig (cfg : Word) : decode cfg = Window.ofConfig cfg := by
  have hlt := cfg.isLt
  simp only [decode, Window.ofConfig, BitVec.extractLsb'_toNat, Nat.shiftRight_eq_div_pow,
    Window.mk.injEq]
  omega

end Cva6

open Cva6 Spike

/-- What a program has done: the active and the interrupted window as CVA6 has them, the
configuration it last wrote to CSR 0x800 or installed by an `mret`, the one it last wrote to
CSR 0x801, and the cells that it reached as `x0` last. -/
structure Ledger where
  active : Word
  interrupted : Word
  told : Word
  staged : Word
  stale : PhysReg → Bool

/-- A write to `x0` reaches a cell on CVA6, where the window has another base than 0. -/
def Ledger.next (k : Ledger) : Op → Ledger
  | .write r _ =>
    match (Window.ofConfig k.active).phys r with
    | some q => { k with stale := Function.update k.stale q (decide (r = 0 ∧ q ≠ 0)) }
    | none => k
  | .csrw .active v => { k with active := v, told := v }
  | .csrw .staged v => { k with interrupted := v, staged := v }
  | .trap => { k with active := Window.kernel.config, interrupted := k.active }
  | .mret => { k with active := k.interrupted, told := k.staged }
  | .read _ => k
  | .csrr _ => k

def Ledger.step (k : Ledger) (op : Op) : Option Ledger := some (k.next op)

/-- The windows are moved only as both machines move them: `csrw 0x800` to where they are, and
`mret` to what was written to CSR 0x801 last, or to the kernel window if that is 0, where the last
trap has put no other window there. And no register is read in a cell that was last written as
`x0`. -/
def Steers (k : Ledger) : Op → Prop
  | .read r => ∀ q, (Window.ofConfig k.active).phys r = some q → r = 0 ∨ k.stale q = false
  | .csrw .active v => v = k.active
  | .mret => (if k.staged = 0 then Window.kernel.config else k.staged) = k.interrupted
  | _ => True

/-- A CSR is read only when it holds what the program told it last. -/
def Reports (k : Ledger) : Op → Prop
  | .csrr .active => k.active = k.told
  | .csrr .staged => k.interrupted = k.staged
  | _ => True

instance (k : Ledger) : DecidablePred (Steers k)
  | .read _ => inferInstanceAs (Decidable (∀ _ : PhysReg, _ → _ ∨ _))
  | .csrw .active _ | .mret => inferInstanceAs (Decidable (_ = _))
  | .csrw .staged _ | .write .. | .csrr _ | .trap => isTrue trivial

instance (k : Ledger) : DecidablePred (Reports k)
  | .csrr .active => inferInstanceAs (Decidable (_ = _))
  | .csrr .staged => inferInstanceAs (Decidable (_ = _))
  | .csrw .. | .write .. | .read _ | .trap | .mret => isTrue trivial

/-- Everything a program is told by a machine it runs on. -/
def outputs {σ : Type} (exec : σ → Op → σ) (output : σ → Op → Option Word) (s : σ) :
    List Op → List (Option Word)
  | [] => []
  | op :: ops => output s op :: outputs exec output (exec s op) ops

/-- The two machines with one history, in the same window, over the same cells but for those
that are stale. -/
structure Matches (k : Ledger) (h : Regs) (p : Processor) : Prop where
  active : h.windowConfig = k.active
  interrupted : h.prevWindowConfig = k.interrupted
  shadows : Shadows ⟨k.active, k.told, k.staged⟩ p
  cells : ∀ q, k.stale q = false → h.mem q = p.XPR.data q

namespace Matches
variable {k : Ledger} {h : Regs} {p : Processor}

theorem window (hm : Matches k h p) : decode h.windowConfig = Window.ofConfig k.active := by
  rw [decode_eq_ofConfig, hm.active]

theorem read_eq (hm : Matches k h p) {r : Reg} (hs : Steers k (.read r)) :
    rdata true h.windowConfig h.mem r = p.XPR.read r := by
  rw [Regfile.read_eq, hm.shadows.window]
  by_cases hr : r = 0
  · simp [rdata, hr]
  · simp only [rdata, windowTranslation, hm.window, hr, and_false, if_false]
    cases hq : (Window.ofConfig k.active).phys r with
    | none => rfl
    | some q => exact hm.cells q ((hs q hq).resolve_left hr)

theorem write (hm : Matches k h p) (r : Reg) (v : Word) :
    Matches (k.next (.write r v)) (writeReg h r v) { p with XPR := p.XPR.write r v } := by
  have hother : ∀ q, q ≠ 0 → (Window.ofConfig k.active).phys r ≠ some q →
      (writeReg h r v).mem q = h.mem q ∧ (p.XPR.write r v).data q = p.XPR.data q := by
    intro q hq hne
    refine ⟨writeReg_ne h v hq ?_, Regfile.data_write_ne v ?_⟩
    · rw [hm.window]
      exact hne
    · rw [hm.shadows.window]
      exact hne
  have hzero : (writeReg h r v).mem 0 = (p.XPR.write r v).data 0 :=
    (writeReg_zero h r v).trans (p.XPR.write r v).data_zero.symm
  have hsh : Shadows ⟨k.active, k.told, k.staged⟩ { p with XPR := p.XPR.write r v } :=
    hm.shadows.exec (show (Op.write r v).Fitting from trivial)
  cases hp : (Window.ofConfig k.active).phys r with
  | none =>
    simp only [Ledger.next, hp]
    refine ⟨hm.active, hm.interrupted, hsh, fun q hq => ?_⟩
    by_cases h0 : q = 0
    · rw [h0]
      exact hzero
    · obtain ⟨hc, hs⟩ := hother q h0 (by rw [hp]; exact nofun)
      rw [hc]
      exact (hm.cells q hq).trans hs.symm
  | some c =>
    simp only [Ledger.next, hp]
    refine ⟨hm.active, hm.interrupted, hsh, fun q hq => ?_⟩
    by_cases h0 : q = 0
    · rw [h0]
      exact hzero
    by_cases hqc : q = c
    · subst hqc
      simp only [Function.update_self, decide_eq_false_iff_not, not_and, not_not] at hq
      have hr : r ≠ 0 := fun hr => h0 (hq hr)
      have hw : (writeReg h r v).mem q = v := writeReg_self h v hr (by rw [hm.window]; exact hp)
      rw [hw]
      exact (Regfile.data_write_self v hr (by rw [hm.shadows.window]; exact hp)).symm
    · simp only [Function.update_of_ne hqc] at hq
      obtain ⟨hc, hs⟩ := hother q h0 (by rw [hp]; exact fun he => hqc (Option.some.inj he).symm)
      rw [hc]
      exact (hm.cells q hq).trans hs.symm

theorem exec (hm : Matches k h p) {op : Op} (hf : op.Fitting) (hs : Steers k op) :
    Matches (k.next op) (h.exec op) (p.exec op) := by
  have hsh := hm.shadows.exec hf
  cases op with
  | write r v => exact hm.write r v
  | read | csrr => exact hm
  | csrw csr v =>
    cases csr with
    | active =>
      cases hs
      exact ⟨rfl, hm.interrupted, hsh, hm.cells⟩
    | staged => exact ⟨hm.active, rfl, hsh, hm.cells⟩
  | trap => exact ⟨rfl, hm.active, hsh, hm.cells⟩
  | mret =>
    have hcur : (Shadow.next ⟨k.active, k.told, k.staged⟩ .mret).current = k.interrupted :=
      (Shadow.current_mret _).trans hs
    have hnext : Shadow.next ⟨k.active, k.told, k.staged⟩ .mret =
        ⟨k.interrupted, k.staged, k.staged⟩ :=
      congrArg (fun c => (⟨c, k.staged, k.staged⟩ : Shadow)) hcur
    rw [hnext] at hsh
    exact ⟨hm.interrupted, hm.interrupted, hsh, hm.cells⟩

/-- The two machines return the same exactly when a CSR read finds what it was told. -/
theorem output_iff (hm : Matches k h p) {op : Op} (hs : Steers k op) :
    h.output op = p.output op ↔ Reports k op := by
  cases op with
  | read r => exact ⟨fun _ => trivial, fun _ => congrArg some (hm.read_eq hs)⟩
  | csrr csr =>
    cases csr with
    | active =>
      simp only [Regs.output, Processor.output, hm.active, hm.shadows.told, Option.some.injEq]
      rfl
    | staged =>
      simp only [Regs.output, Processor.output, hm.interrupted, hm.shadows.staged,
        Option.some.injEq]
      rfl
  | write | csrw | trap | mret => exact ⟨fun _ => trivial, fun _ => rfl⟩

theorem outputs_iff (hm : Matches k h p) {ops : List Op} (hf : ∀ op ∈ ops, op.Fitting)
    (hs : Runs.Along Ledger.step Steers k ops) :
    outputs Regs.exec Regs.output h ops = outputs Processor.exec Processor.output p ops ↔
      Runs.Along Ledger.step Reports k ops := by
  induction ops generalizing k h p with
  | nil => exact ⟨fun _ => trivial, fun _ => rfl⟩
  | cons op ops ih =>
    have hnext := hm.exec (hf op List.mem_cons_self) hs.1
    have htail := ih hnext (fun o ho => hf o (List.mem_cons_of_mem op ho)) (hs.2 _ rfl)
    simp only [outputs, List.cons.injEq]
    rw [hm.output_iff hs.1, htail]
    constructor
    · rintro ⟨hop, hrest⟩
      refine ⟨hop, ?_⟩
      rintro _ ⟨⟩
      exact hrest
    · rintro ⟨hop, hrest⟩
      exact ⟨hop, hrest _ rfl⟩

end Matches

/-- Both machines after reset. -/
def ledger₀ (p : Processor) : Ledger where
  active := Window.kernel.config
  interrupted := 0
  told := p.getActive
  staged := p.getStaged
  stale _ := false

theorem matches_reset {p₀ : Processor} (h0 : p₀.AfterReset) :
    Matches (ledger₀ p₀) Regs.reset p₀ where
  active := (by decide : Regs.reset.windowConfig = Window.kernel.config)
  interrupted := rfl
  shadows := h0.shadows
  cells q _ := by
    rw [h0.xpr]
    rfl

/-- For programs that move their windows as both machines move them, CVA6 and Spike return the
same to every instruction exactly when each CSR is read only while it holds what the program
told it last. -/
theorem conform_iff {p₀ : Processor} (h0 : p₀.AfterReset) {ops : List Op}
    (hf : ∀ op ∈ ops, op.Fitting) (hs : Runs.Along Ledger.step Steers (ledger₀ p₀) ops) :
    outputs Regs.exec Regs.output Regs.reset ops =
        outputs Processor.exec Processor.output p₀ ops ↔
      Runs.Along Ledger.step Reports (ledger₀ p₀) ops :=
  (matches_reset h0).outputs_iff hf hs

/-- A task in cells 32 to 47 that is interrupted once and resumed. -/
def resumedOnce : List Op :=
  [.csrw .staged 0x00100020, .mret, .write 5 9, .trap, .csrr .staged, .write 5 7, .mret, .read 5]

theorem resumedOnce_conform :
    outputs Regs.exec Regs.output Regs.reset resumedOnce =
      outputs Processor.exec Processor.output Processor.reset resumedOnce :=
  (conform_iff afterReset_reset (by decide) (by decide)).mpr (by decide)

/-- A trap right after reset, where CSR 0x801 has not been written. -/
theorem firstTrap_not_conform :
    outputs Regs.exec Regs.output Regs.reset [.trap, .csrr .staged] ≠
      outputs Processor.exec Processor.output Processor.reset [.trap, .csrr .staged] := by
  decide

end RegisterWindows
