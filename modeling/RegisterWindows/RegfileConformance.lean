import Mathlib.Data.BitVec
import RegisterWindows.Cva6.Hart
import RegisterWindows.Cva6.ZeroWrites
import RegisterWindows.Spike.RegfileT
import RegisterWindows.Trace

namespace RegisterWindows
open Cva6 Spike

variable {w d : Nat}

namespace Spike

/-- One retired write of the integer file. -/
def retire (f : RegfileT (BitVec d) NXPR true) (port : WritePort d) :
    RegfileT (BitVec d) NXPR true :=
  if port.we then f.write (index port.waddr) port.wdata else f

/-- The windows, the reads and, one after the other, the writes of a CVA6 clock edge. -/
def RegfileT.execFile (f : RegfileT (BitVec d) NXPR true) :
    FileOp w d → RegfileT (BitVec d) NXPR true
  | .switch config =>
    f.setWindowConfig ((config.extractLsb' 0 16).setWidth 64)
      ((config.extractLsb' 16 16).setWidth 64)
  | .commit ports => ports.foldl retire f
  | .read _ => f

def RegfileT.outputFile (f : RegfileT (BitVec d) NXPR true) : FileOp w d → Option (BitVec d)
  | .read raddr => some (f.read (index raddr))
  | _ => none

def RegfileT.outputsFile (ops : List (FileOp w d)) : List (Option (BitVec d)) :=
  Observe.observe execFile outputFile reset ops

end Spike

/-- The two files, with the window of the one in terms of the other's, and the same words but for
the cells in `stale`. -/
structure Mirrors (stale : PhysReg → Prop) (h : Ff w d) (q : Partition (BitVec d) NXPR true) :
    Prop where
  reach : ∀ r ≠ 0, q.cell (index r) = (windowTranslation h.config r).map cellIndex
  cells : ∀ p, ¬ stale p → h.mem p = q.cells (cellIndex p)

namespace Mirrors
variable {stale : PhysReg → Prop} {h : Ff w d} {q : Partition (BitVec d) NXPR true}

theorem cell_zero (q : Partition (BitVec d) NXPR true) : q.cell (index 0) = none :=
  if_pos ⟨rfl, rfl⟩

theorem reach_of {q : Partition (BitVec d) NXPR true} {config : BitVec w}
    (hbase : q.base.toNat = (decode config).base)
    (hsize : min q.size.toNat 32 = min (decode config).size 32) {r : Reg} (hr : r ≠ 0) :
    q.cell (index r) = (windowTranslation config r).map cellIndex := by
  have hlt := r.isLt
  have hN : NXPR.toNat = 64 := rfl
  have hi := index_toNat r
  have h0 : index r ≠ 0 := by
    intro h0
    refine hr (Fin.ext ?_)
    rw [← hi, h0]
    rfl
  unfold Partition.cell windowTranslation Window.phys
  rw [if_neg (fun h => h0 h.2)]
  by_cases hin : r.val < (decode config).size ∧ (decode config).base + r.val < 64
  · rw [if_pos (by omega), dif_pos hin]
    simp only [Option.map_some, Option.some.injEq]
    apply BitVec.eq_of_toNat_eq
    rw [cellIndex_toNat, BitVec.toNat_add, hi, hbase]
    simp only
    omega
  · rw [if_neg (by omega), dif_neg hin]
    rfl

theorem read (hm : Mirrors stale h q) {r : Reg}
    (hs : ∀ p, windowTranslation h.config r = some p → r = 0 ∨ ¬ stale p) :
    rdata true h.config h.mem r = View.read q.cell 0 q.cells (index r) := by
  unfold View.read
  by_cases hr : r = 0
  · subst hr
    simp [rdata, cell_zero]
  · rw [hm.reach r hr]
    simp only [rdata, hr, and_false, if_false]
    cases hp : windowTranslation h.config r with
    | none => rfl
    | some p => exact hm.cells p ((hs p hp).resolve_left hr)

theorem port (hm : Mirrors stale h q) (h0 : stale 0)
    (hs : ∀ p, windowTranslation h.config 0 = some p → stale p) (port : WritePort d) :
    Mirrors stale { h with mem := Function.update (writePort h.config h.mem port) 0 0 }
      (if port.we then q.exec (.write (index port.waddr) port.wdata) else q) where
  reach r hr := by
    rw [← hm.reach r hr]
    cases port.we <;> rfl
  cells p hp := by
    have hp0 : p ≠ 0 := fun he => hp (he ▸ h0)
    refine (Function.update_of_ne hp0 _ _).trans ?_
    rw [writePort_eq]
    cases port.we with
    | false => exact hm.cells p hp
    | true =>
      simp only [if_true, Partition.exec, View.write]
      by_cases hx : port.waddr = 0
      · rw [hx, cell_zero]
        cases hq : windowTranslation h.config 0 with
        | none => exact hm.cells p hp
        | some c =>
          refine (Function.update_of_ne ?_ _ _).trans (hm.cells p hp)
          intro he
          subst he
          exact hp (hs p hq)
      · rw [hm.reach _ hx]
        cases windowTranslation h.config port.waddr with
        | none => exact hm.cells p hp
        | some c =>
          simp only [Option.map_some, Option.elim_some]
          by_cases hpc : p = c
          · subst hpc
            simp
          · rw [Function.update_of_ne hpc, Function.update_of_ne (fun he => hpc (cellIndex_inj he))]
            exact hm.cells p hp

/-- The writes of one clock edge, in program order on the one side and by priority on the other. -/
theorem commit (hm : Mirrors stale h q) {f : RegfileT (BitVec d) NXPR true} (hi : Implements q f)
    (h0 : stale 0) (hs : ∀ p, windowTranslation h.config 0 = some p → stale p)
    (ports : List (WritePort d)) :
    ∃ q', Implements q' (ports.foldl retire f) ∧ Mirrors stale (h.exec (.commit ports)) q' := by
  unfold Ff.exec registerWriteBehavioral
  induction ports generalizing h q f with
  | nil => exact ⟨q, hi, hm⟩
  | cons port ports ih =>
    have hport := hm.port h0 hs port
    refine ih hport ?_ hs
    unfold retire
    split
    · exact hi.write _ _
    · exact hi

theorem switch (hm : Mirrors stale h q) {f : RegfileT (BitVec d) NXPR true} (hi : Implements q f)
    {config : BitVec w} (hfit : (decode config).Fits) :
    ∃ q', Implements q' (f.execFile (.switch config)) ∧
      Mirrors stale (h.exec (.switch config)) q' := by
  have hbase : ((config.extractLsb' 0 16).setWidth 64 : SizeT).toNat = (decode config).base := by
    have := (config.extractLsb' 0 16).isLt
    rw [BitVec.toNat_setWidth, Nat.mod_eq_of_lt (by omega)]
    rfl
  have hsize : ((config.extractLsb' 16 16).setWidth 64 : SizeT).toNat = (decode config).size := by
    have := (config.extractLsb' 16 16).isLt
    rw [BitVec.toNat_setWidth, Nat.mod_eq_of_lt (by omega)]
    rfl
  have hpos := hfit.size_pos
  have hin := hfit.inside
  have hclamp : Clamps NXPR ((config.extractLsb' 0 16).setWidth 64)
      ((config.extractLsb' 16 16).setWidth 64) := by
    left
    rw [BitVec.lt_def, hbase, hsize]
    have : NXPR.toNat = 64 := rfl
    omega
  refine ⟨_, hi.setWindowConfig hclamp, fun r hr => ?_, hm.cells⟩
  exact reach_of hbase (congrArg (min · 32) hsize) hr

end Mirrors

/-- The cells that are `x0` of a window in `S`, and cell 0. -/
def ZeroCell (S : Set Window) (p : PhysReg) : Prop := p = 0 ∨ ∃ win ∈ S, p.val = win.base

/-- Of a set of windows, any two are equal or have no cell in common. -/
def PairwiseDisjoint (S : Set Window) : Prop := ∀ a ∈ S, ∀ b ∈ S, a = b ∨ a.Disjoint b

theorem not_zeroCell {S : Set Window} (hfit : ∀ win ∈ S, win.Fits) (hdis : PairwiseDisjoint S)
    {win : Window} (hw : win ∈ S) {r : Reg} {p : PhysReg} (hr : r ≠ 0) (hp : win.phys r = some p) :
    ¬ ZeroCell S p := by
  obtain ⟨hlt, hval⟩ := Window.phys_some hp
  have hpos : 0 < r.val := Fin.pos_iff_ne_zero.mpr hr
  rintro (rfl | ⟨win', hw', hbase⟩)
  · simp only [Fin.val_zero] at hval
    omega
  · have hsize := (hfit win' hw').size_pos
    rcases hdis win hw win' hw' with rfl | hd | hd <;> omega

/-- The files after some operations: in the window of reset they agree, and in a window of `S`
but for the cells that are `x0` there. -/
def Alike (S : Set Window) (h : Ff w d) (f : RegfileT (BitVec d) NXPR true) : Prop :=
  ∃ q, Implements q f ∧
    ((Mirrors (· = 0) h q ∧ decode h.config = Window.kernel) ∨
      (Mirrors (ZeroCell S) h q ∧ decode h.config ∈ S))

namespace Alike
variable {S : Set Window} {h : Ff w d} {f : RegfileT (BitVec d) NXPR true}

theorem exec (hfit : ∀ win ∈ S, win.Fits) (ha : Alike S h f) (op : FileOp w d)
    (hop : ∀ config, op = .switch config → decode config ∈ S) :
    Alike S (h.exec op) (f.execFile op) := by
  obtain ⟨q, hi, hm⟩ := ha
  cases op with
  | read raddr => exact ⟨q, hi, hm⟩
  | switch config =>
    have hS := hop config rfl
    have hoff : Mirrors (ZeroCell S) h q := by
      rcases hm with ⟨hm, -⟩ | ⟨hm, -⟩
      · exact ⟨hm.reach, fun p hp => hm.cells p fun h0 => hp (Or.inl h0)⟩
      · exact hm
    obtain ⟨q', hi', hm'⟩ := hoff.switch hi (hfit _ hS)
    exact ⟨q', hi', Or.inr ⟨hm', hS⟩⟩
  | commit ports =>
    rcases hm with ⟨hm, hk⟩ | ⟨hm, hS⟩
    · obtain ⟨q', hi', hm'⟩ := hm.commit hi rfl (fun p hp => by
        rw [windowTranslation, hk, Window.phys_kernel] at hp
        exact (Option.some.inj hp).symm) ports
      exact ⟨q', hi', Or.inl ⟨hm', hk⟩⟩
    · obtain ⟨q', hi', hm'⟩ := hm.commit hi (Or.inl rfl) (fun p hp =>
        Or.inr ⟨_, hS, (Window.phys_some hp).2⟩) ports
      exact ⟨q', hi', Or.inr ⟨hm', hS⟩⟩

theorem output (hfit : ∀ win ∈ S, win.Fits) (hdis : PairwiseDisjoint S) (ha : Alike S h f)
    (op : FileOp w d) : h.output op = f.outputFile op := by
  cases op with
  | switch config | commit ports => rfl
  | read raddr =>
    obtain ⟨q, hi, hm⟩ := ha
    refine congrArg some (Eq.trans ?_ (hi.read (fun hz => absurd hz (by decide))).symm)
    rcases hm with ⟨hm, -⟩ | ⟨hm, hS⟩
    · refine hm.read fun p hp => ?_
      by_cases hr : raddr = 0
      · exact Or.inl hr
      · exact Or.inr fun h0 => hr (reaches_zero (h0 ▸ hp))
    · refine hm.read fun p hp => ?_
      by_cases hr : raddr = 0
      · exact Or.inl hr
      · exact Or.inr (not_zeroCell hfit hdis hS hr hp)

end Alike

/-- CVA6 and Spike read the same, over every run from reset in which the windows come from one
set of windows that fit and are equal or disjoint. -/
theorem outputs_eq (hw : w = 32 ∨ w = 64) (S : Set Window) (hfit : ∀ win ∈ S, win.Fits)
    (hdis : PairwiseDisjoint S) (ops : List (FileOp w d))
    (hops : ∀ config, .switch config ∈ ops → decode config ∈ S) :
    Ff.outputs ops = RegfileT.outputsFile ops := by
  have hreset : Alike S (Ff.reset : Ff w d) RegfileT.reset := by
    refine ⟨_, Implements.reset, Or.inl ⟨⟨fun r hr => ?_, fun _ _ => rfl⟩, decode_default hw⟩⟩
    have hk : decode (Ff.reset : Ff w d).config = Window.kernel := decode_default hw
    exact Mirrors.reach_of (by rw [hk]; rfl) (by rw [hk]; rfl) hr
  have halong : Runs.Along (fun (g : Unit) (_ : FileOp w d) => some g)
      (fun _ op => ∀ config, op = .switch config → decode config ∈ S) () ops :=
    Runs.along_of_mem fun op hop config he => hops config (by rwa [he] at hop)
  exact Observe.observe_eq (R := fun _ => Alike S)
    (fun _ _ _ op ha hop => ha.exec hfit op hop) (fun _ _ _ op ha _ => ha.output hfit hdis op)
    hreset halong

/-- A batch that writes `x0` and one register twice, and a write outside the window. -/
def batches : List (FileOp 32 32) :=
  [.commit [⟨true, 5, 3⟩], .switch 0x00100020, .commit [⟨true, 0, 7⟩, ⟨true, 5, 8⟩, ⟨true, 5, 9⟩],
    .commit [⟨true, 20, 4⟩], .switch 0x00100030, .commit [⟨false, 6, 2⟩, ⟨true, 5, 6⟩],
    .switch 0x00100020, .read 5, .read 0, .read 20]

theorem batches_outputs_eq : Ff.outputs batches = RegfileT.outputsFile batches := by
  apply outputs_eq (Or.inl rfl) {⟨32, 16⟩, ⟨48, 16⟩}
  · rintro win (rfl | rfl) <;> decide
  · rintro a (rfl | rfl) b (rfl | rfl) <;> simp [Window.Disjoint]
  · intro config hc
    simp only [batches, List.mem_cons, FileOp.switch.injEq, reduceCtorEq, List.not_mem_nil,
      false_or, or_false] at hc
    rcases hc with rfl | rfl | rfl
    · exact Or.inl (by decide)
    · exact Or.inr (by decide : decode (0x00100030 : BitVec 32) = ⟨48, 16⟩)
    · exact Or.inl (by decide)

end RegisterWindows
