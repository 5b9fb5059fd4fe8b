import Mathlib.Data.BitVec
import RegisterWindows.Lib.Observe
import RegisterWindows.Lib.View
import RegisterWindows.Spike.Regfile

namespace RegisterWindows.Spike

/-- `regfile_t`. `data` has the words 0 .. `N` - 1. -/
structure RegfileT (T : Type*) (N : SizeT) (zero_reg : Bool) where
  data : SizeT → T
  base_offset : SizeT
  window_size : SizeT

/-- What is done to a register file. -/
inductive RegfileOp (T : Type*) where
  | reset
  | setWindowConfig (base size : SizeT)
  | write (i : SizeT) (value : T)
  | read (i : SizeT)

variable {T : Type*} {N : SizeT} {zero_reg : Bool}

namespace RegfileT

def setWindowConfig (f : RegfileT T N zero_reg) (base size : SizeT) : RegfileT T N zero_reg where
  data := f.data
  base_offset := if base < N then base else f.base_offset
  window_size := if base + size > N then N - base else size

def write (f : RegfileT T N zero_reg) (i : SizeT) (value : T) : RegfileT T N zero_reg :=
  if zero_reg ∧ i = 0 then f
  else if i ≥ f.window_size then f
  else if i + f.base_offset < N then
    { f with data := Function.update f.data (i + f.base_offset) value }
  else f

/-- `operator []`. -/
def read (f : RegfileT T N zero_reg) (i : SizeT) : T :=
  if zero_reg ∧ i = 0 then f.data 0
  else if i ≥ f.window_size then f.data 0
  else if i + f.base_offset ≥ N then f.data 0
  else f.data (i + f.base_offset)

def reset [Zero T] : RegfileT T N zero_reg := ⟨fun _ => 0, 0, N⟩

def exec [Zero T] (f : RegfileT T N zero_reg) : RegfileOp T → RegfileT T N zero_reg
  | .reset => reset
  | .setWindowConfig base size => f.setWindowConfig base size
  | .write i value => f.write i value
  | .read _ => f

def output (f : RegfileT T N zero_reg) : RegfileOp T → Option T
  | .read i => some (f.read i)
  | _ => none

/-- The word that an index reaches. -/
def cell (f : RegfileT T N zero_reg) (i : SizeT) : Option SizeT :=
  if zero_reg ∧ i = 0 then none
  else if i < f.window_size ∧ i + f.base_offset < N then some (i + f.base_offset) else none

theorem write_eq (f : RegfileT T N zero_reg) (i : SizeT) (value : T) :
    f.write i value = { f with data := View.write f.cell f.data i value } := by
  unfold write View.write cell
  split
  · rfl
  · by_cases hs : i < f.window_size
    · by_cases hn : i + f.base_offset < N <;> simp [hs, hn, BitVec.not_le.mpr hs]
    · simp [hs, BitVec.not_lt.mp hs]

theorem read_eq (f : RegfileT T N zero_reg) (i : SizeT) :
    f.read i = View.read f.cell (f.data 0) f.data i := by
  unfold read View.read cell
  split
  · rfl
  · by_cases hs : i < f.window_size
    · by_cases hn : i + f.base_offset < N
      · simp [hs, hn, BitVec.not_le.mpr hs, BitVec.not_le.mpr hn]
      · simp [hs, hn, BitVec.not_le.mpr hs, BitVec.not_lt.mp hn]
    · simp [hs, BitVec.not_lt.mp hs]

end RegfileT

/-- The words of the file with the window that was asked for last. -/
structure Partition (T : Type*) (N : SizeT) (zero_reg : Bool) where
  cells : SizeT → T
  base : SizeT
  size : SizeT

namespace Partition

/-- `base` is below, and the end of the window and the end of the file are above. `x0` of an
integer file has no word. -/
def cell (q : Partition T N zero_reg) (i : SizeT) : Option SizeT :=
  if zero_reg ∧ i = 0 then none
  else if q.base.toNat + i.toNat < min (q.base.toNat + q.size.toNat) N.toNat then some (q.base + i)
  else none

def reset [Zero T] : Partition T N zero_reg := ⟨fun _ => 0, 0, N⟩

def exec [Zero T] (q : Partition T N zero_reg) : RegfileOp T → Partition T N zero_reg
  | .reset => reset
  | .setWindowConfig base size => { q with base := base, size := size }
  | .write i value => { q with cells := View.write q.cell q.cells i value }
  | .read _ => q

/-- An index outside the window reads as 0. -/
def output [Zero T] (q : Partition T N zero_reg) : RegfileOp T → Option T
  | .read i => some (View.read q.cell 0 q.cells i)
  | _ => none

theorem cell_some {q : Partition T N zero_reg} {i p : SizeT} (h : q.cell i = some p) :
    p.toNat = q.base.toNat + i.toNat ∧ p.toNat < min (q.base.toNat + q.size.toNat) N.toNat ∧
      ¬ (zero_reg = true ∧ i = 0) := by
  unfold cell at h
  split at h
  · cases h
  · rename_i hz
    split at h
    · rename_i hlt
      cases h
      have hN := N.isLt
      rw [BitVec.toNat_add]
      refine ⟨by omega, by omega, hz⟩
    · cases h

theorem reaches_iff (q : Partition T N zero_reg) (p : SizeT) :
    View.Reaches q.cell p ↔ q.base.toNat ≤ p.toNat ∧
      p.toNat < min (q.base.toNat + q.size.toNat) N.toNat ∧ ¬ (zero_reg = true ∧ p = q.base) := by
  constructor
  · rintro ⟨i, hi⟩
    obtain ⟨hp, hlt, hz⟩ := cell_some hi
    refine ⟨by omega, hlt, fun ⟨hzr, hb⟩ => hz ⟨hzr, ?_⟩⟩
    subst hb
    apply BitVec.eq_of_toNat_eq
    change i.toNat = 0
    omega
  · rintro ⟨hle, hlt, hz⟩
    have hsub : (p - q.base).toNat = p.toNat - q.base.toNat := BitVec.toNat_sub_of_le hle
    have hsum : q.base + (p - q.base) = p := by
      rw [BitVec.add_comm, BitVec.sub_add_cancel]
    refine ⟨p - q.base, ?_⟩
    unfold cell
    rw [if_neg, if_pos (by omega), hsum]
    rintro ⟨hzr, h0⟩
    refine hz ⟨hzr, ?_⟩
    rw [h0] at hsum
    simpa using hsum.symm

end Partition

/-- The clamp of `set_window_config` wraps for no window that begins in the file and ends in the
address space, and at the end of the file it leaves nothing. -/
def Clamps (N base size : SizeT) : Prop :=
  (base < N ∧ base.toNat + size.toNat ≤ 2 ^ 64) ∨ (base = N ∧ base.toNat + size.toNat < 2 ^ 64)

instance (N base size : SizeT) : Decidable (Clamps N base size) :=
  inferInstanceAs (Decidable (_ ∨ _))

theorem Clamps.reach_iff {base size : SizeT} (h : Clamps N base size) (i old : SizeT) :
    (i < (if base + size > N then N - base else size) ∧ i + (if base < N then base else old) < N) ↔
      base.toNat + i.toNat < min (base.toNat + size.toNat) N.toNat := by
  have hN := N.isLt
  have hi := i.isLt
  have hsize := size.isLt
  rcases h with ⟨hb, hfit⟩ | ⟨rfl, hfit⟩
  · have hsub : (N - base).toNat = N.toNat - base.toNat :=
      BitVec.toNat_sub_of_le (BitVec.le_of_lt hb)
    simp only [hb, if_true, gt_iff_lt, BitVec.lt_def, BitVec.toNat_add] at *
    split <;> omega
  · have hlt : ¬ base < base := BitVec.lt_irrefl base
    simp only [hlt, if_false, gt_iff_lt, BitVec.lt_def, BitVec.toNat_add] at *
    split
    · simp
    · omega

/-- What an operation needs: a window that is clamped, and for a read outside the window of a
file without `x0` a word 0 that holds 0. -/
def Partition.Sound [Zero T] (q : Partition T N zero_reg) : RegfileOp T → Prop
  | .setWindowConfig base size => Clamps N base size
  | .read i => zero_reg = false → q.cell i = none → q.cells 0 = 0
  | _ => True

instance [Zero T] [DecidableEq T] (q : Partition T N zero_reg) : DecidablePred q.Sound
  | .setWindowConfig base size => inferInstanceAs (Decidable (Clamps N base size))
  | .read _ => inferInstanceAs (Decidable (_ → _ → _))
  | .reset => isTrue trivial
  | .write .. => isTrue trivial

/-- The file holds the words of the partition and reaches the same of them. -/
structure Implements [Zero T] (q : Partition T N zero_reg) (f : RegfileT T N zero_reg) : Prop where
  data : f.data = q.cells
  cell : ∀ i, f.cell i = q.cell i
  zero : zero_reg = true → q.cells 0 = 0

namespace Implements
variable [Zero T] {q : Partition T N zero_reg} {f : RegfileT T N zero_reg}

theorem reset : Implements (Partition.reset : Partition T N zero_reg) RegfileT.reset where
  data := rfl
  cell i := by
    have hadd : i + 0 = i := BitVec.add_zero i
    have hadd' : 0 + i = i := BitVec.zero_add i
    have h0 : (0 : SizeT).toNat = 0 := rfl
    simp only [RegfileT.cell, RegfileT.reset, Partition.cell, Partition.reset, BitVec.lt_def, h0,
      hadd, hadd', Nat.zero_add, Nat.min_self, and_self]
  zero _ := rfl

theorem setWindowConfig (h : Implements q f) {base size : SizeT} (hc : Clamps N base size) :
    Implements { q with base := base, size := size } (f.setWindowConfig base size) where
  data := h.data
  cell i := by
    unfold RegfileT.cell Partition.cell RegfileT.setWindowConfig
    split
    · rfl
    · by_cases hin : base.toNat + i.toNat < min (base.toNat + size.toNat) N.toNat
      · have hb : base < N := by
          rw [BitVec.lt_def]
          omega
        have hreach := (hc.reach_iff i f.base_offset).mpr hin
        simp only [hb, if_true] at hreach ⊢
        rw [if_pos hreach, if_pos hin, BitVec.add_comm]
      · rw [if_neg (fun hr => hin ((hc.reach_iff i f.base_offset).mp hr)), if_neg hin]
  zero := h.zero

theorem read (h : Implements q f) {i : SizeT} (hs : q.Sound (.read i)) :
    f.read i = View.read q.cell 0 q.cells i := by
  rw [RegfileT.read_eq, h.data]
  unfold View.read
  rw [h.cell]
  cases hq : q.cell i with
  | some p => rfl
  | none =>
    by_cases hz : zero_reg = true
    · exact h.zero hz
    · exact hs (Bool.eq_false_iff.mpr hz) hq

theorem write (h : Implements q f) (i : SizeT) (value : T) :
    Implements { q with cells := View.write q.cell q.cells i value } (f.write i value) := by
  have hcell : f.cell = q.cell := funext h.cell
  rw [RegfileT.write_eq, hcell, h.data]
  refine ⟨rfl, h.cell, fun hz => ?_⟩
  unfold View.write
  cases hq : q.cell i with
  | none => exact h.zero hz
  | some p =>
    obtain ⟨hp, -, hi⟩ := Partition.cell_some hq
    refine (Function.update_of_ne ?_ _ _).trans (h.zero hz)
    intro h0
    subst h0
    refine hi ⟨hz, BitVec.eq_of_toNat_eq ?_⟩
    change i.toNat = 0
    have : (0 : SizeT).toNat = 0 := rfl
    omega

theorem exec (h : Implements q f) {op : RegfileOp T} (hs : q.Sound op) :
    Implements (q.exec op) (f.exec op) := by
  cases op with
  | reset => exact .reset
  | setWindowConfig base size => exact h.setWindowConfig hs
  | write i value => exact h.write i value
  | read i => exact h

theorem output (h : Implements q f) {op : RegfileOp T} (hs : q.Sound op) :
    f.output op = q.output op := by
  cases op with
  | read i => exact congrArg some (h.read hs)
  | reset | setWindowConfig | write => rfl

end Implements

/-- `size_t` arguments for a register name and for a cell. -/
def index (r : Reg) : SizeT := BitVec.ofNat 64 r.val

def cellIndex (p : PhysReg) : SizeT := BitVec.ofNat 64 p.val

theorem index_toNat (r : Reg) : (index r).toNat = r.val := by
  have := r.isLt
  rw [index, BitVec.toNat_ofNat]
  omega

theorem cellIndex_toNat (p : PhysReg) : (cellIndex p).toNat = p.val := by
  have := p.isLt
  rw [cellIndex, BitVec.toNat_ofNat]
  omega

theorem cellIndex_inj {p q : PhysReg} (h : cellIndex p = cellIndex q) : p = q := by
  have hv := congrArg BitVec.toNat h
  rw [cellIndex_toNat, cellIndex_toNat] at hv
  exact Fin.ext hv

theorem cellIndex_mk (p : SizeT) (h : p < NXPR) : cellIndex ⟨p.toNat, h⟩ = p := by
  apply BitVec.eq_of_toNat_eq
  rw [cellIndex_toNat]

/-- The same file, its invariants forgotten. -/
def Regfile.toRegfileT (f : Regfile) : RegfileT Word NXPR true where
  data p := if h : p < NXPR then f.data ⟨p.toNat, h⟩ else 0
  base_offset := f.base_offset
  window_size := f.window_size

theorem Regfile.toRegfileT_reset : Regfile.reset.toRegfileT = RegfileT.reset := by
  simp [toRegfileT, reset, RegfileT.reset]

theorem Regfile.toRegfileT_setWindowConfig (f : Regfile) (base size : SizeT) :
    (f.setWindowConfig base size).toRegfileT = f.toRegfileT.setWindowConfig base size := rfl

theorem index_eq_zero : ∀ r : Reg, index r = 0 ↔ r = 0 := by decide

theorem Regfile.toRegfileT_cell (f : Regfile) (i : Reg) :
    f.toRegfileT.cell (index i) = if i = 0 then none else (f.physicalIndex i).map cellIndex := by
  have hphys : f.physicalIndex i = if index i ≥ f.window_size then none
      else if h : index i + f.base_offset < NXPR then some ⟨(index i + f.base_offset).toNat, h⟩
      else none := rfl
  unfold RegfileT.cell
  rw [hphys]
  simp only [index_eq_zero, true_and, toRegfileT]
  split
  · rfl
  · by_cases hs : index i < f.window_size
    · by_cases hp : index i + f.base_offset < NXPR
      · simp only [hs, hp, and_self, if_true, ge_iff_le, BitVec.not_le.mpr hs, if_false, dif_pos,
          Option.map_some, cellIndex_mk]
      · simp [hs, hp, BitVec.not_le.mpr hs]
    · simp [hs, BitVec.not_lt.mp hs]

theorem Regfile.toRegfileT_data (f : Regfile) (p : PhysReg) :
    f.toRegfileT.data (cellIndex p) = f.data p := by
  have hp := cellIndex_toNat p
  have hlt : cellIndex p < NXPR := by
    rw [BitVec.lt_def, hp]
    exact p.isLt
  simp only [toRegfileT, hlt, dif_pos, hp]

theorem Regfile.toRegfileT_read (f : Regfile) (i : Reg) :
    f.toRegfileT.read (index i) = f.read i := by
  have h0 : f.toRegfileT.data 0 = f.data 0 := f.toRegfileT_data 0
  rw [RegfileT.read_eq, View.read, toRegfileT_cell, read, h0]
  split
  · rfl
  · cases f.physicalIndex i with
    | none => rfl
    | some p => exact f.toRegfileT_data p

theorem Regfile.toRegfileT_setData (f : Regfile) (p : PhysReg) (value : Word) (hp : p ≠ 0) :
    (f.setData p value hp).toRegfileT.data =
      Function.update f.toRegfileT.data (cellIndex p) value := by
  funext q
  by_cases hqp : q = cellIndex p
  · subst hqp
    rw [toRegfileT_data, Function.update_self]
    exact Function.update_self _ _ _
  · rw [Function.update_of_ne hqp]
    simp only [toRegfileT, setData]
    split
    · refine Function.update_of_ne (fun he => hqp ?_) _ _
      rw [← he, cellIndex_mk]
    · rfl

theorem Regfile.toRegfileT_write (f : Regfile) (i : Reg) (value : Word) :
    (f.write i value).toRegfileT = f.toRegfileT.write (index i) value := by
  rw [RegfileT.write_eq, View.write, toRegfileT_cell]
  unfold write
  split
  · rfl
  · split
    · rename_i hq
      simp only [hq, Option.map_some, Option.elim_some, ← toRegfileT_setData _ _ _
        (physicalIndex_ne_zero ‹_› hq)]
      rfl
    · rename_i hq
      simp only [hq, Option.map_none, Option.elim_none]

variable [Zero T]

def RegfileT.run (N : SizeT) (zero_reg : Bool) (ops : List (RegfileOp T)) :
    RegfileT T N zero_reg :=
  ops.foldl exec reset

/-- What the reads of a run return. -/
def RegfileT.outputs (N : SizeT) (zero_reg : Bool) (ops : List (RegfileOp T)) : List (Option T) :=
  Observe.observe exec output (reset : RegfileT T N zero_reg) ops

namespace Partition

def run (N : SizeT) (zero_reg : Bool) (ops : List (RegfileOp T)) : Partition T N zero_reg :=
  ops.foldl exec reset

def outputs (N : SizeT) (zero_reg : Bool) (ops : List (RegfileOp T)) : List (Option T) :=
  Observe.observe exec output (reset : Partition T N zero_reg) ops

def step (q : Partition T N zero_reg) (op : RegfileOp T) : Option (Partition T N zero_reg) :=
  some (q.exec op)

/-- Every operation of the run is sound where it stands. -/
def SoundRun (N : SizeT) (zero_reg : Bool) (ops : List (RegfileOp T)) : Prop :=
  Runs.Along step Sound (reset : Partition T N zero_reg) ops

instance [DecidableEq T] (ops : List (RegfileOp T)) : Decidable (SoundRun N zero_reg ops) :=
  inferInstanceAs (Decidable (Runs.Along _ _ _ _))

end Partition

theorem Implements.run {ops : List (RegfileOp T)} (h : Partition.SoundRun N zero_reg ops) :
    Implements (Partition.run N zero_reg ops) (RegfileT.run N zero_reg ops) :=
  Observe.foldl_refines (R := Implements) (fun _ _ _ hr hs => hr.exec hs) .reset h

/-- Over every run in which each window is clamped and no word 0 is read in place of a 0, the
file is a partition: every read and every word is that of the partition, and the words within
reach are those from the base that was asked for last to the end of the window or of the file. -/
theorem regfile_partition (N : SizeT) (zero_reg : Bool) (ops : List (RegfileOp T))
    (h : Partition.SoundRun N zero_reg ops) :
    let f := RegfileT.run N zero_reg ops
    let q := Partition.run N zero_reg ops
    RegfileT.outputs N zero_reg ops = Partition.outputs N zero_reg ops ∧ f.data = q.cells ∧
      ∀ p, View.Reaches f.cell p ↔ q.base.toNat ≤ p.toNat ∧
        p.toNat < min (q.base.toNat + q.size.toNat) N.toNat ∧
        ¬ (zero_reg = true ∧ p = q.base) := by
  intro f q
  have hi : Implements q f := .run h
  refine ⟨?_, hi.data, fun p => ?_⟩
  · exact Observe.observe_refines (R := Implements) (fun _ _ _ hr hs => hr.exec hs)
      (fun _ _ _ hr hs => hr.output hs) .reset h
  · rw [funext hi.cell]
    exact q.reaches_iff p

/-- The integer file with a window that it cuts, and the floating-point file with a window beside
its first cell, which still holds 0. -/
theorem regfile_partition_cut :
    RegfileT.outputs (T := BitVec 64) 64 true
        [.setWindowConfig 60 32, .write 3 7, .write 4 9, .read 3, .read 4, .read 0] =
      [none, none, none, some 7, some 0, some 0] ∧
    RegfileT.outputs (T := BitVec 64) 32 false
        [.setWindowConfig 8 4, .write 0 7, .write 4 9, .read 0, .read 4] =
      [none, none, none, some 7, some 0] := by
  constructor
  · exact (regfile_partition 64 true _ (by decide)).1.trans (by decide)
  · exact (regfile_partition 32 false _ (by decide)).1.trans (by decide)

/-- `f0` is read in place of a register outside the window. And a base beyond the file is dropped,
but the size then wraps, so that the file stays open. -/
theorem not_partition :
    RegfileT.outputs (T := BitVec 64) 32 false [.setWindowConfig 0 16, .write 0 7, .read 20] ≠
      Partition.outputs 32 false [.setWindowConfig 0 16, .write 0 7, .read 20] ∧
    RegfileT.outputs (T := BitVec 64) 64 true [.setWindowConfig 100 4, .write 5 7, .read 5] ≠
      Partition.outputs 64 true [.setWindowConfig 100 4, .write 5 7, .read 5] := by
  decide

end RegisterWindows.Spike
