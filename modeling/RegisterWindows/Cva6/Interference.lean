import RegisterWindows.Cva6.Regfile
import RegisterWindows.Lib.View

namespace RegisterWindows.Cva6
open View

variable {w d : Nat} {A B : BitVec w} {mem mem' : Mem d}

theorem writePort_eq (config : BitVec w) (mem : Mem d) (port : WritePort d) :
    writePort config mem port = if port.we then
      write (windowTranslation config) mem port.waddr port.wdata else mem := by
  unfold writePort View.write
  split
  · cases windowTranslation config port.waddr <;> rfl
  · rfl

theorem rdata_eq (z : Bool) (config : BitVec w) (mem : Mem d) (r : Reg) :
    rdata z config mem r =
      if z ∧ r = 0 then 0 else read (windowTranslation config) 0 mem r := by
  unfold rdata View.read
  split
  · rfl
  · cases windowTranslation config r <;> rfl

/-- The cells `base` to `base + size - 1` that the file has. -/
def InFile (config : BitVec w) (p : PhysReg) : Prop :=
  (decode config).base ≤ p.val ∧ p.val < (decode config).base + (decode config).size

/-- No cell of the file is in both ranges. -/
def FileDisjoint (A B : BitVec w) : Prop := ∀ p, InFile A p → ¬ InFile B p

instance (config : BitVec w) : DecidablePred (InFile config) :=
  fun _ => inferInstanceAs (Decidable (_ ∧ _))

instance (A B : BitVec w) : Decidable (FileDisjoint A B) :=
  inferInstanceAs (Decidable (∀ _ : PhysReg, _ → ¬ _))

theorem InFile.of_reaches {config : BitVec w} {p : PhysReg}
    (h : Reaches (windowTranslation config) p) : InFile config p := by
  obtain ⟨r, hr⟩ := h
  obtain ⟨hs, hp⟩ := Window.phys_some hr
  unfold InFile
  omega

theorem reaches_zero {config : BitVec w} {r : Reg}
    (h : windowTranslation config r = some 0) : r = 0 := by
  have hval := (Window.phys_some h).2
  simp only [Fin.val_zero] at hval
  exact Fin.ext (by simp only [Fin.val_zero]; omega)

/-- A clock edge leaves the cells outside the active window alone, but for the cleared word. -/
theorem registerWriteBehavioral_outside (z : Bool) {p : PhysReg}
    (hp : ¬ Reaches (windowTranslation A) p) (h0 : z = true → p ≠ 0)
    (ports : List (WritePort d)) : registerWriteBehavioral z A mem ports p = mem p := by
  unfold registerWriteBehavioral
  induction ports generalizing mem with
  | nil => rfl
  | cons port ports ih =>
    refine Eq.trans ih ?_
    have hport : writePort A mem port p = mem p := by
      rw [writePort_eq]
      split
      · exact write_of_not_reaches hp _ _ _
      · rfl
    cases z with
    | false => exact hport
    | true => exact (Function.update_of_ne (h0 rfl) _ _).trans hport

theorem registerWriteBehavioral_agree (z : Bool) (h : Agree (windowTranslation A) mem mem')
    (ports : List (WritePort d)) :
    Agree (windowTranslation A) (registerWriteBehavioral z A mem ports)
      (registerWriteBehavioral z A mem' ports) := by
  unfold registerWriteBehavioral
  induction ports generalizing mem mem' with
  | nil => exact h
  | cons port ports ih =>
    apply ih
    have hport : Agree (windowTranslation A) (writePort A mem port) (writePort A mem' port) := by
      simp only [writePort_eq]
      split
      · exact h.write _ _
      · exact h
    cases z with
    | false => exact hport
    | true => exact hport.update 0 0

/-- A run of clock cycles in which the configuration does not change. -/
def runCycles (z : Bool) (config : BitVec w) (mem : Mem d) (cycles : List (List (WritePort d))) :
    Mem d :=
  cycles.foldl (registerWriteBehavioral z config) mem

theorem runCycles_outside (z : Bool) {p : PhysReg} (hp : ¬ Reaches (windowTranslation A) p)
    (h0 : z = true → p ≠ 0) (cycles : List (List (WritePort d))) :
    runCycles z A mem cycles p = mem p := by
  unfold runCycles
  induction cycles generalizing mem with
  | nil => rfl
  | cons ports cycles ih => exact ih.trans (registerWriteBehavioral_outside z hp h0 ports)

theorem runCycles_agree (z : Bool) (h : Agree (windowTranslation A) mem mem')
    (cycles : List (List (WritePort d))) :
    Agree (windowTranslation A) (runCycles z A mem cycles) (runCycles z A mem' cycles) := by
  unfold runCycles
  induction cycles generalizing mem mem' with
  | nil => exact h
  | cons ports cycles ih => exact ih (registerWriteBehavioral_agree z h ports)

theorem rdata_congr (z : Bool) (h : Agree (windowTranslation A) mem mem') (r : Reg) :
    rdata z A mem r = rdata z A mem' r := by
  simp only [rdata_eq]
  split
  · rfl
  · exact h.read 0 r

/-- What runs under `A` is not seen through `B`. -/
theorem rdata_disjoint (z : Bool) (hd : FileDisjoint A B) (mem : Mem d)
    (cycles : List (List (WritePort d))) (r : Reg) :
    rdata z B (runCycles z A mem cycles) r = rdata z B mem r := by
  simp only [rdata_eq]
  split
  · rfl
  · rename_i hr
    unfold View.read
    cases hp : windowTranslation B r with
    | none => rfl
    | some p =>
      apply runCycles_outside
      · exact fun hA => hd p (.of_reaches hA) (.of_reaches ⟨r, hp⟩)
      · rintro hz rfl
        exact hr ⟨hz, reaches_zero hp⟩

/-- Two windows without a common cell: whatever is committed under the one, the other reads what
it read before, and the one reads nothing of what lies outside it. -/
theorem disjoint_noninterference (z : Bool) (hd : FileDisjoint A B)
    (cycles : List (List (WritePort d))) :
    (∀ mem r, rdata z B (runCycles z A mem cycles) r = rdata z B mem r) ∧
    ∀ mem mem', (∀ p, InFile A p → mem p = mem' p) → ∀ r,
      rdata z A (runCycles z A mem cycles) r = rdata z A (runCycles z A mem' cycles) r := by
  constructor
  · intro mem r
    exact rdata_disjoint z hd mem cycles r
  · intro mem mem' hsame r
    have hagree : Agree (windowTranslation A) mem mem' := fun p hp => hsame p (.of_reaches hp)
    exact rdata_congr z (runCycles_agree z hagree cycles) r

/-- The windows of cells 32 to 47 and 48 to 63, and one write of 7 to `x1` of the first. -/
theorem halves_noninterference :
    (∀ (mem : Mem 32) r, rdata true (0x00100030 : BitVec 32)
        (runCycles true (0x00100020 : BitVec 32) mem [[⟨true, 1, 7⟩]]) r =
      rdata true (0x00100030 : BitVec 32) mem r) ∧
    ∀ mem mem' : Mem 32, (∀ p, InFile (0x00100020 : BitVec 32) p → mem p = mem' p) → ∀ r,
      rdata true (0x00100020 : BitVec 32) (runCycles true (0x00100020 : BitVec 32) mem
          [[⟨true, 1, 7⟩]]) r =
        rdata true (0x00100020 : BitVec 32) (runCycles true (0x00100020 : BitVec 32) mem'
          [[⟨true, 1, 7⟩]]) r :=
  disjoint_noninterference true (by decide) [[⟨true, 1, 7⟩]]

end RegisterWindows.Cva6
