import Mathlib.Data.Nat.Log
import RegisterWindows.Cva6.Interference

namespace RegisterWindows.Cva6

variable {w d n : Nat} {config : BitVec w} {p : PhysReg}

/-- `LOG_NR_WRITE_PORTS`. -/
def logNrWritePorts (n : Nat) : Nat := if n = 1 then 1 else Nat.clog 2 n

/-- `we_dec` of one port. -/
def weDec (config : BitVec w) (port : WritePort d) (i : PhysReg) : Bool :=
  match windowTranslation config port.waddr with
  | some p => if p = i then port.we else false
  | none => false

/-- `~phys_waddr != 0`. The operand is extended to the 32 bits of the constant before it is
inverted. -/
def notZero (p : PhysReg) : Bool := ~~~(BitVec.ofNat 32 p.val) != 0

/-- `regfile_ram_block` of one port. -/
def ramWrite (config : BitVec w) (port : WritePort d) (mem : Mem d) : Mem d :=
  match windowTranslation config port.waddr with
  | some p => if port.we && notZero p then Function.update mem p port.wdata else mem
  | none => mem

/-- `ariane_regfile_fpga.sv` without `FpgaAlteraEn`: a RAM for each write port, and for each word
the number of the port that wrote it last. -/
structure Fpga (n d : Nat) where
  mem : Nat → Mem d
  memBlockSel : PhysReg → BitVec (logNrWritePorts n)

/-- The inputs of a register file at a clock edge. -/
structure RegfileCycle (w d : Nat) where
  config : BitVec w
  ports : Nat → WritePort d

namespace Fpga

/-- Reset leaves the RAMs as they are. -/
def reset (n : Nat) (mem : Nat → Mem d) : Fpga n d := ⟨mem, fun _ => 0⟩

/-- `mem_block_sel`: of several ports that write a word the last one has priority. -/
def nextBlockSel (f : Fpga n d) (c : RegfileCycle w d) (i : PhysReg) :
    BitVec (logNrWritePorts n) :=
  (List.range n).foldl
    (fun sel j => if weDec c.config (c.ports j) i then BitVec.ofNat _ j else sel) (f.memBlockSel i)

def clock (f : Fpga n d) (c : RegfileCycle w d) : Fpga n d where
  mem j := if j < n then ramWrite c.config (c.ports j) (f.mem j) else f.mem j
  memBlockSel := f.nextBlockSel c

def run (f : Fpga n d) (cycles : List (RegfileCycle w d)) : Fpga n d := cycles.foldl clock f

/-- `rdata_o` of one port. -/
def rdata (f : Fpga n d) (zeroRegZero : Bool) (config : BitVec w) (raddr : Reg) : BitVec d :=
  if zeroRegZero ∧ raddr = 0 then 0
  else match windowTranslation config raddr with
    | some p => f.mem (f.memBlockSel p).toNat p
    | none => 0

end Fpga

/-- The same clock edge of `ariane_regfile_ff.sv`. -/
def clockFf (n : Nat) (zeroRegZero : Bool) (mem : Mem d) (c : RegfileCycle w d) : Mem d :=
  registerWriteBehavioral zeroRegZero c.config mem ((List.range n).map c.ports)

def runFf (n : Nat) (zeroRegZero : Bool) (mem : Mem d) (cycles : List (RegfileCycle w d)) : Mem d :=
  cycles.foldl (clockFf n zeroRegZero) mem

theorem runFf_concat (n : Nat) (z : Bool) (mem : Mem d) (cycles : List (RegfileCycle w d))
    (c : RegfileCycle w d) :
    runFf n z mem (cycles ++ [c]) = clockFf n z (runFf n z mem cycles) c := List.foldl_append ..

theorem writePort_apply (config : BitVec w) (mem : Mem d) (port : WritePort d) (p : PhysReg) :
    writePort config mem port p = if weDec config port p then port.wdata else mem p := by
  unfold writePort weDec
  cases hq : windowTranslation config port.waddr with
  | none => simp
  | some q =>
    by_cases hqp : q = p
    · subst hqp
      cases port.we <;> simp
    · cases port.we <;> simp [hqp, Function.update_of_ne (Ne.symm hqp)]

/-- The guard of the RAMs excludes no word. -/
theorem notZero_eq : ∀ p : PhysReg, notZero p = true := by decide

theorem ramWrite_apply (config : BitVec w) (mem : Mem d) (port : WritePort d) (p : PhysReg) :
    ramWrite config port mem p = if weDec config port p then port.wdata else mem p := by
  rw [← writePort_apply]
  unfold ramWrite writePort
  cases windowTranslation config port.waddr <;> simp [notZero_eq]

theorem toNat_port {j : Nat} (hj : j < n) : (BitVec.ofNat (logNrWritePorts n) j).toNat = j := by
  have hle : n ≤ 2 ^ logNrWritePorts n := by
    unfold logNrWritePorts
    split
    · omega
    · exact Nat.le_pow_clog (by decide) n
  rw [BitVec.toNat_ofNat]
  exact Nat.mod_eq_of_lt (Nat.lt_of_lt_of_le hj hle)

/-- Some port writes the word. -/
def RegfileCycle.Writes (n : Nat) (c : RegfileCycle w d) (p : PhysReg) : Prop :=
  ∃ j < n, weDec c.config (c.ports j) p = true

theorem clockFf_succ (z : Bool) (mem : Mem d) (c : RegfileCycle w d) (hp : z = true → p ≠ 0)
    (k : Nat) : clockFf (k + 1) z mem c p =
      if weDec c.config (c.ports k) p then (c.ports k).wdata else clockFf k z mem c p := by
  rw [← writePort_apply]
  unfold clockFf registerWriteBehavioral
  rw [List.range_succ, List.map_append, List.foldl_append]
  cases z with
  | false => rfl
  | true => exact Function.update_of_ne (hp rfl) _ _

/-- After the first `k` ports of an edge: the selector is where it was and so is the word, or it
names a port that writes the word, and has written it. -/
theorem ports_prefix (z : Bool) (mem : Mem d) (sel : BitVec (logNrWritePorts n))
    (c : RegfileCycle w d) (hp : z = true → p ≠ 0) (k : Nat) :
    let mem' := clockFf k z mem c
    let sel' := (List.range k).foldl
      (fun sel j =>
        if weDec c.config (c.ports j) p then BitVec.ofNat (logNrWritePorts n) j else sel) sel
    (¬ c.Writes k p ∧ mem' p = mem p ∧ sel' = sel) ∨
      ∃ j < k, weDec c.config (c.ports j) p = true ∧ mem' p = (c.ports j).wdata ∧
        sel' = BitVec.ofNat _ j := by
  induction k with
  | zero =>
    refine Or.inl ⟨?_, rfl, rfl⟩
    rintro ⟨j, hj, -⟩
    exact Nat.not_lt_zero j hj
  | succ k ih =>
    simp only [List.range_succ, List.foldl_append, List.foldl_cons, List.foldl_nil,
      clockFf_succ z mem c hp]
    cases hk : weDec c.config (c.ports k) p with
    | true => exact Or.inr ⟨k, Nat.lt_succ_self k, hk, rfl, rfl⟩
    | false =>
      rcases ih with ⟨hno, hold, hsel⟩ | ⟨j, hj, hw, hnew, hsel⟩
      · refine Or.inl ⟨?_, hold, hsel⟩
        rintro ⟨j, hj, hw⟩
        rcases Nat.lt_succ_iff_lt_or_eq.mp hj with hlt | rfl
        · exact hno ⟨j, hlt, hw⟩
        · simp [hk] at hw
      · exact Or.inr ⟨j, Nat.lt_succ_of_lt hj, hw, hnew, hsel⟩

/-- The RAM that the selector names holds the word. -/
def Fpga.Holds (f : Fpga n d) (mem : Mem d) (p : PhysReg) : Prop :=
  f.mem (f.memBlockSel p).toNat p = mem p

theorem Fpga.mem_clock_of_not_writes {f : Fpga n d} {c : RegfileCycle w d}
    (hno : ¬ c.Writes n p) (j : Nat) : (f.clock c).mem j p = f.mem j p := by
  change (if j < n then ramWrite c.config (c.ports j) (f.mem j) else f.mem j) p = _
  split
  · rename_i hj
    rw [ramWrite_apply]
    exact if_neg fun hw => hno ⟨j, hj, hw⟩
  · rfl

theorem Fpga.holds_clock {f : Fpga n d} {mem : Mem d} (z : Bool) (c : RegfileCycle w d)
    (hp : z = true → p ≠ 0) (h : f.Holds mem p ∨ c.Writes n p) :
    (f.clock c).Holds (clockFf n z mem c) p := by
  unfold Holds
  rcases ports_prefix (n := n) z mem (f.memBlockSel p) c hp n with
    ⟨hno, hold, hsel⟩ | ⟨j, hj, hw, hnew, hsel⟩
  · rcases h with h | h
    · rw [hold, Fpga.mem_clock_of_not_writes hno]
      simp only [clock, nextBlockSel, hsel]
      exact h
    · exact absurd h hno
  · simp only [clock, nextBlockSel, hsel, toNat_port hj, if_pos hj, ramWrite_apply, hw, if_true,
    hnew]

/-- A word that has been written since reset is held. -/
theorem Fpga.holds_run {f : Fpga n d} {mem : Mem d} (z : Bool) (cycles : List (RegfileCycle w d))
    (hp : z = true → p ≠ 0) (h : f.Holds mem p ∨ ∃ c ∈ cycles, c.Writes n p) :
    (f.run cycles).Holds (runFf n z mem cycles) p := by
  unfold Fpga.run runFf
  induction cycles generalizing f mem with
  | nil => simpa using h
  | cons c cycles ih =>
    apply ih
    by_cases hnow : f.Holds mem p ∨ c.Writes n p
    · exact Or.inl (Fpga.holds_clock z c hp hnow)
    · obtain ⟨hno, hno'⟩ := not_or.mp hnow
      obtain ⟨c', hc', hw⟩ := h.resolve_left hno
      rcases List.mem_cons.mp hc' with rfl | htail
      · exact absurd hw hno'
      · exact Or.inr ⟨c', htail, hw⟩

/-- The two register files read alike: `x0`, what lies outside the window, and every word that
has been written since reset. -/
theorem fpga_rdata_eq (n : Nat) (z : Bool) (ram : Nat → Mem d) (cycles : List (RegfileCycle w d))
    (config : BitVec w) (raddr : Reg)
    (h : (z = true ∧ raddr = 0) ∨ windowTranslation config raddr = none ∨
      ∃ p, windowTranslation config raddr = some p ∧ ∃ c ∈ cycles, c.Writes n p) :
    ((Fpga.reset n ram).run cycles).rdata z config raddr =
      rdata z config (runFf n z (fun _ => 0) cycles) raddr := by
  unfold Fpga.rdata rdata
  split
  · rfl
  · rename_i hx0
    cases hp : windowTranslation config raddr with
    | none => rfl
    | some p =>
      have hwritten : ∃ c ∈ cycles, c.Writes n p := by
        rcases h with h | h | ⟨q, hq, h⟩
        · exact absurd h hx0
        · simp [hp] at h
        · rw [hp] at hq
          cases hq
          exact h
      apply Fpga.holds_run z cycles _ (Or.inr hwritten)
      rintro hz rfl
      exact hx0 ⟨hz, reaches_zero hp⟩

/-- Two ports write cell 63 at the same edge, and the window is another one when it is read. -/
theorem fpga_rdata_last :
    ((Fpga.reset 2 fun _ _ => 5).run [(⟨0x00100030, fun j => ⟨true, 15, if j = 0 then 7 else 9⟩⟩ :
        RegfileCycle 32 32)]).rdata true (0x00200020 : BitVec 32) 31 = 9 :=
  (fpga_rdata_eq 2 true (fun _ _ => 5) _ (0x00200020 : BitVec 32) 31
    (Or.inr (Or.inr ⟨63, by decide, _, List.mem_singleton_self _, 1, by decide, by decide⟩))).trans
      (by decide)

end RegisterWindows.Cva6
