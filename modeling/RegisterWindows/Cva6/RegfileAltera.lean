import RegisterWindows.Cva6.RegfileFpga

namespace RegisterWindows.Cva6

variable {w d n : Nat}

structure AlteraCycle (w d : Nat) extends RegfileCycle w d where
  raddr : Nat → Reg

/-- `phys_raddr`. -/
def physRaddr (config : BitVec w) (raddr : Reg) : PhysReg :=
  (windowTranslation config raddr).getD 0

/-- What the block of port `j` assigns to `read_after_write[k]`. -/
def AlteraCycle.readAfterWrite (c : AlteraCycle w d) (j k : Nat) : Bool :=
  match windowTranslation c.config (c.ports j).waddr, windowTranslation c.config (c.raddr k) with
  | some p, some q => if p = q then (c.ports j).we && notZero p else false
  | _, _ => false

/-- `ariane_regfile_fpga.sv` with `FpgaAlteraEn`: the RAMs are read at the clock edge, and what is
written at the same edge is to reach the reader by the bypass. -/
structure Altera (n d : Nat) extends Fpga n d where
  raddrQ : Nat → PhysReg
  memReadSync : Nat → Nat → BitVec d
  readAfterWrite : Nat → Bool
  wdataReg : Nat → BitVec d

namespace Altera

/-- Reset clears the selector and `raddr_q`. -/
def reset (f : Altera n d) : Altera n d :=
  { f with memBlockSel := fun _ => 0, raddrQ := fun _ => 0 }

/-- Each of the blocks assigns `read_after_write[k]`, the last one after the others. -/
def clock (f : Altera n d) (c : AlteraCycle w d) : Altera n d where
  toFpga := f.toFpga.clock c.toRegfileCycle
  raddrQ k := physRaddr c.config (c.raddr k)
  memReadSync j k := f.mem j (physRaddr c.config (c.raddr k))
  readAfterWrite k :=
    (List.range n).foldl (fun _ j => c.readAfterWrite j k) (f.readAfterWrite k)
  wdataReg j :=
    match windowTranslation c.config (c.ports j).waddr with
    | some p => if (c.ports j).we && notZero p then (c.ports j).wdata else f.wdataReg j
    | none => f.wdataReg j

def run (f : Altera n d) (cycles : List (AlteraCycle w d)) : Altera n d := cycles.foldl clock f

/-- `rdata_o` of one port. The masks are those of the address and the window of this cycle. -/
def rdata (f : Altera n d) (zeroRegZero : Bool) (c : AlteraCycle w d) (k : Nat) : BitVec d :=
  let block := (f.memBlockSel (f.raddrQ k)).toNat
  if zeroRegZero ∧ c.raddr k = 0 then 0
  else match windowTranslation c.config (c.raddr k) with
    | some _ => if f.readAfterWrite k then f.wdataReg block else f.memReadSync block k
    | none => 0

theorem toFpga_run (f : Altera n d) (cycles : List (AlteraCycle w d)) :
    (f.run cycles).toFpga = f.toFpga.run (cycles.map AlteraCycle.toRegfileCycle) := by
  unfold run Fpga.run
  induction cycles generalizing f with
  | nil => rfl
  | cons c cycles ih => exact ih (f.clock c)

end Altera

/-- The address is one that reads as 0. -/
def Masked (zeroRegZero : Bool) (config : BitVec w) (raddr : Reg) : Prop :=
  (zeroRegZero = true ∧ raddr = 0) ∨ windowTranslation config raddr = none

instance (z : Bool) (config : BitVec w) (raddr : Reg) : Decidable (Masked z config raddr) :=
  inferInstanceAs (Decidable (_ ∨ _))

theorem rdata_masked {z : Bool} {config : BitVec w} {raddr : Reg} (mem : Mem d)
    (h : Masked z config raddr) : Cva6.rdata z config mem raddr = 0 := by
  unfold Cva6.rdata
  split
  · rfl
  · rename_i hx0
    rw [h.resolve_left hx0]

theorem rdata_unmasked {z : Bool} {config : BitVec w} {raddr : Reg} (mem : Mem d) {p : PhysReg}
    (hz : ¬ (z = true ∧ raddr = 0)) (hp : windowTranslation config raddr = some p) :
    Cva6.rdata z config mem raddr = mem p := by
  rw [Cva6.rdata, if_neg hz, hp]

theorem Altera.rdata_masked {z : Bool} {c : AlteraCycle w d} {k : Nat} (f : Altera n d)
    (h : Masked z c.config (c.raddr k)) : f.rdata z c k = 0 := by
  unfold Altera.rdata
  split
  · rfl
  · rename_i hx0
    rw [h.resolve_left hx0]

theorem Altera.rdata_unmasked {z : Bool} {c : AlteraCycle w d} {k : Nat} (f : Altera n d)
    (h : ¬ Masked z c.config (c.raddr k)) :
    f.rdata z c k =
      if f.readAfterWrite k then f.wdataReg (f.memBlockSel (f.raddrQ k)).toNat
      else f.memReadSync (f.memBlockSel (f.raddrQ k)).toNat k := by
  obtain ⟨hx0, hin⟩ := not_or.mp h
  obtain ⟨p, hp⟩ := Option.ne_none_iff_exists'.mp hin
  simp only [Altera.rdata, if_neg hx0, hp]

/-- On a cell that the port reads, the flag of a block is the write enable of its port. -/
theorem readAfterWrite_eq (c : AlteraCycle w d) (j : Nat) {k : Nat} {p : PhysReg}
    (hp : windowTranslation c.config (c.raddr k) = some p) :
    c.readAfterWrite j k = weDec c.config (c.ports j) p := by
  unfold AlteraCycle.readAfterWrite weDec
  rw [hp]
  cases hq : windowTranslation c.config (c.ports j).waddr with
  | none => rfl
  | some q =>
    by_cases hqp : q = p
    · simp [hqp, notZero_eq]
    · simp [hqp]

theorem Altera.readAfterWrite_clock (f : Altera (n + 1) d) (c : AlteraCycle w d) {k : Nat}
    {p : PhysReg} (hp : windowTranslation c.config (c.raddr k) = some p) :
    (f.clock c).readAfterWrite k = weDec c.config (c.ports n) p := by
  change (List.range (n + 1)).foldl (fun _ j => c.readAfterWrite j k) _ = _
  rw [List.range_succ, List.foldl_append]
  exact readAfterWrite_eq c n hp

theorem Altera.wdataReg_clock (f : Altera n d) (c : AlteraCycle w d) {j : Nat} {p : PhysReg}
    (hw : weDec c.config (c.ports j) p = true) :
    (f.clock c).wdataReg j = (c.ports j).wdata := by
  simp only [clock]
  unfold weDec at hw
  cases hq : windowTranslation c.config (c.ports j).waddr with
  | none => simp [hq] at hw
  | some q =>
    simp only [hq] at hw
    by_cases hqp : q = p
    · rw [if_pos hqp] at hw
      simp [hw, notZero_eq]
    · simp [hqp] at hw

/-- No port writes the cell that is read, unless the last one does. -/
def AlteraCycle.Bypassed (n : Nat) (c : AlteraCycle w d) (k : Nat) : Prop :=
  ∀ p, windowTranslation c.config (c.raddr k) = some p → c.Writes (n + 1) p →
    weDec c.config (c.ports n) p = true

theorem Altera.mux_clock {f : Altera (n + 1) d} {mem : Mem d} (z : Bool) (c : AlteraCycle w d)
    {k : Nat} {p : PhysReg} (hp : windowTranslation c.config (c.raddr k) = some p)
    (hz : z = true → p ≠ 0) (hb : c.Bypassed n k)
    (h : f.toFpga.Holds mem p ∨ c.Writes (n + 1) p) :
    (if (f.clock c).readAfterWrite k then (f.clock c).wdataReg ((f.clock c).memBlockSel p).toNat
      else (f.clock c).memReadSync ((f.clock c).memBlockSel p).toNat k) =
      clockFf (n + 1) z mem c.toRegfileCycle p := by
  rw [f.readAfterWrite_clock c hp]
  by_cases hw : c.Writes (n + 1) p
  · -- the last port has priority over the others, and its flag is the one that is left
    have hlast := hb p hp hw
    have hsel : (f.clock c).memBlockSel p = BitVec.ofNat _ n := by
      change f.nextBlockSel c.toRegfileCycle p = _
      simp only [Fpga.nextBlockSel, List.range_succ, List.foldl_append, List.foldl_cons,
        List.foldl_nil]
      exact if_pos hlast
    rw [if_pos hlast, hsel, toNat_port (Nat.lt_succ_self n), f.wdataReg_clock c hlast,
      clockFf_succ z mem _ hz, if_pos hlast]
  · have hold := Fpga.holds_clock z c.toRegfileCycle hz h
    have hstay (j : Nat) : (f.toFpga.clock c.toRegfileCycle).mem j p = f.mem j p :=
      Fpga.mem_clock_of_not_writes hw j
    have hflag : ¬ weDec c.config (c.ports n) p = true := fun hn => hw ⟨n, Nat.lt_succ_self n, hn⟩
    have hsync (j : Nat) : (f.clock c).memReadSync j k = f.mem j p := by
      simp only [clock, physRaddr, hp, Option.getD_some]
    rw [if_neg hflag, hsync, ← hstay]
    exact hold

/-- What a port reads a cycle after it was given the address is what the flip-flops return
for that address: if the next address is masked just when this one is, and the write that is to
be bypassed is the last port's. -/
theorem altera_rdata_eq (n : Nat) (z : Bool) (f : Altera (n + 1) d)
    (cycles : List (AlteraCycle w d)) (c next : AlteraCycle w d) (k : Nat)
    (hwritten : Masked z c.config (c.raddr k) ∨
      ∃ p, windowTranslation c.config (c.raddr k) = some p ∧
      ∃ c' ∈ cycles ++ [c], c'.Writes (n + 1) p)
    (hmask : Masked z next.config (next.raddr k) ↔ Masked z c.config (c.raddr k))
    (hbypass : c.Bypassed n k) :
    (f.reset.run (cycles ++ [c])).rdata z next k =
      rdata z c.config
        (runFf (n + 1) z (fun _ => 0) ((cycles ++ [c]).map AlteraCycle.toRegfileCycle))
        (c.raddr k) := by
  by_cases hm : Masked z c.config (c.raddr k)
  · rw [Altera.rdata_masked _ (hmask.mpr hm), rdata_masked _ hm]
  · obtain ⟨p, hp, hw⟩ := hwritten.resolve_left hm
    have hx0 : ¬ (z = true ∧ c.raddr k = 0) := fun h => hm (Or.inl h)
    have hz : z = true → p ≠ 0 := by
      rintro hz rfl
      exact hx0 ⟨hz, reaches_zero hp⟩
    have hheld : (f.reset.run cycles).toFpga.Holds
        (runFf (n + 1) z (fun _ => 0) (cycles.map AlteraCycle.toRegfileCycle)) p ∨
        c.Writes (n + 1) p := by
      obtain ⟨c', hc', hw⟩ := hw
      rcases List.mem_append.mp hc' with hc' | hc'
      · rw [Altera.toFpga_run]
        exact Or.inl (Fpga.holds_run z _ hz (Or.inr ⟨_, List.mem_map_of_mem hc', hw⟩))
      · rw [List.mem_singleton.mp hc'] at hw
        exact Or.inr hw
    have hq : ((f.reset.run cycles).clock c).raddrQ k = p := by
      simp only [Altera.clock, physRaddr, hp, Option.getD_some]
    have hrun : f.reset.run (cycles ++ [c]) = (f.reset.run cycles).clock c := List.foldl_append ..
    rw [rdata_unmasked _ hx0 hp, hrun, Altera.rdata_unmasked _ (fun h => hm (hmask.mp h)), hq,
      Altera.mux_clock z c hp hz hbypass hheld, List.map_append]
    exact (congrFun (runFf_concat ..) p).symm

/-- A cycle of two write ports in the kernel window, where port `j` writes `x5` and each read port
has the address `raddr`. -/
def writesX5 (j : Nat) (value : BitVec 32) (raddr : Reg) : AlteraCycle 32 32 where
  config := 0x00200000
  ports i := ⟨i == j, 5, value⟩
  raddr _ := raddr

/-- Two writes of the last port to `x5`, the second one in the cycle that reads it. -/
theorem altera_rdata_bypassed :
    let f : Altera 2 32 := ⟨⟨fun _ _ => 0, fun _ => 0⟩, fun _ => 0, fun _ _ => 0, fun _ => false,
      fun _ => 0⟩
    (f.reset.run ([writesX5 1 7 0] ++ [writesX5 1 9 5])).rdata true (writesX5 0 0 5) 0 =
      rdata true (0x00200000 : BitVec 32) (runFf 2 true (fun _ => 0)
        (([writesX5 1 7 0] ++ [writesX5 1 9 5]).map AlteraCycle.toRegfileCycle)) 5 :=
  altera_rdata_eq 1 true _ [writesX5 1 7 0] (writesX5 1 9 5) (writesX5 0 0 5) 0
    (Or.inr ⟨5, by decide, writesX5 1 9 5, by simp, 1, by decide, by decide⟩) Iff.rfl
    (fun p hp _ => by
      cases hp.symm.trans (show windowTranslation (writesX5 1 9 5).config 5 = some 5 by decide)
      decide)

/-- The same writes by the first port: the flag of the other one hides the second. -/
theorem altera_rdata_stale :
    let f : Altera 2 32 := ⟨⟨fun _ _ => 0, fun _ => 0⟩, fun _ => 0, fun _ _ => 0, fun _ => false,
      fun _ => 0⟩
    (f.reset.run ([writesX5 0 7 0] ++ [writesX5 0 9 5])).rdata true (writesX5 0 0 5) 0 = 7 ∧
      rdata true (0x00200000 : BitVec 32) (runFf 2 true (fun _ => 0)
        (([writesX5 0 7 0] ++ [writesX5 0 9 5]).map AlteraCycle.toRegfileCycle)) 5 = 9 := by
  decide +kernel

end RegisterWindows.Cva6
