import RegisterWindows.Window

namespace RegisterWindows.Cva6

/-- `window_base` and `window_size`: the low two halfwords of the configuration. -/
def decode {w : Nat} (config : BitVec w) : Window :=
  ⟨(config.extractLsb' 0 16).toNat, (config.extractLsb' 16 16).toNat⟩

/-- `window_translation`; the sum is as wide as `PHYSICAL_REGS`, so it does not wrap. -/
def windowTranslation {w : Nat} (config : BitVec w) (addr : Reg) : Option PhysReg :=
  (decode config).phys addr

/-- `mem` of `ariane_regfile_ff.sv`, for any `DATA_WIDTH`. -/
abbrev Mem (d : Nat) := PhysReg → BitVec d

structure WritePort (d : Nat) where
  we : Bool
  waddr : Reg
  wdata : BitVec d

variable {w d : Nat}

/-- What `we_decoder` enables for one port. -/
def writePort (config : BitVec w) (mem : Mem d) (port : WritePort d) : Mem d :=
  if port.we then
    match windowTranslation config port.waddr with
    | some p => Function.update mem p port.wdata
    | none => mem
  else mem

/-- One clock edge: a later port wins over an earlier one, the clearing of word 0 over both. -/
def registerWriteBehavioral (zeroRegZero : Bool) (config : BitVec w) (mem : Mem d)
    (ports : List (WritePort d)) : Mem d :=
  ports.foldl (fun mem port =>
    let mem := writePort config mem port
    if zeroRegZero then Function.update mem 0 0 else mem) mem

/-- `rdata_o` of one port. -/
def rdata (zeroRegZero : Bool) (config : BitVec w) (mem : Mem d) (raddr : Reg) : BitVec d :=
  if zeroRegZero ∧ raddr = 0 then 0
  else match windowTranslation config raddr with
    | some p => mem p
    | none => 0

/-- A configuration whose size field is 0 maps no register. -/
theorem windowTranslation_zero (addr : Reg) : windowTranslation (0 : BitVec w) addr = none := by
  have h : (decode (0 : BitVec w)).size = 0 := by simp [decode]
  rw [windowTranslation, Window.phys, dif_neg]
  rw [h]
  omega

theorem decode_config {win : Window} (hw : win.Legal) : decode win.config = win := by
  have hn := hw.config_toNat
  have := hw.size_le
  have := hw.inside
  obtain ⟨b, z⟩ := win
  simp only [decode, Window.mk.injEq, BitVec.extractLsb'_toNat, hn, Nat.shiftRight_eq_div_pow]
  simp only at *
  omega

/-- One write of an ordinary register file; what `x0` holds is never looked at. -/
def flatWrite (regs : Reg → BitVec d) (port : WritePort d) : Reg → BitVec d :=
  if port.we then Function.update regs port.waddr port.wdata else regs

theorem rdata_kernel {config : BitVec w} (hc : decode config = Window.kernel) (z : Bool)
    (mem : Mem d) {r : Reg} (hr : r ≠ 0) : rdata z config mem r = mem ⟨r.val, reg_lt r⟩ := by
  simp [rdata, hr, windowTranslation, hc]

theorem writePort_kernel {config : BitVec w} (hc : decode config = Window.kernel)
    (mem : Mem d) (regs : Reg → BitVec d) (port : WritePort d)
    (h : ∀ r : Reg, r ≠ 0 → mem ⟨r.val, reg_lt r⟩ = regs r) {r : Reg} (hr : r ≠ 0) :
    writePort config mem port ⟨r.val, reg_lt r⟩ = flatWrite regs port r := by
  unfold writePort flatWrite
  split
  · simp only [windowTranslation, hc, Window.phys_kernel]
    by_cases hp : r = port.waddr
    · subst hp
      simp
    · rw [Function.update_of_ne hp, Function.update_of_ne, h r hr]
      intro he
      exact hp (Fin.ext (by simpa using congrArg Fin.val he))
  · exact h r hr

/-- A clock edge of the windowed file refines the same edge of an ordinary one. -/
theorem registerWriteBehavioral_kernel {config : BitVec w} (hc : decode config = Window.kernel)
    (z : Bool) (mem : Mem d) (regs : Reg → BitVec d) (ports : List (WritePort d))
    (h : ∀ r : Reg, r ≠ 0 → mem ⟨r.val, reg_lt r⟩ = regs r) :
    ∀ r : Reg, r ≠ 0 →
      registerWriteBehavioral z config mem ports ⟨r.val, reg_lt r⟩ =
        ports.foldl flatWrite regs r := by
  induction ports generalizing mem regs with
  | nil => exact h
  | cons port ports ih =>
    refine ih _ _ fun r hr => ?_
    have hw := writePort_kernel hc mem regs port h hr
    cases z with
    | false => exact hw
    | true =>
      simp only [if_true]
      rw [Function.update_of_ne, hw]
      intro he
      exact hr (Fin.ext (by simpa using congrArg Fin.val he))

end RegisterWindows.Cva6
