import RegisterWindows.Bench.Asm

namespace RegisterWindows.Bench
open Port

/-- The image that `link_baremetal.ld` gives a program. `.bss` lies above `.text`, and 0x4000 bytes
below the top of the stack. No program has 0x2000 bytes of it. -/
structure BareMetal where
  /-- The address of byte `k` of `.bss`. -/
  addr : Nat → Word
  addr_add : ∀ j k, addr j + BitVec.ofNat 32 k = addr (j + k)
  stackTop : Word
  above_text : 0x80000000 ≤ (addr 0).toNat
  below_stack : (addr 0).toNat + 0x2000 + 128 ≤ stackTop.toNat

namespace BareMetal
variable (L : BareMetal)

theorem addr_toNat {k : Nat} (hk : k < 0x2000) : (L.addr k).toNat = (L.addr 0).toNat + k := by
  have := L.below_stack
  have := L.stackTop.isLt
  have hadd := L.addr_add 0 k
  rw [Nat.zero_add] at hadd
  rw [← hadd, BitVec.toNat_add, BitVec.toNat_ofNat]
  omega

theorem addr_inj {j k : Nat} (hj : j < 0x2000) (hk : k < 0x2000) : L.addr j = L.addr k ↔ j = k := by
  constructor
  · intro h
    have hn := congrArg BitVec.toNat h
    rw [L.addr_toNat hj, L.addr_toNat hk] at hn
    omega
  · rintro rfl
    rfl

theorem addr_ne_low {k : Nat} {a : Word} (hk : k < 0x2000) (ha : a.toNat < 0x80000000) :
    a ≠ L.addr k := by
  rintro rfl
  have := L.above_text
  rw [L.addr_toNat hk] at ha
  omega

/-- The words of `.bss`. -/
def words (mem : Word → Word) (k : Nat) : Word := if k < 0x2000 then mem (L.addr k) else 0

@[simp] theorem mem_addr {H : Type} (m : Machine H) {k : Nat} (hk : k < 0x2000) :
    m.mem (L.addr k) = L.words m.mem k := (if_pos hk).symm

@[simp] theorem words_update (mem : Word → Word) {k : Nat} (v : Word) (hk : k < 0x2000) :
    L.words (Function.update mem (L.addr k) v) = Function.update (L.words mem) k v := by
  funext j
  unfold words
  by_cases hj : j < 0x2000
  · by_cases hjk : j = k
    · subst hjk
      simp only [hj, if_true, Function.update_self]
    · rw [if_pos hj, Function.update_of_ne (fun h => hjk ((L.addr_inj hj hk).mp h)),
        Function.update_of_ne hjk, if_pos hj]
  · have hjk : j ≠ k := fun h => hj (h ▸ hk)
    rw [if_neg hj, Function.update_of_ne hjk, if_neg hj]

theorem words_update_of_ne (mem : Word → Word) {a : Word} (v : Word)
    (ha : ∀ k < 0x2000, a ≠ L.addr k) : L.words (Function.update mem a v) = L.words mem := by
  funext j
  unfold words
  split
  · rename_i hj
    exact Function.update_of_ne (ha j hj).symm _ _
  · rfl

@[simp] theorem words_update_low (mem : Word → Word) {a : Word} (v : Word)
    (ha : a.toNat < 0x80000000) : L.words (Function.update mem a v) = L.words mem :=
  L.words_update_of_ne mem v fun _ hk => L.addr_ne_low hk ha

@[simp] theorem update_addr_low (mem : Word → Word) {k : Nat} {a : Word} (v : Word)
    (hk : k < 0x2000) (ha : a.toNat < 0x80000000) :
    Function.update mem (L.addr k) v a = mem a :=
  Function.update_of_ne (L.addr_ne_low hk ha) _ _

/-- Memory whose `.bss` has been replaced. -/
def patch (W : Nat → Word) (mem : Word → Word) (a : Word) : Word :=
  if (a - L.addr 0).toNat < 0x2000 then W (a - L.addr 0).toNat else mem a

theorem addr_sub {k : Nat} (hk : k < 0x2000) : (L.addr k - L.addr 0).toNat = k := by
  have hadd := L.addr_add 0 k
  rw [Nat.zero_add] at hadd
  rw [← hadd, BitVec.add_comm, BitVec.add_sub_cancel, BitVec.toNat_ofNat]
  omega

theorem eq_addr (a : Word) : a = L.addr (a - L.addr 0).toNat := by
  have hadd := L.addr_add 0 (a - L.addr 0).toNat
  rw [Nat.zero_add] at hadd
  rw [← hadd, BitVec.ofNat_toNat, BitVec.setWidth_eq, BitVec.add_comm, BitVec.sub_add_cancel]

theorem patch_eq {mem mem' : Word → Word}
    (ho : ∀ a : Word, (∀ k < 0x2000, a ≠ L.addr k) → mem' a = mem a) :
    L.patch (L.words mem') mem = mem' := by
  funext a
  unfold patch
  split
  · rename_i ha
    rw [words, if_pos ha, ← L.eq_addr a]
  · rename_i ha
    refine (ho a ?_).symm
    rintro k hk rfl
    exact ha (by rwa [L.addr_sub hk])

@[simp] theorem patch_addr (W : Nat → Word) (mem : Word → Word) {k : Nat} (hk : k < 0x2000) :
    L.patch W mem (L.addr k) = W k := by
  rw [patch, L.addr_sub hk, if_pos hk]

def small : BareMetal where
  addr k := 0x80001000 + BitVec.ofNat 32 k
  addr_add j k := by rw [BitVec.add_assoc, BitVec.ofNat_add]
  stackTop := 0x80008000
  above_text := by decide
  below_stack := by decide

end BareMetal

namespace Timed

@[simp] theorem x_zero (m : Timed Flat) : m.x 0 = 0 := rfl

theorem x_setX (m : Timed Flat) (r r' : Reg) (v : Word) :
    (m.setX r v).x r' = if r' = r ∧ r ≠ 0 then v else m.x r' := by
  change (if r' = 0 then 0 else Function.update m.core.regs r (if r = 0 then 0 else v) r') =
    if r' = r ∧ r ≠ 0 then v else if r' = 0 then 0 else m.core.regs r'
  by_cases hr : r' = r
  · subst hr
    by_cases h0 : r' = 0 <;> simp [h0]
  · simp only [Function.update_of_ne hr, hr, false_and, if_false]

@[simp] theorem x_store (m : Timed Flat) (a v : Word) (r : Reg) : (m.store a v).x r = m.x r := rfl
@[simp] theorem x_tick (m : Timed Flat) (r : Reg) : m.tick.x r = m.x r := rfl
@[simp] theorem x_writeCsr (m : Timed Flat) (c : Csr) (v : Word) (r : Reg) :
    (m.writeCsr c v).x r = m.x r := by cases c <;> rfl
@[simp] theorem mem_setX (m : Timed Flat) (r : Reg) (v : Word) : (m.setX r v).mem = m.mem := rfl
@[simp] theorem mem_store (m : Timed Flat) (a v : Word) :
    (m.store a v).mem = Function.update m.mem a v := rfl
@[simp] theorem mem_tick (m : Timed Flat) : m.tick.mem = m.mem := rfl
@[simp] theorem mem_writeCsr (m : Timed Flat) (c : Csr) (v : Word) :
    (m.writeCsr c v).mem = m.mem := by cases c <;> rfl
@[simp] theorem reads_setX (m : Timed Flat) (r : Reg) (v : Word) :
    (m.setX r v).reads = m.reads := rfl
@[simp] theorem reads_store (m : Timed Flat) (a v : Word) : (m.store a v).reads = m.reads := rfl
@[simp] theorem reads_tick (m : Timed Flat) : m.tick.reads = m.reads + 1 := rfl
@[simp] theorem reads_writeCsr (m : Timed Flat) (c : Csr) (v : Word) :
    (m.writeCsr c v).reads = m.reads := rfl

end Timed

section
variable (L : BareMetal)

/-- `la rd, word` -/
abbrev la (rd : Reg) (k : Nat) : Inst := .li rd (L.addr k)

/-- The last number of the report tells the programs apart. -/
def unexpectedTrap (code : Word) : Asm :=
  .seq (.block
    [.li t1 0x10c,
     .sw t0 0 t1,
     .csrr t2 .mepc,
     .sw t2 4 t1,
     .li t2 code,
     .sw t2 8 t1])
    -- j test_fail
    .stop

/-- `trap_do_mret`. The parameters are `trap_entry_cycle`, `mret_start_cycle` and `acc_trap_body`. -/
def trapDoMret (entryCycle mretCycle accBody : Nat) : List Inst :=
  [.mcycle t2,
   la L t3 entryCycle,
   .sw t2 0 t3,
   .csrr t0 .mepc,
   .opi .add t0 t0 4,
   .csrw .mepc t0,
   .mcycle t2,
   la L t3 mretCycle,
   .sw t2 0 t3,
   la L t3 entryCycle,
   .lw t4 0 t3,
   .op .sub t5 t2 t4,
   la L t3 accBody,
   .lw t4 0 t3,
   .op .add t4 t4 t5,
   .sw t4 0 t3]

def trapEntry (entryCycle mretCycle accBody : Nat) (code : Word) : Asm :=
  let doMret := .block (trapDoMret L entryCycle mretCycle accBody)
  .seq (.block [.csrr t0 .mcause])
    (.branch (.beqz t0) doMret
      (.seq (.block [.li t1 8])
        (.branch (.beq t0 t1) doMret
          (.seq (.block [.li t1 11])
            (.branch (.bne t0 t1) (unexpectedTrap code) doMret)))))

/-- What an `ecall` does to a program: the handler shares its registers. -/
structure Trapped (clock : Nat → Word) (entryCycle mretCycle accBody : Nat) (m m' : Timed Flat) :
    Prop where
  x_t2 : m'.x t2 = clock (m.reads + 1)
  x_t4 : m'.x t4 = L.words m.mem accBody + (clock (m.reads + 1) - clock m.reads)
  x_other : ∀ r, r ∉ [t0, t1, t2, t3, t4, t5] → m'.x r = m.x r
  words : L.words m'.mem = Function.update (Function.update (Function.update (L.words m.mem)
    entryCycle (clock m.reads)) mretCycle (clock (m.reads + 1)))
    accBody (L.words m.mem accBody + (clock (m.reads + 1) - clock m.reads))
  mem_other : ∀ a : Word, (∀ k < 0x2000, a ≠ L.addr k) → m'.mem a = m.mem a
  reads : m'.reads = m.reads + 2

end

theorem Trapped.mem_low {L : BareMetal} {clock : Nat → Word} {entryCycle mretCycle accBody : Nat}
    {m m' : Timed Flat} (h : Trapped L clock entryCycle mretCycle accBody m m') (a : Word)
    (ha : a.toNat < 0x80000000) : m'.mem a = m.mem a :=
  h.mem_other a fun _ hk => L.addr_ne_low hk ha

theorem ends_trapEntry (L : BareMetal) (clock : Nat → Word) (entryCycle mretCycle accBody : Nat)
    (code : Word) (m : Timed Flat) (Q : Timed Flat → Prop) :
    Code.Ends (ops Flat clock) (trapEntry L entryCycle mretCycle accBody code) m.ecall Q ↔
      Q ((trapDoMret L entryCycle mretCycle accBody).foldl (Timed.step clock)
        (((m.ecall.setX t0 11).setX t1 8).setX t1 11)) := by
  have hcause : m.ecall.readCsr .mcause = 11 := rfl
  simp only [trapEntry, Code.ends_seq, Code.ends_block, Code.ends_branch, List.foldl_cons,
    List.foldl_nil, ops, Timed.step, Timed.holds, hcause, Timed.x_setX]
  simp

theorem trapDoMret_run (L : BareMetal) (clock : Nat → Word) {entryCycle mretCycle accBody : Nat}
    (he : entryCycle < 0x2000) (hm : mretCycle < 0x2000) (hb : accBody < 0x2000)
    (hem : entryCycle ≠ mretCycle) (heb : accBody ≠ entryCycle) (hmb : accBody ≠ mretCycle)
    (m : Timed Flat) :
    let m' := (trapDoMret L entryCycle mretCycle accBody).foldl (Timed.step clock) m
    Trapped L clock entryCycle mretCycle accBody m m' ∧ m'.mepc = m.mepc + 4 := by
  refine ⟨⟨?_, ?_, ?_, ?_, ?_, rfl⟩, ?_⟩
  · simp [trapDoMret, Timed.step, Timed.x_setX, Alu.eval]
  · simp [trapDoMret, Timed.step, Timed.x_setX, Alu.eval, *]
  · intro r hr
    simp only [List.mem_cons, List.not_mem_nil, or_false, not_or] at hr
    obtain ⟨h0, h1, h2, h3, h4, h5⟩ := hr
    simp [trapDoMret, Timed.step, Timed.x_setX, *]
  · simp [trapDoMret, Timed.step, Timed.x_setX, Alu.eval, *]
  · intro a ha
    simp [trapDoMret, Timed.step, Timed.x_setX, *]
  · simp [trapDoMret, Timed.step]
    rfl

theorem ends_ecall (L : BareMetal) (clock : Nat → Word) {entryCycle mretCycle accBody : Nat}
    (code : Word) (he : entryCycle < 0x2000) (hm : mretCycle < 0x2000) (hb : accBody < 0x2000)
    (hem : entryCycle ≠ mretCycle) (heb : accBody ≠ entryCycle) (hmb : accBody ≠ mretCycle)
    (m : Timed Flat) :
    Code.Ends (ops Flat clock) (.trap (trapEntry L entryCycle mretCycle accBody code)) m
      (Trapped L clock entryCycle mretCycle accBody m) := by
  refine Code.Ends.trap (P := fun t =>
    Trapped L clock entryCycle mretCycle accBody (((m.ecall.setX t0 11).setX t1 8).setX t1 11) t ∧
      t.mepc = m.ecall.mepc + 4) ?_ ?_
  · exact (ends_trapEntry L clock entryCycle mretCycle accBody code m _).mpr
      (trapDoMret_run L clock he hm hb hem heb hmb _)
  · rintro t ⟨h, hpc⟩
    refine ⟨_, if_pos hpc, h.x_t2, h.x_t4, fun r hr => ?_, h.words, h.mem_other, h.reads⟩
    refine (h.x_other r hr).trans ?_
    simp only [List.mem_cons, not_or] at hr
    simp only [Timed.x_setX, hr, false_and, if_false]
    rfl

end RegisterWindows.Bench
