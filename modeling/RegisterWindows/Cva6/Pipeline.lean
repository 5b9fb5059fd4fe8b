import RegisterWindows.Cva6.Core
import RegisterWindows.Cva6.Interference
import RegisterWindows.Lib.Ring

namespace RegisterWindows.Cva6
open Ring

/-- `fu_t`, but for CSR instructions. -/
inductive Fu where
  | none
  | load
  | store
  | alu
  | ctrlFlow
  | mult
deriving DecidableEq, Repr

/-- An instruction as the register file sees it: it reads two registers, may load or store the
word at an address, and writes one register; `x0` if it has nothing to write. -/
structure PlainInstr where
  rs1 : Reg
  rs2 : Reg
  rd : Reg
  address : Word → Word → Word
  stored : Word → Word → Option Word
  result : Word → Word → Word → Word

/-- Neither traps nor leaves the order of the stream. The core has no FPU and no coprocessor;
atomics, fences and `wfi`, which wait or flush when they commit, are left out. -/
inductive StreamInstr where
  | plain (fu : Fu) (i : PlainInstr)
  /-- `CSR_READ`, or a write. An immediate form has `x0` for `rs1` and a constant `wdata`. -/
  | csr (addr : BitVec 12) (kind : Option CsrKind) (rd rs1 : Reg) (wdata : Word → Word)

namespace StreamInstr

def rs1 : StreamInstr → Reg
  | .plain _ i => i.rs1
  | .csr _ _ _ rs1 _ => rs1

def rs2 : StreamInstr → Reg
  | .plain _ i => i.rs2
  | .csr .. => 0

def rd : StreamInstr → Reg
  | .plain _ i => i.rd
  | .csr _ _ rd _ _ => rd

def isCsr : StreamInstr → Bool
  | .plain .. => false
  | .csr .. => true

end StreamInstr

/-- What the functional unit has made of the operands: the `result` of the scoreboard entry, and
the word that waits in the store buffer. -/
structure Entry where
  ins : StreamInstr
  result : Word
  store : Option (Word × Word)

/-- A load sees the memory that `data` is; a CSR instruction only passes its operand on. -/
def StreamInstr.execute (i : StreamInstr) (a b : Word) (data : Word → Word) : Entry :=
  match i with
  | .plain _ p =>
    ⟨i, p.result a b (data (p.address a b)), (p.stored a b).map fun v => (p.address a b, v)⟩
  | .csr _ _ _ _ wdata => ⟨i, wdata a, none⟩

/-- The rest of `csr_regfile.sv`, over the other CSRs: `flush` says which of them a write to
flushes the pipeline. -/
structure CsrFile (C : Type) where
  read : C → BitVec 12 → Word
  write : C → BitVec 12 → Word → C
  flush : BitVec 12 → Bool

/-- The committed state: registers, CSRs and memory. -/
structure Arch (C : Type) where
  core : Regs
  csrs : C
  data : Word → Word

variable {C : Type}

namespace Arch

def x (a : Arch C) (r : Reg) : Word := rdata true a.core.windowConfig a.core.mem r

/-- `csr_read`. -/
def csrRdata (F : CsrFile C) (a : Arch C) (addr : BitVec 12) : Word :=
  if addr = 0x800 then a.core.windowConfig
  else if addr = 0x801 then a.core.prevWindowConfig
  else F.read a.csrs addr

/-- `csr_update`. -/
def csrUpdate (F : CsrFile C) (a : Arch C) (addr : BitVec 12) (wdata : Word) : Arch C :=
  if addr = 0x800 then { a with core := { a.core with windowConfig := wdata } }
  else if addr = 0x801 then { a with core := { a.core with prevWindowConfig := wdata } }
  else { a with csrs := F.write a.csrs addr wdata }

/-- The CSR operation of the entry at commit port 0. -/
def csrOp (F : CsrFile C) (a : Arch C) (e : Entry) : Arch C :=
  match e.ins with
  | .csr addr (some kind) _ _ _ =>
    a.csrUpdate F addr (csrWdata (a.csrRdata F addr) e.result kind)
  | _ => a

/-- `waddr_o`, `wdata_o` and `we_gpr_o`. -/
def port (F : CsrFile C) (a : Arch C) (e : Entry) : WritePort 32 :=
  match e.ins with
  | .csr addr _ rd _ _ => ⟨true, rd, a.csrRdata F addr⟩
  | .plain _ i => ⟨true, i.rd, e.result⟩

end Arch

/-- The store buffer hands the word to the memory. -/
def Entry.commitStore (data : Word → Word) (e : Entry) : Word → Word :=
  match e.store with
  | some (addr, v) => Function.update data addr v
  | none => data

/-- One clock edge of the committed state, with the entries of the commit ports in their order.
The registers are written in the window that was active before it. -/
def Arch.commit (F : CsrFile C) (a : Arch C) (es : List Entry) : Arch C :=
  let next := match es with
    | e :: _ => a.csrOp F e
    | [] => a
  { next with
    core := { next.core with
      mem := registerWriteBehavioral true a.core.windowConfig a.core.mem (es.map (a.port F)) }
    data := es.foldl Entry.commitStore a.data }

/-- `flush_o` of the CSR file. Neither window register sets it. -/
def flushO (F : CsrFile C) (addr : BitVec 12) : Bool :=
  if addr = 0x800 ∨ addr = 0x801 then false else F.flush addr

def Entry.flushes (F : CsrFile C) (e : Entry) : Bool :=
  match e.ins with
  | .csr addr (some _) _ _ _ => flushO F addr
  | _ => false

/-- The members of `cva6_cfg_t` this logic depends on. -/
structure PipeCfg where
  nrSbEntries : Nat
  NrCommitPorts : Nat
  SuperscalarEn : Bool
  ALUBypass : Bool
  entries_pos : 0 < nrSbEntries

structure SbEntry extends Entry where
  /-- The result is there. -/
  valid : Bool

structure Pipe (C : Type) where
  arch : Arch C
  /-- The issued instructions, from the commit pointer to the issue pointer. -/
  sb : List SbEntry
  commitPointer : Nat
  /-- History: how many instructions of the stream have been committed. -/
  retired : Nat

/-- What the rest of the core does in a cycle: which transactions are written back, how many
instructions the commit stage finds no reason to hold back, and how many are issued. -/
structure PipeIn where
  writeback : Nat → Bool
  commits : Nat
  issues : Nat

namespace Pipe

def start (a : Arch C) : Pipe C := ⟨a, [], 0, 0⟩

def entries (s : Pipe C) : List Entry := s.sb.map SbEntry.toEntry

/-- The position in the stream of the next instruction to issue. -/
def next (s : Pipe C) : Nat := s.retired + s.sb.length

section
variable (cfg : PipeCfg) (s : Pipe C)

def issuePointer : Nat := slot cfg.nrSbEntries s.commitPointer s.sb.length

/-- `mem_q` at a slot, if an instruction is still issued there. -/
def sbe (j : Nat) : Option SbEntry := s.sb[age cfg.nrSbEntries s.commitPointer j]?

/-- `raw_checker`: the slot of the most recent instruction that writes the register. Only register
numbers are compared. -/
def rawChecker (rs : Reg) : Option Nat :=
  if rs = 0 then none
  else youngest cfg.nrSbEntries (s.issuePointer cfg)
    fun j => (s.sbe cfg j).elim false fun e => e.ins.rd == rs

/-- An operand: forwarded, or read from the register file; none if the instruction has to wait. -/
def operand (writeback : Nat → Bool) (rs : Reg) : Option Word :=
  match s.rawChecker cfg rs with
  | none => some (s.arch.x rs)
  | some j => (s.sbe cfg j).bind fun e =>
    if (e.valid || writeback j) && !e.ins.isCsr then some e.result else none

/-- `csr_ready_o`: the CSR buffer is empty, or emptied in this cycle. -/
def csrReady (commits : Nat) : Bool :=
  !s.sb.any (·.ins.isCsr) || (s.sb.take commits).any (·.ins.isCsr)

/-- The units with a fixed latency wait for the CSR buffer; a superscalar core has another ALU. -/
def fuBusy (commits : Nat) : StreamInstr → Bool
  | .csr .. => !s.csrReady commits
  | .plain .alu _ => !cfg.SuperscalarEn && !s.csrReady commits
  | .plain .ctrlFlow _ => !s.csrReady commits
  | .plain .mult _ => !s.csrReady commits
  | .plain _ _ => false

/-- Memory behind the stores that have been issued. -/
def lsuView : Word → Word := s.entries.foldl Entry.commitStore s.arch.data

def issueFirst (i : PipeIn) (ins : StreamInstr) : Option Entry :=
  if s.fuBusy cfg i.commits ins then none
  else do
    let a ← s.operand cfg i.writeback ins.rs1
    let b ← s.operand cfg i.writeback ins.rs2
    return ins.execute a b s.lsuView

/-- What the first port leaves busy for the second. It takes the ALU that does not wait for the
CSR buffer. -/
def secondBusy (commits : Nat) : StreamInstr → StreamInstr → Bool
  | .plain .alu _, .plain .alu _ => !s.csrReady commits
  | .plain .none _, .plain .none _ => true
  | .plain .ctrlFlow _, .plain .ctrlFlow _ => true
  | .plain .ctrlFlow _, .plain .store _ => true
  | .plain .mult _, .plain .mult _ => true
  | .plain .load _, .plain .load _ => true
  | .plain .load _, .plain .store _ => true
  | .plain .store _, .plain .load _ => true
  | .plain .store _, .plain .store _ => true
  | .plain .., .plain .. => false
  | _, _ => true

/-- Both instructions are for an ALU, which without the B extension has no `CPOP`. -/
def isAluBypass : StreamInstr → StreamInstr → Bool
  | .plain .alu _, .plain .alu _ => cfg.ALUBypass
  | _, _ => false

/-- The second port also looks at the instruction on the first. -/
def operandSecond (writeback : Nat → Bool) (first : Entry) (ins : StreamInstr) (rs : Reg) :
    Option Word :=
  if rs ≠ 0 ∧ rs = first.ins.rd then
    if isAluBypass cfg first.ins ins then some first.result else none
  else s.operand cfg writeback rs

def issueSecond (i : PipeIn) (first : Entry) (ins : StreamInstr) : Option Entry :=
  if s.fuBusy cfg i.commits ins || s.secondBusy i.commits first.ins ins then none
  else do
    let a ← s.operandSecond cfg i.writeback first ins ins.rs1
    let b ← s.operandSecond cfg i.writeback first ins ins.rs2
    return ins.execute a b (first.commitStore s.lsuView)

/-- What is issued, if the scoreboard has room for it. -/
def issue (prog : Nat → StreamInstr) (i : PipeIn) : Option (List Entry) :=
  if s.sb.length + i.issues ≤ cfg.nrSbEntries then
    match i.issues with
    | 0 => some []
    | 1 => do
      let e ← s.issueFirst cfg i (prog s.next)
      return [e]
    | 2 =>
      if cfg.SuperscalarEn then do
        let e ← s.issueFirst cfg i (prog s.next)
        let e' ← s.issueSecond cfg i e (prog (s.next + 1))
        return [e, e']
      else none
    | _ => none
  else none

/-- `commit_ack_o`: the second port commits no CSR instruction, no store, and nothing behind a
CSR instruction. -/
def commitAck : List SbEntry → Bool
  | [] => true
  | [e] => e.valid
  | [e, e'] => decide (1 < cfg.NrCommitPorts) && e.valid && e'.valid && !e.ins.isCsr &&
    match e'.ins with
    | .plain fu _ => fu != .store && fu != .none
    | .csr .. => false
  | _ => false

/-- The commits of this cycle flush the pipeline. -/
def flush (F : CsrFile C) (i : PipeIn) : Bool :=
  (s.entries.take i.commits).any (Entry.flushes F)

/-- The entry at a slot after the write-back of the cycle. -/
def written (i : PipeIn) (k : Nat) (e : SbEntry) : SbEntry :=
  { e with valid := e.valid || i.writeback (slot cfg.nrSbEntries s.commitPointer k) }

end

/-- One clock cycle; none if the logic does not admit it. Every stage looks at the registers as
they are before the edge. -/
def cycle (cfg : PipeCfg) (F : CsrFile C) (prog : Nat → StreamInstr) (s : Pipe C) (i : PipeIn) :
    Option (Pipe C) :=
  if i.commits ≤ s.sb.length ∧ commitAck cfg (s.sb.take i.commits) then
    if s.flush F i then
      some ⟨s.arch.commit F (s.entries.take i.commits), [], 0, s.retired + i.commits⟩
    else do
      let new ← s.issue cfg prog i
      return {
        arch := s.arch.commit F (s.entries.take i.commits)
        sb := (s.sb.mapIdx (s.written cfg i)).drop i.commits ++ new.map fun e => ⟨e, false⟩
        commitPointer := slot cfg.nrSbEntries s.commitPointer i.commits
        retired := s.retired + i.commits }
  else none

end Pipe

end RegisterWindows.Cva6
