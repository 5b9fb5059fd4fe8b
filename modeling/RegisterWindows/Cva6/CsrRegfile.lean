import RegisterWindows.Cva6.Regfile

namespace RegisterWindows.Cva6

/-- The members of `cva6_cfg_t` that CSR writes, trap and debug entry and the three returns of
`csr_regfile.sv` depend on. -/
structure Cfg where
  DebugEn : Bool
  RVS : Bool
  RVU : Bool
  RVH : Bool
  SDTRIG : Bool
deriving DecidableEq, Repr

abbrev PrivLvl := BitVec 2

def privLvlM : PrivLvl := 3
def privLvlS : PrivLvl := 1
def privLvlU : PrivLvl := 0

structure Mstatus where
  mie : Bool
  mpie : Bool
  mpp : PrivLvl
  sie : Bool
  spie : Bool
  spp : Bool
  mpv : Bool
  mprv : Bool
deriving DecidableEq, Repr

structure Vsstatus where
  sie : Bool
  spie : Bool
  spp : Bool
deriving DecidableEq, Repr

structure Dcsr where
  prv : PrivLvl
  v : Bool
  ebreakm : Bool
  ebreaks : Bool
  ebreaku : Bool
  ebreakvs : Bool
  ebreakvu : Bool
  step : Bool
  cause : BitVec 3
deriving DecidableEq, Repr

/-- What a CSR instruction other than on 0x800 and 0x801 may change. -/
structure Writable (w : Nat) where
  mstatus : Mstatus
  vsstatus : Vsstatus
  hstatusSpv : Bool
  mideleg : BitVec w
  medeleg : BitVec w
  hideleg : BitVec w
  hedeleg : BitVec w
  dcsr : Dcsr
  mepc : BitVec w
  sepc : BitVec w
  vsepc : BitVec w
  dpc : BitVec w
  mcause : BitVec w
  scause : BitVec w
  vscause : BitVec w

/-- The registers, `_q` in the source. -/
structure Csrs (w : Nat) extends Writable w where
  windowConfig : BitVec w
  prevWindowConfig : BitVec w
  privLvl : PrivLvl
  v : Bool
  debugMode : Bool

/-- `DEFAULT_WINDOW_CONFIG`: base 0, size 32. -/
def defaultWindowConfig (w : Nat) : BitVec w := BitVec.ofNat w 0x00200000

/-- `csr_wdata`. -/
inductive CsrKind where
  | write
  | set
  | clear
deriving DecidableEq, Repr

/-- `csr_op_i`, a CSR read being no operation here. An access to another CSR than the two
window registers leaves `next` in the registers it may write. -/
inductive CsrOp (w : Nat) where
  | none
  | window (kind : CsrKind) (wdata : BitVec w)
  | staged (kind : CsrKind) (wdata : BitVec w)
  | other (next : Writable w)
  | mret
  | sret
  | dret

/-- One clock cycle of inputs. -/
structure CycleIn (w : Nat) where
  op : CsrOp w
  exValid : Bool
  exCause : BitVec w
  breakFromTrigger : Bool
  debugFromTrigger : Bool
  pc : BitVec w
  /-- `commit_ack_i[0]`, and the address `dpc` takes after a single step. -/
  commitAck : Bool
  stepPc : BitVec w

def breakpoint {w : Nat} : BitVec w := 3
def debugRequest {w : Nat} : BitVec w := 24

variable {w : Nat}

def csrWdata (rdata wdata : BitVec w) : CsrKind → BitVec w
  | .write => wdata
  | .set => wdata ||| rdata
  | .clear => ~~~wdata &&& rdata

/-- `priv_lvl_o`: debug mode executes with privilege level M. -/
def privLvlO (cfg : Cfg) (q : Csrs w) : PrivLvl :=
  if cfg.DebugEn && q.debugMode then privLvlM else q.privLvl

/-- The condition of the exception update: not in debug mode, and no debug request. -/
def trapTaken (cfg : Cfg) (q : Csrs w) (i : CycleIn w) : Bool :=
  (cfg.DebugEn && !q.debugMode && i.exCause != debugRequest && i.exValid) ||
  (!cfg.DebugEn && i.exValid) || (!cfg.DebugEn && cfg.SDTRIG && i.breakFromTrigger)

/-- Bit `cause` of a delegation register. -/
def delegated (mask cause : BitVec w) : Bool := mask.getLsbD (cause.toNat % w)

/-- `trap_to_priv_lvl` and `trap_to_v`. -/
def trapTo (cfg : Cfg) (q : Csrs w) (cause : BitVec w) : PrivLvl × Bool :=
  if cfg.RVS && ((cause.msb && delegated q.mideleg cause) ||
      (!cause.msb && delegated q.medeleg cause)) then
    (if privLvlO cfg q = privLvlM then privLvlM else privLvlS,
      if cfg.RVH && ((cause.msb && delegated q.hideleg cause) ||
        (!cause.msb && delegated q.hedeleg cause)) then q.v else false)
  else (privLvlM, false)

/-- The CSR write, on the next state `d` of a cycle that starts in `q`. Both window registers
have user-level addresses, so no privilege level is refused. -/
def csrWrite (q d : Csrs w) : CsrOp w → Csrs w
  | .window kind wdata => { d with windowConfig := csrWdata q.windowConfig wdata kind }
  | .staged kind wdata => { d with prevWindowConfig := csrWdata q.prevWindowConfig wdata kind }
  | .other next => { d with toWritable := next }
  | _ => d

/-- Without user mode `mstatus.mpp` is hardwired to M. -/
def hardwireMpp (cfg : Cfg) (d : Csrs w) : Csrs w :=
  if cfg.RVU then d else { d with mstatus := { d.mstatus with mpp := privLvlM } }

/-- The exception stack: the interrupted window goes to 0x801, the default one becomes active. -/
def trapEntry (cfg : Cfg) (q d : Csrs w) (i : CycleIn w) : Csrs w :=
  let d := { d with
    prevWindowConfig := q.windowConfig
    windowConfig := defaultWindowConfig w }
  let (lvl, toV) := trapTo cfg q i.exCause
  let d :=
    if cfg.RVS && lvl == privLvlS then
      if cfg.RVH && toV then
        { d with
          vsstatus := { sie := false, spie := q.vsstatus.sie, spp := q.privLvl.getLsbD 0 }
          vscause := if i.exCause.msb then (i.exCause &&& ~~~3#w) ||| 1#w else i.exCause
          vsepc := i.pc }
      else
        { d with
          mstatus := { d.mstatus with
            sie := false, spie := q.mstatus.sie, spp := q.privLvl.getLsbD 0 }
          scause := i.exCause
          sepc := i.pc
          hstatusSpv := if cfg.RVH then q.v else d.hstatusSpv }
    else
      { d with
        mstatus := { d.mstatus with
          mie := false, mpie := q.mstatus.mie, mpp := q.privLvl
          mpv := if cfg.RVH then q.v else d.mstatus.mpv }
        mcause := if i.breakFromTrigger then 3 else i.exCause
        mepc := i.pc }
  { d with
    privLvl := lvl
    v := if cfg.RVH then toV else d.v }

/-- Whether an `ebreak` at the current privilege level enters debug mode. -/
def ebreakEnters (cfg : Cfg) (q d : Csrs w) : Bool :=
  let lvl := privLvlO cfg q
  if lvl = privLvlM then q.dcsr.ebreakm
  else if lvl = privLvlS && cfg.RVS then
    if cfg.RVH && q.v then q.dcsr.ebreakvs else q.dcsr.ebreaks
  else if lvl = privLvlU && cfg.RVU then
    if cfg.RVH && q.v then q.dcsr.ebreakvu else q.dcsr.ebreaku
  else d.debugMode

/-- Debug entry. It touches neither window register. -/
def debugEntry (cfg : Cfg) (q d : Csrs w) (i : CycleIn w) : Csrs w :=
  if cfg.DebugEn && !q.debugMode then
    let prv := privLvlO cfg q
    let vbit := cfg.RVH && q.v
    let d := { d with dcsr := { d.dcsr with prv := prv, v := vbit } }
    let d := if cfg.SDTRIG && i.debugFromTrigger then
        { d with dpc := i.pc, debugMode := true, dcsr := { d.dcsr with cause := 2 } }
      else d
    let d := if i.exValid && i.exCause == breakpoint then
        { d with
          debugMode := ebreakEnters cfg q d, dpc := i.pc, dcsr := { d.dcsr with cause := 1 } }
      else d
    let d := if i.exValid && i.exCause == debugRequest then
        { d with dpc := i.pc, debugMode := true, dcsr := { d.dcsr with cause := 3 } }
      else d
    if q.dcsr.step && i.commitAck then
      { d with dpc := i.stepPc, debugMode := true, dcsr := { d.dcsr with cause := 4 } }
    else d
  else d

/-- The three returns; only `mret` commits a window. -/
def returnFromEnvironment (cfg : Cfg) (q d : Csrs w) : CsrOp w → Csrs w
  | .mret =>
    { d with
      mstatus := { d.mstatus with
        mie := q.mstatus.mpie
        mpp := if cfg.RVU then privLvlU else privLvlM
        mpie := true
        mpv := if cfg.RVH then false else d.mstatus.mpv
        mprv := if cfg.RVH && q.mstatus.mpp != privLvlM then false else d.mstatus.mprv }
      privLvl := q.mstatus.mpp
      v := if cfg.RVH then q.mstatus.mpv else d.v
      windowConfig := q.prevWindowConfig }
  | .sret =>
    if cfg.RVS && ((cfg.RVH && !q.v) || !cfg.RVH) then
      { d with
        mstatus := { d.mstatus with
          sie := q.mstatus.spie, spp := false, spie := true
          mprv := if cfg.RVH then false else d.mstatus.mprv }
        privLvl := if q.mstatus.spp then privLvlS else privLvlU
        v := if cfg.RVH then q.hstatusSpv else d.v
        hstatusSpv := if cfg.RVH then false else d.hstatusSpv }
    else if cfg.RVH && q.v then
      { d with
        vsstatus := { sie := q.vsstatus.spie, spp := false, spie := true }
        privLvl := if q.vsstatus.spp then privLvlS else privLvlU }
    else d
  | .dret =>
    if cfg.DebugEn then
      { d with
        privLvl := q.dcsr.prv
        v := if cfg.RVH then q.dcsr.v else d.v
        debugMode := false }
    else d
  | _ => d

/-- One clock edge: the processes of `csr_update` in the order of the source. -/
def cycle (cfg : Cfg) (q : Csrs w) (i : CycleIn w) : Csrs w :=
  let d := hardwireMpp cfg (csrWrite q q i.op)
  let d := if trapTaken cfg q i then trapEntry cfg q d i else d
  let d := debugEntry cfg q d i
  returnFromEnvironment cfg q d i.op

def reset (w : Nat) : Csrs w where
  windowConfig := defaultWindowConfig w
  prevWindowConfig := 0
  privLvl := privLvlM
  v := false
  debugMode := false
  mstatus := ⟨false, false, 0, false, false, false, false, false⟩
  vsstatus := ⟨false, false, false⟩
  hstatusSpv := false
  mideleg := 0
  medeleg := 0
  hideleg := 0
  hedeleg := 0
  dcsr := ⟨privLvlM, false, false, false, false, false, false, false, 0⟩
  mepc := 0
  sepc := 0
  vsepc := 0
  dpc := 0
  mcause := 0
  scause := 0
  vscause := 0

/-- The window registers alone, which most of the processes above leave as they are. -/
def Csrs.windows (q : Csrs w) : BitVec w × BitVec w := (q.windowConfig, q.prevWindowConfig)

@[simp] theorem windows_hardwireMpp (cfg : Cfg) (d : Csrs w) :
    (hardwireMpp cfg d).windows = d.windows := by
  unfold hardwireMpp
  split <;> rfl

@[simp] theorem windows_trapEntry (cfg : Cfg) (q d : Csrs w) (i : CycleIn w) :
    (trapEntry cfg q d i).windows = (defaultWindowConfig w, q.windowConfig) := by
  simp only [trapEntry, Csrs.windows]
  split
  · split <;> rfl
  · rfl

@[simp] theorem windows_debugEntry (cfg : Cfg) (q d : Csrs w) (i : CycleIn w) :
    (debugEntry cfg q d i).windows = d.windows := by
  have hite (b : Bool) (x y : Csrs w) (v : BitVec w × BitVec w) (hx : x.windows = v)
      (hy : y.windows = v) : (if b then x else y).windows = v := by
    cases b <;> assumption
  simp only [debugEntry]
  refine hite _ _ _ _ (hite _ _ _ _ ?_ ?_) rfl
  all_goals
    refine hite _ _ _ _ ?_ ?_ <;> refine hite _ _ _ _ ?_ ?_ <;> refine hite _ _ _ _ ?_ ?_ <;> rfl

theorem windows_return (cfg : Cfg) (q d : Csrs w) (op : CsrOp w) :
    (returnFromEnvironment cfg q d op).windows =
      match op with
      | .mret => (q.prevWindowConfig, d.prevWindowConfig)
      | _ => d.windows := by
  cases op with
  | sret =>
    simp only [returnFromEnvironment]
    split
    · rfl
    · split <;> rfl
  | dret =>
    simp only [returnFromEnvironment]
    split <;> rfl
  | _ => rfl

/-- The window registers ahead of the return: an exception overrides a CSR write. -/
def windowsTaken (cfg : Cfg) (q : Csrs w) (i : CycleIn w) : BitVec w × BitVec w :=
  if trapTaken cfg q i then (defaultWindowConfig w, q.windowConfig)
  else (csrWrite q q i.op).windows

theorem windows_cycle (cfg : Cfg) (q : Csrs w) (i : CycleIn w) :
    (cycle cfg q i).windows =
      match i.op with
      | .mret => (q.prevWindowConfig, (windowsTaken cfg q i).2)
      | _ => windowsTaken cfg q i := by
  have hd : (debugEntry cfg q (if trapTaken cfg q i
      then trapEntry cfg q (hardwireMpp cfg (csrWrite q q i.op)) i
      else hardwireMpp cfg (csrWrite q q i.op)) i).windows = windowsTaken cfg q i := by
    rw [windows_debugEntry, windowsTaken]
    split <;> simp
  have hprev := congrArg Prod.snd hd
  rw [cycle, windows_return, hd]
  split
  · exact congrArg (Prod.mk q.prevWindowConfig) hprev
  · rfl

theorem windowConfig_mret (cfg : Cfg) (q : Csrs w) {i : CycleIn w} (h : i.op = .mret) :
    (cycle cfg q i).windowConfig = q.prevWindowConfig := by
  have hc := congrArg Prod.fst (windows_cycle cfg q i)
  rw [h] at hc
  exact hc

theorem windowConfig_cycle (cfg : Cfg) (q : Csrs w) {i : CycleIn w} (h : i.op ≠ .mret) :
    (cycle cfg q i).windowConfig = (windowsTaken cfg q i).1 := by
  have hc := congrArg Prod.fst (windows_cycle cfg q i)
  split at hc
  · contradiction
  · exact hc

theorem prevWindowConfig_cycle (cfg : Cfg) (q : Csrs w) (i : CycleIn w) :
    (cycle cfg q i).prevWindowConfig = (windowsTaken cfg q i).2 := by
  have hc := congrArg Prod.snd (windows_cycle cfg q i)
  split at hc <;> exact hc

/-- An operation that leaves CSRs 0x800 and 0x801 alone. -/
def CsrOp.NoWindowAccess : CsrOp w → Prop
  | .window _ _ => False
  | .staged _ _ => False
  | _ => True

theorem windows_csrWrite {op : CsrOp w} (h : op.NoWindowAccess) (q d : Csrs w) :
    (csrWrite q d op).windows = d.windows := by
  cases op with
  | window | staged => cases h
  | _ => rfl

theorem windowsTaken_silent (cfg : Cfg) (q : Csrs w) {i : CycleIn w} (h : i.op.NoWindowAccess) :
    windowsTaken cfg q i =
      if trapTaken cfg q i then (defaultWindowConfig w, q.windowConfig) else q.windows := by
  rw [windowsTaken, windows_csrWrite h]

end RegisterWindows.Cva6
