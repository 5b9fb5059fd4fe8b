import RegisterWindows.Cva6.Forwarding
import RegisterWindows.Trace

namespace RegisterWindows.Cva6
open Runs View

/-- `csr_addr.csr_decode.priv_lvl`: bits 9 and 8 of the address. -/
def csrPrivLvl (addr : BitVec 12) : PrivLvl := addr.extractLsb' 8 2

/-- `privilege_check` of a core without the hypervisor extension. The counters, which have a
check of their own, are at other addresses. -/
def privilegeViolation (cfg : Cfg) (lvl : PrivLvl) (debugMode : Bool) (addr : BitVec 12) : Bool :=
  (cfg.RVU && (lvl &&& csrPrivLvl addr) != csrPrivLvl addr) ||
    (addr.extractLsb' 4 8 == 0x7b && !(cfg.DebugEn && debugMode))

def csrAddr : WindowCsr → BitVec 12
  | .active => 0x800
  | .staged => 0x801

/-- Both window registers have user-level addresses. -/
theorem not_privilegeViolation (cfg : Cfg) (lvl : PrivLvl) (debugMode : Bool) (csr : WindowCsr) :
    privilegeViolation cfg lvl debugMode (csrAddr csr) = false := by
  have hlvl : csrPrivLvl (csrAddr csr) = 0#2 := by cases csr <;> rfl
  have hdebug : ((csrAddr csr).extractLsb' 4 8 == 0x7b) = false := by cases csr <;> rfl
  unfold privilegeViolation
  rw [hlvl, hdebug, BitVec.and_zero]
  simp

variable {C : Type}

/-- An instruction that may not access its CSR traps where it would commit. -/
def Entry.permitted (cfg : Cfg) (e : Entry) : Bool :=
  match e.ins with
  | .csr addr .. => !privilegeViolation cfg privLvlU false addr
  | .plain .. => true

/-- What the registers of the next instructions are taken to hold, read or forwarded. -/
def Pipe.reads (pcfg : PipeCfg) (prog : Nat → StreamInstr) (s : Pipe C) (i : PipeIn) :
    List (Option Word) :=
  let ins := prog s.next
  let ins' := prog (s.next + 1)
  [s.operand pcfg i.writeback ins.rs1, s.operand pcfg i.writeback ins.rs2] ++
  match s.issueFirst pcfg i ins with
  | some e => [s.operandSecond pcfg i.writeback e ins' ins'.rs1,
      s.operandSecond pcfg i.writeback e ins' ins'.rs2]
  | none => []

structure User (C : Type) where
  pipe : Pipe C
  trapped : Bool

inductive UserEvent where
  | cycle (i : PipeIn)
  /-- An exception or an interrupt; what is in flight is discarded. -/
  | trap

namespace User

/-- Machine mode stages `W` and executes `mret`, behind which the pipeline is empty. -/
def enter (W : Word) (csrs : C) (data : Word → Word) (mem : Mem 32) : User C :=
  ⟨.start ⟨WindowedCore.mret ⟨defaultWindowConfig 32, W, mem⟩, csrs, data⟩, false⟩

def step (pcfg : PipeCfg) (cfg : Cfg) (F : CsrFile C) (prog : Nat → StreamInstr) (u : User C) :
    UserEvent → Option (User C)
  | .cycle i =>
    if u.trapped = false ∧ (u.pipe.entries.take i.commits).all (Entry.permitted cfg) = true then
      (u.pipe.cycle pcfg F prog i).map fun s => { u with pipe := s }
    else none
  | .trap =>
    if u.trapped = false then
      some {
        pipe := { u.pipe with
          arch := { u.pipe.arch with core := WindowedCore.trap u.pipe.arch.core }
          sb := []
          commitPointer := 0 }
        trapped := true }
    else none

/-- The configuration that registers are translated with. -/
def config (u : User C) : Word := u.pipe.arch.core.windowConfig

def mem (u : User C) : Mem 32 := u.pipe.arch.core.mem

def reads (pcfg : PipeCfg) (prog : Nat → StreamInstr) (u : User C) (i : PipeIn) :
    List (Option Word) := if u.trapped then [] else u.pipe.reads pcfg prog i

/-- The code only selects windows by configurations in `S`. -/
def Selects (S : Word → Prop) (u : User C) : UserEvent → Prop
  | .cycle i => ∀ e ∈ (u.pipe.entries.take i.commits).head?,
      e.nextConfig u.config = u.config ∨ S (e.nextConfig u.config)
  | .trap => True

end User

/-- No register of the window is a cell outside `W`, but for cell 0, which is always 0. -/
def Inside (W c : Word) : Prop := ∀ p, p ≠ 0 → Reaches (windowTranslation c) p → InFile W p

instance (W c : Word) : Decidable (Inside W c) :=
  inferInstanceAs (Decidable (∀ p, p ≠ 0 → (∃ r, windowTranslation c r = some p) → InFile W p))

/-- The operation of the entry on the window registers. -/
def Entry.windowOp (e : Entry) : CsrOp 32 :=
  match e.ins with
  | .csr addr (some kind) _ _ _ =>
    if addr = 0x800 then .window kind e.result
    else if addr = 0x801 then .staged kind e.result
    else .none
  | _ => .none

/-- A commit in user mode is a clock edge of the hart. -/
theorem core_clock_commit (cfg : Cfg) (F : CsrFile C) {h h' : Hart 32 32} {i : Input 32 32}
    {a : Arch C} {e : Entry} {es : List Entry} (hcore : h.core = a.core)
    (hop : i.csr.op = e.windowOp) (ht : trapTaken cfg h.csrs i.csr = false)
    (hp : i.ports = (e :: es).map (a.port F)) (hs : clock cfg h i = some h') :
    h'.core = (a.commit F (e :: es)).core := by
  have hcfg : h.csrs.windowConfig = a.core.windowConfig := congrArg Regs.windowConfig hcore
  have hprev : h.csrs.prevWindowConfig = a.core.prevWindowConfig :=
    congrArg Regs.prevWindowConfig hcore
  have hmem : h.mem = a.core.mem := congrArg Regs.mem hcore
  have hstays : i.csr.op ≠ .mret := by
    rw [hop]
    unfold Entry.windowOp
    split
    · split
      · exact nofun
      · split <;> exact nofun
    · exact nofun
  have htaken : windowsTaken cfg h.csrs i.csr =
      ((a.csrOp F e).core.windowConfig, (a.csrOp F e).core.prevWindowConfig) := by
    unfold windowsTaken
    rw [ht, hop]
    obtain ⟨ins, result, store⟩ := e
    cases ins with
    | plain fu p => simp [Entry.windowOp, Arch.csrOp, csrWrite, Csrs.windows, hcfg, hprev]
    | csr addr kind rd rs1 wdata =>
      cases kind with
      | none => simp [Entry.windowOp, Arch.csrOp, csrWrite, Csrs.windows, hcfg, hprev]
      | some kind =>
        by_cases h0 : addr = 0x800
        · simp [Entry.windowOp, Arch.csrOp, Arch.csrUpdate, Arch.csrRdata, csrWrite, Csrs.windows,
            hcfg, hprev, h0]
        · by_cases h1 : addr = 0x801
          · simp [Entry.windowOp, Arch.csrOp, Arch.csrUpdate, Arch.csrRdata, csrWrite, Csrs.windows,
              hcfg, hprev, h1]
          · simp only [Entry.windowOp, Arch.csrOp, Arch.csrUpdate, if_neg h0, if_neg h1]
            simp [csrWrite, Csrs.windows, hcfg, hprev]
  rw [Hart.core_clock cfg hs, windowConfig_cycle cfg _ hstays, htaken, hp, hcfg, hmem]
  rfl

/-- A register file that differs outside `W` only. -/
structure Twin (W : Word) (mem mem' : Mem 32) : Prop where
  cells : ∀ p, InFile W p → mem' p = mem p
  zero : mem 0 = 0
  zero' : mem' 0 = 0

def Arch.withMem (a : Arch C) (mem : Mem 32) : Arch C :=
  { a with core := { a.core with mem := mem } }

def Pipe.withMem (s : Pipe C) (mem : Mem 32) : Pipe C := { s with arch := s.arch.withMem mem }

theorem Arch.windowConfig_commits (F : CsrFile C) (a : Arch C) (es : List Entry) :
    (a.commit F es).core.windowConfig =
      es.head?.elim a.core.windowConfig (Entry.nextConfig a.core.windowConfig) := by
  cases es with
  | nil => rfl
  | cons e es => exact Arch.windowConfig_commit F a e

section
variable {W c : Word} {mem mem' : Mem 32}

theorem Twin.agree (ht : Twin W mem mem') (hi : Inside W c) :
    Agree (windowTranslation c) mem mem' := by
  intro p hp
  by_cases h0 : p = 0
  · rw [h0, ht.zero, ht.zero']
  · exact (ht.cells p (hi p h0 hp)).symm

theorem zero_registerWrite (h0 : mem 0 = 0) (ports : List (WritePort 32)) :
    registerWriteBehavioral true c mem ports 0 = 0 := by
  unfold registerWriteBehavioral
  induction ports generalizing mem with
  | nil => exact h0
  | cons port ports ih => exact ih (by simp)

theorem Inside.registerWrite (hi : Inside W c) (h0 : mem 0 = 0) (ports : List (WritePort 32))
    {p : PhysReg} (hp : ¬ InFile W p) : registerWriteBehavioral true c mem ports p = mem p := by
  by_cases hz : p = 0
  · rw [hz, zero_registerWrite h0, h0]
  · exact registerWriteBehavioral_outside true (fun hr => hp (hi p hz hr)) (fun _ => hz) ports

theorem Twin.registerWrite (ht : Twin W mem mem') (hi : Inside W c) (ports : List (WritePort 32)) :
    Twin W (registerWriteBehavioral true c mem ports)
      (registerWriteBehavioral true c mem' ports) := by
  refine ⟨fun p hp => ?_, zero_registerWrite ht.zero ports, zero_registerWrite ht.zero' ports⟩
  by_cases hz : p = 0
  · rw [hz, zero_registerWrite ht.zero, zero_registerWrite ht.zero']
  · by_cases hr : Reaches (windowTranslation c) p
    · exact (registerWriteBehavioral_agree true (ht.agree hi) ports p hr).symm
    · rw [registerWriteBehavioral_outside true hr (fun _ => hz),
        registerWriteBehavioral_outside true hr (fun _ => hz)]
      exact ht.cells p hp

end

theorem Arch.commit_withMem (F : CsrFile C) (a : Arch C) (mem : Mem 32) (es : List Entry) :
    (a.withMem mem).commit F es = (a.commit F es).withMem
      (registerWriteBehavioral true a.core.windowConfig mem (es.map (a.port F))) := by
  cases es with
  | nil => rfl
  | cons e es =>
    have hport : (a.withMem mem).port F = a.port F := by
      funext f
      unfold Arch.port
      cases f.ins <;> rfl
    obtain ⟨ins, result, store⟩ := e
    unfold Arch.commit
    rw [hport]
    cases ins with
    | plain => rfl
    | csr addr kind rd rs1 wdata =>
      cases kind with
      | none => rfl
      | some kind =>
        simp only [Arch.csrOp, Arch.csrUpdate]
        by_cases h0 : addr = 0x800
        · simp only [h0, if_true]
          rfl
        · by_cases h1 : addr = 0x801
          · simp only [h1, if_true]
            rfl
          · simp only [h0, h1, if_false]
            rfl

namespace Pipe
variable {pcfg : PipeCfg} {F : CsrFile C} {prog : Nat → StreamInstr} {s : Pipe C} {i : PipeIn}
  {W : Word} {mem : Mem 32}

/-- A pipeline whose active window is inside `W`, and registers that may stand in for its own. -/
structure Blind (W : Word) (s : Pipe C) (mem : Mem 32) : Prop where
  inside : Inside W s.arch.core.windowConfig
  twin : Twin W s.arch.core.mem mem

theorem Blind.x_eq (h : s.Blind W mem) (r : Reg) : (s.withMem mem).arch.x r = s.arch.x r :=
  (rdata_congr true (h.twin.agree h.inside) r).symm

/-- Forwarding compares register numbers, and a register that is read is in the window. -/
theorem Blind.operand (h : s.Blind W mem) (writeback : Nat → Bool) (r : Reg) :
    (s.withMem mem).operand pcfg writeback r = s.operand pcfg writeback r := by
  have hraw : (s.withMem mem).rawChecker pcfg r = s.rawChecker pcfg r := rfl
  unfold Pipe.operand
  rw [hraw, h.x_eq]
  rfl

theorem Blind.operandSecond (h : s.Blind W mem) (writeback : Nat → Bool) (first : Entry)
    (ins : StreamInstr) (r : Reg) : (s.withMem mem).operandSecond pcfg writeback first ins r =
      s.operandSecond pcfg writeback first ins r := by
  unfold Pipe.operandSecond
  rw [h.operand]

theorem Blind.issueFirst (h : s.Blind W mem) (ins : StreamInstr) :
    (s.withMem mem).issueFirst pcfg i ins = s.issueFirst pcfg i ins := by
  unfold Pipe.issueFirst
  rw [h.operand, h.operand]
  rfl

theorem Blind.issueSecond (h : s.Blind W mem) (first : Entry) (ins : StreamInstr) :
    (s.withMem mem).issueSecond pcfg i first ins = s.issueSecond pcfg i first ins := by
  unfold Pipe.issueSecond
  rw [h.operandSecond, h.operandSecond]
  rfl

theorem Blind.issue (h : s.Blind W mem) :
    (s.withMem mem).issue pcfg prog i = s.issue pcfg prog i := by
  have hnext : (s.withMem mem).next = s.next := rfl
  have hsb : (s.withMem mem).sb = s.sb := rfl
  simp only [Pipe.issue, hnext, hsb, h.issueFirst, h.issueSecond]

theorem Blind.reads (h : s.Blind W mem) :
    (s.withMem mem).reads pcfg prog i = s.reads pcfg prog i := by
  have hnext : (s.withMem mem).next = s.next := rfl
  simp only [Pipe.reads, hnext, h.operand, h.operandSecond, h.issueFirst]

theorem Blind.cycle (h : s.Blind W mem) {s' : Pipe C} (hs : s.cycle pcfg F prog i = some s') :
    s'.arch = s.arch.commit F (s.entries.take i.commits) ∧
      (s.withMem mem).cycle pcfg F prog i = some (s'.withMem
        (registerWriteBehavioral true s.arch.core.windowConfig mem
          ((s.entries.take i.commits).map (s.arch.port F)))) := by
  have hentries : (s.withMem mem).entries = s.entries := rfl
  have hflush : (s.withMem mem).flush F i = s.flush F i := rfl
  have hsb : (s.withMem mem).sb = s.sb := rfl
  have hcommit := Arch.commit_withMem F s.arch mem (s.entries.take i.commits)
  unfold Pipe.cycle at hs ⊢
  rw [hsb, hflush, hentries, h.issue]
  split at hs
  case isFalse => cases hs
  rename_i hadmit
  rw [if_pos hadmit]
  split at hs
  · rename_i hfl
    cases hs
    refine ⟨rfl, ?_⟩
    rw [if_pos hfl, show (s.withMem mem).arch.commit F _ = _ from hcommit]
    rfl
  · rename_i hfl
    obtain ⟨new, hnew, hs⟩ := Option.bind_eq_some_iff.mp hs
    cases hs
    refine ⟨rfl, ?_⟩
    rw [if_neg hfl, hnew, show (s.withMem mem).arch.commit F _ = _ from hcommit]
    rfl

end Pipe

namespace User
variable {pcfg : PipeCfg} {cfg : Cfg} {F : CsrFile C} {prog : Nat → StreamInstr} {W : Word}
  {u u' v : User C}

/-- Two runs that only the cells outside `W` tell apart. -/
structure SameInside (W : Word) (u u' : User C) : Prop where
  same : u' = { u with pipe := u.pipe.withMem u'.mem }
  twin : Twin W u.mem u'.mem
  inside : u.trapped = false → Inside W u.config

theorem SameInside.reads_eq (h : SameInside W u u') (i : PipeIn) :
    u'.reads pcfg prog i = u.reads pcfg prog i := by
  rw [h.same]
  unfold User.reads
  cases ht : u.trapped with
  | true => rfl
  | false =>
    have hb : u.pipe.Blind W u'.mem := ⟨h.inside ht, h.twin⟩
    exact hb.reads

theorem SameInside.step (h : SameInside W u u') {e : UserEvent} (hs : u.Selects (Inside W) e)
    (hv : u.step pcfg cfg F prog e = some v) :
    ∃ v', u'.step pcfg cfg F prog e = some v' ∧ SameInside W v v' ∧
      ∀ p, ¬ InFile W p → v.mem p = u.mem p ∧ v'.mem p = u'.mem p := by
  have ht : u.trapped = false := by
    cases e with
    | cycle | trap =>
      by_contra ht
      simp [User.step, ht] at hv
  have hin := h.inside ht
  have htwin := h.twin
  have hsame := h.same
  obtain ⟨mem, hmem⟩ : ∃ mem, mem = u'.mem := ⟨_, rfl⟩
  rw [← hmem] at htwin hsame ⊢
  subst hsame
  cases e with
  | cycle i =>
    simp only [User.step] at hv
    split at hv
    case isFalse => cases hv
    rename_i hg
    obtain ⟨s, hcycle, rfl⟩ := Option.map_eq_some_iff.mp hv
    have hb : u.pipe.Blind W mem := ⟨hin, htwin⟩
    obtain ⟨harch, hcycle'⟩ := hb.cycle hcycle
    have hports : s.arch.core.mem = registerWriteBehavioral true u.pipe.arch.core.windowConfig
        u.pipe.arch.core.mem ((u.pipe.entries.take i.commits).map (u.pipe.arch.port F)) := by
      rw [harch]
      rfl
    refine ⟨{ u with
      pipe := s.withMem (registerWriteBehavioral true u.pipe.arch.core.windowConfig mem
        ((u.pipe.entries.take i.commits).map (u.pipe.arch.port F))) }, ?_,
      ⟨rfl, ?_, fun _ => ?_⟩, fun p hp => ⟨?_, hin.registerWrite htwin.zero' _ hp⟩⟩
    · have hguard : u.trapped = false ∧
          ((u.pipe.withMem mem).entries.take i.commits).all (Entry.permitted cfg) = true := hg
      simp only [User.step, if_pos hguard, hcycle', Option.map_some]
    · have hrest := htwin.registerWrite hin
        ((u.pipe.entries.take i.commits).map (u.pipe.arch.port F))
      simp only [User.mem, hports]
      exact hrest
    · change Inside W s.arch.core.windowConfig
      rw [harch, Arch.windowConfig_commits]
      cases he : (u.pipe.entries.take i.commits).head? with
      | none => exact hin
      | some e =>
        rcases hs e he with hkeep | hsel
        · change Inside W (e.nextConfig u.config)
          rw [hkeep]
          exact hin
        · exact hsel
    · change s.arch.core.mem p = u.mem p
      rw [hports]
      exact hin.registerWrite htwin.zero _ hp
  | trap =>
    simp only [User.step, ht, if_true] at hv ⊢
    cases hv
    exact ⟨_, rfl, ⟨rfl, htwin, nofun⟩, fun _ _ => ⟨rfl, rfl⟩⟩

theorem SameInside.run (h : SameInside W u u') {es : List UserEvent}
    (hs : Along (User.step pcfg cfg F prog) (Selects (Inside W)) u es)
    (hv : run (User.step pcfg cfg F prog) u es = some v) :
    ∃ v', run (User.step pcfg cfg F prog) u' es = some v' ∧ SameInside W v v' ∧
      ∀ p, ¬ InFile W p → v.mem p = u.mem p ∧ v'.mem p = u'.mem p := by
  induction es generalizing u u' with
  | nil =>
    cases hv
    exact ⟨u', rfl, h, fun _ _ => ⟨rfl, rfl⟩⟩
  | cons e es ih =>
    obtain ⟨t, ht, hv⟩ := run_cons.mp hv
    obtain ⟨t', ht', hsame, hout⟩ := h.step hs.1 ht
    obtain ⟨v', hv', hsame', hout'⟩ := ih hsame (hs.2 t ht) hv
    refine ⟨v', run_cons.mpr ⟨t', ht', hv'⟩, hsame', fun p hp => ?_⟩
    exact ⟨((hout' p hp).1).trans (hout p hp).1, ((hout' p hp).2).trans (hout p hp).2⟩

theorem sameInside_enter {csrs : C} {data : Word → Word} {mem mem' : Mem 32}
    (ht : Twin W mem mem') : SameInside W (enter W csrs data mem) (enter W csrs data mem') :=
  ⟨rfl, ht, fun _ _ _ hp => .of_reaches hp⟩

/-- A run of the code changes no register outside `W`, and one that differs only there reads the
same registers after it. -/
structure Confined (pcfg : PipeCfg) (cfg : Cfg) (F : CsrFile C) (prog : Nat → StreamInstr)
    (W : Word) (csrs : C) (data : Word → Word) (mem : Mem 32) (es : List UserEvent) (u : User C) :
    Prop where
  outside : ∀ p, ¬ InFile W p → u.mem p = mem p
  blind : ∀ mem', Twin W mem mem' →
    ∃ u', run (User.step pcfg cfg F prog) (enter W csrs data mem') es = some u' ∧
      (∀ p, ¬ InFile W p → u'.mem p = mem' p) ∧ ∀ i, u'.reads pcfg prog i = u.reads pcfg prog i

theorem confined_of_inside {csrs : C} {data : Word → Word} {mem : Mem 32} (h0 : mem 0 = 0)
    {es : List UserEvent}
    (hs : Along (User.step pcfg cfg F prog) (Selects (Inside W)) (enter W csrs data mem) es)
    (hu : run (User.step pcfg cfg F prog) (enter W csrs data mem) es = some u) :
    Confined pcfg cfg F prog W csrs data mem es u where
  outside p hp := by
    have hself : SameInside W (enter W csrs data mem) (enter W csrs data mem) :=
      sameInside_enter ⟨fun _ _ => rfl, h0, h0⟩
    obtain ⟨_, _, _, hout⟩ := hself.run hs hu
    exact (hout p hp).1
  blind mem' ht := by
    have hsame : SameInside W (enter W csrs data mem) (enter W csrs data mem') :=
      sameInside_enter ht
    obtain ⟨u', hu', hsame', hout⟩ := hsame.run hs hu
    exact ⟨u', hu', fun p hp => (hout p hp).2, fun i => hsame'.reads_eq i⟩

/-- `lw t1, 0(x0)`, `csrw 0x800, t1`, `addi r, x0, 1`. -/
def escape (r : Reg) : Nat → StreamInstr
  | 0 => .plain .load ⟨0, 0, 6, fun _ _ => 0, fun _ _ => none, fun _ _ v => v⟩
  | 1 => .csr 0x800 (some .write) 0 6 id
  | 2 => aluInstr r 0 0 fun a _ => a + 1
  | _ => aluInstr 0 0 0 fun _ _ => 0

/-- The address is forwarded to the `csrw`, which commits behind the load. -/
def escapeSelect : List UserEvent :=
  [.cycle ⟨fun _ => true, 0, 1⟩, .cycle ⟨fun _ => true, 0, 1⟩, .cycle ⟨fun _ => true, 1, 0⟩,
    .cycle ⟨fun _ => true, 1, 0⟩]

def escapeWrite : List UserEvent :=
  [.cycle ⟨fun _ => true, 0, 1⟩, .cycle ⟨fun _ => true, 0, 0⟩, .cycle ⟨fun _ => true, 1, 0⟩]

/-- The `addi` is issued behind the commit of the `csrw`. -/
def escapeRun : List UserEvent := escapeSelect ++ escapeWrite

/-- What is in flight, and what is committed. -/
structure At (pcfg : PipeCfg) (u : User C) (sb : List SbEntry) (a : Arch C) (n : Nat) : Prop where
  trapped : u.trapped = false
  sb : u.pipe.sb = sb
  arch : u.pipe.arch = a
  retired : u.pipe.retired = n
  ordered : u.pipe.Ordered pcfg

/-- Written back. -/
def SbEntry.done (e : SbEntry) : SbEntry := { e with valid := true }

theorem mapIdx_written (s : Pipe C) (n k : Nat) (l : List SbEntry) :
    l.mapIdx (s.written pcfg ⟨fun _ => true, n, k⟩) = l.map SbEntry.done := by
  apply List.ext_getElem
  · rw [List.length_mapIdx, List.length_map]
  · intro j hj hj'
    rw [List.getElem_mapIdx, List.getElem_map, Pipe.written, Bool.or_true]
    rfl

namespace At
variable {sb : List SbEntry} {a : Arch C} {n : Nat}

theorem commit {e : SbEntry} (h : At pcfg u (e :: sb) a n) (hv : e.valid = true)
    (hp : e.permitted cfg = true) (hf : e.flushes F = false) :
    ∃ v, u.step pcfg cfg F prog (.cycle ⟨fun _ => true, 1, 0⟩) = some v ∧
      At pcfg v (sb.map SbEntry.done) (a.commit F [e.toEntry]) (n + 1) := by
  have hentries : u.pipe.entries = e.toEntry :: sb.map SbEntry.toEntry := by
    rw [Pipe.entries, h.sb, List.map_cons]
  have hflush : u.pipe.flush F ⟨fun _ => true, 1, 0⟩ = false := by
    simp [Pipe.flush, hentries, hf]
  have hissue : u.pipe.issue pcfg prog ⟨fun _ => true, 1, 0⟩ = some [] := by
    unfold Pipe.issue
    exact if_pos h.ordered.room
  have hlen : 1 ≤ u.pipe.sb.length := by
    rw [h.sb, List.length_cons]
    omega
  have hack : Pipe.commitAck pcfg (u.pipe.sb.take 1) = true := by
    rw [h.sb]
    exact hv
  have hg : u.trapped = false ∧ (u.pipe.entries.take 1).all (Entry.permitted cfg) = true := by
    rw [hentries]
    simp [h.trapped, hp]
  obtain ⟨s, hs⟩ : ∃ s : Pipe C, s = {
      arch := a.commit F [e.toEntry]
      sb := sb.map SbEntry.done
      commitPointer := Ring.slot pcfg.nrSbEntries u.pipe.commitPointer 1
      retired := n + 1 } := ⟨_, rfl⟩
  have hcycle : u.pipe.cycle pcfg F prog ⟨fun _ => true, 1, 0⟩ = some s := by
    rw [Pipe.cycle, if_pos ⟨hlen, hack⟩, hflush, if_neg (by decide), hissue, hs, mapIdx_written]
    simp [hentries, h.sb, h.arch, h.retired]
  refine ⟨⟨s, u.trapped⟩, ?_, h.trapped, by rw [hs], by rw [hs], by rw [hs],
    Pipe.step_ordered h.ordered hcycle⟩
  simp only [User.step, if_pos hg, hcycle, Option.map_some]

theorem issue {new : List Entry} {k : Nat} (h : At pcfg u sb a n)
    (hissue : u.pipe.issue pcfg prog ⟨fun _ => true, 0, k⟩ = some new) :
    ∃ v, u.step pcfg cfg F prog (.cycle ⟨fun _ => true, 0, k⟩) = some v ∧
      At pcfg v (sb.map SbEntry.done ++ new.map fun e => ⟨e, false⟩) a n := by
  obtain ⟨s, hs⟩ : ∃ s : Pipe C, s = {
      arch := a
      sb := sb.map SbEntry.done ++ new.map fun e => ⟨e, false⟩
      commitPointer := Ring.slot pcfg.nrSbEntries u.pipe.commitPointer 0
      retired := n } := ⟨_, rfl⟩
  have hflush : u.pipe.flush F ⟨fun _ => true, 0, k⟩ = false := rfl
  have hcycle : u.pipe.cycle pcfg F prog ⟨fun _ => true, 0, k⟩ = some s := by
    rw [Pipe.cycle, if_pos ⟨Nat.zero_le _, rfl⟩, hflush, if_neg (by decide), hissue, hs]
    have hnone : a.commit F [] = a := rfl
    simp [mapIdx_written, h.sb, h.arch, h.retired, hnone]
  have hg : u.trapped = false ∧ (u.pipe.entries.take 0).all (Entry.permitted cfg) = true :=
    ⟨h.trapped, rfl⟩
  refine ⟨⟨s, u.trapped⟩, ?_, h.trapped, by rw [hs], by rw [hs], by rw [hs],
    Pipe.step_ordered h.ordered hcycle⟩
  simp only [User.step, if_pos hg, hcycle, Option.map_some]

end At

variable {csrs : C} {W c : Word} {S : Word → Prop}

theorem at_enter (data : Word → Word) (mem : Mem 32) :
    At pcfg (enter W csrs data mem) [] ⟨⟨W, W, mem⟩, csrs, data⟩ 0 :=
  ⟨rfl, rfl, rfl, rfl, pcfg.entries_pos, Nat.zero_le _⟩

theorem At.issue_plain {a : Arch C} {n : Nat} {fu : Fu} {ins : PlainInstr}
    (h : At pcfg u [] a n) (hn : prog n = .plain fu ins) (h1 : ins.rs1 = 0) (h2 : ins.rs2 = 0) :
    u.pipe.issue pcfg prog ⟨fun _ => true, 0, 1⟩ =
      some [StreamInstr.execute (.plain fu ins) 0 0 a.data] := by
  have hx (wb : Nat → Bool) : u.pipe.operand pcfg wb 0 = some 0 := by
    simp [Pipe.operand, Pipe.rawChecker, Arch.x_zero]
  have hready : u.pipe.csrReady 0 = true := by simp [Pipe.csrReady, h.sb]
  have hbusy : u.pipe.fuBusy pcfg 0 (.plain fu ins) = false := by
    cases fu <;> simp [Pipe.fuBusy, hready]
  have hview : u.pipe.lsuView = a.data := by simp [Pipe.lsuView, Pipe.entries, h.sb, h.arch]
  have hroom : u.pipe.sb.length + 1 ≤ pcfg.nrSbEntries := by
    rw [h.sb]
    exact pcfg.entries_pos
  have hnext : prog u.pipe.next = .plain fu ins := by
    rw [Pipe.next, h.sb, h.retired]
    exact hn
  have hfirst : u.pipe.issueFirst pcfg ⟨fun _ => true, 0, 1⟩ (.plain fu ins) =
      some (StreamInstr.execute (.plain fu ins) 0 0 a.data) := by
    simp [Pipe.issueFirst, hbusy, StreamInstr.rs1, StreamInstr.rs2, h1, h2, hx, hview]
  simp [Pipe.issue, hroom, hnext, hfirst]

theorem At.issue_csr {a : Arch C} {n : Nat} {e : SbEntry} {addr : BitVec 12} {kind : Option CsrKind}
    {rd : Reg} (h : At pcfg u [e] a n) (hnr : 2 ≤ pcfg.nrSbEntries)
    (hn : prog (n + 1) = .csr addr kind rd e.ins.rd id) (he : e.ins.isCsr = false)
    (h0 : e.ins.rd ≠ 0) : u.pipe.issue pcfg prog ⟨fun _ => true, 0, 1⟩ =
      some [StreamInstr.execute (.csr addr kind rd e.ins.rd id) e.result 0 a.data] := by
  have hx (wb : Nat → Bool) : u.pipe.operand pcfg wb 0 = some 0 := by
    simp [Pipe.operand, Pipe.rawChecker, Arch.x_zero]
  have hentries : u.pipe.entries = [e.toEntry] := by rw [Pipe.entries, h.sb, List.map_singleton]
  have hforward : u.pipe.operand pcfg (fun _ => true) e.ins.rd = some e.result := by
    unfold Pipe.operand
    cases hraw : u.pipe.rawChecker pcfg e.ins.rd with
    | none => exact absurd rfl (h.ordered.rawChecker_none h0 hraw e.toEntry (by simp [hentries]))
    | some j =>
      obtain ⟨-, f, es, fs, hf, hes, -, -⟩ := h.ordered.rawChecker_some hraw
      have hfe : f.toEntry = e.toEntry := by
        have hmem : f.toEntry ∈ u.pipe.entries := by simp [hes]
        rw [hentries] at hmem
        exact List.mem_singleton.mp hmem
      simp [hf, hfe, he]
  have hbusy : u.pipe.fuBusy pcfg 0 (.csr addr kind rd e.ins.rd id) = false := by
    simp [Pipe.fuBusy, Pipe.csrReady, h.sb, he]
  have hroom : u.pipe.sb.length + 1 ≤ pcfg.nrSbEntries := by
    rw [h.sb]
    exact hnr
  have hnext : prog u.pipe.next = .csr addr kind rd e.ins.rd id := by
    rw [Pipe.next, h.sb, h.retired]
    exact hn
  have hfirst : u.pipe.issueFirst pcfg ⟨fun _ => true, 0, 1⟩ (.csr addr kind rd e.ins.rd id) =
      some (StreamInstr.execute (.csr addr kind rd e.ins.rd id) e.result 0 a.data) := by
    simp [Pipe.issueFirst, hbusy, StreamInstr.rs1, StreamInstr.rs2, hx, hforward,
      StreamInstr.execute]
  simp [Pipe.issue, hroom, hnext, hfirst]

theorem selects_issue (k : Nat) : u.Selects S (.cycle ⟨fun _ => true, 0, k⟩) := nofun

theorem At.selects {e : SbEntry} {sb : List SbEntry} {a : Arch C} {n : Nat}
    (h : At pcfg u (e :: sb) a n)
    (hs : e.nextConfig a.core.windowConfig = a.core.windowConfig ∨
      S (e.nextConfig a.core.windowConfig)) :
    u.Selects S (.cycle ⟨fun _ => true, 1, 0⟩) := by
  intro f hf
  have hfe : f = e.toEntry := by
    simp only [Pipe.entries, h.sb, List.map_cons, List.take_succ_cons, List.head?_cons,
      Option.mem_some_iff] at hf
    exact hf.symm
  rw [hfe, User.config, h.arch]
  exact hs

theorem escape_selects (pcfg : PipeCfg) (cfg : Cfg) (F : CsrFile C) (csrs : C) (W : Word)
    (hnr : 2 ≤ pcfg.nrSbEntries) (r : Reg) (hS : S c) (mem : Mem 32) :
    ∃ u b, run (User.step pcfg cfg F (escape r)) (enter W csrs (fun _ => c) mem) escapeSelect =
        some u ∧
      Along (User.step pcfg cfg F (escape r)) (Selects S) (enter W csrs (fun _ => c) mem)
        escapeSelect ∧
      At pcfg u [] b 2 ∧ b.core.windowConfig = c := by
  obtain ⟨u₀, hu₀⟩ : ∃ u : User C, u = enter W csrs (fun _ => c) mem := ⟨_, rfl⟩
  obtain ⟨a, ha⟩ : ∃ a : Arch C, a = ⟨⟨W, W, mem⟩, csrs, fun _ => c⟩ := ⟨_, rfl⟩
  obtain ⟨e₀, he₀⟩ : ∃ e : Entry, e = ⟨escape r 0, c, none⟩ := ⟨_, rfl⟩
  obtain ⟨e₁, he₁⟩ : ∃ e : Entry, e = ⟨escape r 1, c, none⟩ := ⟨_, rfl⟩
  have h₀ : At pcfg u₀ [] a 0 := by
    rw [hu₀, ha]
    exact at_enter _ mem
  -- the load, with `c` in memory
  have hn₀ :
    escape r 0 = .plain .load ⟨0, 0, 6, fun _ _ => 0, fun _ _ => none, fun _ _ v => v⟩ := rfl
  have hi₀ : u₀.pipe.issue pcfg (escape r) ⟨fun _ => true, 0, 1⟩ = some [e₀] := by
    rw [h₀.issue_plain hn₀ rfl rfl, he₀, ha]
    rfl
  obtain ⟨u₁, hs₁, h₁⟩ : ∃ v, u₀.step pcfg cfg F (escape r) (.cycle ⟨fun _ => true, 0, 1⟩) =
      some v ∧
      At pcfg v [⟨e₀, false⟩] a 0 := h₀.issue hi₀
  -- the `csrw`, to which `c` is forwarded
  have hn₁ : escape r 1 = .csr 0x800 (some .write) 0 e₀.ins.rd id := by
    rw [he₀]
    rfl
  have hi₁ : u₁.pipe.issue pcfg (escape r) ⟨fun _ => true, 0, 1⟩ = some [e₁] := by
    have h6 : e₀.ins.rd ≠ 0 := by
      rw [he₀]
      exact (by decide : (6 : Reg) ≠ 0)
    rw [h₁.issue_csr hnr hn₁ (by rw [he₀]; rfl) h6, he₁, he₀]
    rfl
  obtain ⟨u₂, hs₂, h₂⟩ : ∃ v, u₁.step pcfg cfg F (escape r) (.cycle ⟨fun _ => true, 0, 1⟩) =
      some v ∧
      At pcfg v [⟨e₀, true⟩, ⟨e₁, false⟩] a 0 := h₁.issue hi₁
  -- both commit
  obtain ⟨u₃, hs₃, h₃⟩ : ∃ v, u₂.step pcfg cfg F (escape r) (.cycle ⟨fun _ => true, 1, 0⟩) =
      some v ∧
      At pcfg v [⟨e₁, true⟩] (a.commit F [e₀]) 1 :=
    h₂.commit rfl (by rw [he₀]; rfl) (by rw [he₀]; rfl)
  have hallowed : e₁.permitted cfg = true := by
    have hcheck := not_privilegeViolation cfg privLvlU false .active
    rw [he₁, Entry.permitted]
    exact congrArg (!·) hcheck
  obtain ⟨u₄, hs₄, h₄⟩ : ∃ v, u₃.step pcfg cfg F (escape r) (.cycle ⟨fun _ => true, 1, 0⟩) =
      some v ∧
      At pcfg v [] ((a.commit F [e₀]).commit F [e₁]) 2 :=
    h₃.commit rfl hallowed (by rw [he₁]; rfl)
  have hW : (a.commit F [e₀]).core.windowConfig = W := by
    rw [Arch.windowConfig_commit, he₀, ha]
    rfl
  have hc : e₁.nextConfig W = c := by
    rw [he₁]
    rfl
  have hplain : e₀.nextConfig a.core.windowConfig = a.core.windowConfig := by
    rw [he₀]
    rfl
  rw [← hu₀]
  refine ⟨u₄, _, ?_, ?_, h₄, by rw [Arch.windowConfig_commit, hW, hc]⟩
  · exact run_cons.mpr ⟨u₁, hs₁, run_cons.mpr ⟨u₂, hs₂, run_cons.mpr ⟨u₃, hs₃, run_cons.mpr
      ⟨u₄, hs₄, rfl⟩⟩⟩⟩
  · refine .cons (selects_issue 1) hs₁ (.cons (selects_issue 1) hs₂
      (.cons (h₂.selects (Or.inl hplain)) hs₃ (.cons (h₃.selects (Or.inr ?_)) hs₄ trivial)))
    rw [hW, hc]
    exact hS

theorem At.escape_write (cfg : Cfg) (F : CsrFile C) {r : Reg} {p : PhysReg} {b : Arch C}
    (h : At pcfg u [] b 2) (hr : windowTranslation b.core.windowConfig r = some p) (hp : p ≠ 0) :
    ∃ v, run (User.step pcfg cfg F (escape r)) u escapeWrite = some v ∧
      Along (User.step pcfg cfg F (escape r)) (Selects S) u escapeWrite ∧ v.mem p = 1 := by
  obtain ⟨e, he⟩ : ∃ e : Entry, e = ⟨escape r 2, 1, none⟩ := ⟨_, rfl⟩
  have hn : escape r 2 = .plain .alu
    ⟨0, 0, r, fun _ _ => 0, fun _ _ => none, fun a b _ => (fun a _ => a + 1) a b⟩ := rfl
  have hi : u.pipe.issue pcfg (escape r) ⟨fun _ => true, 0, 1⟩ = some [e] := by
    rw [h.issue_plain hn rfl rfl, he]
    rfl
  obtain ⟨u₁, hs₁, h₁⟩ : ∃ v, u.step pcfg cfg F (escape r) (.cycle ⟨fun _ => true, 0, 1⟩) = some v ∧
      At pcfg v [⟨e, false⟩] b 2 := h.issue hi
  have hi₁ : u₁.pipe.issue pcfg (escape r) ⟨fun _ => true, 0, 0⟩ = some [] := by
    unfold Pipe.issue
    exact if_pos h₁.ordered.room
  obtain ⟨u₂, hs₂, h₂⟩ : ∃ v, u₁.step pcfg cfg F (escape r) (.cycle ⟨fun _ => true, 0, 0⟩) =
      some v ∧
      At pcfg v [⟨e, true⟩] b 2 := h₁.issue hi₁
  obtain ⟨u₃, hs₃, h₃⟩ : ∃ v, u₂.step pcfg cfg F (escape r) (.cycle ⟨fun _ => true, 1, 0⟩) =
      some v ∧
      At pcfg v [] (b.commit F [e]) 3 :=
    h₂.commit rfl (by rw [he]; rfl) (by rw [he]; rfl)
  have hplain : e.nextConfig b.core.windowConfig = b.core.windowConfig := by
    rw [he]
    rfl
  refine ⟨u₃, ?_, ?_, ?_⟩
  · exact run_cons.mpr ⟨u₁, hs₁, run_cons.mpr ⟨u₂, hs₂, run_cons.mpr ⟨u₃, hs₃, rfl⟩⟩⟩
  · exact .cons (selects_issue 1) hs₁ (.cons (selects_issue 0) hs₂
      (.cons (h₂.selects (Or.inl hplain)) hs₃ trivial))
  · rw [User.mem, h₃.arch, Arch.mem_commit, he]
    exact (writeReg_apply _ _ _ hp).trans (if_pos hr)

/-- The escape selects `c` and writes a register there. -/
theorem escape_writes (pcfg : PipeCfg) (cfg : Cfg) (F : CsrFile C) (csrs : C) (W : Word)
    (hnr : 2 ≤ pcfg.nrSbEntries) {r : Reg} {p : PhysReg} (hr : windowTranslation c r = some p)
    (hp : p ≠ 0) (hS : S c) (mem : Mem 32) :
    Along (User.step pcfg cfg F (escape r)) (Selects S) (enter W csrs (fun _ => c) mem) escapeRun ∧
      ∃ u, run (User.step pcfg cfg F (escape r)) (enter W csrs (fun _ => c) mem) escapeRun =
        some u ∧
        u.mem p = 1 := by
  obtain ⟨u, b, hu, hal, hat, hbc⟩ := escape_selects pcfg cfg F csrs W hnr r hS mem
  obtain ⟨v, hv, hal', hone⟩ := hat.escape_write (S := S) cfg F (hbc.symm ▸ hr) hp
  exact ⟨hal.append hu hal', v, run_append.mpr ⟨u, hu, hv⟩, hone⟩

/-- All code whose choices of a window are in `S` is confined to `W`, in every run up to its trap,
exactly if no configuration in `S` has a register outside `W`. -/
theorem confined_iff (pcfg : PipeCfg) (hnr : 2 ≤ pcfg.nrSbEntries) (cfg : Cfg) (F : CsrFile C)
    (csrs : C) (W : Word) (S : Word → Prop) :
    (∀ prog data mem es u, mem 0 = 0 →
      Along (User.step pcfg cfg F prog) (Selects S) (enter W csrs data mem) es →
      run (User.step pcfg cfg F prog) (enter W csrs data mem) es = some u →
      Confined pcfg cfg F prog W csrs data mem es u) ↔ ∀ c, S c → Inside W c := by
  constructor
  · rintro h c hS p hp ⟨r, hr⟩
    by_contra hout
    obtain ⟨hs, u, hu, hone⟩ := escape_writes pcfg cfg F csrs W hnr hr hp hS fun _ => 0
    have hkept := (h _ _ _ _ u rfl hs hu).outside p hout
    rw [hone] at hkept
    exact absurd hkept (by decide)
  · intro hS prog data mem es u h0 hs hu
    refine confined_of_inside h0 (hs.mono fun v e hv => ?_) hu
    cases e with
    | cycle i => exact fun f hf => (hv f hf).imp id (hS _)
    | trap => trivial

/-- Code that only narrows the window of cells 32 to 47 to its upper half. -/
theorem narrowed_confined :
    ∃ u, run (User.step cv32a6Pipe cv32a6ImacSv32 noCsrs (escape 5))
        (enter 0x00100020 () (fun _ => 0x00080028) fun _ => 0) escapeRun = some u ∧ u.mem 45 = 1 ∧
      Confined cv32a6Pipe cv32a6ImacSv32 noCsrs (escape 5) 0x00100020 () (fun _ => 0x00080028)
        (fun _ => 0) escapeRun u := by
  obtain ⟨hs, u, hu, hone⟩ := escape_writes (S := (· = 0x00080028)) cv32a6Pipe
    cv32a6ImacSv32 noCsrs () 0x00100020 (by decide)
    (by decide : windowTranslation 0x00080028 5 = some 45) (by decide) rfl fun _ => 0
  refine ⟨u, hu, hone, ?_⟩
  refine (confined_iff cv32a6Pipe (by decide) cv32a6ImacSv32 noCsrs () 0x00100020
    (· = 0x00080028)).mpr ?_ _ _ _ _ u rfl hs hu
  rintro c rfl
  decide +kernel

/-- From that window the configuration of the kernel reaches the kernel's `t0`. -/
theorem escape_not_confined :
    ∃ u, run (User.step cv32a6Pipe cv32a6ImacSv32 noCsrs (escape 5))
        (enter 0x00100020 () (fun _ => 0x00200000) fun _ => 0) escapeRun = some u ∧
      ¬ Confined cv32a6Pipe cv32a6ImacSv32 noCsrs (escape 5) 0x00100020 () (fun _ => 0x00200000)
        (fun _ => 0) escapeRun u := by
  have hfacts : (run (User.step cv32a6Pipe cv32a6ImacSv32 noCsrs (escape 5))
      (enter 0x00100020 () (fun _ => 0x00200000) fun _ => 0) escapeRun).map (·.mem 5) = some 1 := by
    decide +kernel
  obtain ⟨u, hu, hone⟩ := Option.map_eq_some_iff.mp hfacts
  refine ⟨u, hu, fun hc => ?_⟩
  have hkept := hc.outside 5 (by decide)
  rw [hone] at hkept
  exact absurd hkept (by decide)

end User

end RegisterWindows.Cva6
