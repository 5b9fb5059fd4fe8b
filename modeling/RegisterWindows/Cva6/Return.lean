import RegisterWindows.Cva6.Hart
import RegisterWindows.Cva6.Interference

namespace RegisterWindows.Cva6
open Runs View

variable {w d : Nat} {cfg : Cfg}

inductive TrapTarget where
  | machine
  | supervisor
  | debug
deriving DecidableEq, Repr

/-- Where a trap goes: an `ebreak` may enter debug mode, whatever its delegation. -/
def trapTarget (cfg : Cfg) (q : Csrs w) (i : CycleIn w) : TrapTarget :=
  if cfg.DebugEn && i.exCause == breakpoint && ebreakEnters cfg q q then .debug
  else if (trapTo cfg q i.exCause).1 = privLvlM then .machine
  else .supervisor

/-- The instruction that returns from there. -/
def TrapTarget.ret : TrapTarget → CsrOp w
  | .machine => .mret
  | .supervisor => .sret
  | .debug => .dret

/-- A trap taken in `h` at the edge `i`, its handler, and in `h'` the end of the return that
matches the trap's target. The trapping instruction commits no register. -/
structure Handled (cfg : Cfg) (h : Hart w d) (i : Input w d) (h' : Hart w d) : Prop where
  taken : trapTaken cfg h.csrs i.csr = true
  stays : i.csr.op ≠ .mret
  ports : i.ports = []
  handled : ∃ ht, clock cfg h i = some ht ∧
    ∃ handler, Along (clock cfg) (fun h j => Quiet cfg h.csrs j.csr) ht handler ∧
      ∃ hr, run (clock cfg) ht handler = some hr ∧
        ∃ j, j.csr.op = (trapTarget cfg h.csrs i.csr).ret ∧
          trapTaken cfg hr.csrs j.csr = false ∧ clock cfg hr j = some h'

theorem ebreakEnters_congr (cfg : Cfg) (q : Csrs w) {e : Csrs w} (e' : Csrs w)
    (h : e.debugMode = e'.debugMode) : ebreakEnters cfg q e = ebreakEnters cfg q e' := by
  unfold ebreakEnters
  rw [h]

theorem debugMode_trapEntry (cfg : Cfg) (q e : Csrs w) (i : CycleIn w) :
    (trapEntry cfg q e i).debugMode = e.debugMode := by
  unfold trapEntry
  dsimp only
  split
  · split <;> rfl
  · rfl

theorem debugMode_debugEntry {q e : Csrs w} {i : CycleIn w} (hq : q.debugMode = false)
    (he : e.debugMode = false) (ht : trapTaken cfg q i = true)
    (htrig : i.debugFromTrigger = false) (hstep : q.dcsr.step = false) :
    (debugEntry cfg q e i).debugMode = true ↔ trapTarget cfg q i = .debug := by
  unfold debugEntry trapTarget
  cases hcfg : cfg.DebugEn with
  | false =>
    simp only [Bool.false_and, Bool.false_eq_true, if_false, he, false_iff]
    split <;> exact nofun
  | true =>
    have hcalm : i.exCause ≠ debugRequest ∧ i.exValid = true := by
      simpa [trapTaken, hcfg, hq] using ht
    obtain ⟨hcause, hvalid⟩ := hcalm
    simp only [hq, htrig, hstep, hvalid, beq_eq_false_iff_ne.mpr hcause, Bool.true_and,
      Bool.not_false, Bool.and_false, Bool.false_and, if_true, Bool.false_eq_true, if_false]
    cases hb : i.exCause == breakpoint with
    | false =>
      simp only [Bool.false_and, Bool.false_eq_true, if_false, he, false_iff]
      split <;> exact nofun
    | true =>
      simp only [Bool.true_and, if_true]
      rw [ebreakEnters_congr cfg q q]
      · cases ebreakEnters cfg q q with
        | true => simp
        | false =>
          simp only [Bool.false_eq_true, if_false, false_iff]
          split <;> exact nofun
      · exact he.trans hq.symm

/-- `trapTarget` names the mode that the clock edge enters. -/
theorem debugMode_trap {q : Csrs w} {i : CycleIn w} (hi : i.op = .none)
    (hq : q.debugMode = false) (ht : trapTaken cfg q i = true)
    (htrig : i.debugFromTrigger = false) (hstep : q.dcsr.step = false) :
    (cycle cfg q i).debugMode = true ↔ trapTarget cfg q i = .debug := by
  have hhard : (hardwireMpp cfg (csrWrite q q i.op)).debugMode = false := by
    rw [hi]
    unfold hardwireMpp
    split <;> exact hq
  unfold cycle
  rw [ht, hi]
  apply debugMode_debugEntry hq _ ht htrig hstep
  rw [if_pos rfl, debugMode_trapEntry, ← hi]
  exact hhard

/-- In the handler of a trap from `h`. -/
structure Handling (h h' : Hart w d) : Prop where
  active : h'.csrs.windowConfig = defaultWindowConfig w
  interrupted : h'.csrs.prevWindowConfig = h.csrs.windowConfig
  cells : ∀ p : PhysReg, 32 ≤ p.val → h'.mem p = h.mem p

theorem mem_clock_high (hw : w = 32 ∨ w = 64) {h h' : Hart w d} {i : Input w d}
    (ha : h.csrs.windowConfig = defaultWindowConfig w) (hs : clock cfg h i = some h')
    {p : PhysReg} (hp : 32 ≤ p.val) : h'.mem p = h.mem p := by
  cases hs
  apply registerWriteBehavioral_outside
  · intro hreach
    obtain ⟨r, hr⟩ := hreach
    rw [windowTranslation, ha, decode_default hw, Window.phys_kernel] at hr
    have hval := congrArg Fin.val (Option.some.inj hr)
    have hlt := r.isLt
    simp only at hval
    omega
  · intro _ h0
    rw [h0] at hp
    exact absurd hp (by decide)

theorem handling_trap {h h' : Hart w d} {i : Input w d}
    (ht : trapTaken cfg h.csrs i.csr = true) (hi : i.csr.op ≠ .mret) (hports : i.ports = [])
    (hs : clock cfg h i = some h') : Handling h h' := by
  have htaken : windowsTaken cfg h.csrs i.csr = (defaultWindowConfig w, h.csrs.windowConfig) := by
    unfold windowsTaken
    exact if_pos ht
  cases hs
  constructor
  · exact (windowConfig_cycle cfg h.csrs hi).trans (congrArg Prod.fst htaken)
  · exact (prevWindowConfig_cycle cfg h.csrs i.csr).trans (congrArg Prod.snd htaken)
  · intro p _
    rw [hports]
    rfl

theorem handling_clock (hw : w = 32 ∨ w = 64) (h : Hart w d) :
    Preserved (clock cfg) (fun s j => Quiet cfg s.csrs j.csr) (Handling h) := by
  intro s j s' hh hj hs
  have hwin : s'.csrs.windows = s.csrs.windows := by
    cases hs
    exact hj.windows
  constructor
  · exact (congrArg Prod.fst hwin).trans hh.active
  · exact (congrArg Prod.snd hwin).trans hh.interrupted
  · intro p hp
    exact (mem_clock_high hw hh.active hs hp).trans (hh.cells p hp)

/-- Of the three returns only `mret` goes back to the interrupted window. -/
theorem windowConfig_ret {q : Csrs w} {j : CycleIn w} (t : TrapTarget) (hj : j.op = t.ret)
    (hcalm : trapTaken cfg q j = false) :
    (cycle cfg q j).windowConfig =
      if t = .machine then q.prevWindowConfig else q.windowConfig := by
  have hsil : j.op.NoWindowAccess := by
    rw [hj]
    cases t <;> trivial
  have htaken : windowsTaken cfg q j = q.windows := by
    rw [windowsTaken_silent cfg q hsil, hcalm]
    rfl
  cases t with
  | machine =>
    rw [if_pos rfl]
    exact windowConfig_mret cfg q hj
  | supervisor | debug =>
    rw [if_neg (by decide)]
    refine (windowConfig_cycle cfg q ?_).trans (congrArg Prod.fst htaken)
    rw [hj]
    exact nofun

/-- The whole trip leaves the upper half of the file alone. It ends in the interrupted window
if that was the default one or the trap went to machine mode, and in no other case. -/
theorem handled_iff (hw : w = 32 ∨ w = 64) {h h' : Hart w d} {i : Input w d}
    (hh : Handled cfg h i h') :
    (h'.csrs.windowConfig = h.csrs.windowConfig ∧
        ∀ p : PhysReg, 32 ≤ p.val → h'.mem p = h.mem p) ↔
      trapTarget cfg h.csrs i.csr = .machine ∨
        h.csrs.windowConfig = defaultWindowConfig w := by
  obtain ⟨ht, htrap, handler, hquiet, hr, hrun, j, hj, hcalm, hret⟩ := hh.handled
  have hstart : Handling h ht := handling_trap hh.taken hh.stays hh.ports htrap
  have hend : Handling h hr := run_preserved (handling_clock hw h) hstart hquiet hrun
  have hcells : ∀ p : PhysReg, 32 ≤ p.val → h'.mem p = h.mem p := by
    intro p hp
    exact (mem_clock_high hw hend.active hret hp).trans (hend.cells p hp)
  have hwin : h'.csrs.windowConfig =
      if trapTarget cfg h.csrs i.csr = .machine then h.csrs.windowConfig
      else defaultWindowConfig w := by
    cases hret
    refine (windowConfig_ret _ hj hcalm).trans ?_
    rw [hend.interrupted, hend.active]
  constructor
  · intro hback
    by_cases hm : trapTarget cfg h.csrs i.csr = .machine
    · exact Or.inl hm
    · rw [if_neg hm] at hwin
      exact Or.inr (hback.1.symm.trans hwin)
  · intro hcase
    refine ⟨?_, hcells⟩
    rcases hcase with hm | hdef
    · exact hwin.trans (if_pos hm)
    · rw [hwin, hdef]
      split <;> rfl

/-- Boot code that delegates what `medeleg` says and enters user mode in cells 32 to 47. -/
def enterUser (medeleg : BitVec 32) : List (Input 32 32) :=
  [⟨[], .plain (.other { (reset 32).toWritable with medeleg := medeleg })⟩,
    ⟨[], .plain (.staged .write 0x00100020)⟩, ⟨[], .plain .mret⟩]

def userEcall : Input 32 32 :=
  ⟨[], { CycleIn.plain .none with exValid := true, exCause := 8, commitAck := false }⟩

/-- A handler that writes `t0`. -/
def writeT0 : List (Input 32 32) := [⟨[⟨true, 5, 7⟩], .plain .none⟩]

theorem writeT0_quiet {h : Hart 32 32}
    (ht : trapTaken cv32a6ImacSv32 h.csrs (.plain .none) = false) :
    Along (clock cv32a6ImacSv32) (fun h j => Quiet cv32a6ImacSv32 h.csrs j.csr) h writeT0 :=
  ⟨⟨trivial, nofun, ht⟩, fun _ _ => trivial⟩

/-- Without delegation the call comes back to its window. -/
theorem userEcall_restored :
    ∃ h h', run (clock cv32a6ImacSv32) (Hart.boot 32 32) (enterUser 0) = some h ∧
      Handled cv32a6ImacSv32 h userEcall h' ∧ h'.csrs.windowConfig = h.csrs.windowConfig ∧
        ∀ p : PhysReg, 32 ≤ p.val → h'.mem p = h.mem p := by
  obtain ⟨h, h', hrun, hh, hm⟩ : ∃ h h',
      run (clock cv32a6ImacSv32) (Hart.boot 32 32) (enterUser 0) = some h ∧
        Handled cv32a6ImacSv32 h userEcall h' ∧
          trapTarget cv32a6ImacSv32 h.csrs userEcall.csr = .machine :=
    ⟨_, _, rfl, ⟨rfl, nofun, rfl, _, rfl, writeT0, writeT0_quiet rfl, _, rfl,
      ⟨[], .plain .mret⟩, rfl, rfl, rfl⟩, rfl⟩
  exact ⟨h, h', hrun, hh, (handled_iff (.inl rfl) hh).mpr (.inl hm)⟩

/-- Delegated to S mode, it comes back to the kernel's. -/
theorem userEcall_delegated_lost :
    ∃ h h', run (clock cv32a6ImacSv32) (Hart.boot 32 32) (enterUser 0x100) = some h ∧
      Handled cv32a6ImacSv32 h userEcall h' ∧ h.csrs.windowConfig = 0x00100020 ∧
        h'.csrs.windowConfig = 0x00200000 :=
  ⟨_, _, rfl, ⟨rfl, nofun, rfl, _, rfl, writeT0, writeT0_quiet rfl, _, rfl,
    ⟨[], .plain .sret⟩, rfl, rfl, rfl⟩, rfl, rfl⟩

end RegisterWindows.Cva6
