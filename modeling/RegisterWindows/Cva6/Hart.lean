import RegisterWindows.Cva6.CsrRegfile
import RegisterWindows.Lib.Run

namespace RegisterWindows.Cva6
open Runs

variable {w d : Nat}

theorem decode_default (hw : w = 32 ∨ w = 64) :
    decode (defaultWindowConfig w) = Window.kernel := by
  rcases hw with rfl | rfl <;> decide

theorem decode_zero : decode (0 : BitVec w) = ⟨0, 0⟩ := by
  simp [decode]

/-- The configuration package the demos are built against. -/
def cv32a6ImacSv32 : Cfg where
  DebugEn := true
  RVS := true
  RVU := true
  RVH := false
  SDTRIG := false

/-- The register file and the CSRs, which share the active configuration. Two
histories ride along: what an ordinary register file would hold, and whether a
trap has been taken since reset. -/
structure Hart (w d : Nat) where
  csrs : Csrs w
  mem : Mem d
  regs : Reg → BitVec d
  trapped : Bool

/-- What one clock edge receives: the commit ports and the CSR unit's inputs. -/
structure Input (w d : Nat) where
  ports : List (WritePort d)
  csr : CycleIn w

def Hart.boot (w d : Nat) : Hart w d where
  csrs := reset w
  mem _ := 0
  regs _ := 0
  trapped := false

/-- A clock edge is always enabled. -/
def clock (cfg : Cfg) (h : Hart w d) (i : Input w d) : Option (Hart w d) :=
  some {
    csrs := cycle cfg h.csrs i.csr
    mem := registerWriteBehavioral true h.csrs.windowConfig h.mem i.ports
    regs := i.ports.foldl flatWrite h.regs
    trapped := h.trapped || trapTaken cfg h.csrs i.csr }

/-- The default window is active, and every register but `x0` reads what was last
written to it. -/
structure Hart.Invisible (h : Hart w d) : Prop where
  kernel : decode h.csrs.windowConfig = Window.kernel
  flat : ∀ r : Reg, r ≠ 0 → rdata true h.csrs.windowConfig h.mem r = h.regs r

/-- Before the first trap CSR 0x801 still has its reset value. -/
def Hart.Unstaged (h : Hart w d) : Prop := h.trapped = false → h.csrs.prevWindowConfig = 0

/-- After it, every configuration there is to install is the default one. -/
structure Hart.Defaulted (h : Hart w d) : Prop where
  active : h.csrs.windowConfig = defaultWindowConfig w
  interrupted : h.trapped = true → h.csrs.prevWindowConfig = defaultWindowConfig w
  cells : ∀ r : Reg, r ≠ 0 → h.mem ⟨r.val, reg_lt r⟩ = h.regs r

theorem clock_unstaged (cfg : Cfg) :
    Preserved (clock cfg) (fun _ (i : Input w d) => i.csr.op.NoWindowAccess) Hart.Unstaged := by
  rintro h i _ hu hi ⟨⟩ htrap
  obtain ⟨hold, hnew⟩ := Bool.or_eq_false_iff.mp htrap
  refine (prevWindowConfig_cycle cfg h.csrs i.csr).trans ?_
  rw [windowsTaken_silent cfg h.csrs hi, hnew]
  exact hu hold

theorem clock_defaulted (cfg : Cfg) (hw : w = 32 ∨ w = 64) :
    Preserved (clock cfg)
      (fun h (i : Input w d) => i.csr.op.NoWindowAccess ∧ (i.csr.op = .mret → h.trapped = true))
      Hart.Defaulted := by
  rintro h i _ hd ⟨hi, hret⟩ ⟨⟩
  have htaken := windowsTaken_silent cfg h.csrs hi
  refine ⟨?_, fun htrap => ?_, ?_⟩
  · by_cases hop : i.csr.op = .mret
    · exact (windowConfig_mret cfg h.csrs hop).trans (hd.interrupted (hret hop))
    · refine (windowConfig_cycle cfg h.csrs hop).trans ?_
      rw [htaken]
      split
      · rfl
      · exact hd.active
  · refine (prevWindowConfig_cycle cfg h.csrs i.csr).trans ?_
    rw [htaken]
    split
    · -- The trap saves the active configuration, which is the default one.
      exact hd.active
    · rename_i ht
      exact hd.interrupted ((Bool.or_eq_true_iff.mp htrap).resolve_right ht)
  · refine registerWriteBehavioral_kernel ?_ true _ _ _ hd.cells
    rw [hd.active]
    exact decode_default hw

theorem boot_defaulted : (Hart.boot w d).Defaulted where
  active := rfl
  interrupted h := by cases h
  cells _ _ := rfl

theorem Hart.Defaulted.invisible (hw : w = 32 ∨ w = 64) {h : Hart w d} (hd : h.Defaulted) :
    h.Invisible := by
  have hk : decode h.csrs.windowConfig = Window.kernel := by
    rw [hd.active]
    exact decode_default hw
  exact ⟨hk, fun r hr => (rdata_kernel hk true h.mem hr).trans (hd.cells r hr)⟩

/-- An `mret` before the first trap installs the reset value of CSR 0x801, an empty window. -/
theorem not_invisible_of_mret (cfg : Cfg) {h h' : Hart w d} {i : Input w d} (hu : h.Unstaged)
    (hi : i.csr.op = .mret) (htrap : h.trapped = false) (hs : clock cfg h i = some h') :
    ¬ h'.Invisible := by
  cases hs
  rintro ⟨hk, -⟩
  rw [show (cycle cfg h.csrs i.csr).windowConfig = 0 from
    (windowConfig_mret cfg h.csrs hi).trans (hu htrap), decode_zero] at hk
  cases hk

/-- A core whose software never names a window behaves as one without windows
exactly when no `mret` is executed before the first trap. -/
theorem invisible_iff (cfg : Cfg) (hw : w = 32 ∨ w = 64) (is : List (Input w d))
    (hsilent : ∀ i ∈ is, i.csr.op.NoWindowAccess) :
    (∀ pre h, pre <+: is → run (clock cfg) (Hart.boot w d) pre = some h → h.Invisible) ↔
      Along (clock cfg) (fun h i => i.csr.op = .mret → h.trapped = true) (Hart.boot w d) is := by
  constructor
  · intro hinv
    refine along_of_prefix fun pre i h hp hr hop => ?_
    by_contra htrap
    have hsil : ∀ j ∈ pre, j.csr.op.NoWindowAccess := fun j hj =>
      hsilent j (hp.subset (List.mem_append_left _ hj))
    have hu : h.Unstaged := run_preserved (clock_unstaged cfg) (fun _ => rfl) (along_of_mem hsil) hr
    have hs : clock cfg h i = some _ := rfl
    exact not_invisible_of_mret cfg hu hop (Bool.eq_false_iff.mpr htrap) hs
      (hinv _ _ hp (run_concat hr hs))
  · rintro hret pre h ⟨post, rfl⟩ hr
    have hsil : Along (clock cfg) (fun _ i => i.csr.op.NoWindowAccess) (Hart.boot w d) pre :=
      along_of_mem fun j hj => hsilent j (List.mem_append_left _ hj)
    have hboth := hsil.and (along_append hret hr).1
    exact (run_preserved (clock_defaulted cfg hw) boot_defaulted hboth hr).invisible hw

/-- An instruction that commits without an exception or a trigger. -/
def CycleIn.plain (op : CsrOp w) : CycleIn w where
  op := op
  exValid := false
  exCause := 0
  breakFromTrigger := false
  debugFromTrigger := false
  pc := 0
  commitAck := true
  stepPc := 0

/-- Boot code that sets `a0` and leaves machine mode by `mret`. -/
def bootCode : List (Input 32 32) :=
  [⟨[⟨true, 10, 7⟩], .plain .none⟩, ⟨[], .plain .mret⟩]

/-- It loses `a0`, though no instruction named a window. -/
theorem bootCode_visible :
    (∀ i ∈ bootCode, i.csr.op.NoWindowAccess) ∧
      ¬ ∀ pre h, pre <+: bootCode →
        run (clock cv32a6ImacSv32) (Hart.boot 32 32) pre = some h → h.Invisible := by
  refine ⟨fun i hi => ?_, fun hinv => ?_⟩
  · rcases List.mem_pair.mp hi with rfl | rfl <;> trivial
  · have hread := (hinv bootCode _ List.prefix_rfl rfl).flat 10 (by decide)
    exact absurd hread (by decide)

/-- The same code after an `ecall` in machine mode. -/
def trapFirst : List (Input 32 32) :=
  ⟨[], { CycleIn.plain .none with exValid := true, exCause := 11 }⟩ :: bootCode

/-- With that trap in front of it the code is harmless. -/
theorem trap_bootCode_invisible :
    (∀ i ∈ trapFirst, i.csr.op.NoWindowAccess) ∧
      ∀ pre h, pre <+: trapFirst →
        run (clock cv32a6ImacSv32) (Hart.boot 32 32) pre = some h → h.Invisible := by
  have hsilent : ∀ i ∈ trapFirst, i.csr.op.NoWindowAccess := by
    simp [trapFirst, bootCode, CycleIn.plain, CsrOp.NoWindowAccess]
  refine ⟨hsilent, (invisible_iff cv32a6ImacSv32 (.inl rfl) _ hsilent).mpr ?_⟩
  refine ⟨nofun, fun _ htrap => ⟨nofun, fun _ hset => ⟨fun _ => ?_, fun _ _ => trivial⟩⟩⟩
  cases htrap
  cases hset
  rfl

/-- `ENV_CALL_UMODE` .. `ENV_CALL_MMODE`. -/
structure CycleIn.Ecall (i : CycleIn w) : Prop where
  op : i.op = .none
  valid : i.exValid = true
  cause : i.exCause = 8 ∨ i.exCause = 9 ∨ i.exCause = 10 ∨ i.exCause = 11

/-- An instruction of a handler that keeps to the protocol. -/
structure Quiet (cfg : Cfg) (q : Csrs w) (i : CycleIn w) : Prop where
  silent : i.op.NoWindowAccess
  stays : i.op ≠ .mret
  calm : trapTaken cfg q i = false

def tick (cfg : Cfg) (q : Csrs w) (i : CycleIn w) : Option (Csrs w) := some (cycle cfg q i)

theorem Quiet.windows {cfg : Cfg} {q : Csrs w} {i : CycleIn w} (h : Quiet cfg q i) :
    (cycle cfg q i).windows = q.windows := by
  have htaken := windowsTaken_silent cfg q h.silent
  rw [h.calm] at htaken
  exact Prod.ext ((windowConfig_cycle cfg q h.stays).trans (congrArg Prod.fst htaken))
    ((prevWindowConfig_cycle cfg q i).trans (congrArg Prod.snd htaken))

theorem quiet_windows {cfg : Cfg} {q q' : Csrs w} {is : List (CycleIn w)}
    (hq : Along (tick cfg) (Quiet cfg) q is) (hr : run (tick cfg) q is = some q') :
    q'.windows = q.windows := by
  refine run_preserved (I := fun t => t.windows = q.windows) ?_ rfl hq hr
  rintro s i _ hs hi ⟨⟩
  exact hi.windows.trans hs

/-- `csrw 0x801, c`, an `ecall`, its handler and the `mret` that ends it, from `q` to `q'`;
`qe` is the state the `ecall` is executed in. -/
structure StagedSwitch (cfg : Cfg) (c : BitVec w) (q qe q' : Csrs w) : Prop where
  staged : ∃ i, i.op = .staged .write c ∧ trapTaken cfg q i = false ∧
    ∃ before, Along (tick cfg) (Quiet cfg) (cycle cfg q i) before ∧
      run (tick cfg) (cycle cfg q i) before = some qe
  handled : ∃ i, i.Ecall ∧ ∃ handler, Along (tick cfg) (Quiet cfg) (cycle cfg qe i) handler ∧
    ∃ qm, run (tick cfg) (cycle cfg qe i) handler = some qm ∧
      ∃ j, j.op = .mret ∧ q' = cycle cfg qm j

theorem CycleIn.Ecall.trapTaken {i : CycleIn w} (hi : i.Ecall) (hw : w = 32 ∨ w = 64) (cfg : Cfg)
    (q : Csrs w) : trapTaken cfg q i = !(cfg.DebugEn && q.debugMode) := by
  have hne : i.exCause ≠ debugRequest := by
    rcases hw with rfl | rfl <;> rcases hi.cause with h | h | h | h <;> rw [h] <;> decide
  rw [Cva6.trapTaken, hi.valid, bne_iff_ne.mpr hne]
  cases cfg.DebugEn <;> simp

theorem StagedSwitch.windows_ecall {cfg : Cfg} {c : BitVec w} {q qe q' : Csrs w}
    (h : StagedSwitch cfg c q qe q') : qe.windows = (q.windowConfig, c) := by
  obtain ⟨i, hop, hcalm, before, hq, hr⟩ := h.staged
  have htaken : windowsTaken cfg q i = (q.windowConfig, c) := by
    rw [windowsTaken, hcalm, hop]
    rfl
  have hne : i.op ≠ .mret := by
    rw [hop]
    intro he
    cases he
  rw [quiet_windows hq hr]
  exact Prod.ext ((windowConfig_cycle cfg q hne).trans (congrArg Prod.fst htaken))
    ((prevWindowConfig_cycle cfg q i).trans (congrArg Prod.snd htaken))

/-- The protocol installs `c` only where it was active already, or where the `ecall` is
no trap: taking the trap overwrites what was staged. -/
theorem staged_switch_iff (cfg : Cfg) (hw : w = 32 ∨ w = 64) {c : BitVec w} {q qe q' : Csrs w}
    (h : StagedSwitch cfg c q qe q') :
    q'.windowConfig = c ↔ (cfg.DebugEn && qe.debugMode) = true ∨ q.windowConfig = c := by
  have hwin := h.windows_ecall
  obtain ⟨i, hi, handler, hq, qm, hr, j, hj, rfl⟩ := h.handled
  have hsil : i.op.NoWindowAccess := by
    rw [hi.op]
    trivial
  have hprev : (cycle cfg qm j).windowConfig =
      if Cva6.trapTaken cfg qe i then q.windowConfig else c := by
    rw [windowConfig_mret cfg qm hj,
      show qm.prevWindowConfig = (cycle cfg qe i).prevWindowConfig from
        congrArg Prod.snd (quiet_windows hq hr),
      prevWindowConfig_cycle, windowsTaken_silent cfg qe hsil]
    split
    · exact congrArg Prod.fst hwin
    · exact congrArg Prod.snd hwin
  rw [hprev, hi.trapTaken hw]
  cases hd : cfg.DebugEn && qe.debugMode <;> simp

/-- From the default window: stage the window of cells 32 to 47, `ecall`, return at once. -/
def stageAndCall : List (CycleIn 32) :=
  [.plain (.staged .write 0x00100020),
    { CycleIn.plain .none with exValid := true, exCause := 11 }, .plain .mret]

theorem stageAndCall_switch :
    StagedSwitch cv32a6ImacSv32 0x00100020 (reset 32)
      (cycle cv32a6ImacSv32 (reset 32) (.plain (.staged .write 0x00100020)))
      (stageAndCall.foldl (cycle cv32a6ImacSv32) (reset 32)) where
  staged := ⟨_, rfl, rfl, [], trivial, rfl⟩
  handled :=
    ⟨{ CycleIn.plain .none with exValid := true, exCause := 11 }, ⟨rfl, rfl, by decide⟩, [],
      trivial, _, rfl, .plain .mret, rfl, rfl⟩

/-- The protocol followed to the letter from reset: the old window is active at the end. -/
theorem stageAndCall_lost :
    ∃ qe q', StagedSwitch cv32a6ImacSv32 0x00100020 (reset 32) qe q' ∧
      q'.windowConfig = 0x00200000 ∧ q'.windowConfig ≠ 0x00100020 :=
  ⟨_, _, stageAndCall_switch, by decide, by decide⟩

theorem stageAndCall_switch_iff :
    (stageAndCall.foldl (cycle cv32a6ImacSv32) (reset 32)).windowConfig = 0x00100020 ↔
      (cv32a6ImacSv32.DebugEn && (cycle cv32a6ImacSv32 (reset 32)
        (.plain (.staged .write 0x00100020))).debugMode) = true ∨
      (reset 32).windowConfig = 0x00100020 :=
  staged_switch_iff cv32a6ImacSv32 (.inl rfl) stageAndCall_switch

end RegisterWindows.Cva6
