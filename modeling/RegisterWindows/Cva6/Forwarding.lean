import RegisterWindows.Cva6.Precise

namespace RegisterWindows.Cva6
open Runs Ring

variable {C : Type} {F : CsrFile C} {r : Reg} {v : Word}

/-- The youngest of the entries that names the register. -/
def pending (es : List Entry) (r : Reg) : Option Entry := es.reverse.find? fun e => e.ins.rd == r

theorem pending_none {es : List Entry} (h : ∀ e ∈ es, e.ins.rd ≠ r) : pending es r = none := by
  refine List.find?_eq_none.mpr fun e he => ?_
  simpa using h e (List.mem_reverse.mp he)

theorem pending_some {es fs : List Entry} {e : Entry} (he : e.ins.rd = r)
    (h : ∀ f ∈ fs, f.ins.rd ≠ r) : pending (es ++ e :: fs) r = some e := by
  have hfs : fs.reverse.find? (fun e => e.ins.rd == r) = none := pending_none h
  simp [pending, List.find?_append, hfs, he]

/-- No other result than 0 is on its way to the register. -/
def Blank (es : List Entry) (r : Reg) : Prop := r = 0 ∨ ∀ e ∈ pending es r, e.result = 0

namespace Pipe
variable {cfg : PipeCfg} {s s' : Pipe C} {prog : Nat → StreamInstr} {i : PipeIn}

theorem issue_room {new : List Entry} (h : s.issue cfg prog i = some new)
    (hr : s.sb.length ≤ cfg.nrSbEntries) : s.sb.length + new.length ≤ cfg.nrSbEntries := by
  unfold issue at h
  split at h
  case isFalse => cases h
  rename_i hroom
  split at h
  · cases h
    exact hr
  · rename_i h1
    obtain ⟨e, -, h⟩ := Option.bind_eq_some_iff.mp h
    cases h
    rwa [h1] at hroom
  · rename_i h2
    split at h
    case isFalse => cases h
    obtain ⟨e, -, h⟩ := Option.bind_eq_some_iff.mp h
    obtain ⟨e', -, h⟩ := Option.bind_eq_some_iff.mp h
    cases h
    rwa [h2] at hroom
  · cases h

theorem step_ordered (ho : s.Ordered cfg) (h : s.cycle cfg F prog i = some s') :
    s'.Ordered cfg := by
  unfold cycle at h
  split at h
  case isFalse => cases h
  split at h
  · cases h
    exact ⟨cfg.entries_pos, Nat.zero_le _⟩
  · obtain ⟨new, hnew, h⟩ := Option.bind_eq_some_iff.mp h
    cases h
    have hroom := issue_room hnew ho.room
    refine ⟨slot_lt cfg.entries_pos, ?_⟩
    rw [List.length_append, List.length_drop, List.length_mapIdx, List.length_map]
    omega

theorem run_ordered {a₀ : Arch C} {is : List PipeIn}
    (hrun : run (cycle cfg F prog) (start a₀) is = some s) : s.Ordered cfg :=
  run_invariant (fun _ _ _ ho h => step_ordered ho h) ⟨cfg.entries_pos, Nat.zero_le _⟩ hrun

theorem Ordered.operand_cases (ho : s.Ordered cfg) {writeback : Nat → Bool}
    (h : s.operand cfg writeback r = some v) :
    (v = s.arch.x r ∧ (r ≠ 0 → pending s.entries r = none)) ∨
      (r ≠ 0 ∧ ∃ e, pending s.entries r = some e ∧ v = e.result) := by
  unfold operand at h
  cases hraw : s.rawChecker cfg r with
  | none =>
    simp only [hraw, Option.some.injEq] at h
    subst h
    exact Or.inl ⟨rfl, fun hr => pending_none (ho.rawChecker_none hr hraw)⟩
  | some j =>
    obtain ⟨hr, e, es, fs, he, hes, hrd, hno⟩ := ho.rawChecker_some hraw
    simp only [hraw, he, Option.bind_some] at h
    split at h
    · simp only [Option.some.injEq] at h
      refine Or.inr ⟨hr, e.toEntry, ?_, h.symm⟩
      rw [hes]
      exact pending_some hrd hno
    · cases h

theorem x_outside (hout : windowTranslation s.arch.core.windowConfig r = none) :
    s.arch.x r = 0 := by
  by_cases hr : r = 0
  · subst hr
    exact Arch.x_zero _
  · rw [Arch.x_of_ne _ hr, hout]
    rfl

theorem Ordered.operand_zero_iff (ho : s.Ordered cfg)
    (hout : windowTranslation s.arch.core.windowConfig r = none) {writeback : Nat → Bool}
    (h : s.operand cfg writeback r = some v) : v = 0 ↔ Blank s.entries r := by
  unfold Blank
  rcases ho.operand_cases h with ⟨rfl, hnone⟩ | ⟨hr, e, he, rfl⟩
  · rw [x_outside hout]
    by_cases hr : r = 0 <;> simp [hr, hnone]
  · simp [he, hr]

theorem Ordered.operandSecond_zero_iff (ho : s.Ordered cfg)
    (hout : windowTranslation s.arch.core.windowConfig r = none) {writeback : Nat → Bool}
    {first : Entry} {ins : StreamInstr}
    (h : s.operandSecond cfg writeback first ins r = some v) :
    v = 0 ↔ Blank (s.entries ++ [first]) r := by
  unfold operandSecond at h
  split at h
  · rename_i hrd
    split at h
    · have hlast : pending (s.entries ++ [first]) r = some first :=
        pending_some hrd.2.symm nofun
      cases h
      simp [Blank, hlast, hrd.1]
    · cases h
  · rename_i hrd
    rw [ho.operand_zero_iff hout h]
    unfold Blank
    by_cases hr : r = 0
    · simp [hr]
    · have hne : first.ins.rd ≠ r := fun he => hrd ⟨hr, he.symm⟩
      simp [pending, hne]

/-- In every state that a pipeline reaches, an operand outside the window is 0 exactly when no
other result than 0 is on its way to the register, whichever port it is issued on. -/
theorem outside_zero_iff (cfg : PipeCfg) (F : CsrFile C) (prog : Nat → StreamInstr) (a₀ : Arch C)
    {is : List PipeIn} {s : Pipe C} (hrun : run (cycle cfg F prog) (start a₀) is = some s) {r : Reg}
    (hout : windowTranslation s.arch.core.windowConfig r = none) (writeback : Nat → Bool) :
    (∀ v, s.operand cfg writeback r = some v → (v = 0 ↔ Blank s.entries r)) ∧
      ∀ first ins v, s.operandSecond cfg writeback first ins r = some v →
        (v = 0 ↔ Blank (s.entries ++ [first]) r) := by
  have ho := run_ordered hrun
  exact ⟨fun _ h => ho.operand_zero_iff hout h, fun _ _ _ h => ho.operandSecond_zero_iff hout h⟩

end Pipe

/-- `addi s4, x0, 7`, `add ra, s4, x0`, in a window of 16 registers. -/
def outsideStream : Nat → StreamInstr
  | 0 => aluInstr 20 0 0 fun a _ => a + 7
  | 1 => aluInstr 1 20 0 fun a b => a + b
  | _ => aluInstr 0 0 0 fun _ _ => 0

def archOutside : Arch Unit := ⟨⟨0x00100020, 0, fun _ => 0⟩, (), fun _ => 0⟩

namespace Pipe

/-- The operand `s4` that the `add` would be issued with after these cycles. -/
def operandAfter (is : List PipeIn) : Option Word :=
  (run (cycle cv32a6Pipe noCsrs outsideStream) (start archOutside) is).bind fun s =>
    s.operand cv32a6Pipe (fun _ => false) 20

def writtenBack : List PipeIn := [⟨fun _ => false, 0, 1⟩, ⟨(· = 0), 0, 0⟩]

def committed : List PipeIn := writtenBack ++ [⟨fun _ => false, 1, 0⟩]

theorem outside_differs : operandAfter writtenBack = some 7 ∧ operandAfter committed = some 0 := by
  decide +kernel

/-- While the `addi` is in the scoreboard, its result is what the operand is. -/
theorem writtenBack_zero_iff :
    ∃ s, run (cycle cv32a6Pipe noCsrs outsideStream) (start archOutside) writtenBack = some s ∧
      s.operand cv32a6Pipe (fun _ => false) 20 = some 7 ∧
        ((7 : Word) = 0 ↔ Blank s.entries 20) := by
  have hfacts : (run (cycle cv32a6Pipe noCsrs outsideStream) (start archOutside) writtenBack).map
      (fun s => (windowTranslation s.arch.core.windowConfig 20,
        s.operand cv32a6Pipe (fun _ => false) 20)) = some (none, some 7) := by decide +kernel
  obtain ⟨s, hs, hf⟩ := Option.map_eq_some_iff.mp hfacts
  obtain ⟨hout, hv⟩ := Prod.mk.inj hf
  exact ⟨s, hs, hv, (outside_zero_iff cv32a6Pipe noCsrs outsideStream archOutside hs hout _).1 7 hv⟩

end Pipe

end RegisterWindows.Cva6
