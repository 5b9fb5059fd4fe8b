import RegisterWindows.Cva6.Pipeline

namespace RegisterWindows.Cva6
open Runs Ring

variable {C : Type} {F : CsrFile C} {a : Arch C} {e : Entry} {es : List Entry} {r : Reg}

namespace Arch

/-- The instruction gets its operands when everything before it has been committed. -/
def issued (a : Arch C) (i : StreamInstr) : Entry := i.execute (a.x i.rs1) (a.x i.rs2) a.data

def exec (F : CsrFile C) (a : Arch C) (i : StreamInstr) : Arch C := a.commit F [a.issued i]

/-- Entries that are committed one after the other. -/
def after (F : CsrFile C) (a : Arch C) (es : List Entry) : Arch C :=
  es.foldl (fun a e => a.commit F [e]) a

end Arch

/-- The state after the first `n` instructions of the stream. -/
def inOrder (F : CsrFile C) (prog : Nat → StreamInstr) (a : Arch C) : Nat → Arch C
  | 0 => a
  | n + 1 => (inOrder F prog a n).exec F (prog n)

/-- The configuration behind the entry. -/
def Entry.nextConfig (c : Word) (e : Entry) : Word :=
  match e.ins with
  | .csr addr (some kind) _ _ _ => if addr = 0x800 then csrWdata c e.result kind else c
  | _ => c

theorem Arch.mem_commit (F : CsrFile C) (a : Arch C) (e : Entry) :
    (a.commit F [e]).core.mem = (writeReg a.core e.ins.rd (a.port F e).wdata).mem := by
  obtain ⟨ins, result, store⟩ := e
  cases ins <;> rfl

theorem Arch.windowConfig_commit (F : CsrFile C) (a : Arch C) (e : Entry) :
    (a.commit F [e]).core.windowConfig = e.nextConfig a.core.windowConfig := by
  obtain ⟨ins, result, store⟩ := e
  cases ins with
  | plain => rfl
  | csr addr kind rd rs1 wdata =>
    cases kind with
    | none => rfl
    | some kind =>
      simp only [Arch.commit, Arch.csrOp, Arch.csrUpdate, Entry.nextConfig]
      by_cases h : addr = 0x800
      · rw [if_pos h, if_pos h]
        simp only [Arch.csrRdata, if_pos h]
      · rw [if_neg h, if_neg h]
        split <;> rfl

theorem Arch.data_after (F : CsrFile C) (a : Arch C) (es : List Entry) :
    (a.after F es).data = es.foldl Entry.commitStore a.data := by
  unfold Arch.after
  induction es generalizing a with
  | nil => rfl
  | cons e es ih => exact ih (a.commit F [e])

theorem Arch.after_append (F : CsrFile C) (a : Arch C) (es fs : List Entry) :
    a.after F (es ++ fs) = (a.after F es).after F fs := List.foldl_append

theorem Arch.commit_pair (F : CsrFile C) (a : Arch C) {e e' : Entry} (h : e.ins.isCsr = false)
    (h' : e'.ins.isCsr = false) : a.commit F [e, e'] = (a.commit F [e]).commit F [e'] := by
  obtain ⟨ins, result, store⟩ := e
  obtain ⟨ins', result', store'⟩ := e'
  cases ins with
  | csr => cases h
  | plain =>
    cases ins' with
    | csr => cases h'
    | plain => rfl

theorem Arch.x_zero (a : Arch C) : a.x 0 = 0 := by
  unfold Arch.x rdata
  exact if_pos ⟨rfl, rfl⟩

theorem Arch.x_of_ne (a : Arch C) (hr : r ≠ 0) :
    a.x r = (windowTranslation a.core.windowConfig r).elim 0 a.core.mem := by
  unfold Arch.x rdata
  rw [if_neg fun h => hr h.2]
  cases windowTranslation a.core.windowConfig r <;> rfl

theorem ne_zero_of_translation {config : Word} {p : PhysReg} (hr : r ≠ 0)
    (h : windowTranslation config r = some p) : p ≠ 0 := by
  rintro rfl
  exact hr (reaches_zero h)

theorem Arch.x_commit_other (hr : r ≠ 0) (hrd : e.ins.rd ≠ r)
    (hsame : windowTranslation (e.nextConfig a.core.windowConfig) r =
      windowTranslation a.core.windowConfig r) : (a.commit F [e]).x r = a.x r := by
  rw [Arch.x_of_ne _ hr, Arch.x_of_ne _ hr, Arch.windowConfig_commit, hsame, Arch.mem_commit]
  cases hp : windowTranslation a.core.windowConfig r with
  | none => rfl
  | some p =>
    have hne : windowTranslation a.core.windowConfig e.ins.rd ≠ some p :=
      fun h => hrd (Window.phys_inj h hp)
    exact (writeReg_apply _ _ _ (ne_zero_of_translation hr hp)).trans (if_neg hne)

theorem Arch.x_commit_self (hr : e.ins.rd ≠ 0)
    (hsome : windowTranslation a.core.windowConfig e.ins.rd ≠ none)
    (hsame : windowTranslation (e.nextConfig a.core.windowConfig) e.ins.rd =
      windowTranslation a.core.windowConfig e.ins.rd) :
    (a.commit F [e]).x e.ins.rd = (a.port F e).wdata := by
  rw [Arch.x_of_ne _ hr, Arch.windowConfig_commit, hsame, Arch.mem_commit]
  obtain ⟨p, hp⟩ := Option.ne_none_iff_exists'.mp hsome
  rw [hp]
  exact (writeReg_apply _ _ _ (ne_zero_of_translation hr hp)).trans (if_pos hp)

/-- From the youngest of the entries that writes the register on, or from the oldest one if none
does, the register stays in one cell; and the one that writes it reaches that cell. -/
def Sourced (c : Word) (r : Reg) : List Entry → Prop
  | [] => True
  | e :: es =>
    ((∀ f ∈ es, f.ins.rd ≠ r) →
      windowTranslation (e.nextConfig c) r = windowTranslation c r ∧
        (e.ins.rd = r → windowTranslation c r ≠ none)) ∧
    Sourced (e.nextConfig c) r es

instance Sourced.decidable (c : Word) (r : Reg) : (es : List Entry) → Decidable (Sourced c r es)
  | [] => isTrue trivial
  | e :: es =>
    have := Sourced.decidable (e.nextConfig c) r es
    inferInstanceAs (Decidable (_ ∧ _))

theorem Sourced.x_unwritten (h : Sourced a.core.windowConfig r es) (hr : r ≠ 0)
    (hno : ∀ e ∈ es, e.ins.rd ≠ r) : (a.after F es).x r = a.x r := by
  unfold Arch.after
  induction es generalizing a with
  | nil => rfl
  | cons e es ih =>
    obtain ⟨hsame, -⟩ := h.1 fun f hf => hno f (List.mem_cons_of_mem e hf)
    refine (ih ?_ fun f hf => hno f (List.mem_cons_of_mem e hf)).trans ?_
    · rw [Arch.windowConfig_commit]
      exact h.2
    · exact Arch.x_commit_other hr (hno e List.mem_cons_self) hsame

theorem Sourced.x_written {fs : List Entry}
    (h : Sourced a.core.windowConfig e.ins.rd (es ++ e :: fs))
    (hr : e.ins.rd ≠ 0) (hcsr : e.ins.isCsr = false) (hno : ∀ f ∈ fs, f.ins.rd ≠ e.ins.rd) :
    (a.after F (es ++ e :: fs)).x e.ins.rd = e.result := by
  induction es generalizing a with
  | nil =>
    obtain ⟨hsame, hsome⟩ := h.1 hno
    have hself : (a.commit F [e]).x e.ins.rd = (a.port F e).wdata :=
      Arch.x_commit_self hr (hsome rfl) hsame
    have hrest : ((a.commit F [e]).after F fs).x e.ins.rd = (a.commit F [e]).x e.ins.rd := by
      apply Sourced.x_unwritten _ hr hno
      rw [Arch.windowConfig_commit]
      exact h.2
    refine hrest.trans (hself.trans ?_)
    unfold Arch.port
    cases hins : e.ins with
    | plain => rfl
    | csr =>
      rw [hins] at hcsr
      cases hcsr
  | cons e' es ih =>
    apply ih
    rw [Arch.windowConfig_commit]
    exact h.2

theorem Sourced.init {c : Word} (h : Sourced c r (es ++ [e])) (hne : e.ins.rd ≠ r) :
    Sourced c r es := by
  induction es generalizing c with
  | nil => trivial
  | cons f es ih =>
    refine ⟨fun hno => h.1 fun g hg => ?_, ih h.2⟩
    rcases List.mem_append.mp hg with hg | hg
    · exact hno g hg
    · rw [List.mem_singleton.mp hg]
      exact hne

theorem Sourced.replace {c : Word} {e e' : Entry} (hrd : e.ins.rd = e'.ins.rd)
    (hnext : ∀ c, e.nextConfig c = e'.nextConfig c) (h : Sourced c r (es ++ [e])) :
    Sourced c r (es ++ [e']) := by
  induction es generalizing c with
  | nil =>
    obtain ⟨hkeep, -⟩ := h
    rw [hrd, hnext] at hkeep
    exact ⟨hkeep, trivial⟩
  | cons f es ih =>
    obtain ⟨hkeep, hrest⟩ := h
    refine ⟨fun hno => hkeep fun g hg => ?_, ih hrest⟩
    rcases List.mem_append.mp hg with hg | hg
    · exact hno g (List.mem_append_left _ hg)
    · rw [List.mem_singleton.mp hg, hrd]
      exact hno e' (List.mem_append_right _ (List.mem_singleton.mpr rfl))

namespace Pipe

variable {cfg : PipeCfg} {s s' : Pipe C} {prog : Nat → StreamInstr} {i : PipeIn}

/-- The pointers stay inside the scoreboard. -/
structure Ordered (cfg : PipeCfg) (s : Pipe C) : Prop where
  pointer : s.commitPointer < cfg.nrSbEntries
  room : s.sb.length ≤ cfg.nrSbEntries

theorem Ordered.sbe_slot (ho : s.Ordered cfg) {k : Nat} (hk : k < s.sb.length) :
    s.sbe cfg (slot cfg.nrSbEntries s.commitPointer k) = some s.sb[k] := by
  unfold sbe
  rw [age_slot ho.pointer (Nat.lt_of_lt_of_le hk ho.room)]
  exact List.getElem?_eq_getElem hk

theorem Ordered.filled (ho : s.Ordered cfg) (r : Reg) :
    ∀ j < cfg.nrSbEntries, (s.sbe cfg j).elim false (fun e => e.ins.rd == r) = true →
      ∃ k < s.sb.length, slot cfg.nrSbEntries s.commitPointer k = j := by
  intro j hj h
  refine ⟨age cfg.nrSbEntries s.commitPointer j, ?_, slot_age ho.pointer hj⟩
  by_contra hge
  unfold sbe at h
  rw [List.getElem?_eq_none (Nat.le_of_not_lt hge)] at h
  cases h

theorem Ordered.rawChecker_none (ho : s.Ordered cfg) (hr : r ≠ 0)
    (h : s.rawChecker cfg r = none) : ∀ e ∈ s.entries, e.ins.rd ≠ r := by
  unfold rawChecker at h
  rw [if_neg hr] at h
  intro e he hrd
  obtain ⟨e', he', rfl⟩ := List.mem_map.mp he
  obtain ⟨k, hk, hget⟩ := List.mem_iff_getElem.mp he'
  have hslot : slot cfg.nrSbEntries s.commitPointer k < cfg.nrSbEntries := slot_lt cfg.entries_pos
  have hfree := youngest_none h hslot
  rw [ho.sbe_slot hk, hget] at hfree
  exact absurd hrd (beq_eq_false_iff_ne.mp hfree)

/-- `raw_checker` finds the youngest of the instructions that write the register. -/
theorem Ordered.rawChecker_some (ho : s.Ordered cfg) {j : Nat}
    (h : s.rawChecker cfg r = some j) :
    r ≠ 0 ∧ ∃ e es fs, s.sbe cfg j = some e ∧ s.entries = es ++ e.toEntry :: fs ∧
      e.ins.rd = r ∧ ∀ f ∈ fs, f.ins.rd ≠ r := by
  unfold rawChecker at h
  split at h
  case isTrue => cases h
  rename_i hr
  obtain ⟨hp, k, hk, rfl, hlast⟩ := youngest_some ho.pointer ho.room (ho.filled r) h
  rw [ho.sbe_slot hk] at hp ⊢
  refine ⟨hr, s.sb[k], (s.sb.take k).map SbEntry.toEntry, (s.sb.drop (k + 1)).map SbEntry.toEntry,
    rfl, ?_, beq_iff_eq.mp hp, ?_⟩
  · unfold entries
    rw [← List.map_cons, ← List.map_append, List.getElem_cons_drop, List.take_append_drop]
  · intro f hf
    obtain ⟨e, he, rfl⟩ := List.mem_map.mp hf
    obtain ⟨l, hl, rfl⟩ := List.mem_iff_getElem.mp he
    rw [List.length_drop] at hl
    have hfree := hlast (k + 1 + l) (by omega) (by omega)
    rw [ho.sbe_slot (by omega)] at hfree
    rw [List.getElem_drop]
    exact beq_eq_false_iff_ne.mp hfree

/-- An operand is what the register holds when everything that has been issued is committed. -/
theorem Ordered.operand_eq (F : CsrFile C) (ho : s.Ordered cfg) {writeback : Nat → Bool} {v : Word}
    (hs : r ≠ 0 → Sourced s.arch.core.windowConfig r s.entries)
    (h : s.operand cfg writeback r = some v) : v = (s.arch.after F s.entries).x r := by
  unfold operand at h
  cases hraw : s.rawChecker cfg r with
  | none =>
    rw [hraw] at h
    rw [← Option.some.inj h]
    by_cases hr : r = 0
    · rw [hr, Arch.x_zero, Arch.x_zero]
    · exact ((hs hr).x_unwritten hr (ho.rawChecker_none hr hraw)).symm
  | some j =>
    obtain ⟨hr, e, es, fs, he, hes, rfl, hno⟩ := ho.rawChecker_some hraw
    simp only [hraw, he, Option.bind_some] at h
    split at h
    · rename_i hready
      have hcsr : e.ins.isCsr = false := by simpa using (Bool.and_eq_true_iff.mp hready).2
      have hsrc := hs hr
      rw [hes] at hsrc ⊢
      rw [← Option.some.inj h]
      exact (hsrc.x_written hr hcsr hno).symm
    · cases h

/-- The entries are the instructions of the stream from the `n`-th on, each with the operands
that it has one instruction at a time. -/
def Trail (F : CsrFile C) (prog : Nat → StreamInstr) : Nat → Arch C → List Entry → Prop
  | _, _, [] => True
  | n, a, e :: es => e = a.issued (prog n) ∧ Trail F prog (n + 1) (a.commit F [e]) es

theorem trail_append {n : Nat} {fs : List Entry} :
    Trail F prog n a (es ++ fs) ↔
      Trail F prog n a es ∧ Trail F prog (n + es.length) (a.after F es) fs := by
  induction es generalizing n a with
  | nil => exact (iff_of_eq (true_and _)).symm
  | cons e es ih =>
    simp only [List.cons_append, Trail, ih, List.length_cons, and_assoc, Nat.add_assoc,
      Nat.add_comm 1]
    rfl

theorem Trail.after {n : Nat} (h : Trail F prog n (inOrder F prog a n) es) :
    (inOrder F prog a n).after F es = inOrder F prog a (n + es.length) := by
  induction es generalizing n with
  | nil => rfl
  | cons e es ih =>
    obtain ⟨rfl, hrest⟩ := h
    rw [List.length_cons, Nat.add_comm es.length, ← Nat.add_assoc]
    exact ih hrest

/-- Every register that the instruction reads comes from where it should, behind these entries. -/
def SourcedAll (c : Word) (es : List Entry) (i : StreamInstr) : Prop :=
  ∀ r ∈ [i.rs1, i.rs2], r ≠ 0 → Sourced c r es

/-- The condition on a cycle: the instructions that are issued find their registers. -/
def Tracked (F : CsrFile C) (prog : Nat → StreamInstr) (s : Pipe C) (i : PipeIn) : Prop :=
  s.flush F i = false →
    (1 ≤ i.issues → SourcedAll s.arch.core.windowConfig s.entries (prog s.next)) ∧
    (2 ≤ i.issues → SourcedAll s.arch.core.windowConfig
      (s.entries ++ [⟨prog s.next, 0, none⟩]) (prog (s.next + 1)))

theorem lsuView_eq (F : CsrFile C) (s : Pipe C) :
    s.lsuView = (s.arch.after F s.entries).data := (Arch.data_after F s.arch s.entries).symm

theorem Ordered.issueFirst_eq (F : CsrFile C) (ho : s.Ordered cfg) {ins : StreamInstr} {e : Entry}
    (ht : SourcedAll s.arch.core.windowConfig s.entries ins)
    (h : s.issueFirst cfg i ins = some e) : e = (s.arch.after F s.entries).issued ins := by
  unfold issueFirst at h
  split at h
  case isTrue => cases h
  obtain ⟨v, hv, h⟩ := Option.bind_eq_some_iff.mp h
  obtain ⟨u, hu, h⟩ := Option.bind_eq_some_iff.mp h
  rw [← Option.some.inj h, ho.operand_eq F (ht _ (by simp)) hv, ho.operand_eq F (ht _ (by simp)) hu,
    lsuView_eq F]
  rfl

theorem plain_of_secondBusy {commits : Nat} {ins ins' : StreamInstr}
    (h : s.secondBusy commits ins ins' = false) : ins.isCsr = false := by
  cases ins with
  | plain => rfl
  | csr => cases ins' <;> cases h

theorem nextConfig_plain (h : e.ins.isCsr = false) (c : Word) : e.nextConfig c = c := by
  obtain ⟨ins, result, store⟩ := e
  cases ins with
  | plain => rfl
  | csr => cases h

theorem Ordered.operandSecond_eq (F : CsrFile C) (ho : s.Ordered cfg) {writeback : Nat → Bool}
    {ins : StreamInstr} {first : Entry} {v : Word} (hfirst : first.ins.isCsr = false)
    (hs : r ≠ 0 → Sourced s.arch.core.windowConfig r (s.entries ++ [first]))
    (h : s.operandSecond cfg writeback first ins r = some v) :
    v = (s.arch.after F (s.entries ++ [first])).x r := by
  unfold operandSecond at h
  split at h
  · rename_i hrd
    obtain ⟨hr, rfl⟩ := hrd
    split at h
    · rw [← Option.some.inj h]
      exact ((hs hr).x_written hr hfirst nofun).symm
    · cases h
  · rename_i hrd
    have hold := ho.operand_eq F (fun hr => (hs hr).init fun he => hrd ⟨hr, he.symm⟩) h
    rw [hold, Arch.after_append]
    by_cases hr : r = 0
    · rw [hr, Arch.x_zero, Arch.x_zero]
    · refine (Arch.x_commit_other hr (fun he => hrd ⟨hr, he.symm⟩) ?_).symm
      rw [nextConfig_plain hfirst]

theorem Ordered.issueSecond_eq (F : CsrFile C) (ho : s.Ordered cfg) {ins : StreamInstr}
    {first e : Entry} (ht : SourcedAll s.arch.core.windowConfig
      (s.entries ++ [⟨first.ins, 0, none⟩]) ins)
    (h : s.issueSecond cfg i first ins = some e) :
    e = (s.arch.after F (s.entries ++ [first])).issued ins := by
  unfold issueSecond at h
  split at h
  case isTrue => cases h
  rename_i hbusy
  have hsecond : s.secondBusy i.commits first.ins ins = false := by
    simpa using (not_or.mp (fun hb => hbusy (Bool.or_eq_true_iff.mpr hb))).2
  have hplain : first.ins.isCsr = false := plain_of_secondBusy hsecond
  have hs : ∀ r ∈ [ins.rs1, ins.rs2], r ≠ 0 →
      Sourced s.arch.core.windowConfig r (s.entries ++ [first]) := by
    intro r hr h0
    have hsame (c : Word) : (⟨first.ins, 0, none⟩ : Entry).nextConfig c = first.nextConfig c :=
      (nextConfig_plain (e := ⟨first.ins, 0, none⟩) hplain c).trans (nextConfig_plain hplain c).symm
    exact Sourced.replace (e := ⟨first.ins, 0, none⟩) rfl hsame (ht r hr h0)
  obtain ⟨v, hv, h⟩ := Option.bind_eq_some_iff.mp h
  obtain ⟨u, hu, h⟩ := Option.bind_eq_some_iff.mp h
  have hdata : first.commitStore s.lsuView = (s.arch.after F (s.entries ++ [first])).data := by
    rw [Arch.data_after, List.foldl_append]
    rfl
  rw [← Option.some.inj h, ho.operandSecond_eq F hplain (hs _ (by simp)) hv,
    ho.operandSecond_eq F hplain (hs _ (by simp)) hu, hdata]
  rfl

theorem Ordered.issue_trail (ho : s.Ordered cfg) (hflush : s.flush F i = false)
    (ht : s.Tracked F prog i) {new : List Entry} (h : s.issue cfg prog i = some new) :
    Trail F prog s.next (s.arch.after F s.entries) new ∧
      s.sb.length + new.length ≤ cfg.nrSbEntries := by
  obtain ⟨hone, htwo⟩ := ht hflush
  unfold issue at h
  split at h
  case isFalse => cases h
  rename_i hroom
  split at h
  · rename_i h0
    cases h
    exact ⟨trivial, ho.room⟩
  · rename_i h1
    rw [h1] at hroom hone
    obtain ⟨e, he, h⟩ := Option.bind_eq_some_iff.mp h
    cases h
    exact ⟨⟨ho.issueFirst_eq F (hone (by decide)) he, trivial⟩, hroom⟩
  · rename_i h2
    rw [h2] at hroom hone htwo
    split at h
    case isFalse => cases h
    obtain ⟨e, he, h⟩ := Option.bind_eq_some_iff.mp h
    obtain ⟨e', he', h⟩ := Option.bind_eq_some_iff.mp h
    cases h
    have hfirst := ho.issueFirst_eq F (hone (by decide)) he
    have hins : e.ins = prog s.next := by
      rw [hfirst]
      unfold Arch.issued StreamInstr.execute
      split <;> rfl
    have hsecond := ho.issueSecond_eq F (by rw [hins]; exact htwo (by decide)) he'
    rw [Arch.after_append] at hsecond
    exact ⟨⟨hfirst, hsecond, trivial⟩, hroom⟩
  · cases h

theorem commitAck_after (F : CsrFile C) (a : Arch C) {es : List SbEntry}
    (h : commitAck cfg es = true) :
    a.commit F (es.map SbEntry.toEntry) = a.after F (es.map SbEntry.toEntry) := by
  match es with
  | [] => rfl
  | [e] => rfl
  | [e, e'] =>
    simp only [commitAck, Bool.and_eq_true] at h
    obtain ⟨⟨-, hcsr⟩, hfu⟩ := h
    apply Arch.commit_pair
    · simpa using hcsr
    · cases hins : e'.ins with
      | plain => rfl
      | csr =>
        rw [hins] at hfu
        cases hfu
  | e :: e' :: e'' :: es => cases h

theorem entries_written (s : Pipe C) (i : PipeIn) :
    (s.sb.mapIdx (s.written cfg i)).map SbEntry.toEntry = s.entries := by
  unfold entries
  apply List.ext_getElem
  · rw [List.length_map, List.length_mapIdx, List.length_map]
  · intro k hk hk'
    rw [List.getElem_map, List.getElem_mapIdx, List.getElem_map]
    rfl

/-- What the pipeline has committed, and what is on its way. -/
structure Consistent (cfg : PipeCfg) (F : CsrFile C) (prog : Nat → StreamInstr) (a₀ : Arch C)
    (s : Pipe C) : Prop extends Ordered cfg s where
  arch : s.arch = inOrder F prog a₀ s.retired
  trail : Trail F prog s.retired s.arch s.entries

theorem start_consistent (a₀ : Arch C) : Consistent cfg F prog a₀ (start a₀) where
  pointer := cfg.entries_pos
  room := Nat.zero_le _
  arch := rfl
  trail := trivial

theorem Consistent.committed {a₀ : Arch C} (hs : Consistent cfg F prog a₀ s)
    (hlen : i.commits ≤ s.sb.length) (hack : commitAck cfg (s.sb.take i.commits) = true) :
    s.arch.commit F (s.entries.take i.commits) = s.arch.after F (s.entries.take i.commits) ∧
      s.arch.after F (s.entries.take i.commits) = inOrder F prog a₀ (s.retired + i.commits) ∧
      Trail F prog (s.retired + i.commits) (s.arch.after F (s.entries.take i.commits))
        (s.entries.drop i.commits) := by
  have hcommit : s.arch.commit F (s.entries.take i.commits) =
      s.arch.after F (s.entries.take i.commits) := by
    unfold entries
    rw [← List.map_take]
    exact commitAck_after F s.arch hack
  have hcount : (s.entries.take i.commits).length = i.commits := by
    unfold entries
    rw [List.length_take, List.length_map, Nat.min_eq_left hlen]
  have htrail := hs.trail
  rw [← List.take_append_drop i.commits s.entries, trail_append, hcount] at htrail
  obtain ⟨hdone, hleft⟩ := htrail
  refine ⟨hcommit, ?_, hleft⟩
  rw [hs.arch] at hdone ⊢
  rw [hdone.after, hcount]

theorem entries_issued (s : Pipe C) (i : PipeIn) (new : List Entry) :
    ((s.sb.mapIdx (s.written cfg i)).drop i.commits ++
      new.map fun e => (⟨e, false⟩ : SbEntry)).map SbEntry.toEntry =
        s.entries.drop i.commits ++ new := by
  rw [List.map_append, List.map_drop, entries_written, List.map_map]
  exact congrArg _ (List.map_id new)

theorem step_consistent {a₀ : Arch C} (hs : Consistent cfg F prog a₀ s) (ht : s.Tracked F prog i)
    (h : s.cycle cfg F prog i = some s') : Consistent cfg F prog a₀ s' := by
  unfold cycle at h
  split at h
  case isFalse => cases h
  rename_i hadmit
  obtain ⟨hlen, hack⟩ := hadmit
  obtain ⟨hcommit, harch, hleft⟩ := hs.committed hlen hack
  split at h
  · cases h
    exact ⟨⟨cfg.entries_pos, Nat.zero_le _⟩, hcommit.trans harch, trivial⟩
  · rename_i hflush
    obtain ⟨new, hnew, h⟩ := Option.bind_eq_some_iff.mp h
    cases h
    obtain ⟨hyoung, hroom⟩ := hs.toOrdered.issue_trail (Bool.eq_false_iff.mpr hflush) ht hnew
    refine ⟨⟨slot_lt cfg.entries_pos, ?_⟩, hcommit.trans harch, ?_⟩
    · rw [List.length_append, List.length_drop, List.length_mapIdx, List.length_map]
      omega
    · have hnext : s.retired + i.commits + (s.entries.drop i.commits).length = s.next := by
        unfold next entries
        rw [List.length_drop, List.length_map]
        omega
      change Trail F prog _ _ (List.map _ _)
      rw [entries_issued, hcommit, trail_append, hnext, ← Arch.after_append,
        List.take_append_drop]
      exact ⟨hleft, hyoung⟩

theorem step_preserved (cfg : PipeCfg) (F : CsrFile C) (prog : Nat → StreamInstr) (a₀ : Arch C) :
    Preserved (cycle cfg F prog) (Tracked F prog) (Consistent cfg F prog a₀) :=
  fun _ _ _ hs ht h => step_consistent hs ht h

/-- As long as every instruction that is issued finds its registers, the committed state is that
of the stream one instruction at a time. -/
theorem committed_inOrder (cfg : PipeCfg) (F : CsrFile C) (prog : Nat → StreamInstr) (a₀ : Arch C)
    {is : List PipeIn} {s : Pipe C} (hrun : run (cycle cfg F prog) (start a₀) is = some s)
    (ht : Along (cycle cfg F prog) (Tracked F prog) (start a₀) is) :
    s.arch = inOrder F prog a₀ s.retired :=
  (run_preserved (step_preserved cfg F prog a₀) (start_consistent a₀) ht hrun).arch

end Pipe

/-- An instruction for the ALU; `f` has the immediate. -/
def aluInstr (rd rs1 rs2 : Reg) (f : Word → Word → Word) : StreamInstr :=
  .plain .alu ⟨rs1, rs2, rd, fun _ _ => 0, fun _ _ => none, fun a b _ => f a b⟩

/-- `addi t1, x0, 7`, `lui t0, 0x100`, `addi t0, t0, 0x20`, `csrw 0x800, t0`, `add ra, t1, x0`. -/
def switchStream : Nat → StreamInstr
  | 0 => aluInstr 6 0 0 fun a _ => a + 7
  | 1 => aluInstr 5 0 0 fun _ _ => 0x00100000
  | 2 => aluInstr 5 5 0 fun a _ => a + 0x20
  | 3 => .csr 0x800 (some .write) 0 5 id
  | 4 => aluInstr 1 6 0 fun a b => a + b
  | _ => aluInstr 0 0 0 fun _ _ => 0

/-- `cv32a6_imac_sv32`. -/
def cv32a6Pipe : PipeCfg := ⟨8, 2, false, false, by decide⟩

/-- No other CSR is read or written. -/
def noCsrs : CsrFile Unit := ⟨fun _ _ => 0, fun c _ _ => c, fun _ => false⟩

def archReset : Arch Unit := ⟨Regs.reset, (), fun _ => 0⟩

/-- Up to the write-back of the `csrw`: each result is forwarded in the cycle it is written back. -/
def untilCsrw : List PipeIn :=
  [⟨fun _ => false, 0, 1⟩, ⟨(· = 0), 0, 1⟩, ⟨(· = 1), 1, 1⟩, ⟨(· = 2), 1, 1⟩, ⟨(· = 3), 1, 0⟩]

/-- The `add` is issued in the cycle in which the `csrw` commits. -/
def issuedEarly : List PipeIn :=
  untilCsrw ++ [⟨fun _ => false, 1, 1⟩, ⟨(· = 4), 0, 0⟩, ⟨fun _ => false, 1, 0⟩]

/-- The `add` is issued one cycle later. -/
def issuedLate : List PipeIn :=
  untilCsrw ++ [⟨fun _ => false, 1, 0⟩, ⟨fun _ => false, 0, 1⟩, ⟨(· = 4), 0, 0⟩,
    ⟨fun _ => false, 1, 0⟩]

namespace Pipe

instance (c : Word) (es : List Entry) (i : StreamInstr) : Decidable (SourcedAll c es i) :=
  inferInstanceAs (Decidable (∀ r ∈ [i.rs1, i.rs2], r ≠ 0 → Sourced c r es))

instance (F : CsrFile C) (prog : Nat → StreamInstr) (s : Pipe C) (i : PipeIn) :
    Decidable (Tracked F prog s i) :=
  inferInstanceAs (Decidable (_ → _ ∧ _))

theorem issuedLate_inOrder :
    ∃ s, run (cycle cv32a6Pipe noCsrs switchStream) (start archReset) issuedLate = some s ∧
      s.retired = 5 ∧ s.arch = inOrder noCsrs switchStream archReset 5 := by
  have hfacts : (run (cycle cv32a6Pipe noCsrs switchStream) (start archReset) issuedLate).map
      (·.retired) = some 5 := by decide +kernel
  obtain ⟨s, hs, hretired⟩ := Option.map_eq_some_iff.mp hfacts
  have hinOrder := committed_inOrder cv32a6Pipe noCsrs switchStream archReset hs (by decide +kernel)
  rw [hretired] at hinOrder
  exact ⟨s, hs, hretired, hinOrder⟩

/-- The `add` reads cell 6, which holds 7; in the window it is to run in, `t1` is cell 38. -/
theorem issuedEarly_not_inOrder :
    ∃ s, run (cycle cv32a6Pipe noCsrs switchStream) (start archReset) issuedEarly = some s ∧
      s.retired = 5 ∧ s.arch.core.mem 33 = 7 ∧
      (inOrder noCsrs switchStream archReset 5).core.mem 33 = 0 := by
  have hfacts : (run (cycle cv32a6Pipe noCsrs switchStream) (start archReset) issuedEarly).map
      (fun s => (s.retired, s.arch.core.mem 33)) = some (5, 7) := by decide +kernel
  obtain ⟨s, hs, hv⟩ := Option.map_eq_some_iff.mp hfacts
  obtain ⟨hretired, hmem⟩ := Prod.mk.inj hv
  exact ⟨s, hs, hretired, hmem, by decide +kernel⟩

end Pipe

end RegisterWindows.Cva6
