import RegisterWindows.Bench.SameWork
import RegisterWindows.Lib.Fifo

namespace RegisterWindows.Bench.Windowed
open Port

def entry {k : Nat} : Option (Fin k) → Word
  | none => -1
  | some i => BitVec.ofNat 32 i

theorem ofNat_inj {i j : Nat} (hi : i ≤ 100) (hj : j ≤ 100) :
    BitVec.ofNat 32 i = BitVec.ofNat 32 j ↔ i = j := by
  constructor
  · intro h
    have hn := congrArg BitVec.toNat h
    rw [BitVec.toNat_ofNat, BitVec.toNat_ofNat] at hn
    omega
  · rintro rfl
    rfl

theorem entry_none_ne {i : Nat} (hi : i < 100) : (-1 : Word) ≠ BitVec.ofNat 32 i := by
  intro h
  have hmsb := msb_task hi
  rw [← h] at hmsb
  exact absurd hmsb (by decide)

theorem entry_eq_ofNat {k i : Nat} {o : Option (Fin k)} (hk : k ≤ 100) (hi : i < k) :
    entry o = BitVec.ofNat 32 i ↔ o = some ⟨i, hi⟩ := by
  cases o with
  | none => simpa [entry] using entry_none_ne (by omega)
  | some j => simp [entry, ofNat_inj (show j.val ≤ 100 by omega) (show i ≤ 100 by omega),
    Fin.ext_iff]

theorem msb_entry {k : Nat} {o : Option (Fin k)} (hk : k ≤ 100) : (entry o).msb = o.isNone := by
  cases o with
  | none => exact show (-1 : Word).msb = true by decide
  | some j => exact msb_task (by omega)

/-- The tables hold the state of the abstract allocator. -/
structure Represents (W : Nat → Word) (F : Fifo (Fin 100) 4) : Prop where
  slot : ∀ t : Fin 100, W (taskToSlot + 4 * t) = entry (F.slot t)
  owner : ∀ s : Fin 4, W (slotToTask + 4 * s) = entry (F.owner s)
  oldest : W stateOldestSlot = BitVec.ofNat 32 F.oldest

variable {L : BareMetal} {clock : Nat → Word}

/-- The entry of the task of an iteration that begins in `b`. -/
def taskEntry {H : Type} (L : BareMetal) (b : Timed H) : Word :=
  L.words b.mem (taskToSlot + 4 * taskId L b)

/-- The lookup reads the entry of the task, or another one that is negative as well. -/
def KeepsKey {H : Type} (L : BareMetal) (clock : Nat → Word) (b : Timed H) : Prop :=
  lookupWord L clock b = taskEntry L b ∨
    (lookupWord L clock b).msb = true ∧ (taskEntry L b).msb = true

theorem KeepsKey.msb {H : Type} {b : Timed H} (h : KeepsKey L clock b) :
    (lookupWord L clock b).msb = (taskEntry L b).msb := by
  obtain h | ⟨h, h'⟩ := h
  · rw [h]
  · rw [h, h']

theorem allocTables_task {t u s : Nat} {W : Nat → Word} (hu : u < 100) (hs : s < 4)
    (hold : TaskOrNone (W (slotToTask + 4 * s))) :
    allocTables t s W (taskToSlot + 4 * u) = if u = t then BitVec.ofNat 32 s
      else if W (slotToTask + 4 * s) = BitVec.ofNat 32 u then -1 else W (taskToSlot + 4 * u) := by
  unfold allocTables
  rw [Function.update_of_ne (by simp; omega)]
  by_cases hut : u = t
  · rw [if_pos hut, hut, Function.update_self]
  · rw [if_neg hut, Function.update_of_ne (by simp; omega)]
    obtain h | ⟨v, hv, h⟩ := hold
    · rw [h, if_pos (by decide), if_neg (entry_none_ne hu)]
    · simp only [h, msb_task hv, toNat_ofNat_task hv, ofNat_inj hv.le hu.le, Bool.false_eq_true,
        if_false]
      by_cases hvu : v = u
      · rw [if_pos hvu, hvu, Function.update_self]
      · rw [if_neg hvu, Function.update_of_ne (by simp; omega)]

theorem Represents.oldest_eq {W : Nat → Word} {F : Fifo (Fin 100) 4} {s : Nat} (hF : Represents W F)
    (hs : s < 4) (ho : W stateOldestSlot = BitVec.ofNat 32 s) : s = F.oldest.val :=
  (ofNat_inj (by omega) (by omega)).mp (ho.symm.trans hF.oldest)

theorem Represents.round {b b' : Timed Flat} {F : Fifo (Fin 100) 4} {t : Fin 100} {s : Nat}
    (hF : Represents (L.words b.mem) F) (hl : AtLoop L t s b) (hr : Round L clock t s b b')
    (hk : KeepsKey L clock b) : Represents (L.words b'.mem) (F.request t) := by
  have hs := hl.oldest_lt
  have hso := hF.oldest_eq hs hl.oldest
  have hentry : taskEntry L b = entry (F.slot t) := by
    rw [taskEntry, hl.taskId, hF.slot]
  have hmsb : (lookupWord L clock b).msb = (F.slot t).isNone := by
    rw [hk.msb, hentry]
    exact msb_entry (by decide)
  have htables := hr.tables
  have holdest := hr.oldest
  cases hslot : F.slot t with
  | some s' =>
    simp only [hmsb, hslot, Option.isNone_some, Bool.false_eq_true, if_false] at htables holdest
    rw [Fifo.request_of_some hslot]
    refine ⟨fun u => ?_, fun j => ?_, ?_⟩
    · rw [htables _ (by simp; omega), hF.slot]
    · rw [htables _ (by simp; omega), hF.owner]
    · rw [holdest, hso]
  | none =>
    simp only [hmsb, hslot, Option.isNone_none, if_true] at htables holdest
    have hold := hl.owners s hs
    subst hso
    rw [Fifo.request_of_none hslot]
    refine ⟨fun u => ?_, fun j => ?_, ?_⟩
    · rw [htables _ (by simp; omega), allocTables_task u.isLt hs hold]
      simp only [hF.owner, hF.slot, entry_eq_ofNat (Nat.le_refl 100) u.isLt, Fin.val_inj, Fin.eta,
        Fifo.allocate]
      split
      · rfl
      · split <;> rfl
    · rw [htables _ (by simp; omega), allocTables_owner t.isLt j.isLt hold, hF.owner]
      simp only [Fin.val_inj, Fifo.allocate, Function.update_apply]
      split <;> rfl
    · rw [holdest]
      simp [Fifo.allocate, Fin.val_add]

/-- Iteration `n`: from `b` at `srw_loop` over `h` at `srw_have_slot` to `b'` at `srw_loop`. -/
structure Iterates (L : BareMetal) (clock : Nat → Word) (m : Timed Cva6.Regs) (n : Nat)
    (b h b' : Timed Cva6.Regs) : Prop where
  head : after Cva6.Regs L clock n m = some b
  slot : (toHaveSlot L).exec (ops Cva6.Regs clock) b = some h
  next : after Cva6.Regs L clock (n + 1) m = some b'

variable {m b h b' : Timed Cva6.Regs} {n : Nat}

theorem Iterates.unique {c g c' : Timed Cva6.Regs} (hi : Iterates L clock m n b h b')
    (hi' : Iterates L clock m n c g c') : b = c ∧ h = g ∧ b' = c' := by
  obtain rfl := Option.some.inj (hi.head.symm.trans hi'.head)
  exact ⟨rfl, Option.some.inj (hi.slot.symm.trans hi'.slot),
    Option.some.inj (hi.next.symm.trans hi'.next)⟩

/-- What iteration `n` does, whatever its lookup reads. -/
structure Iterated (L : BareMetal) (clock : Nat → Word) (n s : Nat) (b h b' : Timed Cva6.Regs) :
    Prop where
  head : AtLoop L (n % 100) s b.view
  slot : AtHaveSlot L clock (n % 100) s b.view h.view
  next : Round L clock (n % 100) s b.view b'.view

theorem iterates (hd : m.Default) (n : Nat) :
    ∃ b h b' s, Iterates L clock m n b h b' ∧ Iterated L clock n s b h b' := by
  obtain ⟨b, hb, ⟨⟨s, hl⟩, -⟩, hbd⟩ := after_of_flat rfl rfl hd
    (@after_workDone L clock (fun k => L.words m.mem (416 + k)) m.view (fun _ _ _ => rfl) n)
  obtain ⟨h, hh, hslot, hhd⟩ := ends_of_flat (c := toHaveSlot L) rfl hbd
    (@ends_toHaveSlot L clock _ _ _ hl)
  have htask : L.words h.view.mem stateTaskId = BitVec.ofNat 32 (n % 100) := by
    rw [hslot.states _ (by decide) (by decide), hl.task]
  obtain ⟨b', hb', hnext, -⟩ := ends_of_flat (c := haveSlot L) rfl hhd
    (@ends_haveSlot L clock _ _ hl.task_lt htask)
  refine ⟨b, h, b', s, ⟨hb, hh, ?_⟩, hl, hslot, .of_haveSlot hslot hnext⟩
  rw [after, Code.after_succ]
  exact Option.bind_eq_some_iff.mpr ⟨b, hb, Option.bind_eq_some_iff.mpr ⟨h, hh, hb'⟩⟩

structure Consistent {H : Type} (L : BareMetal) (b : Timed H) : Prop where
  paired : ∀ t < 100, ∀ s < 4, L.words b.mem (taskToSlot + 4 * t) = BitVec.ofNat 32 s ↔
    L.words b.mem (slotToTask + 4 * s) = BitVec.ofNat 32 t
  slots : ∀ t < 100, L.words b.mem (taskToSlot + 4 * t) = -1 ∨
    ∃ s < 4, L.words b.mem (taskToSlot + 4 * t) = BitVec.ofNat 32 s
  tasks : ∀ s < 4, L.words b.mem (slotToTask + 4 * s) = -1 ∨
    ∃ t < 100, L.words b.mem (slotToTask + 4 * s) = BitVec.ofNat 32 t

/-- The task of the iteration that begins in `b` has no slot. -/
def Misses {H : Type} (L : BareMetal) (b : Timed H) : Prop := taskEntry L b = -1

/-- Iteration `k` gives slot `s` to a task that had none. -/
def Allocates (L : BareMetal) (clock : Nat → Word) (m : Timed Cva6.Regs) (k s : Nat) : Prop :=
  ∃ b h b', Iterates L clock m k b h b' ∧ Misses L b ∧ h.x t2 = BitVec.ofNat 32 s

/-- Slot `s` is used in iteration `n`. -/
structure Uses (L : BareMetal) (clock : Nat → Word) (m : Timed Cva6.Regs) (n s : Nat)
    (b h : Timed Cva6.Regs) : Prop where
  lt : s < 4
  slot : h.x t2 = BitVec.ofNat 32 s
  owned : L.words h.mem (slotToTask + 4 * s) = L.words h.mem stateTaskId
  /-- A task that has a slot gets that slot again, and nothing is evicted. -/
  hit : ∀ s' < 4, taskEntry L b = BitVec.ofNat 32 s' →
    s = s' ∧ L.words h.mem stateOldestSlot = L.words b.mem stateOldestSlot
  /-- Since the slot was allocated, every other one has been. -/
  miss : Misses L b → ∀ k < n, Allocates L clock m k s →
    ∀ s' < 4, s' ≠ s → ∃ j, k < j ∧ j < n ∧ Allocates L clock m j s'

/-- An iteration changes the arrays as the workload does, and besides them only the other variables
of the program and two words of the report. -/
structure Framed {H : Type} (L : BareMetal) (b b' : Timed H) : Prop where
  arrays : ∀ k, 416 ≤ k → k < 3616 →
    L.words b'.mem k = workload workloadArrays (taskId L b) (L.words b.mem) k
  outside : ∀ a : Word, (∀ k < 4208, a ≠ L.addr k) → a ≠ 0x118 → a ≠ 0x11c → b'.mem a = b.mem a

/-- The allocator is consistent before iteration `n`, and finds the right slot in it. -/
def FifoAt (L : BareMetal) (clock : Nat → Word) (m : Timed Cva6.Regs) (n : Nat) : Prop :=
  ∃ b h b', Iterates L clock m n b h b' ∧ Consistent L b ∧ (∃ s, Uses L clock m n s b h) ∧
    Framed L b b'

theorem Represents.consistent {F : Fifo (Fin 100) 4} (hF : Represents (L.words b.mem) F) :
    Consistent L b where
  paired t ht s hs := by
    have hslot := hF.slot ⟨t, ht⟩
    have howner := hF.owner ⟨s, hs⟩
    rw [hslot, howner, entry_eq_ofNat (by decide) hs, entry_eq_ofNat (by decide) ht, F.paired]
  slots t ht := by
    rw [hF.slot ⟨t, ht⟩]
    cases F.slot ⟨t, ht⟩ with
    | none => exact .inl rfl
    | some s => exact .inr ⟨s, s.isLt, rfl⟩
  tasks s hs := by
    rw [hF.owner ⟨s, hs⟩]
    cases F.owner ⟨s, hs⟩ with
    | none => exact .inl rfl
    | some t => exact .inr ⟨t, t.isLt, rfl⟩

theorem Iterated.framed {s : Nat} (hi : Iterated L clock n s b h b') : Framed L b b' where
  arrays k hk hk' := by
    have htask : taskId L b = n % 100 := hi.head.taskId
    rw [htask]
    exact hi.next.arrays k hk hk'
  outside a ha h118 h11c := by
    by_cases hbss : ∃ k < 0x2000, a = L.addr k
    · obtain ⟨k, hk, rfl⟩ := hbss
      have hle : 4208 ≤ k := Nat.le_of_not_lt fun hlt => ha k hlt rfl
      have habove := hi.next.above k hle
      simp only [BareMetal.words, if_pos hk] at habove
      exact habove
    · exact hi.next.outside a (fun k hk he => hbss ⟨k, hk, he⟩) h118 h11c

def key (i : Nat) : Fin 100 := ⟨i % 100, Nat.mod_lt _ (by decide)⟩

/-- The allocator after `n` tasks in turn. -/
abbrev allocator (n : Nat) : Fifo (Fin 100) 4 := Fifo.run key n

theorem Initialised.represents {c c' : Timed Flat} (hi : Initialised L c c') :
    Represents (L.words c'.mem) .empty where
  slot t := hi.tasks t t.isLt
  owner s := hi.slots s s.isLt
  oldest := hi.oldest

theorem represents_after (hd : m.Default) {N : Nat}
    (hkeys : ∀ k < N, ∃ b, after Cva6.Regs L clock k m = some b ∧ KeepsKey L clock b) {n : Nat}
    (hn : n ≤ N) :
    ∃ b, after Cva6.Regs L clock n m = some b ∧ Represents (L.words b.mem) (allocator n) := by
  induction n with
  | zero =>
    obtain ⟨b, hb, hi, -⟩ := ends_of_flat (c := init L) rfl hd
      (@ends_init L clock m.view)
    exact ⟨b, (Code.after_zero _ _ _ _).trans hb, hi.represents⟩
  | succ n ih =>
    obtain ⟨b, h, b', s, hi, hit⟩ := @iterates L clock m hd n
    obtain ⟨c, hc, hF⟩ := ih (Nat.le_of_succ_le hn)
    obtain ⟨d, hd', hk⟩ := hkeys n hn
    obtain rfl := Option.some.inj (hi.head.symm.trans hc)
    obtain rfl := Option.some.inj (hi.head.symm.trans hd')
    exact ⟨b', hi.next, Represents.round (t := key n) hF hit.head hit.next hk⟩

/-- An iteration in which the lookup finds what it should. -/
structure Kept (L : BareMetal) (clock : Nat → Word) (n : Nat) (b h : Timed Cva6.Regs) : Prop where
  tables : Represents (L.words b.mem) (allocator n)
  taskEntry : taskEntry L b = entry ((allocator n).slot (key n))
  msb : (lookupWord L clock b).msb = ((allocator n).slot (key n)).isNone
  slot : h.x t2 = BitVec.ofNat 32 ((allocator n).granted (key n))

theorem kept {s : Nat} (hit : Iterated L clock n s b h b')
    (hF : Represents (L.words b.mem) (allocator n)) (hk : KeepsKey L clock b) :
    Kept L clock n b h := by
  have htask : taskId L b = n % 100 := hit.head.taskId
  have hentry : taskEntry L b = entry ((allocator n).slot (key n)) := by
    rw [taskEntry, htask]
    exact hF.slot (key n)
  have hmsb : (lookupWord L clock b).msb = ((allocator n).slot (key n)).isNone := by
    rw [hk.msb, hentry]
    exact msb_entry (by decide)
  refine ⟨hF, hentry, hmsb, (h.view_x t2).symm.trans (hit.slot.slot.trans ?_)⟩
  have hview : lookupWord L clock b.view = lookupWord L clock b := rfl
  rw [hview, hmsb, Fifo.granted]
  cases hslot : (allocator n).slot (key n) with
  | none =>
    have hs := hF.oldest_eq hit.head.oldest_lt hit.head.oldest
    exact congrArg (BitVec.ofNat 32) hs
  | some s' =>
    rw [hslot] at hentry hmsb
    obtain he | ⟨he, -⟩ := hk
    · exact he.trans hentry
    · rw [hmsb] at he
      exact absurd he Bool.false_ne_true

theorem Kept.owned {s : Nat} (hk : Kept L clock n b h) (hit : Iterated L clock n s b h b') :
    L.words h.mem (slotToTask + 4 * ((allocator n).granted (key n)).val) =
      L.words h.mem stateTaskId := by
  have htask : L.words h.mem stateTaskId = BitVec.ofNat 32 (n % 100) :=
    (hit.slot.states _ (by decide) (by decide)).trans hit.head.task
  have htables := hit.slot.tables (slotToTask + 4 * ((allocator n).granted (key n)).val)
    (by simp; omega)
  have hmsb : (lookupWord L clock b.view).msb = ((allocator n).slot (key n)).isNone := hk.msb
  refine Eq.trans (htables.trans ?_) htask.symm
  rw [hmsb]
  cases hslot : (allocator n).slot (key n) with
  | none =>
    have hs := hk.tables.oldest_eq hit.head.oldest_lt hit.head.oldest
    rw [Option.isNone_none, if_pos rfl, Fifo.granted, hslot, Option.getD_none,
      allocTables_owner hit.head.task_lt (Fin.isLt _) (hit.head.owners s hit.head.oldest_lt),
      if_pos hs.symm]
  | some s' =>
    have howner : (allocator n).owner s' = some (key n) := ((allocator n).paired _ _).mp hslot
    rw [Option.isNone_some, if_neg Bool.false_ne_true, Fifo.granted, hslot, Option.getD_some]
    exact (hk.tables.owner s').trans (congrArg entry howner)

theorem Kept.hit {s : Nat} (hk : Kept L clock n b h) (hit : Iterated L clock n s b h b') {s' : Nat}
    (hs' : s' < 4) (he : Windowed.taskEntry L b = BitVec.ofNat 32 s') :
    ((allocator n).granted (key n)).val = s' ∧
      L.words h.mem stateOldestSlot = L.words b.mem stateOldestSlot := by
  rw [hk.taskEntry, entry_eq_ofNat (by decide) hs'] at he
  have hmsb : (lookupWord L clock b.view).msb = false := by
    refine Eq.trans hk.msb ?_
    rw [he, Option.isNone_some]
  refine ⟨by rw [Fifo.granted, he, Option.getD_some], ?_⟩
  have holdest := hit.slot.oldest
  rw [hmsb] at holdest
  exact holdest.trans hit.head.oldest.symm

theorem Kept.misses_iff (hk : Kept L clock n b h) : Misses L b ↔ Fifo.Misses key 4 n := by
  rw [Misses, hk.taskEntry, Fifo.Misses]
  cases (allocator n).slot (key n) with
  | none => exact iff_of_true rfl rfl
  | some s => exact iff_of_false (entry_none_ne (by omega)).symm (Option.some_ne_none s)

section
variable (hd : m.Default) {N : Nat}
  (hkeys : ∀ k ≤ N, ∃ b, after Cva6.Regs L clock k m = some b ∧ KeepsKey L clock b)
include hd hkeys

theorem iterates_kept (hn : n ≤ N) : ∃ b h b' s, Iterates L clock m n b h b' ∧
    Iterated L clock n s b h b' ∧ Kept L clock n b h := by
  obtain ⟨b, h, b', s, hi, hit⟩ := @iterates L clock m hd n
  obtain ⟨c, hc, hF⟩ := represents_after hd (fun k hk => hkeys k hk.le) hn
  obtain ⟨d, hd', hk⟩ := hkeys n hn
  obtain rfl := Option.some.inj (hi.head.symm.trans hc)
  obtain rfl := Option.some.inj (hi.head.symm.trans hd')
  exact ⟨b, h, b', s, hi, hit, kept hit hF hk⟩

theorem allocates_iff {k s : Nat} (hk : k ≤ N) (hs : s < 4) :
    Allocates L clock m k s ↔ Fifo.Misses key 4 k ∧ (allocator k).oldest.val = s := by
  obtain ⟨b, h, b', -, hi, -, hk⟩ := iterates_kept hd hkeys hk
  have hgrant (hmiss : Fifo.Misses key 4 k) :
      (allocator k).granted (key k) = (allocator k).oldest := by
    rw [Fifo.granted, hmiss, Option.getD_none]
  constructor
  · rintro ⟨c, g, c', hi', hmiss, hslot⟩
    obtain ⟨rfl, rfl, -⟩ := hi.unique hi'
    have hmiss' := hk.misses_iff.mp hmiss
    refine ⟨hmiss', ?_⟩
    rw [hk.slot, hgrant hmiss', ofNat_inj (by omega) (by omega)] at hslot
    exact hslot
  · rintro ⟨hmiss, rfl⟩
    exact ⟨b, h, b', hi, hk.misses_iff.mpr hmiss, by rw [hk.slot, hgrant hmiss]⟩

theorem fifoAt_of_keepsKey (hn : n ≤ N) : FifoAt L clock m n := by
  obtain ⟨b, h, b', s, hi, hit, hk⟩ := iterates_kept hd hkeys hn
  refine ⟨b, h, b', hi, hk.tables.consistent, ⟨_, Fin.isLt _, hk.slot, hk.owned hit,
    fun s' => hk.hit hit, ?_⟩, hit.framed⟩
  · intro hmiss k hkn halloc s' hs' hne
    obtain ⟨hmissk, hold⟩ := (allocates_iff hd hkeys (hkn.le.trans hn) (Fin.isLt _)).mp halloc
    have hmissn := hk.misses_iff.mp hmiss
    have hgrant : (allocator n).granted (key n) = (allocator n).oldest := by
      rw [Fifo.granted, hmissn, Option.getD_none]
    rw [hgrant] at hold hne
    obtain ⟨j, hkj, hjn, hj, hjs⟩ := Fifo.oldest_first key hkn hmissk (Fin.ext hold)
      (s := ⟨s', hs'⟩) (fun he => hne (congrArg Fin.val he))
    exact ⟨j, hkj, hjn, (allocates_iff hd hkeys (hjn.le.trans hn) hs').mpr ⟨hj,
      congrArg Fin.val hjs⟩⟩

end

theorem keepsKey_of_fifoAt (hd : m.Default) (hf : FifoAt L clock m n) :
    ∃ b, after Cva6.Regs L clock n m = some b ∧ KeepsKey L clock b := by
  obtain ⟨b, h, b', hi, hcons, ⟨s, hu⟩, -⟩ := hf
  obtain ⟨c, g, c', s', hi', hit⟩ := @iterates L clock m hd n
  obtain ⟨rfl, rfl, -⟩ := hi.unique hi'
  refine ⟨b, hi.head, ?_⟩
  have htask : taskId L b = n % 100 := hit.head.taskId
  have hlt : n % 100 < 100 := Nat.mod_lt n (by decide)
  have hs' := hit.head.oldest_lt
  have hview : lookupWord L clock b.view = lookupWord L clock b := rfl
  have hslot : h.x t2 = _ := (h.view_x t2).symm.trans hit.slot.slot
  have htables := hit.slot.tables
  have holdest : L.words h.mem stateOldestSlot = _ := hit.slot.oldest
  rw [hview] at hslot holdest htables
  unfold KeepsKey taskEntry
  rw [htask]
  cases hmsb : (lookupWord L clock b).msb with
  | false =>
    refine .inl ?_
    simp only [hmsb, Bool.false_eq_true, if_false] at hslot htables
    have howned : L.words b.mem (slotToTask + 4 * s) = BitVec.ofNat 32 (n % 100) := by
      refine Eq.trans (htables _ (by have := hu.lt; simp; omega)).symm (hu.owned.trans ?_)
      exact (hit.slot.states _ (by decide) (by decide)).trans hit.head.task
    rw [← hslot, hu.slot, (hcons.paired _ hlt s hu.lt).mpr howned]
  | true =>
    refine .inr ⟨rfl, ?_⟩
    obtain he | ⟨s'', hs'', he⟩ := hcons.slots _ hlt
    · rw [he]
      decide
    · -- the task has a slot, and another one has been evicted
      have hkept := (hu.hit s'' hs'' (by rw [taskEntry, htask, he])).2
      rw [holdest, hmsb, if_pos rfl] at hkept
      have hsame := hkept.trans hit.head.oldest
      rw [ofNat_inj (by omega) (by omega)] at hsame
      omega

/-- With its arrays still zero, task 6 leaves 110 in `t6`, and entry 110 of `task_to_slot` is its own
signal in `pid_prev`. -/
theorem lookupWord_six {b : Timed Flat} {s : Nat} (hl : AtLoop L 6 s b)
    (hprev : L.words b.mem (pidPrev workloadArrays + 24) = 0)
    (herr : L.words b.mem (pidErr workloadArrays + 24) = 0) : lookupWord L clock b = 55 := by
  have hprev' : L.words b.mem 440 = 0 := hprev
  have herr' : L.words b.mem 840 = 0 := herr
  have hkey : workloadT6 workloadArrays 6 (L.words b.mem) (BitVec.ofNat 32 6) <<< 2 = 440 := by
    simp [workloadT6, pidStep, hprev', herr']
  have haddr : L.addr taskToSlot + 440 = L.addr 440 := L.addr_add 0 440
  rw [lookupWord, hl.taskId, hkey, haddr, L.patch_addr _ _ (by decide)]
  simp [atLookup, workload, pidStep]

theorem lookup_six (L : BareMetal) (clock : Nat → Word) :
    ∃ b h b' s, Iterates L clock Timed.reset 6 b h b' ∧ Iterated L clock 6 s b h b' ∧
      lookupWord L clock b = 55 := by
  obtain ⟨b, h, b', s, hi, hit⟩ := @iterates L clock _ Timed.default_reset 6
  have hzero : HoldsArrays 416 (fun _ => 0) (L.words Timed.reset.view.mem) :=
    holdsArrays_iff.mpr (zeroed_reset L 416)
  obtain ⟨c, hc, ⟨-, ha⟩, -⟩ := after_of_flat rfl rfl Timed.default_reset
    (@after_workDone L clock _ _ hzero 6)
  obtain rfl := Option.some.inj (hi.head.symm.trans hc)
  refine ⟨b, h, b', s, hi, hit, lookupWord_six (b := b.view) hit.head ?_ ?_⟩
  · exact (ha 24 (by decide) (by decide)).trans (by decide)
  · exact (ha 424 (by decide) (by decide)).trans (by decide)

/-- When the allocator is consistent, and finds the right slot, up to iteration `n`. -/
theorem fifo_slots_iff (L : BareMetal) (clock : Nat → Word) (m : Timed Cva6.Regs) (h : m.Default)
    (n : Nat) :
    (∀ k ≤ n, FifoAt L clock m k) ↔
      ∀ k ≤ n, ∃ b, after Cva6.Regs L clock k m = some b ∧ KeepsKey L clock b :=
  ⟨fun hf k hk => keepsKey_of_fifoAt h (hf k hk), fun hkeys _ hk => fifoAt_of_keepsKey h hkeys hk⟩

theorem fifo_slots_iff_reset :
    (∀ k ≤ 5, FifoAt .small (BitVec.ofNat 32) Timed.reset k) ↔
      ∀ k ≤ 5, ∃ b, after Cva6.Regs .small (BitVec.ofNat 32) k Timed.reset = some b ∧
        KeepsKey .small (BitVec.ofNat 32) b :=
  fifo_slots_iff .small (BitVec.ofNat 32) Timed.reset Timed.default_reset 5

/-- From the reset of CVA6, with zeros in the arrays, the seventh iteration uses "slot" 55. -/
theorem fifo_slots_lost :
    (∃ b h b', Iterates .small (BitVec.ofNat 32) Timed.reset 6 b h b' ∧ h.x t2 = 55) ∧
      ¬ FifoAt .small (BitVec.ofNat 32) Timed.reset 6 := by
  obtain ⟨b, h, b', s, hi, hit, hword⟩ := lookup_six .small (BitVec.ofNat 32)
  have hslot : h.x t2 = 55 := by
    refine (h.view_x t2).symm.trans (hit.slot.slot.trans ?_)
    have hview : lookupWord .small (BitVec.ofNat 32) b.view = 55 := hword
    rw [hview]
    rfl
  refine ⟨⟨b, h, b', hi, hslot⟩, ?_⟩
  rintro ⟨c, g, c', hi', -, ⟨j, hu⟩, -⟩
  obtain ⟨rfl, rfl, -⟩ := hi.unique hi'
  have hj := hu.lt
  have hsame := hslot.symm.trans hu.slot
  rw [show (55 : Word) = BitVec.ofNat 32 55 from rfl, ofNat_inj (by omega) (by omega)] at hsame
  omega

end RegisterWindows.Bench.Windowed
