import Mathlib.Data.BitVec
import RegisterWindows.Lib.Run
import RegisterWindows.Window

namespace RegisterWindows.Port

/-- A `uint64_t` in memory. -/
structure Words where
  low : Word
  high : Word
deriving DecidableEq, Repr

namespace Words

def val (w : Words) : Nat := w.low.toNat + 2 ^ 32 * w.high.toNat

def ofBits (v : BitVec 64) : Words := ⟨v.setWidth 32, (v >>> 32).setWidth 32⟩

theorem val_ofBits (v : BitVec 64) : (ofBits v).val = v.toNat := by
  have hv := v.isLt
  simp only [val, ofBits, BitVec.toNat_setWidth, BitVec.toNat_ushiftRight,
    Nat.shiftRight_eq_div_pow]
  omega

end Words

/-- The timer, its compare register, and the variables of the port. -/
structure Timer where
  mtime : Nat
  mtimecmp : Words
  ullNextTime : Words
  uxTimerIncrementsForOneTick : Word
  /-- History: the values the compare register went through, the last one first. -/
  compares : List Words
  /-- History: the timer interrupts so far. -/
  ticks : Nat
deriving DecidableEq, Repr

namespace Timer

/-- A store to one half of the compare register. -/
def setCompare (t : Timer) (w : Words) : Timer :=
  { t with mtimecmp := w, compares := w :: t.compares }

def portUpdateMtimerCompareRegister (t : Timer) : Timer :=
  let a2 := t.ullNextTime.low
  let a3 := t.ullNextTime.high
  -- the low word is at its highest while the high word changes
  let t := t.setCompare ⟨-1, t.mtimecmp.high⟩
  let t := t.setCompare ⟨t.mtimecmp.low, a3⟩
  let t := t.setCompare ⟨a2, t.mtimecmp.high⟩
  let a4 := t.uxTimerIncrementsForOneTick + a2
  let t1 : Word := if a4 < a2 then 1 else 0
  let t2 := a3 + t1
  { t with ullNextTime := ⟨a4, t2⟩ }

/-- The value that the reads of `mtime` at the moments of `clock` agree on, given up after a
number of rounds. -/
def readTime (clock : Nat → BitVec 64) : Nat → Nat → Option (BitVec 64)
  | 0, _ => none
  | fuel + 1, n =>
    let ulCurrentTimeHigh := (Words.ofBits (clock n)).high
    let ulCurrentTimeLow := (Words.ofBits (clock (n + 1))).low
    if ulCurrentTimeHigh ≠ (Words.ofBits (clock (n + 2))).high then readTime clock fuel (n + 3)
    else some (ulCurrentTimeHigh.setWidth 64 <<< 32 ||| ulCurrentTimeLow.setWidth 64)

def vPortSetupTimerInterrupt (clock : Nat → BitVec 64) (fuel : Nat) (t : Timer) : Option Timer :=
  (readTime clock fuel 0).map fun ullNextTime =>
    let ullNextTime := ullNextTime + t.uxTimerIncrementsForOneTick.setWidth 64
    let t := t.setCompare (Words.ofBits ullNextTime)
    { t with ullNextTime :=
        Words.ofBits (ullNextTime + t.uxTimerIncrementsForOneTick.setWidth 64) }

theorem joined_toNat (h l : Word) :
    (h.setWidth 64 <<< 32 ||| l.setWidth 64 : BitVec 64).toNat = l.toNat + 2 ^ 32 * h.toNat := by
  have hl := l.isLt
  have hh := h.isLt
  rw [BitVec.toNat_or, BitVec.toNat_shiftLeft, BitVec.toNat_setWidth, BitVec.toNat_setWidth,
    Nat.shiftLeft_eq, Nat.mod_eq_of_lt (by omega), Nat.mod_eq_of_lt (by omega),
    Nat.mod_eq_of_lt (by omega), Nat.mul_comm, Nat.or_comm]
  rw [Nat.or_comm, ← Nat.two_pow_add_eq_or_of_lt hl, Nat.add_comm]

/-- Where the high word is the same before and after, the low word belongs to it. -/
theorem joined_read {clock : Nat → BitVec 64} (hc : ∀ i, clock i ≤ clock (i + 1)) {n : Nat}
    (h : (Words.ofBits (clock n)).high = (Words.ofBits (clock (n + 2))).high) :
    ((Words.ofBits (clock n)).high.setWidth 64 <<< 32 |||
      (Words.ofBits (clock (n + 1))).low.setWidth 64 : BitVec 64) = clock (n + 1) := by
  apply BitVec.eq_of_toNat_eq
  have h1 : clock n ≤ clock (n + 1) := hc n
  have h2 : clock (n + 1) ≤ clock (n + 2) := hc (n + 1)
  have hlt := (clock (n + 2)).isLt
  have hs := congrArg BitVec.toNat h
  rw [joined_toNat]
  simp only [Words.ofBits, BitVec.toNat_setWidth, BitVec.toNat_ushiftRight,
    Nat.shiftRight_eq_div_pow, BitVec.le_def] at hs h1 h2 ⊢
  omega

/-- The loop ends at the latest with the first round in which the high word does not change, and
with what the clock showed at the second read of a round. -/
theorem readTime_eq {clock : Nat → BitVec 64} (hc : ∀ i, clock i ≤ clock (i + 1)) {fuel n j : Nat}
    (hj : j < fuel)
    (h : (Words.ofBits (clock (n + 3 * j))).high = (Words.ofBits (clock (n + 3 * j + 2))).high) :
    ∃ i ≤ j, readTime clock fuel n = some (clock (n + 3 * i + 1)) := by
  obtain ⟨fuel, rfl⟩ :=
    Nat.exists_eq_succ_of_ne_zero (Nat.ne_of_gt (Nat.lt_of_le_of_lt (Nat.zero_le _) hj))
  induction j generalizing n fuel with
  | zero =>
    have h' : (Words.ofBits (clock n)).high = (Words.ofBits (clock (n + 2))).high := h
    rw [readTime, if_neg (not_not.mpr h')]
    exact ⟨0, Nat.le_refl _, congrArg some (joined_read hc h')⟩
  | succ j ih =>
    rw [readTime]
    split
    · have hj' := Nat.lt_of_succ_lt_succ hj
      obtain ⟨fuel, rfl⟩ :=
        Nat.exists_eq_succ_of_ne_zero (Nat.ne_of_gt (Nat.lt_of_le_of_lt (Nat.zero_le _) hj'))
      have he : n + 3 + 3 * j = n + 3 * (j + 1) := by omega
      obtain ⟨i, hi, hr⟩ := ih (n := n + 3) (by rw [he]; exact h) fuel hj'
      refine ⟨i + 1, Nat.succ_le_succ hi, hr.trans ?_⟩
      rw [show n + 3 + 3 * i = n + 3 * (i + 1) by omega]
    · rename_i hsame
      exact ⟨0, Nat.zero_le _, congrArg some (joined_read hc (not_not.mp hsame))⟩

/-- The first tick is due one increment after a read of the setup's loop, and the next one follows
it at the same distance, whatever the clock does between the reads. -/
theorem setup_snapshot {clock : Nat → BitVec 64} {t : Timer} {fuel j : Nat}
    (hc : ∀ i, clock i ≤ clock (i + 1)) (hj : j < fuel)
    (h : (Words.ofBits (clock (3 * j))).high = (Words.ofBits (clock (3 * j + 2))).high) :
    ∃ t', ∃ i ≤ j, vPortSetupTimerInterrupt clock fuel t = some t' ∧
      t'.mtimecmp.val =
        ((clock (3 * i + 1)).toNat + t.uxTimerIncrementsForOneTick.toNat) % 2 ^ 64 ∧
      t'.ullNextTime.val =
        ((clock (3 * i + 1)).toNat + 2 * t.uxTimerIncrementsForOneTick.toNat) % 2 ^ 64 := by
  obtain ⟨i, hi, hv⟩ := readTime_eq hc (n := 0) hj (by simpa using h)
  rw [Nat.zero_add] at hv
  have hinc := t.uxTimerIncrementsForOneTick.isLt
  refine ⟨_, i, hi, by rw [vPortSetupTimerInterrupt, hv]; rfl, ?_, ?_⟩
  · simp only [setCompare, Words.val_ofBits, BitVec.toNat_add, BitVec.toNat_setWidth]
    omega
  · simp only [setCompare, Words.val_ofBits, BitVec.toNat_add, BitVec.toNat_setWidth]
    omega

/-- The high word changes during the first round, so that the second one is taken. -/
theorem setup_snapshot_carry : ∃ t' : Timer, ∃ i ≤ 1,
    vPortSetupTimerInterrupt (fun i => if i = 0 then 0xffffffff else 0x100000000) 2
        ⟨0, ⟨0, 0⟩, ⟨0, 0⟩, 10, [], 0⟩ = some t' ∧
      t'.mtimecmp.val =
        ((if 3 * i + 1 = 0 then 0xffffffff else 0x100000000 : BitVec 64).toNat + 10) % 2 ^ 64 ∧
      t'.ullNextTime.val =
        ((if 3 * i + 1 = 0 then 0xffffffff else 0x100000000 : BitVec 64).toNat + 2 * 10) %
          2 ^ 64 := by
  refine setup_snapshot (j := 1) (fun i => ?_) (by decide) (by decide)
  rw [if_neg (Nat.succ_ne_zero i)]
  split
  · decide
  · exact BitVec.le_refl _

/-- The carry between the words is right. -/
theorem next_update (t : Timer) : t.portUpdateMtimerCompareRegister.ullNextTime.val =
    (t.ullNextTime.val + t.uxTimerIncrementsForOneTick.toNat) % 2 ^ 64 := by
  have hl := t.ullNextTime.low.isLt
  have hh := t.ullNextTime.high.isLt
  have hi := t.uxTimerIncrementsForOneTick.isLt
  have h1 : (1 : Word).toNat = 1 := rfl
  have h0 : (0 : Word).toNat = 0 := rfl
  have hnext : t.portUpdateMtimerCompareRegister.ullNextTime =
      ⟨t.uxTimerIncrementsForOneTick + t.ullNextTime.low, t.ullNextTime.high +
        if t.uxTimerIncrementsForOneTick + t.ullNextTime.low < t.ullNextTime.low then 1
        else 0⟩ := rfl
  rw [hnext, Words.val, Words.val]
  by_cases hlt : t.uxTimerIncrementsForOneTick + t.ullNextTime.low < t.ullNextTime.low
  · rw [if_pos hlt]
    rw [BitVec.lt_def, BitVec.toNat_add] at hlt
    rw [BitVec.toNat_add, BitVec.toNat_add, h1]
    omega
  · rw [if_neg hlt]
    rw [BitVec.lt_def, BitVec.toNat_add] at hlt
    rw [BitVec.toNat_add, BitVec.toNat_add, h0]
    omega

/-- The compare register takes over the next time, which is then one increment later. On its way
there it is at no moment below both the time that has come and the next one, so that no tick comes
too early. -/
theorem update_compare (t : Timer) :
    t.portUpdateMtimerCompareRegister.mtimecmp = t.ullNextTime ∧
      t.portUpdateMtimerCompareRegister.ullNextTime.val =
        (t.ullNextTime.val + t.uxTimerIncrementsForOneTick.toNat) % 2 ^ 64 ∧
      ∃ new, t.portUpdateMtimerCompareRegister.compares = new ++ t.compares ∧
        ∀ w ∈ new, t.mtimecmp.val ≤ w.val ∨ t.ullNextTime.val ≤ w.val := by
  refine ⟨rfl, next_update t,
    [t.ullNextTime, ⟨-1, t.ullNextTime.high⟩, ⟨-1, t.mtimecmp.high⟩], rfl, ?_⟩
  have hmax : ∀ l h : Word, (Words.mk l h).val ≤ (Words.mk (-1) h).val := by
    intro l h
    have hl := l.isLt
    have hm : (-1 : Word).toNat = 2 ^ 32 - 1 := by decide
    simp only [Words.val, hm]
    omega
  intro w hw
  simp only [List.mem_cons, List.not_mem_nil, or_false] at hw
  rcases hw with rfl | rfl | rfl
  · exact Or.inr (Nat.le_refl _)
  · exact Or.inr (hmax _ _)
  · exact Or.inl (hmax _ _)

inductive TimerEvent where
  | advance (d : Nat)
  | interrupt
deriving DecidableEq, Repr

/-- The timer interrupt is pending. -/
def Pending (t : Timer) : Prop := t.mtimecmp.val ≤ t.mtime

instance (t : Timer) : Decidable t.Pending := inferInstanceAs (Decidable (_ ≤ _))

/-- Time passes, or the handler of a pending interrupt runs. -/
def step (t : Timer) : TimerEvent → Option Timer
  | .advance d => some { t with mtime := t.mtime + d }
  | .interrupt =>
    if t.Pending then some { t.portUpdateMtimerCompareRegister with ticks := t.ticks + 1 } else none

/-- The clock is far from the end of its 64 bits. -/
def NoWrap (t : Timer) : TimerEvent → Prop
  | .advance d => t.mtime + d + 2 * t.uxTimerIncrementsForOneTick.toNat < 2 ^ 64
  | .interrupt => True

instance (t : Timer) : (e : TimerEvent) → Decidable (t.NoWrap e)
  | .advance _ => inferInstanceAs (Decidable (_ < _))
  | .interrupt => isTrue trivial

/-- The ticks keep to the multiples of the increment after the start. -/
structure OnTime (start inc : Nat) (t : Timer) : Prop where
  increment : t.uxTimerIncrementsForOneTick.toNat = inc
  compare : t.mtimecmp.val = start + (t.ticks + 1) * inc
  next : t.ullNextTime.val = start + (t.ticks + 2) * inc
  notEarly : start + t.ticks * inc ≤ t.mtime
  room : t.mtime + 2 * inc < 2 ^ 64

theorem OnTime.step {start inc : Nat} {t t' : Timer} {e : TimerEvent} (h : OnTime start inc t)
    (hw : t.NoWrap e) (hs : t.step e = some t') : OnTime start inc t' := by
  obtain ⟨hinc, hcmp, hnext, hearly, hroom⟩ := h
  cases e with
  | advance d =>
    cases hs
    rw [NoWrap, hinc] at hw
    exact ⟨hinc, hcmp, hnext, Nat.le_trans hearly (Nat.le_add_right _ _), hw⟩
  | interrupt =>
    rw [Timer.step] at hs
    split at hs
    · rename_i hp
      cases hs
      rw [Pending, hcmp] at hp
      refine ⟨hinc, ?_, ?_, hp, hroom⟩
      · exact hnext
      · refine (next_update t).trans ?_
        have hmul : (t.ticks + 1 + 2) * inc = (t.ticks + 1) * inc + 2 * inc := Nat.add_mul _ _ _
        have hmul' : (t.ticks + 2) * inc + inc = (t.ticks + 1) * inc + 2 * inc := by
          rw [Nat.add_mul, Nat.add_mul]
          omega
        rw [hnext, hinc, Nat.mod_eq_of_lt (by omega)]
        change _ = start + (t.ticks + 1 + 2) * inc
        omega
    · cases hs

theorem OnTime.run {start inc : Nat} {t t' : Timer} {es : List TimerEvent} (h : OnTime start inc t)
    (hes : Runs.Along Timer.step NoWrap t es) (hrun : Runs.run Timer.step t es = some t') :
    OnTime start inc t' := by
  induction es generalizing t with
  | nil =>
    cases hrun
    exact h
  | cons e es ih =>
    obtain ⟨t₁, ht₁, hrun⟩ := Runs.run_cons.mp hrun
    exact ih (h.step hes.1 ht₁) (hes.2 t₁ ht₁) hrun

/-- No tick comes early, and none is lost: late as the handler may be, once it has caught up the
ticks are the increments that have passed since the start. -/
theorem ticks_on_time {t t' : Timer} {start : Nat} {es : List TimerEvent}
    (hpos : 0 < t.uxTimerIncrementsForOneTick.toNat) (h0 : t.ticks = 0)
    (hcmp : t.mtimecmp.val = start + t.uxTimerIncrementsForOneTick.toNat)
    (hnext : t.ullNextTime.val = start + 2 * t.uxTimerIncrementsForOneTick.toNat)
    (hstart : start ≤ t.mtime)
    (hroom : t.mtime + 2 * t.uxTimerIncrementsForOneTick.toNat < 2 ^ 64)
    (hes : Runs.Along Timer.step NoWrap t es) (hrun : Runs.run Timer.step t es = some t') :
    t'.ticks ≤ (t'.mtime - start) / t.uxTimerIncrementsForOneTick.toNat ∧
      (¬ t'.Pending → t'.ticks = (t'.mtime - start) / t.uxTimerIncrementsForOneTick.toNat) := by
  have hinit : OnTime start t.uxTimerIncrementsForOneTick.toNat t := by
    refine ⟨rfl, ?_, ?_, ?_, hroom⟩
    · rw [hcmp, h0, Nat.zero_add, Nat.one_mul]
    · rw [hnext, h0]
    · rw [h0, Nat.zero_mul]
      exact hstart
  obtain ⟨_, hcmp', _, hearly, _⟩ := hinit.run hes hrun
  have hle : t'.ticks ≤ (t'.mtime - start) / t.uxTimerIncrementsForOneTick.toNat := by
    rw [Nat.le_div_iff_mul_le hpos]
    omega
  refine ⟨hle, fun hp => Nat.le_antisymm hle ?_⟩
  rw [Pending, hcmp'] at hp
  have hlt : (t'.mtime - start) / t.uxTimerIncrementsForOneTick.toNat < t'.ticks + 1 := by
    rw [Nat.div_lt_iff_lt_mul hpos]
    omega
  exact Nat.le_of_lt_succ hlt

/-- A timer that was set up at 100, with a tick every 10. -/
def setUp : Timer := ⟨100, ⟨110, 0⟩, ⟨120, 0⟩, 10, [], 0⟩

theorem ticks_on_time_late : ∃ t', Runs.run Timer.step setUp [.advance 25, .interrupt, .interrupt] =
      some t' ∧ t'.ticks ≤ (t'.mtime - 100) / 10 ∧
      (¬ t'.Pending → t'.ticks = (t'.mtime - 100) / 10) := by
  have hsome : (Runs.run Timer.step setUp [.advance 25, .interrupt, .interrupt]).isSome := by
    decide +kernel
  obtain ⟨t', ht'⟩ := Option.isSome_iff_exists.mp hsome
  have hes : Runs.Along Timer.step NoWrap setUp [.advance 25, .interrupt, .interrupt] := by
    decide +kernel
  exact ⟨t', ht', ticks_on_time (t := setUp) (by decide) rfl rfl rfl (Nat.le_refl _)
    (by decide) hes ht'⟩

end Timer
end RegisterWindows.Port
