import Mathlib.Algebra.BigOperators.Group.Finset.Basic
import Mathlib.Order.Bounds.Basic
import RegisterWindows.Bench.Latency

namespace RegisterWindows.Bench.Latency
open Port

/-- The first `n` values of a sequence. -/
def firsts (f : Nat → Nat) (n : Nat) : Set Nat := {v | ∃ k < n, f k = v}

theorem firsts_one (f : Nat → Nat) : firsts f 1 = {f 0} := by
  ext v
  constructor
  · rintro ⟨k, hk, rfl⟩
    rw [Nat.lt_one_iff.mp hk]
    rfl
  · rintro rfl
    exact ⟨0, Nat.one_pos, rfl⟩

theorem firsts_succ (f : Nat → Nat) (n : Nat) : firsts f (n + 1) = insert (f n) (firsts f n) := by
  ext v
  constructor
  · rintro ⟨k, hk, rfl⟩
    rcases Nat.lt_succ_iff_lt_or_eq.mp hk with hk | rfl
    · exact Or.inr ⟨k, hk, rfl⟩
    · exact Or.inl rfl
  · rintro (rfl | ⟨k, hk, rfl⟩)
    · exact ⟨n, Nat.lt_succ_self n, rfl⟩
    · exact ⟨k, Nat.lt_succ_of_lt hk, rfl⟩

/-- `T` keeps the extremes of the samples `x`. -/
structure Compares (x : Nat → Word) (T : Nat → Totals) : Prop where
  min_zero : (T 0).min = -1
  max_zero : (T 0).max = 0
  min_succ : ∀ k, (T (k + 1)).min = if (x k).ult (T k).min then x k else (T k).min
  max_succ : ∀ k, (T (k + 1)).max = if (T k).max.ult (x k) then x k else (T k).max

theorem toNat_min (a b : Word) : (if a.ult b then a else b).toNat = min a.toNat b.toNat := by
  by_cases h : a.toNat < b.toNat
  · simp [BitVec.ult, h, Nat.le_of_lt h]
  · simp [BitVec.ult, h, Nat.le_of_not_lt h]

theorem toNat_max (a b : Word) : (if b.ult a then a else b).toNat = max a.toNat b.toNat := by
  by_cases h : b.toNat < a.toNat
  · simp [BitVec.ult, h, Nat.le_of_lt h]
  · simp [BitVec.ult, h, Nat.le_of_not_lt h]

namespace Compares
variable {x : Nat → Word} {T : Nat → Totals}

theorem least (h : Compares x T) {n : Nat} (hn : 0 < n) :
    IsLeast (firsts (fun k => (x k).toNat) n) (T n).min.toNat := by
  induction n, hn using Nat.le_induction with
  | base =>
    have hlt := (x 0).isLt
    have h0 : (T 1).min.toNat = (x 0).toNat := by
      rw [h.min_succ, toNat_min, h.min_zero, show (-1 : Word).toNat = 4294967295 from rfl]
      omega
    rw [h0, firsts_one]
    exact isLeast_singleton
  | succ n hn ih =>
    rw [h.min_succ, toNat_min, firsts_succ]
    exact ih.insert _

theorem greatest (h : Compares x T) {n : Nat} (hn : 0 < n) :
    IsGreatest (firsts (fun k => (x k).toNat) n) (T n).max.toNat := by
  induction n, hn using Nat.le_induction with
  | base =>
    have h0 : (T 1).max.toNat = (x 0).toNat := by
      rw [h.max_succ, toNat_max, h.max_zero, show (0 : Word).toNat = 0 from rfl]
      omega
    rw [h0, firsts_one]
    exact isGreatest_singleton
  | succ n hn ih =>
    rw [h.max_succ, toNat_max, firsts_succ]
    exact ih.insert _

end Compares

theorem latCompares (clock : Nat → Word) (r : Nat) :
    Compares (latSampleAt clock r) (latTotals clock r) := by
  refine ⟨rfl, rfl, fun k => ?_, fun k => ?_⟩
  all_goals
    simp only [latTotals]
    split <;> rfl

theorem scaleCompares (clock : Nat → Word) (r : Nat) :
    Compares (scaleSampleAt clock r) (scaleTotals clock r) :=
  ⟨rfl, rfl, fun _ => rfl, fun _ => rfl⟩

theorem latTotals_sum (clock : Nat → Word) (r n : Nat) :
    (latTotals clock r n).sum.toNat =
      (∑ k ∈ Finset.range n, if k % 2 = 0 then (latSampleAt clock r k).toNat else 0) %
        4294967296 := by
  induction n with
  | zero => rfl
  | succ n ih =>
    rw [Finset.sum_range_succ, Nat.add_mod, ← ih]
    by_cases h : n % 2 = 0
    · have hsum : (latTotals clock r (n + 1)).sum =
          (latTotals clock r n).sum + latSampleAt clock r n := by
        simp only [latTotals, if_pos h]
        rfl
      rw [hsum, if_pos h, BitVec.toNat_add]
      simp
    · have hsum : (latTotals clock r (n + 1)).sum = (latTotals clock r n).sum := by
        simp only [latTotals, if_neg h]
        rfl
      rw [hsum, if_neg h]
      have := (latTotals clock r n).sum.isLt
      omega

theorem report_toNat {t : Totals} {divisor : Word} (hd : divisor ≠ 0)
    (hle : t.min.toNat ≤ t.max.toNat) :
    (t.report divisor).max = t.max ∧
      (t.report divisor).avg.toNat =
        min t.max.toNat (max t.min.toNat (t.sum.toNat / divisor.toNat)) := by
  have hmax : ¬ t.max.ult t.min = true := by
    simp [BitVec.ult, hle]
  simp only [Totals.report, if_neg hmax, toNat_min, toNat_max, Alu.eval, if_neg hd,
    BitVec.toNat_udiv, and_self]

/-- The report is the minimum, the maximum and the average of the first `n` values of `d`. -/
structure Reports (d : Nat → Nat) (n : Nat) (rep : Report) : Prop where
  least : IsLeast (firsts d n) rep.min.toNat
  greatest : IsGreatest (firsts d n) rep.max.toNat
  average : rep.avg.toNat = (∑ k ∈ Finset.range n, d k) / n

/-- It makes no difference to a report that `x` has been measured for `d`, and that only every
other sample has been added. -/
structure Coincide (x d : Nat → Nat) (n : Nat) : Prop where
  least : ∀ v, IsLeast (firsts x n) v ↔ IsLeast (firsts d n) v
  greatest : ∀ v, IsGreatest (firsts x n) v ↔ IsGreatest (firsts d n) v
  average : ∀ lo hi, IsLeast (firsts x n) lo → IsGreatest (firsts x n) hi →
    min hi (max lo ((∑ k ∈ Finset.range n, if k % 2 = 0 then x k else 0) % 4294967296 / n)) =
      (∑ k ∈ Finset.range n, d k) / n

theorem isLeast_iff {s s' : Set Nat} {a : Nat} (hs : IsLeast s a) (hs' : IsLeast s' a) (v : Nat) :
    IsLeast s v ↔ IsLeast s' v :=
  ⟨fun h => h.unique hs ▸ hs', fun h => h.unique hs' ▸ hs⟩

theorem isGreatest_iff {s s' : Set Nat} {a : Nat} (hs : IsGreatest s a) (hs' : IsGreatest s' a)
    (v : Nat) : IsGreatest s v ↔ IsGreatest s' v :=
  ⟨fun h => h.unique hs ▸ hs', fun h => h.unique hs' ▸ hs⟩

theorem latTotals_reports_iff (clock : Nat → Word) (r : Nat) {n : Word} (hn : n ≠ 0)
    (d : Nat → Nat) :
    Reports d n.toNat ((latTotals clock r n.toNat).report n) ↔
      Coincide (fun k => (latSampleAt clock r k).toNat) d n.toNat := by
  have hpos : 0 < n.toNat := Nat.pos_of_ne_zero fun h => hn (BitVec.eq_of_toNat_eq h)
  have hleast := (latCompares clock r).least hpos
  have hgreatest := (latCompares clock r).greatest hpos
  obtain ⟨hmax, havg⟩ := report_toNat hn (hleast.2 hgreatest.1)
  rw [latTotals_sum] at havg
  constructor
  · rintro ⟨h1, h2, h3⟩
    rw [hmax] at h2
    refine ⟨isLeast_iff hleast h1, isGreatest_iff hgreatest h2, fun lo hi hlo hhi => ?_⟩
    rw [hlo.unique hleast, hhi.unique hgreatest, ← havg, h3]
  · rintro ⟨h1, h2, h3⟩
    refine ⟨(h1 _).mp hleast, ?_, ?_⟩
    · rw [hmax]
      exact (h2 _).mp hgreatest
    · rw [havg]
      exact h3 _ _ hleast hgreatest

theorem coincide_one_iff {x d : Nat → Nat} (hx : x 0 < 4294967296) :
    Coincide x d 1 ↔ x 0 = d 0 := by
  constructor
  · rintro ⟨h, -, -⟩
    have hd := (h (x 0)).mp (firsts_one x ▸ isLeast_singleton)
    rw [firsts_one] at hd
    exact hd.1
  · intro he
    refine ⟨fun v => by rw [firsts_one, firsts_one, he],
      fun v => by rw [firsts_one, firsts_one, he],
      fun lo hi hlo hhi => ?_⟩
    rw [firsts_one] at hlo hhi
    have hlo' : lo = x 0 := hlo.1
    have hhi' : hi = x 0 := hhi.1
    simp only [Finset.sum_range_one, Nat.zero_mod, if_true, Nat.mod_eq_of_lt hx, Nat.div_one]
    omega

/-- What `mcycle` reads: the low word of a counter. -/
def lowWord (c : Nat → Nat) (k : Nat) : Word := BitVec.ofNat 32 (c k)

theorem lowWord_sub {c : Nat → Nat} {j k : Nat} (hle : c j ≤ c k) (hspan : c k - c j < 4294967296) :
    (lowWord c k - lowWord c j).toNat = c k - c j := by
  unfold lowWord
  rw [BitVec.toNat_sub, BitVec.toNat_ofNat, BitVec.toNat_ofNat]
  omega

/-- The reading right after the `ecall` of iteration `k`, less the one right before it. -/
def latency (c : Nat → Nat) (r k : Nat) : Nat := c (r + 5 * k + 4) - c (r + 5 * k + 1)

theorem scale_lt {c : Nat → Nat} (hc : StrictMono c) {r n k : Nat}
    (hspan : c (r + 5 * n - 1) - c r < 4294967296) (hk : k < n) :
    (scaleSampleAt (lowWord c) r k).toNat < latency c r k := by
  have hstart : c r ≤ c (r + 5 * k + 1) := hc.monotone (by omega)
  have htrap : c (r + 5 * k + 1) < c (r + 5 * k + 3) := hc (by omega)
  have hback : c (r + 5 * k + 3) < c (r + 5 * k + 4) := hc (by omega)
  have hend : c (r + 5 * k + 4) ≤ c (r + 5 * n - 1) := hc.monotone (by omega)
  rw [scaleSampleAt, lowWord_sub hback.le (by omega), latency]
  omega

theorem scaleTotals_not_reports {c : Nat → Nat} (hc : StrictMono c) {r : Nat} {n : Nat} (hn : 0 < n)
    (hspan : c (r + 5 * n - 1) - c r < 4294967296) (divisor : Word) :
    ¬ Reports (latency c r) n ((scaleTotals (lowWord c) r n).report divisor) := by
  rintro ⟨h, -, -⟩
  have hleast := (scaleCompares (lowWord c) r).least hn
  obtain ⟨k, hk, he⟩ := h.1
  have hle : (scaleTotals (lowWord c) r n).min.toNat ≤ (scaleSampleAt (lowWord c) r k).toNat :=
    hleast.2 ⟨k, hk, rfl⟩
  have hlt := scale_lt hc hspan hk
  have hmin : ((scaleTotals (lowWord c) r n).report divisor).min =
      (scaleTotals (lowWord c) r n).min := rfl
  rw [hmin] at he
  omega

theorem latProgram_reports_iff (L : BareMetal) (code : Word) {n : Word} (hn : n ≠ 0)
    (c : Nat → Nat) {m : Timed Cva6.Regs} (hm : m.Default) :
    Code.Ends (ops Cva6.Regs (lowWord c)) (latProgram L n code) m fun m' =>
      Reports (latency c m.reads) n.toNat (report m') ↔
        Coincide (fun k => (latSampleAt (lowWord c) m.reads k).toNat) (latency c m.reads)
          n.toNat := by
  refine (ends_of_flat rfl hm (ends_latProgram n code m.view)).mono ?_
  rintro t ⟨ht, -⟩
  have hrep : report t = (latTotals (lowWord c) m.reads n.toNat).report n := ht
  rw [hrep]
  exact latTotals_reports_iff (lowWord c) m.reads hn _

/-- What the three programs store, on CVA6. The loops of `latency_hw_window.S` and
`rr2_window_switch.S` count from the time spent in the handler so far, and that of
`scale4_mixed_window_switch.S` from the end of the handler. -/
theorem reports_iff (L : BareMetal) {n : Word} (hn : n ≠ 0) {c : Nat → Nat}
    (hc : StrictMono c) {m : Timed Cva6.Regs} (hm : m.Default)
    (hspan : c (m.reads + 5 * n.toNat - 1) - c m.reads < 4294967296) :
    Code.Ends (ops Cva6.Regs (lowWord c)) (latencyHwWindow L n) m (fun m' =>
      Reports (latency c m.reads) n.toNat (report m') ↔
        Coincide (fun k => (latSampleAt (lowWord c) m.reads k).toNat) (latency c m.reads) n.toNat) ∧
    Code.Ends (ops Cva6.Regs (lowWord c)) (rr2WindowSwitch L n) m (fun m' =>
      Reports (latency c m.reads) n.toNat (report m') ↔
        Coincide (fun k => (latSampleAt (lowWord c) m.reads k).toNat) (latency c m.reads) n.toNat) ∧
    Code.Ends (ops Cva6.Regs (lowWord c)) (scale4MixedWindowSwitch L n) m (fun m' =>
      ¬ Reports (latency c m.reads) n.toNat (report m')) := by
  have hpos : 0 < n.toNat := Nat.pos_of_ne_zero fun h => hn (BitVec.eq_of_toNat_eq h)
  refine ⟨latProgram_reports_iff L _ hn c hm, latProgram_reports_iff L _ hn c hm, ?_⟩
  refine (ends_of_flat rfl hm (ends_scale4MixedWindowSwitch n m.view)).mono ?_
  rintro t ⟨⟨divisor, ht⟩, -⟩
  have hrep : report t = (scaleTotals (lowWord c) m.reads n.toNat).report divisor := ht
  rw [hrep]
  exact scaleTotals_not_reports hc hpos hspan divisor

/-- A single iteration is measured right just when the time spent in the handler is the reading
before the `ecall`. -/
theorem reports_once_iff {c : Nat → Nat} (hc : StrictMono c) (r : Nat)
    (hspan : c (r + 4) - c r < 4294967296) :
    Coincide (fun k => (latSampleAt (lowWord c) r k).toNat) (latency c r) 1 ↔
      lowWord c (r + 3) - lowWord c (r + 2) = lowWord c (r + 1) := by
  have hstart : c r ≤ c (r + 1) := hc.monotone (by omega)
  have htrip : c (r + 1) ≤ c (r + 4) := hc.monotone (by omega)
  have hd : latency c r 0 = (lowWord c (r + 4) - lowWord c (r + 1)).toNat :=
    (lowWord_sub htrip (by omega)).symm
  have hx : latSampleAt (lowWord c) r 0 =
      lowWord c (r + 4) - (lowWord c (r + 3) - lowWord c (r + 2)) := by
    simp [latSampleAt, trapBody]
  rw [coincide_one_iff (BitVec.isLt _), hd, hx, BitVec.toNat_inj, BitVec.sub_right_inj]

/-- One iteration on a counter that starts from 0. -/
theorem reports_from_zero :
    Code.Ends (ops Cva6.Regs (lowWord id)) (latencyHwWindow .small 1) .reset (fun m' =>
      Reports (latency id 0) 1 (report m') ↔
        Coincide (fun k => (latSampleAt (lowWord id) 0 k).toNat) (latency id 0) 1) ∧
    Code.Ends (ops Cva6.Regs (lowWord id)) (rr2WindowSwitch .small 1) .reset (fun m' =>
      Reports (latency id 0) 1 (report m') ↔
        Coincide (fun k => (latSampleAt (lowWord id) 0 k).toNat) (latency id 0) 1) ∧
    Code.Ends (ops Cva6.Regs (lowWord id)) (scale4MixedWindowSwitch .small 1) .reset (fun m' =>
      ¬ Reports (latency id 0) 1 (report m')) :=
  reports_iff .small (by decide) strictMono_id Timed.default_reset (by decide)

/-- From 100 on, the same iteration is reported as 103 cycles instead of 3. -/
theorem not_reports_from_hundred :
    Code.Ends (ops Cva6.Regs (lowWord (100 + ·))) (latencyHwWindow .small 1) .reset
      (fun m' => ¬ Reports (latency (100 + ·) 0) 1 (report m')) := by
  refine (latProgram_reports_iff .small 0xbad00003 (by decide) (100 + ·)
    Timed.default_reset).mono ?_
  intro t hiff h
  exact absurd ((coincide_one_iff (BitVec.isLt _)).mp (hiff.mp h)) (by decide)

end RegisterWindows.Bench.Latency
