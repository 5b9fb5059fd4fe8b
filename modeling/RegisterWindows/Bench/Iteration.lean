import RegisterWindows.Bench.Windowed

namespace RegisterWindows.Bench.Windowed
open Port

variable {L : BareMetal} {clock : Nat → Word} {t : Nat} {m : Timed Flat}

/-- The tables after slot `s` has been given to task `t`. -/
def allocTables (t s : Nat) (W : Nat → Word) : Nat → Word :=
  let old := W (slotToTask + 4 * s)
  let W := if old.msb then W else Function.update W (taskToSlot + 4 * old.toNat) (-1)
  Function.update (Function.update W (taskToSlot + 4 * t) (BitVec.ofNat 32 s))
    (slotToTask + 4 * s) (BitVec.ofNat 32 t)

/-- How an iteration finds its slot. -/
inductive Path where
  /-- `bgez t2, srw_have_slot` is taken. -/
  | hit
  /-- `bltz t3, srw_skip_spill` is taken. -/
  | free
  | evict
deriving DecidableEq, Repr

/-- The readings that are taken on the way from the lookup to `srw_have_slot`. -/
def Path.extra : Path → Nat
  | hit => 0
  | free => 2
  | evict => 4

/-- What the old task in a slot decides. -/
def missPath (old : Word) : Path := if old.msb then .free else .evict

/-- The iteration of task `t` has found slot `s`. -/
structure Found (L : BareMetal) (clock : Nat → Word) (path : Path) (slot : Word)
    (m m' : Timed Flat) : Prop where
  x_t2 : m'.x t2 = slot
  arrays : ∀ k, 416 ≤ k → k < 3616 → L.words m'.mem k = L.words m.mem k
  states : ∀ k, 4128 ≤ k → k ∉ [stateOldestSlot, stateSlot, accSpill, accRestore] →
    L.words m'.mem k = L.words m.mem k
  spill : L.words m'.mem accSpill = L.words m.mem accSpill +
    (if path = .evict then clock (m.reads + 1) - clock m.reads else 0)
  restore : L.words m'.mem accRestore = L.words m.mem accRestore +
    (if path = .hit then 0 else
      clock (m.reads + path.extra - 1) - clock (m.reads + path.extra - 2))
  reads : m'.reads = m.reads + path.extra
  outside : Outside L m m'

theorem spilled_outside {s k : Nat} (hs : s < 4) (v : Word) (W : Nat → Word)
    (hk : k < 3616 ∨ 4128 ≤ k) : spilled s v W k = W k :=
  filled_outside _ _ (by simp; omega)

theorem toNat_ofNat_task {u : Nat} (hu : u < 100) : (BitVec.ofNat 32 u).toNat = u := by
  rw [BitVec.toNat_ofNat]
  omega

theorem msb_task {u : Nat} (hu : u < 100) : (BitVec.ofNat 32 u).msb = false := by
  rw [BitVec.msb_eq_false_iff_two_mul_lt, toNat_ofNat_task hu]
  omega

/-- An entry of `slot_to_task`. -/
def TaskOrNone (v : Word) : Prop := v = -1 ∨ ∃ u < 100, v = BitVec.ofNat 32 u

/-- The words after the spill of the old task. -/
structure Spilled (clock : Nat → Word) (r s : Nat) (old : Word) (W W' : Nat → Word) : Prop where
  tables : ∀ k < 416, W' k = (if old.msb then W else
    Function.update W (taskToSlot + 4 * old.toNat) (-1)) k
  arrays : ∀ k, 416 ≤ k → k < 3616 → W' k = W k
  states : ∀ k, 4128 ≤ k → k ≠ accSpill → W' k = W k
  spill : W' accSpill = W accSpill + (if old.msb then 0 else clock (r + 1) - clock r)

theorem ends_spill {s : Nat} {old : Word} (hs : s < 4) (hold : TaskOrNone old)
    (hslot : L.words m.mem stateSlot = BitVec.ofNat 32 s) (h3 : m.x t3 = old) :
    Code.Ends (ops Flat clock) (.branch (.bltz t3) (.block []) (spillOld L)) m fun m' =>
      Spilled clock m.reads s old (L.words m.mem) (L.words m'.mem) ∧
      m'.reads = m.reads + (if old.msb then 0 else 2) ∧ Outside L m m' := by
  have htest : (ops Flat clock).holds m (.bltz t3) = old.msb := congrArg BitVec.msb h3
  rw [Code.ends_branch, htest]
  obtain rfl | ⟨u, hu, rfl⟩ := hold
  · rw [if_pos (by decide)]
    refine Code.ends_block.mpr ⟨⟨fun _ _ => rfl, fun _ _ _ => rfl, fun _ _ _ => rfl, ?_⟩, rfl,
      fun _ _ => rfl⟩
    exact (BitVec.add_zero _).symm
  · have hpos : ¬ (BitVec.ofNat 32 u).msb = true := by simp [msb_task hu]
    rw [if_neg hpos]
    refine (ends_spillOld hs hu hslot h3).mono ?_
    rintro m' ⟨hw, hr, ho⟩
    rw [if_neg hpos]
    refine ⟨⟨fun k hk => ?_, fun k hk hk' => ?_, fun k hk hk' => ?_, ?_⟩, hr, ho⟩
    · rw [hw, Function.update_of_ne (by simp; omega), spilled_outside hs _ _ (.inl (by omega)),
        if_neg hpos, toNat_ofNat_task hu]
    · rw [hw, Function.update_of_ne (by simp; omega), spilled_outside hs _ _ (.inl hk'),
        Function.update_of_ne (by simp; omega)]
    · rw [hw, Function.update_of_ne hk', spilled_outside hs _ _ (.inr hk),
        Function.update_of_ne (by simp; omega)]
    · rw [hw, Function.update_self, if_neg hpos]

theorem update_at {W W' : Nat → Word} {k : Nat} (h : W k = W' k) (j : Nat) (v : Word) :
    Function.update W j v k = Function.update W' j v k := by
  simp only [Function.update_apply, h]

theorem ends_allocate {s : Nat} (hs : s < 4) (ht : t < 100)
    (htask : L.words m.mem stateTaskId = BitVec.ofNat 32 t)
    (ho : L.words m.mem stateOldestSlot = BitVec.ofNat 32 s)
    (hold : TaskOrNone (L.words m.mem (slotToTask + 4 * s))) :
    Code.Ends (ops Flat clock) (allocate L) m fun m' =>
      Found L clock (missPath (L.words m.mem (slotToTask + 4 * s))) (BitVec.ofNat 32 s) m m' ∧
      (∀ k < 416, L.words m'.mem k = allocTables t s (L.words m.mem) k) ∧
      L.words m'.mem stateOldestSlot = BitVec.ofNat 32 ((s + 1) % 4) := by
  generalize hold' : L.words m.mem (slotToTask + 4 * s) = old at hold
  refine Code.Ends.seq (ends_evict hs ho) ?_
  rintro m₁ ⟨h3₁, hw₁, hr₁, ho₁⟩
  rw [hold'] at h3₁
  refine Code.Ends.seq (ends_spill hs hold (by rw [hw₁, Function.update_self]) h3₁) ?_
  rintro m₂ ⟨hw₂, hr₂, ho₂⟩
  rw [hr₁, hw₁] at hw₂
  rw [hr₁] at hr₂
  have hstate₂ (k : Nat) (hk : 4128 ≤ k) (hk' : k ≠ accSpill) (hk'' : k ≠ stateSlot) :
      L.words m₂.mem k = L.words m.mem k := by
    rw [hw₂.states k hk hk', Function.update_of_ne hk'']
  have hslot₂ : L.words m₂.mem stateSlot = BitVec.ofNat 32 s := by
    rw [hw₂.states _ (by decide) (by decide), Function.update_self]
  have htask₂ := (hstate₂ stateTaskId (by decide) (by decide) (by decide)).trans htask
  refine Code.Ends.seq (ends_restoreNew hs hslot₂) ?_
  rintro m₃ ⟨hw₃, hr₃, ho₃⟩
  have hstate₃ (k : Nat) (hk : 4128 ≤ k) (hk' : k ≠ accRestore) :
      L.words m₃.mem k = L.words m₂.mem k := by
    rw [hw₃, Function.update_of_ne hk', spilled_outside hs _ _ (.inr hk)]
  refine (ends_mappings hs ht ((hstate₃ _ (by decide) (by decide)).trans hslot₂)
    ((hstate₃ _ (by decide) (by decide)).trans htask₂) ?_).mono ?_
  · rw [hstate₃ _ (by decide) (by decide), hstate₂ _ (by decide) (by decide) (by decide), ho]
  rintro m₄ ⟨h2₄, hw₄, hr₄, ho₄⟩
  have htables (k : Nat) (hk : k < 416) : L.words m₃.mem k = (if old.msb then L.words m.mem else
      Function.update (L.words m.mem) (taskToSlot + 4 * old.toNat) (-1)) k := by
    rw [hw₃, Function.update_of_ne (by simp; omega), spilled_outside hs _ _ (.inl (by omega)),
      hw₂.tables k hk]
    split
    · exact Function.update_of_ne (by simp; omega) _ _
    · exact update_at (Function.update_of_ne (by simp; omega) _ _) _ _
  have hhigh (k : Nat) (hk : 416 ≤ k) (hk' : k ≠ stateOldestSlot) :
      L.words m₄.mem k = L.words m₃.mem k := by
    rw [hw₄, Function.update_of_ne hk', Function.update_of_ne (by simp; omega),
      Function.update_of_ne (by simp; omega)]
  refine ⟨⟨h2₄, fun k hk hk' => ?_, fun k hk hk' => ?_, ?_, ?_, ?_,
    ((ho₁.trans ho₂).trans ho₃).trans ho₄⟩, fun k hk => ?_, ?_⟩
  · rw [hhigh k hk (by simp; omega), hw₃, Function.update_of_ne (by simp; omega),
      spilled_outside hs _ _ (.inl hk'), hw₂.arrays k hk hk',
      Function.update_of_ne (by simp; omega)]
  · simp only [List.mem_cons, List.not_mem_nil, or_false, not_or] at hk'
    rw [hhigh k (by omega) hk'.1, hstate₃ k hk hk'.2.2.2, hstate₂ k hk hk'.2.2.1 hk'.2.1]
  · rw [hhigh _ (by decide) (by decide), hstate₃ _ (by decide) (by decide), hw₂.spill,
      Function.update_of_ne (by decide)]
    unfold missPath
    split <;> rfl
  · rw [hhigh _ (by decide) (by decide), hw₃, Function.update_self, hr₂,
      hstate₂ _ (by decide) (by decide) (by decide)]
    unfold missPath
    split <;> rfl
  · rw [hr₄, hr₃, hr₂]
    unfold missPath
    split <;> rfl
  · rw [hw₄, Function.update_of_ne (by simp; omega), allocTables, hold']
    exact update_at (update_at (htables k hk) _ _) _ _
  · rw [hw₄, Function.update_self]

section
variable {H : Type} (L : BareMetal) (clock : Nat → Word)

def taskId (m : Timed H) : Nat := (L.words m.mem stateTaskId).toNat

def oldestSlot (m : Timed H) : Nat := (L.words m.mem stateOldestSlot).toNat

/-- The word that the lookup reads, in an iteration that begins in `m`: `run_workload` may have
replaced the key. -/
def lookupWord (m : Timed H) : Word :=
  let t := taskId L m
  L.patch (atLookup L clock t m) m.mem (L.addr taskToSlot +
    workloadT6 workloadArrays t (L.words m.mem) (BitVec.ofNat 32 t) <<< 2)

def path (m : Timed H) : Path :=
  if (lookupWord L clock m).msb then missPath (L.words m.mem (slotToTask + 4 * oldestSlot L m))
  else .hit

end

/-- What the accumulators are named after. -/
inductive Phase where
  | workload
  | spill
  | restore
  | stage
  | trapRoundtrip
  | trapEntry
  | trapBody
  | mretReturn
deriving DecidableEq, Repr

namespace Phase

def acc : Phase → Nat
  | workload => accWorkload
  | spill => accSpill
  | restore => accRestore
  | stage => accStage
  | trapRoundtrip => accTrapRoundtrip
  | trapEntry => accTrapEntry
  | trapBody => accTrapBody
  | mretReturn => accMretReturn

/-- Which of the readings of an iteration are taken at the start and at the end of the phase, if the
iteration has it. -/
def readings : Path → Phase → Option (Nat × Nat)
  | _, workload => some (0, 1)
  | .evict, spill => some (3, 4)
  | _, spill => none
  | .evict, restore => some (5, 6)
  | .free, restore => some (3, 4)
  | .hit, restore => none
  | p, stage => some (p.extra + 3, p.extra + 4)
  | p, trapRoundtrip => some (p.extra + 5, p.extra + 8)
  | p, trapEntry => some (p.extra + 5, p.extra + 6)
  | p, trapBody => some (p.extra + 6, p.extra + 7)
  | p, mretReturn => some (p.extra + 7, p.extra + 8)

section
variable {H : Type} (L : BareMetal) (clock : Nat → Word)

/-- How long the phase takes in the iteration that begins in `m`. -/
def elapsed (p : Phase) (m : Timed H) : Word :=
  match p.readings (path L clock m) with
  | some (i, j) => clock (m.reads + j) - clock (m.reads + i)
  | none => 0

/-- What is added to its accumulator: `run_workload` has replaced the start reading. -/
def charged (m : Timed H) : Phase → Word
  | workload => clock (m.reads + 1) - workloadT3 workloadArrays (taskId L m) (L.words m.mem)
  | p => p.elapsed L clock m

end

end Phase

/-- `srw_loop` is about to begin an iteration with task `t`, and slot `s` is the oldest. -/
structure AtLoop (L : BareMetal) (t s : Nat) (m : Timed Flat) : Prop where
  task : L.words m.mem stateTaskId = BitVec.ofNat 32 t
  oldest : L.words m.mem stateOldestSlot = BitVec.ofNat 32 s
  owners : ∀ j < 4, TaskOrNone (L.words m.mem (slotToTask + 4 * j))
  task_lt : t < 100
  oldest_lt : s < 4

theorem AtLoop.taskId {s : Nat} (h : AtLoop L t s m) : taskId L m = t := by
  rw [Windowed.taskId, h.task, toNat_ofNat_task h.task_lt]

theorem AtLoop.oldestSlot {s : Nat} (h : AtLoop L t s m) : oldestSlot L m = s := by
  have hs := h.oldest_lt
  rw [Windowed.oldestSlot, h.oldest, toNat_ofNat_task (by omega)]

/-- An iteration that began in `m` has come to `srw_have_slot`. -/
structure AtHaveSlot (L : BareMetal) (clock : Nat → Word) (t s : Nat) (m m' : Timed Flat) :
    Prop where
  slot : m'.x t2 = if (lookupWord L clock m).msb then BitVec.ofNat 32 s else lookupWord L clock m
  tables : ∀ k < 416, L.words m'.mem k =
    (if (lookupWord L clock m).msb then allocTables t s (L.words m.mem) else L.words m.mem) k
  oldest : L.words m'.mem stateOldestSlot =
    BitVec.ofNat 32 (if (lookupWord L clock m).msb then (s + 1) % 4 else s)
  arrays : ∀ k, 416 ≤ k → k < 3616 →
    L.words m'.mem k = workload workloadArrays t (L.words m.mem) k
  states : ∀ k, 4128 ≤ k → k ∉ [stateOldestSlot, stateSlot, accWorkload, accSpill, accRestore,
    switchStartCycle] → L.words m'.mem k = L.words m.mem k
  workload : L.words m'.mem accWorkload = L.words m.mem accWorkload +
    Phase.charged L clock m .workload
  spill : L.words m'.mem accSpill = L.words m.mem accSpill + Phase.charged L clock m .spill
  restore : L.words m'.mem accRestore = L.words m.mem accRestore + Phase.charged L clock m .restore
  reads : m'.reads = m.reads + (path L clock m).extra + 3
  outside : Outside L m m'

theorem atLookup_outside {k : Nat} (ht : t < 100) (hk : k < 416 ∨ 3616 ≤ k) (hk₁ : k ≠ accWorkload)
    (hk₂ : k ≠ switchStartCycle) : atLookup L clock t m k = L.words m.mem k := by
  rw [atLookup, Function.update_of_ne hk₂, Function.update_of_ne hk₁,
    workload_outside _ ht _ (by simpa using hk)]

theorem allocTables_congr {s k : Nat} {W W' : Nat → Word} (hs : s < 4)
    (h : ∀ j < 416, W j = W' j) (hk : k < 416) : allocTables t s W k = allocTables t s W' k := by
  unfold allocTables
  rw [h (slotToTask + 4 * s) (by simp; omega)]
  refine update_at (update_at ?_ _ _) _ _
  split
  · exact h k hk
  · exact update_at (h k hk) _ _

theorem ends_toHaveSlot {s : Nat} (h : AtLoop L t s m) :
    Code.Ends (ops Flat clock) (toHaveSlot L) m (AtHaveSlot L clock t s m) := by
  have ht := h.task_lt
  have hs := h.oldest_lt
  refine Code.Ends.seq (ends_callWorkload ht h.task) ?_
  rintro m₁ ⟨hw₁, h6₁, hr₁, ho₁⟩
  refine Code.Ends.seq (ends_lookup m₁) ?_
  rintro m₂ ⟨h2₂, hm₂, hr₂⟩
  have hread : m₂.x t2 = lookupWord L clock m := by
    rw [h2₂, h6₁, ← L.patch_eq ho₁, hw₁, lookupWord, h.taskId]
  have hw₂ : L.words m₂.mem = atLookup L clock t m := by rw [hm₂, hw₁]
  have ho₂ : Outside L m m₂ := fun a ha => by rw [hm₂, ho₁ a ha]
  have hr₂' := hr₂.trans hr₁
  have htest : (ops Flat clock).holds m₂ (.bgez t2) = !(lookupWord L clock m).msb :=
    congrArg (fun w : Word => !w.msb) hread
  have hout (k : Nat) (hk : k < 416 ∨ 3616 ≤ k) (hk₁ : k ≠ accWorkload)
      (hk₂ : k ≠ switchStartCycle) : L.words m₂.mem k = L.words m.mem k := by
    rw [hw₂, atLookup_outside ht hk hk₁ hk₂]
  have harrays (k : Nat) (hk : 416 ≤ k) (hk' : k < 3616) :
      L.words m₂.mem k = workload workloadArrays t (L.words m.mem) k := by
    rw [hw₂, atLookup, Function.update_of_ne (by simp; omega),
      Function.update_of_ne (by simp; omega)]
  have hworkload : L.words m₂.mem accWorkload = L.words m.mem accWorkload +
      Phase.charged L clock m .workload := by
    rw [hw₂, atLookup, Function.update_of_ne (by decide), Function.update_self, Phase.charged,
      h.taskId]
  rw [Code.ends_branch, htest]
  cases hmsb : (lookupWord L clock m).msb with
  | false =>
    have hpath : path L clock m = .hit := by simp [path, hmsb]
    rw [if_pos (show (!false) = true from rfl)]
    refine Code.ends_block.mpr ⟨?_, fun k hk => ?_, ?_, harrays, fun k hk hk' => ?_, hworkload, ?_,
      ?_, ?_, ho₂⟩
    · simp only [hmsb]
      exact hread
    · simp only [hmsb]
      exact hout k (.inl hk) (by simp; omega) (by simp; omega)
    · simp only [hmsb]
      exact (hout _ (.inr (by decide)) (by decide) (by decide)).trans h.oldest
    · simp only [List.mem_cons, List.not_mem_nil, or_false, not_or] at hk'
      exact hout k (.inr (by omega)) hk'.2.2.1 hk'.2.2.2.2.2
    · simp [ops, hout, Phase.charged, Phase.elapsed, hpath, Phase.readings]
    · simp [ops, hout, Phase.charged, Phase.elapsed, hpath, Phase.readings]
    · rw [hpath]
      exact hr₂'
  | true =>
    have hpath : path L clock m = missPath (L.words m.mem (slotToTask + 4 * s)) := by
      simp [path, hmsb, h.oldestSlot]
    have hold := hout (slotToTask + 4 * s) (.inl (by simp; omega)) (by simp; omega) (by simp; omega)
    rw [if_neg (show ¬ (!true) = true by decide)]
    refine (ends_allocate hs ht ((hout _ (.inr (by decide)) (by decide) (by decide)).trans h.task)
      ((hout _ (.inr (by decide)) (by decide) (by decide)).trans h.oldest)
      (hold ▸ h.owners s hs)).mono ?_
    rintro m₃ ⟨hf, htables, holdest⟩
    rw [hold, ← hpath] at hf
    refine ⟨?_, fun k hk => ?_, ?_, fun k hk hk' => ?_, fun k hk hk' => ?_, ?_, ?_, ?_, ?_,
      ho₂.trans hf.outside⟩
    · simp only [hmsb]
      exact hf.x_t2
    · simp only [hmsb]
      exact (htables k hk).trans
        (allocTables_congr hs (fun j hj => hout j (.inl hj) (by simp; omega) (by simp; omega)) hk)
    · simp only [hmsb]
      exact holdest
    · rw [hf.arrays k hk hk', harrays k hk hk']
    · simp only [List.mem_cons, List.not_mem_nil, or_false, not_or] at hk'
      rw [hf.states k hk (by simp [hk']), hout k (.inr (by omega)) hk'.2.2.1 hk'.2.2.2.2.2]
    · rw [hf.states _ (by decide) (by decide), hworkload]
    · rw [hf.spill, hout _ (.inr (by decide)) (by decide) (by decide), hr₂']
      cases hp : path L clock m <;> simp [Phase.charged, Phase.elapsed, hp, Phase.readings]
    · rw [hf.restore, hout _ (.inr (by decide)) (by decide) (by decide), hr₂']
      cases hp : path L clock m <;>
        simp [Phase.charged, Phase.elapsed, hp, Phase.readings, Path.extra]
    · rw [hf.reads, hr₂']
      omega

/-- From `srw_have_slot` on: only what is named here and the printed report has changed. -/
structure Switched (L : BareMetal) (clock : Nat → Word) (t : Nat) (m m' : Timed Flat) : Prop where
  below : ∀ k < 4128, L.words m'.mem k = L.words m.mem k
  states : ∀ k ∈ [stateOldestSlot, accWorkload, accSpill, accRestore],
    L.words m'.mem k = L.words m.mem k
  task : L.words m'.mem stateTaskId = BitVec.ofNat 32 ((t + 1) % 100)
  iteration : L.words m'.mem stateIter = L.words m.mem stateIter + 1
  stage : L.words m'.mem accStage = L.words m.mem accStage +
    (clock (m.reads + 1) - clock m.reads)
  trapRoundtrip : L.words m'.mem accTrapRoundtrip = L.words m.mem accTrapRoundtrip +
    (clock (m.reads + 5) - clock (m.reads + 2))
  trapEntry : L.words m'.mem accTrapEntry = L.words m.mem accTrapEntry +
    (clock (m.reads + 3) - clock (m.reads + 2))
  trapBody : L.words m'.mem accTrapBody = L.words m.mem accTrapBody +
    (clock (m.reads + 4) - clock (m.reads + 3))
  mretReturn : L.words m'.mem accMretReturn = L.words m.mem accMretReturn +
    (clock (m.reads + 5) - clock (m.reads + 4))
  above : ∀ k, 4208 ≤ k → L.words m'.mem k = L.words m.mem k
  reads : m'.reads = m.reads + 6
  outside : OutsideReport L m m'

theorem ends_haveSlot (ht : t < 100) (htask : L.words m.mem stateTaskId = BitVec.ofNat 32 t) :
    Code.Ends (ops Flat clock) (haveSlot L) m (Switched L clock t m) := by
  refine Code.Ends.seq (ends_stage _ m) ?_
  rintro m₁ ⟨hw₁, -, hr₁, ho₁⟩
  refine Code.Ends.seq (ends_ecall L clock _ (by decide) (by decide) (by decide) (by decide)
    (by decide) (by decide) m₁) fun m₂ h₂ => ?_
  have hw₂ := h₂.words
  have hr₂ := h₂.reads
  refine Code.Ends.seq (ends_afterTrap m₂) ?_
  rintro m₃ ⟨hw₃, hr₃, ho₃⟩
  rw [hr₁, hw₁] at hw₂
  rw [hr₁] at hr₂
  rw [hr₂, hw₂] at hw₃
  refine Code.Ends.seq (ends_verify _ m₃) fun m₄ h₄ => ?_
  refine Code.Ends.seq (ends_totals m₄) fun m₅ h₅ => ?_
  have hrep := h₄.trans h₅
  have htask₅ : L.words m₅.mem stateTaskId = BitVec.ofNat 32 t := by
    rw [hrep.1 _ (by decide), hw₃]
    simpa using htask
  refine (ends_nextTask ht htask₅).mono ?_
  rintro m₆ ⟨hw₆, hr₆, ho₆⟩
  have hk (k : Nat) (hk : k ∉ [sumTotalSwitch, minTotalSwitch, maxTotalSwitch, cfgMismatchCount])
      (hiter : k ≠ stateIter) (htask : k ≠ stateTaskId) :
      L.words m₆.mem k = L.words m₃.mem k := by
    rw [hw₆, Function.update_of_ne htask, Function.update_of_ne hiter, hrep.1 k hk]
  refine ⟨fun k hlt => ?_, fun k hmem => ?_, ?_, ?_, ?_, ?_, ?_, ?_, ?_, fun k hle => ?_, ?_, ?_⟩
  · have hne (j : Nat) (hj : 4128 ≤ j) : k ≠ j := by omega
    rw [hk k (by simp [hne]) (hne _ (by decide)) (hne _ (by decide)), hw₃]
    simp [hne]
  · simp only [List.mem_cons, List.not_mem_nil, or_false] at hmem
    rcases hmem with rfl | rfl | rfl | rfl <;>
    · rw [hk _ (by decide) (by decide) (by decide), hw₃]
      simp
  · rw [hw₆, Function.update_self]
  · rw [hw₆, Function.update_of_ne (by decide), Function.update_self, hrep.1 _ (by decide), hw₃]
    simp
  · rw [hk _ (by decide) (by decide) (by decide), hw₃]
    simp
  · rw [hk _ (by decide) (by decide) (by decide), hw₃]
    simp
  · rw [hk _ (by decide) (by decide) (by decide), hw₃]
    simp
  · rw [hk _ (by decide) (by decide) (by decide), hw₃]
    simp
  · rw [hk _ (by decide) (by decide) (by decide), hw₃]
    simp
  · have hne (j : Nat) (hj : j < 4208) : k ≠ j := by omega
    rw [hk k (by simp [hne]) (hne _ (by decide)) (hne _ (by decide)), hw₃]
    simp [hne]
  · rw [hr₆, hrep.2.1, hr₃, hr₂]
  · exact (((ho₁.trans (Outside.report h₂.mem_other)).trans ho₃.report).trans
      hrep.2.2.report).trans ho₆

/-- What an iteration does that begins with task `t` and oldest slot `s`. -/
structure Round (L : BareMetal) (clock : Nat → Word) (t s : Nat) (m m' : Timed Flat) : Prop where
  task : L.words m'.mem stateTaskId = BitVec.ofNat 32 ((t + 1) % 100)
  iteration : L.words m'.mem stateIter = L.words m.mem stateIter + 1
  tables : ∀ k < 416, L.words m'.mem k =
    (if (lookupWord L clock m).msb then allocTables t s (L.words m.mem) else L.words m.mem) k
  oldest : L.words m'.mem stateOldestSlot =
    BitVec.ofNat 32 (if (lookupWord L clock m).msb then (s + 1) % 4 else s)
  arrays : ∀ k, 416 ≤ k → k < 3616 →
    L.words m'.mem k = workload workloadArrays t (L.words m.mem) k
  accounts : ∀ p : Phase, L.words m'.mem p.acc = L.words m.mem p.acc + Phase.charged L clock m p
  above : ∀ k, 4208 ≤ k → L.words m'.mem k = L.words m.mem k
  reads : m'.reads = m.reads + (path L clock m).extra + 9
  outside : OutsideReport L m m'

theorem Round.of_haveSlot {s : Nat} {m₁ m' : Timed Flat} (h : AtHaveSlot L clock t s m m₁)
    (h' : Switched L clock t m₁ m') : Round L clock t s m m' where
  task := h'.task
  iteration := by rw [h'.iteration, h.states _ (by decide) (by decide)]
  tables k hk := by rw [h'.below k (by omega), h.tables k hk]
  oldest := by rw [h'.states _ (by decide), h.oldest]
  arrays k hk hk' := by rw [h'.below k (by omega), h.arrays k hk hk']
  accounts p := by
    cases p with
    | workload => rw [Phase.acc, h'.states _ (by decide), h.workload]
    | spill => rw [Phase.acc, h'.states _ (by decide), h.spill]
    | restore => rw [Phase.acc, h'.states _ (by decide), h.restore]
    | stage =>
      rw [Phase.acc, h'.stage, h.states _ (by decide) (by decide), h.reads]
      rfl
    | trapRoundtrip =>
      rw [Phase.acc, h'.trapRoundtrip, h.states _ (by decide) (by decide), h.reads]
      rfl
    | trapEntry =>
      rw [Phase.acc, h'.trapEntry, h.states _ (by decide) (by decide), h.reads]
      rfl
    | trapBody =>
      rw [Phase.acc, h'.trapBody, h.states _ (by decide) (by decide), h.reads]
      rfl
    | mretReturn =>
      rw [Phase.acc, h'.mretReturn, h.states _ (by decide) (by decide), h.reads]
      rfl
  above k hk := by
    have hne (j : Nat) (hj : j < 4208) : k ≠ j := by omega
    rw [h'.above k hk, h.states k (by omega) (by simp [hne])]
  reads := by rw [h'.reads, h.reads]
  outside := h.outside.report.trans h'.outside

theorem ends_round {s : Nat} (h : AtLoop L t s m) :
    Code.Ends (ops Flat clock) (round L) m (Round L clock t s m) := by
  refine Code.Ends.seq (ends_toHaveSlot h) fun m₁ h₁ => ?_
  refine (ends_haveSlot h.task_lt ?_).mono fun m' h' => .of_haveSlot h₁ h'
  rw [h₁.states _ (by decide) (by decide), h.task]

theorem allocTables_owner {s j : Nat} {W : Nat → Word} (ht : t < 100) (hj : j < 4)
    (hold : TaskOrNone (W (slotToTask + 4 * s))) :
    allocTables t s W (slotToTask + 4 * j) =
      if j = s then BitVec.ofNat 32 t else W (slotToTask + 4 * j) := by
  unfold allocTables
  by_cases hjs : j = s
  · subst hjs
    rw [if_pos rfl, Function.update_self]
  · rw [if_neg hjs, Function.update_of_ne (by simp; omega), Function.update_of_ne (by simp; omega)]
    obtain h | ⟨u, hu, h⟩ := hold
    · rw [h, if_pos (by decide)]
    · rw [h, if_neg (by simp [msb_task hu]), toNat_ofNat_task hu,
        Function.update_of_ne (by simp; omega)]

theorem AtLoop.next {s : Nat} {m' : Timed Flat} (h : AtLoop L t s m)
    (hr : Round L clock t s m m') :
    AtLoop L ((t + 1) % 100) (if (lookupWord L clock m).msb then (s + 1) % 4 else s) m' where
  task := hr.task
  oldest := hr.oldest
  owners j hj := by
    rw [hr.tables _ (by simp; omega)]
    split
    · rw [allocTables_owner h.task_lt hj (h.owners s h.oldest_lt)]
      split
      · exact .inr ⟨t, h.task_lt, rfl⟩
      · exact h.owners j hj
    · exact h.owners j hj
  task_lt := Nat.mod_lt _ (by decide)
  oldest_lt := by
    have hs := h.oldest_lt
    split <;> omega

/-- What `main` has done when it comes to `srw_loop`. -/
structure Initialised (L : BareMetal) (m m' : Timed Flat) : Prop where
  task : L.words m'.mem stateTaskId = 0
  oldest : L.words m'.mem stateOldestSlot = 0
  iteration : L.words m'.mem stateIter = 0
  accounts : ∀ p : Phase, L.words m'.mem p.acc = 0
  tasks : ∀ u < 100, L.words m'.mem (taskToSlot + 4 * u) = -1
  slots : ∀ j < 4, L.words m'.mem (slotToTask + 4 * j) = -1
  arrays : ∀ k, 416 ≤ k → k < 3616 → L.words m'.mem k = L.words m.mem k
  above : ∀ k, 4208 ≤ k → L.words m'.mem k = L.words m.mem k
  reads : m'.reads = m.reads
  outside : OutsideReport L m m'

theorem ends_initTable {lo n : Nat} (hn : 0 < n) (hlo : lo + 4 * n ≤ 0x2000) (m : Timed Flat) :
    Code.Ends (ops Flat clock) (.seq (.block
        [la L t0 lo,
         .li t1 (BitVec.ofNat 32 n),
         .li t2 (-1)])
      (.loop n (.block (initLoop (-1))) (.beqz t1) (.block []))) m fun m' =>
      L.words m'.mem = filled lo n (fun _ => -1) (L.words m.mem) ∧ Light L m m' := by
  refine Code.Ends.seq (P := fun m₁ => m₁.x t0 = L.addr lo ∧ m₁.x t1 = BitVec.ofNat 32 n ∧
    m₁.x t2 = -1 ∧ m₁.mem = m.mem ∧ Light L m m₁) ?_ ?_
  · refine Code.ends_block.mpr ⟨rfl, rfl, rfl, rfl, ?_, fun _ _ => rfl, rfl⟩
    intro r hr
    simp only [List.mem_cons, List.not_mem_nil, or_false, not_or] at hr
    simp [ops, Timed.step, Timed.x_setX, hr]
  rintro m₁ ⟨h0, h1, h2, hm₁, hl₁⟩
  have hpass (m : Timed Flat) : StorePass id m ((initLoop (-1)).foldl (Timed.step clock) m) := by
    obtain ⟨h0, h1, h2, hx, hm, hr⟩ := @initLoop_run clock (-1) m
    exact ⟨h0, h1.trans (add_neg_one _), h2, hx, hm, hr⟩
  refine (ends_stores (f := fun _ => -1) hpass (fun _ => rfl) hlo hn h0 h1 h2).mono ?_
  rintro m₂ ⟨hw₂, hl₂⟩
  rw [hm₁] at hw₂
  exact ⟨hw₂, hl₁.trans hl₂⟩

theorem ends_initState (m : Timed Flat) :
    Code.Ends (ops Flat clock) (.block (initState L)) m fun m' =>
      (∀ k ∈ [stateTaskId, stateOldestSlot, stateIter, accWorkload, accSpill, accRestore, accStage,
        accTrapRoundtrip, accTrapEntry, accTrapBody, accMretReturn], L.words m'.mem k = 0) ∧
      (∀ k, k < 4128 ∨ 4208 ≤ k → L.words m'.mem k = L.words m.mem k) ∧
      m'.reads = m.reads ∧ OutsideReport L m m' := by
  refine Code.ends_block.mpr ⟨fun k hk => ?_, fun k hk => ?_, rfl, fun a ha h118 _ => ?_⟩
  · simp only [List.mem_cons, List.not_mem_nil, or_false] at hk
    rcases hk with rfl | rfl | rfl | rfl | rfl | rfl | rfl | rfl | rfl | rfl | rfl <;>
      simp [ops, initState, Timed.step, Timed.x_setX]
  · have hne (j : Nat) (hj : 4128 ≤ j ∧ j < 4208) : k ≠ j := by omega
    simp [ops, initState, Timed.step, Timed.x_setX, hne]
  · have h118' : ¬ a = 280#32 := h118
    simp [ops, initState, Timed.step, Timed.x_setX, ha, h118']

theorem ends_init (m : Timed Flat) :
    Code.Ends (ops Flat clock) (init L) m (Initialised L m) := by
  refine Code.Ends.seq (Code.ends_seq.mp (@ends_initTable L clock taskToSlot 100
    (by decide) (by decide) m)) fun m₁ h₁ => Code.Ends.seq h₁ ?_
  rintro m₂ ⟨hw₂, hl₂⟩
  refine Code.Ends.seq (Code.ends_seq.mp (@ends_initTable L clock slotToTask 4
    (by decide) (by decide) m₂)) fun m₃ h₃ => Code.Ends.seq h₃ ?_
  rintro m₄ ⟨hw₄, hl₄⟩
  refine (ends_initState m₄).mono ?_
  rintro m₅ ⟨hz, hw₅, hr₅, ho₅⟩
  have hout (k : Nat) (hk : 416 ≤ k) : L.words m₄.mem k = L.words m.mem k := by
    rw [hw₄, filled_outside _ _ (.inr (by simp; omega)), hw₂,
      filled_outside _ _ (.inr (by simp; omega))]
  refine ⟨hz _ (by decide), hz _ (by decide), hz _ (by decide), fun p => ?_, fun u hu => ?_,
    fun j hj => ?_, fun k hk hk' => ?_, fun k hk => ?_, ?_, ?_⟩
  · cases p <;> exact hz _ (by decide)
  · rw [hw₅ _ (.inl (by simp; omega)), hw₄, filled_outside _ _ (.inl (by simp; omega)), hw₂,
      filled_inside _ _ hu]
  · rw [hw₅ _ (.inl (by simp; omega)), hw₄, filled_inside _ _ hj]
  · rw [hw₅ k (.inl (by omega)), hout k hk]
  · rw [hw₅ k (.inr hk), hout k (by omega)]
  · rw [hr₅, hl₄.reads, hl₂.reads]
  · exact ((hl₂.outside.trans hl₄.outside).report).trans ho₅

theorem Initialised.atLoop {m' : Timed Flat} (h : Initialised L m m') : AtLoop L 0 0 m' where
  task := h.task
  oldest := h.oldest
  owners j hj := .inl (h.slots j hj)
  task_lt := by decide
  oldest_lt := by decide

end RegisterWindows.Bench.Windowed
