import RegisterWindows.Scheduler.Ready

namespace RegisterWindows.Scheduler
open RegisterWindows.Scheduler.Lists

namespace Tasks
open ListItem ListId

variable {τ κ : Type} {n : Nat} {k k' : Tasks τ κ n} {t cur : τ}

/-- The ticks until a delayed task wakes. -/
def remaining (k : Tasks τ κ n) (t : τ) : Nat :=
  (k.value (xStateListItem t) - k.xTickCount).toNat

/-- The tasks that wake within `m` ticks. -/
def Dawn (k : Tasks τ κ n) (m : Nat) (t : τ) : Prop := k.Delayed t ∧ k.remaining t ≤ m

/-- The tasks in the delayed list whose wake time is not after the tick count. -/
def Over (k : Tasks τ κ n) (t : τ) : Prop :=
  k.place (xStateListItem t) = some k.pxDelayedTaskList ∧ k.value (xStateListItem t) ≤ k.xTickCount

/-- `m` ticks passed. -/
structure Ticked (m : Nat) (k k' : Tasks τ κ n) : Prop where
  xTickCount : k'.xTickCount = k.xTickCount + BitVec.ofNat 32 m
  ticks : k'.ticks = k.ticks + m
  uxSchedulerSuspended : k'.uxSchedulerSuspended = k.uxSchedulerSuspended

section
variable {T : ListId κ n → Turns (ListItem τ)}

theorem Healthy.remaining_pos (hk : k.Healthy T) (ht : k.Delayed t) : 0 < k.remaining t := by
  rw [remaining, Nat.pos_iff_ne_zero]
  intro hz
  have he : k.value (xStateListItem t) = k.xTickCount := by
    have hsub : k.value (xStateListItem t) - k.xTickCount = 0#32 := BitVec.eq_of_toNat_eq hz
    have hadd := BitVec.sub_add_cancel (k.value (xStateListItem t)) k.xTickCount
    rw [hsub, BitVec.zero_add] at hadd
    exact hadd.symm
  rcases hk.delayed_iff.mp ht with hd | ho
  · have hlt := hk.clock.later t hd
    rw [he] at hlt
    exact BitVec.lt_irrefl _ hlt
  · have hlt := hk.clock.wrapped t ho
    rw [he] at hlt
    exact BitVec.lt_irrefl _ hlt

theorem remaining_eq_one : k.remaining t = 1 ↔ k.value (xStateListItem t) = k.xTickCount + 1 := by
  rw [remaining]
  constructor
  · intro h
    have hsub : k.value (xStateListItem t) - k.xTickCount = 1#32 := BitVec.eq_of_toNat_eq h
    have hadd := BitVec.sub_add_cancel (k.value (xStateListItem t)) k.xTickCount
    rw [hsub] at hadd
    rw [← hadd, BitVec.add_comm]
    rfl
  · intro h
    rw [h, BitVec.add_comm, BitVec.add_sub_cancel]
    rfl

theorem Healthy.dawn_one (hk : k.Healthy T) :
    k.Dawn 1 t ↔ k.Delayed t ∧ k.value (xStateListItem t) = k.xTickCount + 1 := by
  rw [← remaining_eq_one, Dawn]
  constructor
  · rintro ⟨hd, hle⟩
    exact ⟨hd, Nat.le_antisymm hle (hk.remaining_pos hd)⟩
  · rintro ⟨hd, he⟩
    exact ⟨hd, Nat.le_of_eq he⟩

theorem prvResetNextTaskUnblockTime_eq (k : Tasks τ κ n) :
    ∃ u, k.prvResetNextTaskUnblockTime = { k with xNextTaskUnblockTime := u } := by
  unfold prvResetNextTaskUnblockTime
  split
  · exact ⟨_, rfl⟩
  · exact ⟨_, rfl⟩

theorem Core.prvResetNextTaskUnblockTime (hk : k.Core T) :
    Timely k.prvResetNextTaskUnblockTime := by
  unfold Tasks.prvResetNextTaskUnblockTime
  split
  · rename_i he
    intro t ht
    exact absurd ht ((hk.isEmpty _).mp he _)
  · intro t ht
    have hm : xStateListItem t ∈ (T k.pxDelayedTaskList).items := hk.mem.mpr ht
    have hs := hk.sorted_delayed
    dsimp only
    rw [listGetItemValueOfHeadEntry, hk.rep.head]
    cases hx : (T k.pxDelayedTaskList).items with
    | nil =>
      rw [hx] at hm
      cases hm
    | cons i r =>
      rw [hx] at hm hs
      rcases List.mem_cons.mp hm with rfl | hr
      · exact BitVec.le_refl _
      · exact (List.pairwise_cons.mp hs).1 _ hr

end

section
variable [DecidableEq τ] [DecidableEq κ] {T : ListId κ n → Turns (ListItem τ)}

omit [DecidableEq τ] [DecidableEq κ] in
/-- Where the tick count wraps, the delayed list is empty, as the `configASSERT` requires, and the
lists are exchanged. -/
theorem Healthy.incrementTickCount (hk : k.Healthy T) :
    ∃ k₁, k.incrementTickCount = some k₁ ∧ k₁.Core T ∧ Due k₁ ∧ Timely k₁ ∧
      (∀ t, k₁.Over t ↔ k.Dawn 1 t) ∧ Ticked 1 k k₁ ∧ SameTasks k k₁ ∧ k₁.lists = k.lists ∧
        k₁.pxCurrentTCB = k.pxCurrentTCB ∧
      k₁.xPendedTicks = k.xPendedTicks ∧ k₁.xYieldPending = k.xYieldPending ∧
      k₁.readied = k.readied ∧ k₁.switchedIn = k.switchedIn := by
  have hlater := hk.clock.later
  have hwrapped := hk.clock.wrapped
  unfold Tasks.incrementTickCount
  set k₀ : Tasks τ κ n := { k with xTickCount := k.xTickCount + 1, ticks := k.ticks + 1 }
  by_cases hz : k.xTickCount + 1 = 0
  · -- every wake time would have to be above the highest tick count
    have hmax : k.xTickCount.toNat = 2 ^ 32 - 1 := by
      have := congrArg BitVec.toNat hz
      rw [BitVec.toNat_add] at this
      have hlt := k.xTickCount.isLt
      simp at this
      omega
    have hnone : ∀ t, k.place (xStateListItem t) ≠ some k.pxDelayedTaskList := by
      intro t ht
      have hlt : k.xTickCount.toNat < (k.value (xStateListItem t)).toNat := hlater t ht
      have hb := (k.value (xStateListItem t)).isLt
      omega
    have hempty : k.lists.listListIsEmpty k.pxDelayedTaskList = true := by
      rw [hk.isEmpty]
      intro i hi
      obtain ⟨t, rfl⟩ := hk.fits_delayed hi
      exact hnone t hi
    set k₁ : Tasks τ κ n := { k₀ with
      pxDelayedTaskList := k.pxOverflowDelayedTaskList
      pxOverflowDelayedTaskList := k.pxDelayedTaskList
      xNumOfOverflows := k.xNumOfOverflows + 1 } with hk₁
    have hcore : k₁.Core T :=
      hk.toCore.congr rfl ⟨rfl, rfl, rfl, rfl, rfl⟩ rfl (Or.inr ⟨rfl, rfl⟩) rfl
    have htimely := hcore.prvResetNextTaskUnblockTime
    obtain ⟨u, hu⟩ := prvResetNextTaskUnblockTime_eq k₁
    rw [hu] at htimely
    refine ⟨{ k₁ with xNextTaskUnblockTime := u }, ?_, ?_, ?_, htimely, ?_, ⟨rfl, rfl, rfl⟩,
      ⟨rfl, rfl, rfl, rfl, rfl⟩, rfl, rfl, rfl, rfl, rfl, rfl⟩
    · rw [if_pos hz, taskSwitchDelayedLists, if_pos hempty, ← hu]
    · exact hcore.congr rfl ⟨rfl, rfl, rfl, rfl, rfl⟩ rfl (Or.inl ⟨rfl, rfl⟩) rfl
    · constructor
      · intro t _
        change k.xTickCount + 1 ≤ _
        rw [hz]
        exact Nat.zero_le _
      · intro t ht
        exact absurd ht (hnone t)
    · intro t
      rw [hk.dawn_one, hk.delayed_iff, Over]
      change k.place _ = some k.pxOverflowDelayedTaskList ∧ k.value _ ≤ k.xTickCount + 1 ↔ _
      rw [hz]
      simp [hnone t]
  · have hval : (k.xTickCount + 1).toNat = k.xTickCount.toNat + 1 := by
      have hlt := k.xTickCount.isLt
      have hne : (k.xTickCount + 1).toNat ≠ 0 := fun h => hz (BitVec.eq_of_toNat_eq h)
      rw [BitVec.toNat_add] at hne ⊢
      simp at hne ⊢
      omega
    refine ⟨k₀, if_neg hz, ?_, ?_, hk.clock.timely, ?_, ⟨rfl, rfl, rfl⟩, ⟨rfl, rfl, rfl, rfl, rfl⟩,
      rfl, rfl, rfl, rfl, rfl, rfl⟩
    · exact hk.toCore.congr rfl ⟨rfl, rfl, rfl, rfl, rfl⟩ rfl (Or.inl ⟨rfl, rfl⟩) rfl
    · constructor
      · intro t ht
        have hlt : k.xTickCount.toNat < (k.value (xStateListItem t)).toNat := hlater t ht
        change (k.xTickCount + 1).toNat ≤ _
        rw [hval]
        exact hlt
      · intro t ht
        have hlt : (k.value (xStateListItem t)).toNat < k.xTickCount.toNat := hwrapped t ht
        change _ < (k.xTickCount + 1).toNat
        rw [hval]
        exact Nat.lt_succ_of_lt hlt
    · intro t
      rw [hk.dawn_one, hk.delayed_iff, Over]
      change k.place _ = some k.pxDelayedTaskList ∧ k.value _ ≤ k.xTickCount + 1 ↔ _
      constructor
      · rintro ⟨hp, hle⟩
        have hlt : k.xTickCount.toNat < (k.value (xStateListItem t)).toNat := hlater t hp
        have hle' : (k.value (xStateListItem t)).toNat ≤ (k.xTickCount + 1).toNat := hle
        refine ⟨Or.inl hp, BitVec.eq_of_toNat_eq ?_⟩
        omega
      · rintro ⟨hp | hp, he⟩
        · exact ⟨hp, by rw [he]; exact BitVec.le_refl _⟩
        · have hlt : (k.value (xStateListItem t)).toNat < k.xTickCount.toNat := hwrapped t hp
          rw [he] at hlt
          omega

omit [DecidableEq τ] [DecidableEq κ] in
theorem Core.head_entry (hk : k.Core T) {l : ListId κ n} {i : ListItem τ} {r : List (ListItem τ)}
    (h : (T l).items = i :: r) (ho : i.owner = t) : k.listGetOwnerOfHeadEntry l = some t := by
  rw [listGetOwnerOfHeadEntry, hk.rep.head, h]
  exact congrArg some ho

theorem Core.unblock (hk : k.Core T) (ht : t ∈ k.created) :
    ∃ k' T', k.unblock t = some k' ∧ k'.Core T' ∧ Edits (k.book T) (k'.book T') ∧
      Wakes (fun u => u = t) k k' ∧ SameClock k k' ∧ k'.xYieldPending = k.xYieldPending := by
  obtain ⟨h, R, hleave, ho, he⟩ := hk.leaveLists ht
  obtain ⟨T', hcore, hedits⟩ := ho.toReady hk
  refine ⟨_, T', ?_, hcore, hedits, ho.wakes he, ?_, ?_⟩
  · rw [Tasks.unblock, hleave, Option.map_some]
  · rw [prvAddTaskToReadyList_eq]
    exact ⟨rfl, rfl, rfl, rfl, rfl, rfl⟩
  · rw [prvAddTaskToReadyList_eq]

omit [DecidableEq τ] [DecidableEq κ] in
theorem Core.shorter {T' : ListId κ n → Turns (ListItem τ)} (hk : k.Core T) (hk' : k'.Core T')
    {l : ListId κ n} {i : ListItem τ} (hsub : ∀ j, k'.place j = some l → k.place j = some l)
    (hi : k.place i = some l) (hi' : k'.place i ≠ some l) :
    (T' l).items.length < (T l).items.length := by
  classical
  have hn : i ∉ (T' l).items := fun hm => hi' (hk'.mem.mp hm)
  have hnodup : (i :: (T' l).items).Nodup := List.nodup_cons.mpr ⟨hn, hk'.rep.nodup l⟩
  have hperm : (i :: (T' l).items).Subperm (T l).items := by
    apply hnodup.subperm
    intro j hj
    rcases List.mem_cons.mp hj with rfl | hj
    · exact hk.mem.mpr hi
    · exact hk.mem.mpr (hsub j (hk'.mem.mp hj))
  exact hperm.length_le

omit [DecidableEq τ] [DecidableEq κ] in
theorem Core.first (hk : k.Core T) {i : ListItem τ} {r : List (ListItem τ)}
    (hx : (T k.pxDelayedTaskList).items = i :: r) :
    ∃ t, k.place (xStateListItem t) = some k.pxDelayedTaskList ∧
      k.listGetOwnerOfHeadEntry k.pxDelayedTaskList = some t ∧
      ∀ u, k.place (xStateListItem u) = some k.pxDelayedTaskList →
        k.value (xStateListItem t) ≤ k.value (xStateListItem u) := by
  have hi : k.place i = some k.pxDelayedTaskList := by
    rw [← hk.mem, hx]
    exact List.mem_cons_self
  obtain ⟨t, rfl⟩ := hk.fits_delayed hi
  refine ⟨t, hi, hk.head_entry hx rfl, fun u hu => ?_⟩
  have hs := hk.sorted_delayed
  rw [← hk.mem, hx] at hu
  rw [hx] at hs
  rcases List.mem_cons.mp hu with he | hr
  · rw [he]
    exact BitVec.le_refl _
  · exact (List.pairwise_cons.mp hs).1 _ hr

omit [DecidableEq τ] [DecidableEq κ] in
theorem Core.settled (hk : k.Core T) {v : TickType}
    (hlater : ∀ t, k.place (xStateListItem t) = some k.pxDelayedTaskList →
      k.xTickCount < k.value (xStateListItem t)) :
    Core { k with xNextTaskUnblockTime := v } T ∧
      Wakes k.Over k { k with xNextTaskUnblockTime := v } ∧ ∀ t, ¬ k.Over t := by
  have hover : ∀ t, ¬ k.Over t := fun t ht => BitVec.not_lt.mpr ht.2 (hlater t ht.1)
  refine ⟨hk.congr rfl ⟨rfl, rfl, rfl, rfl, rfl⟩ rfl (Or.inl ⟨rfl, rfl⟩) rfl, ?_, hover⟩
  refine Wakes.congr (W := fun _ => False) ?_ fun t => ⟨False.elim, hover t⟩
  exact (Wakes.refl k).of_eq ⟨rfl, rfl, rfl, rfl, rfl⟩ rfl rfl rfl rfl

omit [DecidableEq τ] [DecidableEq κ] in
/-- One round: the task that woke is gone from the list, and what is over now was so before. -/
theorem Core.round {k₁ : Tasks τ κ n} {T₁ : ListId κ n → Turns (ListItem τ)} (hk : k.Core T)
    (hk₁ : k₁.Core T₁) (hwakes : Wakes (fun u => u = t) k k₁) (hclock : SameClock k k₁)
    (hi : k.place (xStateListItem t) = some k.pxDelayedTaskList)
    (hle : ¬ k.xTickCount < k.value (xStateListItem t)) :
    (T₁ k₁.pxDelayedTaskList).items.length < (T k.pxDelayedTaskList).items.length ∧
      ∀ u, (u = t ∨ k₁.Over u) ↔ k.Over u := by
  have hplace : ∀ u, k₁.place (xStateListItem u) = some k.pxDelayedTaskList ↔
      ¬ u = t ∧ k.place (xStateListItem u) = some k.pxDelayedTaskList :=
    fun u => hwakes.state_eq fun p => (hk.delayed_ne p).1
  constructor
  · rw [hclock.pxDelayedTaskList]
    refine hk.shorter hk₁ (fun j hj => ?_) hi fun h => ((hplace t).mp h).1 rfl
    rw [← hclock.pxDelayedTaskList] at hj
    obtain ⟨u, rfl⟩ := hk₁.fits_delayed hj
    rw [hclock.pxDelayedTaskList] at hj
    exact ((hplace u).mp hj).2
  · intro u
    rw [Over, Over, hclock.pxDelayedTaskList, hplace, hclock.xTickCount, hwakes.value]
    by_cases he : u = t
    · subst he
      exact ⟨fun _ => ⟨hi, BitVec.not_lt.mp hle⟩, fun _ => Or.inl rfl⟩
    · simp [he]

/-- The loop wakes the tasks whose time is over, each once, and then knows the next time. -/
theorem Core.unblockLoop {fuel : Nat} (hk : k.Core T) (hc : k.pxCurrentTCB = some cur)
    (hf : (T k.pxDelayedTaskList).items.length < fuel) (s : Bool) :
    ∃ r k' T', Tasks.unblockLoop k.xTickCount fuel k s = some (r, k') ∧ k'.Core T' ∧
      Edits (k.book T) (k'.book T') ∧ Wakes k.Over k k' ∧ SameClock k k' ∧ Timely k' ∧
      (∀ t, k'.place (xStateListItem t) = some k.pxDelayedTaskList →
        k.xTickCount < k'.value (xStateListItem t)) ∧
      k'.xYieldPending = k.xYieldPending ∧
      (r = true ↔ s = true ∨ ∃ t, k.Over t ∧ k.uxPriority cur < k.uxPriority t) := by
  induction fuel generalizing k T s with
  | zero => exact absurd hf (Nat.not_lt_zero _)
  | succ fuel ih =>
    rw [Tasks.unblockLoop]
    cases hx : (T k.pxDelayedTaskList).items with
    | nil =>
      have hnone : ∀ t, k.place (xStateListItem t) ≠ some k.pxDelayedTaskList := by
        intro t ht
        rw [← hk.mem, hx] at ht
        cases ht
      obtain ⟨hcore, hwakes, hover⟩ := hk.settled (v := portMaxDelay) fun t ht =>
        absurd ht (hnone t)
      rw [if_pos ((hk.rep.isEmpty _).mpr hx)]
      refine ⟨_, _, T, rfl, hcore, Edits.refl _, hwakes, ⟨rfl, rfl, rfl, rfl, rfl, rfl⟩, ?_, ?_,
        rfl, by simp [hover]⟩
      · exact fun t ht => absurd ht (hnone t)
      · exact fun t ht => absurd ht (hnone t)
    | cons i r =>
      have hne : ¬ k.lists.listListIsEmpty k.pxDelayedTaskList = true := by
        rw [hk.rep.isEmpty, hx]
        exact List.cons_ne_nil _ _
      obtain ⟨t, hi, hhead, hfirst⟩ := hk.first hx
      rw [if_neg hne, hhead, Option.bind_eq_bind, Option.bind_some]
      dsimp only
      by_cases hlt : k.xTickCount < k.value (xStateListItem t)
      · have hlater : ∀ u, k.place (xStateListItem u) = some k.pxDelayedTaskList →
            k.xTickCount < k.value (xStateListItem u) :=
          fun u hu => Nat.lt_of_lt_of_le hlt (hfirst u hu)
        obtain ⟨hcore, hwakes, hover⟩ := hk.settled (v := k.value (xStateListItem t)) hlater
        rw [if_pos hlt]
        exact ⟨_, _, T, rfl, hcore, Edits.refl _, hwakes, ⟨rfl, rfl, rfl, rfl, rfl, rfl⟩, hfirst,
          hlater, rfl, by simp [hover]⟩
      · obtain ⟨k₁, T₁, hk₁, hcore, hedits, hwakes, hclock, hyield⟩ :=
          hk.unblock ((hk.placed t).mpr ⟨_, hi⟩)
        have hc₁ : k₁.pxCurrentTCB = some cur := hwakes.current.trans hc
        obtain ⟨hshorter, hover⟩ := hk.round hcore hwakes hclock hi hlt
        have hlen := Nat.lt_of_lt_of_le hshorter (Nat.le_of_lt_succ hf)
        obtain ⟨r', k', T', hloop, hcore', hedits', hwakes', hclock', htimely, hlater, hyield',
          hr⟩ :=
          ih hcore hc₁ hlen (s || decide (k₁.uxPriority t > k₁.uxPriority cur))
        rw [if_neg hlt, hk₁, Option.bind_eq_bind, Option.bind_some]
        simp only [hc₁, Option.bind_some]
        rw [← hclock.xTickCount]
        refine ⟨r', k', T', hloop, hcore', hedits.trans hedits', (hwakes.trans hwakes').congr hover,
          hclock.trans hclock', htimely, ?_, hyield'.trans hyield, ?_⟩
        · rw [← hclock.pxDelayedTaskList]
          exact hlater
        · rw [hr, hwakes.tasks.uxPriority, Bool.or_eq_true, decide_eq_true_eq, or_assoc]
          apply or_congr Iff.rfl
          constructor
          · rintro (hp | ⟨u, hu, hp⟩)
            · exact ⟨t, (hover t).mp (Or.inl rfl), hp⟩
            · exact ⟨u, (hover u).mp (Or.inr hu), hp⟩
          · rintro ⟨u, hu, hp⟩
            rcases (hover u).mpr hu with rfl | hu
            · exact Or.inl hp
            · exact Or.inr ⟨u, hu, hp⟩

/-- The tasks with the new time wake. The answer is `true` if one of them has a higher priority
than the running task, if a task of the same priority is ready too, or if a yield is pending. -/
theorem Healthy.xTaskIncrementTick (hk : k.Healthy T) (hs : k.uxSchedulerSuspended = 0)
    (hc : k.pxCurrentTCB = some cur) :
    ∃ r k' T', k.xTaskIncrementTick = some (r, k') ∧ k'.Healthy T' ∧
      Edits (k.book T) (k'.book T') ∧ Wakes (k.Dawn 1) k k' ∧ Ticked 1 k k' ∧
      k'.xPendedTicks = k.xPendedTicks ∧ k'.xYieldPending = k.xYieldPending ∧
      (k.xYieldPending = true → r = true) ∧ (Calm k → r = true ∨ Calm k') ∧
      ∀ t, t ≠ cur → k'.Ready cur → k'.Ready t → k.uxPriority t = k.uxPriority cur → r = true := by
  obtain ⟨k₁, hk₁, hcore₁, hdue₁, htimely₁, hover, htick, htasks, hlists, hcur, hpend, hyield,
    hread, hsw⟩ := hk.incrementTickCount
  have hc₁ : k₁.pxCurrentTCB = some cur := hcur.trans hc
  have hbook : k₁.book T = k.book T := by rw [book, book, hread, hsw]
  have hfree₁ : Free k₁ := by
    intro t ht
    rw [Ready, place, htasks.uxPriority, hlists] at ht
    rw [place, hlists]
    exact hk.free t ht
  have hwakes₁ : Wakes (fun _ => False) k k₁ :=
    (Wakes.refl k).of_eq htasks hcur hlists hread hsw
  -- the loop, if it runs at all
  obtain ⟨s, k', T', hloop, hcore, hedits, hwakes, hclock, htimely, hlater, hyield', hsr⟩ :
      ∃ s k' T', k₁.unblockTasks = some (s, k') ∧ k'.Core T' ∧ Edits (k₁.book T) (k'.book T') ∧
        Wakes k₁.Over k₁ k' ∧ SameClock k₁ k' ∧ Timely k' ∧
        (∀ t, k'.place (xStateListItem t) = some k₁.pxDelayedTaskList →
          k₁.xTickCount < k'.value (xStateListItem t)) ∧ k'.xYieldPending = k₁.xYieldPending ∧
        (s = true ↔ false = true ∨ ∃ t, k₁.Over t ∧ k₁.uxPriority cur < k₁.uxPriority t) := by
    unfold unblockTasks
    by_cases hge : k₁.xTickCount ≥ k₁.xNextTaskUnblockTime
    · rw [if_pos hge]
      apply hcore₁.unblockLoop hc₁
      rw [hcore₁.rep.number]
      exact Nat.lt_succ_self _
    · have hlater : ∀ t, k₁.place (xStateListItem t) = some k₁.pxDelayedTaskList →
          k₁.xTickCount < k₁.value (xStateListItem t) :=
        fun t ht => Nat.lt_of_lt_of_le (BitVec.not_le.mp hge) (htimely₁ t ht)
      have hnone : ∀ t, ¬ k₁.Over t := fun t ht => BitVec.not_lt.mpr ht.2 (hlater t ht.1)
      refine ⟨false, k₁, T, if_neg hge, hcore₁, Edits.refl _, ?_, SameClock.refl _, htimely₁,
        hlater, rfl, ?_⟩
      · exact (Wakes.refl k₁).congr fun t => ⟨False.elim, hnone t⟩
      · simp [hnone]
  have hc' : k'.pxCurrentTCB = some cur := hwakes.current.trans hc₁
  have hp : k'.uxPriority = k.uxPriority := hwakes.tasks.uxPriority.trans htasks.uxPriority
  have hdawn : Wakes (k.Dawn 1) k k' :=
    (hwakes₁.trans hwakes).congr fun t => by rw [false_or, hover]
  have hhealthy : k'.Healthy T' := by
    refine ⟨hcore, hwakes.free hfree₁, ?_, ?_, htimely⟩
    · intro t ht
      rw [hclock.pxDelayedTaskList] at ht
      rw [hclock.xTickCount]
      exact hlater t ht
    · exact (hwakes.due hcore₁ hclock hdue₁).wrapped
  refine ⟨s || decide (k'.lists.uxNumberOfItems (pxReadyTasksLists (k'.uxPriority cur)) > 1) ||
    k'.xYieldPending, k', T', ?_, hhealthy, hbook ▸ hedits, hdawn, ?_, ?_, ?_, ?_, ?_, ?_⟩
  · rw [Tasks.xTaskIncrementTick, if_pos hs, hk₁]
    simp only [Option.bind_eq_bind, Option.bind_some, hloop, hc']
  · exact ⟨hclock.xTickCount.trans htick.xTickCount, hclock.ticks.trans htick.ticks,
      hclock.uxSchedulerSuspended.trans htick.uxSchedulerSuspended⟩
  · exact hclock.xPendedTicks.trans hpend
  · exact hyield'.trans hyield
  · intro hy
    rw [hyield', hyield, hy, Bool.or_true]
  · intro hcalm
    by_cases hhigh : ∃ t, k.Dawn 1 t ∧ k.uxPriority cur < k.uxPriority t
    · obtain ⟨t, ht, hlt⟩ := hhigh
      left
      rw [hsr.mpr (Or.inr ⟨t, (hover t).mpr ht, by rwa [htasks.uxPriority]⟩), Bool.true_or,
        Bool.true_or]
    · right
      intro c hcc t ht
      rw [hc'] at hcc
      cases hcc
      rw [hp]
      rcases hdawn.ready_iff.mp ht with hd | hr
      · exact Nat.le_of_not_lt fun hlt => hhigh ⟨t, hd, hlt⟩
      · exact hcalm cur hc t hr
  · intro t hne hrc hrt hpt
    rw [Ready, hp] at hrc hrt
    rw [hpt] at hrt
    have htwo : [xStateListItem cur, xStateListItem t].Subperm
        (T' (pxReadyTasksLists (k.uxPriority cur))).items := by
      apply List.Nodup.subperm
      · simpa using hne.symm
      · intro i hi
        rw [hcore.mem]
        rcases List.mem_cons.mp hi with rfl | hi
        · exact hrc
        · rw [List.mem_singleton.mp hi]
          exact hrt
    have hlen : k'.lists.uxNumberOfItems (pxReadyTasksLists (k'.uxPriority cur)) > 1 := by
      rw [hcore.rep.number, hp]
      exact htwo.length_le
    rw [decide_eq_true hlen, Bool.or_true, Bool.true_or]

end
end Tasks
end RegisterWindows.Scheduler
