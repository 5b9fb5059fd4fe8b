import RegisterWindows.Scheduler.Tick

namespace RegisterWindows.Scheduler
open RegisterWindows.Scheduler.Lists

namespace Tasks
open ListItem ListId

variable {τ κ : Type} {n : Nat} {k k' : Tasks τ κ n} {t cur : τ}

/-- The tasks that wait in the pending list for the scheduler to be resumed. -/
def Pend (k : Tasks τ κ n) (t : τ) : Prop := k.place (xEventListItem t) = some xPendingReadyList

section
variable [DecidableEq τ] [DecidableEq κ] {T : ListId κ n → Turns (ListItem τ)} {l : ListId κ n}

/-- A task that waits for an event leaves both of its lists, the event list first, and is ready. -/
theorem Core.wakeWaiting (hk : k.Core T) (he : k.place (xEventListItem t) = some l) :
    ∃ k₁ k₂ T', k.listRemoveItem (xEventListItem t) = some k₁ ∧
      k₁.listRemoveItem (xStateListItem t) = some k₂ ∧ (k₂.prvAddTaskToReadyList t).Core T' ∧
      Edits (k.book T) ((k₂.prvAddTaskToReadyList t).book T') ∧
      Wakes (fun u => u = t) k (k₂.prvAddTaskToReadyList t) ∧
      SameClock k (k₂.prvAddTaskToReadyList t) ∧
      (k₂.prvAddTaskToReadyList t).xNextTaskUnblockTime = k.xNextTaskUnblockTime ∧
      (k₂.prvAddTaskToReadyList t).xYieldPending = k.xYieldPending ∧
      k₁.uxSchedulerSuspended = k.uxSchedulerSuspended := by
  obtain ⟨m, hm⟩ := (hk.placed t).mp (hk.waits t l he)
  have hcore := hk.drop he
  set k₁ : Tasks τ κ n := { k with lists := k.lists.release l (xEventListItem t) } with hk₁
  have hat : ∀ i, k₁.place i = if i = xEventListItem t then none else k.place i := by
    intro i
    simp only [place, hk₁, release, Function.update_apply]
  have hm₁ : k₁.place (xStateListItem t) = some m := by
    rw [hat, if_neg (by simp), hm]
  have ho := hcore.out hm₁
  have hnone : (k₁.lists.release m (xStateListItem t)).pxContainer (xEventListItem t) = none := by
    have h := hat (xEventListItem t)
    rw [if_pos rfl] at h
    rcases ho.stay with hs | hs
    · rw [hs, h]
    · exact hs
  obtain ⟨T', hcore', hedits⟩ := ho.toReady hcore
  have hw := ho.wakes hnone
  refine ⟨_, _, T', listRemoveItem_eq he, listRemoveItem_eq hm₁, hcore', ?_, ?_, ?_, ?_, ?_, rfl⟩
  · exact (Edits.single (Edit.remove (k.book T) l (xEventListItem t) (hk.rep.nodup l))).trans hedits
  · obtain ⟨htasks, hcur, hvalues, hwoken, hstate, hevent, hreadied, hswitched⟩ := hw
    have hs₁ : SameTasks k k₁ := ⟨rfl, rfl, rfl, rfl, rfl⟩
    refine ⟨hs₁.trans htasks, hcur, hvalues, hwoken, ?_, ?_, hreadied, hswitched⟩
    · intro u hu
      rw [hstate u hu, hat, if_neg (by simp)]
    · intro u hu
      rw [hevent u hu, hat, if_neg (by simpa using hu)]
  · rw [prvAddTaskToReadyList_eq]
    exact ⟨rfl, rfl, rfl, rfl, rfl, rfl⟩
  · rw [prvAddTaskToReadyList_eq]
  · rw [prvAddTaskToReadyList_eq]

theorem Core.readyPending (hk : k.Core T) (hc : k.pxCurrentTCB = some cur) (hp : k.Pend t) :
    ∃ k' T', k.readyPending t = some k' ∧ k'.Core T' ∧ Edits (k.book T) (k'.book T') ∧
      Wakes (fun u => u = t) k k' ∧ SameClock k k' ∧
      k'.xNextTaskUnblockTime = k.xNextTaskUnblockTime ∧
      (k'.xYieldPending = true ↔ k.xYieldPending = true ∨ k.uxPriority cur < k.uxPriority t) := by
  obtain ⟨k₁, k₂, T', h₁, h₂, hcore, hedits, hwakes, hclock, hnext, hyield, _⟩ := hk.wakeWaiting hp
  set k₃ := k₂.prvAddTaskToReadyList t
  have hc₃ : k₃.pxCurrentTCB = some cur := hwakes.current.trans hc
  have heq : k.readyPending t = some (if k₃.uxPriority t > k₃.uxPriority cur then
      { k₃ with xYieldPending := true } else k₃) := by
    rw [Tasks.readyPending, h₁]
    simp only [Option.bind_eq_bind, Option.bind_some, h₂]
    rw [hc₃]
    rfl
  have hp₃ : k₃.uxPriority = k.uxPriority := hwakes.tasks.uxPriority
  rw [heq]
  by_cases hlt : k₃.uxPriority t > k₃.uxPriority cur
  · rw [if_pos hlt]
    rw [hp₃] at hlt
    refine ⟨_, T', rfl, ?_, hedits, ?_, hclock.trans ⟨rfl, rfl, rfl, rfl, rfl, rfl⟩, hnext, ?_⟩
    · exact hcore.congr rfl ⟨rfl, rfl, rfl, rfl, rfl⟩ rfl (Or.inl ⟨rfl, rfl⟩) rfl
    · exact hwakes.of_eq ⟨rfl, rfl, rfl, rfl, rfl⟩ rfl rfl rfl rfl
    · exact ⟨fun _ => Or.inr hlt, fun _ => rfl⟩
  · rw [if_neg hlt]
    rw [hp₃] at hlt
    refine ⟨_, T', rfl, hcore, hedits, hwakes, hclock, hnext, ?_⟩
    rw [hyield]
    exact ⟨Or.inl, fun h => h.resolve_right hlt⟩

/-- The loop empties the pending list. -/
theorem Core.pendingLoop (fuel : Nat) (hk : k.Core T) (hc : k.pxCurrentTCB = some cur)
    (hf : (T xPendingReadyList).items.length < fuel) :
    ∃ k' T', Tasks.pendingLoop fuel k = some k' ∧ k'.Core T' ∧ Edits (k.book T) (k'.book T') ∧
      Wakes k.Pend k k' ∧ SameClock k k' ∧ k'.xNextTaskUnblockTime = k.xNextTaskUnblockTime ∧
      (∀ i, k'.place i ≠ some xPendingReadyList) ∧
      (k'.xYieldPending = true ↔
        k.xYieldPending = true ∨ ∃ t, k.Pend t ∧ k.uxPriority cur < k.uxPriority t) := by
  induction fuel generalizing k T with
  | zero => exact absurd hf (Nat.not_lt_zero _)
  | succ fuel ih =>
    rw [Tasks.pendingLoop]
    cases hx : (T xPendingReadyList).items with
    | nil =>
      have hnone : ∀ i, k.place i ≠ some xPendingReadyList := by
        intro i hi
        rw [← hk.mem, hx] at hi
        cases hi
      have hpend : ∀ t, ¬ k.Pend t := fun t => hnone _
      rw [if_pos ((hk.rep.isEmpty _).mpr hx)]
      refine ⟨k, T, rfl, hk, Edits.refl _, ?_, SameClock.refl k, rfl, hnone, ?_⟩
      · exact (Wakes.refl k).congr fun t => ⟨False.elim, hpend t⟩
      · simp [hpend]
    | cons i r =>
      have hi : k.place i = some xPendingReadyList := by
        rw [← hk.mem, hx]
        exact List.mem_cons_self
      obtain ⟨t, rfl⟩ := hk.fits_pending hi
      have hne : ¬ k.lists.listListIsEmpty xPendingReadyList = true := by
        rw [hk.rep.isEmpty, hx]
        exact List.cons_ne_nil _ _
      have hhead : k.listGetOwnerOfHeadEntry xPendingReadyList = some t := hk.head_entry hx rfl
      obtain ⟨k₁, T₁, hk₁, hcore, hedits, hwakes, hclock, hnext, hyield⟩ := hk.readyPending hc hi
      have hc₁ : k₁.pxCurrentTCB = some cur := hwakes.current.trans hc
      have hpend : ∀ u, (u = t ∨ k₁.Pend u) ↔ k.Pend u := by
        intro u
        by_cases he : u = t
        · subst he
          exact ⟨fun _ => hi, fun _ => Or.inl rfl⟩
        · rw [Pend, Pend, hwakes.event u he]
          simp [he]
      have hlen : (T₁ xPendingReadyList).items.length < fuel := by
        have hsh := hk.shorter hcore (l := xPendingReadyList) (i := xEventListItem t)
          (fun j hj => ?_) hi ?_
        · exact Nat.lt_of_lt_of_le hsh (Nat.le_of_lt_succ hf)
        · obtain ⟨u, rfl⟩ := hcore.fits_pending hj
          exact (hpend u).mp (Or.inr hj)
        · rw [(hwakes.woken t rfl).2]
          simp
      obtain ⟨k', T', hloop, hcore', hedits', hwakes', hclock', hnext', hnone, hyield'⟩ :=
        ih hcore hc₁ hlen
      rw [if_neg hne, hhead, Option.bind_eq_bind, Option.bind_some, hk₁, Option.bind_eq_bind,
        Option.bind_some]
      refine ⟨k', T', hloop, hcore', hedits.trans hedits', ?_, hclock.trans hclock',
        hnext'.trans hnext, hnone, ?_⟩
      · exact (hwakes.trans hwakes').congr hpend
      · rw [hyield', hyield, hwakes.tasks.uxPriority, or_assoc]
        apply or_congr Iff.rfl
        constructor
        · rintro (hp | ⟨u, hu, hp⟩)
          · exact ⟨t, hi, hp⟩
          · exact ⟨u, (hpend u).mp (Or.inr hu), hp⟩
        · rintro ⟨u, hu, hp⟩
          rcases (hpend u).mpr hu with rfl | hu
          · exact Or.inl hp
          · exact Or.inr ⟨u, hu, hp⟩

/-- All that was pending is ready, and a yield is pending if one of it should run now. -/
theorem Healthy.resumePending (hk : k.Healthy T) (hc : k.pxCurrentTCB = some cur) :
    ∃ k' T', k.resumePending = some k' ∧ k'.Healthy T' ∧ Edits (k.book T) (k'.book T') ∧
      Wakes k.Pend k k' ∧ SameClock k k' ∧ (∀ i, k'.place i ≠ some xPendingReadyList) ∧
      (Prompt k → Prompt k') := by
  obtain ⟨k₁, T', hloop, hcore, hedits, hwakes, hclock, hnext, hnone, hyield⟩ :=
    hk.pendingLoop (k.lists.uxNumberOfItems xPendingReadyList + 1) hc
      (by rw [hk.rep.number]; exact Nat.lt_succ_self _)
  have hprompt : Prompt k → Prompt k₁ := by
    rintro (hy | hcalm)
    · exact Or.inl (hyield.mpr (Or.inl hy))
    · by_cases hhigh : ∃ t, k.Pend t ∧ k.uxPriority cur < k.uxPriority t
      · exact Or.inl (hyield.mpr (Or.inr hhigh))
      · refine Or.inr fun c hcc t ht => ?_
        rw [hwakes.current, hc] at hcc
        cases hcc
        rw [hwakes.tasks.uxPriority]
        rcases hwakes.ready_iff.mp ht with hp | hr
        · exact Nat.le_of_not_lt fun hlt => hhigh ⟨t, hp, hlt⟩
        · exact hcalm cur hc t hr
  rw [Tasks.resumePending, hloop]
  by_cases hmoved : (!k.lists.listListIsEmpty xPendingReadyList) = true
  · have htimely := hcore.prvResetNextTaskUnblockTime
    obtain ⟨u, hu⟩ := prvResetNextTaskUnblockTime_eq k₁
    rw [hu] at htimely
    have hw : Wakes k.Pend k { k₁ with xNextTaskUnblockTime := u } :=
      hwakes.of_eq ⟨rfl, rfl, rfl, rfl, rfl⟩ rfl rfl rfl rfl
    refine ⟨{ k₁ with xNextTaskUnblockTime := u }, T', ?_, ⟨?_, ?_, ?_⟩, hedits, hw,
      hclock.trans ⟨rfl, rfl, rfl, rfl, rfl, rfl⟩, hnone, hprompt⟩
    · rw [Option.map_some, if_pos hmoved, hu]
    · exact hcore.congr rfl ⟨rfl, rfl, rfl, rfl, rfl⟩ rfl (Or.inl ⟨rfl, rfl⟩) rfl
    · exact hwakes.free hk.free
    · exact hw.clock hk.toCore (hclock.trans ⟨rfl, rfl, rfl, rfl, rfl, rfl⟩) hk.clock htimely
  · refine ⟨k₁, T', ?_, ⟨hcore, hwakes.free hk.free, ?_⟩, hedits, hwakes, hclock, hnone, hprompt⟩
    · rw [Option.map_some, if_neg hmoved]
    · exact hwakes.clock hk.toCore hclock hk.clock
        (hwakes.timely hk.toCore hclock hk.clock.timely hnext)

omit [DecidableEq τ] [DecidableEq κ] in
theorem remaining_add {m : Nat} (hv : k'.value (xStateListItem t) = k.value (xStateListItem t))
    (hx : k'.xTickCount = k.xTickCount + BitVec.ofNat 32 m) (hm : m ≤ k.remaining t) :
    k'.remaining t + m = k.remaining t := by
  have hlt : m < 2 ^ 32 := Nat.lt_of_le_of_lt hm (k.value (xStateListItem t) - k.xTickCount).isLt
  have hof : (BitVec.ofNat 32 m).toNat = m := by
    rw [BitVec.toNat_ofNat, Nat.mod_eq_of_lt hlt]
  have hsub : k'.value (xStateListItem t) - k'.xTickCount =
      (k.value (xStateListItem t) - k.xTickCount) - BitVec.ofNat 32 m := by
    rw [hv, hx, BitVec.sub_sub]
  rw [Tasks.remaining, Tasks.remaining, hsub]
  rw [Tasks.remaining] at hm
  rw [BitVec.toNat_sub_of_le (by rw [BitVec.le_def, hof]; exact hm), hof]
  omega

omit [DecidableEq τ] [DecidableEq κ] in
theorem Ticked.trans {k'' : Tasks τ κ n} {m m' : Nat} (h : Ticked m k k') (h' : Ticked m' k' k'') :
    Ticked (m + m') k k'' where
  xTickCount := by
    rw [h'.xTickCount, h.xTickCount, BitVec.ofNat_add, BitVec.add_assoc]
  ticks := by
    rw [h'.ticks, h.ticks, Nat.add_assoc]
  uxSchedulerSuspended := h'.uxSchedulerSuspended.trans h.uxSchedulerSuspended

/-- The pended ticks wake the tasks that as many ticks would have woken. -/
theorem Healthy.unwindTicks (m : Nat) (hk : k.Healthy T) (hs : k.uxSchedulerSuspended = 0)
    (hc : k.pxCurrentTCB = some cur) :
    ∃ k' T', Tasks.unwindTicks m k = some k' ∧ k'.Healthy T' ∧ Edits (k.book T) (k'.book T') ∧
      Wakes (k.Dawn m) k k' ∧ Ticked m k k' ∧ k'.xPendedTicks = 0 ∧ (Prompt k → Prompt k') := by
  induction m generalizing k T with
  | zero =>
    have hnone : ∀ t, ¬ k.Dawn 0 t := by
      intro t ht
      have hpos := hk.remaining_pos ht.1
      have hle := ht.2
      omega
    refine ⟨_, T, rfl, ⟨?_, hk.free, hk.clock.later, hk.clock.wrapped, hk.clock.timely⟩,
      Edits.refl _, ?_, ⟨?_, rfl, rfl⟩, rfl, id⟩
    · exact hk.toCore.congr rfl ⟨rfl, rfl, rfl, rfl, rfl⟩ rfl (Or.inl ⟨rfl, rfl⟩) rfl
    · refine Wakes.congr (W := fun _ => False) ?_ fun t => ⟨False.elim, hnone t⟩
      exact (Wakes.refl k).of_eq ⟨rfl, rfl, rfl, rfl, rfl⟩ rfl rfl rfl rfl
    · exact (BitVec.add_zero _).symm
  | succ m ih =>
    obtain ⟨r, k₁, T₁, hk₁, hh₁, hedits₁, hwakes₁, htick₁, _, hyield₁, hyr, hcalm, _⟩ :=
      hk.xTaskIncrementTick hs hc
    set k₂ := if r then { k₁ with xYieldPending := true } else k₁ with hk₂
    have hlists : k₂.lists = k₁.lists := by
      rw [hk₂]
      split <;> rfl
    have hsame : SameTasks k₁ k₂ ∧ SameClock k₁ k₂ ∧ k₂.pxCurrentTCB = k₁.pxCurrentTCB ∧
        k₂.readied = k₁.readied ∧ k₂.switchedIn = k₁.switchedIn ∧
        k₂.uxTopReadyPriority = k₁.uxTopReadyPriority ∧
        k₂.xNextTaskUnblockTime = k₁.xNextTaskUnblockTime := by
      rw [hk₂]
      split
      · exact ⟨⟨rfl, rfl, rfl, rfl, rfl⟩, ⟨rfl, rfl, rfl, rfl, rfl, rfl⟩, rfl, rfl, rfl, rfl, rfl⟩
      · exact ⟨SameTasks.refl _, SameClock.refl _, rfl, rfl, rfl, rfl, rfl⟩
    obtain ⟨htasks, hclock, hcur, hread, hsw, htop, hnext⟩ := hsame
    have hwakes₂ : Wakes (fun _ => False) k₁ k₂ :=
        (Wakes.refl k₁).of_eq htasks hcur hlists hread hsw
    have hh₂ : k₂.Healthy T₁ := by
      refine ⟨?_, hwakes₂.free hh₁.free, ?_⟩
      · exact hh₁.toCore.congr hlists htasks hcur
          (Or.inl ⟨hclock.pxDelayedTaskList, hclock.pxOverflowDelayedTaskList⟩) htop
      · exact hwakes₂.clock hh₁.toCore hclock hh₁.clock
          (hwakes₂.timely hh₁.toCore hclock hh₁.clock.timely hnext)
    have htick₂ : Ticked 1 k k₂ :=
      ⟨hclock.xTickCount.trans htick₁.xTickCount, hclock.ticks.trans htick₁.ticks,
        hclock.uxSchedulerSuspended.trans htick₁.uxSchedulerSuspended⟩
    have hdawn₂ : Wakes (k.Dawn 1) k k₂ := (hwakes₁.trans hwakes₂).congr fun t => by simp
    obtain ⟨k', T', hloop, hh', hedits', hwakes', htick', hpend', hprompt'⟩ := ih hh₂
      (htick₂.uxSchedulerSuspended.trans hs) (hdawn₂.current.trans hc)
    refine ⟨k', T', ?_, hh', ?_, ?_, ?_, hpend', ?_⟩
    · rw [Tasks.unwindTicks, hk₁, Option.bind_eq_bind, Option.bind_some]
      exact hloop
    · have hbook : k₂.book T₁ = k₁.book T₁ := by rw [book, book, hread, hsw]
      rw [hbook] at hedits'
      exact hedits₁.trans hedits'
    · apply (hdawn₂.trans hwakes').congr
      intro t
      have hd : k₂.Delayed t ↔ ¬ k.Dawn 1 t ∧ k.Delayed t := hdawn₂.delayed_iff
      by_cases hone : k.Dawn 1 t
      · exact ⟨fun _ => ⟨hone.1, Nat.le_trans hone.2 (Nat.le_add_left _ _)⟩, fun _ => Or.inl hone⟩
      · have hm : k₂.Dawn m t ↔ (¬ k.Dawn 1 t ∧ k.Delayed t) ∧ k₂.remaining t ≤ m :=
          and_congr_left' hd
        rw [hm]
        simp only [hone, false_or, not_false_eq_true, true_and]
        apply and_congr_right
        intro ht
        have hrem :=
          remaining_add (hdawn₂.value (xStateListItem t)) htick₂.xTickCount (hk.remaining_pos ht)
        omega
    · rw [Nat.add_comm m 1]
      exact htick₂.trans htick'
    · intro hp
      apply hprompt'
      rw [hk₂]
      rcases hp with hy | hcalm'
      · rw [if_pos (hyr hy)]
        exact Or.inl rfl
      · rcases hcalm hcalm' with hr | hcalm₁
        · rw [if_pos hr]
          exact Or.inl rfl
        · split
          · exact Or.inl rfl
          · exact Or.inr hcalm₁

/-- What a task or interrupt finds when the scheduler is no longer suspended. -/
structure Resumed (k k' : Tasks τ κ n) : Prop where
  wakes : Wakes (fun t => k.Pend t ∨ k.Dawn k.xPendedTicks.toNat t) k k'
  xTickCount : k'.xTickCount = k.xTickCount + k.xPendedTicks
  ticks : k'.ticks = k.ticks + k.xPendedTicks.toNat
  xPendedTicks : k'.xPendedTicks = 0
  uxSchedulerSuspended : k'.uxSchedulerSuspended = 0
  pending : ∀ i, k'.place i ≠ some xPendingReadyList
  prompt : Prompt k'

theorem Healthy.resumeTicks (hk : k.Healthy T) (hs : k.uxSchedulerSuspended = 0)
    (hc : k.pxCurrentTCB = some cur) :
    ∃ k' T', k.resumeTicks = some k' ∧ k'.Healthy T' ∧ Edits (k.book T) (k'.book T') ∧
      Wakes (k.Dawn k.xPendedTicks.toNat) k k' ∧ Ticked k.xPendedTicks.toNat k k' ∧
      k'.xPendedTicks = 0 ∧ (Prompt k → Prompt k') := by
  unfold Tasks.resumeTicks
  by_cases hpos : k.xPendedTicks > 0
  · rw [if_pos hpos]
    exact hk.unwindTicks _ hs hc
  · have hz : k.xPendedTicks = 0 := by
      apply BitVec.eq_of_toNat_eq
      have h : ¬ 0 < k.xPendedTicks.toNat := hpos
      exact Nat.eq_zero_of_not_pos h
    have hnone : ∀ t, ¬ k.Dawn k.xPendedTicks.toNat t := by
      intro t ht
      have hp := hk.remaining_pos ht.1
      have hle := ht.2
      rw [hz] at hle
      exact absurd hp (Nat.not_lt.mpr hle)
    refine ⟨k, T, if_neg hpos, hk, Edits.refl _, ?_, ⟨?_, ?_, rfl⟩, hz, id⟩
    · exact (Wakes.refl k).congr fun t => ⟨False.elim, hnone t⟩
    · rw [hz]
      exact (BitVec.add_zero _).symm
    · rw [hz]
      rfl

theorem Healthy.xTaskResumeAll (hk : k.Healthy T) (hrun : k.xSchedulerRunning = true)
    (hs : k.uxSchedulerSuspended ≠ 0) (hp : Prompt k) :
    ∃ r k' T', k.xTaskResumeAll = some (r, k') ∧ k'.Healthy T' ∧ Edits (k.book T) (k'.book T') ∧
      ((1 < k.uxSchedulerSuspended ∧ r = false ∧
          k' = { k with uxSchedulerSuspended := k.uxSchedulerSuspended - 1 }) ∨
        (k.uxSchedulerSuspended = 1 ∧ ∃ k₁ T₁, Resumed k k₁ ∧ k₁.Healthy T₁ ∧
          (r = false ∧ k' = k₁ ∧ k₁.xYieldPending = false ∨ r = true ∧ Switched k₁ k'))) := by
  obtain ⟨cur, hc, hmem⟩ := hk.cur hrun
  obtain ⟨idle, _, hidle⟩ := hk.idle hrun
  set k₀ : Tasks τ κ n := { k with uxSchedulerSuspended := k.uxSchedulerSuspended - 1 } with hk₀
  have hcore₀ : k₀.Core T :=
    hk.toCore.congr rfl ⟨rfl, rfl, rfl, rfl, rfl⟩ rfl (Or.inl ⟨rfl, rfl⟩) rfl
  have hh₀ : k₀.Healthy T :=
    ⟨hcore₀, hk.free, hk.clock.later, hk.clock.wrapped, hk.clock.timely⟩
  rw [Tasks.xTaskResumeAll, if_pos hs]
  by_cases hone : k.uxSchedulerSuspended = 1
  · have hs₀ : k₀.uxSchedulerSuspended = 0 := by
      rw [hk₀, hone]
    have hpos : k₀.uxCurrentNumberOfTasks > 0 := by
      rw [hcore₀.number]
      exact List.length_pos_of_mem hmem
    obtain ⟨k₁, T₁, hk₁, hh₁, hedits₁, hwakes₁, hclock₁, hnone₁, hprompt₁⟩ := hh₀.resumePending hc
    have hs₁ : k₁.uxSchedulerSuspended = 0 := hclock₁.uxSchedulerSuspended.trans hs₀
    obtain ⟨k₂, T₂, hk₂, hh₂, hedits₂, hwakes₂, htick₂, hpend₂, hprompt₂⟩ :=
      hh₁.resumeTicks hs₁ (hwakes₁.current.trans hc)
    have hcount : k₁.xPendedTicks = k.xPendedTicks := hclock₁.xPendedTicks
    have hresumed : Resumed k k₂ := by
      have hw₀ : Wakes (fun _ => False) k k₀ :=
        (Wakes.refl k).of_eq ⟨rfl, rfl, rfl, rfl, rfl⟩ rfl rfl rfl rfl
      constructor
      · apply (hw₀.trans (hwakes₁.trans hwakes₂)).congr
        intro t
        have hdel : k₁.Delayed t ↔ ¬ k₀.Pend t ∧ k₀.Delayed t := hwakes₁.delayed_iff
        have hrem : k₁.remaining t = k₀.remaining t := by
          rw [remaining, remaining, hwakes₁.value, hclock₁.xTickCount]
        rw [Dawn, Dawn, hdel, hcount, hrem]
        by_cases hpt : k₀.Pend t
        · exact ⟨fun _ => Or.inl hpt, fun _ => Or.inr (Or.inl hpt)⟩
        · have hpt' : ¬ k.Pend t := hpt
          simp only [hpt, hpt', false_or, not_false_eq_true, true_and]
          exact Iff.rfl
      · rw [htick₂.xTickCount, hclock₁.xTickCount, hcount, BitVec.ofNat_toNat, BitVec.setWidth_eq]
      · rw [htick₂.ticks, hclock₁.ticks, hcount]
      · exact hpend₂
      · exact htick₂.uxSchedulerSuspended.trans hs₁
      · intro i hi
        cases i with
        | xStateListItem t =>
          obtain ⟨u, hu⟩ := hh₂.fits_pending hi
          cases hu
        | xEventListItem t =>
          by_cases hd : k₁.Dawn k₁.xPendedTicks.toNat t
          · rw [(hwakes₂.woken t hd).2] at hi
            cases hi
          · rw [hwakes₂.event t hd] at hi
            exact hnone₁ _ hi
      · exact hprompt₂ (hprompt₁ hp)
    rw [if_pos ⟨hs₀, hpos⟩, hk₁, Option.bind_eq_bind, Option.bind_some, hk₂, Option.bind_some]
    have hedits : Edits (k.book T) (k₂.book T₂) := hedits₁.trans hedits₂
    by_cases hy : k₂.xYieldPending = true
    · have hready : k₂.Ready idle := by
        have h₁ : k₁.Ready idle := hwakes₁.ready_iff.mpr (Or.inr hidle)
        exact hwakes₂.ready_iff.mpr (Or.inr h₁)
      obtain ⟨k', T', hk', hsw, hh', hedits'⟩ := hh₂.vTaskSwitchContext ⟨idle, hready⟩
      rw [if_pos hy, hk', Option.map_some]
      exact ⟨true, k', T', rfl, hh', hedits.trans hedits',
        Or.inr ⟨hone, k₂, T₂, hresumed, hh₂, Or.inr ⟨rfl, hsw⟩⟩⟩
    · rw [if_neg hy]
      exact ⟨false, k₂, T₂, rfl, hh₂, hedits,
        Or.inr ⟨hone, k₂, T₂, hresumed, hh₂, Or.inl ⟨rfl, rfl, Bool.eq_false_iff.mpr hy⟩⟩⟩
  · have hgt : 1 < k.uxSchedulerSuspended := by omega
    have hne : ¬ (k₀.uxSchedulerSuspended = 0 ∧ k₀.uxCurrentNumberOfTasks > 0) := by
      rintro ⟨hz, _⟩
      have h : k.uxSchedulerSuspended - 1 = 0 := hz
      omega
    rw [if_neg hne]
    exact ⟨false, k₀, T, rfl, hh₀, Edits.refl _, Or.inl ⟨hgt, rfl, rfl⟩⟩

end
end Tasks
end RegisterWindows.Scheduler
