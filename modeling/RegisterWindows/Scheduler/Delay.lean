import RegisterWindows.Scheduler.Wake

namespace RegisterWindows.Scheduler
open RegisterWindows.Scheduler.Lists

namespace Tasks
open ListItem ListId

variable {τ κ : Type} {n : Nat} {k k' : Tasks τ κ n} {t : τ} {T : ListId κ n → Turns (ListItem τ)}

/-- Whether to delay is decided on the full times, for as long as the last wake time is less than
one turn of the tick count ago. -/
theorem xShouldDelay_iff {now last inc : Nat} (hle : last ≤ now) (hlt : now < last + 2 ^ 32)
    (hinc : 0 < inc) (hinc' : inc < 2 ^ 32) :
    xShouldDelay (BitVec.ofNat 32 now) (BitVec.ofNat 32 last) (BitVec.ofNat 32 inc) =
      decide (now < last + inc) := by
  have hadd : BitVec.ofNat 32 last + BitVec.ofNat 32 inc = BitVec.ofNat 32 (last + inc) :=
    (BitVec.ofNat_add _ _).symm
  unfold xShouldDelay
  rw [hadd]
  simp only [BitVec.lt_def, gt_iff_lt, BitVec.toNat_ofNat]
  split
  · rw [decide_eq_decide]
    omega
  · rw [decide_eq_decide]
    omega

theorem toNat_ticksToWait {now last inc : Nat} (hle : last ≤ now) (hinc : inc < 2 ^ 32)
    (h : now < last + inc) :
    (BitVec.ofNat 32 (last + inc) - BitVec.ofNat 32 now).toNat = last + inc - now := by
  rw [BitVec.toNat_sub, BitVec.toNat_ofNat, BitVec.toNat_ofNat]
  omega

section
variable [DecidableEq τ] [DecidableEq κ]

/-- The other tasks go on: a ready one of the highest priority runs. -/
def Proceeds (k : Tasks τ κ n) : Prop :=
  k.uxSchedulerSuspended = 0 ∧ ∃ cur, k.pxCurrentTCB = some cur ∧ k.Ready cur ∧ Calm k

omit [DecidableEq τ] [DecidableEq κ] in
theorem Switched.proceeds (h : Switched k k') (h0 : k.uxSchedulerSuspended = 0) : Proceeds k' := by
  have hr := fun u => h.ready (t := u)
  have hcalm := h.calm h0
  have hs := h.sameClock.uxSchedulerSuspended.trans h0
  rcases h with ⟨hne, _⟩ | ⟨_, u, hu⟩
  · exact absurd h0 hne
  · exact ⟨hs, u, hu.current, (hr u).mpr hu.ready, hcalm⟩

theorem Inv.resume_yield [NeZero n] (hk : k.Inv T) (hr : k.xSchedulerRunning = true)
    (h1 : k.uxSchedulerSuspended = 1) :
    ∃ y k₁ k' es, k.xTaskResumeAll = some (y, k₁) ∧ yieldUnless y k₁ = some k' ∧
      (∀ e ∈ es, e = Event.resumeAll ∨ e = Event.yield) ∧ Runs.Along Tasks.step Allowed k es ∧
      Runs.run Tasks.step k es = some k' ∧ k'.ticks = k.ticks + k.xPendedTicks.toNat ∧
      Proceeds k' := by
  have hne : k.uxSchedulerSuspended ≠ 0 := by
    rw [h1]
    exact Nat.one_ne_zero
  obtain ⟨y, k₁, _, hk₁, _, _, hor⟩ := hk.toHealthy.xTaskResumeAll hr hne hk.prompt
  have hstep : k.step .resumeAll = some k₁ := congrArg (Option.map Prod.snd) hk₁
  obtain ⟨k₂, T₂, hk₂, hinv, _⟩ := hk.step (e := .resumeAll) ⟨hr, hne⟩
  cases hstep.symm.trans hk₂
  rcases hor with ⟨hgt, _⟩ | ⟨_, k₀, _, hres, _, hor⟩
  · omega
  have h0 := hres.uxSchedulerSuspended
  have hr₀ : k₀.xSchedulerRunning = true := hres.wakes.tasks.xSchedulerRunning.trans hr
  rcases hor with ⟨rfl, rfl, _⟩ | ⟨rfl, hsw⟩
  · obtain ⟨k', T', hk', _, _, hsw⟩ := hinv.yield hr₀
    refine ⟨false, k₁, k', [.resumeAll, .yield], hk₁, hk', by simp, ⟨⟨hr, hne⟩, ?_⟩, ?_, ?_, ?_⟩
    · intro u hu
      cases hstep.symm.trans hu
      exact ⟨hr₀, fun _ _ => trivial⟩
    · exact Runs.run_cons.mpr ⟨k₁, hstep, Runs.run_cons.mpr ⟨k', hk', rfl⟩⟩
    · exact hsw.sameClock.ticks.trans hres.ticks
    · exact hsw.proceeds h0
  · refine ⟨true, k₁, k₁, [.resumeAll], hk₁, rfl, by simp, ⟨⟨hr, hne⟩, fun _ _ => trivial⟩, ?_, ?_,
    ?_⟩
    · exact Runs.run_cons.mpr ⟨k₁, hstep, rfl⟩
    · exact hsw.sameClock.ticks.trans hres.ticks
    · exact hsw.proceeds h0

theorem quiet_along [NeZero n] {es : List (Event τ κ n)} (ha : Runs.Along Tasks.step Allowed k es)
    (hes : ∀ e ∈ es, e = Event.resumeAll ∨ e = Event.yield) :
    Runs.Along Tasks.step (fun k e => k.Allowed e ∧ ¬ Stops t k e ∧ ¬ Notifies t k e) k es := by
  refine (ha.and (Runs.along_of_mem hes)).mono ?_
  rintro k e ⟨h, rfl | rfl⟩
  · exact ⟨h, id, id⟩
  · exact ⟨h, id, id⟩

/-- With the scheduler suspended the running task blocks, or not, and then the others go on. -/
theorem Inv.delaySection [NeZero n] {b : Bool} {d : TickType} (hk : k.Inv T)
    (hr : k.xSchedulerRunning = true) (h0 : k.uxSchedulerSuspended = 0) (hrun : k.Running)
    (hc : k.pxCurrentTCB = some t) (hd : b = true → d ≠ 0) :
    ∃ y k₁ k₂ k' es, k.vTaskSuspendAll.delayIf b d = some k₁ ∧ k₁.xTaskResumeAll = some (y, k₂) ∧
      yieldUnless y k₂ = some k' ∧ Runs.Along Tasks.step Allowed k es ∧
      Runs.run Tasks.step k es = some k' ∧ Proceeds k' ∧
      if b = true then k'.Delayed t ∧ k'.deadline t = k.ticks + d.toNat else k'.Ready t := by
  obtain ⟨k₀, T₀, hk₀, hinv₀, _, heff⟩ := hk.step (e := .suspendAll) hr
  have h1 : k₀.uxSchedulerSuspended = 1 := by
    rw [heff]
    exact congrArg (· + 1) h0
  have hp₀ : k₀.xPendedTicks = 0 := by
    rw [heff]
    exact (hk.steady.quiet h0).1
  have hr₀ : k₀.xSchedulerRunning = true := by
    rw [heff]
    exact hr
  have hrun₀ : k₀.Running := by
    rw [heff]
    exact hrun
  have hc₀ : k₀.pxCurrentTCB = some t := by
    rw [heff]
    exact hc
  have ht₀ : k₀.ticks = k.ticks := by
    rw [heff]
    rfl
  rw [← heff]
  cases b with
  | true =>
    have ha : k₀.Allowed (.block d) := ⟨hr₀, hrun₀, hd rfl⟩
    obtain ⟨k₁, _, hk₁, _, _, cur, _, _, _, hparks, _⟩ := hinv₀.step ha
    obtain ⟨T₁, hinv₁, hdel, hnp, hdl⟩ := hinv₀.blocked ha rfl hc₀ hk₁
    obtain ⟨y, k₂, k', es, hk₂, hk', hev, hal, hrun', hticks, hpro⟩ := hinv₁.resume_yield
      (hparks.tasks.xSchedulerRunning.trans hr₀) (hparks.clock.uxSchedulerSuspended.trans h1)
    obtain ⟨T', hinv', hor⟩ := hinv₁.run_deadline (quiet_along hal hev) hrun'
      (Or.inl ⟨hdel, hnp, hdl⟩)
    refine ⟨y, k₁, k₂, k', .suspendAll :: .block d :: es, hk₁, hk₂, hk', ⟨hr, ?_⟩, ?_, hpro, ?_⟩
    · intro u hu
      cases hk₀.symm.trans hu
      refine ⟨ha, fun v hv => ?_⟩
      cases hk₁.symm.trans hv
      exact hal
    · exact Runs.run_cons.mpr ⟨k₀, hk₀, Runs.run_cons.mpr ⟨k₁, hk₁, hrun'⟩⟩
    · rw [if_pos rfl]
      rcases hor with ⟨hd', _, hdl'⟩ | ⟨_, hle⟩
      · exact ⟨hd', hdl'.trans (by rw [ht₀])⟩
      · -- no tick was pended
        have hpos : d.toNat ≠ 0 := fun hz => hd rfl (BitVec.eq_of_toNat_eq hz)
        rw [hticks, hparks.clock.xPendedTicks, hparks.clock.ticks, hp₀] at hle
        have hz : (0 : TickType).toNat = 0 := rfl
        omega
  | false =>
    obtain ⟨cur, hcur, hready, _⟩ := hrun₀
    cases hc₀.symm.trans hcur
    obtain ⟨y, k₂, k', es, hk₂, hk', hev, hal, hrun', hticks, hpro⟩ := hinv₀.resume_yield hr₀ h1
    obtain ⟨T', hinv', hor⟩ := hinv₀.run_deadline (d := 0) (quiet_along hal hev) hrun'
      (Or.inr ⟨hready, Nat.zero_le _⟩)
    refine ⟨y, k₀, k₂, k', .suspendAll :: es, rfl, hk₂, hk', ⟨hr, ?_⟩, ?_, hpro, ?_⟩
    · intro u hu
      cases hk₀.symm.trans hu
      exact hal
    · exact Runs.run_cons.mpr ⟨k₀, hk₀, hrun'⟩
    · rw [if_neg (by simp)]
      rcases hor with ⟨hd', _, hdl'⟩ | ⟨hr', _⟩
      · have hpos := hinv'.remaining_pos hd'
        rw [deadline] at hdl'
        omega
      · exact hr'

/-- `vTaskDelay` delays its caller for that many ticks, and another task runs. -/
theorem Reachable.delay_exact [NeZero n] {d : TickType} (hk : k.Reachable)
    (h0 : k.uxSchedulerSuspended = 0) (hc : k.pxCurrentTCB = some t)
    (ha : k.Allowed (.block d)) :
    ∃ k' es, k.vTaskDelay d = some k' ∧ Runs.Along Tasks.step Allowed k es ∧
      Runs.run Tasks.step k es = some k' ∧ Proceeds k' ∧ k'.Delayed t ∧
      k'.deadline t = k.ticks + d.toNat := by
  obtain ⟨hr, hrun, hd⟩ := ha
  obtain ⟨T, hinv⟩ := hk.inv_of_running hr
  obtain ⟨y, k₁, k₂, k', es, hk₁, hk₂, hk', hal, hrun', hpro, hdel⟩ :=
    hinv.delaySection (b := true) hr h0 hrun hc fun _ => hd
  rw [if_pos rfl] at hdel
  refine ⟨k', es, ?_, hal, hrun', hpro, hdel⟩
  have hpos : d > 0 := by
    rw [gt_iff_lt, BitVec.lt_def]
    exact Nat.pos_of_ne_zero fun hz => hd (BitVec.eq_of_toNat_eq hz)
  have hadd : k.vTaskSuspendAll.prvAddCurrentTaskToDelayedList d false = some k₁ := hk₁
  have h1 : k.vTaskSuspendAll.uxSchedulerSuspended = 1 := congrArg (· + 1) h0
  rw [vTaskDelay, if_pos hpos]
  simp only [h1, if_true, hadd, Option.bind_eq_bind, Option.bind_some, hk₂]
  exact hk'

theorem delay_exact_boot : ∃ k k' : Tasks (Fin 3) Unit 2,
    Runs.run Tasks.step powerUp boot = some k ∧ ∃ es, k.vTaskDelay 3 = some k' ∧
      Runs.Along Tasks.step Allowed k es ∧ Runs.run Tasks.step k es = some k' ∧ Proceeds k' ∧
      k'.Delayed 2 ∧ k'.deadline 2 = k.ticks + 3 := by
  obtain ⟨k, hrun, hk, h0, hc, ha⟩ := Reachable.of_powerUp boot_along
    (P := fun k => k.uxSchedulerSuspended = 0 ∧ k.pxCurrentTCB = some 2 ∧
      k.Allowed (.block 3)) (by decide +kernel)
  obtain ⟨k', es, h⟩ := hk.delay_exact h0 hc ha
  exact ⟨k, k', hrun, es, h⟩

/-- `xTaskDelayUntil` delays its caller until the next multiple of its period, also where the tick
count wraps, and where that time is over already it does not delay at all. -/
theorem Reachable.delay_until_exact [NeZero n] {last : Nat} {inc : TickType} (hk : k.Reachable)
    (h0 : k.uxSchedulerSuspended = 0) (hc : k.pxCurrentTCB = some t)
    (hr : k.xSchedulerRunning = true) (hrun : k.Running) (hinc : inc ≠ 0) (hle : last ≤ k.ticks)
    (hlt : k.ticks < last + 2 ^ 32) :
    ∃ k' es, k.xTaskDelayUntil (BitVec.ofNat 32 last) inc =
        some ((decide (k.ticks < last + inc.toNat), BitVec.ofNat 32 (last + inc.toNat)), k') ∧
      Runs.Along Tasks.step Allowed k es ∧ Runs.run Tasks.step k es = some k' ∧ Proceeds k' ∧
      if k.ticks < last + inc.toNat then k'.Delayed t ∧ k'.deadline t = last + inc.toNat
      else k'.Ready t := by
  obtain ⟨T, hinv⟩ := hk.inv_of_running hr
  have hpos : 0 < inc.toNat := Nat.pos_of_ne_zero fun hz => hinc (BitVec.eq_of_toNat_eq hz)
  have hofinc : BitVec.ofNat 32 inc.toNat = inc := by
    rw [BitVec.ofNat_toNat, BitVec.setWidth_eq]
  have htime : k.vTaskSuspendAll.xTickCount = BitVec.ofNat 32 k.ticks := hinv.steady.time
  have hshould := xShouldDelay_iff hle hlt hpos inc.isLt
  rw [hofinc] at hshould
  have hwake : BitVec.ofNat 32 last + inc = BitVec.ofNat 32 (last + inc.toNat) := by
    rw [BitVec.ofNat_add, hofinc]
  have hwait : k.ticks < last + inc.toNat →
      (BitVec.ofNat 32 (last + inc.toNat) - BitVec.ofNat 32 k.ticks).toNat =
        last + inc.toNat - k.ticks := toNat_ticksToWait hle inc.isLt
  obtain ⟨y, k₁, k₂, k', es, hk₁, hk₂, hk', hal, hrun', hpro, hdel⟩ :=
    hinv.delaySection (b := decide (k.ticks < last + inc.toNat))
      (d := BitVec.ofNat 32 (last + inc.toNat) - BitVec.ofNat 32 k.ticks) hr h0 hrun hc (by
        intro hb hz
        have hw := hwait (of_decide_eq_true hb)
        rw [hz] at hw
        have hb' := of_decide_eq_true hb
        have hz' : (0 : TickType).toNat = 0 := rfl
        omega)
  refine ⟨k', es, ?_, hal, hrun', hpro, ?_⟩
  · have hgt : inc > 0 := by
      rw [gt_iff_lt, BitVec.lt_def]
      exact hpos
    have h1 : k.vTaskSuspendAll.uxSchedulerSuspended = 1 := congrArg (· + 1) h0
    simp only [xTaskDelayUntil, hgt, h1, and_self, if_true, htime, hshould, hwake, hk₁, hk₂, hk',
      Option.bind_eq_bind, Option.bind_some]
  · split
    · rename_i hlt'
      rw [if_pos (decide_eq_true hlt'), hwait hlt'] at hdel
      refine ⟨hdel.1, hdel.2.trans ?_⟩
      omega
    · rename_i hge
      rwa [if_neg (by simpa using hge)] at hdel

theorem delay_until_exact_boot : ∃ k k' : Tasks (Fin 3) Unit 2,
    Runs.run Tasks.step powerUp boot = some k ∧ ∃ es, k.xTaskDelayUntil (BitVec.ofNat 32 0) 5 =
        some ((decide (k.ticks < 0 + 5), BitVec.ofNat 32 (0 + 5)), k') ∧
      Runs.Along Tasks.step Allowed k es ∧ Runs.run Tasks.step k es = some k' ∧ Proceeds k' ∧
      if k.ticks < 0 + 5 then k'.Delayed 2 ∧ k'.deadline 2 = 0 + 5 else k'.Ready 2 := by
  obtain ⟨k, hrun, hk, h0, hc, hr, hready, ht⟩ := Reachable.of_powerUp boot_along
    (P := fun k => k.uxSchedulerSuspended = 0 ∧ k.pxCurrentTCB = some 2 ∧
      k.xSchedulerRunning = true ∧ k.Running ∧ k.ticks < 0 + 2 ^ 32) (by decide +kernel)
  obtain ⟨k', es, h⟩ :=
    hk.delay_until_exact h0 hc hr hready (by decide : (5 : TickType) ≠ 0) (Nat.zero_le _) ht
  exact ⟨k, k', hrun, es, h⟩

/-- `xTaskCatchUpTicks` makes up for all the ticks at once: the clock is that much further, and the
tasks whose time has come by then are ready. -/
theorem Reachable.catch_up_exact [NeZero n] {d : TickType} (hk : k.Reachable)
    (hr : k.xSchedulerRunning = true) (h0 : k.uxSchedulerSuspended = 0) :
    ∃ y k', k.xTaskCatchUpTicks d = some (y, k') ∧
      Runs.Along Tasks.step Allowed k [.suspendAll, .catchUp d, .resumeAll] ∧
      Runs.run Tasks.step k [.suspendAll, .catchUp d, .resumeAll] = some k' ∧
      k'.ticks = k.ticks + d.toNat ∧ k'.uxSchedulerSuspended = 0 ∧
      ∀ t, k.Delayed t → (k'.Delayed t ∧ k'.ticks < k.deadline t) ∨
        (k'.Ready t ∧ k.deadline t ≤ k'.ticks) := by
  obtain ⟨T, hinv⟩ := hk.inv_of_running hr
  obtain ⟨hp0, hquiet⟩ := hinv.steady.quiet h0
  set k₁ := k.vTaskSuspendAll with hk₁
  have hs₁ : k₁.uxSchedulerSuspended ≠ 0 := Nat.succ_ne_zero _
  set k₂ : Tasks τ κ n := { k₁ with xPendedTicks := k₁.xPendedTicks + d } with hk₂
  obtain ⟨_, T₁, hstep₁, hinv₁, _⟩ := hinv.step (e := .suspendAll) hr
  cases hstep₁
  obtain ⟨_, T₂, hstep₂, hinv₂, _⟩ := hinv₁.step (e := .catchUp d) ⟨hr, hs₁⟩
  cases hstep₂
  obtain ⟨y, k', _, hres, _, _, hor⟩ := hinv₂.toHealthy.xTaskResumeAll hr hs₁ hinv₂.prompt
  have hstep₃ : k₂.step .resumeAll = some k' := congrArg (Option.map Prod.snd) hres
  have hal : Runs.Along Tasks.step Allowed k [.suspendAll, .catchUp d, .resumeAll] := by
    refine ⟨hr, fun u hu => ?_⟩
    cases hu
    refine ⟨⟨hr, hs₁⟩, fun v hv => ?_⟩
    cases hv
    exact ⟨⟨hr, hs₁⟩, fun _ _ => trivial⟩
  have hrun : Runs.run Tasks.step k [.suspendAll, .catchUp d, .resumeAll] = some k' :=
    Runs.run_cons.mpr ⟨k₁, rfl, Runs.run_cons.mpr ⟨k₂, rfl, Runs.run_cons.mpr ⟨k', hstep₃, rfl⟩⟩⟩
  have hone : k₂.uxSchedulerSuspended = 1 := congrArg (· + 1) h0
  have hend : k'.ticks = k.ticks + d.toNat ∧ k'.uxSchedulerSuspended = 0 := by
    have hpend : k₂.xPendedTicks = d := by
      have hz : k₂.xPendedTicks = k.xPendedTicks + d := rfl
      rw [hz, hp0]
      exact BitVec.zero_add d
    rcases hor with ⟨hgt, _⟩ | ⟨_, k₀, _, hresumed, _, hor⟩
    · exact absurd hone (Nat.ne_of_gt hgt)
    · have hs : SameClock k₀ k' := by
        rcases hor with ⟨_, rfl, _⟩ | ⟨_, hsw⟩
        · exact SameClock.refl _
        · exact hsw.sameClock
      refine ⟨?_, hs.uxSchedulerSuspended.trans hresumed.uxSchedulerSuspended⟩
      rw [hs.ticks, hresumed.ticks, hpend]
      rfl
  refine ⟨y, k', ?_, hal, hrun, hend.1, hend.2, fun t hd => ?_⟩
  · rw [xTaskCatchUpTicks, if_pos h0]
    exact hres
  · have hes : Runs.Along Tasks.step (fun k e => k.Allowed e ∧ ¬ Stops t k e ∧ ¬ Notifies t k e) k
        [.suspendAll, .catchUp d, .resumeAll] := by
      refine ⟨⟨hr, id, id⟩, fun u hu => ?_⟩
      cases hu
      refine ⟨⟨⟨hr, hs₁⟩, id, id⟩, fun v hv => ?_⟩
      cases hv
      exact ⟨⟨⟨hr, hs₁⟩, id, id⟩, fun _ _ => trivial⟩
    obtain ⟨T', hinv', hor'⟩ := hinv.run_deadline hes hrun (Or.inl ⟨hd, hquiet _, rfl⟩)
    rcases hor' with ⟨hd', _, hdl'⟩ | hready
    · refine Or.inl ⟨hd', ?_⟩
      rw [← hdl']
      exact Nat.lt_add_of_pos_right (hinv'.remaining_pos hd')
    · exact Or.inr hready

theorem catch_up_exact_boot : ∃ (k k' : Tasks (Fin 3) Unit 2) (y : Bool),
    Runs.run Tasks.step powerUp boot = some k ∧ k.xTaskCatchUpTicks 7 = some (y, k') ∧
      Runs.Along Tasks.step Allowed k [.suspendAll, .catchUp 7, .resumeAll] ∧
      Runs.run Tasks.step k [.suspendAll, .catchUp 7, .resumeAll] = some k' ∧
      k'.ticks = k.ticks + 7 ∧ k'.uxSchedulerSuspended = 0 ∧
      ∀ t, k.Delayed t → (k'.Delayed t ∧ k'.ticks < k.deadline t) ∨
        (k'.Ready t ∧ k.deadline t ≤ k'.ticks) := by
  obtain ⟨k, hrun, hk, hr, h0⟩ := Reachable.of_powerUp boot_along
    (P := fun k => k.xSchedulerRunning = true ∧ k.uxSchedulerSuspended = 0) (by decide +kernel)
  obtain ⟨y, k', h⟩ := hk.catch_up_exact (d := 7) hr h0
  exact ⟨k, k', y, hrun, h⟩

/-- `vTaskSuspend` suspends its task, given by its handle or as the running one, wherever it is, and
that task does not run on. -/
theorem Reachable.suspend_exact [NeZero n] {xTaskToSuspend : Option τ} (hk : k.Reachable)
    (hu : (xTaskToSuspend <|> k.pxCurrentTCB) = some t) (ha : k.Allowed (.suspend t))
    (h0 : k.pxCurrentTCB = some t → k.uxSchedulerSuspended = 0) :
    ∃ k' es, k.vTaskSuspend xTaskToSuspend = some k' ∧ Runs.Along Tasks.step Allowed k es ∧
      Runs.run Tasks.step k es = some k' ∧ k'.prvTaskIsTaskSuspended t = true ∧
      k'.pxCurrentTCB ≠ some t := by
  have hr : k.xSchedulerRunning = true := ha.1
  obtain ⟨T, hinv⟩ := hk.inv_of_running hr
  obtain ⟨k₁, T₁, hk₁, hinv₁, _, hparks, hz, hnone⟩ := hinv.step ha
  have hr₁ : k₁.xSchedulerRunning = true := hparks.tasks.xSchedulerRunning.trans hr
  obtain ⟨k₂, T₂, hk₂, hinv₂, _, u, hu₂⟩ := hinv₁.step (e := .resetUnblockTime) hr₁
  have hreset : k₁.prvResetNextTaskUnblockTime = k₂ := Option.some.inj hk₂
  have hsusp : k₂.prvTaskIsTaskSuspended t = true := by
    rw [prvTaskIsTaskSuspended_iff, hu₂]
    exact ⟨hz, hnone⟩
  have hr₂ : k₂.xSchedulerRunning = true := by
    rw [hu₂]
    exact hr₁
  have hc₂ : k₂.pxCurrentTCB = k.pxCurrentTCB := by
    rw [hu₂]
    exact hparks.current
  have hs₂ : k₂.uxSchedulerSuspended = k.uxSchedulerSuspended := by
    rw [hu₂]
    exact hparks.clock.uxSchedulerSuspended
  have hremove : k.vTaskSuspendRemove t = some k₁ := hk₁
  have hbody : k.vTaskSuspend xTaskToSuspend =
      if k₂.pxCurrentTCB = some t then
        if k₂.uxSchedulerSuspended = 0 then k₂.vTaskSwitchContext else none
      else some k₂ := by
    simp only [vTaskSuspend, hu, Option.bind_eq_bind, Option.bind_some, hremove, hr₁, if_true,
      hreset, hr₂]
  by_cases hcur : k.pxCurrentTCB = some t
  · obtain ⟨k₃, T₃, hk₃, hinv₃, _, hsw⟩ := hinv₂.yield hr₂
    have hz₂ := (prvTaskIsTaskSuspended_iff.mp hsusp).1
    refine ⟨k₃, [.suspend t, .resetUnblockTime, .yield], ?_, ⟨ha, fun u hu => ?_⟩, ?_, ?_, ?_⟩
    · rw [hbody, if_pos (hc₂.trans hcur), if_pos (hs₂.trans (h0 hcur))]
      exact hk₃
    · cases hk₁.symm.trans hu
      refine ⟨hr₁, fun v hv => ?_⟩
      cases hk₂.symm.trans hv
      exact ⟨hr₂, fun _ _ => trivial⟩
    · exact Runs.run_cons.mpr ⟨k₁, hk₁, Runs.run_cons.mpr ⟨k₂, hk₂, Runs.run_cons.mpr ⟨k₃, hk₃,
      rfl⟩⟩⟩
    · rw [prvTaskIsTaskSuspended_iff, hsw.place, hsw.place]
      exact prvTaskIsTaskSuspended_iff.mp hsusp
    · obtain ⟨_, cur, hc, hready, _⟩ := hsw.proceeds (hs₂.trans (h0 hcur))
      intro hct
      cases hc.symm.trans hct
      exact hready.not_suspended ((hsw.place _).trans hz₂)
  · refine ⟨k₂, [.suspend t, .resetUnblockTime], ?_, ⟨ha, fun u hu => ?_⟩, ?_, hsusp, ?_⟩
    · rw [hbody, if_neg]
      rw [hc₂]
      exact hcur
    · cases hk₁.symm.trans hu
      exact ⟨hr₁, fun _ _ => trivial⟩
    · exact Runs.run_cons.mpr ⟨k₁, hk₁, Runs.run_cons.mpr ⟨k₂, hk₂, rfl⟩⟩
    · rw [hc₂]
      exact hcur

theorem suspend_exact_boot : ∃ k k' : Tasks (Fin 3) Unit 2,
    Runs.run Tasks.step powerUp boot = some k ∧ ∃ es, k.vTaskSuspend none = some k' ∧
      Runs.Along Tasks.step Allowed k es ∧ Runs.run Tasks.step k es = some k' ∧
      k'.prvTaskIsTaskSuspended 2 = true ∧ k'.pxCurrentTCB ≠ some 2 := by
  obtain ⟨k, hrun, hk, hc, ha, h0⟩ := Reachable.of_powerUp boot_along
    (P := fun k => k.pxCurrentTCB = some 2 ∧ k.Allowed (.suspend 2) ∧ k.uxSchedulerSuspended = 0)
    (by decide +kernel)
  have hu : ((none : Option (Fin 3)) <|> k.pxCurrentTCB) = some 2 := hc
  obtain ⟨k', es, h⟩ := hk.suspend_exact hu ha fun _ => h0
  exact ⟨k, k', hrun, es, h⟩

end
end Tasks
end RegisterWindows.Scheduler
