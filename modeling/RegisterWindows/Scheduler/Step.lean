import RegisterWindows.Scheduler.Create

namespace RegisterWindows.Scheduler
open RegisterWindows.Scheduler.Lists

/-- What the application, the interrupts and the objects that tasks wait for do to the scheduler. -/
inductive Event (τ κ : Type) (n : Nat) where
  | create (t : τ) (p : Fin n)
  | start (t : τ)
  | tick
  | yield
  | suspendAll
  | resumeAll
  | catchUp (d : TickType)
  | block (d : TickType)
  | placeOnEventList (e : κ) (d : TickType)
  | removeFromEventList (e : κ)
  | suspend (t : τ)
  | resetUnblockTime
  | resume (t : τ)
  | resumeFromISR (t : τ)
deriving DecidableEq, Repr

namespace Tasks
open ListItem ListId

variable {τ κ : Type} {n : Nat} {k k' : Tasks τ κ n} {t cur : τ}

/-- The running task executes this, is ready, and is not the idle task, which never blocks. -/
def Running (k : Tasks τ κ n) : Prop :=
  ∃ t ∈ k.pxCurrentTCB, k.Ready t ∧ k.xIdleTaskHandle ≠ some t

section
variable [DecidableEq τ] [DecidableEq κ]

/-- The handler of the timer interrupt. -/
def freertosRiscvMtimerInterruptHandler (k : Tasks τ κ n) : Option (Tasks τ κ n) :=
  k.xTaskIncrementTick.bind fun r => if r.1 then r.2.vTaskSwitchContext else some r.2

/-- One event; an `ecall` or interrupt that ends in a yield runs to its end. -/
def step [NeZero n] (k : Tasks τ κ n) : Event τ κ n → Option (Tasks τ κ n)
  | .create t p => k.xTaskCreateStatic t p
  | .start t => k.vTaskStartScheduler t
  | .tick => k.freertosRiscvMtimerInterruptHandler
  | .yield => k.vTaskSwitchContext
  | .suspendAll => some k.vTaskSuspendAll
  | .resumeAll => k.xTaskResumeAll.map Prod.snd
  | .catchUp d => some { k with xPendedTicks := k.xPendedTicks + d }
  | .block d => k.prvAddCurrentTaskToDelayedList d false
  | .placeOnEventList e d => k.vTaskPlaceOnEventList e d
  | .removeFromEventList e => (k.xTaskRemoveFromEventList e).map Prod.snd
  | .suspend t => k.vTaskSuspendRemove t
  | .resetUnblockTime => some k.prvResetNextTaskUnblockTime
  | .resume t => k.vTaskResume t
  | .resumeFromISR t => (k.xTaskResumeFromISR t).map Prod.snd

/-- What the callers of an operation see to: a TCB is created once, the scheduler is started once,
only a task that runs blocks, and it does so for some time, the idle task is neither blocked nor
suspended, and a task is removed from an event list only if there is one. -/
def Allowed (k : Tasks τ κ n) : Event τ κ n → Prop
  | .create t _ => t ∉ k.created
  | .start t => t ∉ k.created ∧ k.xSchedulerRunning = false
  | .tick => k.xSchedulerRunning = true
  | .yield => k.xSchedulerRunning = true
  | .suspendAll => k.xSchedulerRunning = true
  | .resumeAll => k.xSchedulerRunning = true ∧ k.uxSchedulerSuspended ≠ 0
  | .catchUp _ => k.xSchedulerRunning = true ∧ k.uxSchedulerSuspended ≠ 0
  | .block d => k.xSchedulerRunning = true ∧ k.Running ∧ d ≠ 0
  | .placeOnEventList _ d => k.xSchedulerRunning = true ∧ k.Running ∧ d ≠ 0
  | .removeFromEventList e =>
    k.xSchedulerRunning = true ∧ k.lists.listListIsEmpty (eventList e) = false
  | .suspend t => k.xSchedulerRunning = true ∧ t ∈ k.created ∧ k.xIdleTaskHandle ≠ some t
  | .resetUnblockTime => k.xSchedulerRunning = true
  | .resume _ => k.xSchedulerRunning = true
  | .resumeFromISR _ => k.xSchedulerRunning = true

instance (k : Tasks τ κ n) (t : τ) : Decidable (k.Ready t) :=
  inferInstanceAs (Decidable (_ = _))

instance (k : Tasks τ κ n) : Decidable k.Running :=
  inferInstanceAs (Decidable (∃ t ∈ k.pxCurrentTCB, _))

instance (k : Tasks τ κ n) : (e : Event τ κ n) → Decidable (k.Allowed e)
  | .create _ _ => inferInstanceAs (Decidable (¬ _))
  | .start _ => inferInstanceAs (Decidable (_ ∧ _))
  | .tick => inferInstanceAs (Decidable (_ = _))
  | .yield => inferInstanceAs (Decidable (_ = _))
  | .suspendAll => inferInstanceAs (Decidable (_ = _))
  | .resumeAll => inferInstanceAs (Decidable (_ ∧ _))
  | .catchUp _ => inferInstanceAs (Decidable (_ ∧ _))
  | .block _ => inferInstanceAs (Decidable (_ ∧ _ ∧ _))
  | .placeOnEventList _ _ => inferInstanceAs (Decidable (_ ∧ _ ∧ _))
  | .removeFromEventList _ => inferInstanceAs (Decidable (_ ∧ _))
  | .suspend _ => inferInstanceAs (Decidable (_ ∧ _ ∧ _))
  | .resetUnblockTime => inferInstanceAs (Decidable (_ = _))
  | .resume _ => inferInstanceAs (Decidable (_ = _))
  | .resumeFromISR _ => inferInstanceAs (Decidable (_ = _))

end

/-- The tick of the clock while the scheduler is not suspended. -/
def TickEffect (k k' : Tasks τ κ n) : Prop :=
  ∃ k₁, Wakes (k.Dawn 1) k k₁ ∧ Ticked 1 k k₁ ∧ k₁.xPendedTicks = k.xPendedTicks ∧
    (k' = k₁ ∨ Switched k₁ k') ∧ Calm k' ∧
    ∀ cur t, k.pxCurrentTCB = some cur → t ≠ cur → k₁.Ready cur → k₁.Ready t →
      k.uxPriority t = k.uxPriority cur → Switched k₁ k'

variable [DecidableEq τ] [DecidableEq κ] in
/-- All that an event does to a state with the invariant. -/
def Effect [NeZero n] (k k' : Tasks τ κ n) : Event τ κ n → Prop
  | .create t p => ∃ k₁, Adds t p k k₁ ∧ (k' = k₁ ∨ Switched k₁ k')
  | .start t => ∃ k₁ k₂, Adds t 0 k k₁ ∧ (k₂ = k₁ ∨ Switched k₁ k₂) ∧ k' = k₂.started t
  | .tick => k.uxSchedulerSuspended ≠ 0 ∧ k' = { k with xPendedTicks := k.xPendedTicks + 1 } ∨
      k.uxSchedulerSuspended = 0 ∧ TickEffect k k'
  | .yield => Switched k k'
  | .suspendAll => k' = k.vTaskSuspendAll
  | .resumeAll =>
      1 < k.uxSchedulerSuspended ∧
        k' = { k with uxSchedulerSuspended := k.uxSchedulerSuspended - 1 } ∨
      k.uxSchedulerSuspended = 1 ∧ ∃ k₁, Resumed k k₁ ∧ (k' = k₁ ∨ Switched k₁ k') ∧ Calm k'
  | .catchUp d => k' = { k with xPendedTicks := k.xPendedTicks + d }
  | .block d => ∃ cur, k.pxCurrentTCB = some cur ∧ k.Ready cur ∧ k.xIdleTaskHandle ≠ some cur ∧
      Parks cur k k' ∧ Blocked d false k k' cur ∧
      k'.place (xEventListItem cur) = k.place (xEventListItem cur)
  | .placeOnEventList e d => ∃ cur, k.pxCurrentTCB = some cur ∧ k.Ready cur ∧
      k.xIdleTaskHandle ≠ some cur ∧ Parks cur k k' ∧ Blocked d true k k' cur ∧
      k'.place (xEventListItem cur) = some (eventList e)
  | .removeFromEventList e => ∃ t, k.listGetOwnerOfHeadEntry (eventList e) = some t ∧
      k.place (xEventListItem t) = some (eventList e) ∧
      (∀ u, k.place (xEventListItem u) = some (eventList e) →
        k.value (xEventListItem t) ≤ k.value (xEventListItem u)) ∧ SameClock k k' ∧ Notified t k k'
  | .suspend t => Parks t k k' ∧ k'.place (xStateListItem t) = some xSuspendedTaskList ∧
      k'.place (xEventListItem t) = none
  | .resetUnblockTime => ∃ u, k' = { k with xNextTaskUnblockTime := u }
  | .resume t => Resumes t k k'
  | .resumeFromISR t => SameClock k k' ∧
      (k' = k ∨ k.place (xStateListItem t) = some xSuspendedTaskList ∧ Notified t k k')

section
variable {T : ListId κ n → Turns (ListItem τ)}

theorem Steady.keep (hs : Steady k) (hr : k.xSchedulerRunning = true) (ht : SameTasks k k')
    (hc : k'.pxCurrentTCB = k.pxCurrentTCB)
    (hv : ∀ t, k'.value (xEventListItem t) = k.value (xEventListItem t))
    (hq : k'.uxSchedulerSuspended = 0 →
      k'.xPendedTicks = 0 ∧ ∀ i, k'.place i ≠ some xPendingReadyList)
    (htime : k'.xTickCount = BitVec.ofNat 32 k'.ticks) : Steady k' where
  present := by
    rw [ht.created, hc]
    exact hs.present
  quiet := hq
  time := htime
  priorities t hm := by
    rw [ht.created] at hm
    rw [hv, ht.uxPriority]
    exact hs.priorities t hm
  before h := by
    rw [ht.xSchedulerRunning, hr] at h
    cases h

theorem Steady.same (hs : Steady k) (hr : k.xSchedulerRunning = true) (ht : SameTasks k k')
    (hc : k'.pxCurrentTCB = k.pxCurrentTCB) (hclock : SameClock k k')
    (hv : ∀ t, k'.value (xEventListItem t) = k.value (xEventListItem t)) (hk' : k'.Core T)
    (hq : k.uxSchedulerSuspended = 0 →
      ∀ u, k'.place (xEventListItem u) = some xPendingReadyList →
        k.place (xEventListItem u) = some xPendingReadyList) : Steady k' := by
  apply hs.keep hr ht hc hv
  · intro h0
    rw [hclock.uxSchedulerSuspended] at h0
    obtain ⟨hp, hnone⟩ := hs.quiet h0
    refine ⟨hclock.xPendedTicks.trans hp, fun i hi => ?_⟩
    obtain ⟨u, rfl⟩ := hk'.fits_pending hi
    exact hnone _ (hq h0 u hi)
  · rw [hclock.xTickCount, hclock.ticks]
    exact hs.time

theorem Wakes.pending {W : τ → Prop} (h : Wakes W k k') {u : τ}
    (hu : k'.place (xEventListItem u) = some xPendingReadyList) :
    k.place (xEventListItem u) = some xPendingReadyList := by
  by_cases hw : W u
  · rw [(h.woken u hw).2] at hu
    cases hu
  · rwa [h.event u hw] at hu

theorem Wakes.steady {W : τ → Prop} (h : Wakes W k k') (hs : Steady k)
    (hr : k.xSchedulerRunning = true) (hclock : SameClock k k') (hk' : k'.Core T) : Steady k' :=
  hs.same hr h.tasks h.current hclock (fun _ => h.value _) hk' fun _ _ hu => h.pending hu

theorem Parks.steady (h : Parks t k k') (hs : Steady k) (hr : k.xSchedulerRunning = true)
    (hk' : k'.Core T)
    (he : k'.place (xEventListItem t) = some xPendingReadyList →
      k.place (xEventListItem t) = some xPendingReadyList) : Steady k' := by
  apply hs.same hr h.tasks h.current h.clock (fun u => h.values _ (by simp)) hk'
  intro _ u hu
  by_cases hut : u = t
  · subst hut
    exact he hu
  · rwa [h.event u hut] at hu

theorem Notified.steady (h : Notified t k k') (hs : Steady k) (hr : k.xSchedulerRunning = true)
    (hclock : SameClock k k') (hk' : k'.Core T) : Steady k' := by
  rcases h with ⟨_, hw⟩ | ⟨hsusp, hp⟩
  · exact hw.steady hs hr hclock hk'
  · exact hs.same hr hp.tasks hp.current hclock (fun u => congrFun hp.values _) hk'
      fun h0 => absurd h0 hsusp

end

section
variable [DecidableEq τ] [DecidableEq κ] {T : ListId κ n → Turns (ListItem τ)}

omit [DecidableEq τ] [DecidableEq κ] in
theorem Inv.ready_idle (hk : k.Inv T) (hr : k.xSchedulerRunning = true) : ∃ t, k.Ready t := by
  obtain ⟨t, _, ht⟩ := hk.idle hr
  exact ⟨t, ht⟩

omit [DecidableEq τ] [DecidableEq κ] in
theorem Ticked.time {m : Nat} (h : Ticked m k k') (ht : k.xTickCount = BitVec.ofNat 32 k.ticks) :
    k'.xTickCount = BitVec.ofNat 32 k'.ticks := by
  rw [h.xTickCount, h.ticks, ht, BitVec.ofNat_add]

theorem Inv.yield (hk : k.Inv T) (hr : k.xSchedulerRunning = true) :
    ∃ k' T', k.vTaskSwitchContext = some k' ∧ k'.Inv T' ∧ Edits (k.book T) (k'.book T') ∧
      Switched k k' := by
  obtain ⟨k', T', hk', hsw, hh, hedits⟩ := hk.toHealthy.vTaskSwitchContext (hk.ready_idle hr)
  exact ⟨k', T', hk', ⟨hh, hsw.steady hk.toHealthy hk.steady, hsw.prompt⟩, hedits, hsw⟩

theorem Inv.tick (hk : k.Inv T) (hr : k.xSchedulerRunning = true) :
    ∃ k' T', k.freertosRiscvMtimerInterruptHandler = some k' ∧ k'.Inv T' ∧
      Edits (k.book T) (k'.book T') ∧
      (k.uxSchedulerSuspended ≠ 0 ∧ k' = { k with xPendedTicks := k.xPendedTicks + 1 } ∨
        k.uxSchedulerSuspended = 0 ∧ TickEffect k k') := by
  unfold freertosRiscvMtimerInterruptHandler
  by_cases hs : k.uxSchedulerSuspended = 0
  · obtain ⟨cur, hc, _⟩ := hk.cur hr
    obtain ⟨idle, _, hidle⟩ := hk.idle hr
    obtain ⟨r, k₁, T₁, hk₁, hh₁, hedits₁, hwakes, htick, hpend, hyield, hyr, hcalm, hslice⟩ :=
      hk.toHealthy.xTaskIncrementTick hs hc
    obtain ⟨hp0, hnone⟩ := hk.steady.quiet hs
    have hsteady₁ : Steady k₁ := by
      apply hk.steady.keep hr hwakes.tasks hwakes.current fun _ => hwakes.value _
      · intro _
        refine ⟨hpend.trans hp0, fun i hi => ?_⟩
        obtain ⟨u, rfl⟩ := hh₁.fits_pending hi
        exact hnone _ (hwakes.pending hi)
      · exact htick.time hk.steady.time
    rw [hk₁, Option.bind_some]
    cases hrr : r with
    | true =>
      have hready : ∃ t, k₁.Ready t := ⟨idle, hwakes.ready_iff.mpr (Or.inr hidle)⟩
      obtain ⟨k', T', hk', hsw, hh, hedits⟩ := hh₁.vTaskSwitchContext hready
      refine ⟨k', T', (if_pos rfl).trans hk', ⟨hh, hsw.steady hh₁ hsteady₁, hsw.prompt⟩,
        hedits₁.trans hedits, Or.inr ⟨hs, k₁, hwakes, htick, hpend, Or.inr hsw, ?_, ?_⟩⟩
      · exact hsw.calm (htick.uxSchedulerSuspended.trans hs)
      · exact fun _ _ _ _ _ _ _ => hsw
    | false =>
      have hcalm₁ : Calm k₁ := by
        rcases hk.prompt with hp | hp
        · rw [hyr hp] at hrr
          cases hrr
        · rcases hcalm hp with h | h
          · rw [h] at hrr
            cases hrr
          · exact h
      refine ⟨k₁, T₁, if_neg (by simp), ⟨hh₁, hsteady₁, Or.inr hcalm₁⟩, hedits₁,
        Or.inr ⟨hs, k₁, hwakes, htick, hpend, Or.inl rfl, hcalm₁, ?_⟩⟩
      intro c t hcc hne hrc hrt hpt
      rw [hc] at hcc
      cases hcc
      rw [hslice t hne hrc hrt hpt] at hrr
      cases hrr
  · rw [xTaskIncrementTick, if_neg hs, Option.bind_some]
    set k' : Tasks τ κ n := { k with xPendedTicks := k.xPendedTicks + 1 }
    have hcore : k'.Core T :=
      hk.toCore.congr rfl ⟨rfl, rfl, rfl, rfl, rfl⟩ rfl (Or.inl ⟨rfl, rfl⟩) rfl
    refine ⟨k', T, if_neg (by simp), ⟨⟨hcore, hk.free, ?_⟩, ?_, hk.prompt⟩, Edits.refl _,
      Or.inl ⟨hs, rfl⟩⟩
    · exact ⟨hk.clock.later, hk.clock.wrapped, hk.clock.timely⟩
    · exact hk.steady.keep hr ⟨rfl, rfl, rfl, rfl, rfl⟩ rfl (fun _ => rfl) (fun h => absurd h hs)
        hk.steady.time

theorem Inv.resumeAll (hk : k.Inv T) (hr : k.xSchedulerRunning = true)
    (hs : k.uxSchedulerSuspended ≠ 0) :
    ∃ r k' T', k.xTaskResumeAll = some (r, k') ∧ k'.Inv T' ∧ Edits (k.book T) (k'.book T') ∧
      (1 < k.uxSchedulerSuspended ∧
          k' = { k with uxSchedulerSuspended := k.uxSchedulerSuspended - 1 } ∨
        k.uxSchedulerSuspended = 1 ∧ ∃ k₁, Resumed k k₁ ∧ (k' = k₁ ∨ Switched k₁ k') ∧
          Calm k') := by
  obtain ⟨r, k', T', hk', hh, hedits, hor⟩ := hk.toHealthy.xTaskResumeAll hr hs hk.prompt
  refine ⟨r, k', T', hk', ?_, hedits, ?_⟩
  · rcases hor with ⟨hgt, _, rfl⟩ | ⟨hone, k₁, T₁, hres, hh₁, hor⟩
    · refine ⟨hh, ?_, hk.prompt⟩
      have ht : SameTasks k { k with uxSchedulerSuspended := k.uxSchedulerSuspended - 1 } :=
        ⟨rfl, rfl, rfl, rfl, rfl⟩
      refine hk.steady.keep hr ht rfl (fun _ => rfl) (fun h0 => ?_) hk.steady.time
      have hz : k.uxSchedulerSuspended - 1 = 0 := h0
      omega
    · have hsteady₁ : Steady k₁ := by
        apply hk.steady.keep hr hres.wakes.tasks hres.wakes.current fun _ => hres.wakes.value _
        · exact fun _ => ⟨hres.xPendedTicks, hres.pending⟩
        · rw [hres.xTickCount, hres.ticks, hk.steady.time, BitVec.ofNat_add, BitVec.ofNat_toNat,
            BitVec.setWidth_eq]
      rcases hor with ⟨_, rfl, _⟩ | ⟨_, hsw⟩
      · exact ⟨hh, hsteady₁, hres.prompt⟩
      · exact ⟨hh, hsw.steady hh₁ hsteady₁, hsw.prompt⟩
  · rcases hor with ⟨hgt, _, he⟩ | ⟨hone, k₁, T₁, hres, _, hor⟩
    · exact Or.inl ⟨hgt, he⟩
    · refine Or.inr ⟨hone, k₁, hres, ?_⟩
      rcases hor with ⟨_, he, hy⟩ | ⟨_, hsw⟩
      · refine ⟨Or.inl he, ?_⟩
        rw [he]
        rcases hres.prompt with hp | hp
        · rw [hy] at hp
          cases hp
        · exact hp
      · exact ⟨Or.inr hsw, hsw.calm hres.uxSchedulerSuspended⟩

theorem Inv.block (hk : k.Inv T) (hr : k.xSchedulerRunning = true) (hrun : k.Running)
    {d : TickType} (hd : d ≠ 0) :
    ∃ cur k' T', k.prvAddCurrentTaskToDelayedList d false = some k' ∧ k'.Inv T' ∧
      Edits (k.book T) (k'.book T') ∧ k.pxCurrentTCB = some cur ∧ k.Ready cur ∧
      k.xIdleTaskHandle ≠ some cur ∧ Parks cur k k' ∧ Blocked d false k k' cur ∧
      k'.place (xEventListItem cur) = k.place (xEventListItem cur) := by
  obtain ⟨cur, hc, hrc, hi⟩ := hrun
  replace hc : k.pxCurrentTCB = some cur := hc
  have hmem : cur ∈ k.created := (hk.placed cur).mpr ⟨_, hrc⟩
  obtain ⟨k', T', hk', hcore, hclock, hedits, hparks, hblocked, hevent⟩ :=
    hk.toCore.prvAddCurrentTaskToDelayedList hk.clock hc hmem (fun _ => hi) hd false
  refine ⟨cur, k', T', hk', ⟨⟨hcore, ?_, hclock⟩, ?_, hparks.prompt hk.prompt⟩, hedits, hc, hrc, hi,
    hparks, hblocked, hevent⟩
  · exact hparks.free fun u _ hu => hk.free u hu
  · exact hparks.steady hk.steady hr hcore fun h => hevent.symm.trans h

theorem Inv.placeOnEventList (hk : k.Inv T) (hr : k.xSchedulerRunning = true) (hrun : k.Running)
    (e : κ) {d : TickType} (hd : d ≠ 0) :
    ∃ cur k' T', k.vTaskPlaceOnEventList e d = some k' ∧ k'.Inv T' ∧
      Edits (k.book T) (k'.book T') ∧ k.pxCurrentTCB = some cur ∧ k.Ready cur ∧
      k.xIdleTaskHandle ≠ some cur ∧ Parks cur k k' ∧ Blocked d true k k' cur ∧
      k'.place (xEventListItem cur) = some (eventList e) := by
  obtain ⟨cur, hc, hrc, hi⟩ := hrun
  replace hc : k.pxCurrentTCB = some cur := hc
  have hmem : cur ∈ k.created := (hk.placed cur).mpr ⟨_, hrc⟩
  obtain ⟨k', T', hk', hh, hedits, hparks, hblocked, hevent⟩ :=
    hk.toHealthy.vTaskPlaceOnEventList hc hmem hrc (fun _ => hi) hd e
  refine ⟨cur, k', T', hk', ⟨hh, ?_, hparks.prompt hk.prompt⟩, hedits, hc, hrc, hi, hparks,
    hblocked, hevent⟩
  apply hparks.steady hk.steady hr hh.toCore
  intro h
  rw [hevent] at h
  cases h

theorem Inv.removeFromEventList (hk : k.Inv T) (hr : k.xSchedulerRunning = true) {e : κ}
    (hne : k.lists.listListIsEmpty (eventList e) = false) :
    ∃ t r k' T', k.xTaskRemoveFromEventList e = some (r, k') ∧ k'.Inv T' ∧
      Edits (k.book T) (k'.book T') ∧ k.listGetOwnerOfHeadEntry (eventList e) = some t ∧
      k.place (xEventListItem t) = some (eventList e) ∧
      (∀ u, k.place (xEventListItem u) = some (eventList e) →
        k.value (xEventListItem t) ≤ k.value (xEventListItem u)) ∧ SameClock k k' ∧
      Notified t k k' := by
  obtain ⟨cur, hc, _⟩ := hk.cur hr
  have hex : ∃ i, k.place i = some (eventList e) := by
    by_contra hno
    have hempty := (hk.isEmpty (eventList e)).mpr fun i hi => hno ⟨i, hi⟩
    rw [hne] at hempty
    cases hempty
  obtain ⟨t, r, k', T', hk', hhead, hplace, hfirst, hh, hedits, hclock, hnot, hprompt⟩ :=
    hk.toHealthy.xTaskRemoveFromEventList hc hex
  exact ⟨t, r, k', T', hk', ⟨hh, hnot.steady hk.steady hr hclock hh.toCore, hprompt hk.prompt⟩,
    hedits, hhead, hplace, hfirst, hclock, hnot⟩

theorem Inv.suspend (hk : k.Inv T) (hr : k.xSchedulerRunning = true) (ht : t ∈ k.created)
    (hi : k.xIdleTaskHandle ≠ some t) :
    ∃ k' T', k.vTaskSuspendRemove t = some k' ∧ k'.Inv T' ∧ Edits (k.book T) (k'.book T') ∧
      Parks t k k' ∧ k'.place (xStateListItem t) = some xSuspendedTaskList ∧
      k'.place (xEventListItem t) = none := by
  obtain ⟨k', T', hk', hh, hedits, hparks, hself, hevent⟩ :=
    hk.toHealthy.vTaskSuspendRemove ht fun _ => hi
  refine ⟨k', T', hk', ⟨hh, ?_, hparks.prompt hk.prompt⟩, hedits, hparks, hself, hevent⟩
  apply hparks.steady hk.steady hr hh.toCore
  intro h
  rw [hevent] at h
  cases h

theorem Inv.resume (hk : k.Inv T) (hr : k.xSchedulerRunning = true) (t : τ) :
    ∃ k' T', k.vTaskResume t = some k' ∧ k'.Inv T' ∧ Edits (k.book T) (k'.book T') ∧
      Resumes t k k' := by
  obtain ⟨cur, hc, _⟩ := hk.cur hr
  obtain ⟨k', T', hk', hh, hedits, hres, hprompt⟩ := hk.toHealthy.vTaskResume hc t
  refine ⟨k', T', hk', ⟨hh, ?_, hprompt hk.prompt⟩, hedits, hres⟩
  rcases hres with rfl | ⟨_, k₁, T₁, hwakes, hclock, hh₁, hor⟩
  · exact hk.steady
  · have hsteady₁ := hwakes.steady hk.steady hr hclock hh₁.toCore
    rcases hor with rfl | hsw
    · exact hsteady₁
    · exact hsw.steady hh₁ hsteady₁

theorem Inv.resumeFromISR (hk : k.Inv T) (hr : k.xSchedulerRunning = true) (t : τ) :
    ∃ r k' T', k.xTaskResumeFromISR t = some (r, k') ∧ k'.Inv T' ∧ Edits (k.book T) (k'.book T') ∧
      SameClock k k' ∧
      (k' = k ∨ k.place (xStateListItem t) = some xSuspendedTaskList ∧ Notified t k k') := by
  obtain ⟨cur, hc, _⟩ := hk.cur hr
  obtain ⟨r, k', T', hk', hh, hedits, hclock, hor, hprompt⟩ := hk.toHealthy.xTaskResumeFromISR hc t
  refine ⟨r, k', T', hk', ⟨hh, ?_, hprompt hk.prompt⟩, hedits, hclock, hor⟩
  rcases hor with rfl | ⟨_, hnot⟩
  · exact hk.steady
  · exact hnot.steady hk.steady hr hclock hh.toCore

omit [DecidableEq τ] [DecidableEq κ] in
theorem Inv.set (hk : k.Inv T) (hr : k.xSchedulerRunning = true) (ht : SameTasks k k')
    (hl : k'.lists = k.lists) (hc : k'.pxCurrentTCB = k.pxCurrentTCB)
    (htop : k'.uxTopReadyPriority = k.uxTopReadyPriority)
    (hd : k'.pxDelayedTaskList = k.pxDelayedTaskList ∧
      k'.pxOverflowDelayedTaskList = k.pxOverflowDelayedTaskList)
    (htick : k'.xTickCount = k.xTickCount ∧ k'.ticks = k.ticks) (htimely : Timely k')
    (hq : k'.uxSchedulerSuspended ≠ 0 ∨ k'.uxSchedulerSuspended = k.uxSchedulerSuspended ∧
      k'.xPendedTicks = k.xPendedTicks) (hy : k'.xYieldPending = k.xYieldPending) : k'.Inv T := by
  have hplace : ∀ i, k'.place i = k.place i := by
    intro i
    rw [place, hl]
  have hvalue : ∀ i, k'.value i = k.value i := by
    intro i
    rw [value, hl]
  have hready : ∀ t, k'.Ready t ↔ k.Ready t := by
    intro t
    rw [Ready, Ready, hplace, ht.uxPriority]
  refine ⟨⟨hk.toCore.congr hl ht hc (Or.inl hd) htop, ?_, ?_, ?_, htimely⟩, ?_, ?_⟩
  · intro t h
    rw [hplace]
    exact hk.free t ((hready t).mp h)
  · intro t h
    rw [hplace, hd.1] at h
    rw [hvalue, htick.1]
    exact hk.clock.later t h
  · intro t h
    rw [hplace, hd.2] at h
    rw [hvalue, htick.1]
    exact hk.clock.wrapped t h
  · apply hk.steady.keep hr ht hc fun _ => hvalue _
    · intro h0
      rcases hq with hq | ⟨hs, hp⟩
      · exact absurd h0 hq
      · rw [hs] at h0
        obtain ⟨hp0, hnone⟩ := hk.steady.quiet h0
        refine ⟨hp.trans hp0, fun i => ?_⟩
        rw [hplace]
        exact hnone i
    · rw [htick.1, htick.2]
      exact hk.steady.time
  · rcases hk.prompt with hp | hcalm
    · exact Or.inl (hy.trans hp)
    · refine Or.inr fun c hcc u hu => ?_
      rw [hc] at hcc
      rw [ht.uxPriority]
      exact hcalm c hcc u ((hready u).mp hu)

/-- Every event that is allowed runs to its end, keeps the invariant, and has its effect. -/
theorem Inv.step [NeZero n] (hk : k.Inv T) {e : Event τ κ n} (he : k.Allowed e) :
    ∃ k' T', k.step e = some k' ∧ k'.Inv T' ∧ Edits (k.book T) (k'.book T') ∧ Effect k k' e := by
  cases e with
  | create t p =>
    obtain ⟨k₁, k', T', hk', hinv, hedits, hadds, hor⟩ := hk.xTaskCreateStatic he p
    exact ⟨k', T', hk', hinv, hedits, k₁, hadds, hor⟩
  | start t =>
    obtain ⟨k₁, k₂, T', hk', hinv, hedits, hadds, hor⟩ := hk.vTaskStartScheduler he.1 he.2
    exact ⟨_, T', hk', hinv, hedits, k₁, k₂, hadds, hor, rfl⟩
  | tick =>
    obtain ⟨k', T', hk', hinv, hedits, heff⟩ := hk.tick he
    exact ⟨k', T', hk', hinv, hedits, heff⟩
  | yield =>
    obtain ⟨k', T', hk', hinv, hedits, heff⟩ := hk.yield he
    exact ⟨k', T', hk', hinv, hedits, heff⟩
  | suspendAll =>
    have hinv : k.vTaskSuspendAll.Inv T :=
      hk.set he ⟨rfl, rfl, rfl, rfl, rfl⟩ rfl rfl rfl ⟨rfl, rfl⟩ ⟨rfl, rfl⟩ hk.clock.timely
        (Or.inl (Nat.succ_ne_zero _)) rfl
    exact ⟨_, T, rfl, hinv, Edits.refl _, rfl⟩
  | resumeAll =>
    obtain ⟨r, k', T', hk', hinv, hedits, heff⟩ := hk.resumeAll he.1 he.2
    exact ⟨k', T', congrArg (Option.map Prod.snd) hk', hinv, hedits, heff⟩
  | catchUp d =>
    have hinv : Inv { k with xPendedTicks := k.xPendedTicks + d } T :=
      hk.set he.1 ⟨rfl, rfl, rfl, rfl, rfl⟩ rfl rfl rfl ⟨rfl, rfl⟩ ⟨rfl, rfl⟩ hk.clock.timely
        (Or.inl he.2) rfl
    exact ⟨_, T, rfl, hinv, Edits.refl _, rfl⟩
  | block d =>
    obtain ⟨cur, k', T', hk', hinv, hedits, heff⟩ := hk.block he.1 he.2.1 he.2.2
    exact ⟨k', T', hk', hinv, hedits, cur, heff⟩
  | placeOnEventList e d =>
    obtain ⟨cur, k', T', hk', hinv, hedits, heff⟩ := hk.placeOnEventList he.1 he.2.1 e he.2.2
    exact ⟨k', T', hk', hinv, hedits, cur, heff⟩
  | removeFromEventList e =>
    obtain ⟨t, r, k', T', hk', hinv, hedits, heff⟩ := hk.removeFromEventList he.1 he.2
    exact ⟨k', T', congrArg (Option.map Prod.snd) hk', hinv, hedits, t, heff⟩
  | suspend t =>
    obtain ⟨k', T', hk', hinv, hedits, heff⟩ := hk.suspend he.1 he.2.1 he.2.2
    exact ⟨k', T', hk', hinv, hedits, heff⟩
  | resetUnblockTime =>
    have htimely := hk.toCore.prvResetNextTaskUnblockTime
    obtain ⟨u, hu⟩ := prvResetNextTaskUnblockTime_eq k
    rw [hu] at htimely
    have hinv : Inv { k with xNextTaskUnblockTime := u } T :=
      hk.set he ⟨rfl, rfl, rfl, rfl, rfl⟩ rfl rfl rfl ⟨rfl, rfl⟩ ⟨rfl, rfl⟩ htimely
        (Or.inr ⟨rfl, rfl⟩) rfl
    exact ⟨_, T, congrArg some hu, hinv, Edits.refl _, u, rfl⟩
  | resume t =>
    obtain ⟨k', T', hk', hinv, hedits, heff⟩ := hk.resume he t
    exact ⟨k', T', hk', hinv, hedits, heff⟩
  | resumeFromISR t =>
    obtain ⟨r, k', T', hk', hinv, hedits, heff⟩ := hk.resumeFromISR he t
    exact ⟨k', T', congrArg (Option.map Prod.snd) hk', hinv, hedits, heff⟩

end
end Tasks
end RegisterWindows.Scheduler
