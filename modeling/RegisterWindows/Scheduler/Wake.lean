import RegisterWindows.Scheduler.Run

namespace RegisterWindows.Scheduler
open RegisterWindows.Scheduler.Lists

namespace Tasks
open ListItem ListId

variable {τ κ : Type} {n : Nat} {k k' : Tasks τ κ n} {t : τ} {e : Event τ κ n}
  {T T' : ListId κ n → Turns (ListItem τ)}

def Stops (t : τ) (k : Tasks τ κ n) : Event τ κ n → Prop
  | .block _ => k.pxCurrentTCB = some t
  | .placeOnEventList _ _ => k.pxCurrentTCB = some t
  | .suspend u => u = t
  | _ => False

def Notifies (t : τ) (k : Tasks τ κ n) : Event τ κ n → Prop
  | .removeFromEventList e => k.listGetOwnerOfHeadEntry (eventList e) = some t
  | _ => False

instance [DecidableEq τ] (t : τ) (k : Tasks τ κ n) : (e : Event τ κ n) → Decidable (k.Stops t e)
  | .block _ => inferInstanceAs (Decidable (_ = _))
  | .placeOnEventList _ _ => inferInstanceAs (Decidable (_ = _))
  | .suspend _ => inferInstanceAs (Decidable (_ = _))
  | .create _ _ => isFalse id
  | .start _ => isFalse id
  | .tick => isFalse id
  | .yield => isFalse id
  | .suspendAll => isFalse id
  | .resumeAll => isFalse id
  | .catchUp _ => isFalse id
  | .removeFromEventList _ => isFalse id
  | .resetUnblockTime => isFalse id
  | .resume _ => isFalse id
  | .resumeFromISR _ => isFalse id

instance [DecidableEq τ] (t : τ) (k : Tasks τ κ n) :
    (e : Event τ κ n) → Decidable (k.Notifies t e)
  | .removeFromEventList _ => inferInstanceAs (Decidable (_ = _))
  | .block _ => isFalse id
  | .placeOnEventList _ _ => isFalse id
  | .suspend _ => isFalse id
  | .create _ _ => isFalse id
  | .start _ => isFalse id
  | .tick => isFalse id
  | .yield => isFalse id
  | .suspendAll => isFalse id
  | .resumeAll => isFalse id
  | .catchUp _ => isFalse id
  | .resetUnblockTime => isFalse id
  | .resume _ => isFalse id
  | .resumeFromISR _ => isFalse id

theorem Core.not_delayed (hk : k.Core T) (hr : k.Ready t) : ¬ k.Delayed t := by
  intro hd
  rw [Ready] at hr
  rcases hk.delayed_iff.mp hd with h | h
  · exact (hk.delayed_ne _).1 (Option.some.inj (h.symm.trans hr))
  · exact (hk.delayed_ne _).2 (Option.some.inj (h.symm.trans hr))

theorem Ready.not_suspended (hr : k.Ready t) :
    k.place (xStateListItem t) ≠ some xSuspendedTaskList := by
  intro h
  rw [Ready, h] at hr
  cases hr

theorem Delayed.not_suspended (hd : k.Delayed t) :
    k.place (xStateListItem t) ≠ some xSuspendedTaskList := by
  intro h
  rcases hd with hd | hd
  · rw [hd] at h
    cases h
  · rw [hd] at h
    cases h

theorem Untouched.ready (h : Untouched t k k') : k'.Ready t ↔ k.Ready t := by
  rw [Ready, Ready, h.state, h.uxPriority]

theorem Untouched.delayed (h : Untouched t k k') : k'.Delayed t ↔ k.Delayed t := by
  rw [Delayed, Delayed, h.state]

theorem Untouched.pend (h : Untouched t k k') : k'.Pend t ↔ k.Pend t := by
  rw [Pend, Pend, h.event]

theorem ready_orSwitched {k₁ : Tasks τ κ n} (hor : k' = k₁ ∨ Switched k₁ k') (h : k₁.Ready t) :
    k'.Ready t := by
  rcases hor with rfl | hsw
  · exact h
  · exact hsw.ready.mpr h

/-- A task that there is, that does not wait for this event and is neither pending nor woken by the
clock, is moved only by its own doing or by a resume. -/
theorem not_touches (hm : t ∈ k.created) (ha : k.Allowed e) (hs : ¬ Stops t k e)
    (hn : ¬ Notifies t k e) (hp : ¬ k.Pend t)
    (hd : ∀ m, k.passed e = m → ¬ k.Dawn m t)
    (hz : k.place (xStateListItem t) ≠ some xSuspendedTaskList) : ¬ k.Touches t e := by
  intro ht
  cases e with
  | create u p =>
    subst ht
    exact ha hm
  | start u =>
    subst ht
    exact ha.1 hm
  | tick => exact hd 1 (if_pos ht.1) ht.2
  | resumeAll =>
    rcases ht with ⟨h1, hpt | hdt⟩
    · exact hp hpt
    · exact hd _ (if_pos h1) hdt
  | block d => exact hs ht
  | placeOnEventList q d => exact hs ht
  | removeFromEventList q => exact hn ht
  | suspend u => exact hs ht
  | resume u => exact hz ht.2
  | resumeFromISR u => exact hz ht.2
  | yield => exact ht
  | suspendAll => exact ht
  | catchUp d => exact ht
  | resetUnblockTime => exact ht

/-- A ready task stays where it is until it blocks or is suspended. -/
theorem Effect.keeps_ready [NeZero n] (hk : k.Inv T) (ha : k.Allowed e) (he : Effect k k' e)
    (hs : ¬ Stops t k e) (hr : k.Ready t) : Untouched t k k' := by
  have hm : t ∈ k.created := (hk.placed t).mpr ⟨_, hr⟩
  have hfree : k.place (xEventListItem t) = none := hk.free t hr
  have hn : ¬ Notifies t k e := by
    intro hn
    cases e with
    | removeFromEventList q =>
      obtain ⟨u, hu, hplace, _⟩ := he
      cases hu.symm.trans hn
      rw [hfree] at hplace
      cases hplace
    | _ => exact hn
  have hp : ¬ k.Pend t := by
    rw [Pend, hfree]
    simp
  apply he.untouched
  exact not_touches hm ha hs hn hp (fun m _ hd => hk.not_delayed hr hd.1) hr.not_suspended

theorem Effect.stays_ready [NeZero n] (hk : k.Inv T) (ha : k.Allowed e) (he : Effect k k' e)
    (hs : ¬ Stops t k e) (hr : k.Ready t) : k'.Ready t :=
  (he.keeps_ready hk ha hs hr).ready.mpr hr

/-- The tick at which a delayed task wakes. -/
def deadline (k : Tasks τ κ n) (t : τ) : Nat := k.ticks + k.remaining t

theorem Untouched.deadline (hk : k.Inv T) (hs' : Steady k') (h : Untouched t k k')
    (hel : k'.ticks = k.ticks + k.passed e) (hlt : k.passed e < k.remaining t) :
    k'.deadline t = k.deadline t := by
  have hx : k'.xTickCount = k.xTickCount + BitVec.ofNat 32 (k.passed e) := by
    rw [hs'.time, hel, hk.steady.time, BitVec.ofNat_add]
  have hrem := remaining_add h.value hx (Nat.le_of_lt hlt)
  rw [Tasks.deadline, Tasks.deadline, hel]
  omega

/-- A delayed task stays delayed until its deadline, and no longer. -/
theorem Effect.delayed [NeZero n] (hk : k.Inv T) (hk' : k'.Inv T') (ha : k.Allowed e)
    (he : Effect k k' e) (hs : ¬ Stops t k e) (hn : ¬ Notifies t k e) (hd : k.Delayed t)
    (hp : ¬ k.Pend t) :
    (k'.Delayed t ∧ ¬ k'.Pend t ∧ k'.deadline t = k.deadline t) ∨
      (k'.Ready t ∧ k.deadline t ≤ k'.ticks) := by
  have hm : t ∈ k.created := by
    rcases hd with hd | hd
    · exact (hk.placed t).mpr ⟨_, hd⟩
    · exact (hk.placed t).mpr ⟨_, hd⟩
  have hel := he.elapses hk ha
  by_cases hdawn : k.Dawn (k.passed e) t
  · -- the clock reaches the deadline: a tick, or the ticks that were pended
    refine Or.inr ⟨?_, ?_⟩
    · have hpos : 0 < k.passed e := Nat.lt_of_lt_of_le (hk.remaining_pos hd) hdawn.2
      cases e with
      | tick =>
        rcases he with ⟨h0, _⟩ | ⟨h0, k₁, hwakes, _, _, hor, _⟩
        · rw [passed, if_neg h0] at hpos
          exact absurd hpos (Nat.lt_irrefl 0)
        · rw [passed, if_pos h0] at hdawn
          exact ready_orSwitched hor (hwakes.woken t hdawn).1
      | resumeAll =>
        rcases he with ⟨h1, _⟩ | ⟨h1, k₁, hres, hor, _⟩
        · rw [passed, if_neg (Nat.ne_of_gt h1)] at hpos
          exact absurd hpos (Nat.lt_irrefl 0)
        · rw [passed, if_pos h1] at hdawn
          exact ready_orSwitched hor (hres.wakes.woken t (Or.inr hdawn)).1
      | _ => exact absurd hpos (Nat.lt_irrefl 0)
    · rw [hel.ticks]
      exact Nat.add_le_add_left hdawn.2 _
  · have hlt : k.passed e < k.remaining t := by
      by_contra hle
      exact hdawn ⟨hd, Nat.le_of_not_lt hle⟩
    have hnt := not_touches hm ha hs hn hp (fun m hpm => hpm ▸ hdawn) hd.not_suspended
    have h := he.untouched hnt
    refine Or.inl ⟨h.delayed.mpr hd, fun hpt => hp (h.pend.mp hpt), ?_⟩
    exact h.deadline hk hk'.steady hel.ticks hlt

section
variable [DecidableEq τ] [DecidableEq κ]

/-- A run that leaves a delayed task alone wakes it at its deadline, which does not move. -/
theorem Inv.run_deadline [NeZero n] {es : List (Event τ κ n)} {d : Nat} (hk : k.Inv T)
    (hes : Runs.Along Tasks.step (fun k e => k.Allowed e ∧ ¬ Stops t k e ∧ ¬ Notifies t k e) k es)
    (hrun : Runs.run Tasks.step k es = some k')
    (h : (k.Delayed t ∧ ¬ k.Pend t ∧ k.deadline t = d) ∨ (k.Ready t ∧ d ≤ k.ticks)) :
    ∃ T', k'.Inv T' ∧
      ((k'.Delayed t ∧ ¬ k'.Pend t ∧ k'.deadline t = d) ∨ (k'.Ready t ∧ d ≤ k'.ticks)) := by
  induction es generalizing k T with
  | nil =>
    cases hrun
    exact ⟨T, hk, h⟩
  | cons e es ih =>
    obtain ⟨k₁, hk₁, hrun⟩ := Runs.run_cons.mp hrun
    obtain ⟨ha, hs, hn⟩ := hes.1
    obtain ⟨k₂, T₁, hk₂, hinv, _, he⟩ := hk.step ha
    cases hk₁.symm.trans hk₂
    refine ih hinv (hes.2 k₁ hk₁) hrun ?_
    rcases h with ⟨hd, hp, rfl⟩ | ⟨hr, hle⟩
    · exact he.delayed hk hinv ha hs hn hd hp
    · refine Or.inr ⟨he.stays_ready hk ha hs hr, Nat.le_trans hle ?_⟩
      rw [(he.elapses hk ha).ticks]
      exact Nat.le_add_right _ _

/-- The events by which the running task blocks for a number of ticks at most. -/
def WaitsFor (d : TickType) : Event τ κ n → Prop
  | .block d' => d' = d
  | .placeOnEventList _ d' => d' = d ∧ d ≠ portMaxDelay
  | _ => False

theorem Inv.blocked [NeZero n] {d : TickType} (hk : k.Inv T) (ha : k.Allowed e)
    (hw : WaitsFor d e) (hc : k.pxCurrentTCB = some t) (hk' : k.step e = some k') :
    ∃ T', k'.Inv T' ∧ k'.Delayed t ∧ ¬ k'.Pend t ∧ k'.deadline t = k.ticks + d.toNat := by
  obtain ⟨k₁, T₁, hk₁, hinv, _, he⟩ := hk.step ha
  cases hk'.symm.trans hk₁
  have hdead : ∀ {b}, ¬ (d = portMaxDelay ∧ b = true) → SameClock k k' → Blocked d b k k' t →
      k'.Delayed t ∧ k'.deadline t = k.ticks + d.toNat := by
    intro b hb hclock hbl
    rw [Blocked, if_neg hb] at hbl
    refine ⟨hbl.1, ?_⟩
    rw [deadline, remaining, hclock.ticks, hclock.xTickCount, hbl.2, BitVec.add_comm,
      BitVec.add_sub_cancel]
  refine ⟨T₁, hinv, ?_⟩
  cases e with
  | block d' =>
    obtain rfl := hw
    obtain ⟨cur, hcur, hr, _, hparks, hbl, hevent⟩ := he
    cases hc.symm.trans hcur
    obtain ⟨hd, hdl⟩ := hdead (by simp) hparks.clock hbl
    refine ⟨hd, ?_, hdl⟩
    rw [Pend, hevent, hk.free t hr]
    simp
  | placeOnEventList q d' =>
    obtain ⟨rfl, hne⟩ := hw
    obtain ⟨cur, hcur, hr, _, hparks, hbl, hevent⟩ := he
    cases hc.symm.trans hcur
    obtain ⟨hd, hdl⟩ := hdead (fun h => hne h.1) hparks.clock hbl
    refine ⟨hd, ?_, hdl⟩
    rw [Pend, hevent]
    simp
  | _ => exact hw.elim

/-- A task that blocks for `d` ticks is delayed until `d` ticks were counted, and ready from then on,
whatever the interrupts and the other tasks do. -/
theorem Reachable.wakes_at_deadline [NeZero n] {d : TickType} {k₁ : Tasks τ κ n}
    {es : List (Event τ κ n)} (hk : k.Reachable) (ha : k.Allowed e) (hw : WaitsFor d e)
    (hc : k.pxCurrentTCB = some t) (hk₁ : k.step e = some k₁)
    (hes : Runs.Along Tasks.step (fun k e => k.Allowed e ∧ ¬ Stops t k e ∧ ¬ Notifies t k e) k₁ es)
    (hrun : Runs.run Tasks.step k₁ es = some k') :
    (k'.Delayed t ∧ k'.ticks < k.ticks + d.toNat) ∨
      (k'.Ready t ∧ k.ticks + d.toNat ≤ k'.ticks) := by
  have hr : k.xSchedulerRunning = true := by
    cases e with
    | block _ => exact ha.1
    | placeOnEventList _ _ => exact ha.1
    | _ => exact hw.elim
  obtain ⟨T, hinv⟩ := hk.inv_of_running hr
  obtain ⟨T₁, hinv₁, hd, hp, hdl⟩ := hinv.blocked ha hw hc hk₁
  obtain ⟨T', hinv', hor⟩ := hinv₁.run_deadline hes hrun (Or.inl ⟨hd, hp, hdl⟩)
  rcases hor with ⟨hd', _, hdl'⟩ | hready
  · refine Or.inl ⟨hd', ?_⟩
    rw [← hdl']
    exact Nat.lt_add_of_pos_right (hinv'.remaining_pos hd')
  · exact Or.inr hready

theorem wakes_at_deadline_boot : ∃ k k₁ k' : Tasks (Fin 3) Unit 2,
    Runs.run Tasks.step powerUp boot = some k ∧ k.step (.block 2) = some k₁ ∧
      Runs.run Tasks.step k₁ [.yield, .tick, .suspendAll, .tick, .resumeAll] = some k' ∧
      ((k'.Delayed 2 ∧ k'.ticks < k.ticks + 2) ∨ (k'.Ready 2 ∧ k.ticks + 2 ≤ k'.ticks)) := by
  obtain ⟨k, hrun, hk, ha, hc, h⟩ := Reachable.of_powerUp boot_along
    (P := fun k => k.Allowed (.block 2) ∧ k.pxCurrentTCB = some 2 ∧
      (k.step (.block 2)).any (fun k₁ => decide
        (Runs.Along Tasks.step (fun k e => k.Allowed e ∧ ¬ Stops 2 k e ∧ ¬ Notifies 2 k e) k₁
            [.yield, .tick, .suspendAll, .tick, .resumeAll] ∧
          (Runs.run Tasks.step k₁ [.yield, .tick, .suspendAll, .tick, .resumeAll]).isSome)) = true)
    (by decide +kernel)
  obtain ⟨k₁, hk₁, h₁⟩ := (Option.any_eq_true _ _).mp h
  obtain ⟨hes, hsome⟩ := of_decide_eq_true h₁
  obtain ⟨k', hk'⟩ := Option.isSome_iff_exists.mp hsome
  exact ⟨k, k₁, k', hrun, hk₁, hk', hk.wakes_at_deadline ha rfl hc hk₁ hes hk'⟩

/-- A task that an event woke is ready, or it is pending until the scheduler is resumed. -/
def Woken (k : Tasks τ κ n) (t : τ) : Prop :=
  k.Ready t ∨ k.Pend t ∧ k.uxSchedulerSuspended ≠ 0

omit [DecidableEq τ] [DecidableEq κ] in
theorem Notified.woken (h : Notified t k k') (hs : SameClock k k') : Woken k' t := by
  rcases h with ⟨_, hw⟩ | ⟨hsusp, hp⟩
  · exact Or.inl (hw.woken t rfl).1
  · refine Or.inr ⟨hp.pend, ?_⟩
    rw [hs.uxSchedulerSuspended]
    exact hsusp

omit [DecidableEq τ] [DecidableEq κ] in
theorem Effect.stays_woken [NeZero n] (hk : k.Inv T) (hk' : k'.Inv T') (ha : k.Allowed e)
    (he : Effect k k' e) (hs : ¬ Stops t k e) (h : Woken k t) : Woken k' t := by
  rcases h with hr | ⟨hp, hsusp⟩
  · exact Or.inl (he.stays_ready hk ha hs hr)
  have hm : t ∈ k.created := hk.waits t _ hp
  have hstay : k'.Ready t ∨ k'.Pend t := by
    by_cases ht : k.Touches t e
    · cases e with
      | create u p =>
        cases ht
        exact absurd hm ha
      | start u =>
        cases ht
        exact absurd hm ha.1
      | tick => exact absurd ht.1 hsusp
      | resumeAll =>
        rcases he with ⟨hgt, _⟩ | ⟨_, k₁, hres, hor, _⟩
        · exact absurd ht.1 (Nat.ne_of_gt hgt)
        · exact Or.inl (ready_orSwitched hor (hres.wakes.woken t (Or.inl hp)).1)
      | block d => exact absurd ht hs
      | placeOnEventList q d => exact absurd ht hs
      | removeFromEventList q =>
        obtain ⟨u, hu, hplace, _⟩ := he
        cases hu.symm.trans ht
        rw [Pend, hplace] at hp
        cases hp
      | suspend u => exact absurd ht hs
      | resume u =>
        obtain ⟨rfl, _⟩ := ht
        rcases he with rfl | ⟨_, k₁, _, hwakes, _, _, hor⟩
        · exact Or.inr hp
        · exact Or.inl (ready_orSwitched hor (hwakes.woken u rfl).1)
      | resumeFromISR u =>
        obtain ⟨rfl, _⟩ := ht
        obtain ⟨hclock, rfl | ⟨_, hnot⟩⟩ := he
        · exact Or.inr hp
        · rcases hnot.woken hclock with hr | hp'
          · exact Or.inl hr
          · exact Or.inr hp'.1
      | yield => exact ht.elim
      | suspendAll => exact ht.elim
      | catchUp d => exact ht.elim
      | resetUnblockTime => exact ht.elim
    · exact Or.inr ((he.untouched ht).pend.mpr hp)
  rcases hstay with hr | hp'
  · exact Or.inl hr
  · refine Or.inr ⟨hp', fun h0 => ?_⟩
    exact (hk'.steady.quiet h0).2 _ hp'

theorem Inv.run_woken [NeZero n] {es : List (Event τ κ n)} (hk : k.Inv T)
    (hes : Runs.Along Tasks.step (fun k e => k.Allowed e ∧ ¬ Stops t k e) k es)
    (hrun : Runs.run Tasks.step k es = some k') (h : Woken k t) : Woken k' t := by
  induction es generalizing k T with
  | nil =>
    cases hrun
    exact h
  | cons e es ih =>
    obtain ⟨k₁, hk₁, hrun⟩ := Runs.run_cons.mp hrun
    obtain ⟨ha, hs⟩ := hes.1
    obtain ⟨k₂, T₁, hk₂, hinv, _, he⟩ := hk.step ha
    cases hk₁.symm.trans hk₂
    exact ih hinv (hes.2 k₁ hk₁) hrun (he.stays_woken hk hinv ha hs h)

/-- No wake-up is lost: the task that an event woke is ready as soon as the scheduler is not
suspended, and stays so until it blocks or is suspended. -/
theorem Reachable.wakeup_kept [NeZero n] {q : κ} {k₁ : Tasks τ κ n} {es : List (Event τ κ n)}
    (hk : k.Reachable) (ha : k.Allowed (.removeFromEventList q))
    (ht : k.listGetOwnerOfHeadEntry (eventList q) = some t)
    (hk₁ : k.step (.removeFromEventList q) = some k₁)
    (hes : Runs.Along Tasks.step (fun k e => k.Allowed e ∧ ¬ Stops t k e) k₁ es)
    (hrun : Runs.run Tasks.step k₁ es = some k') :
    k'.Ready t ∨ k'.Pend t ∧ k'.uxSchedulerSuspended ≠ 0 := by
  obtain ⟨T, hinv⟩ := hk.inv_of_running ha.1
  obtain ⟨k₂, T₁, hk₂, hinv₁, _, u, hu, _, _, hclock, hnot⟩ := hinv.step ha
  cases hk₁.symm.trans hk₂
  cases hu.symm.trans ht
  exact hinv₁.run_woken hes hrun (hnot.woken hclock)

instance (k : Tasks τ κ n) (t : τ) : Decidable (k.Pend t) := inferInstanceAs (Decidable (_ = _))

/-- Two tasks of different priorities wait for the queue, and the scheduler is suspended. -/
def waitBoth : List (Event (Fin 3) Unit 3) :=
  [.create 1 1, .create 2 2, .start 0, .placeOnEventList () 10, .yield, .placeOnEventList () 20,
   .yield, .suspendAll]

theorem waitBoth_along : Runs.Along Tasks.step Allowed powerUp waitBoth := by decide +kernel

/-- The event comes while the scheduler is suspended, and a tick after it. -/
theorem wakeup_kept_waitBoth : ∃ k k₁ k' : Tasks (Fin 3) Unit 3,
    Runs.run Tasks.step powerUp waitBoth = some k ∧
      k.step (.removeFromEventList ()) = some k₁ ∧ k₁.Pend 2 ∧
      Runs.run Tasks.step k₁ [.tick, .resumeAll] = some k' ∧
      (k'.Ready 2 ∨ k'.Pend 2 ∧ k'.uxSchedulerSuspended ≠ 0) := by
  obtain ⟨k, hrun, hk, ha, ht, h⟩ := Reachable.of_powerUp waitBoth_along
    (P := fun k => k.Allowed (.removeFromEventList ()) ∧
      k.listGetOwnerOfHeadEntry (eventList ()) = some 2 ∧
      (k.step (.removeFromEventList ())).any (fun k₁ => decide
        (Pend k₁ 2 ∧
          Runs.Along Tasks.step (fun k e => k.Allowed e ∧ ¬ Stops 2 k e) k₁ [.tick, .resumeAll] ∧
          (Runs.run Tasks.step k₁ [.tick, .resumeAll]).isSome)) = true)
    (by decide +kernel)
  obtain ⟨k₁, hk₁, h₁⟩ := (Option.any_eq_true _ _).mp h
  obtain ⟨hpend, hes, hsome⟩ := of_decide_eq_true h₁
  obtain ⟨k', hk'⟩ := Option.isSome_iff_exists.mp hsome
  exact ⟨k, k₁, k', hrun, hk₁, hpend, hk', hk.wakeup_kept ha ht hk₁ hes hk'⟩

/-- An event wakes a task of the highest priority among those that wait for it. -/
theorem Reachable.wakes_highest [NeZero n] {q : κ} {k₁ : Tasks τ κ n} (hn : n < 2 ^ 32)
    (hk : k.Reachable) (ha : k.Allowed (.removeFromEventList q))
    (hk₁ : k.step (.removeFromEventList q) = some k₁) :
    ∃ t, k.place (xEventListItem t) = some (eventList q) ∧
      (k₁.Ready t ∨ k₁.Pend t ∧ k₁.uxSchedulerSuspended ≠ 0) ∧
      ∀ u, k.place (xEventListItem u) = some (eventList q) → k.uxPriority u ≤ k.uxPriority t := by
  obtain ⟨T, hinv⟩ := hk.inv_of_running ha.1
  obtain ⟨k₂, T₁, hk₂, hinv₁, _, t, ht, hplace, hfirst, hclock, hnot⟩ := hinv.step ha
  cases hk₁.symm.trans hk₂
  refine ⟨t, hplace, hnot.woken hclock, fun u hu => ?_⟩
  -- the lists are sorted by how far a priority is below the highest one
  have hle := hfirst u hu
  rw [hinv.steady.priorities t (hinv.waits t _ hplace),
    hinv.steady.priorities u (hinv.waits u _ hu), BitVec.le_def, BitVec.toNat_ofNat,
    BitVec.toNat_ofNat, Nat.mod_eq_of_lt (by omega), Nat.mod_eq_of_lt (by omega)] at hle
  have hpt := (k.uxPriority t).isLt
  have hpu := (k.uxPriority u).isLt
  rw [Fin.le_def]
  omega

theorem wakes_highest_waitBoth : ∃ k k₁ : Tasks (Fin 3) Unit 3,
    Runs.run Tasks.step powerUp waitBoth = some k ∧
      k.step (.removeFromEventList ()) = some k₁ ∧
      ∃ t, k.place (xEventListItem t) = some (eventList ()) ∧
        (k₁.Ready t ∨ k₁.Pend t ∧ k₁.uxSchedulerSuspended ≠ 0) ∧
        ∀ u, k.place (xEventListItem u) = some (eventList ()) →
          k.uxPriority u ≤ k.uxPriority t := by
  obtain ⟨k, hrun, hk, ha⟩ := Reachable.of_powerUp waitBoth_along
    (P := fun k => k.Allowed (.removeFromEventList ())) (by decide +kernel)
  obtain ⟨k₁, _, hk₁, _⟩ := hk.valid.step ha
  exact ⟨k, k₁, hrun, hk₁, hk.wakes_highest (by decide) ha hk₁⟩

omit [DecidableEq τ] [DecidableEq κ] in
theorem Effect.stays_suspended [NeZero n] (hk : k.Inv T) (ha : k.Allowed e) (he : Effect k k' e)
    (hr : e ≠ .resume t) (hi : e ≠ .resumeFromISR t)
    (hz : k.place (xStateListItem t) = some xSuspendedTaskList)
    (hn : k.place (xEventListItem t) = none) :
    k'.place (xStateListItem t) = some xSuspendedTaskList ∧
      k'.place (xEventListItem t) = none := by
  have hm : t ∈ k.created := (hk.placed t).mpr ⟨_, hz⟩
  have hnr : ¬ k.Ready t := fun h => h.not_suspended hz
  by_cases ht : k.Touches t e
  · cases e with
    | create u p =>
      cases ht
      exact absurd hm ha
    | start u =>
      cases ht
      exact absurd hm ha.1
    | tick => exact absurd hz ht.2.1.not_suspended
    | resumeAll =>
      rcases ht.2 with hp | hd
      · rw [Pend, hn] at hp
        cases hp
      · exact absurd hz hd.1.not_suspended
    | block d =>
      obtain ⟨cur, hcur, hready, _⟩ := he
      cases hcur.symm.trans ht
      exact absurd hready hnr
    | placeOnEventList q d =>
      obtain ⟨cur, hcur, hready, _⟩ := he
      cases hcur.symm.trans ht
      exact absurd hready hnr
    | removeFromEventList q =>
      obtain ⟨u, hu, hplace, _⟩ := he
      cases hu.symm.trans ht
      rw [hn] at hplace
      cases hplace
    | suspend u =>
      cases ht
      exact he.2
    | resume u =>
      cases ht.1
      exact absurd rfl hr
    | resumeFromISR u =>
      cases ht.1
      exact absurd rfl hi
    | yield => exact ht.elim
    | suspendAll => exact ht.elim
    | catchUp d => exact ht.elim
    | resetUnblockTime => exact ht.elim
  · have h := he.untouched ht
    exact ⟨h.state.trans hz, h.event.trans hn⟩

/-- A suspended task is not chosen, and stays suspended, until it is resumed. -/
theorem Reachable.suspended_until_resumed [NeZero n] {es : List (Event τ κ n)} (hk : k.Reachable)
    (hz : k.prvTaskIsTaskSuspended t = true)
    (hes : Runs.Along Tasks.step
      (fun k e => k.Allowed e ∧ e ≠ .resume t ∧ e ≠ .resumeFromISR t) k es)
    (hrun : Runs.run Tasks.step k es = some k') :
    k'.prvTaskIsTaskSuspended t = true ∧
      ∃ new, k'.switchedIn = new ++ k.switchedIn ∧ ∀ p, (t, p) ∉ new := by
  rw [prvTaskIsTaskSuspended_iff] at hz ⊢
  have hinv := hk.inv_of_place hz.1
  clear hk
  induction es generalizing k with
  | nil =>
    cases hrun
    exact ⟨hz, [], rfl, by simp⟩
  | cons e es ih =>
    obtain ⟨T, hinv⟩ := hinv
    obtain ⟨k₁, hk₁, hrun⟩ := Runs.run_cons.mp hrun
    obtain ⟨ha, hr, hi⟩ := hes.1
    obtain ⟨k₂, T₁, hk₂, hinv₁, _, he⟩ := hinv.step ha
    cases hk₁.symm.trans hk₂
    have hz₁ := he.stays_suspended hinv ha hr hi hz.1 hz.2
    obtain ⟨hz', new, hnew, hnot⟩ := ih hz₁ (hes.2 k₁ hk₁) hrun ⟨T₁, hinv₁⟩
    refine ⟨hz', ?_⟩
    rcases he.chosen with hsame | ⟨u, hsw, _, hready, _⟩
    · exact ⟨new, by rw [hnew, hsame], hnot⟩
    · refine ⟨new ++ [(u, k₁.uxPriority u)], by rw [hnew, hsw, List.append_assoc]; rfl, ?_⟩
      intro p hmem
      rcases List.mem_append.mp hmem with h | h
      · exact hnot p h
      · rw [List.mem_singleton, Prod.mk.injEq] at h
        obtain ⟨rfl, _⟩ := h
        exact hready.not_suspended hz₁.1

theorem suspended_until_resumed_boot : ∃ k k' : Tasks (Fin 3) Unit 2,
    Runs.run Tasks.step powerUp (boot ++ [.suspend 1]) = some k ∧
      Runs.run Tasks.step k [.tick, .yield, .resume 2] = some k' ∧
      k'.prvTaskIsTaskSuspended 1 = true ∧
      ∃ new, k'.switchedIn = new ++ k.switchedIn ∧ ∀ p, ((1 : Fin 3), p) ∉ new := by
  obtain ⟨k, hrun, hk, hz, hes, hsome⟩ := Reachable.of_powerUp
    (by decide +kernel : Runs.Along Tasks.step Allowed powerUp (boot ++ [.suspend 1]))
    (P := fun k => k.prvTaskIsTaskSuspended 1 = true ∧
      Runs.Along Tasks.step (fun k e => k.Allowed e ∧ e ≠ .resume 1 ∧ e ≠ .resumeFromISR 1) k
        [.tick, .yield, .resume 2] ∧
      (Runs.run Tasks.step k [.tick, .yield, .resume 2]).isSome)
    (by decide +kernel)
  obtain ⟨k', hk'⟩ := Option.isSome_iff_exists.mp hsome
  exact ⟨k, k', hrun, hk', hk.suspended_until_resumed hz hes hk'⟩

end
end Tasks
end RegisterWindows.Scheduler
