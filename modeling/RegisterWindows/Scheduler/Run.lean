import Mathlib.Data.BitVec
import RegisterWindows.Lib.Run
import RegisterWindows.Scheduler.Step

namespace RegisterWindows.Scheduler
open RegisterWindows.Scheduler.Lists

namespace Tasks
open ListItem ListId

variable {τ κ : Type} {n : Nat} {k k' : Tasks τ κ n} {t : τ}

/-- The tasks whose place an event may change. -/
def Touches (k : Tasks τ κ n) (t : τ) : Event τ κ n → Prop
  | .create u _ => u = t
  | .start u => u = t
  | .tick => k.uxSchedulerSuspended = 0 ∧ k.Dawn 1 t
  | .resumeAll => k.uxSchedulerSuspended = 1 ∧ (k.Pend t ∨ k.Dawn k.xPendedTicks.toNat t)
  | .block _ => k.pxCurrentTCB = some t
  | .placeOnEventList _ _ => k.pxCurrentTCB = some t
  | .removeFromEventList e => k.listGetOwnerOfHeadEntry (eventList e) = some t
  | .suspend u => u = t
  | .resume u => u = t ∧ k.place (xStateListItem t) = some xSuspendedTaskList
  | .resumeFromISR u => u = t ∧ k.place (xStateListItem t) = some xSuspendedTaskList
  | _ => False

/-- A task stays where it is. -/
structure Untouched (t : τ) (k k' : Tasks τ κ n) : Prop where
  uxPriority : k'.uxPriority t = k.uxPriority t
  state : k'.place (xStateListItem t) = k.place (xStateListItem t)
  event : k'.place (xEventListItem t) = k.place (xEventListItem t)
  value : k'.value (xStateListItem t) = k.value (xStateListItem t)

namespace Untouched

theorem refl (t : τ) (k : Tasks τ κ n) : Untouched t k k := ⟨rfl, rfl, rfl, rfl⟩

theorem trans {k'' : Tasks τ κ n} (h : Untouched t k k') (h' : Untouched t k' k'') :
    Untouched t k k'' :=
  ⟨h'.1.trans h.1, h'.2.trans h.2, h'.3.trans h.3, h'.4.trans h.4⟩

theorem of_switched (h : Switched k k') : Untouched t k k' :=
  ⟨congrFun h.sameTasks.uxPriority t, h.place _, h.place _, h.value _⟩

theorem of_wakes {W : τ → Prop} (h : Wakes W k k') (ht : ¬ W t) : Untouched t k k' :=
  ⟨congrFun h.tasks.uxPriority t, h.state t ht, h.event t ht, h.value _⟩

theorem of_parks {u : τ} (h : Parks u k k') (ht : t ≠ u) : Untouched t k k' :=
  ⟨congrFun h.tasks.uxPriority t, h.state t ht, h.event t ht, h.values _ (by simpa using ht)⟩

theorem of_notified {u : τ} (h : Notified u k k') (ht : t ≠ u) : Untouched t k k' := by
  rcases h with ⟨_, hw⟩ | ⟨_, hp⟩
  · exact of_wakes hw ht
  · exact ⟨congrFun hp.tasks.uxPriority t, hp.state t, hp.event t ht, congrFun hp.values _⟩

theorem of_adds {u : τ} {p : Fin n} (h : Adds u p k k') (ht : t ≠ u) : Untouched t k k' :=
  ⟨h.priorities t ht, h.places (xStateListItem t) ht, h.places (xEventListItem t) ht,
    h.values (xStateListItem t) ht⟩

theorem orSwitched {k₁ : Tasks τ κ n} (h : Untouched t k k₁) (hor : k' = k₁ ∨ Switched k₁ k') :
    Untouched t k k' := by
  rcases hor with rfl | hsw
  · exact h
  · exact h.trans (of_switched hsw)

end Untouched

theorem Effect.untouched [NeZero n] {e : Event τ κ n} (he : Effect k k' e) (ht : ¬ k.Touches t e) :
    Untouched t k k' := by
  cases e with
  | create u p =>
    obtain ⟨k₁, hadds, hor⟩ := he
    exact (Untouched.of_adds hadds (Ne.symm ht)).orSwitched hor
  | start u =>
    obtain ⟨k₁, k₂, hadds, hor, rfl⟩ := he
    have h := (Untouched.of_adds hadds (Ne.symm ht)).orSwitched hor
    exact ⟨h.uxPriority, h.state, h.event, h.value⟩
  | tick =>
    rcases he with ⟨_, rfl⟩ | ⟨h0, k₁, hwakes, _, _, hor, _⟩
    · exact ⟨rfl, rfl, rfl, rfl⟩
    · exact (Untouched.of_wakes hwakes fun hd => ht ⟨h0, hd⟩).orSwitched hor
  | yield => exact Untouched.of_switched he
  | suspendAll =>
    subst he
    exact ⟨rfl, rfl, rfl, rfl⟩
  | resumeAll =>
    rcases he with ⟨_, rfl⟩ | ⟨h1, k₁, hres, hor, _⟩
    · exact ⟨rfl, rfl, rfl, rfl⟩
    · exact (Untouched.of_wakes hres.wakes fun hw => ht ⟨h1, hw⟩).orSwitched hor
  | catchUp d =>
    subst he
    exact ⟨rfl, rfl, rfl, rfl⟩
  | block d =>
    obtain ⟨cur, hc, _, _, hparks, _⟩ := he
    apply Untouched.of_parks hparks
    rintro rfl
    exact ht hc
  | placeOnEventList e d =>
    obtain ⟨cur, hc, _, _, hparks, _⟩ := he
    apply Untouched.of_parks hparks
    rintro rfl
    exact ht hc
  | removeFromEventList e =>
    obtain ⟨u, hu, _, _, _, hnot⟩ := he
    apply Untouched.of_notified hnot
    rintro rfl
    exact ht hu
  | suspend u => exact Untouched.of_parks he.1 (Ne.symm ht)
  | resetUnblockTime =>
    obtain ⟨u, rfl⟩ := he
    exact ⟨rfl, rfl, rfl, rfl⟩
  | resume u =>
    rcases he with rfl | ⟨hp, k₁, _, hwakes, _, _, hor⟩
    · exact Untouched.refl t _
    · refine (Untouched.of_wakes hwakes ?_).orSwitched hor
      rintro rfl
      exact ht ⟨rfl, hp⟩
  | resumeFromISR u =>
    obtain ⟨_, rfl | ⟨hp, hnot⟩⟩ := he
    · exact Untouched.refl t _
    · apply Untouched.of_notified hnot
      rintro rfl
      exact ht ⟨rfl, hp⟩

/-- Where a task was chosen, it is a ready one, and none of a higher priority is ready. -/
def Chosen (k k' : Tasks τ κ n) : Prop :=
  k'.switchedIn = k.switchedIn ∨ ∃ t, k'.switchedIn = (t, k'.uxPriority t) :: k.switchedIn ∧
    k'.pxCurrentTCB = some t ∧ k'.Ready t ∧ Calm k'

theorem Switched.chosen (h : Switched k k') : Chosen k k' := by
  have hr := fun t => h.ready (t := t)
  have hp := h.sameTasks.uxPriority
  have hcalm := h.calm
  rcases h with ⟨_, rfl⟩ | ⟨h0, t, ht⟩
  · exact Or.inl rfl
  · refine Or.inr ⟨t, ?_, ht.current, (hr t).mpr ht.ready, hcalm h0⟩
    rw [hp]
    exact ht.switchedIn

theorem Chosen.of_or {k₁ : Tasks τ κ n} (hs : k₁.switchedIn = k.switchedIn)
    (hor : k' = k₁ ∨ Switched k₁ k') : Chosen k k' := by
  rcases hor with rfl | hsw
  · exact Or.inl hs
  · rw [Chosen, ← hs]
    exact hsw.chosen

theorem Notified.switchedIn (h : Notified t k k') : k'.switchedIn = k.switchedIn := by
  rcases h with ⟨_, hw⟩ | ⟨_, hp⟩
  · exact hw.switchedIn
  · exact hp.switchedIn

theorem Effect.chosen [NeZero n] {e : Event τ κ n} (he : Effect k k' e) : Chosen k k' := by
  cases e with
  | create u p =>
    obtain ⟨k₁, hadds, hor⟩ := he
    exact Chosen.of_or hadds.switchedIn hor
  | start u =>
    obtain ⟨k₁, k₂, hadds, hor, rfl⟩ := he
    have h : Chosen k k₂ := Chosen.of_or hadds.switchedIn hor
    exact h
  | tick =>
    rcases he with ⟨_, rfl⟩ | ⟨h0, k₁, hwakes, _, _, hor, _⟩
    · exact Or.inl rfl
    · exact Chosen.of_or hwakes.switchedIn hor
  | yield => exact Switched.chosen he
  | suspendAll =>
    subst he
    exact Or.inl rfl
  | resumeAll =>
    rcases he with ⟨_, rfl⟩ | ⟨h1, k₁, hres, hor, _⟩
    · exact Or.inl rfl
    · exact Chosen.of_or hres.wakes.switchedIn hor
  | catchUp d =>
    subst he
    exact Or.inl rfl
  | block d =>
    obtain ⟨cur, hc, _, _, hparks, _⟩ := he
    exact Or.inl hparks.switchedIn
  | placeOnEventList e d =>
    obtain ⟨cur, hc, _, _, hparks, _⟩ := he
    exact Or.inl hparks.switchedIn
  | removeFromEventList e =>
    obtain ⟨u, hu, _, _, _, hnot⟩ := he
    exact Or.inl hnot.switchedIn
  | suspend u => exact Or.inl he.1.switchedIn
  | resetUnblockTime =>
    obtain ⟨u, rfl⟩ := he
    exact Or.inl rfl
  | resume u =>
    rcases he with rfl | ⟨hp, k₁, _, hwakes, _, _, hor⟩
    · exact Or.inl rfl
    · exact Chosen.of_or hwakes.switchedIn hor
  | resumeFromISR u =>
    obtain ⟨_, rfl | ⟨hp, hnot⟩⟩ := he
    · exact Or.inl rfl
    · exact Or.inl hnot.switchedIn

/-- The ticks that an event makes up for. -/
def passed (k : Tasks τ κ n) : Event τ κ n → Nat
  | .tick => if k.uxSchedulerSuspended = 0 then 1 else 0
  | .resumeAll => if k.uxSchedulerSuspended = 1 then k.xPendedTicks.toNat else 0
  | _ => 0

/-- The ticks that occur by an event. -/
def elapsed : Event τ κ n → TickType
  | .tick => 1
  | .catchUp d => d
  | _ => 0

/-- The clock advances by the ticks that an event makes up for, and no tick that occurs is lost:
it is counted, or pending. -/
structure Elapses (e : Event τ κ n) (k k' : Tasks τ κ n) : Prop where
  ticks : k'.ticks = k.ticks + k.passed e
  pended : k'.xTickCount + k'.xPendedTicks = k.xTickCount + k.xPendedTicks + elapsed e

theorem SameClock.elapses {e : Event τ κ n} (h : SameClock k k') (hp : k.passed e = 0)
    (he : elapsed e = 0) : Elapses e k k' := by
  refine ⟨by rw [h.ticks, hp, Nat.add_zero], ?_⟩
  rw [h.xTickCount, h.xPendedTicks, he]
  exact (BitVec.add_zero _).symm

theorem SameClock.orSwitched {k₁ : Tasks τ κ n} (h : SameClock k k₁)
    (hor : k' = k₁ ∨ Switched k₁ k') : SameClock k k' := by
  rcases hor with rfl | hsw
  · exact h
  · exact h.trans hsw.sameClock

variable {T : ListId κ n → Turns (ListItem τ)}

theorem Effect.elapses [NeZero n] (hk : k.Inv T) {e : Event τ κ n} (ha : k.Allowed e)
    (he : Effect k k' e) : Elapses e k k' := by
  cases e with
  | create u p =>
    obtain ⟨k₁, hadds, hor⟩ := he
    exact (hadds.clock.orSwitched hor).elapses rfl rfl
  | start u =>
    obtain ⟨k₁, k₂, hadds, hor, rfl⟩ := he
    have hs := (hadds.clock.orSwitched hor).elapses (e := .start u) rfl rfl
    obtain ⟨_, _, ht0⟩ := hk.steady.before ha.2
    have hx : k.xTickCount = 0 := by
      rw [hk.steady.time, ht0]
      rfl
    have hx₂ : k₂.xTickCount = 0 := (hadds.clock.orSwitched hor).xTickCount.trans hx
    refine ⟨hs.ticks, ?_⟩
    rw [← hs.pended, hx₂]
    rfl
  | tick =>
    rcases he with ⟨hne, rfl⟩ | ⟨h0, k₁, _, htick, hpend, hor, _⟩
    · refine ⟨?_, ?_⟩
      · rw [passed, if_neg hne, Nat.add_zero]
      · exact (BitVec.add_assoc _ _ _).symm
    · have hs : SameClock k₁ k' := (SameClock.refl k₁).orSwitched hor
      refine ⟨?_, ?_⟩
      · rw [passed, if_pos h0, hs.ticks, htick.ticks]
      · rw [hs.xTickCount, hs.xPendedTicks, htick.xTickCount, hpend, BitVec.add_assoc,
        BitVec.add_assoc]
        exact congrArg _ (BitVec.add_comm _ _)
  | yield => exact (Switched.sameClock he).elapses rfl rfl
  | suspendAll =>
    subst he
    exact ⟨rfl, (BitVec.add_zero _).symm⟩
  | resumeAll =>
    rcases he with ⟨hgt, rfl⟩ | ⟨h1, k₁, hres, hor, _⟩
    · refine ⟨?_, (BitVec.add_zero _).symm⟩
      rw [passed, if_neg (by omega), Nat.add_zero]
    · have hs : SameClock k₁ k' := (SameClock.refl k₁).orSwitched hor
      refine ⟨?_, ?_⟩
      · rw [passed, if_pos h1, hs.ticks, hres.ticks]
      · rw [hs.xTickCount, hs.xPendedTicks, hres.xTickCount, hres.xPendedTicks]
        rfl
  | catchUp d =>
    subst he
    exact ⟨rfl, (BitVec.add_assoc _ _ _).symm⟩
  | block d =>
    obtain ⟨cur, hc, _, _, hparks, _⟩ := he
    exact hparks.clock.elapses rfl rfl
  | placeOnEventList e d =>
    obtain ⟨cur, hc, _, _, hparks, _⟩ := he
    exact hparks.clock.elapses rfl rfl
  | removeFromEventList e =>
    obtain ⟨u, hu, _, _, hclock, _⟩ := he
    exact hclock.elapses rfl rfl
  | suspend u => exact he.1.clock.elapses rfl rfl
  | resetUnblockTime =>
    obtain ⟨u, rfl⟩ := he
    exact ⟨rfl, (BitVec.add_zero _).symm⟩
  | resume u =>
    rcases he with rfl | ⟨hp, k₁, _, _, hclock, _, hor⟩
    · exact (SameClock.refl _).elapses rfl rfl
    · exact (hclock.orSwitched hor).elapses rfl rfl
  | resumeFromISR u => exact he.1.elapses rfl rfl

/-- What holds between two events, from power-up on. -/
def Valid (k : Tasks τ κ n) : Prop := k.Reset ∨ ∃ T, k.Inv T

theorem Reset.allowed (hk : k.Reset) {e : Event τ κ n} (he : k.Allowed e) :
    (∃ t p, e = .create t p) ∨ ∃ t, e = .start t := by
  have hno : ∀ {P : Prop}, k.xSchedulerRunning = true ∧ P → False := by
    intro P h
    exact absurd (hk.xSchedulerRunning.symm.trans h.1) (by simp)
  have hno' : k.xSchedulerRunning ≠ true := by
    rw [hk.xSchedulerRunning]
    simp
  cases e with
  | create t p => exact Or.inl ⟨t, p, rfl⟩
  | start t => exact Or.inr ⟨t, rfl⟩
  | tick => exact absurd he hno'
  | yield => exact absurd he hno'
  | suspendAll => exact absurd he hno'
  | resumeAll => exact (hno he).elim
  | catchUp d => exact (hno he).elim
  | block d => exact (hno he).elim
  | placeOnEventList e d => exact (hno he).elim
  | removeFromEventList e => exact (hno he).elim
  | suspend t => exact (hno he).elim
  | resetUnblockTime => exact absurd he hno'
  | resume t => exact absurd he hno'
  | resumeFromISR t => exact absurd he hno'

section
variable [DecidableEq τ] [DecidableEq κ]

theorem Reset.step [NeZero n] (hk : k.Reset) {e : Event τ κ n} (he : k.Allowed e) :
    ∃ k' T', k.step e = some k' ∧ k'.Inv T' ∧ Elapses e k k' := by
  rcases hk.allowed he with ⟨t, p, rfl⟩ | ⟨t, rfl⟩
  · obtain ⟨k', T', hk', hinv, _, _, hticks, hpend⟩ := hk.xTaskCreateStatic t p
    refine ⟨k', T', hk', hinv, hticks.trans hk.ticks.symm, ?_⟩
    rw [hinv.steady.time, hticks, hpend, hk.xTickCount, hk.xPendedTicks]
    rfl
  · obtain ⟨k', T', hk', hinv, hticks, hpend⟩ := hk.vTaskStartScheduler t
    refine ⟨k', T', hk', hinv, hticks.trans hk.ticks.symm, ?_⟩
    rw [hinv.steady.time, hticks, hpend, hk.xTickCount, hk.xPendedTicks]
    rfl

theorem Valid.step [NeZero n] (hk : k.Valid) {e : Event τ κ n} (he : k.Allowed e) :
    ∃ k' T', k.step e = some k' ∧ k'.Inv T' ∧ Elapses e k k' := by
  rcases hk with hk | ⟨T, hk⟩
  · exact hk.step he
  · obtain ⟨k', T', hk', hinv, _, heff⟩ := hk.step he
    exact ⟨k', T', hk', hinv, heff.elapses hk he⟩

/-- No operation gets stuck in any run, and the invariant holds at its end. -/
theorem Valid.run [NeZero n] {es : List (Event τ κ n)} (hk : k.Valid)
    (hes : Runs.Along Tasks.step Allowed k es) :
    ∃ k', Runs.run Tasks.step k es = some k' ∧ k'.Valid ∧
      k'.xTickCount + k'.xPendedTicks =
        k.xTickCount + k.xPendedTicks + (es.map elapsed).sum := by
  induction es generalizing k with
  | nil => exact ⟨k, rfl, hk, (BitVec.add_zero _).symm⟩
  | cons e es ih =>
    obtain ⟨k₁, T₁, hk₁, hinv, hel⟩ := hk.step hes.1
    obtain ⟨k', hk', hv, hsum⟩ := ih (Or.inr ⟨T₁, hinv⟩) (hes.2 k₁ hk₁)
    refine ⟨k', Runs.run_cons.mpr ⟨k₁, hk₁, hk'⟩, hv, ?_⟩
    rw [hsum, hel.pended, List.map_cons, List.sum_cons, BitVec.add_assoc]

/-- The states that events lead to from power-up. -/
def Reachable [NeZero n] (k : Tasks τ κ n) : Prop :=
  ∃ (k₀ : Tasks τ κ n) (es : List (Event τ κ n)), k₀.Reset ∧ Runs.Along Tasks.step Allowed k₀ es ∧
    Runs.run Tasks.step k₀ es = some k

theorem Reachable.valid [NeZero n] (hk : k.Reachable) : k.Valid := by
  obtain ⟨k₀, es, hr, hes, hrun⟩ := hk
  obtain ⟨k', hk', hv, _⟩ := Valid.run (Or.inl hr) hes
  cases hk'.symm.trans hrun
  exact hv

theorem Reachable.inv_of_running [NeZero n] (hk : k.Reachable) (hr : k.xSchedulerRunning = true) :
    ∃ T, k.Inv T := by
  rcases hk.valid with hr' | h
  · rw [hr'.xSchedulerRunning] at hr
    cases hr
  · exact h

theorem Reachable.inv_of_place [NeZero n] {i : ListItem τ} {l : ListId κ n} (hk : k.Reachable)
    (hi : k.place i = some l) : ∃ T, k.Inv T := by
  rcases hk.valid with hr | h
  · rw [hr.items] at hi
    cases hi
  · exact h

omit [DecidableEq τ] [DecidableEq κ] in
/-- The variables as the C startup leaves them. A pointer that is still `NULL` is never followed,
and stands here for itself. -/
def powerUp [NeZero n] : Tasks τ κ n where
  lists := ⟨⟨id, id⟩, fun _ => portMaxDelay, fun _ => none, fun _ => 0, Node.xListEnd⟩
  uxPriority := fun _ => 0
  pxCurrentTCB := none
  pxDelayedTaskList := xDelayedTaskList1
  pxOverflowDelayedTaskList := xDelayedTaskList2
  uxCurrentNumberOfTasks := 0
  xTickCount := 0
  uxTopReadyPriority := 0
  xSchedulerRunning := false
  xPendedTicks := 0
  xYieldPending := false
  xNumOfOverflows := 0
  xNextTaskUnblockTime := 0
  uxSchedulerSuspended := 0
  xIdleTaskHandle := none
  created := []
  switchedIn := []
  readied := []
  ticks := 0

omit [DecidableEq τ] [DecidableEq κ] in
theorem powerUp_reset [NeZero n] : (powerUp : Tasks τ κ n).Reset :=
  ⟨rfl, rfl, rfl, rfl, rfl, rfl, rfl, rfl, rfl, fun _ => rfl, fun _ => ⟨rfl, rfl, rfl, rfl, rfl⟩⟩

/-- A test of the state that some events lead to. -/
theorem Reachable.of_powerUp [NeZero n] {es : List (Event τ κ n)} {P : Tasks τ κ n → Prop}
    [DecidablePred P] (hes : Runs.Along Tasks.step Allowed powerUp es)
    (h : (Runs.run Tasks.step powerUp es).any (fun k => decide (P k)) = true) :
    ∃ k, Runs.run Tasks.step powerUp es = some k ∧ k.Reachable ∧ P k := by
  obtain ⟨k, hk, hp⟩ := (Option.any_eq_true _ _).mp h
  exact ⟨k, hk, ⟨powerUp, es, powerUp_reset, hes, hk⟩, of_decide_eq_true hp⟩

/-- In no run does an operation get stuck: its assertions hold, the pointers it follows lead to
items, and its loops end. It leaves every list linked both ways, sorted where it should be, and
holding what belongs there. -/
theorem Reachable.completes [NeZero n] (hk : k.Reachable) {e : Event τ κ n} (he : k.Allowed e) :
    ∃ k' T', k.step e = some k' ∧ k'.Inv T' := by
  obtain ⟨k', T', hk', hinv, _⟩ := hk.valid.step he
  exact ⟨k', T', hk', hinv⟩

instance neZero_task : NeZero 3 := ⟨by decide⟩

/-- Three tasks, of which the first is the idle task. -/
def boot : List (Event (Fin 3) Unit 2) := [.create 1 1, .create 2 1, .start 0]

theorem boot_along : Runs.Along Tasks.step Allowed powerUp boot := by decide +kernel

theorem completes_boot : ∃ k : Tasks (Fin 3) Unit 2, Runs.run Tasks.step powerUp boot = some k ∧
    ∃ k' T', k.step (.block 5) = some k' ∧ k'.Inv T' := by
  obtain ⟨k, hrun, hk, he⟩ := Reachable.of_powerUp boot_along
    (P := fun k => k.Allowed (.block 5)) (by decide +kernel)
  exact ⟨k, hrun, hk.completes he⟩

/-- Whatever happens, a task of the highest priority runs, or a yield is pending. -/
theorem Reachable.runs_highest [NeZero n] (hk : k.Reachable) (hr : k.xSchedulerRunning = true)
    (hy : k.xYieldPending = false) : ∃ cur ∈ k.created, k.pxCurrentTCB = some cur ∧
      ∀ t, k.Ready t → k.uxPriority t ≤ k.uxPriority cur := by
  obtain ⟨T, hinv⟩ := hk.inv_of_running hr
  obtain ⟨cur, hc, hm⟩ := hinv.cur hr
  refine ⟨cur, hm, hc, ?_⟩
  rcases hinv.prompt with hp | hcalm
  · rw [hy] at hp
    cases hp
  · exact hcalm cur hc

theorem runs_highest_boot : ∃ k : Tasks (Fin 3) Unit 2, Runs.run Tasks.step powerUp boot = some k ∧
    ∃ cur ∈ k.created, k.pxCurrentTCB = some cur ∧
      ∀ t, k.Ready t → k.uxPriority t ≤ k.uxPriority cur := by
  obtain ⟨k, hrun, hk, hr, hy⟩ := Reachable.of_powerUp boot_along
    (P := fun k => k.xSchedulerRunning = true ∧ k.xYieldPending = false) (by decide +kernel)
  exact ⟨k, hrun, hk.runs_highest hr hy⟩

/-- After a tick, a yield or the last resume no ready task has a higher priority than the one that
runs, so that no pended yield is forgotten. -/
theorem Reachable.decided [NeZero n] {e : Event τ κ n} (hk : k.Reachable) (ha : k.Allowed e)
    (he : e = .tick ∨ e = .yield ∨ e = .resumeAll) (hk' : k.step e = some k')
    (h0 : k'.uxSchedulerSuspended = 0) :
    ∃ cur ∈ k'.created, k'.pxCurrentTCB = some cur ∧
      ∀ t, k'.Ready t → k'.uxPriority t ≤ k'.uxPriority cur := by
  have hr : k.xSchedulerRunning = true := by
    rcases he with rfl | rfl | rfl
    · exact ha
    · exact ha
    · exact ha.1
  obtain ⟨T, hinv⟩ := hk.inv_of_running hr
  obtain ⟨k₁, T', hk₁, hinv', _, heff⟩ := hinv.step ha
  cases hk'.symm.trans hk₁
  have hcalm : Calm k' := by
    rcases he with rfl | rfl | rfl
    · rcases heff with ⟨hne, rfl⟩ | ⟨_, k₀, _, _, _, _, hcalm, _⟩
      · exact absurd h0 hne
      · exact hcalm
    · have hsw : Switched k k' := heff
      exact hsw.calm (hsw.sameClock.uxSchedulerSuspended.symm.trans h0)
    · rcases heff with ⟨hgt, rfl⟩ | ⟨_, k₀, _, _, hcalm⟩
      · have h0' : k.uxSchedulerSuspended - 1 = 0 := h0
        omega
      · exact hcalm
  obtain ⟨cur, hm, hc⟩ := hinv'.steady.present
  exact ⟨cur, hm, hc, hcalm cur hc⟩

theorem decided_boot : ∃ k k' : Tasks (Fin 3) Unit 2, Runs.run Tasks.step powerUp boot = some k ∧
    k.step .tick = some k' ∧ ∃ cur ∈ k'.created, k'.pxCurrentTCB = some cur ∧
      ∀ t, k'.Ready t → k'.uxPriority t ≤ k'.uxPriority cur := by
  obtain ⟨k, hrun, hk, ha, h⟩ := Reachable.of_powerUp boot_along
    (P := fun k => k.Allowed .tick ∧
      (k.step .tick).any (fun k' => decide (k'.uxSchedulerSuspended = 0)) = true)
    (by decide +kernel)
  obtain ⟨k', hk', h0⟩ := (Option.any_eq_true _ _).mp h
  exact ⟨k, k', hrun, hk', hk.decided ha (Or.inl rfl) hk' (of_decide_eq_true h0)⟩

/-- No tick is lost: all ticks since power-up are counted or pending, and where the scheduler is not
suspended they are counted. -/
theorem Reset.ticks_conserved [NeZero n] {es : List (Event τ κ n)} (hk : k.Reset)
    (hes : Runs.Along Tasks.step Allowed k es) (hrun : Runs.run Tasks.step k es = some k') :
    k'.xTickCount + k'.xPendedTicks = (es.map elapsed).sum ∧
      (k'.uxSchedulerSuspended = 0 → k'.xTickCount = (es.map elapsed).sum) := by
  obtain ⟨k₁, hk₁, hv, hsum⟩ := Valid.run (Or.inl hk) hes
  cases hrun.symm.trans hk₁
  have hall : k'.xTickCount + k'.xPendedTicks = (es.map elapsed).sum := by
    rw [hsum, hk.xTickCount, hk.xPendedTicks]
    exact BitVec.zero_add _
  refine ⟨hall, fun h0 => ?_⟩
  have hp : k'.xPendedTicks = 0 := by
    rcases hv with hr | ⟨T, hinv⟩
    · exact hr.xPendedTicks
    · exact (hinv.steady.quiet h0).1
  rw [← hall, hp]
  exact (BitVec.add_zero _).symm

/-- Ticks occur while the scheduler is suspended. -/
def pendTicks : List (Event (Fin 3) Unit 2) :=
  boot ++ [.suspendAll, .tick, .catchUp 5, .resumeAll, .tick]

theorem ticks_conserved_pendTicks : ∃ k : Tasks (Fin 3) Unit 2,
    Runs.run Tasks.step powerUp pendTicks = some k ∧
      k.xTickCount + k.xPendedTicks = (pendTicks.map elapsed).sum ∧
      (k.uxSchedulerSuspended = 0 → k.xTickCount = (pendTicks.map elapsed).sum) := by
  have hes : Runs.Along Tasks.step Allowed (powerUp : Tasks (Fin 3) Unit 2) pendTicks := by
    decide +kernel
  obtain ⟨k, hk, _⟩ := Valid.run (Or.inl powerUp_reset) hes
  exact ⟨k, hk, powerUp_reset.ticks_conserved hes hk⟩

end
end Tasks
end RegisterWindows.Scheduler
