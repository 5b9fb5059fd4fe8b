import RegisterWindows.Scheduler.Core

namespace RegisterWindows.Scheduler
open RegisterWindows.Scheduler.Lists

namespace Tasks
open ListItem ListId

variable {τ κ : Type} {n : Nat} {k k' : Tasks τ κ n} {t x : τ}

/-- The tasks of `W` went to their ready lists, and nothing else moved. -/
structure Wakes (W : τ → Prop) (k k' : Tasks τ κ n) : Prop where
  tasks : SameTasks k k'
  current : k'.pxCurrentTCB = k.pxCurrentTCB
  values : k'.lists.xItemValue = k.lists.xItemValue
  woken : ∀ t, W t → k'.Ready t ∧ k'.place (xEventListItem t) = none
  state : ∀ t, ¬ W t → k'.place (xStateListItem t) = k.place (xStateListItem t)
  event : ∀ t, ¬ W t → k'.place (xEventListItem t) = k.place (xEventListItem t)
  readied : ∃ new, k'.readied = new ++ k.readied ∧
    ∀ t p, (t, p) ∈ new ↔ W t ∧ p = k.uxPriority t
  switchedIn : k'.switchedIn = k.switchedIn

namespace Wakes

variable {W W' : τ → Prop} {k'' : Tasks τ κ n}

theorem refl (k : Tasks τ κ n) : Wakes (fun _ => False) k k where
  tasks := SameTasks.refl k
  current := rfl
  values := rfl
  woken _ := False.elim
  state _ _ := rfl
  event _ _ := rfl
  readied := ⟨[], rfl, by simp⟩
  switchedIn := rfl

theorem trans (h : Wakes W k k') (h' : Wakes W' k' k'') : Wakes (fun t => W t ∨ W' t) k k'' where
  tasks := h.tasks.trans h'.tasks
  current := h'.current.trans h.current
  values := h'.values.trans h.values
  woken t ht := by
    by_cases ht' : W' t
    · exact h'.woken t ht'
    · have hw := h.woken t (ht.resolve_right ht')
      refine ⟨?_, (h'.event t ht').trans hw.2⟩
      rw [Ready, h'.state t ht', h'.tasks.uxPriority]
      exact hw.1
  state t ht :=
    (h'.state t fun hw => ht (Or.inr hw)).trans (h.state t fun hw => ht (Or.inl hw))
  event t ht :=
    (h'.event t fun hw => ht (Or.inr hw)).trans (h.event t fun hw => ht (Or.inl hw))
  readied := by
    obtain ⟨new, hr, hn⟩ := h.readied
    obtain ⟨new', hr', hn'⟩ := h'.readied
    refine ⟨new' ++ new, by rw [hr', hr, List.append_assoc], fun t p => ?_⟩
    rw [List.mem_append, hn', hn, h.tasks.uxPriority, ← or_and_right, or_comm]
  switchedIn := h'.switchedIn.trans h.switchedIn

theorem congr (h : Wakes W k k') (hw : ∀ t, W t ↔ W' t) : Wakes W' k k' := by
  have he : W = W' := funext fun t => propext (hw t)
  rwa [← he]

theorem of_eq (h : Wakes W k k') (ht : SameTasks k' k'')
    (hc : k''.pxCurrentTCB = k'.pxCurrentTCB) (hl : k''.lists = k'.lists)
    (hr : k''.readied = k'.readied) (hsw : k''.switchedIn = k'.switchedIn) : Wakes W k k'' := by
  have hw : Wakes (fun _ => False) k' k'' := by
    constructor
    · exact ht
    · exact hc
    · rw [hl]
    · exact fun _ => False.elim
    · intro t _
      rw [place, hl]
    · intro t _
      rw [place, hl]
    · exact ⟨[], hr, by simp⟩
    · exact hsw
  exact (h.trans hw).congr fun t => by simp

theorem value (h : Wakes W k k') (i : ListItem τ) : k'.value i = k.value i :=
  congrFun h.values _

theorem ready_iff (h : Wakes W k k') : k'.Ready t ↔ W t ∨ k.Ready t := by
  by_cases ht : W t
  · simp [ht, (h.woken t ht).1]
  · rw [Ready, Ready, h.state t ht, h.tasks.uxPriority]
    simp [ht]

theorem state_eq (h : Wakes W k k') {l : ListId κ n} (hl : ∀ p, l ≠ pxReadyTasksLists p) :
    k'.place (xStateListItem t) = some l ↔ ¬ W t ∧ k.place (xStateListItem t) = some l := by
  by_cases ht : W t
  · have hr : k'.place (xStateListItem t) = some (pxReadyTasksLists (k'.uxPriority t)) :=
      (h.woken t ht).1
    constructor
    · intro hp
      rw [hr] at hp
      exact absurd (Option.some.inj hp).symm (hl _)
    · intro hp
      exact absurd ht hp.1
  · simp [ht, h.state t ht]

theorem delayed_iff (h : Wakes W k k') : k'.Delayed t ↔ ¬ W t ∧ k.Delayed t := by
  simp only [Delayed, h.state_eq (l := xDelayedTaskList1) (by simp),
    h.state_eq (l := xDelayedTaskList2) (by simp), ← and_or_left]

end Wakes

/-- A task that is ready waits for no event. -/
def Free (k : Tasks τ κ n) : Prop := ∀ t, k.Ready t → k.place (xEventListItem t) = none

theorem Wakes.free {W : τ → Prop} (h : Wakes W k k') (hf : Free k) : Free k' := by
  intro t ht
  by_cases hw : W t
  · exact (h.woken t hw).2
  · rw [h.event t hw]
    exact hf t ((h.ready_iff.mp ht).resolve_left hw)

/-- No wake time in the delayed list is over, and those in the overflow list come after the tick
count wrapped. -/
structure Due (k : Tasks τ κ n) : Prop where
  later : ∀ t, k.place (xStateListItem t) = some k.pxDelayedTaskList →
    k.xTickCount ≤ k.value (xStateListItem t)
  wrapped : ∀ t, k.place (xStateListItem t) = some k.pxOverflowDelayedTaskList →
    k.value (xStateListItem t) < k.xTickCount

/-- `xNextTaskUnblockTime` is not after the first wake time. -/
def Timely (k : Tasks τ κ n) : Prop :=
  ∀ t, k.place (xStateListItem t) = some k.pxDelayedTaskList →
    k.xNextTaskUnblockTime ≤ k.value (xStateListItem t)

structure Clock (k : Tasks τ κ n) : Prop where
  later : ∀ t, k.place (xStateListItem t) = some k.pxDelayedTaskList →
    k.xTickCount < k.value (xStateListItem t)
  wrapped : ∀ t, k.place (xStateListItem t) = some k.pxOverflowDelayedTaskList →
    k.value (xStateListItem t) < k.xTickCount
  timely : Timely k

/-- The tasks that are delayed at all are so with their old wake times. -/
theorem Clock.of_delayed (hc : Clock k) (hs : SameClock k k')
    (hd : ∀ t l, l = k.pxDelayedTaskList ∨ l = k.pxOverflowDelayedTaskList →
      k'.place (xStateListItem t) = some l →
      k.place (xStateListItem t) = some l ∧
        k'.value (xStateListItem t) = k.value (xStateListItem t))
    (hn : Timely k') : Clock k' where
  later t ht := by
    rw [hs.pxDelayedTaskList] at ht
    obtain ⟨hp, hv⟩ := hd t _ (Or.inl rfl) ht
    rw [hv, hs.xTickCount]
    exact hc.later t hp
  wrapped t ht := by
    rw [hs.pxOverflowDelayedTaskList] at ht
    obtain ⟨hp, hv⟩ := hd t _ (Or.inr rfl) ht
    rw [hv, hs.xTickCount]
    exact hc.wrapped t hp
  timely := hn

section
variable {T : ListId κ n → Turns (ListItem τ)}

theorem Core.delayed_ne (hk : k.Core T) (p : Fin n) :
    k.pxDelayedTaskList ≠ pxReadyTasksLists p ∧
      k.pxOverflowDelayedTaskList ≠ pxReadyTasksLists p := by
  rcases hk.delayed with ⟨hd, ho⟩ | ⟨hd, ho⟩
  · rw [hd, ho]
    simp
  · rw [hd, ho]
    simp

theorem Core.delayed_iff (hk : k.Core T) : k.Delayed t ↔
    k.place (xStateListItem t) = some k.pxDelayedTaskList ∨
      k.place (xStateListItem t) = some k.pxOverflowDelayedTaskList := by
  rcases hk.delayed with ⟨hd, ho⟩ | ⟨hd, ho⟩
  · rw [hd, ho, Delayed]
  · rw [hd, ho, Delayed, or_comm]

theorem Wakes.timely {W : τ → Prop} (h : Wakes W k k') (hk : k.Core T) (hs : SameClock k k')
    (hn : Timely k) (hu : k'.xNextTaskUnblockTime = k.xNextTaskUnblockTime) : Timely k' := by
  intro t ht
  rw [hs.pxDelayedTaskList, h.state_eq fun p => (hk.delayed_ne p).1] at ht
  rw [hu, h.value]
  exact hn t ht.2

theorem Wakes.due {W : τ → Prop} (h : Wakes W k k') (hk : k.Core T) (hs : SameClock k k')
    (hd : Due k) : Due k' where
  later t ht := by
    rw [hs.pxDelayedTaskList, h.state_eq fun p => (hk.delayed_ne p).1] at ht
    rw [hs.xTickCount, h.value]
    exact hd.later t ht.2
  wrapped t ht := by
    rw [hs.pxOverflowDelayedTaskList, h.state_eq fun p => (hk.delayed_ne p).2] at ht
    rw [hs.xTickCount, h.value]
    exact hd.wrapped t ht.2

theorem Wakes.clock {W : τ → Prop} (h : Wakes W k k') (hk : k.Core T) (hs : SameClock k k')
    (hc : Clock k) (hn : Timely k') : Clock k' := by
  refine hc.of_delayed hs ?_ hn
  intro t l hl ht
  have hne : ∀ p, l ≠ pxReadyTasksLists p := by
    intro p
    rcases hl with rfl | rfl
    · exact (hk.delayed_ne p).1
    · exact (hk.delayed_ne p).2
  rw [h.state_eq hne] at ht
  exact ⟨ht.2, h.value _⟩

end

section
variable [DecidableEq τ] [DecidableEq κ] {T R : ListId κ n → Turns (ListItem τ)}
  {h : Lists (ListItem τ) (ListId κ n)}

theorem Out.wakes (ho : Out k T t h R) (he : h.pxContainer (xEventListItem t) = none) :
    Wakes (fun u => u = t) k (prvAddTaskToReadyList { k with lists := h } t) := by
  rw [prvAddTaskToReadyList_eq]
  have hat : ∀ j, (h.vListInsertEnd (pxReadyTasksLists (k.uxPriority t))
      (xStateListItem t)).pxContainer j =
      if j = xStateListItem t then some (pxReadyTasksLists (k.uxPriority t))
      else h.pxContainer j := by
    intro j
    simp only [vListInsertEnd, contain, Function.update_apply]
  constructor
  · exact ⟨rfl, rfl, rfl, rfl, rfl⟩
  · rfl
  · exact ho.values
  · rintro u rfl
    constructor
    · simp only [Ready, place, hat, if_true]
    · simp only [place, hat]
      rw [if_neg (by simp), he]
  · intro u hu
    simp only [place, hat]
    rw [if_neg (by simpa using hu)]
    exact ho.state u hu
  · intro u hu
    simp only [place, hat]
    rw [if_neg (by simp)]
    exact ho.event u hu
  · refine ⟨[(t, k.uxPriority t)], rfl, fun u p => ?_⟩
    rw [List.mem_singleton, Prod.mk.injEq]
    constructor
    · rintro ⟨rfl, rfl⟩
      exact ⟨rfl, rfl⟩
    · rintro ⟨rfl, rfl⟩
      exact ⟨rfl, rfl⟩
  · rfl

omit [DecidableEq τ] [DecidableEq κ] in
theorem Core.isEmpty (hk : k.Core T) (l : ListId κ n) :
    k.lists.listListIsEmpty l = true ↔ ∀ i, k.place i ≠ some l := by
  rw [hk.rep.isEmpty, List.eq_nil_iff_forall_not_mem]
  simp only [hk.mem, ne_eq]

omit [DecidableEq τ] [DecidableEq κ] in
/-- The search ends at the highest priority with a ready task, if there is one. -/
theorem Core.highestReady (hk : k.Core T) {p : Nat} (hp : p < n)
    (hle : ∃ t, k.Ready t ∧ (k.uxPriority t).val ≤ p) :
    ∃ q, k.highestReady p hp = some q ∧ (∃ t, k.Ready t ∧ k.uxPriority t = q) ∧
      ∀ t, k.Ready t → (k.uxPriority t).val ≤ p → k.uxPriority t ≤ q := by
  have hempty : ∀ p, k.lists.listListIsEmpty (pxReadyTasksLists p) = true ↔
      ∀ t, k.Ready t → k.uxPriority t ≠ p := by
    intro p
    rw [hk.isEmpty]
    constructor
    · intro h t ht he
      rw [Ready, he] at ht
      exact h _ ht
    · intro h i hi
      obtain ⟨t, rfl, he⟩ := hk.fits_ready hi
      refine h t ?_ he
      rw [Ready, he]
      exact hi
  have hfound : ∀ p, ¬ k.lists.listListIsEmpty (pxReadyTasksLists p) = true →
      ∃ t, k.Ready t ∧ k.uxPriority t = p := by
    intro p h
    rw [hempty] at h
    obtain ⟨t, ht⟩ := not_forall.mp h
    obtain ⟨hr, he⟩ := Classical.not_imp.mp ht
    exact ⟨t, hr, Classical.not_not.mp he⟩
  induction p with
  | zero =>
    obtain ⟨t, ht, hz⟩ := hle
    have hpt : k.uxPriority t = ⟨0, hp⟩ := Fin.ext (Nat.le_zero.mp hz)
    refine ⟨⟨0, hp⟩, ?_, ⟨t, ht, hpt⟩, ?_⟩
    · rw [Tasks.highestReady, if_neg]
      intro he
      exact (hempty _).mp he t ht hpt
    · intro u _ hu
      exact hu
  | succ p ih =>
    rw [Tasks.highestReady]
    split
    · rename_i he
      have hbelow : ∀ t, k.Ready t → (k.uxPriority t).val ≤ p + 1 → (k.uxPriority t).val ≤ p := by
        intro t ht hle
        have hne : (k.uxPriority t).val ≠ p + 1 := fun hv => (hempty _).mp he t ht (Fin.ext hv)
        omega
      obtain ⟨t, ht, hle⟩ := hle
      obtain ⟨q, hq, hqr, hmax⟩ := ih (Nat.lt_of_succ_lt hp) ⟨t, ht, hbelow t ht hle⟩
      exact ⟨q, hq, hqr, fun u hu hle => hmax u hu (hbelow u hu hle)⟩
    · rename_i he
      exact ⟨⟨p + 1, hp⟩, rfl, hfound _ he, fun u _ hu => hu⟩

omit [DecidableEq τ] [DecidableEq κ] in
theorem highestReady_congr (hl : k'.lists = k.lists) {p : Nat} (hp : p < n) :
    k'.highestReady p hp = k.highestReady p hp := by
  induction p with
  | zero => rw [highestReady, highestReady, hl]
  | succ p ih => rw [highestReady, highestReady, hl, ih]

/-- A task of the highest priority that is ready runs next. -/
structure Selects (k k' : Tasks τ κ n) (t : τ) : Prop where
  eq : ∃ lists, k' = { k with
    lists := lists
    pxCurrentTCB := some t
    uxTopReadyPriority := k.uxPriority t
    xYieldPending := false
    switchedIn := (t, k.uxPriority t) :: k.switchedIn }
  places : k'.lists.pxContainer = k.lists.pxContainer
  values : k'.lists.xItemValue = k.lists.xItemValue
  ready : k.Ready t
  highest : ∀ u, k.Ready u → k.uxPriority u ≤ k.uxPriority t

theorem Core.select (hk : k.Core T) (hr : ∃ t, k.Ready t) :
    ∃ k' T' t, taskSelectHighestPriorityTask { k with xYieldPending := false } = some k' ∧
      Selects k k' t ∧ k'.Core T' ∧ Edits (k.book T) (k'.book T') := by
  obtain ⟨t₀, ht₀⟩ := hr
  obtain ⟨q, hq, ⟨t, ht, hpt⟩, hmax⟩ :=
    hk.highestReady k.uxTopReadyPriority.isLt ⟨t₀, ht₀, hk.top t₀ ht₀⟩
  have hhigh : ∀ u, k.Ready u → k.uxPriority u ≤ q := fun u hu => hmax u hu (hk.top u hu)
  -- the list is not empty, so that it has a next entry
  have hne : (T (pxReadyTasksLists q)).next ≠ none := by
    rw [ne_eq, Turns.next_eq_none]
    intro he
    have hm : xStateListItem t ∈ (T (pxReadyTasksLists q)).items := by
      rw [hk.mem, ← hpt]
      exact ht
    rw [he] at hm
    cases hm
  obtain ⟨⟨i, u⟩, hnext⟩ := Option.ne_none_iff_exists'.mp hne
  have hi : k.place i = some (pxReadyTasksLists q) := by
    rw [← hk.mem, ← Turns.mem_order]
    obtain ⟨r, hr, _⟩ := Turns.order_next hnext
    rw [hr]
    exact List.mem_cons_self
  obtain ⟨s, rfl, hps⟩ := hk.fits_ready hi
  obtain ⟨hentry, hrep⟩ := hk.rep.listGetOwnerOfNextEntry hnext
  set lists := (k.lists.listGetOwnerOfNextEntry (pxReadyTasksLists q)).2 with hlists
  have hsr : k.Ready s := by
    rw [Ready, hps]
    exact hi
  refine ⟨{ k with
    lists := lists
    pxCurrentTCB := some s
    uxTopReadyPriority := q
    xYieldPending := false
    switchedIn := (s, q) :: k.switchedIn }, Function.update T (pxReadyTasksLists q) u, s, ?_, ?_,
      ?_, ?_⟩
  · have hq' : Tasks.highestReady { k with xYieldPending := false } k.uxTopReadyPriority.val
        k.uxTopReadyPriority.isLt = some q := by
      rw [← hq]
      refine highestReady_congr ?_ _
      rfl
    simp only [taskSelectHighestPriorityTask, hq', Option.bind_eq_bind, Option.bind_some, hentry]
    rfl
  · subst hps
    exact ⟨⟨lists, rfl⟩, rfl, rfl, hsr, hhigh⟩
  · have hitems : ∀ l, (Function.update T (pxReadyTasksLists q) u l).items = (T l).items := by
      intro l
      by_cases hl : l = pxReadyTasksLists q
      · subst hl
        rw [Function.update_self, Turns.items_next hnext]
      · rw [Function.update_of_ne hl]
    constructor
    · exact hrep
    · intro l hl
      rw [hitems]
      exact hk.sorted l hl
    · exact hk.fits
    · exact hk.placed
    · exact hk.waits
    · exact hk.delayed
    · exact hhigh
    · intro _
      exact ⟨s, (hk.placed s).mpr ⟨_, hi⟩, rfl⟩
    · exact hk.idle
    · exact hk.number
  · exact Edits.single (Edit.select (k.book T) s q u hnext)

namespace Selects

omit [DecidableEq τ] [DecidableEq κ]

theorem sameTasks (h : Selects k k' t) : SameTasks k k' := by
  obtain ⟨lists, rfl⟩ := h.eq
  exact ⟨rfl, rfl, rfl, rfl, rfl⟩

theorem sameClock (h : Selects k k' t) : SameClock k k' := by
  obtain ⟨lists, rfl⟩ := h.eq
  exact ⟨rfl, rfl, rfl, rfl, rfl, rfl⟩

theorem current (h : Selects k k' t) : k'.pxCurrentTCB = some t := by
  obtain ⟨lists, rfl⟩ := h.eq
  rfl

theorem readied (h : Selects k k' t) : k'.readied = k.readied := by
  obtain ⟨lists, rfl⟩ := h.eq
  rfl

theorem switchedIn (h : Selects k k' t) : k'.switchedIn = (t, k.uxPriority t) :: k.switchedIn := by
  obtain ⟨lists, rfl⟩ := h.eq
  rfl

theorem xYieldPending (h : Selects k k' t) : k'.xYieldPending = false := by
  obtain ⟨lists, rfl⟩ := h.eq
  rfl

theorem xNextTaskUnblockTime (h : Selects k k' t) :
    k'.xNextTaskUnblockTime = k.xNextTaskUnblockTime := by
  obtain ⟨lists, rfl⟩ := h.eq
  rfl

end Selects

end

/-- No ready task has a higher priority than the running one. -/
def Calm (k : Tasks τ κ n) : Prop :=
  ∀ cur, k.pxCurrentTCB = some cur → ∀ t, k.Ready t → k.uxPriority t ≤ k.uxPriority cur

/-- Where it is not so, a yield is pending. -/
def Prompt (k : Tasks τ κ n) : Prop := k.xYieldPending = true ∨ Calm k

structure Healthy (k : Tasks τ κ n) (T : ListId κ n → Turns (ListItem τ)) : Prop
    extends Core k T where
  free : Free k
  clock : Clock k

/-- What `vTaskSwitchContext` does. -/
def Switched (k k' : Tasks τ κ n) : Prop :=
  (k.uxSchedulerSuspended ≠ 0 ∧ k' = { k with xYieldPending := true }) ∨
    (k.uxSchedulerSuspended = 0 ∧ ∃ t, Selects k k' t)

namespace Switched

theorem sameTasks (h : Switched k k') : SameTasks k k' := by
  rcases h with ⟨_, rfl⟩ | ⟨_, t, ht⟩
  · exact ⟨rfl, rfl, rfl, rfl, rfl⟩
  · exact ht.sameTasks

theorem sameClock (h : Switched k k') : SameClock k k' := by
  rcases h with ⟨_, rfl⟩ | ⟨_, t, ht⟩
  · exact ⟨rfl, rfl, rfl, rfl, rfl, rfl⟩
  · exact ht.sameClock

theorem places (h : Switched k k') : k'.lists.pxContainer = k.lists.pxContainer := by
  rcases h with ⟨_, rfl⟩ | ⟨_, t, ht⟩
  · rfl
  · exact ht.places

theorem values (h : Switched k k') : k'.lists.xItemValue = k.lists.xItemValue := by
  rcases h with ⟨_, rfl⟩ | ⟨_, t, ht⟩
  · rfl
  · exact ht.values

theorem readied (h : Switched k k') : k'.readied = k.readied := by
  rcases h with ⟨_, rfl⟩ | ⟨_, t, ht⟩
  · rfl
  · exact ht.readied

theorem xNextTaskUnblockTime (h : Switched k k') :
    k'.xNextTaskUnblockTime = k.xNextTaskUnblockTime := by
  rcases h with ⟨_, rfl⟩ | ⟨_, t, ht⟩
  · rfl
  · exact ht.xNextTaskUnblockTime

theorem place (h : Switched k k') (i : ListItem τ) : k'.place i = k.place i :=
  congrFun h.places i

theorem value (h : Switched k k') (i : ListItem τ) : k'.value i = k.value i :=
  congrFun h.values _

theorem ready (h : Switched k k') : k'.Ready t ↔ k.Ready t := by
  rw [Ready, Ready, h.place, h.sameTasks.uxPriority]

theorem free (h : Switched k k') (hf : Free k) : Free k' := by
  intro t ht
  rw [h.place]
  exact hf t (h.ready.mp ht)

theorem timely (h : Switched k k') (hc : Timely k) : Timely k' := by
  intro t ht
  rw [h.sameClock.pxDelayedTaskList, h.place] at ht
  rw [h.xNextTaskUnblockTime, h.value]
  exact hc t ht

theorem clock (h : Switched k k') (hc : Clock k) : Clock k' := by
  apply hc.of_delayed h.sameClock
  · intro t l _ ht
    rw [h.place] at ht
    exact ⟨ht, h.value _⟩
  · exact h.timely hc.timely

theorem calm (h : Switched k k') (hs : k.uxSchedulerSuspended = 0) : Calm k' := by
  have hp := h.sameTasks.uxPriority
  have hr := fun t => h.ready (t := t)
  rcases h with ⟨hs', _⟩ | ⟨_, t, ht⟩
  · exact absurd hs hs'
  · intro cur hc u hu
    rw [ht.current] at hc
    cases hc
    rw [hp]
    exact ht.highest u ((hr u).mp hu)

theorem prompt (h : Switched k k') : Prompt k' := by
  by_cases hs : k.uxSchedulerSuspended = 0
  · exact Or.inr (h.calm hs)
  · rcases h with ⟨_, rfl⟩ | ⟨hs', _⟩
    · exact Or.inl rfl
    · exact absurd hs' hs

end Switched

section
variable [DecidableEq τ] [DecidableEq κ] {T : ListId κ n → Turns (ListItem τ)}

theorem Healthy.vTaskSwitchContext (hk : k.Healthy T) (hr : ∃ t, k.Ready t) :
    ∃ k' T', k.vTaskSwitchContext = some k' ∧ Switched k k' ∧ k'.Healthy T' ∧
      Edits (k.book T) (k'.book T') := by
  unfold Tasks.vTaskSwitchContext
  by_cases hs : k.uxSchedulerSuspended = 0
  · obtain ⟨k', T', t, hk', ht, hcore, he⟩ := hk.toCore.select hr
    have hsw : Switched k k' := Or.inr ⟨hs, t, ht⟩
    refine ⟨k', T', ?_, hsw, ⟨hcore, hsw.free hk.free, hsw.clock hk.clock⟩, he⟩
    rw [if_neg (not_not.mpr hs), hk']
  · have hsw : Switched k { k with xYieldPending := true } := Or.inl ⟨hs, rfl⟩
    refine ⟨_, T, if_pos hs, hsw, ⟨?_, hsw.free hk.free, hsw.clock hk.clock⟩, Edits.refl _⟩
    exact hk.toCore.congr rfl hsw.sameTasks rfl (Or.inl ⟨rfl, rfl⟩) rfl

/-- A task that has just been made ready gets the processor if it should. -/
theorem Healthy.taskYield (hk : k.Healthy T) {cur : τ} (hc : k.pxCurrentTCB = some cur)
    (ht : k.Ready t) :
    ∃ k' T', k.taskYieldAnyCoreIfUsingPreemption t = some k' ∧ (k' = k ∨ Switched k k') ∧
      (k.uxPriority cur < k.uxPriority t → Switched k k') ∧ k'.Healthy T' ∧
      Edits (k.book T) (k'.book T') := by
  rw [taskYieldAnyCoreIfUsingPreemption, hc, Option.bind_eq_bind, Option.bind_some]
  by_cases hlt : k.uxPriority cur < k.uxPriority t
  · obtain ⟨k', T', hk', hsw, hh, he⟩ := hk.vTaskSwitchContext ⟨t, ht⟩
    exact ⟨k', T', (if_pos hlt).trans hk', Or.inr hsw, fun _ => hsw, hh, he⟩
  · exact ⟨k, T, if_neg hlt, Or.inl rfl, fun h => absurd h hlt, hk, Edits.refl _⟩

end
end Tasks
end RegisterWindows.Scheduler
