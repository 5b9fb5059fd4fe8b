import RegisterWindows.Scheduler.Wait

namespace RegisterWindows.Scheduler
open RegisterWindows.Scheduler.Lists

namespace Tasks
open ListItem ListId

variable {τ κ : Type} {n : Nat} {k k' : Tasks τ κ n} {t : τ}

/-- The variables as they are before any task was created. The lists of the queues are those that
`xQueueGenericReset` initialised, and the TCBs are zero. -/
structure Reset (k : Tasks τ κ n) : Prop where
  pxCurrentTCB : k.pxCurrentTCB = none
  uxCurrentNumberOfTasks : k.uxCurrentNumberOfTasks = 0
  xTickCount : k.xTickCount = 0
  xSchedulerRunning : k.xSchedulerRunning = false
  xPendedTicks : k.xPendedTicks = 0
  xYieldPending : k.xYieldPending = false
  uxSchedulerSuspended : k.uxSchedulerSuspended = 0
  created : k.created = []
  ticks : k.ticks = 0
  items : ∀ i, k.place i = none
  queues : ∀ e, k.lists.Initialised (eventList e)

/-- What the variables of the scheduler say about each other once there is a task. -/
structure Steady (k : Tasks τ κ n) : Prop where
  present : ∃ t ∈ k.created, k.pxCurrentTCB = some t
  quiet : k.uxSchedulerSuspended = 0 →
    k.xPendedTicks = 0 ∧ ∀ i, k.place i ≠ some xPendingReadyList
  time : k.xTickCount = BitVec.ofNat 32 k.ticks
  priorities : ∀ t ∈ k.created,
    k.value (xEventListItem t) = BitVec.ofNat 32 (n - (k.uxPriority t).val)
  before : k.xSchedulerRunning = false → (∀ t ∈ k.created, k.Ready t) ∧
    k.uxSchedulerSuspended = 0 ∧ k.ticks = 0

/-- What holds before and after every operation. -/
structure Inv (k : Tasks τ κ n) (T : ListId κ n → Turns (ListItem τ)) : Prop
    extends Healthy k T where
  steady : Steady k
  prompt : Prompt k

theorem Switched.steady (h : Switched k k') {T : ListId κ n → Turns (ListItem τ)} (hk : k.Healthy T)
    (hs : Steady k) : Steady k' := by
  have htasks := h.sameTasks
  have hclock := h.sameClock
  constructor
  · rw [htasks.created]
    rcases h with ⟨_, rfl⟩ | ⟨_, t, ht⟩
    · exact hs.present
    · exact ⟨t, (hk.placed t).mpr ⟨_, ht.ready⟩, ht.current⟩
  · rw [hclock.uxSchedulerSuspended, hclock.xPendedTicks]
    intro h0
    refine ⟨(hs.quiet h0).1, fun i => ?_⟩
    rw [h.place]
    exact (hs.quiet h0).2 i
  · rw [hclock.xTickCount, hclock.ticks]
    exact hs.time
  · intro t ht
    rw [htasks.created] at ht
    rw [h.value, htasks.uxPriority]
    exact hs.priorities t ht
  · rw [htasks.xSchedulerRunning, htasks.created, hclock.uxSchedulerSuspended, hclock.ticks]
    intro hr
    refine ⟨fun t ht => h.ready.mpr ((hs.before hr).1 t ht), (hs.before hr).2⟩

/-- A task is new, and ready. -/
structure Adds (t : τ) (p : Fin n) (k k' : Tasks τ κ n) : Prop where
  created : k'.created = t :: k.created
  uxPriority : k'.uxPriority t = p
  priorities : ∀ u, u ≠ t → k'.uxPriority u = k.uxPriority u
  xSchedulerRunning : k'.xSchedulerRunning = k.xSchedulerRunning
  xIdleTaskHandle : k'.xIdleTaskHandle = k.xIdleTaskHandle
  clock : SameClock k k'
  xYieldPending : k'.xYieldPending = k.xYieldPending
  ready : k'.Ready t
  event : k'.place (xEventListItem t) = none
  places : ∀ i, i.owner ≠ t → k'.place i = k.place i
  values : ∀ i, i.owner ≠ t → k'.value i = k.value i
  waits : k'.value (xEventListItem t) = BitVec.ofNat 32 (n - p.val)
  readied : k'.readied = (t, p) :: k.readied
  switchedIn : k'.switchedIn = k.switchedIn

namespace Adds

variable {p : Fin n}

theorem ready_iff (h : Adds t p k k') {u : τ} (hu : u ≠ t) : k'.Ready u ↔ k.Ready u := by
  rw [Ready, Ready, h.places (xStateListItem u) hu, h.priorities u hu]

theorem free (h : Adds t p k k') (hf : Free k) : Free k' := by
  intro u hu
  by_cases he : u = t
  · rw [he]
    exact h.event
  · rw [h.places (xEventListItem u) he]
    exact hf u ((h.ready_iff he).mp hu)

theorem delayed {u : τ} {l : ListId κ n} (h : Adds t p k k') (hl : ∀ q, l ≠ pxReadyTasksLists q)
    (hu : k'.place (xStateListItem u) = some l) : u ≠ t ∧ k.place (xStateListItem u) = some l := by
  by_cases he : u = t
  · subst he
    have hr : k'.place (xStateListItem u) = some (pxReadyTasksLists (k'.uxPriority u)) := h.ready
    rw [hr] at hu
    exact absurd (Option.some.inj hu).symm (hl _)
  · refine ⟨he, ?_⟩
    rwa [h.places (xStateListItem u) he] at hu

end Adds

section
variable [DecidableEq τ] [DecidableEq κ] {T : ListId κ n → Turns (ListItem τ)} {p : Fin n}

omit [DecidableEq τ] [DecidableEq κ] in
theorem Core.fresh (hk : k.Core T) (ht : t ∉ k.created) :
    k.place (xStateListItem t) = none ∧ k.place (xEventListItem t) = none := by
  constructor
  · by_contra hne
    obtain ⟨l, hl⟩ := Option.ne_none_iff_exists'.mp hne
    exact ht ((hk.placed t).mpr ⟨l, hl⟩)
  · by_contra hne
    obtain ⟨l, hl⟩ := Option.ne_none_iff_exists'.mp hne
    exact ht (hk.waits t l hl)

theorem prvInitialiseNewTask_places (hs : k.place (xStateListItem t) = none)
    (he : k.place (xEventListItem t) = none) :
    (k.prvInitialiseNewTask t p).lists.pxContainer = k.lists.pxContainer := by
  have h1 : Function.update k.lists.pxContainer (xStateListItem t) none = k.lists.pxContainer := by
    rw [← hs]
    exact Function.update_eq_self _ _
  have h2 : Function.update k.lists.pxContainer (xEventListItem t) none = k.lists.pxContainer := by
    rw [← he]
    exact Function.update_eq_self _ _
  simp only [prvInitialiseNewTask, listSetListItemValue, vListInitialiseItem, h1, h2]

theorem prvInitialiseNewTask_value {i : ListItem τ} (hi : i ≠ xEventListItem t) :
    (k.prvInitialiseNewTask t p).value i = k.value i := by
  have hne : Node.item (ℓ := ListId κ n) i ≠ Node.item (xEventListItem t) :=
    fun he => hi (item_injective he)
  simp only [value, prvInitialiseNewTask, listSetListItemValue, vListInitialiseItem]
  exact Function.update_of_ne hne _ _

theorem prvInitialiseNewTask_eventValue :
    (k.prvInitialiseNewTask t p).value (xEventListItem t) = BitVec.ofNat 32 (n - p.val) := by
  simp [value, prvInitialiseNewTask, listSetListItemValue, vListInitialiseItem]

theorem prvInitialiseNewTask_priority {u : τ} (hu : u ≠ t) :
    (k.prvInitialiseNewTask t p).uxPriority u = k.uxPriority u :=
  Function.update_of_ne hu _ _

/-- The new TCB does not show in the lists yet. -/
theorem Core.prvInitialiseNewTask (hk : k.Core T) (ht : t ∉ k.created) :
    (k.prvInitialiseNewTask t p).Core T := by
  obtain ⟨hs, he⟩ := hk.fresh ht
  have hplaces := prvInitialiseNewTask_places (p := p) hs he
  have hnone : ∀ i l, i ∈ (T l).items → i ≠ xEventListItem t ∧ i ≠ xStateListItem t := by
    intro i l hi
    rw [hk.mem] at hi
    constructor
    · rintro rfl
      rw [he] at hi
      cases hi
    · rintro rfl
      rw [hs] at hi
      cases hi
  have hprio : ∀ u l, k.place (xStateListItem u) = some l →
      (k.prvInitialiseNewTask t p).uxPriority u = k.uxPriority u := by
    intro u l hu
    apply prvInitialiseNewTask_priority
    rintro rfl
    rw [hs] at hu
    cases hu
  constructor
  · obtain ⟨ring, index, number, container, endValue⟩ := hk.rep
    refine ⟨ring, index, number, ?_, ?_⟩
    · rwa [hplaces]
    · intro l
      have hne : Node.xListEnd (ι := ListItem τ) l ≠ Node.item (xEventListItem t) := by simp
      have hv : (k.prvInitialiseNewTask t p).lists.xItemValue (Node.xListEnd l) =
          k.lists.xItemValue (Node.xListEnd l) := by
        simp only [Tasks.prvInitialiseNewTask, listSetListItemValue, vListInitialiseItem]
        exact Function.update_of_ne hne _ _
      rw [hv, endValue]
  · intro l hl
    apply (hk.sorted l hl).imp_of_mem
    intro a b ha hb hab
    rwa [prvInitialiseNewTask_value (hnone a l ha).1, prvInitialiseNewTask_value (hnone b l hb).1]
  · intro i l hi
    rw [place, hplaces] at hi
    have hf := hk.fits i l hi
    cases i with
    | xStateListItem u =>
      have hp := hprio u l hi
      cases l with
      | pxReadyTasksLists q => exact hp.trans hf
      | _ => exact hf
    | xEventListItem u =>
      cases l with
      | pxReadyTasksLists q => exact hf
      | _ => exact hf
  · intro u
    rw [place, hplaces]
    exact hk.placed u
  · intro u l hu
    rw [place, hplaces] at hu
    exact hk.waits u l hu
  · exact hk.delayed
  · intro u hu
    rw [Ready, place, hplaces] at hu
    rw [hprio u _ hu] at hu ⊢
    exact hk.top u hu
  · exact hk.current
  · intro hr
    obtain ⟨u, hu, hru⟩ := hk.idle hr
    refine ⟨u, hu, ?_⟩
    rw [Ready, place, hplaces, hprio u _ hru]
    exact hru
  · exact hk.number

/-- The state once a new task is in its ready list. -/
def added (k : Tasks τ κ n) (t : τ) (c : Option τ) : Tasks τ κ n :=
  prvAddTaskToReadyList { k with
    uxCurrentNumberOfTasks := k.uxCurrentNumberOfTasks + 1
    created := t :: k.created
    pxCurrentTCB := c } t

theorem Core.added (hk : k.Core T) (ht : t ∉ k.created) (c : Option τ)
    (hc : k.xSchedulerRunning = true → ∃ u ∈ t :: k.created, c = some u) :
    ∃ T', (k.added t c).Core T' ∧ Edits (k.book T) ((k.added t c).book T') := by
  obtain ⟨hs, he⟩ := hk.fresh ht
  have hrep := hk.rep.vListInsertEnd hs (pxReadyTasksLists (k.uxPriority t))
  rw [Tasks.added, prvAddTaskToReadyList_eq]
  set k' : Tasks τ κ n := { k with
    lists := k.lists.vListInsertEnd (pxReadyTasksLists (k.uxPriority t)) (xStateListItem t)
    uxTopReadyPriority :=
      if k.uxPriority t > k.uxTopReadyPriority then k.uxPriority t else k.uxTopReadyPriority
    readied := (t, k.uxPriority t) :: k.readied
    uxCurrentNumberOfTasks := k.uxCurrentNumberOfTasks + 1
    created := t :: k.created
    pxCurrentTCB := c } with hk'
  have hat : ∀ i, k'.place i =
      if i = xStateListItem t then some (pxReadyTasksLists (k.uxPriority t)) else k.place i := by
    intro i
    simp only [place, hk', vListInsertEnd, contain, Function.update_apply]
  have htop : k.uxTopReadyPriority ≤ k'.uxTopReadyPriority ∧
      k.uxPriority t ≤ k'.uxTopReadyPriority := by
    rw [hk']
    dsimp only
    split
    · rename_i hlt
      exact ⟨Nat.le_of_lt hlt, Nat.le_refl _⟩
    · rename_i hnlt
      exact ⟨Nat.le_refl _, Nat.le_of_not_lt hnlt⟩
  refine ⟨_, ?_, Edits.single (Edit.ready (k.book T) t (k.uxPriority t))⟩
  constructor
  · exact hrep
  · intro l hl
    have hne : l ≠ pxReadyTasksLists (k.uxPriority t) := by
      rintro rfl
      exact hl
    rw [Function.update_of_ne hne]
    exact hk.sorted l hl
  · intro i l hi
    rw [hat] at hi
    split at hi
    · rename_i hit
      cases hi
      rw [hit]
      rfl
    · exact hk.fits i l hi
  · intro u
    rw [hat]
    change u ∈ t :: k.created ↔ _
    by_cases hu : u = t
    · subst hu
      simp
    · rw [List.mem_cons, if_neg (by simpa using hu)]
      simp only [hu, false_or]
      exact hk.placed u
  · intro u l hu
    rw [hat, if_neg (by simp)] at hu
    exact List.mem_cons_of_mem t (hk.waits u l hu)
  · exact hk.delayed
  · intro u hu
    rw [Ready, hat] at hu
    change k.uxPriority u ≤ _
    split at hu
    · rename_i hut
      rw [ListItem.xStateListItem.inj hut]
      exact htop.2
    · exact Nat.le_trans (hk.top u hu) htop.1
  · exact hc
  · intro hr
    obtain ⟨u, hu, hru⟩ := hk.idle hr
    refine ⟨u, hu, ?_⟩
    have hne : xStateListItem u ≠ xStateListItem t := by
      intro hut
      rw [Ready, hut, hs] at hru
      cases hru
    rw [Ready, hat, if_neg hne]
    exact hru
  · change k.uxCurrentNumberOfTasks + 1 = (t :: k.created).length
    rw [hk.number, List.length_cons]

theorem added_adds (c : Option τ) (he : k.place (xEventListItem t) = none)
    (hw : k.value (xEventListItem t) = BitVec.ofNat 32 (n - (k.uxPriority t).val)) :
    Adds t (k.uxPriority t) k (k.added t c) ∧ (k.added t c).pxCurrentTCB = c := by
  rw [added, prvAddTaskToReadyList_eq]
  have hat : ∀ i, (k.lists.vListInsertEnd (pxReadyTasksLists (k.uxPriority t))
      (xStateListItem t)).pxContainer i =
      if i = xStateListItem t then some (pxReadyTasksLists (k.uxPriority t)) else k.place i := by
    intro i
    simp only [place, vListInsertEnd, contain, Function.update_apply]
  refine ⟨⟨rfl, rfl, fun _ _ => rfl, rfl, rfl, ⟨rfl, rfl, rfl, rfl, rfl, rfl⟩, rfl, ?_, ?_, ?_,
    fun _ _ => rfl, hw, rfl, rfl⟩, rfl⟩
  · simp only [Ready, place, hat, if_true]
  · simp only [place, hat]
    rw [if_neg (by simp)]
    exact he
  · intro i hi
    simp only [place, hat]
    rw [if_neg]
    rintro rfl
    exact hi rfl

theorem Healthy.added (hk : k.Healthy T) (ht : t ∉ k.created) (c : Option τ)
    (hc : k.xSchedulerRunning = true → ∃ u ∈ t :: k.created, c = some u) :
    ∃ T', ((k.prvInitialiseNewTask t p).added t c).Healthy T' ∧
      Edits (k.book T) (((k.prvInitialiseNewTask t p).added t c).book T') ∧
      Adds t p k ((k.prvInitialiseNewTask t p).added t c) ∧
      ((k.prvInitialiseNewTask t p).added t c).pxCurrentTCB = c := by
  obtain ⟨hs, he⟩ := hk.fresh ht
  set k₀ := k.prvInitialiseNewTask t p with hk₀
  have hcore₀ : k₀.Core T := hk.toCore.prvInitialiseNewTask ht
  have hplaces : k₀.lists.pxContainer = k.lists.pxContainer := prvInitialiseNewTask_places hs he
  have hplace : ∀ i, k₀.place i = k.place i := fun i => congrFun hplaces i
  have hp : k₀.uxPriority t = p := Function.update_self _ _ _
  have hw : k₀.value (xEventListItem t) = BitVec.ofNat 32 (n - (k₀.uxPriority t).val) := by
    rw [hp]
    exact prvInitialiseNewTask_eventValue
  obtain ⟨T', hcore, hedits⟩ := hcore₀.added ht c hc
  obtain ⟨ha, hcur⟩ := added_adds (k := k₀) c ((hplace _).trans he) hw
  rw [hp] at ha
  set k₁ := k₀.added t c
  have hadds : Adds t p k k₁ := by
    constructor
    · exact ha.created
    · exact ha.uxPriority
    · intro u hu
      rw [ha.priorities u hu]
      exact prvInitialiseNewTask_priority hu
    · exact ha.xSchedulerRunning
    · exact ha.xIdleTaskHandle
    · have h₀ : SameClock k k₀ := ⟨rfl, rfl, rfl, rfl, rfl, rfl⟩
      exact h₀.trans ha.clock
    · exact ha.xYieldPending
    · exact ha.ready
    · exact ha.event
    · intro i hi
      rw [ha.places i hi, hplace]
    · intro i hi
      rw [ha.values i hi]
      apply prvInitialiseNewTask_value
      rintro rfl
      exact hi rfl
    · exact ha.waits
    · exact ha.readied
    · exact ha.switchedIn
  refine ⟨T', ⟨hcore, hadds.free hk.free, ?_⟩, hedits, hadds, hcur⟩
  have hnext : k₁.xNextTaskUnblockTime = k.xNextTaskUnblockTime := by
    change (k₀.added t c).xNextTaskUnblockTime = _
    rw [Tasks.added, prvAddTaskToReadyList_eq]
    rfl
  apply hk.clock.of_delayed hadds.clock
  · intro u l hl hu
    have hne : ∀ q, l ≠ pxReadyTasksLists q := by
      intro q
      rcases hl with rfl | rfl
      · exact (hk.delayed_ne q).1
      · exact (hk.delayed_ne q).2
    obtain ⟨hut, hu'⟩ := hadds.delayed hne hu
    exact ⟨hu', hadds.values (xStateListItem u) hut⟩
  · intro u hu
    rw [hadds.clock.pxDelayedTaskList] at hu
    obtain ⟨hut, hu'⟩ := hadds.delayed (fun q => (hk.delayed_ne q).1) hu
    rw [hnext, hadds.values (xStateListItem u) hut]
    exact hk.clock.timely u hu'

omit [DecidableEq τ] [DecidableEq κ] in
theorem Adds.steady (h : Adds t p k k') (hs : Steady k) (ht : t ∉ k.created)
    (hc : ∃ u ∈ t :: k.created, k'.pxCurrentTCB = some u) : Steady k' := by
  have hne : ∀ u ∈ k.created, u ≠ t := by
    rintro u hu rfl
    exact ht hu
  constructor
  · rwa [h.created]
  · rw [h.clock.uxSchedulerSuspended, h.clock.xPendedTicks]
    intro h0
    refine ⟨(hs.quiet h0).1, fun i hi => ?_⟩
    by_cases he : i.owner = t
    · cases i with
      | xStateListItem u =>
        have hr : k'.place (xStateListItem t) = some (pxReadyTasksLists (k'.uxPriority t)) :=
          h.ready
        rw [show u = t from he, hr] at hi
        cases hi
      | xEventListItem u =>
        rw [show u = t from he, h.event] at hi
        cases hi
    · rw [h.places i he] at hi
      exact (hs.quiet h0).2 i hi
  · rw [h.clock.xTickCount, h.clock.ticks]
    exact hs.time
  · intro u hu
    rw [h.created] at hu
    rcases List.mem_cons.mp hu with rfl | hu
    · rw [h.uxPriority]
      exact h.waits
    · rw [h.values (xEventListItem u) (hne u hu), h.priorities u (hne u hu)]
      exact hs.priorities u hu
  · rw [h.xSchedulerRunning, h.clock.uxSchedulerSuspended, h.clock.ticks]
    intro hr
    refine ⟨fun u hu => ?_, (hs.before hr).2⟩
    rw [h.created] at hu
    rcases List.mem_cons.mp hu with rfl | hu
    · exact h.ready
    · exact (h.ready_iff (hne u hu)).mpr ((hs.before hr).1 u hu)

theorem adoptTask_some {cur : τ} (hc : k.pxCurrentTCB = some cur) :
    k.adoptTask t = { k with
      pxCurrentTCB := (if k.xSchedulerRunning = false ∧ k.uxPriority cur ≤ k.uxPriority t
        then some t
        else some cur) } := by
  rw [adoptTask, hc]
  dsimp only
  split
  · rfl
  · rw [← hc]

/-- Before the start the new task becomes the current one unless its priority is lower; after
it, it gets the processor at once if its priority is higher. -/
theorem xTaskCreateStatic_eq {cur : τ} (hc : k.pxCurrentTCB = some cur) (hne : cur ≠ t) :
    k.xTaskCreateStatic t p =
      if k.xSchedulerRunning = true then
        ((k.prvInitialiseNewTask t p).added t (some cur)).taskYieldAnyCoreIfUsingPreemption t
      else some ((k.prvInitialiseNewTask t p).added t
        (if k.uxPriority cur ≤ p then some t else some cur)) := by
  set k₀ := k.prvInitialiseNewTask t p with hk₀
  have hadd : ∀ c, (k₀.added t c).xSchedulerRunning = k.xSchedulerRunning := by
    intro c
    rw [added, prvAddTaskToReadyList_eq]
    rfl
  have hprio : k₀.uxPriority cur = k.uxPriority cur ∧ k₀.uxPriority t = p :=
    ⟨prvInitialiseNewTask_priority hne, Function.update_self _ _ _⟩
  have heq : k.xTaskCreateStatic t p =
      if (k₀.added t (if k.xSchedulerRunning = false ∧ k.uxPriority cur ≤ p then some t
        else some cur)).xSchedulerRunning = true then
        (k₀.added t (if k.xSchedulerRunning = false ∧ k.uxPriority cur ≤ p then some t
          else some cur)).taskYieldAnyCoreIfUsingPreemption t
      else some (k₀.added t (if k.xSchedulerRunning = false ∧ k.uxPriority cur ≤ p then some t
        else some cur)) := by
    set k₁ : Tasks τ κ n := { k₀ with
      uxCurrentNumberOfTasks := k₀.uxCurrentNumberOfTasks + 1
      created := t :: k₀.created } with hk₁
    have hc₁ : k₁.pxCurrentTCB = some cur := hc
    rw [xTaskCreateStatic, ← hk₀, prvAddNewTaskToReadyList, ← hk₁, adoptTask_some hc₁, ← hprio.1,
      ← hprio.2]
    rfl
  rw [heq, hadd]
  cases hr : k.xSchedulerRunning with
  | true => simp
  | false => simp

theorem Inv.xTaskCreateStatic (hk : k.Inv T) (ht : t ∉ k.created) (p : Fin n) :
    ∃ k₁ k' T', k.xTaskCreateStatic t p = some k' ∧ k'.Inv T' ∧ Edits (k.book T) (k'.book T') ∧
      Adds t p k k₁ ∧ (k' = k₁ ∨ Switched k₁ k') := by
  obtain ⟨cur, hmem, hc⟩ := hk.steady.present
  have hne : cur ≠ t := by
    rintro rfl
    exact ht hmem
  have hmem' : cur ∈ t :: k.created := List.mem_cons_of_mem t hmem
  rw [xTaskCreateStatic_eq hc hne]
  cases hr : k.xSchedulerRunning with
  | true =>
    obtain ⟨T₁, hh, hedits, hadds, hc₁⟩ :=
      hk.toHealthy.added (p := p) ht (some cur) fun _ => ⟨cur, hmem', rfl⟩
    set k₁ := (k.prvInitialiseNewTask t p).added t (some cur)
    have hsteady := hadds.steady hk.steady ht ⟨cur, hmem', hc₁⟩
    obtain ⟨k', T', hy, hor, hlt, hh', hedits'⟩ := hh.taskYield hc₁ hadds.ready
    refine ⟨k₁, k', T', (if_pos rfl).trans hy, ⟨hh', ?_, ?_⟩, hedits.trans hedits', hadds, hor⟩
    · rcases hor with rfl | hsw
      · exact hsteady
      · exact hsw.steady hh hsteady
    · by_cases hhigh : k₁.uxPriority cur < k₁.uxPriority t
      · exact (hlt hhigh).prompt
      · rcases hor with rfl | hsw
        · rcases hk.prompt with hp | hcalm
          · exact Or.inl (hadds.xYieldPending.trans hp)
          · refine Or.inr fun c hcc u hu => ?_
            cases hc₁.symm.trans hcc
            by_cases hut : u = t
            · rw [hut]
              exact Nat.le_of_not_lt hhigh
            · rw [hadds.priorities u hut, hadds.priorities cur hne]
              exact hcalm cur hc u ((hadds.ready_iff hut).mp hu)
        · exact hsw.prompt
  | false =>
    have hstop : k.xSchedulerRunning = true → ∃ u ∈ t :: k.created,
        (if k.uxPriority cur ≤ p then some t else some cur) = some u := by
      intro h
      rw [hr] at h
      cases h
    obtain ⟨T₁, hh, hedits, hadds, hc₁⟩ := hk.toHealthy.added (p := p) ht _ hstop
    set k₁ := (k.prvInitialiseNewTask t p).added t
      (if k.uxPriority cur ≤ p then some t else some cur)
    refine ⟨k₁, k₁, T₁, if_neg (by simp), ⟨hh, ?_, ?_⟩, hedits, hadds, Or.inl rfl⟩
    · apply hadds.steady hk.steady ht
      rw [hc₁]
      split
      · exact ⟨t, List.mem_cons_self, rfl⟩
      · exact ⟨cur, hmem', rfl⟩
    · rcases hk.prompt with hp | hcalm
      · exact Or.inl (hadds.xYieldPending.trans hp)
      · refine Or.inr fun c hcc u hu => ?_
        have hold : u ≠ t → k.uxPriority u ≤ k.uxPriority cur :=
          fun hut => hcalm cur hc u ((hadds.ready_iff hut).mp hu)
        rw [hc₁] at hcc
        split at hcc
        · rename_i hle
          cases hcc
          by_cases hut : u = t
          · subst hut
            exact Nat.le_refl _
          · rw [hadds.priorities u hut, hadds.uxPriority]
            exact Nat.le_trans (hold hut) hle
        · rename_i hgt
          cases hcc
          rw [hadds.priorities cur hne]
          by_cases hut : u = t
          · rw [hut, hadds.uxPriority]
            exact Nat.le_of_lt (Nat.lt_of_not_le hgt)
          · rw [hadds.priorities u hut]
            exact hold hut

theorem foldl_initialised (ps : List (Fin n)) {h : Lists (ListItem τ) (ListId κ n)} {l : ListId κ n}
    (hl : h.Initialised l ∨ ∃ p ∈ ps, l = pxReadyTasksLists p) :
    (ps.foldl (fun h p => h.vListInitialise (pxReadyTasksLists p)) h).Initialised l := by
  induction ps generalizing h with
  | nil =>
    rcases hl with hl | ⟨p, hp, _⟩
    · exact hl
    · cases hp
  | cons p ps ih =>
    apply ih
    rcases hl with hl | ⟨q, hq, rfl⟩
    · exact Or.inl (hl.vListInitialise _)
    · rcases List.mem_cons.mp hq with rfl | hq
      · exact Or.inl (vListInitialise_initialised h _)
      · exact Or.inr ⟨q, hq, rfl⟩

theorem foldl_places (ps : List (Fin n)) (h : Lists (ListItem τ) (ListId κ n)) :
    (ps.foldl (fun h p => h.vListInitialise (pxReadyTasksLists p)) h).pxContainer =
      h.pxContainer := by
  induction ps generalizing h with
  | nil => rfl
  | cons p ps ih => exact ih _

/-- All the lists of the tasks are initialised, and those of the queues stay so. -/
theorem prvInitialiseTaskLists_initialised (hq : ∀ e, k.lists.Initialised (eventList e))
    (l : ListId κ n) : k.prvInitialiseTaskLists.lists.Initialised l := by
  unfold prvInitialiseTaskLists
  cases l with
  | pxReadyTasksLists p =>
    have h := foldl_initialised (List.finRange n) (h := k.lists)
      (Or.inr ⟨p, List.mem_finRange p, rfl⟩)
    exact (((h.vListInitialise _).vListInitialise _).vListInitialise _).vListInitialise _
  | xDelayedTaskList1 =>
    exact (((vListInitialise_initialised _ _).vListInitialise _).vListInitialise
      _).vListInitialise _
  | xDelayedTaskList2 =>
    exact ((vListInitialise_initialised _ _).vListInitialise _).vListInitialise _
  | xPendingReadyList => exact (vListInitialise_initialised _ _).vListInitialise _
  | xSuspendedTaskList => exact vListInitialise_initialised _ _
  | eventList e =>
    have h := foldl_initialised (List.finRange n) (Or.inl (hq e))
    exact (((h.vListInitialise _).vListInitialise _).vListInitialise _).vListInitialise _

theorem prvInitialiseTaskLists_places (k : Tasks τ κ n) :
    k.prvInitialiseTaskLists.lists.pxContainer = k.lists.pxContainer :=
  foldl_places _ _

theorem prvInitialiseTaskLists_value (k : Tasks τ κ n) (i : ListItem τ) :
    k.prvInitialiseTaskLists.value i = k.value i := by
  have hone : ∀ (h : Lists (ListItem τ) (ListId κ n)) l,
      (h.vListInitialise l).xItemValue (Node.item i) = h.xItemValue (Node.item i) := by
    intro h l
    simp only [vListInitialise]
    exact Function.update_of_ne (by simp) _ _
  have hall : ∀ (ps : List (Fin n)) (h : Lists (ListItem τ) (ListId κ n)),
      (ps.foldl (fun h p => h.vListInitialise (pxReadyTasksLists p)) h).xItemValue (Node.item i) =
        h.xItemValue (Node.item i) := by
    intro ps
    induction ps with
    | nil => exact fun h => rfl
    | cons p ps ih => exact fun h => (ih _).trans (hone h _)
  simp only [value, prvInitialiseTaskLists, hone, hall]

/-- The first task finds all lists initialised, and empty. -/
theorem Reset.core (hk : k.Reset) :
    (k.prvInitialiseNewTask t p).prvInitialiseTaskLists.Core fun _ => Turns.empty := by
  set k₁ := k.prvInitialiseNewTask t p with hk₁
  have hplaces : ∀ i, k₁.prvInitialiseTaskLists.place i = none := by
    intro i
    rw [place, prvInitialiseTaskLists_places, hk₁,
      prvInitialiseNewTask_places (hk.items _) (hk.items _)]
    exact hk.items i
  have hq : ∀ e, k₁.lists.Initialised (eventList e) := by
    intro e
    obtain ⟨hn, hp, hi, hu, hv⟩ := hk.queues e
    refine ⟨hn, hp, hi, hu, ?_⟩
    have hne : Node.xListEnd (ι := ListItem τ) (eventList (n := n) e) ≠
        Node.item (xEventListItem t) := by simp
    rw [hk₁]
    simp only [prvInitialiseNewTask, listSetListItemValue, vListInitialiseItem]
    rw [Function.update_of_ne hne, hv]
  constructor
  · exact Represents.of_initialised (prvInitialiseTaskLists_initialised hq) hplaces
  · intro l _
    exact List.Pairwise.nil
  · intro i l hi
    rw [hplaces] at hi
    cases hi
  · intro u
    have hc : k₁.prvInitialiseTaskLists.created = [] := hk.created
    rw [hc, hplaces]
    simp
  · intro u l hu
    rw [hplaces] at hu
    cases hu
  · exact Or.inl ⟨rfl, rfl⟩
  · intro u hu
    rw [Ready, hplaces] at hu
    cases hu
  · intro hr
    exact absurd (hk.xSchedulerRunning.symm.trans hr) (by simp)
  · intro hr
    exact absurd (hk.xSchedulerRunning.symm.trans hr) (by simp)
  · have hc : k₁.prvInitialiseTaskLists.created = [] := hk.created
    have hn : k₁.prvInitialiseTaskLists.uxCurrentNumberOfTasks = 0 := hk.uxCurrentNumberOfTasks
    rw [hc, hn]
    rfl

theorem Reset.xTaskCreateStatic_eq (hk : k.Reset) (t : τ) (p : Fin n) :
    k.xTaskCreateStatic t p =
      some ((k.prvInitialiseNewTask t p).prvInitialiseTaskLists.added t (some t)) := by
  set k₁ := k.prvInitialiseNewTask t p with hk₁
  set k₂ : Tasks τ κ n := { k₁ with
    uxCurrentNumberOfTasks := k₁.uxCurrentNumberOfTasks + 1
    created := t :: k₁.created } with hk₂
  have hone : k₂.uxCurrentNumberOfTasks = 1 := congrArg (· + 1) hk.uxCurrentNumberOfTasks
  have hc : k₂.pxCurrentTCB = none := hk.pxCurrentTCB
  have hadopt : k₂.adoptTask t = prvInitialiseTaskLists { k₂ with pxCurrentTCB := some t } := by
    rw [adoptTask, hc]
    exact if_pos hone
  have hrun : (k₁.prvInitialiseTaskLists.added t (some t)).xSchedulerRunning = false := by
    rw [added, prvAddTaskToReadyList_eq]
    exact hk.xSchedulerRunning
  rw [xTaskCreateStatic, ← hk₁, prvAddNewTaskToReadyList, ← hk₂, hadopt]
  exact if_neg (by rw [Bool.not_eq_true]; exact hrun)

/-- The first task is the current one. -/
theorem Reset.xTaskCreateStatic (hk : k.Reset) (t : τ) (p : Fin n) :
    ∃ k' T', k.xTaskCreateStatic t p = some k' ∧ k'.Inv T' ∧ k'.created = [t] ∧
      k'.xSchedulerRunning = false ∧ k'.ticks = 0 ∧ k'.xPendedTicks = 0 := by
  set k₀ := (k.prvInitialiseNewTask t p).prvInitialiseTaskLists with hk₀
  have hcore := hk.core (t := t) (p := p)
  have hplace : ∀ i, k₀.place i = none := by
    intro i
    cases hi : k₀.place i with
    | none => rfl
    | some l =>
      have hm := hcore.mem.mpr hi
      cases hm
  have hcreated : k₀.created = [] := hk.created
  have hp : k₀.uxPriority t = p := Function.update_self _ _ _
  have hw : k₀.value (xEventListItem t) = BitVec.ofNat 32 (n - (k₀.uxPriority t).val) := by
    rw [hp, hk₀, prvInitialiseTaskLists_value]
    exact prvInitialiseNewTask_eventValue
  obtain ⟨T', hcore', _⟩ := hcore.added (t := t) (by rw [hcreated]; simp) (some t)
    fun _ => ⟨t, List.mem_cons_self, rfl⟩
  obtain ⟨ha, hcur⟩ := added_adds (k := k₀) (some t) (hplace _) hw
  rw [hp] at ha
  set k' := k₀.added t (some t)
  have hother : ∀ i l, k'.place i = some l → i = xStateListItem t ∧ l = pxReadyTasksLists p := by
    intro i l hi
    by_cases ho : i.owner = t
    · cases i with
      | xStateListItem u =>
        have hu : u = t := ho
        subst hu
        have hr : k'.place (xStateListItem u) = some (pxReadyTasksLists (k'.uxPriority u)) :=
          ha.ready
        rw [ha.uxPriority] at hr
        rw [hr] at hi
        exact ⟨rfl, (Option.some.inj hi).symm⟩
      | xEventListItem u =>
        have hu : u = t := ho
        subst hu
        rw [ha.event] at hi
        cases hi
    · rw [ha.places i ho, hplace] at hi
      cases hi
  have hc' : k'.created = [t] := by
    rw [ha.created, hcreated]
  have hrun : k'.xSchedulerRunning = false := ha.xSchedulerRunning.trans hk.xSchedulerRunning
  have hticks : k'.ticks = 0 := ha.clock.ticks.trans hk.ticks
  have hcount : k'.xTickCount = 0 := ha.clock.xTickCount.trans hk.xTickCount
  have hpend : k'.xPendedTicks = 0 := ha.clock.xPendedTicks.trans hk.xPendedTicks
  have hdel : ∀ u, k'.place (xStateListItem u) ≠ some k'.pxDelayedTaskList ∧
      k'.place (xStateListItem u) ≠ some k'.pxOverflowDelayedTaskList := by
    intro u
    constructor
    · intro hu
      exact (hcore'.delayed_ne p).1 (hother _ _ hu).2
    · intro hu
      exact (hcore'.delayed_ne p).2 (hother _ _ hu).2
  refine ⟨k', T', hk.xTaskCreateStatic_eq t p, ⟨⟨hcore', ?_, ?_⟩, ?_, ?_⟩, hc', hrun, hticks, hpend⟩
  · intro u _
    cases hu : k'.place (xEventListItem u) with
    | none => rfl
    | some l => cases (hother _ _ hu).1
  · exact ⟨fun u hu => absurd hu (hdel u).1, fun u hu => absurd hu (hdel u).2,
      fun u hu => absurd hu (hdel u).1⟩
  · constructor
    · exact ⟨t, by rw [hc']; exact List.mem_cons_self, hcur⟩
    · intro _
      refine ⟨hpend, fun i hi => ?_⟩
      cases (hother _ _ hi).2
    · rw [hcount, hticks]
      rfl
    · intro u hu
      rw [hc', List.mem_singleton] at hu
      rw [hu, ha.uxPriority]
      exact ha.waits
    · intro _
      refine ⟨fun u hu => ?_, ha.clock.uxSchedulerSuspended.trans hk.uxSchedulerSuspended, hticks⟩
      rw [hc', List.mem_singleton] at hu
      rw [hu]
      exact ha.ready
  · refine Or.inr fun c hcc u hu => ?_
    rw [hcur] at hcc
    cases hcc
    cases (hother _ _ hu).1
    exact Nat.le_refl _

/-- The last stores of `vTaskStartScheduler`. -/
def started (k : Tasks τ κ n) (t : τ) : Tasks τ κ n :=
  { k with
    xIdleTaskHandle := some t
    xNextTaskUnblockTime := portMaxDelay
    xSchedulerRunning := true
    xTickCount := 0 }

omit [DecidableEq τ] [DecidableEq κ] in
theorem Inv.started (hk : k.Inv T) (ht : t ∈ k.created) (hr : k.xSchedulerRunning = false) :
    (k.started t).Inv T := by
  obtain ⟨hready, hsusp, hticks⟩ := hk.steady.before hr
  have hdel : ∀ u, k.place (xStateListItem u) ≠ some k.pxDelayedTaskList ∧
      k.place (xStateListItem u) ≠ some k.pxOverflowDelayedTaskList := by
    intro u
    have hplace : ∀ l, k.place (xStateListItem u) = some l → ∃ q, l = pxReadyTasksLists q := by
      intro l hl
      have hru : k.place (xStateListItem u) = some (pxReadyTasksLists (k.uxPriority u)) :=
        hready u ((hk.placed u).mpr ⟨l, hl⟩)
      exact ⟨_, Option.some.inj (hl.symm.trans hru)⟩
    constructor
    · intro hu
      obtain ⟨q, hq⟩ := hplace _ hu
      exact (hk.delayed_ne q).1 hq
    · intro hu
      obtain ⟨q, hq⟩ := hplace _ hu
      exact (hk.delayed_ne q).2 hq
  have hcore : (k.started t).Core T := by
    obtain ⟨rep, sorted, fits, placed, waits, delayed, top, current, idle, number⟩ := hk.toCore
    refine ⟨rep, sorted, fits, placed, waits, delayed, top, ?_, ?_, number⟩
    · intro _
      exact hk.steady.present
    · intro _
      exact ⟨t, rfl, hready t ht⟩
  refine ⟨⟨hcore, hk.free, ?_⟩, ?_, hk.prompt⟩
  · exact ⟨fun u hu => absurd hu (hdel u).1, fun u hu => absurd hu (hdel u).2,
      fun u hu => absurd hu (hdel u).1⟩
  · obtain ⟨present, quiet, time, priorities, before⟩ := hk.steady
    refine ⟨present, quiet, ?_, priorities, fun h => absurd h (by simp [Tasks.started])⟩
    change (0 : TickType) = BitVec.ofNat 32 k.ticks
    rw [hticks]
    rfl

theorem vTaskStartScheduler_eq [NeZero n] (h : k.xTaskCreateStatic t 0 = some k') :
    k.vTaskStartScheduler t = some (k'.started t) := by
  rw [Tasks.vTaskStartScheduler, h]
  rfl

/-- The idle task is created, and the clock starts. -/
theorem Inv.vTaskStartScheduler [NeZero n] (hk : k.Inv T) (ht : t ∉ k.created)
    (hr : k.xSchedulerRunning = false) :
    ∃ k₁ k' T', k.vTaskStartScheduler t = some (k'.started t) ∧ (k'.started t).Inv T' ∧
      Edits (k.book T) ((k'.started t).book T') ∧ Adds t 0 k k₁ ∧ (k' = k₁ ∨ Switched k₁ k') := by
  obtain ⟨k₁, k', T', hk', hinv, hedits, hadds, hor⟩ := hk.xTaskCreateStatic ht 0
  have htasks : k'.created = t :: k.created ∧ k'.xSchedulerRunning = false := by
    rcases hor with rfl | hsw
    · exact ⟨hadds.created, hadds.xSchedulerRunning.trans hr⟩
    · exact ⟨hsw.sameTasks.created.trans hadds.created,
        hsw.sameTasks.xSchedulerRunning.trans (hadds.xSchedulerRunning.trans hr)⟩
  have hmem : t ∈ k'.created := by
    rw [htasks.1]
    exact List.mem_cons_self
  exact ⟨k₁, k', T', vTaskStartScheduler_eq hk', hinv.started hmem htasks.2, hedits, hadds, hor⟩

theorem Reset.vTaskStartScheduler [NeZero n] (hk : k.Reset) (t : τ) :
    ∃ k' T', k.vTaskStartScheduler t = some k' ∧ k'.Inv T' ∧ k'.ticks = 0 ∧
      k'.xPendedTicks = 0 := by
  obtain ⟨k₁, T', hk₁, hinv, hcreated, hrun, hticks, hpend⟩ := hk.xTaskCreateStatic t 0
  have hmem : t ∈ k₁.created := by
    rw [hcreated]
    exact List.mem_cons_self
  exact ⟨_, T', vTaskStartScheduler_eq hk₁, hinv.started hmem hrun, hticks, hpend⟩

end
end Tasks
end RegisterWindows.Scheduler
