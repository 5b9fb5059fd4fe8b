import Mathlib.Logic.Relation
import RegisterWindows.Scheduler.Tasks

namespace RegisterWindows.Scheduler
open RegisterWindows.Scheduler.Lists

namespace Tasks
open ListItem ListId

variable {τ κ : Type} {n : Nat} {k k' : Tasks τ κ n} {i : ListItem τ} {t x : τ} {p : Fin n}
  {l : ListId κ n}

/-- The list an item is in. -/
abbrev place (k : Tasks τ κ n) (i : ListItem τ) : Option (ListId κ n) := k.lists.pxContainer i

abbrev value (k : Tasks τ κ n) (i : ListItem τ) : TickType := k.lists.xItemValue (Node.item i)

def Ready (k : Tasks τ κ n) (t : τ) : Prop :=
  k.place (xStateListItem t) = some (pxReadyTasksLists (k.uxPriority t))

/-- Blocked until a tick. -/
def Delayed (k : Tasks τ κ n) (t : τ) : Prop :=
  k.place (xStateListItem t) = some xDelayedTaskList1 ∨
    k.place (xStateListItem t) = some xDelayedTaskList2

/-- The items that belong in a list. -/
def Fits (uxPriority : τ → Fin n) : ListItem τ → ListId κ n → Prop
  | xStateListItem t, pxReadyTasksLists p => uxPriority t = p
  | xStateListItem _, xDelayedTaskList1 => True
  | xStateListItem _, xDelayedTaskList2 => True
  | xStateListItem _, xSuspendedTaskList => True
  | xEventListItem _, xPendingReadyList => True
  | xEventListItem _, eventList _ => True
  | _, _ => False

/-- The lists in which `vListInsert` puts the items. -/
def Sorted : ListId κ n → Prop
  | xDelayedTaskList1 => True
  | xDelayedTaskList2 => True
  | eventList _ => True
  | _ => False

/-- The lists hold what they should: each task created so far is in the ready list of its
priority, in a delayed list, or in the suspended list, and the sorted lists are sorted. -/
structure Core (k : Tasks τ κ n) (T : ListId κ n → Turns (ListItem τ)) : Prop where
  rep : k.lists.Represents T
  sorted : ∀ l, Sorted l → (T l).items.Pairwise fun i j => k.value i ≤ k.value j
  fits : ∀ i l, k.place i = some l → Fits k.uxPriority i l
  placed : ∀ t, t ∈ k.created ↔ ∃ l, k.place (xStateListItem t) = some l
  waits : ∀ t l, k.place (xEventListItem t) = some l → t ∈ k.created
  delayed :
    (k.pxDelayedTaskList = xDelayedTaskList1 ∧ k.pxOverflowDelayedTaskList = xDelayedTaskList2) ∨
    (k.pxDelayedTaskList = xDelayedTaskList2 ∧ k.pxOverflowDelayedTaskList = xDelayedTaskList1)
  top : ∀ t, k.Ready t → k.uxPriority t ≤ k.uxTopReadyPriority
  current : k.xSchedulerRunning = true → ∃ t ∈ k.created, k.pxCurrentTCB = some t
  idle : k.xSchedulerRunning = true → ∃ t, k.xIdleTaskHandle = some t ∧ k.Ready t
  number : k.uxCurrentNumberOfTasks = k.created.length

/-- The variables that say which tasks there are, and not where. -/
structure SameTasks (k k' : Tasks τ κ n) : Prop where
  uxPriority : k'.uxPriority = k.uxPriority
  uxCurrentNumberOfTasks : k'.uxCurrentNumberOfTasks = k.uxCurrentNumberOfTasks
  xSchedulerRunning : k'.xSchedulerRunning = k.xSchedulerRunning
  xIdleTaskHandle : k'.xIdleTaskHandle = k.xIdleTaskHandle
  created : k'.created = k.created

theorem SameTasks.refl (k : Tasks τ κ n) : SameTasks k k := ⟨rfl, rfl, rfl, rfl, rfl⟩

theorem SameTasks.trans {k'' : Tasks τ κ n} (h : SameTasks k k') (h' : SameTasks k' k'') :
    SameTasks k k'' :=
  ⟨h'.1.trans h.1, h'.2.trans h.2, h'.3.trans h.3, h'.4.trans h.4, h'.5.trans h.5⟩

/-- The variables of the clock. -/
structure SameClock (k k' : Tasks τ κ n) : Prop where
  pxDelayedTaskList : k'.pxDelayedTaskList = k.pxDelayedTaskList
  pxOverflowDelayedTaskList : k'.pxOverflowDelayedTaskList = k.pxOverflowDelayedTaskList
  xTickCount : k'.xTickCount = k.xTickCount
  xPendedTicks : k'.xPendedTicks = k.xPendedTicks
  uxSchedulerSuspended : k'.uxSchedulerSuspended = k.uxSchedulerSuspended
  ticks : k'.ticks = k.ticks

theorem SameClock.refl (k : Tasks τ κ n) : SameClock k k := ⟨rfl, rfl, rfl, rfl, rfl, rfl⟩

theorem SameClock.trans {k'' : Tasks τ κ n} (h : SameClock k k') (h' : SameClock k' k'') :
    SameClock k k'' :=
  ⟨h'.1.trans h.1, h'.2.trans h.2, h'.3.trans h.3, h'.4.trans h.4, h'.5.trans h.5, h'.6.trans h.6⟩

/-- The sequences of the lists, and the histories of the tasks put into a ready list and of
those chosen from one. -/
structure Book (τ κ : Type) (n : Nat) where
  lists : ListId κ n → Turns (ListItem τ)
  readied : List (τ × Fin n)
  switchedIn : List (τ × Fin n)

def book (k : Tasks τ κ n) (T : ListId κ n → Turns (ListItem τ)) : Book τ κ n :=
  ⟨T, k.readied, k.switchedIn⟩

section
variable [DecidableEq τ] [DecidableEq κ]

/-- All that `tasks.c` ever does to its lists. -/
inductive Edit : Book τ κ n → Book τ κ n → Prop where
  | remove (b : Book τ κ n) (l : ListId κ n) (i : ListItem τ) (hd : (b.lists l).items.Nodup) :
    Edit b { b with lists := Function.update b.lists l ((b.lists l).remove i) }
  | park (b : Book τ κ n) (l : ListId κ n) (u : Turns (ListItem τ))
    (hl : ∀ p, l ≠ pxReadyTasksLists p) :
    Edit b { b with lists := Function.update b.lists l u }
  | ready (b : Book τ κ n) (t : τ) (p : Fin n) :
    Edit b { b with
      lists := Function.update b.lists (pxReadyTasksLists p)
        ((b.lists (pxReadyTasksLists p)).insertLast (xStateListItem t))
      readied := (t, p) :: b.readied }
  | select (b : Book τ κ n) (t : τ) (p : Fin n) (u : Turns (ListItem τ))
    (h : (b.lists (pxReadyTasksLists p)).next = some (xStateListItem t, u)) :
    Edit b { b with
      lists := Function.update b.lists (pxReadyTasksLists p) u
      switchedIn := (t, p) :: b.switchedIn }

def Edits : Book τ κ n → Book τ κ n → Prop := Relation.ReflTransGen Edit

theorem Edits.refl (b : Book τ κ n) : Edits b b := Relation.ReflTransGen.refl

theorem Edits.single {b c : Book τ κ n} (h : Edit b c) : Edits b c := Relation.ReflTransGen.single h

theorem Edits.trans {a b c : Book τ κ n} (h : Edits a b) (h' : Edits b c) : Edits a c :=
  Relation.ReflTransGen.trans h h'

end

section
variable {T : ListId κ n → Turns (ListItem τ)}

theorem Core.congr (hk : k.Core T) (hl : k'.lists = k.lists) (hs : SameTasks k k')
    (hc : k'.pxCurrentTCB = k.pxCurrentTCB)
    (hd : k'.pxDelayedTaskList = k.pxDelayedTaskList ∧
        k'.pxOverflowDelayedTaskList = k.pxOverflowDelayedTaskList ∨
      k'.pxDelayedTaskList = k.pxOverflowDelayedTaskList ∧
        k'.pxOverflowDelayedTaskList = k.pxDelayedTaskList)
    (ht : k'.uxTopReadyPriority = k.uxTopReadyPriority) : k'.Core T := by
  obtain ⟨hu, hn, hr, hi, hcr⟩ := hs
  obtain ⟨r, s, f, p, w, d, t, c, i, m⟩ := hk
  constructor
  · rwa [hl]
  · simpa only [value, hl] using s
  · simpa only [place, hl, hu] using f
  · simpa only [place, hl, hcr] using p
  · simpa only [place, hl, hcr] using w
  · rcases hd with ⟨hd, ho⟩ | ⟨hd, ho⟩
    · rwa [hd, ho]
    · rw [hd, ho]
      exact d.symm.imp And.symm And.symm
  · simpa only [Ready, place, hl, hu, ht] using t
  · rwa [hr, hc, hcr]
  · simpa only [Ready, place, hl, hu, hr, hi] using i
  · rw [hn, hcr, m]

theorem Core.mem (hk : k.Core T) : i ∈ (T l).items ↔ k.place i = some l :=
  (hk.rep.container i l).symm

theorem Core.cur (hk : k.Core T) (hr : k.xSchedulerRunning = true) :
    ∃ t, k.pxCurrentTCB = some t ∧ t ∈ k.created := by
  obtain ⟨t, ht, hc⟩ := hk.current hr
  exact ⟨t, hc, ht⟩

theorem Core.sorted_delayed (hk : k.Core T) :
    (T k.pxDelayedTaskList).items.Pairwise fun i j => k.value i ≤ k.value j := by
  apply hk.sorted
  rcases hk.delayed with ⟨hd, _⟩ | ⟨hd, _⟩
  · rw [hd]
    exact trivial
  · rw [hd]
    exact trivial

theorem Core.fits_ready (hk : k.Core T) (h : k.place i = some (pxReadyTasksLists p)) :
    ∃ t, i = xStateListItem t ∧ k.uxPriority t = p := by
  have hf := hk.fits i _ h
  cases i with
  | xStateListItem t => exact ⟨t, rfl, hf⟩
  | xEventListItem t => exact absurd hf id

theorem Core.fits_delayed (hk : k.Core T) (h : k.place i = some k.pxDelayedTaskList) :
    ∃ t, i = xStateListItem t := by
  have hf := hk.fits i _ h
  cases i with
  | xStateListItem t => exact ⟨t, rfl⟩
  | xEventListItem t =>
    rcases hk.delayed with ⟨hd, _⟩ | ⟨hd, _⟩
    · rw [hd] at hf
      exact absurd hf id
    · rw [hd] at hf
      exact absurd hf id

theorem Core.fits_pending (hk : k.Core T) (h : k.place i = some xPendingReadyList) :
    ∃ t, i = xEventListItem t := by
  have hf := hk.fits i _ h
  cases i with
  | xStateListItem t => exact absurd hf id
  | xEventListItem t => exact ⟨t, rfl⟩

theorem Core.fits_event (hk : k.Core T) {e : κ} (h : k.place i = some (eventList e)) :
    ∃ t, i = xEventListItem t := by
  have hf := hk.fits i _ h
  cases i with
  | xStateListItem t => exact absurd hf id
  | xEventListItem t => exact ⟨t, rfl⟩

end

section
variable [DecidableEq τ] [DecidableEq κ] {T T' R : ListId κ n → Turns (ListItem τ)}
  {g : ListId κ n} {h h' : Lists (ListItem τ) (ListId κ n)}

omit [DecidableEq τ] [DecidableEq κ] in
/-- An item of a task that there is goes to a list that it belongs in. The other state items stay
where they are, and the other event items stay or leave their lists. -/
theorem Core.move (hk : k.Core T) (hs : SameTasks k k')
    (hcur : k'.pxCurrentTCB = k.pxCurrentTCB) (hc : SameClock k k') (hrep : k'.lists.Represents T')
    (hto : k'.place i = some g)
    (hstate : ∀ t, xStateListItem t ≠ i → k'.place (xStateListItem t) = k.place (xStateListItem t))
    (hevent : ∀ t l, xEventListItem t ≠ i → k'.place (xEventListItem t) = some l →
      k.place (xEventListItem t) = some l)
    (hsort : ∀ l, Sorted l → (T' l).items.Pairwise fun a b => k'.value a ≤ k'.value b)
    (hfits : Fits k.uxPriority i g) (hcreated : i.owner ∈ k.created)
    (htop : k.uxTopReadyPriority ≤ k'.uxTopReadyPriority)
    (hready : ∀ t, i = xStateListItem t → g = pxReadyTasksLists (k.uxPriority t) →
      k.uxPriority t ≤ k'.uxTopReadyPriority)
    (hidle : k.xSchedulerRunning = true → ∀ t, k.xIdleTaskHandle = some t → i = xStateListItem t →
      g = pxReadyTasksLists (k.uxPriority t)) : k'.Core T' := by
  constructor
  · exact hrep
  · exact hsort
  · intro j l hj
    rw [hs.uxPriority]
    by_cases he : j = i
    · subst he
      rw [hto] at hj
      cases hj
      exact hfits
    · cases j with
      | xStateListItem t =>
        rw [hstate t he] at hj
        exact hk.fits _ l hj
      | xEventListItem t => exact hk.fits _ l (hevent t l he hj)
  · intro t
    rw [hs.created]
    by_cases he : xStateListItem t = i
    · subst he
      exact ⟨fun _ => ⟨g, hto⟩, fun _ => hcreated⟩
    · rw [hstate t he]
      exact hk.placed t
  · intro t l ht
    rw [hs.created]
    by_cases he : xEventListItem t = i
    · subst he
      exact hcreated
    · exact hk.waits t l (hevent t l he ht)
  · rw [hc.pxDelayedTaskList, hc.pxOverflowDelayedTaskList]
    exact hk.delayed
  · intro t ht
    rw [Ready, hs.uxPriority] at ht
    rw [hs.uxPriority]
    by_cases he : xStateListItem t = i
    · rw [he, hto] at ht
      exact hready t he.symm (Option.some.inj ht)
    · rw [hstate t he] at ht
      exact Nat.le_trans (hk.top t ht) htop
  · intro hr
    rw [hs.xSchedulerRunning] at hr
    rw [hs.created, hcur]
    exact hk.current hr
  · intro hr
    rw [hs.xSchedulerRunning] at hr
    obtain ⟨t, ht, hrt⟩ := hk.idle hr
    refine ⟨t, by rw [hs.xIdleTaskHandle, ht], ?_⟩
    rw [Ready, hs.uxPriority]
    by_cases he : xStateListItem t = i
    · rw [he, hto, hidle hr t ht he.symm]
    · rw [hstate t he]
      exact hrt
  · rw [hs.uxCurrentNumberOfTasks, hs.created, hk.number]

/-- The sequences after an item was taken out of a list. -/
def without (T : ListId κ n → Turns (ListItem τ)) (l : ListId κ n) (i : ListItem τ) :
    ListId κ n → Turns (ListItem τ) :=
  Function.update T l ((T l).remove i)

theorem without_sublist (hT : h.Represents T) (l m : ListId κ n) (i : ListItem τ) :
    (without T l i m).items.Sublist (T m).items := by
  by_cases hm : m = l
  · subst hm
    rw [without, Function.update_self, Turns.items_remove (hT.nodup m)]
    exact List.erase_sublist
  · rw [without, Function.update_of_ne hm]

theorem Core.drop (hk : k.Core T) (hl : k.place (xEventListItem t) = some l) :
    Core { k with lists := k.lists.release l (xEventListItem t) }
      (without T l (xEventListItem t)) := by
  have hat : ∀ j, (k.lists.release l (xEventListItem t)).pxContainer j =
      if j = xEventListItem t then none else k.place j := by
    intro j
    simp only [place, release, Function.update_apply]
  have hsub := fun m => without_sublist hk.rep l m (xEventListItem t)
  constructor
  · exact hk.rep.release hl
  · exact fun m hm => (hk.sorted m hm).sublist (hsub m)
  · intro j m hj
    simp only [place, hat] at hj
    split at hj
    · cases hj
    · exact hk.fits j m hj
  · intro u
    simp only [place, hat]
    exact hk.placed u
  · intro u m hu
    simp only [place, hat] at hu
    split at hu
    · cases hu
    · exact hk.waits u m hu
  · exact hk.delayed
  · intro u hu
    simp only [Ready, place, hat] at hu
    exact hk.top u hu
  · exact hk.current
  · intro hr
    obtain ⟨u, hu, hru⟩ := hk.idle hr
    refine ⟨u, hu, ?_⟩
    simp only [Ready, place, hat]
    exact hru
  · exact hk.number

theorem listRemoveItem_eq (hi : k.place i = some l) :
    k.listRemoveItem i = some { k with lists := k.lists.release l i } := by
  have hc : k.lists.pxContainer i = some l := hi
  rw [listRemoveItem, Lists.uxListRemove, hc]
  rfl

/-- The lists once the state item of a task left its list, and perhaps its event item too. -/
structure Out (k : Tasks τ κ n) (T : ListId κ n → Turns (ListItem τ)) (t : τ)
    (h : Lists (ListItem τ) (ListId κ n)) (R : ListId κ n → Turns (ListItem τ)) : Prop where
  created : t ∈ k.created
  rep : h.Represents R
  sub : ∀ l, (R l).items.Sublist (T l).items
  values : h.xItemValue = k.lists.xItemValue
  out : h.pxContainer (xStateListItem t) = none
  state : ∀ u, u ≠ t → h.pxContainer (xStateListItem u) = k.place (xStateListItem u)
  event : ∀ u, u ≠ t → h.pxContainer (xEventListItem u) = k.place (xEventListItem u)
  stay : h.pxContainer (xEventListItem t) = k.place (xEventListItem t) ∨
    h.pxContainer (xEventListItem t) = none
  edits : Edits (k.book T) ⟨R, k.readied, k.switchedIn⟩

theorem Core.out (hk : k.Core T) (hl : k.place (xStateListItem t) = some l) :
    Out k T t (k.lists.release l (xStateListItem t)) (without T l (xStateListItem t)) := by
  have hat : ∀ j, (k.lists.release l (xStateListItem t)).pxContainer j =
      if j = xStateListItem t then none else k.place j := by
    intro j
    simp only [place, release, Function.update_apply]
  constructor
  · exact (hk.placed t).mpr ⟨l, hl⟩
  · exact hk.rep.release hl
  · exact fun m => without_sublist hk.rep l m _
  · rfl
  · simp [hat]
  · intro u hu
    simp [hat, hu]
  · intro u _
    simp [hat]
  · simp [hat]
  · exact Edits.single (Edit.remove (k.book T) l (xStateListItem t) (hk.rep.nodup l))

theorem Out.drop (ho : Out k T t h R) (hl : h.pxContainer (xEventListItem t) = some l) :
    Out k T t (h.release l (xEventListItem t)) (without R l (xEventListItem t)) := by
  have hat : ∀ j, (h.release l (xEventListItem t)).pxContainer j =
      if j = xEventListItem t then none else h.pxContainer j := by
    intro j
    simp only [release, Function.update_apply]
  constructor
  · exact ho.created
  · exact ho.rep.release hl
  · exact fun m => (without_sublist ho.rep l m _).trans (ho.sub m)
  · exact ho.values
  · simp [hat, ho.out]
  · intro u hu
    simp [hat, ho.state u hu]
  · intro u hu
    simp [hat, hu, ho.event u hu]
  · simp [hat]
  · exact ho.edits.trans (Edits.single (Edit.remove ⟨R, k.readied, k.switchedIn⟩ l
      (xEventListItem t) (ho.rep.nodup l)))

theorem Core.leaveLists (hk : k.Core T) (ht : t ∈ k.created) :
    ∃ h R, k.leaveLists t = some { k with lists := h } ∧ Out k T t h R ∧
      h.pxContainer (xEventListItem t) = none := by
  obtain ⟨l, hl⟩ := (hk.placed t).mp ht
  have ho := hk.out hl
  rw [Tasks.leaveLists, listRemoveItem_eq hl, Option.bind_some]
  cases hm : (k.lists.release l (xStateListItem t)).pxContainer (xEventListItem t) with
  | none => exact ⟨_, _, if_neg (by simp), ho, hm⟩
  | some m =>
    refine ⟨_, _, ?_, ho.drop hm, by simp [release]⟩
    rw [if_pos (by simp)]
    exact listRemoveItem_eq hm

theorem Out.sorted (ho : Out k T t h R) (hk : k.Core T) (hl : Sorted l) :
    (R l).items.Pairwise fun a b => k.value a ≤ k.value b :=
  (hk.sorted l hl).sublist (ho.sub l)

theorem Out.move (ho : Out k T t h R) (hk : k.Core T) (hs : SameTasks k k')
    (hcur : k'.pxCurrentTCB = k.pxCurrentTCB) (hc : SameClock k k') (hrep : k'.lists.Represents T')
    (hplace : k'.lists.pxContainer = Function.update h.pxContainer (xStateListItem t) (some g))
    (hsort : ∀ l, Sorted l → (T' l).items.Pairwise fun a b => k'.value a ≤ k'.value b)
    (hfits : Fits k.uxPriority (xStateListItem t) g)
    (htop : k.uxTopReadyPriority ≤ k'.uxTopReadyPriority)
    (hready : g = pxReadyTasksLists (k.uxPriority t) → k.uxPriority t ≤ k'.uxTopReadyPriority)
    (hidle : k.xSchedulerRunning = true → k.xIdleTaskHandle = some t →
      g = pxReadyTasksLists (k.uxPriority t)) : k'.Core T' := by
  apply hk.move hs hcur hc hrep (i := xStateListItem t) (g := g)
  · rw [place, hplace, Function.update_self]
  · intro u hu
    have hne : u ≠ t := fun he => hu (congrArg xStateListItem he)
    rw [place, hplace, Function.update_of_ne hu, ho.state u hne]
  · intro u l hu hul
    rw [place, hplace, Function.update_of_ne hu] at hul
    by_cases he : u = t
    · subst he
      rcases ho.stay with hs | hs
      · rwa [hs] at hul
      · rw [hs] at hul
        cases hul
    · rwa [ho.event u he] at hul
  · exact hsort
  · exact hfits
  · exact ho.created
  · exact htop
  · intro u hu hl
    cases hu
    exact hready hl
  · intro hr u hu he
    cases he
    exact hidle hr hu

theorem prvAddTaskToReadyList_eq (k : Tasks τ κ n) (t : τ) :
    k.prvAddTaskToReadyList t = { k with
      lists := k.lists.vListInsertEnd (pxReadyTasksLists (k.uxPriority t)) (xStateListItem t)
      uxTopReadyPriority :=
        if k.uxPriority t > k.uxTopReadyPriority then k.uxPriority t else k.uxTopReadyPriority
      readied := (t, k.uxPriority t) :: k.readied } := by
  unfold prvAddTaskToReadyList taskRecordReadyPriority
  split <;> rfl

theorem Out.toReady (ho : Out k T t h R) (hk : k.Core T) :
    ∃ T', (prvAddTaskToReadyList { k with lists := h } t).Core T' ∧
      Edits (k.book T) ((prvAddTaskToReadyList { k with lists := h } t).book T') := by
  set p := k.uxPriority t
  refine ⟨Function.update R (pxReadyTasksLists p)
    ((R (pxReadyTasksLists p)).insertLast (xStateListItem t)), ?_, ?_⟩
  · rw [prvAddTaskToReadyList_eq]
    apply ho.move hk (g := pxReadyTasksLists p)
    · exact ⟨rfl, rfl, rfl, rfl, rfl⟩
    · rfl
    · exact ⟨rfl, rfl, rfl, rfl, rfl, rfl⟩
    · exact ho.rep.vListInsertEnd ho.out (pxReadyTasksLists p)
    · simp [vListInsertEnd, contain, p]
    · intro m hm
      have hne : m ≠ pxReadyTasksLists p := by
        rintro rfl
        exact hm
      rw [Function.update_of_ne hne]
      have hs := ho.sorted hk hm
      simpa only [value, vListInsertEnd, contain, ho.values] using hs
    · exact rfl
    · dsimp only
      split
      · rename_i hlt
        exact Nat.le_of_lt hlt
      · exact Nat.le_refl _
    · intro _
      dsimp only
      split
      · exact Nat.le_refl _
      · rename_i hnlt
        exact Nat.le_of_not_lt hnlt
    · intro _ _
      rfl
  · rw [prvAddTaskToReadyList_eq]
    exact ho.edits.trans (Edits.single (Edit.ready ⟨R, k.readied, k.switchedIn⟩ t p))

theorem Out.toSuspended (ho : Out k T t h R) (hk : k.Core T)
    (hi : k.xSchedulerRunning = true → k.xIdleTaskHandle ≠ some t) :
    ∃ T', Core { k with lists := h.vListInsertEnd xSuspendedTaskList (xStateListItem t) } T' ∧
      Edits (k.book T) ⟨T', k.readied, k.switchedIn⟩ := by
  refine ⟨Function.update R xSuspendedTaskList
      ((R xSuspendedTaskList).insertLast (xStateListItem t)),
    ?_, ?_⟩
  · apply ho.move hk (g := xSuspendedTaskList)
    · exact ⟨rfl, rfl, rfl, rfl, rfl⟩
    · rfl
    · exact ⟨rfl, rfl, rfl, rfl, rfl, rfl⟩
    · exact ho.rep.vListInsertEnd ho.out xSuspendedTaskList
    · simp [vListInsertEnd, contain]
    · intro m hm
      have hne : m ≠ xSuspendedTaskList := by
        rintro rfl
        exact hm
      rw [Function.update_of_ne hne]
      have hs := ho.sorted hk hm
      simpa only [value, vListInsertEnd, contain, ho.values] using hs
    · exact trivial
    · exact Nat.le_refl _
    · intro hu
      cases hu
    · intro hr hu
      exact absurd hu (hi hr)
  · exact ho.edits.trans (Edits.single (Edit.park ⟨R, k.readied, k.switchedIn⟩ xSuspendedTaskList _
      (fun p => by simp)))

theorem Out.toDelayed (ho : Out k T t h R) (hk : k.Core T)
    (hi : k.xSchedulerRunning = true → k.xIdleTaskHandle ≠ some t) (v : TickType)
    (hl : g = xDelayedTaskList1 ∨ g = xDelayedTaskList2) :
    ∃ lists, (h.listSetListItemValue (xStateListItem t) v).vListInsert g (xStateListItem t) =
        some lists ∧
      lists.xItemValue = Function.update k.lists.xItemValue (Node.item (xStateListItem t)) v ∧
      lists.pxContainer = Function.update h.pxContainer (xStateListItem t) (some g) ∧
      ∃ T', Core { k with lists := lists } T' ∧ Edits (k.book T) ⟨T', k.readied, k.switchedIn⟩ := by
  set i := xStateListItem t
  set h' := h.listSetListItemValue i v with hh'
  have hrep' : h'.Represents R := ho.rep.setValue i v
  have hnone : h'.pxContainer i = none := ho.out
  obtain ⟨lists, hins, hval, hplace, hT'⟩ := hrep'.vListInsert hnone g
  set u := (R g).insertAt
    (Represents.notAbove h' (h'.xItemValue (Node.item i)) (R g).items).length i with hu
  have hset : h'.xItemValue = Function.update k.lists.xItemValue (Node.item i) v := by
    rw [hh', listSetListItemValue, ho.values]
  have hother : ∀ j, j ≠ i → h'.xItemValue (Node.item j) = k.value j := by
    intro j hj
    rw [hset]
    exact Function.update_of_ne (fun he => hj (item_injective he)) _ _
  -- the other items of a sorted list keep their values and their order
  have hkept : ∀ m, Sorted m →
      (R m).items.Pairwise fun a b => h'.xItemValue (Node.item a) ≤
        h'.xItemValue (Node.item b) := by
    intro m hm
    apply (ho.sorted hk hm).imp_of_mem
    intro a b ha hb hab
    have hni := hrep'.not_mem hnone m
    rw [hother a fun he => hni (he ▸ ha), hother b fun he => hni (he ▸ hb)]
    exact hab
  refine ⟨lists, hins, by rw [hval, hset], hplace, Function.update R g u, ?_, ?_⟩
  · apply ho.move hk (g := g)
    · exact ⟨rfl, rfl, rfl, rfl, rfl⟩
    · rfl
    · exact ⟨rfl, rfl, rfl, rfl, rfl, rfl⟩
    · exact hT'
    · exact hplace
    · intro m hm
      by_cases he : m = g
      · subst he
        rw [Function.update_self, hu]
        simp only [value, hval]
        exact Represents.pairwise_insertAt i (hkept m hm)
      · rw [Function.update_of_ne he]
        simpa only [value, hval] using hkept m hm
    · rcases hl with rfl | rfl <;> exact trivial
    · exact Nat.le_refl _
    · intro he
      rcases hl with rfl | rfl <;> cases he
    · intro hr hu
      exact absurd hu (hi hr)
  · exact ho.edits.trans (Edits.single (Edit.park ⟨R, k.readied, k.switchedIn⟩ g u
      (fun p => by rcases hl with rfl | rfl <;> simp)))

/-- The event item of a task that there is goes to an event list or to the pending list. -/
theorem Core.wait (hk : k.Core T) (ht : t ∈ k.created)
    (hl : g = xPendingReadyList ∨ ∃ e, g = eventList e) {u : Turns (ListItem τ)}
    (hrep : h.Represents (Function.update T g u)) (hvalue : h.xItemValue = k.lists.xItemValue)
    (hplace : h.pxContainer = Function.update k.lists.pxContainer (xEventListItem t) (some g))
    (hsort : Sorted g → u.items.Pairwise fun a b => k.value a ≤ k.value b) :
    Core { k with lists := h } (Function.update T g u) ∧
      Edits (k.book T) ⟨Function.update T g u, k.readied, k.switchedIn⟩ := by
  constructor
  · apply hk.move (i := xEventListItem t) (g := g)
    · exact ⟨rfl, rfl, rfl, rfl, rfl⟩
    · rfl
    · exact ⟨rfl, rfl, rfl, rfl, rfl, rfl⟩
    · exact hrep
    · exact (congrFun hplace _).trans (Function.update_self _ _ _)
    · intro v hv
      exact (congrFun hplace _).trans (Function.update_of_ne (by simp) _ _)
    · intro v l hv hvl
      rwa [place, hplace, Function.update_of_ne hv] at hvl
    · intro m hm
      by_cases he : m = g
      · subst he
        rw [Function.update_self]
        simpa only [value, hvalue] using hsort hm
      · rw [Function.update_of_ne he]
        simpa only [value, hvalue] using hk.sorted m hm
    · rcases hl with rfl | ⟨e, rfl⟩ <;> exact trivial
    · exact ht
    · exact Nat.le_refl _
    · intro v hv
      cases hv
    · intro _ v _ hv
      cases hv
  · exact Edits.single (Edit.park (k.book T) g u
      (fun p => by rcases hl with rfl | ⟨e, rfl⟩ <;> simp))

end
end Tasks
end RegisterWindows.Scheduler
