import RegisterWindows.Scheduler.Resume

namespace RegisterWindows.Scheduler
open RegisterWindows.Scheduler.Lists

namespace Tasks
open ListItem ListId

variable {τ κ : Type} {n : Nat} {k k' : Tasks τ κ n} {t cur : τ}

/-- The state item of a task went to another list, and the event items stayed, but perhaps for its
own. -/
structure Parks (t : τ) (k k' : Tasks τ κ n) : Prop where
  tasks : SameTasks k k'
  current : k'.pxCurrentTCB = k.pxCurrentTCB
  clock : SameClock k k'
  xYieldPending : k'.xYieldPending = k.xYieldPending
  readied : k'.readied = k.readied
  switchedIn : k'.switchedIn = k.switchedIn
  parked : ∀ p, k'.place (xStateListItem t) ≠ some (pxReadyTasksLists p)
  state : ∀ u, u ≠ t → k'.place (xStateListItem u) = k.place (xStateListItem u)
  event : ∀ u, u ≠ t → k'.place (xEventListItem u) = k.place (xEventListItem u)
  values : ∀ i, i ≠ xStateListItem t → k'.value i = k.value i

namespace Parks

theorem ready_iff (h : Parks t k k') {u : τ} : k'.Ready u ↔ u ≠ t ∧ k.Ready u := by
  by_cases hu : u = t
  · subst hu
    exact ⟨fun hr => absurd hr (h.parked _), fun hr => absurd rfl hr.1⟩
  · rw [Ready, Ready, h.state u hu, h.tasks.uxPriority]
    simp [hu]

theorem free (h : Parks t k k')
    (hf : ∀ u, u ≠ t → k.Ready u → k.place (xEventListItem u) = none) : Free k' := by
  intro u hu
  obtain ⟨hne, hr⟩ := h.ready_iff.mp hu
  rw [h.event u hne]
  exact hf u hne hr

theorem calm (h : Parks t k k') (hc : Calm k) : Calm k' := by
  intro c hcc u hu
  rw [h.current] at hcc
  rw [h.tasks.uxPriority]
  exact hc c hcc u (h.ready_iff.mp hu).2

theorem prompt (h : Parks t k k') (hp : Prompt k) : Prompt k' := by
  rcases hp with hy | hc
  · exact Or.inl (h.xYieldPending.trans hy)
  · exact Or.inr (h.calm hc)

end Parks

section
variable [DecidableEq τ] [DecidableEq κ] {T : ListId κ n → Turns (ListItem τ)} {l : ListId κ n}

/-- Where the running task is after it blocked. -/
def Blocked (d : TickType) (indefinitely : Bool) (k k' : Tasks τ κ n) (t : τ) : Prop :=
  if d = portMaxDelay ∧ indefinitely = true then
    k'.place (xStateListItem t) = some xSuspendedTaskList
  else k'.Delayed t ∧ k'.value (xStateListItem t) = k.xTickCount + d

theorem Out.parks {h h' : Lists (ListItem τ) (ListId κ n)} {R : ListId κ n → Turns (ListItem τ)}
    (ho : Out k T t h R) (hl : ∀ p, l ≠ pxReadyTasksLists p) (u : TickType)
    (hplace : h'.pxContainer = Function.update h.pxContainer (xStateListItem t) (some l))
    (hvalue : ∀ i, i ≠ xStateListItem t → h'.xItemValue (Node.item i) = k.value i) :
    Parks t k { k with lists := h', xNextTaskUnblockTime := u } := by
  have hother : ∀ i, i ≠ xStateListItem t → h'.pxContainer i = h.pxContainer i := by
    intro i hi
    rw [hplace, Function.update_of_ne hi]
  refine ⟨⟨rfl, rfl, rfl, rfl, rfl⟩, rfl, ⟨rfl, rfl, rfl, rfl, rfl, rfl⟩, rfl, rfl, rfl, ?_, ?_, ?_,
    hvalue⟩
  · intro p hp
    have hself : h'.pxContainer (xStateListItem t) = some l := by
      rw [hplace, Function.update_self]
    exact hl p (Option.some.inj (hself.symm.trans hp))
  · intro v hv
    exact (hother _ (by simpa using hv)).trans (ho.state v hv)
  · intro v hv
    exact (hother _ (by simp)).trans (ho.event v hv)

omit [DecidableEq τ] [DecidableEq κ] in
theorem Parks.clock_suspended (h : Parks t k k') (hk : k.Core T) (hc : Clock k)
    (hself : k'.place (xStateListItem t) = some xSuspendedTaskList)
    (hu : k'.xNextTaskUnblockTime = k.xNextTaskUnblockTime) : Clock k' := by
  have hdelayed : ∀ u l, l = k.pxDelayedTaskList ∨ l = k.pxOverflowDelayedTaskList →
      k'.place (xStateListItem u) = some l →
      k.place (xStateListItem u) = some l ∧
        k'.value (xStateListItem u) = k.value (xStateListItem u) := by
    intro u l hl hul
    by_cases he : u = t
    · subst he
      rw [hself] at hul
      cases hul
      rcases hk.delayed with ⟨h1, h2⟩ | ⟨h1, h2⟩ <;> rw [h1, h2] at hl <;> simp at hl
    · rw [h.state u he] at hul
      exact ⟨hul, h.values _ (by simpa using he)⟩
  apply hc.of_delayed h.clock hdelayed
  intro u hul
  rw [h.clock.pxDelayedTaskList] at hul
  obtain ⟨hul, hv⟩ := hdelayed u _ (Or.inl rfl) hul
  rw [hu, hv]
  exact hc.timely u hul

theorem Out.suspended {h : Lists (ListItem τ) (ListId κ n)} {R : ListId κ n → Turns (ListItem τ)}
    (ho : Out k T t h R) (hk : k.Core T) (hc : Clock k)
    (hi : k.xSchedulerRunning = true → k.xIdleTaskHandle ≠ some t) :
    ∃ k' T', k' = { k with lists := h.vListInsertEnd xSuspendedTaskList (xStateListItem t) } ∧
      k'.Core T' ∧ Clock k' ∧ Edits (k.book T) (k'.book T') ∧ Parks t k k' ∧
      k'.place (xStateListItem t) = some xSuspendedTaskList ∧
      k'.place (xEventListItem t) = h.pxContainer (xEventListItem t) := by
  obtain ⟨T', hcore, hedits⟩ := ho.toSuspended hk hi
  have hplace : (h.vListInsertEnd xSuspendedTaskList (xStateListItem t)).pxContainer =
      Function.update h.pxContainer (xStateListItem t) (some xSuspendedTaskList) := by
    simp only [vListInsertEnd, contain]
  have hparks := ho.parks (by simp) k.xNextTaskUnblockTime hplace fun i _ => congrFun ho.values _
  have hself := (congrFun hplace (xStateListItem t)).trans (Function.update_self _ _ _)
  refine ⟨_, T', rfl, hcore, hparks.clock_suspended hk hc hself rfl, hedits, hparks, hself, ?_⟩
  exact (congrFun hplace _).trans (Function.update_of_ne (by simp) _ _)

/-- The delayed list for a wake time: the one for after the wrap if it is below the tick count. -/
def delayedListOf (k : Tasks τ κ n) (v : TickType) : ListId κ n :=
  if v < k.xTickCount then k.pxOverflowDelayedTaskList else k.pxDelayedTaskList

/-- The new unblock time. -/
def unblockTimeOf (k : Tasks τ κ n) (v : TickType) : TickType :=
  if v < k.xTickCount then k.xNextTaskUnblockTime
  else if v < k.xNextTaskUnblockTime then v else k.xNextTaskUnblockTime

theorem prvAddCurrentTaskToDelayedList_eq (hc : k.pxCurrentTCB = some cur)
    (hl : k.place (xStateListItem cur) = some l) (d : TickType) (b : Bool) :
    k.prvAddCurrentTaskToDelayedList d b =
      let h := k.lists.release l (xStateListItem cur)
      let v := k.xTickCount + d
      if d = portMaxDelay ∧ b = true then
        some { k with lists := h.vListInsertEnd xSuspendedTaskList (xStateListItem cur) }
      else
        ((h.listSetListItemValue (xStateListItem cur) v).vListInsert (k.delayedListOf v)
          (xStateListItem cur)).map fun lists =>
            { k with lists := lists, xNextTaskUnblockTime := k.unblockTimeOf v } := by
  unfold Tasks.prvAddCurrentTaskToDelayedList
  refine (congrArg (Option.bind · _) hc).trans ?_
  refine (congrArg (Option.bind · _) (listRemoveItem_eq hl)).trans ?_
  rw [Option.bind_some]
  unfold delayedListOf unblockTimeOf
  dsimp only
  split
  · rfl
  by_cases hw : k.xTickCount + d < k.xTickCount
  · simp only [if_pos hw]
    exact Option.map_eq_bind.symm
  · simp only [if_neg hw]
    exact Option.map_eq_bind.symm

omit [DecidableEq τ] [DecidableEq κ] in
theorem Core.delayedListOf_or (hk : k.Core T) (v : TickType) :
    k.delayedListOf v = xDelayedTaskList1 ∨ k.delayedListOf v = xDelayedTaskList2 := by
  unfold delayedListOf
  rcases hk.delayed with ⟨h1, h2⟩ | ⟨h1, h2⟩ <;> rw [h1, h2] <;> split <;> simp

theorem lt_wakeTime {x d : TickType} (hd : d ≠ 0) (h : ¬ x + d < x) : x < x + d := by
  have hle : x.toNat ≤ (x + d).toNat := Nat.le_of_not_lt h
  rcases Nat.lt_or_eq_of_le hle with hlt | he
  · exact hlt
  · have hz : x + d = x + 0#32 := by
      rw [BitVec.add_zero]
      exact (BitVec.eq_of_toNat_eq he).symm
    exact absurd (BitVec.add_right_inj _ |>.mp hz) hd

omit [DecidableEq τ] [DecidableEq κ] in
theorem Parks.clock_delayed (h : Parks t k k') (hk : k.Core T) (hc : Clock k) {v : TickType}
    (hv : ¬ v < k.xTickCount → k.xTickCount < v)
    (hself : k'.place (xStateListItem t) = some (k.delayedListOf v))
    (hvalue : k'.value (xStateListItem t) = v)
    (hu : k'.xNextTaskUnblockTime = k.unblockTimeOf v) : Clock k' := by
  have hne : k.pxDelayedTaskList ≠ k.pxOverflowDelayedTaskList := by
    rcases hk.delayed with ⟨h1, h2⟩ | ⟨h1, h2⟩ <;> rw [h1, h2] <;> simp
  -- it is in the list of the current round exactly if its time does not wrap
  have hround : some (k.delayedListOf v) = some k.pxDelayedTaskList → ¬ v < k.xTickCount := by
    intro hl hw
    rw [delayedListOf, if_pos hw] at hl
    exact hne (Option.some.inj hl).symm
  have hvalues : ∀ u, u ≠ t → k'.value (xStateListItem u) = k.value (xStateListItem u) :=
    fun u hne => h.values _ (by simpa using hne)
  refine ⟨fun u hul => ?_, fun u hul => ?_, fun u hul => ?_⟩
  · rw [h.clock.xTickCount]
    rw [h.clock.pxDelayedTaskList] at hul
    by_cases he : u = t
    · subst he
      rw [hvalue]
      exact hv (hround (hself.symm.trans hul))
    · rw [h.state u he] at hul
      rw [hvalues u he]
      exact hc.later u hul
  · rw [h.clock.xTickCount]
    rw [h.clock.pxOverflowDelayedTaskList] at hul
    by_cases he : u = t
    · subst he
      rw [hvalue]
      by_contra hw
      rw [hself, delayedListOf, if_neg hw] at hul
      exact hne (Option.some.inj hul)
    · rw [h.state u he] at hul
      rw [hvalues u he]
      exact hc.wrapped u hul
  · rw [h.clock.pxDelayedTaskList] at hul
    rw [hu, unblockTimeOf]
    by_cases he : u = t
    · subst he
      rw [hvalue, if_neg (hround (hself.symm.trans hul))]
      split
      · exact BitVec.le_refl _
      · rename_i hn
        exact BitVec.not_lt.mp hn
    · rw [h.state u he] at hul
      rw [hvalues u he]
      refine BitVec.le_trans ?_ (hc.timely u hul)
      split
      · exact BitVec.le_refl _
      split
      · rename_i hlt
        exact BitVec.le_of_lt hlt
      · exact BitVec.le_refl _

theorem Out.delayed {h : Lists (ListItem τ) (ListId κ n)} {R : ListId κ n → Turns (ListItem τ)}
    (ho : Out k T t h R) (hk : k.Core T) (hc : Clock k)
    (hi : k.xSchedulerRunning = true → k.xIdleTaskHandle ≠ some t) {d : TickType} (hd : d ≠ 0) :
    ∃ k' T', ((h.listSetListItemValue (xStateListItem t) (k.xTickCount + d)).vListInsert
          (k.delayedListOf (k.xTickCount + d)) (xStateListItem t)).map (fun lists => { k with
            lists := lists,
            xNextTaskUnblockTime := k.unblockTimeOf (k.xTickCount + d) }) = some k' ∧
      k'.Core T' ∧ Clock k' ∧ Edits (k.book T) (k'.book T') ∧ Parks t k k' ∧
      (k'.Delayed t ∧ k'.value (xStateListItem t) = k.xTickCount + d) ∧
      k'.place (xEventListItem t) = h.pxContainer (xEventListItem t) := by
  obtain ⟨lists, hins, hval, hplace, T', hcore, hedits⟩ :=
    ho.toDelayed hk hi (k.xTickCount + d) (hk.delayedListOf_or (k.xTickCount + d))
  have hready : ∀ p, k.delayedListOf (k.xTickCount + d) ≠ pxReadyTasksLists p := by
    intro p
    rcases hk.delayedListOf_or (k.xTickCount + d) with hl | hl <;> rw [hl] <;> simp
  have hparks := ho.parks hready (k.unblockTimeOf (k.xTickCount + d)) hplace fun i hi => by
    rw [hval, Function.update_of_ne fun he => hi (item_injective he)]
  have hself := (congrFun hplace (xStateListItem t)).trans (Function.update_self _ _ _)
  have hvalue := (congrFun hval (Node.item (xStateListItem t))).trans (Function.update_self _ _ _)
  obtain ⟨k', hk'⟩ : ∃ k', k' = { k with
      lists := lists, xNextTaskUnblockTime := k.unblockTimeOf (k.xTickCount + d) } := ⟨_, rfl⟩
  have hcore' : k'.Core T' := by
    rw [hk']
    exact hcore.congr rfl ⟨rfl, rfl, rfl, rfl, rfl⟩ rfl (Or.inl ⟨rfl, rfl⟩) rfl
  rw [hins, Option.map_some, ← hk']
  rw [← hk'] at hparks
  have hself' : k'.place (xStateListItem t) = some (k.delayedListOf (k.xTickCount + d)) := by
    rw [hk']
    exact hself
  have hvalue' : k'.value (xStateListItem t) = k.xTickCount + d := by
    rw [hk']
    exact hvalue
  refine ⟨k', T', rfl, hcore', ?_, ?_, hparks, ⟨?_, hvalue'⟩, ?_⟩
  · exact hparks.clock_delayed hk hc (lt_wakeTime hd) hself' hvalue' (by rw [hk'])
  · rw [hk']
    exact hedits
  · rw [Delayed, hself']
    rcases hk.delayedListOf_or (k.xTickCount + d) with hl | hl <;> rw [hl] <;> simp
  · rw [hk']
    exact (congrFun hplace _).trans (Function.update_of_ne (by simp) _ _)

/-- The running task leaves its ready list for the delayed list that its wake time belongs in, or
for the suspended list. -/
theorem Core.prvAddCurrentTaskToDelayedList (hk : k.Core T) (hclock : Clock k)
    (hc : k.pxCurrentTCB = some cur) (hmem : cur ∈ k.created)
    (hi : k.xSchedulerRunning = true → k.xIdleTaskHandle ≠ some cur) {d : TickType} (hd : d ≠ 0)
    (b : Bool) :
    ∃ k' T', k.prvAddCurrentTaskToDelayedList d b = some k' ∧ k'.Core T' ∧ Clock k' ∧
      Edits (k.book T) (k'.book T') ∧ Parks cur k k' ∧ Blocked d b k k' cur ∧
      k'.place (xEventListItem cur) = k.place (xEventListItem cur) := by
  obtain ⟨m, hm⟩ := (hk.placed cur).mp hmem
  have ho := hk.out hm
  have hev : (k.lists.release m (xStateListItem cur)).pxContainer (xEventListItem cur) =
      k.place (xEventListItem cur) := by
    simp [release]
  rw [prvAddCurrentTaskToDelayedList_eq hc hm, ← hev]
  unfold Blocked
  dsimp only
  by_cases hmax : d = portMaxDelay ∧ b = true
  · rw [if_pos hmax]
    obtain ⟨k', T', rfl, hspec⟩ := ho.suspended hk hclock hi
    obtain ⟨hcore, hclock', hedits, hparks, hself, hevent⟩ := hspec
    exact ⟨_, T', rfl, hcore, hclock', hedits, hparks, by rw [if_pos hmax]; exact hself, hevent⟩
  · rw [if_neg hmax]
    obtain ⟨k', T', hk', hcore, hclock', hedits, hparks, hblocked, hevent⟩ :=
      ho.delayed hk hclock hi hd
    exact ⟨k', T', hk', hcore, hclock', hedits, hparks, by rw [if_neg hmax]; exact hblocked, hevent⟩

omit [DecidableEq τ] [DecidableEq κ] in
theorem Clock.of_state (hc : Clock k) (hs : SameClock k k')
    (hstate : ∀ t, k'.place (xStateListItem t) = k.place (xStateListItem t))
    (hvalues : ∀ t, k'.value (xStateListItem t) = k.value (xStateListItem t))
    (hn : k'.xNextTaskUnblockTime = k.xNextTaskUnblockTime) : Clock k' := by
  apply hc.of_delayed hs
  · intro t l _ ht
    rw [hstate] at ht
    exact ⟨ht, hvalues t⟩
  · intro t ht
    rw [hs.pxDelayedTaskList, hstate] at ht
    rw [hn, hvalues]
    exact hc.timely t ht

/-- The running task goes to the event list first, and then blocks. -/
theorem Healthy.vTaskPlaceOnEventList (hk : k.Healthy T) (hc : k.pxCurrentTCB = some cur)
    (hmem : cur ∈ k.created) (hr : k.Ready cur)
    (hi : k.xSchedulerRunning = true → k.xIdleTaskHandle ≠ some cur) {d : TickType} (hd : d ≠ 0)
    (e : κ) :
    ∃ k' T', k.vTaskPlaceOnEventList e d = some k' ∧ k'.Healthy T' ∧ Edits (k.book T) (k'.book T') ∧
      Parks cur k k' ∧ Blocked d true k k' cur ∧
      k'.place (xEventListItem cur) = some (eventList e) := by
  obtain ⟨lists, hins, hval, hplace, hrep⟩ :=
    hk.rep.vListInsert (hk.free cur hr) (eventList e)
  have hsort := Represents.pairwise_insertAt (xEventListItem cur)
    (hk.sorted (eventList e) trivial)
  obtain ⟨hcore₁, hedits₁⟩ := hk.toCore.wait hmem (Or.inr ⟨e, rfl⟩) hrep hval hplace fun _ => hsort
  set k₁ : Tasks τ κ n := { k with lists := lists } with hk₁
  have hat :
    ∀ i, k₁.place i = if i = xEventListItem cur then some (eventList e) else k.place i := by
    intro i
    rw [place, hk₁, hplace, Function.update_apply]
  have hclock₁ : Clock k₁ := by
    have hs₁ : SameClock k k₁ := ⟨rfl, rfl, rfl, rfl, rfl, rfl⟩
    apply hk.clock.of_state hs₁
    · intro t
      rw [hat, if_neg (by simp)]
    · intro t
      exact congrFun hval _
    · rfl
  obtain ⟨k', T', hk', hcore, hclock, hedits, hparks, hblocked, hevent⟩ :=
    hcore₁.prvAddCurrentTaskToDelayedList hclock₁ hc hmem hi hd true
  have hparks' : Parks cur k k' := by
    obtain ⟨htasks, hcur, hclk, hy, hread, hsw, hp, hstate, hev, hvalues⟩ := hparks
    have ht₁ : SameTasks k k₁ := ⟨rfl, rfl, rfl, rfl, rfl⟩
    have hs₁ : SameClock k k₁ := ⟨rfl, rfl, rfl, rfl, rfl, rfl⟩
    refine ⟨ht₁.trans htasks, hcur, hs₁.trans hclk, hy, hread, hsw, hp, ?_, ?_, ?_⟩
    · intro u hu
      rw [hstate u hu, hat, if_neg (by simp)]
    · intro u hu
      rw [hev u hu, hat, if_neg (by simpa using hu)]
    · intro i hi
      exact (hvalues i hi).trans (congrFun hval _)
  refine ⟨k', T', ?_, ⟨hcore, hparks'.free fun u _ hu => hk.free u hu, hclock⟩,
    hedits₁.trans hedits, hparks', hblocked, ?_⟩
  · exact Option.bind_eq_some_iff.mpr ⟨cur, hc, Option.bind_eq_some_iff.mpr ⟨lists, hins, hk'⟩⟩
  · rw [hevent, hat, if_pos rfl]

/-- A task whose event came waits in the pending list. -/
structure Pends (t : τ) (k k' : Tasks τ κ n) : Prop where
  tasks : SameTasks k k'
  current : k'.pxCurrentTCB = k.pxCurrentTCB
  values : k'.lists.xItemValue = k.lists.xItemValue
  readied : k'.readied = k.readied
  switchedIn : k'.switchedIn = k.switchedIn
  pend : k'.Pend t
  state : ∀ u, k'.place (xStateListItem u) = k.place (xStateListItem u)
  event : ∀ u, u ≠ t → k'.place (xEventListItem u) = k.place (xEventListItem u)

omit [DecidableEq τ] [DecidableEq κ] in
theorem Pends.ready_iff (h : Pends t k k') {u : τ} : k'.Ready u ↔ k.Ready u := by
  rw [Ready, Ready, h.state, h.tasks.uxPriority]

theorem Healthy.pend (hk : k.Healthy T) (ht : t ∈ k.created) (hr : ¬ k.Ready t)
    (hn : k.place (xEventListItem t) = none) :
    ∃ T', Healthy { k with
        lists := k.lists.vListInsertEnd xPendingReadyList (xEventListItem t) } T' ∧
      Edits (k.book T) ⟨T', k.readied, k.switchedIn⟩ ∧
      Pends t k { k with
        lists := k.lists.vListInsertEnd xPendingReadyList (xEventListItem t) } := by
  obtain ⟨hcore, hedits⟩ := hk.toCore.wait (g := xPendingReadyList) ht (Or.inl rfl)
    (hk.rep.vListInsertEnd hn xPendingReadyList) rfl
    (by simp [vListInsertEnd, contain]) (fun h => h.elim)
  set k' : Tasks τ κ n := { k with
    lists := k.lists.vListInsertEnd xPendingReadyList (xEventListItem t) } with hk'
  have hat :
    ∀ i, k'.place i = if i = xEventListItem t then some xPendingReadyList else k.place i := by
    intro i
    simp only [place, hk', vListInsertEnd, contain, Function.update_apply]
  have hpends : Pends t k k' := by
    refine ⟨⟨rfl, rfl, rfl, rfl, rfl⟩, rfl, rfl, rfl, rfl, ?_, ?_, ?_⟩
    · rw [Pend, hat, if_pos rfl]
    · intro u
      rw [hat, if_neg (by simp)]
    · intro u hu
      rw [hat, if_neg (by simpa using hu)]
  refine ⟨_, ⟨hcore, ?_, ?_⟩, hedits, hpends⟩
  · intro u hu
    rw [hpends.ready_iff] at hu
    by_cases he : u = t
    · subst he
      exact absurd hu hr
    · rw [hpends.event u he]
      exact hk.free u hu
  · have hs : SameClock k k' := ⟨rfl, rfl, rfl, rfl, rfl, rfl⟩
    exact hk.clock.of_state hs hpends.state (fun _ => rfl) rfl

omit [DecidableEq τ] [DecidableEq κ] in
theorem Healthy.setYield (hk : k.Healthy T) (b : Bool) :
    Healthy { k with xYieldPending := b } T := by
  refine ⟨?_, hk.free, hk.clock.later, hk.clock.wrapped, hk.clock.timely⟩
  exact hk.toCore.congr rfl ⟨rfl, rfl, rfl, rfl, rfl⟩ rfl (Or.inl ⟨rfl, rfl⟩) rfl

theorem Healthy.drop (hk : k.Healthy T) (hl : k.place (xEventListItem t) = some l) :
    Healthy { k with lists := k.lists.release l (xEventListItem t) }
      (without T l (xEventListItem t)) := by
  set k₁ : Tasks τ κ n := { k with lists := k.lists.release l (xEventListItem t) } with hk₁
  have hat : ∀ i, k₁.place i = if i = xEventListItem t then none else k.place i := by
    intro i
    simp only [place, hk₁, release, Function.update_apply]
  have hstate : ∀ u, k₁.place (xStateListItem u) = k.place (xStateListItem u) := by
    intro u
    rw [hat, if_neg (by simp)]
  have hs : SameClock k k₁ := ⟨rfl, rfl, rfl, rfl, rfl, rfl⟩
  refine ⟨hk.toCore.drop hl, ?_, hk.clock.of_state hs hstate (fun _ => rfl) rfl⟩
  intro u hu
  rw [Ready, hstate] at hu
  rw [hat]
  split
  · rfl
  · exact hk.free u hu

omit [DecidableEq τ] [DecidableEq κ] in
theorem Wakes.prompt (h : Wakes (fun u => u = t) k k') (hc : k.pxCurrentTCB = some cur)
    (hy : k.xYieldPending = true → k'.xYieldPending = true)
    (hlt : k.uxPriority cur < k.uxPriority t → k'.xYieldPending = true) (hp : Prompt k) :
    Prompt k' := by
  rcases hp with hp | hcalm
  · exact Or.inl (hy hp)
  · by_cases hhigh : k.uxPriority cur < k.uxPriority t
    · exact Or.inl (hlt hhigh)
    · refine Or.inr fun c hcc u hu => ?_
      rw [h.current, hc] at hcc
      cases hcc
      rw [h.tasks.uxPriority]
      rcases h.ready_iff.mp hu with rfl | hr
      · exact Nat.le_of_not_lt hhigh
      · exact hcalm cur hc u hr

omit [DecidableEq τ] [DecidableEq κ] in
theorem Pends.prompt (h : Pends t k k') (hy : k.xYieldPending = true → k'.xYieldPending = true)
    (hp : Prompt k) : Prompt k' := by
  rcases hp with hp | hcalm
  · exact Or.inl (hy hp)
  · refine Or.inr fun c hcc u hu => ?_
    rw [h.current] at hcc
    rw [h.tasks.uxPriority]
    exact hcalm c hcc u (h.ready_iff.mp hu)

omit [DecidableEq τ] [DecidableEq κ] in
theorem Wakes.setYield {W : τ → Prop} (h : Wakes W k k') (b : Bool) :
    Wakes W k { k' with xYieldPending := b } :=
  h.of_eq ⟨rfl, rfl, rfl, rfl, rfl⟩ rfl rfl rfl rfl

omit [DecidableEq τ] [DecidableEq κ] in
theorem Pends.setYield (h : Pends t k k') (b : Bool) : Pends t k { k' with xYieldPending := b } :=
  have hs : SameTasks k' { k' with xYieldPending := b } := ⟨rfl, rfl, rfl, rfl, rfl⟩
  ⟨h.tasks.trans hs, h.current, h.values, h.readied, h.switchedIn, h.pend, h.state, h.event⟩

/-- What an event does to the task that waited for it. -/
def Notified (t : τ) (k k' : Tasks τ κ n) : Prop :=
  k.uxSchedulerSuspended = 0 ∧ Wakes (fun u => u = t) k k' ∨
    k.uxSchedulerSuspended ≠ 0 ∧ Pends t k k'

/-- A task that waits for an event leaves the event list for its ready list, or for the pending
list while the scheduler is suspended. -/
theorem Healthy.readyOrPending (hk : k.Healthy T) (hl : k.place (xEventListItem t) = some l) :
    ∃ k₁ k₂ T', k.listRemoveItem (xEventListItem t) = some k₁ ∧ k₁.readyOrPending t = some k₂ ∧
      k₂.Healthy T' ∧ Edits (k.book T) (k₂.book T') ∧ SameClock k k₂ ∧ Notified t k k₂ ∧
      k₂.xYieldPending = k.xYieldPending := by
  have hnr : ¬ k.Ready t := by
    intro hr
    rw [hk.free t hr] at hl
    cases hl
  by_cases hs : k.uxSchedulerSuspended = 0
  · obtain ⟨k₁, k₂, T', h₁, h₂, hcore, hedits, hwakes, hclock, hnext, hyield, hsusp⟩ :=
      hk.toCore.wakeWaiting hl
    refine ⟨k₁, _, T', h₁, ?_, ⟨hcore, hwakes.free hk.free, ?_⟩, hedits, hclock,
      Or.inl ⟨hs, hwakes⟩, hyield⟩
    · rw [Tasks.readyOrPending, if_pos (hsusp.trans hs), h₂, Option.map_some]
    · exact hwakes.clock hk.toCore hclock hk.clock
        (hwakes.timely hk.toCore hclock hk.clock.timely hnext)
  · have hmem : t ∈ k.created := hk.waits t l hl
    have hh := hk.drop hl
    have hedit := Edit.remove (k.book T) l (xEventListItem t) (hk.rep.nodup l)
    set k₁ : Tasks τ κ n := { k with lists := k.lists.release l (xEventListItem t) } with hk₁
    have hat : ∀ i, k₁.place i = if i = xEventListItem t then none else k.place i := by
      intro i
      simp only [place, hk₁, release, Function.update_apply]
    have hnr₁ : ¬ k₁.Ready t := by
      rw [Ready, hat, if_neg (by simp)]
      exact hnr
    have hnone : k₁.place (xEventListItem t) = none := by rw [hat, if_pos rfl]
    obtain ⟨T', hh', hedits', hpends⟩ := hh.pend hmem hnr₁ hnone
    refine ⟨k₁, _, T', listRemoveItem_eq hl, if_neg hs, hh', ?_, ⟨rfl, rfl, rfl, rfl, rfl, rfl⟩,
      Or.inr ⟨hs, ?_⟩, rfl⟩
    · exact (Edits.single hedit).trans hedits'
    · obtain ⟨htasks, hcur, hvalues, hread, hsw, hpend, hstate, hevent⟩ := hpends
      have ht₁ : SameTasks k k₁ := ⟨rfl, rfl, rfl, rfl, rfl⟩
      refine ⟨ht₁.trans htasks, hcur, hvalues, hread, hsw, hpend, ?_, ?_⟩
      · intro u
        rw [hstate, hat, if_neg (by simp)]
      · intro u hu
        rw [hevent u hu, hat, if_neg (by simpa using hu)]

/-- The first task in the event list, which is one of the highest priority, no longer waits. -/
theorem Healthy.xTaskRemoveFromEventList (hk : k.Healthy T) (hc : k.pxCurrentTCB = some cur) {e : κ}
    (hne : ∃ i, k.place i = some (eventList e)) :
    ∃ t r k' T', k.xTaskRemoveFromEventList e = some (r, k') ∧
      k.listGetOwnerOfHeadEntry (eventList e) = some t ∧
      k.place (xEventListItem t) = some (eventList e) ∧
      (∀ u, k.place (xEventListItem u) = some (eventList e) →
        k.value (xEventListItem t) ≤ k.value (xEventListItem u)) ∧
      k'.Healthy T' ∧ Edits (k.book T) (k'.book T') ∧ SameClock k k' ∧ Notified t k k' ∧
      (Prompt k → Prompt k') := by
  obtain ⟨i, hi⟩ := hne
  rw [← hk.mem] at hi
  cases hx : (T (eventList e)).items with
  | nil =>
    rw [hx] at hi
    cases hi
  | cons j r =>
    have hj : k.place j = some (eventList e) := by
      rw [← hk.mem, hx]
      exact List.mem_cons_self
    obtain ⟨t, rfl⟩ := hk.fits_event hj
    have hhead : k.listGetOwnerOfHeadEntry (eventList e) = some t := hk.head_entry hx rfl
    have hfirst : ∀ u, k.place (xEventListItem u) = some (eventList e) →
        k.value (xEventListItem t) ≤ k.value (xEventListItem u) := by
      intro u hu
      have hs := hk.sorted (eventList e) trivial
      rw [← hk.mem, hx] at hu
      rw [hx] at hs
      rcases List.mem_cons.mp hu with he | hr
      · rw [he]
        exact BitVec.le_refl _
      · exact (List.pairwise_cons.mp hs).1 _ hr
    obtain ⟨k₁, k₂, T', h₁, h₂, hh, hedits, hclock, hnot, hyield⟩ := hk.readyOrPending hj
    have hcur : k₂.pxCurrentTCB = some cur := by
      rcases hnot with ⟨_, hw⟩ | ⟨_, hp⟩
      · exact hw.current.trans hc
      · exact hp.current.trans hc
    have hprio : k₂.uxPriority = k.uxPriority := by
      rcases hnot with ⟨_, hw⟩ | ⟨_, hp⟩
      · exact hw.tasks.uxPriority
      · exact hp.tasks.uxPriority
    have heq : k.xTaskRemoveFromEventList e = if k₂.uxPriority t > k₂.uxPriority cur then
        some (true, { k₂ with xYieldPending := true }) else some (false, k₂) := by
      rw [Tasks.xTaskRemoveFromEventList, hhead]
      simp only [Option.bind_eq_bind, Option.bind_some, h₁, h₂]
      rw [hcur]
      rfl
    by_cases hlt : k₂.uxPriority t > k₂.uxPriority cur
    · have hnot' : Notified t k { k₂ with xYieldPending := true } := by
        rcases hnot with ⟨hs, hw⟩ | ⟨hs, hp⟩
        · exact Or.inl ⟨hs, hw.setYield true⟩
        · exact Or.inr ⟨hs, hp.setYield true⟩
      refine ⟨t, _, _, T', heq.trans (if_pos hlt), hhead, hj, hfirst, hh.setYield true, hedits,
        hclock.trans ⟨rfl, rfl, rfl, rfl, rfl, rfl⟩, hnot', fun _ => Or.inl rfl⟩
    · rw [hprio] at hlt
      refine ⟨t, _, _, T', heq.trans (if_neg (by rwa [hprio])), hhead, hj, hfirst, hh, hedits,
        hclock, hnot, ?_⟩
      have hy : k.xYieldPending = true → k₂.xYieldPending = true := fun h => hyield.trans h
      rcases hnot with ⟨_, hw⟩ | ⟨_, hp⟩
      · exact hw.prompt hc hy fun h => absurd h hlt
      · exact hp.prompt hy

/-- The task leaves all lists for the suspended list. -/
theorem Healthy.vTaskSuspendRemove (hk : k.Healthy T) (ht : t ∈ k.created)
    (hi : k.xSchedulerRunning = true → k.xIdleTaskHandle ≠ some t) :
    ∃ k' T', k.vTaskSuspendRemove t = some k' ∧ k'.Healthy T' ∧ Edits (k.book T) (k'.book T') ∧
      Parks t k k' ∧ k'.place (xStateListItem t) = some xSuspendedTaskList ∧
      k'.place (xEventListItem t) = none := by
  obtain ⟨h, R, hleave, ho, hnone⟩ := hk.toCore.leaveLists ht
  obtain ⟨k', T', hk', hcore, hclock, hedits, hparks, hself, hevent⟩ :=
    ho.suspended hk.toCore hk.clock hi
  refine ⟨k', T', ?_, ⟨hcore, hparks.free fun u _ hu => hk.free u hu, hclock⟩, hedits, hparks,
    hself, hevent.trans hnone⟩
  rw [Tasks.vTaskSuspendRemove, hleave, Option.map_some, hk']

omit [DecidableEq τ] in
theorem prvTaskIsTaskSuspended_iff : k.prvTaskIsTaskSuspended t = true ↔
    k.place (xStateListItem t) = some xSuspendedTaskList ∧ k.place (xEventListItem t) = none := by
  simp only [prvTaskIsTaskSuspended, Bool.and_eq_true, decide_eq_true_eq, and_assoc]
  apply and_congr Iff.rfl
  constructor
  · exact And.right
  · intro hn
    exact ⟨by simp [hn], hn⟩

theorem Healthy.wake (hk : k.Healthy T) (hl : k.place (xStateListItem t) = some l)
    (hn : k.place (xEventListItem t) = none) :
    ∃ k₁ T', k.listRemoveItem (xStateListItem t) = some k₁ ∧
      (k₁.prvAddTaskToReadyList t).Healthy T' ∧
      Edits (k.book T) ((k₁.prvAddTaskToReadyList t).book T') ∧
      Wakes (fun u => u = t) k (k₁.prvAddTaskToReadyList t) ∧
      SameClock k (k₁.prvAddTaskToReadyList t) ∧
      (k₁.prvAddTaskToReadyList t).xYieldPending = k.xYieldPending := by
  have ho := hk.toCore.out hl
  have hnone : (k.lists.release l (xStateListItem t)).pxContainer (xEventListItem t) = none := by
    rcases ho.stay with hs | hs
    · rw [hs, hn]
    · exact hs
  obtain ⟨T', hcore, hedits⟩ := ho.toReady hk.toCore
  have hwakes := ho.wakes hnone
  set k₁ : Tasks τ κ n := { k with lists := k.lists.release l (xStateListItem t) }
  have heq := prvAddTaskToReadyList_eq k₁ t
  have hclock : SameClock k (k₁.prvAddTaskToReadyList t) := by
    rw [heq]
    exact ⟨rfl, rfl, rfl, rfl, rfl, rfl⟩
  have htimely : Timely (k₁.prvAddTaskToReadyList t) :=
    hwakes.timely hk.toCore hclock hk.clock.timely (by rw [heq])
  refine ⟨k₁, T', listRemoveItem_eq hl, ⟨hcore, hwakes.free hk.free, ?_⟩, hedits, hwakes, hclock,
    ?_⟩
  · exact hwakes.clock hk.toCore hclock hk.clock htimely
  · rw [heq]

/-- What `vTaskResume` does: nothing, or it wakes a suspended task, which may run at once. -/
def Resumes (t : τ) (k k' : Tasks τ κ n) : Prop :=
  k' = k ∨ k.place (xStateListItem t) = some xSuspendedTaskList ∧
    ∃ k₁ T₁, Wakes (fun u => u = t) k k₁ ∧ SameClock k k₁ ∧ k₁.Healthy T₁ ∧
      (k' = k₁ ∨ Switched k₁ k')

theorem Healthy.vTaskResume (hk : k.Healthy T) (hc : k.pxCurrentTCB = some cur) (t : τ) :
    ∃ k' T', k.vTaskResume t = some k' ∧ k'.Healthy T' ∧ Edits (k.book T) (k'.book T') ∧
      Resumes t k k' ∧ (Prompt k → Prompt k') := by
  unfold Tasks.vTaskResume
  by_cases hs : k.pxCurrentTCB ≠ some t ∧ k.prvTaskIsTaskSuspended t = true
  · rw [if_pos hs]
    obtain ⟨hl, hn⟩ := prvTaskIsTaskSuspended_iff.mp hs.2
    obtain ⟨k₁, T₁, hrem, hh, hedits, hwakes, hclock, hyield⟩ := hk.wake hl hn
    set k₂ := k₁.prvAddTaskToReadyList t
    have hc₂ : k₂.pxCurrentTCB = some cur := hwakes.current.trans hc
    have hprio : k₂.uxPriority = k.uxPriority := hwakes.tasks.uxPriority
    obtain ⟨k', T', hy, hor, hlt, hh', hedits'⟩ := hh.taskYield hc₂ (hwakes.woken t rfl).1
    refine ⟨k', T', ?_, hh', hedits.trans hedits', Or.inr ⟨hl, k₂, T₁, hwakes, hclock, hh, hor⟩, ?_⟩
    · rw [hrem, Option.bind_eq_bind, Option.bind_some]
      exact hy
    · intro hp
      by_cases hhigh : k₂.uxPriority cur < k₂.uxPriority t
      · exact (hlt hhigh).prompt
      · rcases hor with rfl | hsw
        · rw [hprio] at hhigh
          exact hwakes.prompt hc (fun h => hyield.trans h) (fun h => absurd h hhigh) hp
        · exact hsw.prompt
  · exact ⟨k, T, if_neg hs, hk, Edits.refl _, Or.inl rfl, id⟩

/-- What `xTaskResumeFromISR` does: nothing, or it wakes a suspended task as an event would. -/
theorem Healthy.xTaskResumeFromISR (hk : k.Healthy T) (hc : k.pxCurrentTCB = some cur) (t : τ) :
    ∃ r k' T', k.xTaskResumeFromISR t = some (r, k') ∧ k'.Healthy T' ∧
      Edits (k.book T) (k'.book T') ∧ SameClock k k' ∧
      (k' = k ∨ k.place (xStateListItem t) = some xSuspendedTaskList ∧ Notified t k k') ∧
      (Prompt k → Prompt k') := by
  unfold Tasks.xTaskResumeFromISR
  by_cases hs : k.prvTaskIsTaskSuspended t = true
  · rw [if_pos hs]
    obtain ⟨hl, hn⟩ := prvTaskIsTaskSuspended_iff.mp hs
    by_cases hsusp : k.uxSchedulerSuspended = 0
    · set b := decide (k.uxPriority t > k.uxPriority cur) with hb
      set k₀ : Tasks τ κ n := if b = true then { k with xYieldPending := true } else k with hk₀
      have hk₀' : k₀ = { k with xYieldPending := b || k.xYieldPending } := by
        rw [hk₀]
        cases b <;> rfl
      have hh₀ : k₀.Healthy T := by
        rw [hk₀']
        exact hk.setYield _
      have hl₀ : k₀.place (xStateListItem t) = some xSuspendedTaskList := by
        rw [hk₀']
        exact hl
      have hn₀ : k₀.place (xEventListItem t) = none := by
        rw [hk₀']
        exact hn
      obtain ⟨k₁, T', hrem, hh, hedits, hwakes, hclock, hyield⟩ := hh₀.wake hl₀ hn₀
      have hw₀ : Wakes (fun _ => False) k k₀ := by
        rw [hk₀']
        exact (Wakes.refl k).setYield _
      have hwakes' : Wakes (fun u => u = t) k (k₁.prvAddTaskToReadyList t) :=
        (hw₀.trans hwakes).congr fun u => by simp
      have hclock₀ : SameClock k k₀ := by
        rw [hk₀']
        exact ⟨rfl, rfl, rfl, rfl, rfl, rfl⟩
      have hbook : k₀.book T = k.book T := by
        rw [hk₀']
        rfl
      have hyield' : (k₁.prvAddTaskToReadyList t).xYieldPending = (b || k.xYieldPending) := by
        rw [hyield, hk₀']
      refine ⟨b, k₁.prvAddTaskToReadyList t, T', ?_, hh, hbook ▸ hedits, hclock₀.trans hclock,
        Or.inr ⟨hl, Or.inl ⟨hsusp, hwakes'⟩⟩, ?_⟩
      · rw [if_pos hsusp]
        exact Option.bind_eq_some_iff.mpr ⟨cur, hc, Option.bind_eq_some_iff.mpr ⟨k₁, hrem, rfl⟩⟩
      · apply hwakes'.prompt hc
        · intro hy
          rw [hyield', hy, Bool.or_true]
        · intro hlt
          rw [hyield', hb, decide_eq_true hlt, Bool.true_or]
    · rw [if_neg hsusp]
      have hmem : t ∈ k.created := (hk.placed t).mpr ⟨_, hl⟩
      have hnr : ¬ k.Ready t := by
        rw [Ready, hl]
        simp
      obtain ⟨T', hh, hedits, hpends⟩ := hk.pend hmem hnr hn
      refine ⟨false, _, T', rfl, hh, hedits, ⟨rfl, rfl, rfl, rfl, rfl, rfl⟩,
        Or.inr ⟨hl, Or.inr ⟨hsusp, hpends⟩⟩, hpends.prompt id⟩
  · exact ⟨false, k, T, if_neg hs, hk, Edits.refl _, SameClock.refl k, Or.inl rfl, id⟩

end
end Tasks
end RegisterWindows.Scheduler
