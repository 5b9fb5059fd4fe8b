import RegisterWindows.Scheduler.Wake

namespace RegisterWindows.Scheduler
open RegisterWindows.Scheduler.Lists

namespace Tasks
open ListItem ListId

variable {τ κ : Type} {n : Nat} {k k' : Tasks τ κ n} {t x : τ} {e : Event τ κ n} {p : Fin n}
  {T T' : ListId κ n → Turns (ListItem τ)}

/-- How many entries of a history are about a priority. -/
def countOf (p : Fin n) (new : List (τ × Fin n)) : Nat := (new.map Prod.snd).count p

theorem countOf_cons_self (t : τ) (new : List (τ × Fin n)) :
    countOf p ((t, p) :: new) = countOf p new + 1 :=
  List.count_cons_self

theorem countOf_cons_ne {q : Fin n} (h : q ≠ p) (t : τ) (new : List (τ × Fin n)) :
    countOf p ((t, q) :: new) = countOf p new :=
  List.count_cons_of_ne h

theorem countOf_append (new new' : List (τ × Fin n)) :
    countOf p (new ++ new') = countOf p new + countOf p new' := by
  rw [countOf, countOf, countOf, List.map_append, List.count_append]

section
variable [DecidableEq τ] [DecidableEq κ]

theorem Edits.history {b c : Book τ κ n} (h : Edits b c) :
    ∃ r s, c.readied = r ++ b.readied ∧ c.switchedIn = s ++ b.switchedIn := by
  induction h with
  | refl => exact ⟨[], [], rfl, rfl⟩
  | tail _ hstep ih =>
    obtain ⟨r, s, hr, hs⟩ := ih
    cases hstep with
    | remove l i hd => exact ⟨r, s, hr, hs⟩
    | park l u hl => exact ⟨r, s, hr, hs⟩
    | ready t p => exact ⟨(t, p) :: r, s, congrArg _ hr, hs⟩
    | select t p u hn => exact ⟨r, (t, p) :: s, hr, congrArg _ hs⟩

/-- A task that stays in its ready list is passed over by as many others as were ahead of it, or
came to the list meanwhile. -/
theorem Edits.turn {b c : Book τ κ n} (h : Edits b c)
    (hx : xStateListItem x ∈ (c.lists (pxReadyTasksLists p)).items) :
    ∃ r s, c.readied = r ++ b.readied ∧ c.switchedIn = s ++ b.switchedIn ∧
      ((x, p) ∈ r ∨ (x, p) ∈ s ∨
        xStateListItem x ∈ (b.lists (pxReadyTasksLists p)).items ∧
          countOf p s + (c.lists (pxReadyTasksLists p)).ahead (xStateListItem x) ≤
            (b.lists (pxReadyTasksLists p)).ahead (xStateListItem x) + countOf p r) := by
  induction h with
  | refl => exact ⟨[], [], rfl, rfl, Or.inr (Or.inr ⟨hx, (Nat.add_comm _ _).le⟩)⟩
  | @tail m c hm hstep ih =>
    cases hstep with
    | remove l i hd =>
      by_cases hl : l = pxReadyTasksLists p
      · subst hl
        simp only [Function.update_self] at hx ⊢
        rw [Turns.items_remove hd, hd.mem_erase_iff] at hx
        obtain ⟨r, s, hr, hs, hor⟩ := ih hx.2
        refine ⟨r, s, hr, hs, hor.imp_right (Or.imp_right fun ⟨hxb, hle⟩ => ⟨hxb, ?_⟩)⟩
        exact Nat.le_trans (Nat.add_le_add_left (Turns.ahead_remove_le hd hx.1.symm) _) hle
      · simp only [Function.update_of_ne (Ne.symm hl)] at hx ⊢
        exact ih hx
    | park l u hl =>
      simp only [Function.update_of_ne (hl p).symm] at hx ⊢
      exact ih hx
    | ready t q =>
      by_cases hq : q = p
      · subst hq
        by_cases htx : t = x
        · subst htx
          obtain ⟨r, s, hr, hs⟩ := Edits.history hm
          exact ⟨(t, q) :: r, s, congrArg _ hr, hs, Or.inl List.mem_cons_self⟩
        · simp only [Function.update_self] at hx ⊢
          have hxm := (Turns.items_insertLast_perm _ _).mem_iff.mp hx
          have hxm' := (List.mem_cons.mp hxm).resolve_left fun he => htx (by cases he; rfl)
          obtain ⟨r, s, hr, hs, hor⟩ := ih hxm'
          refine ⟨(t, q) :: r, s, congrArg _ hr, hs, ?_⟩
          rcases hor with h | h | ⟨hxb, hle⟩
          · exact Or.inl (List.mem_cons_of_mem _ h)
          · exact Or.inr (Or.inl h)
          · refine Or.inr (Or.inr ⟨hxb, ?_⟩)
            have h1 := Turns.ahead_insertLast_le (m.lists (pxReadyTasksLists q)) (xStateListItem x)
              (xStateListItem t)
            rw [countOf_cons_self]
            omega
      · have hne : pxReadyTasksLists (κ := κ) p ≠ pxReadyTasksLists q := by
          simpa using Ne.symm hq
        simp only [Function.update_of_ne hne] at hx ⊢
        obtain ⟨r, s, hr, hs, hor⟩ := ih hx
        refine ⟨(t, q) :: r, s, congrArg _ hr, hs, ?_⟩
        rw [countOf_cons_ne hq]
        exact hor.imp_left (List.mem_cons_of_mem _)
    | select t q u hn =>
      by_cases hq : q = p
      · subst hq
        simp only [Function.update_self] at hx ⊢
        rw [Turns.items_next hn] at hx
        obtain ⟨r, s, hr, hs, hor⟩ := ih hx
        refine ⟨r, (t, q) :: s, hr, congrArg _ hs, ?_⟩
        by_cases htx : t = x
        · subst htx
          exact Or.inr (Or.inl List.mem_cons_self)
        · rcases hor with h | h | ⟨hxb, hle⟩
          · exact Or.inl h
          · exact Or.inr (Or.inl (List.mem_cons_of_mem _ h))
          · refine Or.inr (Or.inr ⟨hxb, ?_⟩)
            have h1 := Turns.ahead_next hn hx fun he => htx (by cases he; rfl)
            rw [countOf_cons_self]
            omega
      · have hne : pxReadyTasksLists (κ := κ) p ≠ pxReadyTasksLists q := by
          simpa using Ne.symm hq
        simp only [Function.update_of_ne hne] at hx ⊢
        obtain ⟨r, s, hr, hs, hor⟩ := ih hx
        refine ⟨r, (t, q) :: s, hr, congrArg _ hs, ?_⟩
        rw [countOf_cons_ne hq]
        exact hor.imp_right (Or.imp_left (List.mem_cons_of_mem _))

end

/-- Only tasks that were not ready become ready. -/
def Fresh (k k' : Tasks τ κ n) : Prop :=
  ∃ new, k'.readied = new ++ k.readied ∧ ∀ t p, (t, p) ∈ new → ¬ k.Ready t

theorem Fresh.of_eq (h : k'.readied = k.readied) : Fresh k k' := ⟨[], h, by simp⟩

theorem Wakes.fresh {W : τ → Prop} (h : Wakes W k k') (hw : ∀ t, W t → ¬ k.Ready t) :
    Fresh k k' := by
  obtain ⟨new, hr, hn⟩ := h.readied
  exact ⟨new, hr, fun t p hm => hw t ((hn t p).mp hm).1⟩

theorem Fresh.orSwitched {k₁ : Tasks τ κ n} (h : Fresh k k₁) (hor : k' = k₁ ∨ Switched k₁ k') :
    Fresh k k' := by
  rcases hor with rfl | hsw
  · exact h
  · obtain ⟨new, hr, hn⟩ := h
    exact ⟨new, hsw.readied.trans hr, hn⟩

theorem Adds.fresh (h : Adds t p k k') (hk : k.Core T) (ht : t ∉ k.created) : Fresh k k' := by
  refine ⟨[(t, p)], h.readied, fun u q hm => ?_⟩
  rw [List.mem_singleton, Prod.mk.injEq] at hm
  obtain ⟨rfl, _⟩ := hm
  exact fun hr => ht ((hk.placed u).mpr ⟨_, hr⟩)

theorem Notified.fresh (h : Notified t k k') (hr : ¬ k.Ready t) : Fresh k k' := by
  rcases h with ⟨_, hw⟩ | ⟨_, hp⟩
  · exact hw.fresh fun u hu => hu ▸ hr
  · exact Fresh.of_eq hp.readied

theorem Effect.fresh [NeZero n] (hk : k.Inv T) (ha : k.Allowed e) (he : Effect k k' e) :
    Fresh k k' := by
  have hdawn : ∀ m t, k.Dawn m t → ¬ k.Ready t := fun m t hd hr => hk.not_delayed hr hd.1
  have hwait : ∀ t l, k.place (xEventListItem t) = some l → ¬ k.Ready t := by
    intro t l hl hr
    rw [hk.free t hr] at hl
    cases hl
  cases e with
  | create u q =>
    obtain ⟨k₁, hadds, hor⟩ := he
    exact (hadds.fresh hk.toCore ha).orSwitched hor
  | start u =>
    obtain ⟨k₁, k₂, hadds, hor, rfl⟩ := he
    obtain ⟨new, hr, hn⟩ := (hadds.fresh hk.toCore ha.1).orSwitched hor
    exact ⟨new, hr, hn⟩
  | tick =>
    rcases he with ⟨_, rfl⟩ | ⟨_, k₁, hwakes, _, _, hor, _⟩
    · exact Fresh.of_eq rfl
    · exact (hwakes.fresh (hdawn 1)).orSwitched hor
  | yield => exact Fresh.of_eq (Switched.readied he)
  | suspendAll =>
    subst he
    exact Fresh.of_eq rfl
  | resumeAll =>
    rcases he with ⟨_, rfl⟩ | ⟨_, k₁, hres, hor, _⟩
    · exact Fresh.of_eq rfl
    · refine (hres.wakes.fresh fun t ht => ?_).orSwitched hor
      rcases ht with hp | hd
      · exact hwait t _ hp
      · exact hdawn _ t hd
  | catchUp d =>
    subst he
    exact Fresh.of_eq rfl
  | block d =>
    obtain ⟨cur, _, _, _, hparks, _⟩ := he
    exact Fresh.of_eq hparks.readied
  | placeOnEventList q d =>
    obtain ⟨cur, _, _, _, hparks, _⟩ := he
    exact Fresh.of_eq hparks.readied
  | removeFromEventList q =>
    obtain ⟨u, _, hplace, _, _, hnot⟩ := he
    exact hnot.fresh (hwait u _ hplace)
  | suspend u => exact Fresh.of_eq he.1.readied
  | resetUnblockTime =>
    obtain ⟨u, rfl⟩ := he
    exact Fresh.of_eq rfl
  | resume u =>
    rcases he with rfl | ⟨hz, k₁, _, hwakes, _, _, hor⟩
    · exact Fresh.of_eq rfl
    · refine (hwakes.fresh fun t ht hr => ?_).orSwitched hor
      cases ht
      exact hr.not_suspended hz
  | resumeFromISR u =>
    obtain ⟨_, rfl | ⟨hz, hnot⟩⟩ := he
    · exact Fresh.of_eq rfl
    · exact hnot.fresh fun hr => hr.not_suspended hz

section
variable [DecidableEq τ] [DecidableEq κ]

/-- What a task that stays ready sees of a run: the edits of the lists, and who became ready. -/
theorem Inv.run_ready [NeZero n] {es : List (Event τ κ n)} (hk : k.Inv T) (hx : k.Ready x)
    (hes : Runs.Along Tasks.step (fun k e => k.Allowed e ∧ ¬ Stops x k e) k es)
    (hrun : Runs.run Tasks.step k es = some k') :
    ∃ T' new, k'.Inv T' ∧ k'.Ready x ∧ k'.uxPriority x = k.uxPriority x ∧
      Edits (k.book T) (k'.book T') ∧ k'.readied = new ++ k.readied ∧ ∀ p, (x, p) ∉ new := by
  induction es generalizing k T with
  | nil =>
    cases hrun
    exact ⟨T, [], hk, hx, rfl, Edits.refl _, rfl, by simp⟩
  | cons e es ih =>
    obtain ⟨k₁, hk₁, hrun⟩ := Runs.run_cons.mp hrun
    obtain ⟨ha, hs⟩ := hes.1
    obtain ⟨k₂, T₁, hk₂, hinv, hedits, he⟩ := hk.step ha
    cases hk₁.symm.trans hk₂
    have hx₁ := he.stays_ready hk ha hs hx
    have hp₁ := (he.keeps_ready hk ha hs hx).uxPriority
    obtain ⟨T', new, hinv', hx', hp', hedits', hr', hn'⟩ := ih hinv hx₁ (hes.2 k₁ hk₁) hrun
    obtain ⟨new₁, hr₁, hn₁⟩ := he.fresh hk ha
    refine ⟨T', new ++ new₁, hinv', hx', hp'.trans hp₁, hedits.trans hedits', ?_, fun p hm => ?_⟩
    · rw [hr', hr₁, List.append_assoc]
    · rcases List.mem_append.mp hm with h | h
      · exact hn' p h
      · exact hn₁ x p h hx

/-- A ready task that is not chosen is passed over at its priority by the tasks ahead of it, and by
those that come to the list. -/
theorem Inv.run_turns [NeZero n] {es : List (Event τ κ n)} (hk : k.Inv T) (hx : k.Ready x)
    (hes : Runs.Along Tasks.step (fun k e => k.Allowed e ∧ ¬ Stops x k e) k es)
    (hrun : Runs.run Tasks.step k es = some k') :
    ∃ r s, k'.readied = r ++ k.readied ∧ k'.switchedIn = s ++ k.switchedIn ∧
      ((x, k.uxPriority x) ∈ s ∨ countOf (k.uxPriority x) s <
        k.lists.uxNumberOfItems (pxReadyTasksLists (k.uxPriority x)) +
          countOf (k.uxPriority x) r) := by
  obtain ⟨T', new, hinv', hx', hp', hedits, hr, hn⟩ := hk.run_ready hx hes hrun
  have hmem : xStateListItem x ∈ (T' (pxReadyTasksLists (k.uxPriority x))).items := by
    rw [hinv'.mem, ← hp']
    exact hx'
  obtain ⟨r, s, hr', hs', hor⟩ := hedits.turn hmem
  have hrn : r = new := List.append_cancel_right (hr'.symm.trans hr)
  refine ⟨r, s, hr', hs', ?_⟩
  rcases hor with h | h | ⟨hxb, hle⟩
  · rw [hrn] at h
    exact absurd h (hn _)
  · exact Or.inl h
  · have hlt := Turns.ahead_lt hxb
    rw [hk.rep.number]
    refine Or.inr (Nat.lt_of_le_of_lt (Nat.le_trans (Nat.le_add_right _ _) hle) ?_)
    exact Nat.add_lt_add_right hlt _

/-- Round robin: a task that stays ready is chosen before as many choices fall on its priority as
tasks were ready at it at first, or became ready at it meanwhile. -/
theorem Reachable.round_robin [NeZero n] {es : List (Event τ κ n)} (hk : k.Reachable)
    (hx : k.Ready x) (hes : Runs.Along Tasks.step (fun k e => k.Allowed e ∧ ¬ Stops x k e) k es)
    (hrun : Runs.run Tasks.step k es = some k') :
    ∃ r s, k'.readied = r ++ k.readied ∧ k'.switchedIn = s ++ k.switchedIn ∧
      ((x, k.uxPriority x) ∈ s ∨ countOf (k.uxPriority x) s <
        k.lists.uxNumberOfItems (pxReadyTasksLists (k.uxPriority x)) +
          countOf (k.uxPriority x) r) := by
  obtain ⟨T, hinv⟩ := hk.inv_of_place hx
  exact hinv.run_turns hx hes hrun

theorem round_robin_boot : ∃ k k' : Tasks (Fin 3) Unit 2,
    Runs.run Tasks.step powerUp boot = some k ∧ Runs.run Tasks.step k [.yield, .tick] = some k' ∧
      ∃ r s, k'.readied = r ++ k.readied ∧ k'.switchedIn = s ++ k.switchedIn ∧
        (((1 : Fin 3), k.uxPriority 1) ∈ s ∨ countOf (k.uxPriority 1) s <
          k.lists.uxNumberOfItems (pxReadyTasksLists (k.uxPriority 1)) +
            countOf (k.uxPriority 1) r) := by
  obtain ⟨k, hrun, hk, hx, hes, hsome⟩ := Reachable.of_powerUp boot_along
    (P := fun k => k.Ready 1 ∧
      Runs.Along Tasks.step (fun k e => k.Allowed e ∧ ¬ Stops 1 k e) k [.yield, .tick] ∧
      (Runs.run Tasks.step k [.yield, .tick]).isSome)
    (by decide +kernel)
  obtain ⟨k', hk'⟩ := Option.isSome_iff_exists.mp hsome
  exact ⟨k, k', hrun, hk', hk.round_robin hx hes hk'⟩

/-- No ready task has a higher priority. -/
def Highest (x : τ) (k : Tasks τ κ n) : Prop := ∀ u, k.Ready u → k.uxPriority u ≤ k.uxPriority x

instance {m : Nat} (x : Fin m) (k : Tasks (Fin m) κ n) : Decidable (Highest x k) :=
  inferInstanceAs (Decidable (∀ u, k.Ready u → _))

/-- A tick that interrupts another ready task, while the scheduler is not suspended. -/
def TicksOther (x : τ) (k : Tasks τ κ n) (e : Event τ κ n) : Prop :=
  e = .tick ∧ k.uxSchedulerSuspended = 0 ∧ ∃ cur ∈ k.pxCurrentTCB, cur ≠ x ∧ k.Ready cur

instance (x : τ) (k : Tasks τ κ n) (e : Event τ κ n) : Decidable (TicksOther x k e) :=
  inferInstanceAs (Decidable (_ ∧ _ ∧ ∃ cur ∈ k.pxCurrentTCB, _))

omit [DecidableEq τ] [DecidableEq κ] in
/-- Such a tick ends the time slice: a task of the highest priority is chosen anew. -/
theorem TickEffect.slice {cur : τ} (h : TickEffect k k') (hs : k.uxSchedulerSuspended = 0)
    (hc : k.pxCurrentTCB = some cur) (hne : cur ≠ x) (hrc : k.Ready cur) (hx : k.Ready x)
    (htop : Highest x k') : ∃ t, k'.switchedIn = (t, k.uxPriority x) :: k.switchedIn := by
  obtain ⟨k₁, hwakes, htick, _, hor, hcalm, hslice⟩ := h
  have hrc₁ : k₁.Ready cur := hwakes.ready_iff.mpr (Or.inr hrc)
  have hx₁ : k₁.Ready x := hwakes.ready_iff.mpr (Or.inr hx)
  have hp₁ : k₁.uxPriority = k.uxPriority := hwakes.tasks.uxPriority
  have hsw : Switched k₁ k' := by
    rcases hor with rfl | hsw
    · have hge := hcalm cur (hwakes.current.trans hc) x hx₁
      have hle := htop cur hrc₁
      rw [hp₁] at hge hle
      exact hslice cur x hc hne.symm hrc₁ hx₁ (le_antisymm hge hle)
    · exact hsw
  have hp' : k'.uxPriority = k.uxPriority := hsw.sameTasks.uxPriority.trans hp₁
  have hready := fun u => hsw.ready (t := u)
  rcases hsw with ⟨hne', _⟩ | ⟨_, t, ht⟩
  · exact absurd (htick.uxSchedulerSuspended.trans hs) hne'
  · refine ⟨t, ?_⟩
    have hge := ht.highest x hx₁
    have hle := htop t ((hready t).mpr ht.ready)
    rw [hp'] at hle
    rw [hp₁] at hge
    rw [ht.switchedIn, hwakes.switchedIn, hp₁, le_antisymm hle hge]

theorem Inv.run_slices [NeZero n] {es : List (Event τ κ n)} (hk : k.Inv T) (hx : k.Ready x)
    (hes : Runs.Along Tasks.step (fun k e => k.Allowed e ∧ ¬ Stops x k e ∧ Highest x k) k es)
    (hrun : Runs.run Tasks.step k es = some k') (htop : Highest x k') :
    ∃ s, k'.switchedIn = s ++ k.switchedIn ∧
      Runs.count Tasks.step (TicksOther x) k es ≤ countOf (k.uxPriority x) s := by
  induction es generalizing k T with
  | nil =>
    cases hrun
    exact ⟨[], rfl, Nat.le_refl _⟩
  | cons e es ih =>
    obtain ⟨k₁, hk₁, hrun₁⟩ := Runs.run_cons.mp hrun
    obtain ⟨ha, hs, _⟩ := hes.1
    obtain ⟨k₂, T₁, hk₂, hinv, _, he⟩ := hk.step ha
    cases hk₁.symm.trans hk₂
    have hkeep := he.keeps_ready hk ha hs hx
    obtain ⟨s, hsw, hcount⟩ := ih hinv (hkeep.ready.mpr hx) (hes.2 k₁ hk₁) hrun₁
    rw [hkeep.uxPriority] at hcount
    rw [Runs.count_cons hk₁]
    by_cases htick : TicksOther x k e
    · obtain ⟨rfl, h0, cur, hc, hne, hrc⟩ := htick
      have htop₁ : Highest x k₁ := by
        cases es with
        | nil =>
          cases hrun₁
          exact htop
        | cons f fs => exact (hes.2 k₁ hk₁).1.2.2
      rcases he with ⟨hne', _⟩ | ⟨_, htk⟩
      · exact absurd h0 hne'
      · obtain ⟨t, ht⟩ := htk.slice h0 hc hne hrc hx htop₁
        refine ⟨s ++ [(t, k.uxPriority x)], by rw [hsw, ht, List.append_assoc]; rfl, ?_⟩
        rw [if_pos ⟨rfl, h0, cur, hc, hne, hrc⟩, countOf_append, countOf_cons_self, Nat.add_comm]
        exact Nat.add_le_add_right hcount 1
    · rw [if_neg htick, Nat.zero_add]
      rcases he.chosen with hsame | ⟨t, ht, _⟩
      · exact ⟨s, by rw [hsw, hsame], hcount⟩
      · refine ⟨s ++ [(t, k₁.uxPriority t)], by rw [hsw, ht, List.append_assoc]; rfl, ?_⟩
        rw [countOf_append]
        exact Nat.le_trans hcount (Nat.le_add_right _ _)

/-- Time slices: a ready task of the highest priority is chosen before as many ticks interrupt
others as tasks were ready at its priority at first, or became ready at it meanwhile. -/
theorem Reachable.time_slices [NeZero n] {es : List (Event τ κ n)} (hk : k.Reachable)
    (hx : k.Ready x)
    (hes : Runs.Along Tasks.step (fun k e => k.Allowed e ∧ ¬ Stops x k e ∧ Highest x k) k es)
    (hrun : Runs.run Tasks.step k es = some k') (htop : Highest x k') :
    ∃ r s, k'.readied = r ++ k.readied ∧ k'.switchedIn = s ++ k.switchedIn ∧
      ((x, k.uxPriority x) ∈ s ∨ Runs.count Tasks.step (TicksOther x) k es <
        k.lists.uxNumberOfItems (pxReadyTasksLists (k.uxPriority x)) +
          countOf (k.uxPriority x) r) := by
  obtain ⟨T, hinv⟩ := hk.inv_of_place hx
  obtain ⟨s', hs', hcount⟩ := hinv.run_slices hx hes hrun htop
  obtain ⟨r, s, hr, hs, hor⟩ := hinv.run_turns hx (hes.mono fun _ _ h => ⟨h.1, h.2.1⟩) hrun
  refine ⟨r, s, hr, hs, hor.imp_right fun hlt => Nat.lt_of_le_of_lt ?_ hlt⟩
  have he : s = s' := List.append_cancel_right (hs.symm.trans hs')
  rw [he]
  exact hcount

/-- Three ticks, of which one interrupts the other task: the first is pended, and resuming the
scheduler ends the slice of the other task then. -/
def sliceTicks : List (Event (Fin 3) Unit 2) := [.suspendAll, .tick, .resumeAll, .tick, .tick]

theorem time_slices_boot : ∃ k k' : Tasks (Fin 3) Unit 2,
    Runs.run Tasks.step powerUp boot = some k ∧ Runs.run Tasks.step k sliceTicks = some k' ∧
      ∃ r s, k'.readied = r ++ k.readied ∧ k'.switchedIn = s ++ k.switchedIn ∧
        (((1 : Fin 3), k.uxPriority 1) ∈ s ∨ Runs.count Tasks.step (TicksOther 1) k sliceTicks <
          k.lists.uxNumberOfItems (pxReadyTasksLists (k.uxPriority 1)) +
            countOf (k.uxPriority 1) r) := by
  obtain ⟨k, hrun, hk, hx, hes, h⟩ := Reachable.of_powerUp boot_along
    (P := fun k => k.Ready 1 ∧
      Runs.Along Tasks.step (fun k e => k.Allowed e ∧ ¬ Stops 1 k e ∧ Highest 1 k) k sliceTicks ∧
      (Runs.run Tasks.step k sliceTicks).any (fun k' => decide (Highest 1 k')) = true)
    (by decide +kernel)
  obtain ⟨k', hk', htop⟩ := (Option.any_eq_true _ _).mp h
  exact ⟨k, k', hrun, hk', hk.time_slices hx hes hk' (of_decide_eq_true htop)⟩

end
end Tasks
end RegisterWindows.Scheduler
