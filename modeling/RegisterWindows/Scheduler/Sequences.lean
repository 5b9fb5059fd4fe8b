import RegisterWindows.Lib.Run
import RegisterWindows.Scheduler.Lists

namespace RegisterWindows.Scheduler
open Node

/-- The calls that a user of the lists makes. -/
inductive ListOp (ι ℓ : Type) where
  | insertEnd (pxList : ℓ) (pxNewListItem : ι)
  | insert (pxList : ℓ) (pxNewListItem : ι)
  | setValue (pxItem : ι) (xValue : TickType)
  | remove (pxItemToRemove : ι)
  | next (pxList : ℓ)
deriving DecidableEq, Repr

namespace Lists

variable {ι ℓ : Type} {h h' : Lists ι ℓ} {i : ι} {l : ℓ}

/-- What the lists are for: the items of each list in their order, and the values of the items. -/
structure Sequences (ι ℓ : Type) where
  turns : ℓ → Turns ι
  value : ι → TickType

section
variable [DecidableEq ι] [DecidableEq ℓ]

def exec (h : Lists ι ℓ) : ListOp ι ℓ → Option (Lists ι ℓ)
  | .insertEnd pxList i => some (h.vListInsertEnd pxList i)
  | .insert pxList i => h.vListInsert pxList i
  | .setValue i v => some (h.listSetListItemValue i v)
  | .remove i => (h.uxListRemove i).map Prod.fst
  | .next pxList => some (h.listGetOwnerOfNextEntry pxList).2

/-- The same on the sequences: an item goes behind the others, or behind those whose values are not
above its own, or out of all lists, or the cursor moves on. -/
def Sequences.exec (s : Sequences ι ℓ) : ListOp ι ℓ → Sequences ι ℓ
  | .insertEnd l i => { s with turns := Function.update s.turns l ((s.turns l).insertLast i) }
  | .insert l i => { s with
      turns := Function.update s.turns l ((s.turns l).insertAt
        ((s.turns l).items.takeWhile fun j => decide (s.value j ≤ s.value i)).length i) }
  | .setValue i v => { s with value := Function.update s.value i v }
  | .remove i => { s with turns := fun l => (s.turns l).remove i }
  | .next l => { s with
      turns := Function.update s.turns l (((s.turns l).next.map Prod.snd).getD (s.turns l)) }

/-- An item is in one list at most, and only an item of a list is removed or served. -/
def Permits (h : Lists ι ℓ) : ListOp ι ℓ → Prop
  | .insertEnd _ i => h.pxContainer i = none
  | .insert _ i => h.pxContainer i = none
  | .setValue _ _ => True
  | .remove i => h.pxContainer i ≠ none
  | .next pxList => h.listListIsEmpty pxList = false

instance (h : Lists ι ℓ) : (op : ListOp ι ℓ) → Decidable (h.Permits op)
  | .insertEnd _ _ => inferInstanceAs (Decidable (_ = _))
  | .insert _ _ => inferInstanceAs (Decidable (_ = _))
  | .setValue _ _ => isTrue trivial
  | .remove _ => inferInstanceAs (Decidable (¬ _))
  | .next _ => inferInstanceAs (Decidable (_ = _))

/-- The pointers and values stand for the sequences. -/
structure Refines (h : Lists ι ℓ) (s : Sequences ι ℓ) : Prop where
  rep : h.Represents s.turns
  values : ∀ i, h.xItemValue (item i) = s.value i

omit [DecidableEq ℓ] in
/-- An item that is not in a list is not removed from it. -/
theorem remove_eq_update {T : ℓ → Turns ι} [DecidableEq ℓ] (hT : h.Represents T)
    (hi : h.pxContainer i = some l) :
    (fun m => (T m).remove i) = Function.update T l ((T l).remove i) := by
  funext m
  by_cases hm : m = l
  · subst hm
    rw [Function.update_self]
  · rw [Function.update_of_ne hm]
    have hn : i ∉ (T m).items := by
      rw [← hT.container, hi]
      simpa using Ne.symm hm
    rw [Turns.items, List.mem_append, not_or] at hn
    rw [Turns.remove, List.erase_of_not_mem hn.1, List.erase_of_not_mem hn.2]

/-- One operation of `list.c` does to the pointers what it does to the sequences. -/
theorem Refines.exec {s : Sequences ι ℓ} (hr : h.Refines s) {op : ListOp ι ℓ} (hp : h.Permits op) :
    ∃ h', h.exec op = some h' ∧ h'.Refines (s.exec op) := by
  obtain ⟨rep, hv⟩ := hr
  cases op with
  | insertEnd l i => exact ⟨_, rfl, rep.vListInsertEnd hp l, hv⟩
  | insert l i =>
    obtain ⟨h', hh', hval, _, hrep⟩ := rep.vListInsert hp l
    refine ⟨h', hh', ?_, fun j => ?_⟩
    · simp only [Represents.notAbove, hv] at hrep
      exact hrep
    · rw [hval]
      exact hv j
  | setValue i v =>
    refine ⟨_, rfl, rep.setValue i v, fun j => ?_⟩
    by_cases hj : j = i
    · subst hj
      simp [listSetListItemValue, Sequences.exec]
    · have hne : (item j : Node ι ℓ) ≠ item i := by simpa using hj
      simp only [listSetListItemValue, Sequences.exec, Function.update_of_ne hne,
        Function.update_of_ne hj]
      exact hv j
  | remove i =>
    obtain ⟨l, hl⟩ := Option.ne_none_iff_exists'.mp hp
    refine ⟨h.release l i, ?_, ?_, hv⟩
    · rw [Lists.exec, rep.uxListRemove hl]
      rfl
    · have he : (s.exec (.remove i)).turns = Function.update s.turns l ((s.turns l).remove i) :=
        remove_eq_update rep hl
      rw [he]
      exact rep.release hl
  | next l =>
    have hne : (s.turns l).next ≠ none := by
      rw [ne_eq, Turns.next_eq_none, ← rep.isEmpty]
      intro he
      have hp' : h.listListIsEmpty l = false := hp
      rw [he] at hp'
      cases hp'
    obtain ⟨⟨i, t⟩, hn⟩ := Option.ne_none_iff_exists'.mp hne
    obtain ⟨_, hrep⟩ := rep.listGetOwnerOfNextEntry hn
    refine ⟨_, rfl, ?_, hv⟩
    simp only [Sequences.exec, hn, Option.map_some, Option.getD_some]
    exact hrep

/-- Any calls in any order leave the pointers of all lists linked both ways, and standing for the
sequences that the calls describe. -/
theorem Refines.calls_refine {s : Sequences ι ℓ} {ops : List (ListOp ι ℓ)} (hr : h.Refines s)
    (hops : Runs.Along Lists.exec Permits h ops) :
    ∃ h', Runs.run Lists.exec h ops = some h' ∧ h'.Refines (ops.foldl Sequences.exec s) := by
  induction ops generalizing h s with
  | nil => exact ⟨h, rfl, hr⟩
  | cons op ops ih =>
    obtain ⟨h₁, hh₁, hr₁⟩ := hr.exec hops.1
    obtain ⟨h', hrun, hr'⟩ := ih hr₁ (hops.2 h₁ hh₁)
    exact ⟨h', Runs.run_cons.mpr ⟨h₁, hh₁, hrun⟩, hr'⟩

/-- Lists that were initialised. -/
def initial : Lists (Option Bool) Unit :=
  ⟨⟨id, id⟩, fun _ => portMaxDelay, fun _ => none, fun _ => 0, xListEnd⟩

/-- An item goes to the end, two more by their values, one is served and one removed. -/
def calls : List (ListOp (Option Bool) Unit) :=
  [.insertEnd () none, .setValue (some true) 5, .insert () (some true), .setValue (some false) 5,
    .insert () (some false), .next (), .remove none]

theorem calls_refine_initial : ∃ h', Runs.run Lists.exec initial calls = some h' ∧
    h'.Refines (calls.foldl Sequences.exec ⟨fun _ => Turns.empty, fun _ => portMaxDelay⟩) := by
  have hr : initial.Refines ⟨fun _ => Turns.empty, fun _ => portMaxDelay⟩ :=
    ⟨Represents.of_initialised (fun _ => ⟨rfl, rfl, rfl, rfl, rfl⟩) fun _ => rfl, fun _ => rfl⟩
  exact hr.calls_refine (by decide +kernel)

end
end Lists
end RegisterWindows.Scheduler
