import Mathlib.Data.List.TakeWhile
import RegisterWindows.Lib.Links
import RegisterWindows.Lib.Turns

namespace RegisterWindows.Scheduler

abbrev TickType := BitVec 32

def portMaxDelay : TickType := 0xffffffff

/-- A `ListItem_t *`: an item, or the end marker inside a list. -/
inductive Node (ι ℓ : Type) where
  | item (i : ι)
  | xListEnd (l : ℓ)
deriving DecidableEq, Repr

/-- The members of all items and lists. `links` are `pxNext` and `pxPrevious`; the owner of
an item does not change and is left to the type of the items. -/
structure Lists (ι ℓ : Type) where
  links : Links (Node ι ℓ)
  xItemValue : Node ι ℓ → TickType
  pxContainer : ι → Option ℓ
  uxNumberOfItems : ℓ → Nat
  pxIndex : ℓ → Node ι ℓ

namespace Lists
open Node

section
variable {ι ℓ : Type} [DecidableEq ι] [DecidableEq ℓ]

def vListInitialise (h : Lists ι ℓ) (pxList : ℓ) : Lists ι ℓ where
  links := (h.links.setNext (xListEnd pxList) (xListEnd pxList)).setPrev
    (xListEnd pxList) (xListEnd pxList)
  xItemValue := Function.update h.xItemValue (xListEnd pxList) portMaxDelay
  pxContainer := h.pxContainer
  uxNumberOfItems := Function.update h.uxNumberOfItems pxList 0
  pxIndex := Function.update h.pxIndex pxList (xListEnd pxList)

def vListInitialiseItem (h : Lists ι ℓ) (pxItem : ι) : Lists ι ℓ :=
  { h with pxContainer := Function.update h.pxContainer pxItem none }

def listSetListItemValue (h : Lists ι ℓ) (pxItem : ι) (xValue : TickType) : Lists ι ℓ :=
  { h with xItemValue := Function.update h.xItemValue (item pxItem) xValue }

def listListIsEmpty (h : Lists ι ℓ) (pxList : ℓ) : Bool := h.uxNumberOfItems pxList == 0

def listGetHeadEntry (h : Lists ι ℓ) (pxList : ℓ) : Node ι ℓ := h.links.next (xListEnd pxList)

def listGetItemValueOfHeadEntry (h : Lists ι ℓ) (pxList : ℓ) : TickType :=
  h.xItemValue (h.listGetHeadEntry pxList)

/-- The item a pointer leads to, unless it is an end marker, which has no owner. -/
def itemAt : Node ι ℓ → Option ι
  | item i => some i
  | xListEnd _ => none

/-- The stores that make a linked item one of the list. -/
def contain (h : Lists ι ℓ) (pxList : ℓ) (pxItem : ι) (links : Links (Node ι ℓ)) : Lists ι ℓ :=
  { h with
    links := links
    pxContainer := Function.update h.pxContainer pxItem (some pxList)
    uxNumberOfItems := Function.update h.uxNumberOfItems pxList (h.uxNumberOfItems pxList + 1) }

/-- `vListInsertEnd`, and the macro `listINSERT_END` with the same stores. -/
def vListInsertEnd (h : Lists ι ℓ) (pxList : ℓ) (pxNewListItem : ι) : Lists ι ℓ :=
  h.contain pxList pxNewListItem (h.links.insertBefore (h.pxIndex pxList) (item pxNewListItem))

/-- The `for` loop of `vListInsert`, given up after a number of rounds. -/
def insertPosition (h : Lists ι ℓ) (xValueOfInsertion : TickType) :
    Nat → Node ι ℓ → Option (Node ι ℓ)
  | 0, _ => none
  | n + 1, pxIterator =>
    if h.xItemValue (h.links.next pxIterator) ≤ xValueOfInsertion then
      insertPosition h xValueOfInsertion n (h.links.next pxIterator)
    else some pxIterator

def vListInsert (h : Lists ι ℓ) (pxList : ℓ) (pxNewListItem : ι) : Option (Lists ι ℓ) :=
  let xValueOfInsertion := h.xItemValue (item pxNewListItem)
  let pxIterator :=
    if xValueOfInsertion = portMaxDelay then some (h.links.prev (xListEnd pxList))
    else h.insertPosition xValueOfInsertion (h.uxNumberOfItems pxList + 1) (xListEnd pxList)
  pxIterator.map fun pxIterator =>
    h.contain pxList pxNewListItem (h.links.insertAfter pxIterator (item pxNewListItem))

/-- The stores that take an item out of the list it is in. -/
def release (h : Lists ι ℓ) (pxList : ℓ) (pxItem : ι) : Lists ι ℓ :=
  { h with
    links := h.links.remove (item pxItem)
    pxIndex :=
      if h.pxIndex pxList = item pxItem then
        Function.update h.pxIndex pxList (h.links.prev (item pxItem))
      else h.pxIndex
    pxContainer := Function.update h.pxContainer pxItem none
    uxNumberOfItems := Function.update h.uxNumberOfItems pxList (h.uxNumberOfItems pxList - 1) }

/-- `uxListRemove`, and the macro `listREMOVE_ITEM` with the same stores; an item in no list
has no container to read. -/
def uxListRemove (h : Lists ι ℓ) (pxItemToRemove : ι) : Option (Lists ι ℓ × Nat) :=
  (h.pxContainer pxItemToRemove).map fun pxList =>
    (h.release pxList pxItemToRemove, h.uxNumberOfItems pxList - 1)

/-- `listGET_OWNER_OF_NEXT_ENTRY`, which answers with the item. -/
def listGetOwnerOfNextEntry (h : Lists ι ℓ) (pxList : ℓ) : Option ι × Lists ι ℓ :=
  let pxIndex := h.links.next (h.pxIndex pxList)
  let pxIndex := if pxIndex = xListEnd pxList then h.links.next (xListEnd pxList) else pxIndex
  (itemAt pxIndex, { h with pxIndex := Function.update h.pxIndex pxList pxIndex })

end

variable {ι ℓ : Type} {h : Lists ι ℓ} {T : ℓ → Turns ι} {l l' : ℓ} {i j : ι}

/-- The nodes of a list that holds the items. -/
def nodes (l : ℓ) (xs : List ι) : List (Node ι ℓ) := xListEnd l :: xs.map item

/-- The lists hold the items of `T`, in this order, and their indexes are at its cursors. -/
structure Represents (h : Lists ι ℓ) (T : ℓ → Turns ι) : Prop where
  ring : ∀ l, h.links.Ring (nodes l (T l).items : Cycle (Node ι ℓ))
  index : ∀ l, h.pxIndex l = (T l).cursor.elim (xListEnd l) item
  number : ∀ l, h.uxNumberOfItems l = (T l).items.length
  container : ∀ i l, h.pxContainer i = some l ↔ i ∈ (T l).items
  endValue : ∀ l, h.xItemValue (xListEnd l) = portMaxDelay

theorem le_portMaxDelay (v : TickType) : v ≤ portMaxDelay := by
  rw [BitVec.le_def, portMaxDelay]
  exact Nat.le_of_lt_succ v.isLt

theorem portMaxDelay_le {v : TickType} : portMaxDelay ≤ v ↔ v = portMaxDelay := by
  constructor
  · intro hv
    exact BitVec.le_antisymm (le_portMaxDelay v) hv
  · intro hv
    rw [hv]
    exact BitVec.le_refl _

theorem item_injective : Function.Injective (item : ι → Node ι ℓ) := fun i j he => by
  cases he
  rfl

theorem mem_nodes {xs : List ι} {n : Node ι ℓ} :
    n ∈ nodes l xs ↔ n = xListEnd l ∨ ∃ i ∈ xs, n = item i := by
  simp [nodes, eq_comm]

@[simp] theorem item_mem_nodes {xs : List ι} : item i ∈ nodes l xs ↔ i ∈ xs := by
  simp [mem_nodes]

namespace Represents

theorem nodup (hT : h.Represents T) (l : ℓ) : (T l).items.Nodup := by
  have hn := Cycle.nodup_coe_iff.mp (hT.ring l).nodup
  exact List.Nodup.of_map item (List.nodup_cons.mp hn).2

theorem unique (hT : h.Represents T) (hi : i ∈ (T l).items) (hi' : i ∈ (T l').items) : l = l' := by
  have hc := (hT.container i l).mpr hi
  rw [(hT.container i l').mpr hi'] at hc
  exact (Option.some.inj hc).symm

theorem disjoint (hT : h.Represents T) (hl : l ≠ l') :
    (nodes l (T l).items).Disjoint (nodes l' (T l').items) := by
  intro n hn hn'
  rcases mem_nodes.mp hn with rfl | ⟨i, hi, rfl⟩
  · rcases mem_nodes.mp hn' with he | ⟨j, _, he⟩
    · exact hl (Node.xListEnd.inj he)
    · cases he
  · exact hl (hT.unique hi (item_mem_nodes.mp hn'))

theorem not_mem (hT : h.Represents T) (hi : h.pxContainer i = none) (l : ℓ) : i ∉ (T l).items := by
  intro hm
  rw [(hT.container i l).mpr hm] at hi
  cases hi

theorem isEmpty (hT : h.Represents T) (l : ℓ) :
    h.listListIsEmpty l = true ↔ (T l).items = [] := by
  simp [listListIsEmpty, hT.number l]

theorem head (hT : h.Represents T) (l : ℓ) :
    h.listGetHeadEntry l = (T l).items.head?.elim (xListEnd l) item := by
  have hr := hT.ring l
  unfold listGetHeadEntry
  cases hx : (T l).items with
  | nil =>
    rw [hx] at hr
    exact hr.next_self
  | cons x xs =>
    rw [hx] at hr
    exact hr.next_cons

end Represents

/-- What `vListInitialise` leaves of a list. -/
structure Initialised (h : Lists ι ℓ) (l : ℓ) : Prop where
  next : h.links.next (xListEnd l) = xListEnd l
  prev : h.links.prev (xListEnd l) = xListEnd l
  index : h.pxIndex l = xListEnd l
  number : h.uxNumberOfItems l = 0
  endValue : h.xItemValue (xListEnd l) = portMaxDelay

theorem Represents.of_initialised (hl : ∀ l, h.Initialised l) (hc : ∀ i, h.pxContainer i = none) :
    h.Represents fun _ => Turns.empty where
  ring l := by
    rw [nodes, Turns.empty, Turns.items, List.append_nil, List.map_nil, Links.ring_iff,
      Links.path_nil]
    exact ⟨⟨(hl l).next, (hl l).prev⟩, List.nodup_singleton _⟩
  index l := (hl l).index
  number l := (hl l).number
  container i l := by simp [hc, Turns.empty, Turns.items]
  endValue l := (hl l).endValue

section
variable [DecidableEq ι] [DecidableEq ℓ]

theorem vListInitialise_initialised (h : Lists ι ℓ) (l : ℓ) :
    (h.vListInitialise l).Initialised l := by
  constructor <;> simp [vListInitialise, Links.setNext, Links.setPrev]

theorem Initialised.vListInitialise (hl : h.Initialised l) (l' : ℓ) :
    (h.vListInitialise l').Initialised l := by
  by_cases he : l = l'
  · rw [he]
    exact vListInitialise_initialised h l'
  · have hne : xListEnd (ι := ι) l ≠ xListEnd l' := fun hx => he (Node.xListEnd.inj hx)
    obtain ⟨hn, hp, hi, hu, hv⟩ := hl
    constructor <;>
      simp [Lists.vListInitialise, Links.setNext, Links.setPrev, Function.update_of_ne hne,
        Function.update_of_ne he, hn, hp, hi, hu, hv]

namespace Represents

theorem contain (hT : h.Represents T) (hi : h.pxContainer i = none) {t : Turns ι}
    {links : Links (Node ι ℓ)} (hring : links.Ring (nodes l t.items : Cycle (Node ι ℓ)))
    (hother : ∀ l', l' ≠ l → links.Ring (nodes l' (T l').items : Cycle (Node ι ℓ)))
    (hcur : t.cursor = (T l).cursor) (hperm : t.items.Perm (i :: (T l).items)) :
    (h.contain l i links).Represents (Function.update T l t) := by
  constructor
  · intro l'
    by_cases hl : l' = l
    · subst hl
      simpa [Lists.contain] using hring
    · simpa [Lists.contain, Function.update_of_ne hl] using hother l' hl
  · intro l'
    by_cases hl : l' = l
    · subst hl
      simpa [Lists.contain, hcur] using hT.index l'
    · simpa [Lists.contain, Function.update_of_ne hl] using hT.index l'
  · intro l'
    by_cases hl : l' = l
    · subst hl
      simp [Lists.contain, hperm.length_eq, hT.number]
    · simpa [Lists.contain, Function.update_of_ne hl] using hT.number l'
  · intro j l'
    have hni : i ∉ (T l').items := hT.not_mem hi l'
    by_cases hj : j = i
    · subst hj
      by_cases hl : l' = l
      · subst hl
        simp [Lists.contain, hperm.mem_iff]
      · simp [Lists.contain, Function.update_of_ne hl, hni, Ne.symm hl]
    · by_cases hl : l' = l
      · subst hl
        simp [Lists.contain, hperm.mem_iff, hj, hT.container]
      · simp [Lists.contain, Function.update_of_ne hj, Function.update_of_ne hl, hT.container]
  · exact hT.endValue

omit [DecidableEq ι] [DecidableEq ℓ] in
theorem index_mem (hT : h.Represents T) (l : ℓ) : h.pxIndex l ∈ nodes l (T l).items := by
  rw [hT.index l]
  cases hc : (T l).cursor with
  | none => simp [nodes]
  | some c =>
    have hm : c ∈ (T l).done := List.mem_of_getLast? hc
    simp [Turns.items, hm]

theorem vListInsertEnd (hT : h.Represents T) (hi : h.pxContainer i = none) (l : ℓ) :
    (h.vListInsertEnd l i).Represents (Function.update T l ((T l).insertLast i)) := by
  have hn : item i ∉ nodes l (T l).items := by simpa using hT.not_mem hi l
  have hne : h.pxIndex l ≠ item i := fun he => hn (he ▸ hT.index_mem l)
  apply hT.contain hi
  · have hr := hT.ring l
    rcases (T l).insertLast_cases i with ⟨hd, he⟩ | ⟨d, c, hd, he⟩
    · have hx : h.pxIndex l = xListEnd l := by simp [hT.index l, Turns.cursor, hd]
      rw [he, hx]
      simpa [nodes, Turns.items, hd] using Links.Ring.insertBefore hr hn
    · have hx : h.pxIndex l = item c := by simp [hT.index l, Turns.cursor, hd]
      have hs : nodes l (T l).items = nodes l d ++ item c :: ((T l).todo.map item) := by
        simp [nodes, Turns.items, hd]
      rw [hs] at hr hn
      rw [he, hx]
      simpa [nodes, Turns.items] using hr.insertBefore_at hn
  · intro l' hl
    exact (hT.ring l').insertBefore_other (hT.ring l) (hT.disjoint hl.symm) (hT.index_mem l) hne
      (by simpa using hT.not_mem hi l')
  · exact (T l).cursor_insertLast i
  · exact (T l).items_insertLast_perm i

omit [DecidableEq ι] [DecidableEq ℓ] in
/-- The loop stops at the last node that is not above the new value. -/
theorem insertPosition {v : TickType} {rest : List (Node ι ℓ)} {it e : Node ι ℓ} {n : Nat}
    (hp : h.links.Path it rest e) (he : ¬ h.xItemValue e ≤ v) (hn : rest.length < n) :
    ∃ s it', it :: rest.takeWhile (fun x => decide (h.xItemValue x ≤ v)) = s ++ [it'] ∧
      h.insertPosition v n it = some it' := by
  induction rest generalizing it n with
  | nil =>
    cases n with
    | zero => simp at hn
    | succ n =>
      have hnx := (Links.path_nil.mp hp).1
      rw [← hnx] at he
      exact ⟨[], it, rfl, if_neg he⟩
  | cons y rest ih =>
    cases n with
    | zero => simp at hn
    | succ n =>
      obtain ⟨⟨hnx, _⟩, hyr⟩ := Links.path_cons.mp hp
      by_cases hv : h.xItemValue y ≤ v
      · obtain ⟨s, it', hs, hr⟩ := ih hyr (by simpa using hn)
        refine ⟨it :: s, it', ?_, ?_⟩
        · rw [List.takeWhile_cons_of_pos (by simpa using hv), hs]
          rfl
        · rw [← hr, ← hnx]
          exact if_pos (hnx ▸ hv)
      · refine ⟨[], it, ?_, ?_⟩
        · rw [List.takeWhile_cons_of_neg (by simpa using hv)]
          rfl
        · rw [← hnx] at hv
          exact if_neg hv

theorem setValue (hT : h.Represents T) (i : ι) (v : TickType) :
    (h.listSetListItemValue i v).Represents T :=
  ⟨hT.ring, hT.index, hT.number, hT.container, fun l => by
    simp [listSetListItemValue, hT.endValue l]⟩

/-- The items of a list that a new item of value `v` goes behind. -/
def notAbove (h : Lists ι ℓ) (v : TickType) (xs : List ι) : List ι :=
  xs.takeWhile fun j => decide (h.xItemValue (item j) ≤ v)

omit [DecidableEq ι] [DecidableEq ℓ] in
theorem pairwise_insertAt {t : Turns ι} (i : ι)
    (hs : t.items.Pairwise fun a b => h.xItemValue (item a) ≤ h.xItemValue (item b)) :
    (t.insertAt (notAbove h (h.xItemValue (item i)) t.items).length i).items.Pairwise
      fun a b => h.xItemValue (item a) ≤ h.xItemValue (item b) := by
  apply Turns.pairwise_insertAt
  · intro a b c hab hbc
    exact BitVec.le_trans hab hbc
  · exact hs
  · intro y hy
    exact of_decide_eq_true hy
  · intro y hy
    have hn : ¬ h.xItemValue (item y) ≤ h.xItemValue (item i) := by simpa using hy
    exact BitVec.le_of_lt (BitVec.not_le.mp hn)

theorem vListInsert (hT : h.Represents T) (hi : h.pxContainer i = none) (l : ℓ) :
    ∃ h', h.vListInsert l i = some h' ∧ h'.xItemValue = h.xItemValue ∧
      h'.pxContainer = Function.update h.pxContainer i (some l) ∧
      h'.Represents (Function.update T l
        ((T l).insertAt (notAbove h (h.xItemValue (item i)) (T l).items).length i)) := by
  have hr := hT.ring l
  have hpath := (Links.ring_iff.mp hr).1
  have hn : item i ∉ nodes l (T l).items := by simpa using hT.not_mem hi l
  set pre := notAbove h (h.xItemValue (item i)) (T l).items with hpre
  have hpost : (T l).items = pre ++ (T l).items.drop pre.length := by
    obtain ⟨r, hr⟩ := List.takeWhile_prefix (l := (T l).items)
      fun j => decide (h.xItemValue (item j) ≤ h.xItemValue (item i))
    rw [← hr]
    simp [hpre, notAbove]
  -- the node the new item goes behind
  obtain ⟨s, it, hs, hit⟩ : ∃ s it, nodes l pre = s ++ [it] ∧
      (if h.xItemValue (item i) = portMaxDelay then some (h.links.prev (xListEnd l))
        else h.insertPosition (h.xItemValue (item i)) (h.uxNumberOfItems l + 1) (xListEnd l)) =
        some it := by
    split
    · rename_i hmax
      have hall : pre = (T l).items := by
        rw [hpre, notAbove, hmax]
        exact List.takeWhile_eq_self_iff.mpr fun j _ => decide_eq_true (le_portMaxDelay _)
      have hne : nodes l (T l).items ≠ [] := by simp [nodes]
      refine ⟨(nodes l (T l).items).dropLast, (nodes l (T l).items).getLast hne, ?_, ?_⟩
      · rw [hall, List.dropLast_append_getLast]
      · exact congrArg some hr.prev_eq
    · rename_i hmax
      have he : ¬ h.xItemValue (xListEnd l) ≤ h.xItemValue (item i) := by
        rw [hT.endValue l, portMaxDelay_le]
        exact hmax
      obtain ⟨s, it, hs, hit⟩ := insertPosition (n := h.uxNumberOfItems l + 1) hpath he
        (by simp [hT.number l])
      refine ⟨s, it, ?_, hit⟩
      rw [← hs, List.takeWhile_map]
      rfl
  refine ⟨h.contain l i (h.links.insertAfter it (item i)), ?_, rfl, rfl, ?_⟩
  · simp only [Lists.vListInsert, hit, Option.map_some]
  · have hsplit : nodes l (T l).items =
        s ++ it :: ((T l).items.drop pre.length).map item := by
      have ha : nodes l (T l).items = nodes l pre ++ ((T l).items.drop pre.length).map item := by
        conv_lhs => rw [hpost]
        simp [nodes]
      rw [ha, hs, List.append_assoc]
      rfl
    have hmem : it ∈ nodes l (T l).items := by simp [hsplit]
    apply hT.contain hi
    · have htake : (T l).items.take pre.length = pre := by
        conv_lhs => rw [hpost]
        simp
      have hnodes : nodes l ((T l).insertAt pre.length i).items =
          s ++ it :: item i :: ((T l).items.drop pre.length).map item := by
        have ha : nodes l (pre ++ i :: (T l).items.drop pre.length) =
            nodes l pre ++ item i :: ((T l).items.drop pre.length).map item := by
          simp [nodes]
        rw [Turns.items_insertAt, htake, ha, hs, List.append_assoc]
        rfl
      rw [hnodes]
      rw [hsplit] at hr hn
      exact hr.insertAfter_at hn
    · intro l' hl
      exact (hT.ring l').insertAfter_other (hT.ring l) (hT.disjoint hl.symm) hmem
        (by simpa using hT.not_mem hi l')
    · exact (T l).cursor_insertAt _ i
    · exact (T l).items_insertAt_perm _ i

omit [DecidableEq ℓ] in
theorem cursor_remove {t : Turns ι} (hd : t.items.Nodup) (i : ι) :
    (t.cursor ≠ some i ∧ (t.remove i).cursor = t.cursor) ∨
      (t.cursor = some i ∧ ∃ d, t.done = d ++ [i] ∧ (t.remove i).cursor = d.getLast?) := by
  rcases List.eq_nil_or_concat t.done with hn | ⟨d, c, hc⟩
  · exact Or.inl ⟨by simp [Turns.cursor, hn], by simp [Turns.cursor, Turns.remove, hn]⟩
  · rw [List.concat_eq_append] at hc
    have hdn : (d ++ [c]).Nodup := hc ▸ (List.nodup_append.mp hd).1
    by_cases hci : c = i
    · subst hci
      have hcd : c ∉ d := fun hm => (List.nodup_append.mp hdn).2.2 c hm c (by simp) rfl
      refine Or.inr ⟨by simp [Turns.cursor, hc], d, hc, ?_⟩
      simp [Turns.cursor, Turns.remove, hc, List.erase_append_right _ hcd]
    · refine Or.inl ⟨by simp [Turns.cursor, hc, hci], ?_⟩
      have he : (d ++ [c]).erase i = d.erase i ++ [c] := by
        by_cases hm : i ∈ d
        · exact List.erase_append_left _ hm
        · rw [List.erase_append_right _ hm, List.erase_of_not_mem hm,
            List.erase_of_not_mem (by simpa using Ne.symm hci)]
      simp [Turns.cursor, Turns.remove, hc, he]

theorem index_release (hT : h.Represents T) (l : ℓ) (i : ι) :
    (h.release l i).pxIndex l = ((T l).remove i).cursor.elim (xListEnd l) item := by
  have hr := hT.ring l
  have hx := hT.index l
  simp only [Lists.release]
  rcases cursor_remove (hT.nodup l) i with ⟨hc, hrem⟩ | ⟨hc, d, hd, hrem⟩
  · have hne : h.pxIndex l ≠ item i := by
      intro he
      rw [he] at hx
      cases hcur : (T l).cursor with
      | none => rw [hcur] at hx; cases hx
      | some c =>
        rw [hcur] at hx hc
        exact hc (congrArg some (Node.item.inj hx).symm)
    rw [if_neg hne, hrem]
    exact hx
  · -- the index falls back to the node before the item
    have hi' : h.pxIndex l = item i := by rw [hx, hc, Option.elim_some]
    rw [if_pos hi', Function.update_self, hrem]
    rcases List.eq_nil_or_concat d with rfl | ⟨s, c, rfl⟩
    · have hs : nodes l (T l).items = [] ++ xListEnd l :: item i :: (T l).todo.map item := by
        simp [nodes, Turns.items, hd]
      rw [hs] at hr
      exact hr.linked_at.2
    · have hs : nodes l (T l).items =
          nodes l s ++ item c :: item i :: (T l).todo.map item := by
        simp [nodes, Turns.items, hd]
      rw [hs] at hr
      rw [hr.linked_at.2]
      simp

theorem release (hT : h.Represents T) (hi : h.pxContainer i = some l) :
    (h.release l i).Represents (Function.update T l ((T l).remove i)) := by
  have hm : i ∈ (T l).items := (hT.container i l).mp hi
  have hd := hT.nodup l
  obtain ⟨xs, ys, hs⟩ := List.append_of_mem hm
  have hx : i ∉ xs := by
    intro hx
    rw [hs] at hd
    exact (List.nodup_append.mp hd).2.2 i hx i (by simp) rfl
  have hr := hT.ring l
  have hsplit : nodes l (T l).items = xListEnd l :: (xs.map item ++ item i :: ys.map item) := by
    simp [nodes, hs]
  rw [hsplit] at hr
  have herase : ((T l).remove i).items = xs ++ ys := by
    rw [Turns.items_remove hd, hs, List.erase_append_right _ hx, List.erase_cons_head]
  have hne : h.links.next (item i) ≠ item i := hr.next_ne (by simp) (by simp)
  constructor
  · intro l'
    by_cases hl : l' = l
    · subst hl
      simpa [Lists.release, herase, nodes] using hr.remove_at
    · simpa [Lists.release, Function.update_of_ne hl] using
        (hT.ring l').remove_other (hT.ring l) (hT.disjoint (Ne.symm hl)) (by simpa using hm) hne
  · intro l'
    by_cases hl : l' = l
    · subst hl
      rw [Function.update_self]
      exact hT.index_release l' i
    · have hx : (h.release l i).pxIndex l' = h.pxIndex l' := by
        simp only [Lists.release]
        split
        · exact Function.update_of_ne hl _ _
        · rfl
      rw [hx, Function.update_of_ne hl]
      exact hT.index l'
  · intro l'
    by_cases hl : l' = l
    · subst hl
      simp [Lists.release, Turns.items_remove hd, List.length_erase_of_mem hm, hT.number]
    · simpa [Lists.release, Function.update_of_ne hl] using hT.number l'
  · intro j l'
    by_cases hj : j = i
    · subst hj
      by_cases hl : l' = l
      · subst hl
        simp [Lists.release, Turns.items_remove hd, hd.mem_erase_iff]
      · have hni : j ∉ (T l').items := fun hm' => hl (hT.unique hm' hm)
        simp [Lists.release, Function.update_of_ne hl, hni]
    · by_cases hl : l' = l
      · subst hl
        simp [Lists.release, Turns.items_remove hd, hd.mem_erase_iff, hj, hT.container]
      · simp [Lists.release, Function.update_of_ne hl, hj, hT.container]
  · exact hT.endValue

theorem uxListRemove (hT : h.Represents T) (hi : h.pxContainer i = some l) :
    h.uxListRemove i = some (h.release l i, (T l).items.length - 1) := by
  rw [Lists.uxListRemove, hi, Option.map_some, hT.number l]

omit [DecidableEq ι] [DecidableEq ℓ] in
theorem exists_index (hT : h.Represents T) (l : ℓ) :
    ∃ s, nodes l (T l).done = s ++ [h.pxIndex l] := by
  rw [hT.index l]
  rcases List.eq_nil_or_concat (T l).done with hd | ⟨d, c, hd⟩
  · exact ⟨[], by simp [nodes, Turns.cursor, hd]⟩
  · exact ⟨nodes l d, by simp [nodes, Turns.cursor, hd]⟩

theorem listGetOwnerOfNextEntry (hT : h.Represents T) {t : Turns ι}
    (hn : (T l).next = some (i, t)) :
    (h.listGetOwnerOfNextEntry l).1 = some i ∧
      (h.listGetOwnerOfNextEntry l).2.Represents (Function.update T l t) := by
  have hr := hT.ring l
  obtain ⟨s, hs⟩ := hT.exists_index l
  -- where the index goes
  have hidx : (if h.links.next (h.pxIndex l) = xListEnd l then h.links.next (xListEnd l)
      else h.links.next (h.pxIndex l)) = item i := by
    cases htodo : (T l).todo with
    | cons x todo =>
      simp only [Turns.next, htodo, Option.some.injEq, Prod.mk.injEq] at hn
      have hsplit : nodes l (T l).items = s ++ h.pxIndex l :: item x :: todo.map item := by
        have ha : nodes l (T l).items = nodes l (T l).done ++ item x :: todo.map item := by
          simp [nodes, Turns.items, htodo]
        rw [ha, hs, List.append_assoc]
        rfl
      rw [hsplit] at hr
      rw [hr.linked_at.1, hn.1, if_neg (by simp)]
    | nil =>
      cases hdone : (T l).done with
      | nil => simp [Turns.next, htodo, hdone] at hn
      | cons x done =>
        simp only [Turns.next, htodo, hdone, Option.some.injEq, Prod.mk.injEq] at hn
        have hitems : (T l).items = (T l).done := by simp [Turns.items, htodo]
        have hlast : h.links.next (h.pxIndex l) = xListEnd l := by
          refine (hr.linked_last (s := s) ?_).1
          rw [← hs, hitems]
          rfl
        rw [hitems, hdone] at hr
        rw [hlast, if_pos rfl, ← hn.1]
        exact hr.next_cons
  constructor
  · simp [Lists.listGetOwnerOfNextEntry, hidx, itemAt]
  · have hitems := Turns.items_next hn
    have hcur := Turns.cursor_next hn
    constructor
    · intro l'
      by_cases hl : l' = l
      · subst hl
        simpa [Lists.listGetOwnerOfNextEntry, hitems] using hT.ring l'
      · simpa [Lists.listGetOwnerOfNextEntry, Function.update_of_ne hl] using hT.ring l'
    · intro l'
      by_cases hl : l' = l
      · subst hl
        simp [Lists.listGetOwnerOfNextEntry, hidx, hcur]
      · simpa [Lists.listGetOwnerOfNextEntry, Function.update_of_ne hl] using hT.index l'
    · intro l'
      by_cases hl : l' = l
      · subst hl
        simpa [Lists.listGetOwnerOfNextEntry, hitems] using hT.number l'
      · simpa [Lists.listGetOwnerOfNextEntry, Function.update_of_ne hl] using hT.number l'
    · intro j l'
      by_cases hl : l' = l
      · subst hl
        simpa [Lists.listGetOwnerOfNextEntry, hitems] using hT.container j l'
      · simpa [Lists.listGetOwnerOfNextEntry, Function.update_of_ne hl] using hT.container j l'
    · exact hT.endValue

end Represents
end
end Lists
end RegisterWindows.Scheduler
