import Mathlib.Data.List.Basic
import Mathlib.Data.List.Nodup
import Mathlib.Data.List.TakeWhile

/-- The items up to the cursor, and those behind it. -/
structure Turns (ι : Type*) where
  done : List ι
  todo : List ι
deriving DecidableEq, Repr

namespace Turns

variable {ι : Type*} {t t' : Turns ι} {x y : ι}

def empty : Turns ι := ⟨[], []⟩

def items (t : Turns ι) : List ι := t.done ++ t.todo

def order (t : Turns ι) : List ι := t.todo ++ t.done

def cursor (t : Turns ι) : Option ι := t.done.getLast?

theorem order_perm (t : Turns ι) : t.order.Perm t.items := List.perm_append_comm

@[simp] theorem mem_order : x ∈ t.order ↔ x ∈ t.items := t.order_perm.mem_iff

/-- The cursor moves on, at the end of the list to its head. -/
def next (t : Turns ι) : Option (ι × Turns ι) :=
  match t.todo, t.done with
  | x :: todo, done => some (x, ⟨done ++ [x], todo⟩)
  | [], x :: done => some (x, ⟨[x], done⟩)
  | [], [] => none

/-- A new item, served after all the others but the one at the cursor. -/
def insertLast (t : Turns ι) (x : ι) : Turns ι :=
  match t.done.getLast? with
  | none => ⟨[], t.todo ++ [x]⟩
  | some i => ⟨t.done.dropLast ++ [x, i], t.todo⟩

/-- A new item at place `k` from the head. -/
def insertAt (t : Turns ι) (k : Nat) (x : ι) : Turns ι :=
  if k < t.done.length then ⟨t.done.take k ++ x :: t.done.drop k, t.todo⟩
  else ⟨t.done, t.todo.take (k - t.done.length) ++ x :: t.todo.drop (k - t.done.length)⟩

/-- Where the cursor was at the item, it falls back to the one before it. -/
def remove [DecidableEq ι] (t : Turns ι) (x : ι) : Turns ι := ⟨t.done.erase x, t.todo.erase x⟩

theorem items_next (h : t.next = some (x, t')) : t'.items = t.items := by
  obtain ⟨done, todo⟩ := t
  cases todo with
  | cons y todo =>
    simp only [next, Option.some.injEq, Prod.mk.injEq] at h
    obtain ⟨rfl, rfl⟩ := h
    simp [items]
  | nil =>
    cases done with
    | nil => cases h
    | cons y done =>
      simp only [next, Option.some.injEq, Prod.mk.injEq] at h
      obtain ⟨rfl, rfl⟩ := h
      simp [items]

theorem cursor_next (h : t.next = some (x, t')) : t'.cursor = some x := by
  obtain ⟨done, todo⟩ := t
  cases todo with
  | cons y todo =>
    simp only [next, Option.some.injEq, Prod.mk.injEq] at h
    obtain ⟨rfl, rfl⟩ := h
    simp [cursor]
  | nil =>
    cases done with
    | nil => cases h
    | cons y done =>
      simp only [next, Option.some.injEq, Prod.mk.injEq] at h
      obtain ⟨rfl, rfl⟩ := h
      simp [cursor]

theorem next_eq_none : t.next = none ↔ t.items = [] := by
  obtain ⟨done, todo⟩ := t
  cases todo <;> cases done <;> simp [next, items]

/-- The first of the order is served and goes to its end. -/
theorem order_next (h : t.next = some (x, t')) : ∃ r, t.order = x :: r ∧ t'.order = r ++ [x] := by
  obtain ⟨done, todo⟩ := t
  cases todo with
  | cons y todo =>
    simp only [next, Option.some.injEq, Prod.mk.injEq] at h
    obtain ⟨rfl, rfl⟩ := h
    exact ⟨todo ++ done, by simp [order]⟩
  | nil =>
    cases done with
    | nil => cases h
    | cons y done =>
      simp only [next, Option.some.injEq, Prod.mk.injEq] at h
      obtain ⟨rfl, rfl⟩ := h
      exact ⟨done, by simp [order]⟩

theorem insertLast_cases (t : Turns ι) (x : ι) :
    (t.done = [] ∧ t.insertLast x = ⟨[], t.todo ++ [x]⟩) ∨
      ∃ d i, t.done = d ++ [i] ∧ t.insertLast x = ⟨d ++ [x, i], t.todo⟩ := by
  rcases List.eq_nil_or_concat t.done with hd | ⟨d, i, hd⟩
  · exact Or.inl ⟨hd, by simp [insertLast, hd]⟩
  · rw [List.concat_eq_append] at hd
    exact Or.inr ⟨d, i, hd, by simp [insertLast, hd]⟩

theorem items_insertLast_perm (t : Turns ι) (x : ι) :
    (t.insertLast x).items.Perm (x :: t.items) := by
  rcases t.insertLast_cases x with ⟨hd, he⟩ | ⟨d, i, hd, he⟩
  · rw [he, items, items, hd]
    exact List.perm_append_singleton x t.todo
  · rw [he, items, items, hd]
    simp only [List.append_assoc, List.cons_append, List.nil_append]
    exact List.perm_middle

theorem cursor_insertLast (t : Turns ι) (x : ι) : (t.insertLast x).cursor = t.cursor := by
  rcases t.insertLast_cases x with ⟨hd, he⟩ | ⟨d, i, hd, he⟩
  · rw [he, cursor, cursor, hd]
  · rw [he, cursor, cursor, hd]
    simp

theorem items_insertAt (t : Turns ι) (k : Nat) (x : ι) :
    (t.insertAt k x).items = t.items.take k ++ x :: t.items.drop k := by
  unfold insertAt items
  split
  · rename_i h
    have hz : k - t.done.length = 0 := Nat.sub_eq_zero_of_le (Nat.le_of_lt h)
    simp [List.take_append, List.drop_append, hz]
  · rename_i h
    have hle : t.done.length ≤ k := Nat.le_of_not_lt h
    simp [List.take_append, List.drop_append, List.take_of_length_le hle,
      List.drop_of_length_le hle]

theorem items_insertAt_perm (t : Turns ι) (k : Nat) (x : ι) :
    (t.insertAt k x).items.Perm (x :: t.items) := by
  rw [items_insertAt]
  have h : (t.items.take k ++ x :: t.items.drop k).Perm (x :: (t.items.take k ++ t.items.drop k)) :=
    List.perm_middle
  rwa [List.take_append_drop] at h

theorem cursor_insertAt (t : Turns ι) (k : Nat) (x : ι) : (t.insertAt k x).cursor = t.cursor := by
  unfold insertAt cursor
  split
  · rename_i h
    have hne : t.done.drop k ≠ [] := by simpa using h
    have hs : t.done = t.done.take k ++ t.done.drop k := (List.take_append_drop k t.done).symm
    rw [List.getLast?_append_cons, List.getLast?_cons_of_ne_nil hne]
    conv_rhs => rw [hs]
    rw [List.getLast?_append_of_ne_nil _ hne]
  · rfl

/-- The new item goes behind the items that meet `q`, which come first. -/
theorem pairwise_insertAt {r : ι → ι → Prop} (htrans : ∀ a b c, r a b → r b c → r a c)
    {q : ι → Bool} (hs : t.items.Pairwise r) (hq : ∀ y, q y = true → r y x)
    (hn : ∀ y, q y ≠ true → r x y) :
    (t.insertAt (t.items.takeWhile q).length x).items.Pairwise r := by
  rw [items_insertAt]
  have htake : t.items.take (t.items.takeWhile q).length = t.items.takeWhile q :=
    (List.prefix_iff_eq_take.mp (List.takeWhile_prefix q)).symm
  have hdrop : t.items.drop (t.items.takeWhile q).length = t.items.dropWhile q := by
    have h := @List.takeWhile_append_dropWhile _ q t.items
    exact (congrArg (List.drop _) h.symm).trans List.drop_left
  have hbehind : ∀ y ∈ t.items.dropWhile q, r x y := by
    have hd := hs.sublist (List.dropWhile_sublist q)
    intro y hy
    cases he : t.items.dropWhile q with
    | nil =>
      rw [he] at hy
      cases hy
    | cons b c =>
      have hb : q b ≠ true := by
        have := List.head?_dropWhile_not q t.items
        rw [he] at this
        simpa using this
      rw [he] at hy hd
      rcases List.mem_cons.mp hy with rfl | hc
      · exact hn y hb
      · exact htrans x b y (hn b hb) ((List.pairwise_cons.mp hd).1 y hc)
  rw [htake, hdrop, List.pairwise_append]
  refine ⟨hs.sublist (List.takeWhile_sublist q), ?_, ?_⟩
  · exact List.pairwise_cons.mpr ⟨hbehind, hs.sublist (List.dropWhile_sublist q)⟩
  · intro a ha b hb
    have hax : r a x := hq a (List.mem_takeWhile_imp ha)
    rcases List.mem_cons.mp hb with rfl | hb
    · exact hax
    · exact htrans a x b hax (hbehind b hb)

section
variable [DecidableEq ι]

theorem items_remove (hd : t.items.Nodup) : (t.remove x).items = t.items.erase x := by
  unfold remove items
  rw [List.erase_append]
  split
  · rename_i hx
    have hn : x ∉ t.todo := (List.nodup_append.mp hd).2.2 x hx |> fun h hm => h x hm rfl
    rw [List.erase_of_not_mem hn]
  · rename_i hx
    rw [List.erase_of_not_mem hx]

theorem order_remove (hd : t.items.Nodup) : (t.remove x).order = t.order.erase x := by
  unfold remove order
  rw [List.erase_append]
  split
  · rename_i hx
    have hn : x ∉ t.done := fun hm => (List.nodup_append.mp hd).2.2 x hm x hx rfl
    rw [List.erase_of_not_mem hn]
  · rename_i hx
    rw [List.erase_of_not_mem hx]

/-- The number of items that are served before `x`. -/
def ahead (t : Turns ι) (x : ι) : Nat := t.order.idxOf x

theorem ahead_lt (hx : x ∈ t.items) : t.ahead x < t.items.length := by
  rw [ahead, ← t.order_perm.length_eq]
  exact List.idxOf_lt_length_of_mem (mem_order.mpr hx)

theorem ahead_next (h : t.next = some (y, t')) (hx : x ∈ t.items) (hy : y ≠ x) :
    t'.ahead x + 1 = t.ahead x := by
  obtain ⟨r, ho, ho'⟩ := order_next h
  have hr : x ∈ r := by
    have hm : x ∈ t.order := mem_order.mpr hx
    rw [ho] at hm
    exact (List.mem_cons.mp hm).resolve_left hy.symm
  unfold ahead
  rw [ho, ho', List.idxOf_cons_ne r hy, List.idxOf_append_of_mem hr]

theorem idxOf_middle_le (l r : List ι) (x y : ι) :
    (l ++ y :: r).idxOf x ≤ (l ++ r).idxOf x + 1 := by
  induction l with
  | nil =>
    rw [List.nil_append, List.nil_append, List.idxOf_cons]
    cases y == x <;> simp
  | cons z l ih =>
    simp only [List.cons_append, List.idxOf_cons]
    cases z == x
    · simpa using ih
    · simp

theorem idxOf_le_middle (l r : List ι) (h : y ≠ x) : (l ++ r).idxOf x ≤ (l ++ y :: r).idxOf x := by
  induction l with
  | nil =>
    rw [List.nil_append, List.nil_append, List.idxOf_cons_ne r h]
    omega
  | cons z l ih =>
    simp only [List.cons_append, List.idxOf_cons]
    cases z == x
    · simpa using ih
    · simp

theorem ahead_insertLast_le (t : Turns ι) (x y : ι) : (t.insertLast y).ahead x ≤ t.ahead x + 1 := by
  unfold ahead
  rcases t.insertLast_cases y with ⟨hd, he⟩ | ⟨d, i, hd, he⟩
  · rw [he, order, order, hd]
    simpa using idxOf_middle_le t.todo [] x y
  · rw [he, order, order, hd]
    simpa using idxOf_middle_le (t.todo ++ d) [i] x y

theorem ahead_remove_le (hd : t.items.Nodup) (hy : y ≠ x) : (t.remove y).ahead x ≤ t.ahead x := by
  unfold ahead
  rw [order_remove hd]
  by_cases hm : y ∈ t.order
  · obtain ⟨l, r, _, ho, he⟩ := List.exists_erase_eq hm
    rw [he, ho]
    exact idxOf_le_middle l r hy
  · exact Nat.le_of_eq (congrArg (List.idxOf x) (List.erase_of_not_mem hm))

end

end Turns
