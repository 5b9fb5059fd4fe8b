import Mathlib.Data.List.Cycle

/-- The pointers of a heap of nodes. -/
structure Links (ν : Type*) where
  next : ν → ν
  prev : ν → ν

namespace Links

variable {ν : Type*} {L L' : Links ν} {a b i n x : ν} {l : List ν}

/-- Each node is where the pointer of the other one leads. -/
def Linked (L : Links ν) (a b : ν) : Prop := L.next a = b ∧ L.prev b = a

/-- The nodes `a`, `l`, `b` in this order, each linked to the next one. -/
def Path (L : Links ν) (a : ν) (l : List ν) (b : ν) : Prop :=
  List.IsChain L.Linked (a :: (l ++ [b]))

theorem path_nil : L.Path a [] b ↔ L.Linked a b := by simp [Path]

theorem path_cons : L.Path a (x :: l) b ↔ L.Linked a x ∧ L.Path x l b := by simp [Path]

theorem Path.congr (h : L.Path a l b) (hn : ∀ c ∈ a :: l, L'.next c = L.next c)
    (hp : ∀ c ∈ l ++ [b], L'.prev c = L.prev c) : L'.Path a l b := by
  induction l generalizing a with
  | nil =>
    rw [path_nil] at h ⊢
    exact ⟨(hn a (by simp)).trans h.1, (hp b (by simp)).trans h.2⟩
  | cons y l ih =>
    rw [path_cons] at h ⊢
    obtain ⟨hay, hyl⟩ := h
    refine ⟨⟨(hn a (by simp)).trans hay.1, (hp y (by simp)).trans hay.2⟩, ?_⟩
    apply ih hyl
    · intro c hc
      exact hn c (List.mem_cons_of_mem a hc)
    · intro c hc
      exact hp c (by simpa using Or.inr (List.mem_append.mp hc))

theorem Path.last (h : L.Path a l b) : L.Linked ((a :: l).getLast (by simp)) b := by
  induction l generalizing a with
  | nil => simpa using path_nil.mp h
  | cons y l ih =>
    obtain ⟨_, hyl⟩ := path_cons.mp h
    rw [List.getLast_cons (by simp)]
    exact ih hyl

/-- The nodes of a ring in the order of `next`, from any of them on. -/
structure Ring (L : Links ν) (c : Cycle ν) : Prop where
  linked : c.Chain L.Linked
  nodup : c.Nodup

theorem ring_iff : L.Ring ((i :: l : List ν) : Cycle ν) ↔ L.Path i l i ∧ (i :: l).Nodup := by
  constructor
  · intro h
    exact ⟨(Cycle.chain_coe_cons _ _ _).mp h.linked, Cycle.nodup_coe_iff.mp h.nodup⟩
  · intro h
    exact ⟨(Cycle.chain_coe_cons _ _ _).mpr h.1, Cycle.nodup_coe_iff.mpr h.2⟩

/-- A ring is read from any of its nodes. -/
theorem Ring.rotate {l l' : List ν} (h : L.Ring (l : Cycle ν)) (hr : l ~r l') :
    L.Ring (l' : Cycle ν) := by
  rwa [← Cycle.coe_eq_coe.mpr hr]

theorem Ring.congr {l : List ν} (h : L.Ring (l : Cycle ν)) (hn : ∀ c ∈ l, L'.next c = L.next c)
    (hp : ∀ c ∈ l, L'.prev c = L.prev c) : L'.Ring (l : Cycle ν) := by
  cases l with
  | nil => exact ⟨trivial, Cycle.nodup_nil⟩
  | cons i l =>
    rw [ring_iff] at h ⊢
    refine ⟨h.1.congr hn ?_, h.2⟩
    intro c hc
    apply hp
    rcases List.mem_append.mp hc with hc | hc
    · exact List.mem_cons_of_mem i hc
    · rw [List.mem_singleton.mp hc]
      exact List.mem_cons_self

theorem Ring.next_cons (h : L.Ring ((i :: x :: l : List ν) : Cycle ν)) : L.next i = x :=
  (path_cons.mp (ring_iff.mp h).1).1.1

theorem Ring.next_self (h : L.Ring (([i] : List ν) : Cycle ν)) : L.next i = i :=
  (path_nil.mp (ring_iff.mp h).1).1

theorem Ring.prev_eq (h : L.Ring ((i :: l : List ν) : Cycle ν)) :
    L.prev i = (i :: l).getLast (by simp) :=
  (ring_iff.mp h).1.last.2

theorem Ring.next_mem {c : List ν} (h : L.Ring (c : Cycle ν)) (hx : x ∈ c) : L.next x ∈ c := by
  obtain ⟨s, t, rfl⟩ := List.append_of_mem hx
  have hr : L.Ring ((x :: (t ++ s) : List ν) : Cycle ν) := h.rotate List.isRotated_append
  cases hts : t ++ s with
  | nil =>
    rw [hts] at hr
    rw [hr.next_self]
    exact hx
  | cons y l =>
    rw [hts] at hr
    rw [hr.next_cons]
    have hy : y ∈ t ++ s := hts ▸ List.mem_cons_self
    rcases List.mem_append.mp hy with hy | hy
    · exact List.mem_append_right s (List.mem_cons_of_mem x hy)
    · exact List.mem_append_left (x :: t) hy

theorem Ring.prev_mem {c : List ν} (h : L.Ring (c : Cycle ν)) (hx : x ∈ c) : L.prev x ∈ c := by
  obtain ⟨s, t, rfl⟩ := List.append_of_mem hx
  have hr : L.Ring ((x :: (t ++ s) : List ν) : Cycle ν) := h.rotate List.isRotated_append
  rw [hr.prev_eq]
  exact (List.isRotated_append.symm.mem_iff).mp (List.getLast_mem _)

theorem Ring.linked_at {c d : List ν} (h : L.Ring ((c ++ a :: b :: d : List ν) : Cycle ν)) :
    L.Linked a b := by
  have hr : L.Ring ((a :: b :: (d ++ c) : List ν) : Cycle ν) :=
    h.rotate (@List.isRotated_append _ c (a :: b :: d))
  exact (path_cons.mp (ring_iff.mp hr).1).1

theorem Ring.linked_last {c s : List ν} (h : L.Ring ((i :: c : List ν) : Cycle ν))
    (hs : i :: c = s ++ [a]) : L.Linked a i := by
  have hl : (i :: c).getLast (by simp) = a := by simp [hs]
  rw [← hl]
  exact (ring_iff.mp h).1.last

theorem Ring.next_ne {c : List ν} (h : L.Ring (c : Cycle ν)) (hx : x ∈ c) (hc : c.length ≠ 1) :
    L.next x ≠ x := by
  obtain ⟨s, t, rfl⟩ := List.append_of_mem hx
  have hr : L.Ring ((x :: (t ++ s) : List ν) : Cycle ν) := h.rotate List.isRotated_append
  cases hts : t ++ s with
  | nil =>
    obtain ⟨rfl, rfl⟩ := List.append_eq_nil_iff.mp hts
    exact absurd rfl hc
  | cons y l =>
    rw [hts] at hr
    rw [hr.next_cons]
    have hd := (ring_iff.mp hr).2
    exact fun he => (List.nodup_cons.mp hd).1 (he ▸ List.mem_cons_self)

section
variable [DecidableEq ν]

def setNext (L : Links ν) (p q : ν) : Links ν := { L with next := Function.update L.next p q }

def setPrev (L : Links ν) (p q : ν) : Links ν := { L with prev := Function.update L.prev p q }

/-- Makes `n` the node after `i`. -/
def insertAfter (L : Links ν) (i n : ν) : Links ν :=
  let L := L.setNext n (L.next i)
  let L := L.setPrev (L.next n) n
  let L := L.setPrev n i
  L.setNext i n

/-- Makes `n` the node before `i`. -/
def insertBefore (L : Links ν) (i n : ν) : Links ν :=
  let L := L.setNext n i
  let L := L.setPrev n (L.prev i)
  let L := L.setNext (L.prev i) n
  L.setPrev i n

/-- Links the neighbours of `x` to each other. -/
def remove (L : Links ν) (x : ν) : Links ν :=
  let L := L.setPrev (L.next x) (L.prev x)
  L.setNext (L.prev x) (L.next x)

theorem insertAfter_next :
    (L.insertAfter i n).next = Function.update (Function.update L.next n (L.next i)) i n := by
  simp [insertAfter, setNext, setPrev]

theorem insertAfter_prev :
    (L.insertAfter i n).prev = Function.update (Function.update L.prev (L.next i) n) n i := by
  simp [insertAfter, setNext, setPrev]

theorem insertBefore_next (hi : i ≠ n) :
    (L.insertBefore i n).next = Function.update (Function.update L.next n i) (L.prev i) n := by
  simp [insertBefore, setNext, setPrev, hi]

theorem insertBefore_prev :
    (L.insertBefore i n).prev = Function.update (Function.update L.prev n (L.prev i)) i n := by
  simp [insertBefore, setNext, setPrev]

theorem remove_next (hx : L.next x ≠ x) :
    (L.remove x).next = Function.update L.next (L.prev x) (L.next x) := by
  simp [remove, setNext, setPrev, Function.update_of_ne hx.symm]

theorem remove_prev : (L.remove x).prev = Function.update L.prev (L.next x) (L.prev x) := by
  simp [remove, setNext, setPrev]

end

section
variable [DecidableEq ν]

theorem Ring.insertAfter (h : L.Ring ((i :: l : List ν) : Cycle ν)) (hn : n ∉ i :: l) :
    (L.insertAfter i n).Ring ((i :: n :: l : List ν) : Cycle ν) := by
  obtain ⟨hp, hd⟩ := ring_iff.mp h
  have hin : i ≠ n := fun e => hn (by simp [e])
  have hnl : n ∉ l := fun hm => hn (List.mem_cons_of_mem i hm)
  have hi : i ∉ l := (List.nodup_cons.mp hd).1
  rw [ring_iff, path_cons]
  refine ⟨⟨⟨?_, ?_⟩, ?_⟩, ?_⟩
  · simp [insertAfter_next]
  · simp [insertAfter_prev]
  · cases l with
    | nil =>
      have hni : L.next i = i := h.next_self
      rw [path_nil]
      constructor
      · simp [insertAfter_next, hin.symm, hni]
      · simp [insertAfter_prev, hin, hni]
    | cons y l =>
      have hny : L.next i = y := h.next_cons
      obtain ⟨_, hyl⟩ := path_cons.mp hp
      have hyn : y ≠ n := fun e => hnl (by simp [e])
      rw [path_cons]
      refine ⟨⟨?_, ?_⟩, ?_⟩
      · simp [insertAfter_next, hin.symm, hny]
      · simp [insertAfter_prev, hyn, hny]
      · -- the rest of the ring is the old one: neither `i` has a pointer on it nor `y`
        apply hyl.congr
        · intro c hc
          have hci : c ≠ i := fun e => hi (e ▸ hc)
          have hcn : c ≠ n := fun e => hnl (e ▸ hc)
          rw [insertAfter_next, Function.update_of_ne hci, Function.update_of_ne hcn]
        · intro c hc
          have hcy : c ≠ y := by
            intro e
            rcases List.mem_append.mp hc with hm | hm
            · exact (List.nodup_cons.mp (List.nodup_cons.mp hd).2).1 (e ▸ hm)
            · exact hi (by rw [← List.mem_singleton.mp hm, e]; exact List.mem_cons_self)
          have hcn : c ≠ n := by
            intro e
            rcases List.mem_append.mp hc with hm | hm
            · exact hnl (e ▸ List.mem_cons_of_mem y hm)
            · exact hin (by rw [← List.mem_singleton.mp hm, e])
          rw [insertAfter_prev, Function.update_of_ne hcn, hny, Function.update_of_ne hcy]
  · simp only [List.nodup_cons, List.mem_cons, not_or] at hd ⊢
    exact ⟨⟨hin, hi⟩, hnl, hd.2⟩

theorem insertBefore_eq (h : L.Linked a i) (hi : i ≠ n) :
    L.insertBefore i n = L.insertAfter a n := by
  obtain ⟨hn, hp⟩ := h
  have hnext : (L.insertBefore i n).next = (L.insertAfter a n).next := by
    rw [insertBefore_next hi, insertAfter_next, hn, hp]
  have hprev : (L.insertBefore i n).prev = (L.insertAfter a n).prev := by
    rw [insertBefore_prev, insertAfter_prev, hn, hp, Function.update_comm hi]
  cases hb : L.insertBefore i n
  cases hf : L.insertAfter a n
  simp only [hb, hf] at hnext hprev
  rw [hnext, hprev]

theorem Ring.insertBefore (h : L.Ring ((i :: l : List ν) : Cycle ν)) (hn : n ∉ i :: l) :
    (L.insertBefore i n).Ring ((i :: (l ++ [n]) : List ν) : Cycle ν) := by
  have hlast := (ring_iff.mp h).1.last
  have hin : i ≠ n := fun e => hn (by simp [e])
  rw [insertBefore_eq hlast hin]
  -- the ring read from the node before `i`
  have hsplit : i :: l = (i :: l).dropLast ++ [(i :: l).getLast (by simp)] :=
    (List.dropLast_append_getLast (by simp)).symm
  generalize (i :: l).getLast (by simp) = z at hsplit ⊢
  generalize (i :: l).dropLast = d at hsplit
  have hz : L.Ring ((z :: d : List ν) : Cycle ν) := by
    apply h.rotate
    rw [hsplit]
    exact List.isRotated_append
  have hnz : n ∉ z :: d := by
    rw [hsplit] at hn
    simpa [or_comm] using hn
  apply (hz.insertAfter hnz).rotate
  have he : i :: (l ++ [n]) = d ++ [z, n] := by
    rw [← List.cons_append, hsplit, List.append_assoc]
    rfl
  rw [he]
  exact @List.isRotated_append _ [z, n] d

theorem Ring.remove (h : L.Ring ((i :: x :: l : List ν) : Cycle ν)) :
    (L.remove x).Ring ((i :: l : List ν) : Cycle ν) := by
  obtain ⟨hp, hd⟩ := ring_iff.mp h
  obtain ⟨⟨hix, hxi⟩, hxl⟩ := path_cons.mp hp
  simp only [List.nodup_cons, List.mem_cons, not_or] at hd
  obtain ⟨⟨hne, hil⟩, hxnl, hl⟩ := hd
  rw [ring_iff]
  refine ⟨?_, List.nodup_cons.mpr ⟨hil, hl⟩⟩
  cases l with
  | nil =>
    obtain ⟨hn, _⟩ := path_nil.mp hxl
    rw [path_nil]
    constructor
    · rw [remove_next (by rw [hn]; exact hne), hxi, hn, Function.update_self]
    · rw [remove_prev, hn, hxi, Function.update_self]
  | cons y l =>
    obtain ⟨⟨hn, _⟩, hyl⟩ := path_cons.mp hxl
    have hyx : L.next x ≠ x := fun e => hxnl (by rw [← e, hn]; exact List.mem_cons_self)
    rw [path_cons]
    refine ⟨⟨?_, ?_⟩, ?_⟩
    · rw [remove_next hyx, hxi, hn, Function.update_self]
    · rw [remove_prev, hn, hxi, Function.update_self]
    · apply hyl.congr
      · intro c hc
        have hci : c ≠ i := fun e => hil (e ▸ hc)
        rw [remove_next hyx, hxi, Function.update_of_ne hci]
      · intro c hc
        have hcy : c ≠ y := by
          intro e
          rcases List.mem_append.mp hc with hm | hm
          · exact (List.nodup_cons.mp hl).1 (e ▸ hm)
          · exact hil (by rw [← List.mem_singleton.mp hm, e]; exact List.mem_cons_self)
        rw [remove_prev, hn, Function.update_of_ne hcy]

variable {c d : List ν}

theorem Ring.insertAfter_at (h : L.Ring ((c ++ i :: d : List ν) : Cycle ν)) (hn : n ∉ c ++ i :: d) :
    (L.insertAfter i n).Ring ((c ++ i :: n :: d : List ν) : Cycle ν) := by
  have hr : L.Ring ((i :: (d ++ c) : List ν) : Cycle ν) := h.rotate List.isRotated_append
  have hn' : n ∉ i :: (d ++ c) := fun hm => hn (List.isRotated_append.mem_iff.mpr hm)
  apply (hr.insertAfter hn').rotate
  exact @List.isRotated_append _ (i :: n :: d) c

theorem Ring.insertBefore_at (h : L.Ring ((c ++ i :: d : List ν) : Cycle ν))
    (hn : n ∉ c ++ i :: d) : (L.insertBefore i n).Ring ((c ++ n :: i :: d : List ν) : Cycle ν) := by
  have hr : L.Ring ((i :: (d ++ c) : List ν) : Cycle ν) := h.rotate List.isRotated_append
  have hn' : n ∉ i :: (d ++ c) := fun hm => hn (List.isRotated_append.mem_iff.mpr hm)
  apply (hr.insertBefore hn').rotate
  have he : i :: (d ++ c ++ [n]) = (i :: d) ++ (c ++ [n]) := by simp
  have he' : c ++ n :: i :: d = (c ++ [n]) ++ (i :: d) := by simp
  rw [he, he']
  exact List.isRotated_append

theorem Ring.remove_at (h : L.Ring ((a :: (c ++ x :: d) : List ν) : Cycle ν)) :
    (L.remove x).Ring ((a :: (c ++ d) : List ν) : Cycle ν) := by
  rcases List.eq_nil_or_concat (a :: c) with hc | ⟨s, z, hc⟩
  · cases hc
  · rw [List.concat_eq_append] at hc
    have he : a :: (c ++ x :: d) = s ++ (z :: x :: d) := by
      rw [← List.cons_append, hc, List.append_assoc]
      rfl
    have he' : a :: (c ++ d) = s ++ (z :: d) := by
      rw [← List.cons_append, hc, List.append_assoc]
      rfl
    rw [he] at h
    have hr : L.Ring ((z :: x :: (d ++ s) : List ν) : Cycle ν) := h.rotate List.isRotated_append
    rw [he']
    exact hr.remove.rotate (@List.isRotated_append _ (z :: d) s)

theorem Ring.insertAfter_other (hd : L.Ring (d : Cycle ν)) (hc : L.Ring (c : Cycle ν))
    (hdis : c.Disjoint d) (hi : i ∈ c) (hn : n ∉ d) :
    (L.insertAfter i n).Ring (d : Cycle ν) := by
  apply hd.congr
  · intro x hx
    have hxi : x ≠ i := fun e => hdis hi (e ▸ hx)
    have hxn : x ≠ n := fun e => hn (e ▸ hx)
    rw [insertAfter_next, Function.update_of_ne hxi, Function.update_of_ne hxn]
  · intro x hx
    have hxi : x ≠ L.next i := fun e => hdis (hc.next_mem hi) (e ▸ hx)
    have hxn : x ≠ n := fun e => hn (e ▸ hx)
    rw [insertAfter_prev, Function.update_of_ne hxn, Function.update_of_ne hxi]

theorem Ring.insertBefore_other (hd : L.Ring (d : Cycle ν)) (hc : L.Ring (c : Cycle ν))
    (hdis : c.Disjoint d) (hi : i ∈ c) (hin : i ≠ n) (hn : n ∉ d) :
    (L.insertBefore i n).Ring (d : Cycle ν) := by
  apply hd.congr
  · intro x hx
    have hxi : x ≠ L.prev i := fun e => hdis (hc.prev_mem hi) (e ▸ hx)
    have hxn : x ≠ n := fun e => hn (e ▸ hx)
    rw [insertBefore_next hin, Function.update_of_ne hxi, Function.update_of_ne hxn]
  · intro x hx
    have hxi : x ≠ i := fun e => hdis hi (e ▸ hx)
    have hxn : x ≠ n := fun e => hn (e ▸ hx)
    rw [insertBefore_prev, Function.update_of_ne hxi, Function.update_of_ne hxn]

theorem Ring.remove_other (hd : L.Ring (d : Cycle ν)) (hc : L.Ring (c : Cycle ν))
    (hdis : c.Disjoint d) (hx : x ∈ c) (hne : L.next x ≠ x) :
    (L.remove x).Ring (d : Cycle ν) := by
  apply hd.congr
  · intro y hy
    have hyx : y ≠ L.prev x := fun e => hdis (hc.prev_mem hx) (e ▸ hy)
    rw [remove_next hne, Function.update_of_ne hyx]
  · intro y hy
    have hyx : y ≠ L.next x := fun e => hdis (hc.next_mem hx) (e ▸ hy)
    rw [remove_prev, Function.update_of_ne hyx]

end

end Links
