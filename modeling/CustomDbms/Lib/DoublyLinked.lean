/-
  CustomDbms.Lib.DoublyLinked
  ───────────────────────────
  **DOUBLY LINKED LISTS IN A POINTER TABLE.**

  `Links` holds the `next` and `prev` pointer of every cell and an allocation
  mark.  `Linked L xs` says that the cells `xs`, in this order, form one
  doubly linked list: no cell twice, all below the mark, and both pointers of
  every cell lead to its neighbours (null at the two ends).

    • `Linked.insertAfter` / `Linked.insertBetween` — splicing a freshly
      allocated cell in behind a given one, with the pointer writes in either
      of the two usual orders.
    • `Linked.unlinkNext` — unlinking the cell behind a given one.
-/
import Mathlib.Data.List.Basic
import Mathlib.Data.Nat.Basic

namespace CustomDbms.Lib

/-- The pointers of all cells, and the next address to hand out. -/
structure Links where
  next : Nat → Option Nat
  prev : Nat → Option Nat
  fresh : Nat

namespace Links

/-! ## §1. Pointer writes. -/

/-- `a->next = target`. -/
def setNext (L : Links) (a : Nat) (target : Option Nat) : Links :=
  { L with next := fun x => if x = a then target else L.next x }

/-- `a->prev = target`. -/
def setPrev (L : Links) (a : Nat) (target : Option Nat) : Links :=
  { L with prev := fun x => if x = a then target else L.prev x }

/-- `if (p != nullptr) p->prev = target`. -/
def setPrevOf (L : Links) (p : Option Nat) (target : Option Nat) : Links :=
  match p with
  | none => L
  | some a => L.setPrev a target

/-- A new cell with null pointers. -/
def alloc (L : Links) : Links :=
  { ((L.setNext L.fresh none).setPrev L.fresh none) with fresh := L.fresh + 1 }

@[simp] theorem setNext_next (L : Links) (a : Nat) (t : Option Nat) (x : Nat) :
    (L.setNext a t).next x = if x = a then t else L.next x := rfl
@[simp] theorem setNext_prev (L : Links) (a : Nat) (t : Option Nat) :
    (L.setNext a t).prev = L.prev := rfl
@[simp] theorem setNext_fresh (L : Links) (a : Nat) (t : Option Nat) :
    (L.setNext a t).fresh = L.fresh := rfl
@[simp] theorem setPrev_prev (L : Links) (a : Nat) (t : Option Nat) (x : Nat) :
    (L.setPrev a t).prev x = if x = a then t else L.prev x := rfl
@[simp] theorem setPrev_next (L : Links) (a : Nat) (t : Option Nat) :
    (L.setPrev a t).next = L.next := rfl
@[simp] theorem setPrev_fresh (L : Links) (a : Nat) (t : Option Nat) :
    (L.setPrev a t).fresh = L.fresh := rfl
@[simp] theorem setPrevOf_prev (L : Links) (p t : Option Nat) (x : Nat) :
    (L.setPrevOf p t).prev x = if p = some x then t else L.prev x := by
  cases p <;> simp [setPrevOf, eq_comm]
@[simp] theorem setPrevOf_next (L : Links) (p t : Option Nat) :
    (L.setPrevOf p t).next = L.next := by cases p <;> rfl
@[simp] theorem setPrevOf_fresh (L : Links) (p t : Option Nat) :
    (L.setPrevOf p t).fresh = L.fresh := by cases p <;> rfl
@[simp] theorem alloc_next (L : Links) (x : Nat) :
    L.alloc.next x = if x = L.fresh then none else L.next x := rfl
@[simp] theorem alloc_prev (L : Links) (x : Nat) :
    L.alloc.prev x = if x = L.fresh then none else L.prev x := rfl
@[simp] theorem alloc_fresh (L : Links) : L.alloc.fresh = L.fresh + 1 := rfl

/-! ## §2. Linked lists of cells. -/

/-- Both pointers of every cell lead to its neighbours, the segment being
entered from `p` and left towards `q`. -/
def Seg (L : Links) : Option Nat → List Nat → Option Nat → Prop
  | _, [], _ => True
  | p, x :: xs, q => L.prev x = p ∧ L.next x = xs.head?.or q ∧ Seg L (some x) xs q

/-- The cells form one doubly linked list. -/
structure Linked (L : Links) (xs : List Nat) : Prop where
  nodup : xs.Nodup
  allocated : ∀ x ∈ xs, x < L.fresh
  seg : Seg L none xs none

theorem seg_append {L : Links} {p q : Option Nat} {A B : List Nat} :
    Seg L p (A ++ B) q ↔ Seg L p A (B.head?.or q) ∧ Seg L (A.getLast?.or p) B q := by
  induction A generalizing p with
  | nil => simp [Seg]
  | cons a A ih =>
      have hlast : (a :: A).getLast?.or p = A.getLast?.or (some a) := by
        rcases List.eq_nil_or_concat' A with rfl | ⟨l, b, rfl⟩
        · rfl
        · rw [← List.cons_append, List.getLast?_concat,
            List.getLast?_concat, Option.some_or, Option.some_or]
      have hhead : (A ++ B).head?.or q = A.head?.or (B.head?.or q) := by
        cases A <;> simp
      simp only [List.cons_append, Seg, ih, hlast, hhead, and_assoc]

/-- Only the pointers of the cells themselves matter. -/
theorem seg_congr {L L' : Links} {p q : Option Nat} {xs : List Nat}
    (h : ∀ x ∈ xs, L'.next x = L.next x ∧ L'.prev x = L.prev x) (hs : Seg L p xs q) :
    Seg L' p xs q := by
  induction xs generalizing p with
  | nil => trivial
  | cons x xs ih =>
      obtain ⟨h1, h2, h3⟩ := hs
      obtain ⟨hn, hp⟩ := h x (by simp)
      exact ⟨hp.trans h1, hn.trans h2, ih (fun y hy => h y (by simp [hy])) h3⟩

/-- A segment whose last cell is redirected to a new successor. -/
theorem seg_redirect {L L' : Links} {p q q' : Option Nat} {A : List Nat} {x : Nat}
    (hs : Seg L p (A ++ [x]) q)
    (hA : ∀ y ∈ A, L'.next y = L.next y ∧ L'.prev y = L.prev y)
    (hxp : L'.prev x = L.prev x) (hxn : L'.next x = q') :
    Seg L' p (A ++ [x]) q' := by
  rw [seg_append] at hs ⊢
  refine ⟨seg_congr hA hs.1, hxp.trans hs.2.1, ?_, trivial⟩
  simpa using hxn

/-- A segment whose first cell is redirected to a new predecessor. -/
theorem seg_reenter {L L' : Links} {p p' q : Option Nat} {B : List Nat}
    (hs : Seg L p B q) (hnd : B.Nodup)
    (hnext : ∀ y ∈ B, L'.next y = L.next y)
    (hprev : ∀ y ∈ B, L'.prev y = if B.head? = some y then p' else L.prev y) :
    Seg L' p' B q := by
  cases B with
  | nil => trivial
  | cons b B =>
      obtain ⟨-, h2, h3⟩ := hs
      have hb : b ∉ B := (List.nodup_cons.mp hnd).1
      refine ⟨by simpa using hprev b (by simp), (hnext b (by simp)).trans h2, ?_⟩
      refine seg_congr (fun y hy => ⟨hnext y (by simp [hy]), ?_⟩) h3
      have hne : b ≠ y := fun h => hb (h ▸ hy)
      simpa [hne] using hprev y (by simp [hy])

/-- The list around one of its cells. -/
theorem Linked.around {L : Links} {A B : List Nat} {x : Nat} (h : Linked L (A ++ x :: B)) :
    Seg L none (A ++ [x]) B.head? ∧ Seg L (some x) B none ∧ L.next x = B.head? := by
  have hs := h.seg
  rw [show A ++ x :: B = (A ++ [x]) ++ B by simp, seg_append] at hs
  refine ⟨by simpa using hs.1, by simpa using hs.2, ?_⟩
  have := (seg_append.mp hs.1).2
  simpa [Seg] using this.2.1

theorem nodup_mid {A B : List Nat} {x : Nat} (h : (A ++ x :: B).Nodup) :
    x ∉ A ∧ x ∉ B ∧ B.Nodup ∧ ∀ y ∈ B, y ∉ A := by
  rw [List.nodup_append, List.nodup_cons] at h
  refine ⟨fun hx => h.2.2 x hx x (by simp) rfl, h.2.1.1, h.2.1.2, fun y hy hyA => ?_⟩
  exact h.2.2 y hyA y (by simp [hy]) rfl

/-- Splicing in a new cell `r` behind `x`, from what the pointers of the new
table are. -/
theorem Linked.splice {L L' : Links} {A B : List Nat} {x : Nat}
    (h : Linked L (A ++ x :: B)) (hfresh : L'.fresh = L.fresh + 1)
    (hnext : ∀ y, L'.next y = if y = x then some L.fresh
      else if y = L.fresh then B.head? else L.next y)
    (hprev : ∀ y, L'.prev y = if B.head? = some y then some L.fresh
      else if y = L.fresh then some x else L.prev y) :
    Linked L' (A ++ x :: L.fresh :: B) := by
  obtain ⟨hxA, hxB, hBnd, hBA⟩ := nodup_mid h.nodup
  have hr : L.fresh ∉ A ++ x :: B := fun hm => Nat.lt_irrefl _ (h.allocated _ hm)
  simp only [List.mem_append, List.mem_cons, not_or] at hr
  obtain ⟨hrA, hrx, hrB⟩ := hr
  have hhead : ∀ y, y ∉ B → B.head? ≠ some y := by
    intro y hy hh
    exact hy (List.mem_of_mem_head? hh)
  refine ⟨?_, ?_, ?_⟩
  · have hnd := h.nodup
    rw [List.nodup_append] at hnd ⊢
    refine ⟨hnd.1, ?_, ?_⟩
    · rw [List.nodup_cons, List.nodup_cons]
      exact ⟨by simp [hxB, Ne.symm hrx], hrB, hBnd⟩
    · intro a ha b hb
      rcases List.mem_cons.mp hb with rfl | hb
      · rintro rfl; exact hxA ha
      · rcases List.mem_cons.mp hb with rfl | hb
        · rintro rfl; exact hrA ha
        · rintro rfl; exact hBA _ hb ha
  · intro y hy
    rw [hfresh]
    by_cases hyr : y = L.fresh
    · omega
    · have : y ∈ A ++ x :: B := by
        simp only [List.mem_append, List.mem_cons] at hy ⊢
        exact hy.imp_right (Or.imp_right (Or.resolve_left · hyr))
      have := h.allocated y this
      omega
  · obtain ⟨hA, hB, -⟩ := h.around
    rw [show A ++ x :: L.fresh :: B = (A ++ [x]) ++ L.fresh :: B by simp, seg_append]
    refine ⟨?_, ?_⟩
    · refine seg_redirect hA (fun y hy => ?_) ?_ ?_
      · have hyx : y ≠ x := fun e => hxA (e ▸ hy)
        have hyr : y ≠ L.fresh := fun e => hrA (e ▸ hy)
        have hyB : y ∉ B := fun hyB => hBA y hyB hy
        simp [hnext, hprev, hyx, hyr, hhead y hyB]
      · simp [hprev, hhead x hxB, Ne.symm hrx]
      · simp [hnext]
    · refine ⟨by simp [hprev, hhead _ hrB], by simp [hnext, hrx], ?_⟩
      refine seg_reenter hB hBnd (fun y hy => ?_) (fun y hy => ?_)
      · have hyx : y ≠ x := fun e => hxB (e ▸ hy)
        have hyr : y ≠ L.fresh := fun e => hrB (e ▸ hy)
        simp [hnext, hyx, hyr]
      · have hyr : y ≠ L.fresh := fun e => hrB (e ▸ hy)
        simp [hprev, hyr]

/-- A new cell behind `x`: the new cell is pointed first, then its right
neighbour, then `x`. -/
theorem Linked.insertAfter {L : Links} {A B : List Nat} {x : Nat}
    (h : Linked L (A ++ x :: B)) :
    Linked ((((L.alloc.setNext L.fresh (L.next x)).setPrevOf
        ((L.alloc.setNext L.fresh (L.next x)).next L.fresh) (some L.fresh)).setPrev
        L.fresh (some x)).setNext x (some L.fresh)) (A ++ x :: L.fresh :: B) := by
  obtain ⟨-, -, hx⟩ := h.around
  have hr : L.fresh ∉ B := fun hm =>
    Nat.lt_irrefl _ (h.allocated _ (by simp [hm]))
  have hrh : B.head? ≠ some L.fresh := fun hh => hr (List.mem_of_mem_head? hh)
  refine h.splice (by simp) (fun y => ?_) (fun y => ?_)
  · by_cases h1 : y = x <;> by_cases h2 : y = L.fresh <;> simp [h1, h2, hx]
  · by_cases h1 : B.head? = some y
    · have h2 : y ≠ L.fresh := fun e => hrh (e ▸ h1)
      simp [h1, h2, hx]
    · by_cases h2 : y = L.fresh
      · simp [h2, hx, hrh]
      · simp [h1, h2, hx]

/-- A new cell between `x` and its right neighbour `z`. -/
theorem Linked.insertBetween {L : Links} {A B : List Nat} {x z : Nat}
    (h : Linked L (A ++ x :: z :: B)) :
    Linked ((((L.alloc.setPrev L.fresh (some x)).setNext L.fresh (some z)).setPrev z
        (some L.fresh)).setNext x (some L.fresh)) (A ++ x :: L.fresh :: z :: B) := by
  have hr : z ≠ L.fresh := fun e =>
    Nat.lt_irrefl _ (e ▸ h.allocated z (by simp))
  refine h.splice (by simp) (fun y => ?_) (fun y => ?_)
  · by_cases h1 : y = x <;> by_cases h2 : y = L.fresh <;> simp [h1, h2]
  · by_cases h1 : y = z
    · simp [h1]
    · by_cases h2 : y = L.fresh
      · simp [h2, Ne.symm hr, hr]
      · simp [h1, h2, Ne.symm h1]

/-- Unlinking `z`, the cell behind `x`, from what the pointers of the new
table are. -/
theorem Linked.unlink {L L' : Links} {A B : List Nat} {x z : Nat}
    (h : Linked L (A ++ x :: z :: B)) (hfresh : L'.fresh = L.fresh)
    (hnext : ∀ y, y ≠ z → L'.next y = if y = x then B.head? else L.next y)
    (hprev : ∀ y, y ≠ z → L'.prev y = if B.head? = some y then some x else L.prev y) :
    Linked L' (A ++ x :: B) := by
  obtain ⟨hxA, hxB, hBnd, hBA⟩ := nodup_mid h.nodup
  obtain ⟨hxz, hxB⟩ : x ≠ z ∧ x ∉ B := by simpa [not_or] using hxB
  obtain ⟨hzB, hBnd⟩ := List.nodup_cons.mp hBnd
  have hzA : z ∉ A := hBA z (by simp)
  have hhead : ∀ y, y ∉ B → B.head? ≠ some y := by
    intro y hy hh
    exact hy (List.mem_of_mem_head? hh)
  have hsub : List.Sublist (A ++ x :: B) (A ++ x :: z :: B) := by simp
  refine ⟨h.nodup.sublist hsub, fun y hy => hfresh ▸ h.allocated y (hsub.subset hy), ?_⟩
  obtain ⟨hA, hB, -⟩ := h.around
  rw [show A ++ x :: B = (A ++ [x]) ++ B by simp, seg_append]
  refine ⟨?_, ?_⟩
  · refine seg_redirect hA (fun y hy => ?_) ?_ ?_
    · have hyx : y ≠ x := fun e => hxA (e ▸ hy)
      have hyz : y ≠ z := fun e => hzA (e ▸ hy)
      have hyB : y ∉ B := fun hyB => hBA y (by simp [hyB]) hy
      simp [hnext y hyz, hprev y hyz, hyx, hhead y hyB]
    · simp [hprev x hxz, hhead x hxB]
    · simp [hnext x hxz]
  · refine seg_reenter hB.2.2 hBnd (fun y hy => ?_) (fun y hy => ?_)
    · have hyx : y ≠ x := fun e => hxB (e ▸ hy)
      have hyz : y ≠ z := fun e => hzB (e ▸ hy)
      simp [hnext y hyz, hyx]
    · have hyz : y ≠ z := fun e => hzB (e ▸ hy)
      simp [hprev y hyz]

/-- `x->next = z->next; x->next->prev = x`. -/
theorem Linked.unlinkNext {L : Links} {A B : List Nat} {x z : Nat}
    (h : Linked L (A ++ x :: z :: B)) :
    Linked ((L.setNext x (L.next z)).setPrevOf ((L.setNext x (L.next z)).next x) (some x))
      (A ++ x :: B) := by
  have hz : L.next z = B.head? := by
    have h' : Linked L ((A ++ [x]) ++ z :: B) := by simpa using h
    exact h'.around.2.2
  refine h.unlink (by simp) (fun y hy => ?_) (fun y hy => ?_)
  · simp [hz]
  · simp [hz]

/-- Writing the pointers two neighbours already have changes nothing. -/
theorem Linked.relink {L : Links} {A B : List Nat} {x z : Nat}
    (h : Linked L (A ++ x :: z :: B)) :
    Linked ((L.setPrev z (some x)).setNext x (some z)) (A ++ x :: z :: B) := by
  obtain ⟨-, hB, hx⟩ := h.around
  refine ⟨h.nodup, h.allocated, seg_congr (fun y _ => ⟨?_, ?_⟩) h.seg⟩
  · by_cases hy : y = x
    · simp [hy, hx]
    · simp [hy]
  · by_cases hy : y = z
    · simp [hy, hB.1]
    · simp [hy]

end Links

end CustomDbms.Lib
