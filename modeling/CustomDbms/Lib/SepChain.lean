/-
  CustomDbms.Lib.SepChain
  ───────────────────────
  **SEPARATOR CHAINS — the ordering skeleton of a multiway search tree.**

  A node with separators `k₁ … kₙ` and children `c₀ … cₙ` over the range
  `[lo, hi)` is ordered when `c₀` lives in `[lo, k₁)`, `c₁` in `[k₁, k₂)`, …,
  `cₙ` in `[kₙ, hi)`.  `SepChain P lo ks cs hi` says this for an arbitrary
  property `P` of a child and its two bounds; a bound is an `Option`, `none`
  being no bound at all.

    • `sepChain_focus` — the chain seen from one child: what stands to its
      left, the child between its two nearest separators, what stands to its
      right.  Every local restructuring is read off this form.
    • `sepChain_append` — cutting a chain at a separator and gluing two
      chains together; splits and merges of nodes are these two directions.
-/
import Mathlib.Data.List.Basic
import Mathlib.Data.Nat.Basic
import Mathlib.Order.Lattice

namespace CustomDbms.Lib

/-! ## §1. Editing a list at a known position. -/

section Edit

variable {α : Type*}

/-- A list cut at a position below its length. -/
theorem exists_cut_at {l : List α} {i : Nat} (h : i < l.length) :
    ∃ A x B, l = A ++ x :: B ∧ A.length = i := by
  refine ⟨l.take i, l[i], l.drop (i + 1), ?_, by simp; omega⟩
  rw [List.getElem_cons_drop, List.take_append_drop]

variable {A : List α} {n : Nat}

@[simp] theorem getElem?_mid (h : A.length = n) (B : List α) (x : α) :
    (A ++ x :: B)[n]? = some x := by subst h; simp

@[simp] theorem getElem?_mid_one (h : A.length = n) (B : List α) (x y : α) :
    (A ++ x :: y :: B)[n + 1]? = some y := by
  subst h
  rw [List.getElem?_append_right (by omega)]
  simp

@[simp] theorem getElem?_mid_two (h : A.length = n) (B : List α) (x y z : α) :
    (A ++ x :: y :: z :: B)[n + 2]? = some z := by
  subst h
  rw [List.getElem?_append_right (by omega)]
  simp

@[simp] theorem set_mid (h : A.length = n) (B : List α) (x y : α) :
    (A ++ x :: B).set n y = A ++ y :: B := by subst h; simp

@[simp] theorem set_mid_one (h : A.length = n) (B : List α) (x y z : α) :
    (A ++ x :: y :: B).set (n + 1) z = A ++ x :: z :: B := by
  subst h
  rw [List.set_append_right _ _ (by omega)]
  simp

@[simp] theorem insertIdx_mid (h : A.length = n) (B : List α) (x : α) :
    (A ++ B).insertIdx n x = A ++ x :: B := by
  subst h
  induction A with
  | nil => simp
  | cons a A ih => simpa using ih

@[simp] theorem insertIdx_mid_one (h : A.length = n) (B : List α) (x y : α) :
    (A ++ x :: B).insertIdx (n + 1) y = A ++ x :: y :: B := by
  subst h
  induction A with
  | nil => simp
  | cons a A ih => simpa using ih

@[simp] theorem eraseIdx_mid (h : A.length = n) (B : List α) (x : α) :
    (A ++ x :: B).eraseIdx n = A ++ B := by
  subst h
  rw [List.eraseIdx_append_of_length_le (by omega)]
  simp

@[simp] theorem eraseIdx_mid_one (h : A.length = n) (B : List α) (x y : α) :
    (A ++ x :: y :: B).eraseIdx (n + 1) = A ++ x :: B := by
  subst h
  rw [List.eraseIdx_append_of_length_le (by omega)]
  simp

@[simp] theorem eraseIdx_mid_two (h : A.length = n) (B : List α) (x y z : α) :
    (A ++ x :: y :: z :: B).eraseIdx (n + 2) = A ++ x :: y :: B := by
  subst h
  rw [List.eraseIdx_append_of_length_le (by omega)]
  simp

end Edit

/-! ## §2. Bounds. -/

section Bounds

variable {κ : Type*} [LinearOrder κ]

/-- `k` is not below the lower bound. -/
def Above : Option κ → κ → Prop
  | none, _ => True
  | some l, k => l ≤ k

/-- `k` is below the upper bound. -/
def Below : Option κ → κ → Prop
  | none, _ => True
  | some u, k => k < u

/-- The range between two bounds is not empty. -/
def Before : Option κ → Option κ → Prop
  | some l, some u => l < u
  | _, _ => True

@[simp] theorem above_none (k : κ) : Above none k := trivial
@[simp] theorem above_some (l k : κ) : Above (some l) k ↔ l ≤ k := Iff.rfl
@[simp] theorem below_none (k : κ) : Below none k := trivial
@[simp] theorem below_some (u k : κ) : Below (some u) k ↔ k < u := Iff.rfl
@[simp] theorem before_none_left (b : Option κ) : Before none b := trivial
@[simp] theorem before_none_right (a : Option κ) : Before a none := by cases a <;> trivial
@[simp] theorem before_some (l u : κ) : Before (some l) (some u) ↔ l < u := Iff.rfl

theorem before_of_mem {lo hi : Option κ} {k : κ} (h1 : Above lo k) (h2 : Below hi k) :
    Before lo hi := by
  cases lo <;> cases hi <;> simp at *
  exact lt_of_le_of_lt h1 h2

theorem before_trans {lo hi : Option κ} {k : κ} (h1 : Before lo (some k))
    (h2 : Before (some k) hi) : Before lo hi := by
  cases lo <;> cases hi <;> simp at *
  exact lt_trans h1 h2

theorem above_of_before {lo : Option κ} {k x : κ} (h : Before lo (some k)) (hx : k ≤ x) :
    Above lo x := by
  cases lo <;> simp at *
  exact le_trans (le_of_lt h) hx

theorem below_of_before {hi : Option κ} {k x : κ} (h : Before (some k) hi) (hx : x < k) :
    Below hi x := by
  cases hi <;> simp at *
  exact lt_trans hx h

end Bounds

/-! ## §3. Chains. -/

section Chain

variable {κ ν : Type*}

/-- The lower bound of what follows the separators `ks`. -/
def lastOr (lo : Option κ) (ks : List κ) : Option κ := ks.getLast?.or lo

/-- The upper bound of what precedes the separators `ks`. -/
def headOr (ks : List κ) (hi : Option κ) : Option κ := ks.head?.or hi

@[simp] theorem lastOr_nil (lo : Option κ) : lastOr lo [] = lo := rfl
@[simp] theorem lastOr_concat (lo : Option κ) (ks : List κ) (k : κ) :
    lastOr lo (ks ++ [k]) = some k := by simp [lastOr]
@[simp] theorem lastOr_cons (lo : Option κ) (k : κ) (ks : List κ) :
    lastOr lo (k :: ks) = lastOr (some k) ks := by
  rcases List.eq_nil_or_concat' ks with rfl | ⟨l, b, rfl⟩
  · rfl
  · rw [← List.cons_append, lastOr_concat, lastOr_concat]
@[simp] theorem headOr_nil (hi : Option κ) : headOr [] hi = hi := rfl
@[simp] theorem headOr_cons (k : κ) (ks : List κ) (hi : Option κ) :
    headOr (k :: ks) hi = some k := rfl

variable (P : Option κ → Option κ → ν → Prop)

/-- The ordered node: every child satisfies `P` between its separators. -/
def SepChain : Option κ → List κ → List ν → Option κ → Prop
  | lo, [], [c], hi => P lo hi c
  | lo, k :: ks, c :: cs, hi => P lo (some k) c ∧ SepChain (some k) ks cs hi
  | _, _, _, _ => False

/-- The part left of a child: each child with the separator after it. -/
def SepLeft : Option κ → List κ → List ν → Prop
  | _, [], [] => True
  | lo, k :: ks, c :: cs => P lo (some k) c ∧ SepLeft (some k) ks cs
  | _, _, _ => False

/-- The part right of a child: each child with the separator before it. -/
def SepRight : List κ → List ν → Option κ → Prop
  | [], [], _ => True
  | k :: ks, c :: cs, hi => P (some k) (headOr ks hi) c ∧ SepRight ks cs hi
  | _, _, _ => False

variable {P}

@[simp] theorem sepLeft_nil (lo : Option κ) : SepLeft P lo [] [] := trivial

@[simp] theorem sepRight_nil (hi : Option κ) : SepRight P [] [] hi := trivial

@[simp] theorem sepRight_cons (k : κ) (ks : List κ) (c : ν) (cs : List ν) (hi : Option κ) :
    SepRight P (k :: ks) (c :: cs) hi ↔ P (some k) (headOr ks hi) c ∧ SepRight P ks cs hi :=
  Iff.rfl

@[simp] theorem sepChain_cons (lo : Option κ) (ks : List κ) (c : ν) (cs : List ν)
    (hi : Option κ) :
    SepChain P lo ks (c :: cs) hi ↔ P lo (headOr ks hi) c ∧ SepRight P ks cs hi := by
  induction ks generalizing lo c cs with
  | nil => cases cs <;> simp [SepChain, SepRight]
  | cons k ks ih =>
      cases cs with
      | nil => cases ks <;> simp [SepChain, SepRight]
      | cons c' cs => simp only [SepChain, headOr_cons, sepRight_cons, ih]

theorem sepLeft_length {lo : Option κ} {ks : List κ} {cs : List ν}
    (h : SepLeft P lo ks cs) : cs.length = ks.length := by
  induction ks generalizing lo cs with
  | nil => cases cs <;> simp [SepLeft] at h ⊢
  | cons k ks ih =>
      cases cs with
      | nil => simp [SepLeft] at h
      | cons c cs => simpa using ih h.2

theorem sepRight_length {hi : Option κ} {ks : List κ} {cs : List ν}
    (h : SepRight P ks cs hi) : cs.length = ks.length := by
  induction ks generalizing cs with
  | nil => cases cs <;> simp [SepRight] at h ⊢
  | cons k ks ih =>
      cases cs with
      | nil => simp [SepRight] at h
      | cons c cs => simpa using ih h.2

theorem sepChain_length {lo hi : Option κ} {ks : List κ} {cs : List ν}
    (h : SepChain P lo ks cs hi) : cs.length = ks.length + 1 := by
  cases cs with
  | nil => cases ks <;> simp [SepChain] at h
  | cons c cs => simpa using sepRight_length ((sepChain_cons ..).mp h).2

theorem SepChain.imp {Q : Option κ → Option κ → ν → Prop}
    (hPQ : ∀ {lo hi : Option κ} {c : ν}, P lo hi c → Q lo hi c) {lo hi : Option κ} {ks : List κ}
    {cs : List ν} (h : SepChain P lo ks cs hi) : SepChain Q lo ks cs hi := by
  induction ks generalizing lo cs with
  | nil =>
      obtain ⟨c, rfl⟩ := List.length_eq_one_iff.mp (sepChain_length h)
      exact hPQ h
  | cons k ks ih =>
      cases cs with
      | nil => exact h.elim
      | cons c cs => exact ⟨hPQ h.1, ih h.2⟩

@[simp] theorem sepLeft_concat {lo : Option κ} {ks : List κ} {k : κ} {cs : List ν} {c : ν} :
    SepLeft P lo (ks ++ [k]) (cs ++ [c])
      ↔ SepLeft P lo ks cs ∧ P (lastOr lo ks) (some k) c := by
  induction ks generalizing lo cs with
  | nil =>
      cases cs with
      | nil => simp [SepLeft]
      | cons c' cs => cases cs <;> simp [SepLeft]
  | cons k' ks ih =>
      cases cs with
      | nil => cases ks <;> simp [SepLeft]
      | cons c' cs =>
          simp only [List.cons_append, SepLeft, ih, lastOr_cons, and_assoc]

/-- **The chain seen from one child.** -/
theorem sepChain_focus {lo hi : Option κ} {K₁ K₂ : List κ} {C₁ C₂ : List ν} {c : ν}
    (hlen : C₁.length = K₁.length) :
    SepChain P lo (K₁ ++ K₂) (C₁ ++ c :: C₂) hi
      ↔ SepLeft P lo K₁ C₁ ∧ P (lastOr lo K₁) (headOr K₂ hi) c ∧ SepRight P K₂ C₂ hi := by
  induction K₁ generalizing lo C₁ with
  | nil =>
      obtain rfl : C₁ = [] := List.length_eq_zero_iff.mp (by simpa using hlen)
      simp
  | cons k K₁ ih =>
      cases C₁ with
      | nil => simp at hlen
      | cons c' C₁ =>
          simp only [List.cons_append, SepChain, SepLeft, lastOr_cons,
            ih (by simpa using hlen), and_assoc]

/-- **Cutting and gluing chains at a separator.** -/
theorem sepChain_append {lo hi : Option κ} {K₁ K₂ : List κ} {k : κ} {C₁ C₂ : List ν}
    (hlen : C₁.length = K₁.length + 1) :
    SepChain P lo (K₁ ++ k :: K₂) (C₁ ++ C₂) hi
      ↔ SepChain P lo K₁ C₁ (some k) ∧ SepChain P (some k) K₂ C₂ hi := by
  induction K₁ generalizing lo C₁ with
  | nil =>
      obtain ⟨c, rfl⟩ := List.length_eq_one_iff.mp (by simpa using hlen)
      simp only [List.nil_append, List.singleton_append, SepChain]
  | cons k' K₁ ih =>
      cases C₁ with
      | nil => simp at hlen
      | cons c' C₁ =>
          simp only [List.cons_append, SepChain, ih (by simpa using hlen), and_assoc]

/-- Cutting a chain at the separator in position `n`. -/
theorem SepChain.cut_at {lo hi : Option κ} {ks : List κ} {cs : List ν} {n : Nat} {k : κ}
    (h : SepChain P lo ks cs hi) (hk : ks[n]? = some k) :
    SepChain P lo (ks.take n) (cs.take (n + 1)) (some k) ∧
      SepChain P (some k) (ks.drop (n + 1)) (cs.drop (n + 1)) hi := by
  obtain ⟨hn, rfl⟩ := List.getElem?_eq_some_iff.mp hk
  have hlen := sepChain_length h
  refine (sepChain_append (by simp; omega)).mp ?_
  rwa [List.getElem_cons_drop, List.take_append_drop, List.take_append_drop]

/-- A chain around two adjacent children. -/
theorem SepChain.window₂ {lo hi : Option κ} {ks : List κ} {cs : List ν} {j : Nat}
    (h : SepChain P lo ks cs hi) (hj : j + 1 < cs.length) :
    ∃ K₁ k K₂ C₁ x y C₂, ks = K₁ ++ k :: K₂ ∧ cs = C₁ ++ x :: y :: C₂ ∧
      K₁.length = j ∧ C₁.length = j ∧ SepLeft P lo K₁ C₁ ∧
      P (lastOr lo K₁) (some k) x ∧ P (some k) (headOr K₂ hi) y ∧ SepRight P K₂ C₂ hi := by
  have hlen := sepChain_length h
  obtain ⟨K₁, k, K₂, rfl, hK⟩ := exists_cut_at (l := ks) (i := j) (by omega)
  obtain ⟨C₁, x, C, rfl, hC⟩ := exists_cut_at (l := cs) (i := j) (by omega)
  obtain _ | ⟨y, C₂⟩ := C
  · simp at hlen hj; omega
  rw [sepChain_focus (by omega), headOr_cons, sepRight_cons] at h
  exact ⟨K₁, k, K₂, C₁, x, y, C₂, rfl, rfl, hK, hC, h.1, h.2.1, h.2.2.1, h.2.2.2⟩

end Chain

/-! ## §4. Separators between their bounds. -/

section Room

variable {κ ν : Type*} [LinearOrder κ]

/-- Increasing separators strictly between the bounds of their node. -/
structure Separators (lo hi : Option κ) (ks : List κ) : Prop where
  increasing : ks.Pairwise (· < ·)
  within : ∀ k ∈ ks, Before lo (some k) ∧ Before (some k) hi

theorem Separators.tail {lo hi : Option κ} {k : κ} {ks : List κ}
    (h : Separators lo hi (k :: ks)) : Separators (some k) hi ks where
  increasing := (List.pairwise_cons.mp h.increasing).2
  within := fun x hx =>
    ⟨(List.pairwise_cons.mp h.increasing).1 x hx, (h.within x (by simp [hx])).2⟩

variable {P : Option κ → Option κ → ν → Prop}
  (hP : ∀ {lo hi : Option κ} {c : ν}, P lo hi c → Before lo hi)

include hP

/-- Children with room between their separators make room between the bounds. -/
theorem sepChain_before {lo hi : Option κ} {ks : List κ} {cs : List ν}
    (h : SepChain P lo ks cs hi) : Before lo hi := by
  induction ks generalizing lo cs with
  | nil =>
      obtain ⟨c, rfl⟩ := List.length_eq_one_iff.mp (sepChain_length h)
      exact hP h
  | cons k ks ih =>
      cases cs with
      | nil => exact h.elim
      | cons c cs => exact before_trans (hP h.1) (ih h.2)

/-- Their separators increase between the bounds. -/
theorem sepChain_separators {lo hi : Option κ} {ks : List κ} {cs : List ν}
    (h : SepChain P lo ks cs hi) : Separators lo hi ks := by
  constructor
  · induction ks generalizing lo cs with
    | nil => exact List.Pairwise.nil
    | cons k ks ih =>
        cases cs with
        | nil => exact h.elim
        | cons c cs =>
            refine List.pairwise_cons.mpr ⟨fun x hx => ?_, ih h.2⟩
            -- everything right of `k` lies above the child between
            obtain ⟨A, B, rfl⟩ := List.append_of_mem hx
            have hcut := h.2.cut_at (getElem?_mid rfl B x)
            exact (before_some k x).mp (sepChain_before hP hcut.1)
  · intro k hk
    obtain ⟨A, B, rfl⟩ := List.append_of_mem hk
    have hcut := h.cut_at (getElem?_mid rfl B k)
    exact ⟨sepChain_before hP hcut.1, sepChain_before hP hcut.2⟩

end Room

end CustomDbms.Lib
