/-
  CustomDbms.Index.Entries
  ────────────────────────
  **SORTED ENTRY LISTS — what the tree is for.**

  The abstract value of a B*+-tree is the list of its entries in key order.
  `insertEntry` and `removeEntry` say what `Insert` and `Remove` mean on that
  list, `rowsOf` what `Find` reads from it, `entriesBetween` what `RangeScan`
  returns.  The leaf-level code is shown to compute exactly these functions,
  and both act locally: entries on the wrong side of the key are untouched
  (`insertEntry_append_left`, `insertEntry_append_right`, and the same for
  removal), which is what lets a subtree answer for the whole tree.
-/
import CustomDbms.Index.BStarPlusTree
import CustomDbms.Lib.SepChain

namespace CustomDbms.Index

open CustomDbms.Lib

set_option linter.unusedSectionVars false

variable {κ ρ : Type} [LinearOrder κ] [DecidableEq ρ]

/-! ## §1. Sorted lists within bounds. -/

/-- Keys strictly increasing and inside `[lo, hi)`. -/
def SortedIn (lo hi : Option κ) (es : List (IndexEntry κ ρ)) : Prop :=
  es.Pairwise (fun e f => e.key < f.key) ∧ ∀ e ∈ es, Above lo e.key ∧ Below hi e.key

/-- Every key stands for at least one row, and no row is listed twice. -/
def RowsOk (es : List (IndexEntry κ ρ)) : Prop :=
  ∀ e ∈ es, e.rowIds ≠ [] ∧ e.rowIds.Nodup

theorem RowsOk.ne_nil {es : List (IndexEntry κ ρ)} (h : RowsOk es) : ∀ e ∈ es, e.rowIds ≠ [] :=
  fun e he => (h e he).1

theorem rowsOk_append {A B : List (IndexEntry κ ρ)} :
    RowsOk (A ++ B) ↔ RowsOk A ∧ RowsOk B := by
  constructor
  · intro h
    exact ⟨fun e he => h e (List.mem_append_left B he),
      fun e he => h e (List.mem_append_right A he)⟩
  · rintro ⟨hA, hB⟩ e he
    exact (List.mem_append.mp he).elim (hA e) (hB e)

/-- Cutting a sorted list before an entry. -/
theorem SortedIn.cut {lo hi : Option κ} {A B : List (IndexEntry κ ρ)} {e : IndexEntry κ ρ}
    (h : SortedIn lo hi (A ++ e :: B)) :
    SortedIn lo (some e.key) A ∧ SortedIn (some e.key) hi (e :: B) := by
  obtain ⟨hp, hb⟩ := h
  rw [List.pairwise_append] at hp
  obtain ⟨hA, hB, hAB⟩ := hp
  refine ⟨⟨hA, fun x hx => ⟨(hb x (by simp [hx])).1, hAB x hx e (by simp)⟩⟩,
    ⟨hB, fun x hx => ⟨?_, (hb x (by simp [hx])).2⟩⟩⟩
  rcases List.mem_cons.mp hx with rfl | hx
  · exact le_refl _
  · exact le_of_lt ((List.pairwise_cons.mp hB).1 x hx)

/-- Gluing two sorted lists at a separator. -/
theorem SortedIn.glue {lo hi : Option κ} {k : κ} {A B : List (IndexEntry κ ρ)}
    (hA : SortedIn lo (some k) A) (hB : SortedIn (some k) hi B)
    (hlo : Before lo (some k)) (hhi : Before (some k) hi) : SortedIn lo hi (A ++ B) := by
  refine ⟨List.pairwise_append.mpr ⟨hA.1, hB.1, fun x hx y hy => ?_⟩, fun x hx => ?_⟩
  · exact lt_of_lt_of_le (hA.2 x hx).2 (hB.2 y hy).1
  · rcases List.mem_append.mp hx with hx | hx
    · exact ⟨(hA.2 x hx).1, below_of_before hhi (hA.2 x hx).2⟩
    · exact ⟨above_of_before hlo (hB.2 x hx).1, (hB.2 x hx).2⟩

theorem SortedIn.before {lo hi : Option κ} {es : List (IndexEntry κ ρ)}
    (h : SortedIn lo hi es) (hne : es ≠ []) : Before lo hi := by
  obtain ⟨e, rest, rfl⟩ := List.exists_cons_of_ne_nil hne
  exact before_of_mem (h.2 e (by simp)).1 (h.2 e (by simp)).2

/-! ## §2. The meaning of the operations on the entry list. -/

/-- `Insert` on the entry list. -/
def insertEntry (key : κ) (r : ρ) : List (IndexEntry κ ρ) → List (IndexEntry κ ρ)
  | [] => [⟨key, [r]⟩]
  | e :: es =>
      if e.key < key then e :: insertEntry key r es
      else if e.key = key then { e with rowIds := addRowId e.rowIds r } :: es
      else ⟨key, [r]⟩ :: e :: es

/-- `Remove` on the entry list. -/
def removeEntry (key : κ) (r : ρ) : List (IndexEntry κ ρ) → List (IndexEntry κ ρ)
  | [] => []
  | e :: es =>
      if e.key = key then
        if e.rowIds.erase r = [] then es else { e with rowIds := e.rowIds.erase r } :: es
      else e :: removeEntry key r es

/-- `Find` on the entry list. -/
def rowsOf (es : List (IndexEntry κ ρ)) (key : κ) : List ρ :=
  match es.find? (fun e => decide (e.key = key)) with
  | none => []
  | some e => e.rowIds

/-- `RangeScan` on the entry list. -/
def entriesBetween (lower upper : κ) (es : List (IndexEntry κ ρ)) : List (IndexEntry κ ρ) :=
  es.filter (fun e => decide (lower ≤ e.key) && decide (e.key < upper))

theorem insertEntry_append_left {key : κ} {r : ρ} {A B : List (IndexEntry κ ρ)}
    (hA : ∀ e ∈ A, e.key < key) :
    insertEntry key r (A ++ B) = A ++ insertEntry key r B := by
  induction A with
  | nil => rfl
  | cons e A ih =>
      have he : e.key < key := hA e (by simp)
      simp only [List.cons_append, insertEntry, if_pos he]
      rw [ih (fun x hx => hA x (by simp [hx]))]

theorem insertEntry_append_right {key : κ} {r : ρ} {A B : List (IndexEntry κ ρ)}
    (hB : ∀ e ∈ B, key < e.key) :
    insertEntry key r (A ++ B) = insertEntry key r A ++ B := by
  induction A with
  | nil =>
      cases B with
      | nil => rfl
      | cons e B =>
          have he : key < e.key := hB e (by simp)
          simp [insertEntry, not_lt_of_gt he, ne_of_gt he]
  | cons e A ih =>
      simp only [List.cons_append, insertEntry]
      split
      · rw [ih, List.cons_append]
      · split <;> rfl

theorem removeEntry_append_left {key : κ} {r : ρ} {A B : List (IndexEntry κ ρ)}
    (hA : ∀ e ∈ A, e.key < key) :
    removeEntry key r (A ++ B) = A ++ removeEntry key r B := by
  induction A with
  | nil => rfl
  | cons e A ih =>
      have he : e.key ≠ key := ne_of_lt (hA e (by simp))
      simp only [List.cons_append, removeEntry, if_neg he]
      rw [ih (fun x hx => hA x (by simp [hx]))]

theorem removeEntry_of_above {key : κ} {r : ρ} {B : List (IndexEntry κ ρ)}
    (hB : ∀ e ∈ B, key < e.key) : removeEntry key r B = B := by
  induction B with
  | nil => rfl
  | cons e B ih =>
      simp only [removeEntry, if_neg (ne_of_gt (hB e (by simp)))]
      rw [ih (fun x hx => hB x (by simp [hx]))]

theorem removeEntry_append_right {key : κ} {r : ρ} {A B : List (IndexEntry κ ρ)}
    (hB : ∀ e ∈ B, key < e.key) :
    removeEntry key r (A ++ B) = removeEntry key r A ++ B := by
  induction A with
  | nil => simpa [removeEntry] using removeEntry_of_above hB
  | cons e A ih =>
      simp only [List.cons_append, removeEntry]
      split
      · split <;> rfl
      · rw [ih, List.cons_append]

/-! ## §3. Rows of a key after an operation. -/

theorem rowsOf_cons (e : IndexEntry κ ρ) (es : List (IndexEntry κ ρ)) (k : κ) :
    rowsOf (e :: es) k = if e.key = k then e.rowIds else rowsOf es k := by
  unfold rowsOf
  by_cases h : e.key = k <;> simp [h]

theorem rowsOf_of_above {key : κ} {es : List (IndexEntry κ ρ)}
    (h : ∀ e ∈ es, key < e.key) : rowsOf es key = [] := by
  induction es with
  | nil => rfl
  | cons e es ih =>
      rw [rowsOf_cons, if_neg (ne_of_gt (h e (by simp))), ih (fun x hx => h x (by simp [hx]))]

theorem rowsOf_append_left {key : κ} {A B : List (IndexEntry κ ρ)}
    (hA : ∀ e ∈ A, e.key < key) : rowsOf (A ++ B) key = rowsOf B key := by
  induction A with
  | nil => rfl
  | cons e A ih =>
      rw [List.cons_append, rowsOf_cons, if_neg (ne_of_lt (hA e (by simp))),
        ih (fun x hx => hA x (by simp [hx]))]

theorem rowsOf_append_right {key : κ} {A B : List (IndexEntry κ ρ)}
    (hB : ∀ e ∈ B, key < e.key) : rowsOf (A ++ B) key = rowsOf A key := by
  induction A with
  | nil => simpa [rowsOf] using rowsOf_of_above hB
  | cons e A ih => rw [List.cons_append, rowsOf_cons, rowsOf_cons, ih]

theorem rowsOf_insertEntry {lo hi : Option κ} {es : List (IndexEntry κ ρ)}
    (hs : SortedIn lo hi es) (key : κ) (r : ρ) (k : κ) :
    rowsOf (insertEntry key r es) k
      = if k = key then addRowId (rowsOf es k) r else rowsOf es k := by
  induction es generalizing lo with
  | nil =>
      rw [insertEntry, rowsOf_cons]
      by_cases h : k = key
      · subst h; simp [rowsOf, addRowId]
      · simp [h, Ne.symm h]
  | cons e es ih =>
      have habove : ∀ x ∈ es, e.key < x.key := (List.pairwise_cons.mp hs.1).1
      rw [insertEntry]
      by_cases h1 : e.key < key
      · -- the entry is smaller: the operation happens further right
        rw [if_pos h1, rowsOf_cons, rowsOf_cons,
          ih ⟨(List.pairwise_cons.mp hs.1).2, fun x hx => hs.2 x (by simp [hx])⟩]
        by_cases hk : e.key = k
        · subst hk
          simp [ne_of_lt h1]
        · simp [hk]
      rw [if_neg h1]
      by_cases h2 : e.key = key
      · -- the entry itself
        subst h2
        by_cases hk : e.key = k
        · subst hk; simp [rowsOf_cons]
        · simp [rowsOf_cons, hk, Ne.symm hk]
      · -- the key is new and goes before the entry
        have hlt : key < e.key := lt_of_le_of_ne (not_lt.mp h1) (Ne.symm h2)
        rw [if_neg h2, rowsOf_cons]
        by_cases hk : key = k
        · subst hk
          have : rowsOf (e :: es) key = [] := rowsOf_of_above (by
            intro x hx
            rcases List.mem_cons.mp hx with rfl | hx
            · exact hlt
            · exact lt_trans hlt (habove x hx))
          simp [this, addRowId]
        · simp [hk, Ne.symm hk]

theorem rowsOf_removeEntry {lo hi : Option κ} {es : List (IndexEntry κ ρ)}
    (hs : SortedIn lo hi es) (key : κ) (r : ρ) (k : κ) :
    rowsOf (removeEntry key r es) k
      = if k = key then (rowsOf es k).erase r else rowsOf es k := by
  induction es generalizing lo with
  | nil => simp [removeEntry, rowsOf]
  | cons e es ih =>
      have habove : ∀ x ∈ es, e.key < x.key := (List.pairwise_cons.mp hs.1).1
      rw [removeEntry]
      by_cases h1 : e.key = key
      · subst h1
        rw [if_pos rfl]
        by_cases h2 : e.rowIds.erase r = []
        · -- the last row of the key goes, and the entry with it
          rw [if_pos h2]
          by_cases hk : k = e.key
          · subst hk
            rw [rowsOf_of_above habove, rowsOf_cons, if_pos rfl, if_pos rfl, h2]
          · rw [if_neg hk, rowsOf_cons, if_neg (Ne.symm hk)]
        · rw [if_neg h2]
          by_cases hk : k = e.key
          · subst hk; simp [rowsOf_cons]
          · simp [rowsOf_cons, hk, Ne.symm hk]
      · rw [if_neg h1, rowsOf_cons, rowsOf_cons,
          ih ⟨(List.pairwise_cons.mp hs.1).2, fun x hx => hs.2 x (by simp [hx])⟩]
        by_cases hk : e.key = k
        · subst hk; simp [h1]
        · simp [hk]

/-! ## §4. The operations keep the list sorted and its rows well formed. -/

theorem mem_insertEntry {key : κ} {r : ρ} {es : List (IndexEntry κ ρ)} {e : IndexEntry κ ρ}
    (h : e ∈ insertEntry key r es) : e.key = key ∨ e ∈ es := by
  induction es with
  | nil =>
      simp only [insertEntry, List.mem_singleton] at h
      exact Or.inl (by rw [h])
  | cons f es ih =>
      rw [insertEntry] at h
      split_ifs at h with h1 h2
      · rcases List.mem_cons.mp h with rfl | h
        · exact Or.inr (by simp)
        · exact (ih h).imp_right (by simp_all)
      · rcases List.mem_cons.mp h with rfl | h
        · exact Or.inl h2
        · exact Or.inr (by simp [h])
      · rcases List.mem_cons.mp h with rfl | h
        · exact Or.inl rfl
        · exact Or.inr h

theorem sortedIn_insertEntry {lo hi : Option κ} {key : κ} {r : ρ} {es : List (IndexEntry κ ρ)}
    (hs : SortedIn lo hi es) (hlo : Above lo key) (hhi : Below hi key) :
    SortedIn lo hi (insertEntry key r es) := by
  refine ⟨?_, fun e he => ?_⟩
  · have hp := hs.1
    clear hs
    induction es with
    | nil => exact List.pairwise_singleton _ _
    | cons e es ih =>
        obtain ⟨h1, h2⟩ := List.pairwise_cons.mp hp
        rw [insertEntry]
        split_ifs with hlt heq
        · refine List.pairwise_cons.mpr ⟨fun x hx => ?_, ih h2⟩
          rcases mem_insertEntry hx with hx | hx
          · rw [hx]; exact hlt
          · exact h1 x hx
        · exact List.pairwise_cons.mpr ⟨h1, h2⟩
        · have hlt' : key < e.key := lt_of_le_of_ne (not_lt.mp hlt) (Ne.symm heq)
          refine List.pairwise_cons.mpr ⟨fun x hx => ?_, hp⟩
          rcases List.mem_cons.mp hx with rfl | hx
          · exact hlt'
          · exact lt_trans hlt' (h1 x hx)
  · rcases mem_insertEntry he with hk | he
    · rw [hk]; exact ⟨hlo, hhi⟩
    · exact hs.2 e he

theorem nodup_addRowId {ids : List ρ} (h : ids.Nodup) (r : ρ) : (addRowId ids r).Nodup := by
  unfold addRowId
  split_ifs with hr
  · exact h
  · rw [List.nodup_append]
    refine ⟨h, by simp, fun x hx y hy => ?_⟩
    rw [List.mem_singleton.mp hy]
    rintro rfl
    exact hr hx

theorem addRowId_ne_nil (ids : List ρ) (r : ρ) : addRowId ids r ≠ [] := by
  unfold addRowId
  split_ifs with hr
  · exact List.ne_nil_of_mem hr
  · simp

theorem rowsOk_insertEntry (key : κ) (r : ρ) {es : List (IndexEntry κ ρ)} (h : RowsOk es) :
    RowsOk (insertEntry key r es) := by
  induction es with
  | nil => simp [insertEntry, RowsOk]
  | cons e es ih =>
      have hcons : ∀ x : IndexEntry κ ρ, x.rowIds ≠ [] ∧ x.rowIds.Nodup → ∀ l, RowsOk l →
          RowsOk (x :: l) := by
        intro x hx l hl y hy
        rcases List.mem_cons.mp hy with rfl | hy
        · exact hx
        · exact hl y hy
      have hes : RowsOk es := fun x hx => h x (by simp [hx])
      rw [insertEntry]
      split_ifs
      · exact hcons _ (h e (by simp)) _ (ih hes)
      · exact hcons _ ⟨addRowId_ne_nil _ _, nodup_addRowId (h e (by simp)).2 r⟩ _ hes
      · exact hcons _ (by simp) _ h

theorem removeEntry_key_sublist (key : κ) (r : ρ) (es : List (IndexEntry κ ρ)) :
    List.Sublist ((removeEntry key r es).map (·.key)) (es.map (·.key)) := by
  induction es with
  | nil => simp [removeEntry]
  | cons e es ih =>
      rw [removeEntry]
      split_ifs
      · simp
      · simp
      · simpa using ih

/-- Sortedness within bounds is a property of the keys alone. -/
theorem sortedIn_iff_keys {lo hi : Option κ} {es : List (IndexEntry κ ρ)} :
    SortedIn lo hi es ↔ (es.map (·.key)).Pairwise (· < ·) ∧
      ∀ k ∈ es.map (·.key), Above lo k ∧ Below hi k := by
  simp only [SortedIn, List.pairwise_map, List.mem_map, forall_exists_index, and_imp,
    forall_apply_eq_imp_iff₂]

theorem sortedIn_removeEntry {lo hi : Option κ} {key : κ} {r : ρ} {es : List (IndexEntry κ ρ)}
    (hs : SortedIn lo hi es) : SortedIn lo hi (removeEntry key r es) := by
  rw [sortedIn_iff_keys] at hs ⊢
  have hsub := removeEntry_key_sublist key r es
  exact ⟨hs.1.sublist hsub, fun k hk => hs.2 k (hsub.subset hk)⟩

theorem rowsOk_removeEntry {key : κ} {r : ρ} {es : List (IndexEntry κ ρ)} (h : RowsOk es) :
    RowsOk (removeEntry key r es) := by
  induction es with
  | nil => exact h
  | cons e es ih =>
      have hes : RowsOk es := fun x hx => h x (by simp [hx])
      have he := h e (by simp)
      rw [removeEntry]
      split_ifs with h1 h2
      · exact hes
      · intro x hx
        rcases List.mem_cons.mp hx with rfl | hx
        · exact ⟨h2, he.2.erase r⟩
        · exact hes x hx
      · intro x hx
        rcases List.mem_cons.mp hx with rfl | hx
        · exact he
        · exact ih hes x hx

/-! ## §5. The leaf code computes them. -/

/-- Where `LowerBound` cuts a leaf. -/
theorem lowerBound_cut (es : List (IndexEntry κ ρ)) (key : κ) :
    ∃ A B, es = A ++ B ∧ A.length = lowerBound (es.map (·.key)) key ∧
      (∀ e ∈ A, e.key < key) ∧ ∀ e ∈ B.head?, key ≤ e.key := by
  induction es with
  | nil => exact ⟨[], [], rfl, rfl, by simp, by simp⟩
  | cons e es ih =>
      by_cases h : e.key < key
      · obtain ⟨A, B, hes, hlen, hA, hB⟩ := ih
        refine ⟨e :: A, B, by rw [hes, List.cons_append], ?_, ?_, hB⟩
        · simpa [lowerBound, h] using hlen
        · intro x hx
          rcases List.mem_cons.mp hx with rfl | hx
          · exact h
          · exact hA x hx
      · refine ⟨[], e :: es, rfl, by simp [lowerBound, h], by simp, ?_⟩
        intro x hx
        simp only [List.head?_cons, Option.mem_some_iff] at hx
        rw [← hx]
        exact not_lt.mp h

/-- The leaf lookup of `Find`. -/
theorem leafLookup_eq_rowsOf {lo hi : Option κ} {es : List (IndexEntry κ ρ)}
    (hs : SortedIn lo hi es) (key : κ) :
    (match es[lowerBound (es.map (·.key)) key]? with
      | none => some []
      | some e => if e.key = key then some e.rowIds else some []) = some (rowsOf es key) := by
  obtain ⟨A, B, hes, hlen, hA, hB⟩ := lowerBound_cut es key
  rw [← hlen]
  subst hes
  rw [rowsOf_append_left hA]
  cases B with
  | nil => simp [rowsOf]
  | cons e B =>
      have hp := (List.pairwise_append.mp hs.1).2.1
      simp only [getElem?_mid, rowsOf_cons]
      split_ifs with he
      · rfl
      · have hlt : key < e.key := lt_of_le_of_ne (hB e rfl) (Ne.symm he)
        rw [rowsOf_of_above (fun x hx => lt_trans hlt ((List.pairwise_cons.mp hp).1 x hx))]

/-- The leaf case of `RemoveRecursive`: the row goes, and the flag says
whether the entry list changed. -/
theorem removeFromLeaf_spec {lo hi : Option κ} {a : Addr} {es : List (IndexEntry κ ρ)}
    (hs : SortedIn lo hi es) (hr : RowsOk es) (key : κ) (r : ρ) :
    (removeFromLeaf a es key r).2 = .leaf a (removeEntry key r es) ∧
      ((removeFromLeaf a es key r).1 = false → removeEntry key r es = es) ∧
      es.length ≤ (removeEntry key r es).length + 1 ∧
      (removeEntry key r es).length ≤ es.length := by
  obtain ⟨A, B, hes, hlen, hA, hB⟩ := lowerBound_cut es key
  unfold removeFromLeaf
  rw [← hlen]
  subst hes
  rw [removeEntry_append_left hA]
  cases B with
  | nil => simp [removeEntry]
  | cons e B =>
      simp only [getElem?_mid, removeEntry]
      by_cases he : e.key = key
      · by_cases hm : r ∈ e.rowIds
        · simp only [he, hm, and_self, if_true]
          split_ifs
          · simp [Nat.add_assoc]
          · simp
        · have herase : e.rowIds.erase r = e.rowIds := List.erase_of_not_mem hm
          have hne : e.rowIds ≠ [] := (hr e (by simp)).1
          subst he
          simp [hm, herase, hne]
      · have hlt : key < e.key := lt_of_le_of_ne (hB e rfl) (Ne.symm he)
        have hp := (List.pairwise_append.mp hs.1).2.1
        have hrest : removeEntry key r B = B :=
          removeEntry_of_above (fun x hx => lt_trans hlt ((List.pairwise_cons.mp hp).1 x hx))
        simp [he, hrest]

end CustomDbms.Index
