/-
  CustomDbms.Index.Remove
  ───────────────────────
  **REMOVAL IS CORRECT.**

  A removal may leave a child one key short.  `FixChildUnderflow` then borrows
  from a neighbour, or rebuilds three children as two, or merges the only two.
  `Repaired p p'` is what all of these owe: every child canonical again, the
  same entries in the same order, the leaf chain along them, and at most one
  separator lost.

    • `fixChildUnderflow_spec` — for an even order from 6 on one of the repairs
      always applies: the first 3-to-2 attempt that is made never declines.
    • `removeRecursive_spec`   — induction on the height.
-/
import CustomDbms.Index.Restructure

namespace CustomDbms.Index

open CustomDbms.Lib

set_option linter.unusedSectionVars false

variable {κ ρ : Type} [LinearOrder κ] [DecidableEq ρ]

/-! ## §1. The contract of a repair. -/

/-- The repaired parent. -/
structure Repaired (M h : Nat) (lo hi : Option κ) (p p' : Parent κ ρ) : Prop where
  chain : ChildrenWF M h lo hi p'.keys p'.children
  entries : entriesOf p'.children = entriesOf p.children
  linked : ∀ A B, p.links.Linked (A ++ addrsOf p.children ++ B) →
    p'.links.Linked (A ++ addrsOf p'.children ++ B)
  shrinks : p'.keys.length ≤ p.keys.length
  loses : p.keys.length ≤ p'.keys.length + 1

section Windows

variable {M h j : Nat} {lo hi : Option κ} {K₁ K₂ : List κ} {k k' : κ}
  {C₁ C₂ : List (Node κ ρ)} {x y z x' y' : Node κ ρ} {L L' : Links}

/-- Two neighbours are exchanged for two. -/
theorem repaired_pair {s : κ} (hK : K₁.length = j) (hC : C₁.length = j)
    (hL : SepLeft (WF M h (minKeys M) M) lo K₁ C₁)
    (hR : SepRight (WF M h (minKeys M) M) K₂ C₂ hi)
    (hx : WF M h (minKeys M) M (lastOr lo K₁) (some s) x')
    (hy : WF M h (minKeys M) M (some s) (headOr K₂ hi) y')
    (hent : x'.entries ++ y'.entries = x.entries ++ y.entries)
    (haddr : x'.addrs ++ y'.addrs = x.addrs ++ y.addrs) :
    Repaired M h lo hi ⟨K₁ ++ k :: K₂, C₁ ++ x :: y :: C₂, L⟩
      ⟨K₁ ++ s :: K₂, C₁ ++ x' :: y' :: C₂, L⟩ := by
  refine ⟨?_, ?_, ?_, by simp, by simp⟩
  · exact (sepChain_focus (hC.trans hK.symm)).mpr ⟨hL, hx, hy, hR⟩
  · simpa using congrArg (fun l => entriesOf C₁ ++ (l ++ entriesOf C₂)) hent
  · intro A B hl
    have haddrs := congrArg (fun l => A ++ (addrsOf C₁ ++ (l ++ (addrsOf C₂ ++ B)))) haddr
    simp only [List.append_assoc] at haddrs
    simpa [haddrs] using hl

/-- Two neighbours become one. -/
theorem repaired_merge (hK : K₁.length = j) (hC : C₁.length = j)
    (hL : SepLeft (WF M h (minKeys M) M) lo K₁ C₁)
    (hR : SepRight (WF M h (minKeys M) M) K₂ C₂ hi)
    (hx : WF M h (minKeys M) M (lastOr lo K₁) (headOr K₂ hi) x')
    (hent : x'.entries = x.entries ++ y.entries)
    (hlink : ∀ A B, L.Linked (A ++ (x.addrs ++ y.addrs) ++ B) → L'.Linked (A ++ x'.addrs ++ B)) :
    Repaired M h lo hi ⟨K₁ ++ k :: K₂, C₁ ++ x :: y :: C₂, L⟩
      ⟨K₁ ++ K₂, C₁ ++ x' :: C₂, L'⟩ := by
  refine ⟨?_, by simp [hent], ?_, by simp, by simp; omega⟩
  · exact (sepChain_focus (hC.trans hK.symm)).mpr ⟨hL, hx, hR⟩
  · intro A B hl
    simpa using hlink (A ++ addrsOf C₁) (addrsOf C₂ ++ B) (by simpa using hl)

/-- Three neighbours become two. -/
theorem repaired_triple {s : κ} (hK : K₁.length = j) (hC : C₁.length = j)
    (hL : SepLeft (WF M h (minKeys M) M) lo K₁ C₁)
    (hR : SepRight (WF M h (minKeys M) M) K₂ C₂ hi)
    (hx : WF M h (minKeys M) M (lastOr lo K₁) (some s) x')
    (hy : WF M h (minKeys M) M (some s) (headOr K₂ hi) y')
    (hent : x'.entries ++ y'.entries = x.entries ++ (y.entries ++ z.entries))
    (hlink : ∀ A B, L.Linked (A ++ (x.addrs ++ (y.addrs ++ z.addrs)) ++ B) →
      L'.Linked (A ++ (x'.addrs ++ y'.addrs) ++ B)) :
    Repaired M h lo hi ⟨K₁ ++ k :: k' :: K₂, C₁ ++ x :: y :: z :: C₂, L⟩
      ⟨K₁ ++ s :: K₂, C₁ ++ x' :: y' :: C₂, L'⟩ := by
  refine ⟨?_, ?_, ?_, by simp, by simp; omega⟩
  · exact (sepChain_focus (hC.trans hK.symm)).mpr ⟨hL, hx, hy, hR⟩
  · simpa using congrArg (fun l => entriesOf C₁ ++ (l ++ entriesOf C₂)) hent
  · intro A B hl
    simpa using hlink (A ++ addrsOf C₁) (addrsOf C₂ ++ B) (by simpa using hl)

/-! ## §2. Borrowing. -/

/-- Borrowing needs neighbours that may be short of one key. -/
theorem borrowForLeaf_left (hM : 6 ≤ M) (hK : K₁.length = j) (hC : C₁.length = j)
    (hL : SepLeft (WF M 0 (minKeys M) M) lo K₁ C₁)
    (hR : SepRight (WF M 0 (minKeys M) M) K₂ C₂ hi)
    (hx : WF M 0 (minKeys M - 1) M (lastOr lo K₁) (some k) x)
    (hy : WF M 0 (minKeys M - 1) M (some k) (headOr K₂ hi) y)
    (hlend : minKeys M < x.keyCount) (hshort : y.keyCount < minKeys M) :
    ∃ p', borrowForLeaf ⟨K₁ ++ k :: K₂, C₁ ++ x :: y :: C₂, L⟩ j (j + 1) true = some p' ∧
      Repaired M 0 lo hi ⟨K₁ ++ k :: K₂, C₁ ++ x :: y :: C₂, L⟩ p' := by
  obtain ⟨a, es, rfl, -, -, hx1, hx2⟩ := hx.leaf_cases
  obtain ⟨b, fs, rfl, -, -, hy1, hy2⟩ := hy.leaf_cases
  simp only [keyCount_leaf] at hlend hshort
  unfold minKeys at hlend hshort hx1 hy1
  rcases List.eq_nil_or_concat' es with rfl | ⟨es', e, rfl⟩
  · simp at hlend
  obtain ⟨hs, hr⟩ := leaves_glue (by omega) (by unfold minKeys; omega)
    (by unfold minKeys; omega) hx hy
  simp only [List.length_append, List.length_singleton] at hlend hx1 hx2
  simp only [borrowForLeaf, child_mid hC hx.ne_null, child_mid_one hC hy.ne_null, Parent.key,
    getElem?_mid hK, set_mid hK, set_mid hC, set_mid_one hC, if_true, List.getLast?_concat,
    List.dropLast_concat]
  rw [List.append_assoc, List.singleton_append] at hs hr
  obtain ⟨hw1, hw2⟩ := leaves_cut (M := M) (a := a) (b := b) hs hr
    (by unfold minKeys; omega) (by unfold minKeys; omega)
  exact ⟨_, rfl, repaired_pair hK hC hL hR hw1 hw2 (by simp) (by simp)⟩

theorem borrowForLeaf_right (hM : 6 ≤ M) (hK : K₁.length = j) (hC : C₁.length = j)
    (hL : SepLeft (WF M 0 (minKeys M) M) lo K₁ C₁)
    (hR : SepRight (WF M 0 (minKeys M) M) K₂ C₂ hi)
    (hx : WF M 0 (minKeys M - 1) M (lastOr lo K₁) (some k) x)
    (hy : WF M 0 (minKeys M - 1) M (some k) (headOr K₂ hi) y)
    (hshort : x.keyCount < minKeys M) (hlend : minKeys M < y.keyCount) :
    ∃ p', borrowForLeaf ⟨K₁ ++ k :: K₂, C₁ ++ x :: y :: C₂, L⟩ j (j + 1) false = some p' ∧
      Repaired M 0 lo hi ⟨K₁ ++ k :: K₂, C₁ ++ x :: y :: C₂, L⟩ p' := by
  obtain ⟨a, es, rfl, -, -, hx1, hx2⟩ := hx.leaf_cases
  obtain ⟨b, fs, rfl, -, -, hy1, hy2⟩ := hy.leaf_cases
  simp only [keyCount_leaf] at hlend hshort
  unfold minKeys at hlend hshort hx1 hy1
  obtain _ | ⟨f, _ | ⟨f', rest⟩⟩ := fs
  · simp at hlend
  · simp at hlend; omega
  obtain ⟨hs, hr⟩ := leaves_glue (by omega) (by unfold minKeys; omega)
    (by unfold minKeys; omega) hx hy
  simp only [List.length_cons] at hlend hy1 hy2
  simp only [borrowForLeaf, child_mid hC hx.ne_null, child_mid_one hC hy.ne_null, Parent.key,
    getElem?_mid hK, set_mid hK, set_mid hC, set_mid_one hC, Bool.false_eq_true, if_false]
  rw [show es ++ f :: f' :: rest = (es ++ [f]) ++ f' :: rest by simp] at hs hr
  obtain ⟨hw1, hw2⟩ := leaves_cut (M := M) (a := a) (b := b) hs hr
    (by simp [minKeys]; omega) (by unfold minKeys; omega)
  exact ⟨_, rfl, repaired_pair hK hC hL hR hw1 hw2 (by simp) (by simp)⟩

theorem borrowForInternal_left (hK : K₁.length = j) (hC : C₁.length = j)
    (hL : SepLeft (WF M (h + 1) (minKeys M) M) lo K₁ C₁)
    (hR : SepRight (WF M (h + 1) (minKeys M) M) K₂ C₂ hi)
    (hx : WF M (h + 1) (minKeys M - 1) M (lastOr lo K₁) (some k) x)
    (hy : WF M (h + 1) (minKeys M - 1) M (some k) (headOr K₂ hi) y)
    (hlend : minKeys M < x.keyCount) (hshort : y.keyCount < minKeys M) :
    ∃ p', borrowForInternal ⟨K₁ ++ k :: K₂, C₁ ++ x :: y :: C₂, L⟩ j (j + 1) true = some p' ∧
      Repaired M (h + 1) lo hi ⟨K₁ ++ k :: K₂, C₁ ++ x :: y :: C₂, L⟩ p' := by
  obtain ⟨lks, lcs, rfl, hlc, hx1, hx2⟩ := hx.internal_cases
  obtain ⟨rks, rcs, rfl, hrc, hy1, hy2⟩ := hy.internal_cases
  simp only [keyCount_internal] at hlend hshort
  have hlen := sepChain_length hlc
  rcases List.eq_nil_or_concat' lks with rfl | ⟨lks', s, rfl⟩
  · simp at hlend
  rcases List.eq_nil_or_concat' lcs with rfl | ⟨lcs', c, rfl⟩
  · simp at hlen
  simp only [List.length_append, List.length_singleton] at hlend hx1 hx2 hlen
  simp only [borrowForInternal, child_mid hC hx.ne_null, child_mid_one hC hy.ne_null,
    Parent.key, getElem?_mid hK, set_mid hK, set_mid hC, set_mid_one hC, if_true,
    List.getLast?_concat, List.dropLast_concat]
  -- glue at `k`, cut at the last separator of the left node
  have hg := internals_glue hlc hrc
  rw [show (lks' ++ [s]) ++ k :: rks = lks' ++ s :: k :: rks by simp,
    show (lcs' ++ [c]) ++ rcs = lcs' ++ c :: rcs by simp] at hg
  obtain ⟨hg1, hg2⟩ := (sepChain_append (by omega)).mp hg
  exact ⟨_, rfl, repaired_pair hK hC hL hR ⟨hg1, by omega, by omega⟩
    ⟨hg2, by simp; omega, by simp; omega⟩ (by simp) (by simp)⟩

theorem borrowForInternal_right (hK : K₁.length = j) (hC : C₁.length = j)
    (hL : SepLeft (WF M (h + 1) (minKeys M) M) lo K₁ C₁)
    (hR : SepRight (WF M (h + 1) (minKeys M) M) K₂ C₂ hi)
    (hx : WF M (h + 1) (minKeys M - 1) M (lastOr lo K₁) (some k) x)
    (hy : WF M (h + 1) (minKeys M - 1) M (some k) (headOr K₂ hi) y)
    (hshort : x.keyCount < minKeys M) (hlend : minKeys M < y.keyCount) :
    ∃ p', borrowForInternal ⟨K₁ ++ k :: K₂, C₁ ++ x :: y :: C₂, L⟩ j (j + 1) false = some p' ∧
      Repaired M (h + 1) lo hi ⟨K₁ ++ k :: K₂, C₁ ++ x :: y :: C₂, L⟩ p' := by
  obtain ⟨lks, lcs, rfl, hlc, hx1, hx2⟩ := hx.internal_cases
  obtain ⟨rks, rcs, rfl, hrc, hy1, hy2⟩ := hy.internal_cases
  simp only [keyCount_internal] at hlend hshort
  have hlen := sepChain_length hrc
  obtain _ | ⟨s, rks⟩ := rks
  · simp at hlend
  obtain _ | ⟨c, rcs⟩ := rcs
  · simp at hlen
  simp only [List.length_cons] at hlend hy1 hy2
  simp only [borrowForInternal, child_mid hC hx.ne_null, child_mid_one hC hy.ne_null,
    Parent.key, getElem?_mid hK, set_mid hK, set_mid hC, set_mid_one hC, Bool.false_eq_true,
    if_false]
  have hg := internals_glue hlc hrc
  rw [show lks ++ k :: s :: rks = (lks ++ [k]) ++ s :: rks by simp,
    show lcs ++ c :: rcs = (lcs ++ [c]) ++ rcs by simp] at hg
  obtain ⟨hg1, hg2⟩ := (sepChain_append (by simpa using sepChain_length hlc)).mp hg
  exact ⟨_, rfl, repaired_pair hK hC hL hR ⟨hg1, by simp; omega, by simp; omega⟩
    ⟨hg2, by omega, by omega⟩ (by simp) (by simp)⟩

/-- Borrowing repairs the pair, whichever neighbour lends. -/
theorem borrowFor_spec (fromLeft : Bool) (hM : 6 ≤ M) (hK : K₁.length = j) (hC : C₁.length = j)
    (hL : SepLeft (WF M h (minKeys M) M) lo K₁ C₁)
    (hR : SepRight (WF M h (minKeys M) M) K₂ C₂ hi)
    (hx : WF M h (minKeys M - 1) M (lastOr lo K₁) (some k) x)
    (hy : WF M h (minKeys M - 1) M (some k) (headOr K₂ hi) y)
    (hlend : if fromLeft then minKeys M < x.keyCount ∧ y.keyCount < minKeys M
      else x.keyCount < minKeys M ∧ minKeys M < y.keyCount) :
    ∃ p', borrowFor (decide (h = 0)) ⟨K₁ ++ k :: K₂, C₁ ++ x :: y :: C₂, L⟩ j (j + 1) fromLeft
        = some p' ∧
      Repaired M h lo hi ⟨K₁ ++ k :: K₂, C₁ ++ x :: y :: C₂, L⟩ p' := by
  unfold borrowFor
  cases h <;> cases fromLeft <;> simp only [if_true, if_false, Bool.false_eq_true] at hlend
  · exact borrowForLeaf_right hM hK hC hL hR hx hy hlend.1 hlend.2
  · exact borrowForLeaf_left hM hK hC hL hR hx hy hlend.1 hlend.2
  · exact borrowForInternal_right hK hC hL hR hx hy hlend.1 hlend.2
  · exact borrowForInternal_left hK hC hL hR hx hy hlend.1 hlend.2

/-! ## §3. Merging two children. -/

theorem mergePair_spec (hM : 6 ≤ M) (hK : K₁.length = j) (hC : C₁.length = j)
    (hL : SepLeft (WF M h (minKeys M) M) lo K₁ C₁)
    (hR : SepRight (WF M h (minKeys M) M) K₂ C₂ hi)
    (hx : WF M h (minKeys M - 1) M (lastOr lo K₁) (some k) x)
    (hy : WF M h (minKeys M - 1) M (some k) (headOr K₂ hi) y)
    (hfit : x.keyCount + y.keyCount < M) :
    ∃ p', mergePair (decide (h = 0)) ⟨K₁ ++ k :: K₂, C₁ ++ x :: y :: C₂, L⟩ j (j + 1)
        = some p' ∧
      Repaired M h lo hi ⟨K₁ ++ k :: K₂, C₁ ++ x :: y :: C₂, L⟩ p' := by
  have hmin : minKeys M ≤ (minKeys M - 1) + (minKeys M - 1) := by unfold minKeys; omega
  have hxc := hx.keyCount.1
  have hyc := hy.keyCount.1
  unfold mergePair
  cases h with
  | zero =>
      obtain ⟨a, es, rfl, -⟩ := hx.leaf_cases
      obtain ⟨b, fs, rfl, -⟩ := hy.leaf_cases
      simp only [keyCount_leaf] at hfit hxc hyc
      obtain ⟨hs, hr⟩ := leaves_glue (by omega) (by unfold minKeys; omega)
        (by unfold minKeys; omega) hx hy
      simp only [decide_true, if_true, mergeLeaves, child_mid hC hx.ne_null,
        child_mid_one hC hy.ne_null, Parent.key, getElem?_mid hK, eraseIdx_mid hK, set_mid hC,
        eraseIdx_mid_one hC]
      refine ⟨_, rfl, repaired_merge hK hC hL hR ⟨hs, hr, ?_⟩ (by simp) ?_⟩
      · simp only [List.length_append]; omega
      · intro A B hl
        simpa using Links.Linked.unlinkNext (A := A) (by simpa using hl)
  | succ h =>
      obtain ⟨lks, lcs, rfl, hlc, -⟩ := hx.internal_cases
      obtain ⟨rks, rcs, rfl, hrc, -⟩ := hy.internal_cases
      simp only [keyCount_internal] at hfit hxc hyc
      simp only [Nat.add_eq_zero_iff, Nat.one_ne_zero, and_false, decide_false,
        Bool.false_eq_true, if_false, mergeInternal, child_mid hC hx.ne_null,
        child_mid_one hC hy.ne_null, Parent.key, getElem?_mid hK, eraseIdx_mid hK, set_mid hC,
        eraseIdx_mid_one hC]
      refine ⟨_, rfl, repaired_merge hK hC hL hR ⟨internals_glue hlc hrc, ?_⟩ (by simp)
        (fun A B hl => by simpa using hl)⟩
      simp only [List.length_append, List.length_cons]; omega

/-! ## §4. Three children become two. -/

theorem tryThreeToTwoLeaf_spec (hM : 6 ≤ M) (hK : K₁.length = j) (hC : C₁.length = j)
    (hL : SepLeft (WF M 0 (minKeys M) M) lo K₁ C₁)
    (hR : SepRight (WF M 0 (minKeys M) M) K₂ C₂ hi)
    (hx : WF M 0 (minKeys M - 1) M (lastOr lo K₁) (some k) x)
    (hy : WF M 0 (minKeys M - 1) M (some k) (some k') y)
    (hz : WF M 0 (minKeys M - 1) M (some k') (headOr K₂ hi) z)
    (hmany : minKeys M * 2 ≤ x.keyCount + y.keyCount + z.keyCount)
    (hfit : x.keyCount + y.keyCount + z.keyCount < 2 * M) :
    ∃ p', tryThreeToTwoLeaf M ⟨K₁ ++ k :: k' :: K₂, C₁ ++ x :: y :: z :: C₂, L⟩ j
        = some (true, p') ∧
      Repaired M 0 lo hi ⟨K₁ ++ k :: k' :: K₂, C₁ ++ x :: y :: z :: C₂, L⟩ p' := by
  obtain ⟨a, es, rfl, -⟩ := hx.leaf_cases
  obtain ⟨b, fs, rfl, -⟩ := hy.leaf_cases
  obtain ⟨c, gs, rfl, -⟩ := hz.leaf_cases
  have hpos : 1 ≤ minKeys M - 1 := by unfold minKeys; omega
  have hzb : Before (some k') (headOr K₂ hi) :=
    hz.before (by omega) (fun _ => Nat.le_trans hpos hz.keyCount.1)
  have hyb : Before (some k) (some k') :=
    hy.before (by omega) (fun _ => Nat.le_trans hpos hy.keyCount.1)
  have hxb : Before (lastOr lo K₁) (some k) :=
    hx.before (by omega) (fun _ => Nat.le_trans hpos hx.keyCount.1)
  have hs : SortedIn (lastOr lo K₁) (headOr K₂ hi) (es ++ fs ++ gs) :=
    (hx.1.glue hy.1 hxb hyb).glue hz.1 (before_trans hxb hyb) hzb
  have hr : RowsOk (es ++ fs ++ gs) :=
    rowsOk_append.mpr ⟨rowsOk_append.mpr ⟨hx.2.1, hy.2.1⟩, hz.2.1⟩
  simp only [keyCount_leaf] at hmany hfit
  have hlen : (es ++ fs ++ gs).length = es.length + fs.length + gs.length := by
    simp [Nat.add_assoc]
  unfold tryThreeToTwoLeaf
  rw [if_neg (by simp; omega)]
  simp only [child_mid hC hx.ne_null, child_mid_one hC hy.ne_null, child_mid_two hC hz.ne_null]
  generalize hall : es ++ fs ++ gs = all at hs hr hlen ⊢
  rw [if_neg (by omega), if_neg (by omega), if_neg (by omega)]
  have hparts := List.take_append_drop (all.length / 2) all
  have htake : (all.take (all.length / 2)).length = all.length / 2 := by simp; omega
  have hdrop : (all.drop (all.length / 2)).length = all.length - all.length / 2 := by simp
  rcases hd : all.drop (all.length / 2) with _ | ⟨e, rest⟩
  · rw [hd] at hdrop; simp at hdrop; omega
  rw [hd] at hparts hdrop
  simp only [List.length_cons] at hdrop
  rw [← hparts] at hs hr
  obtain ⟨hw1, hw2⟩ := leaves_cut (M := M) (a := a) (b := b) hs hr (by omega) (by omega)
  simp only [Parent.key, getElem?_mid hK, getElem?_mid_one hK, set_mid hK, eraseIdx_mid_one hK,
    set_mid hC, set_mid_one hC, eraseIdx_mid_two hC]
  refine ⟨_, rfl, repaired_triple hK hC hL hR hw1 hw2 ?_ ?_⟩
  · simpa [← hall] using hparts
  · intro A B hl
    -- the third leaf is unlinked; re-pointing the first two is then a no-op
    have hl' : L.Linked ((A ++ [a]) ++ b :: c :: B) := by simpa using hl
    have hl2 := hl'.unlinkNext
    have hl3 : ((L.setNext b (L.next c)).setPrevOf
        ((L.setNext b (L.next c)).next b) (some b)).Linked (A ++ a :: b :: B) := by
      simpa using hl2
    simpa using hl3.relink

theorem tryThreeToTwoInternal_spec (hK : K₁.length = j) (hC : C₁.length = j)
    (hL : SepLeft (WF M (h + 1) (minKeys M) M) lo K₁ C₁)
    (hR : SepRight (WF M (h + 1) (minKeys M) M) K₂ C₂ hi)
    (hx : WF M (h + 1) (minKeys M - 1) M (lastOr lo K₁) (some k) x)
    (hy : WF M (h + 1) (minKeys M - 1) M (some k) (some k') y)
    (hz : WF M (h + 1) (minKeys M - 1) M (some k') (headOr K₂ hi) z)
    (hmany : minKeys M * 2 ≤ x.keyCount + y.keyCount + z.keyCount)
    (hfit : x.keyCount + y.keyCount + z.keyCount < 2 * M) :
    ∃ p', tryThreeToTwoInternal M ⟨K₁ ++ k :: k' :: K₂, C₁ ++ x :: y :: z :: C₂, L⟩ j
        = some (true, p') ∧
      Repaired M (h + 1) lo hi ⟨K₁ ++ k :: k' :: K₂, C₁ ++ x :: y :: z :: C₂, L⟩ p' := by
  obtain ⟨lks, lcs, rfl, hlc, -⟩ := hx.internal_cases
  obtain ⟨mks, mcs, rfl, hmc, -⟩ := hy.internal_cases
  obtain ⟨rks, rcs, rfl, hrc, -⟩ := hz.internal_cases
  have hg := internals_glue hlc (internals_glue hmc hrc)
  simp only [keyCount_internal] at hmany hfit
  have hlen : (lks ++ k :: (mks ++ k' :: rks)).length
      = lks.length + mks.length + rks.length + 2 := by simp; omega
  have hclen := sepChain_length hg
  unfold tryThreeToTwoInternal
  rw [if_neg (by simp; omega)]
  simp only [child_mid hC hx.ne_null, child_mid_one hC hy.ne_null, child_mid_two hC hz.ne_null,
    Parent.key, getElem?_mid hK, getElem?_mid_one hK]
  rw [← List.append_assoc] at hg hclen
  generalize hallK : lks ++ k :: (mks ++ k' :: rks) = allK at hg hlen hclen ⊢
  generalize hallC : lcs ++ mcs ++ rcs = allC at hg hclen ⊢
  rw [if_neg (by omega), if_neg (by omega), if_neg (by omega), if_neg (by omega)]
  have hmid : allK.length / 2 < allK.length := by omega
  obtain ⟨hw1, hw2⟩ := hg.cut_at (List.getElem?_eq_getElem hmid)
  have htake : (allC.drop (allK.length / 2 + 1)).take (allK.length - allK.length / 2 - 1 + 1)
      = allC.drop (allK.length / 2 + 1) := List.take_of_length_le (by simp; omega)
  simp only [List.getElem?_eq_getElem hmid, htake, set_mid hK, eraseIdx_mid_one hK, set_mid hC,
    set_mid_one hC, eraseIdx_mid_two hC]
  have hparts : allC.take (allK.length / 2 + 1) ++ allC.drop (allK.length / 2 + 1)
      = lcs ++ (mcs ++ rcs) := by
    rw [List.take_append_drop, ← hallC, List.append_assoc]
  refine ⟨_, rfl, repaired_triple hK hC hL hR ⟨hw1, ?_⟩ ⟨hw2, ?_⟩ ?_ ?_⟩
  · simp only [List.length_take]; omega
  · simp only [List.length_drop]; omega
  · have hent := congrArg entriesOf hparts
    simp only [entriesOf_append] at hent
    simpa using hent
  · intro A B hl
    have haddrs := congrArg (fun l => A ++ (addrsOf l ++ B)) hparts
    simp only [addrsOf_append, List.append_assoc] at haddrs
    simpa [haddrs] using hl

/-- A triple that is neither too small nor too large is always rebuilt. -/
theorem tryThreeToTwo_spec (hM : 6 ≤ M) (hK : K₁.length = j) (hC : C₁.length = j)
    (hL : SepLeft (WF M h (minKeys M) M) lo K₁ C₁)
    (hR : SepRight (WF M h (minKeys M) M) K₂ C₂ hi)
    (hx : WF M h (minKeys M - 1) M (lastOr lo K₁) (some k) x)
    (hy : WF M h (minKeys M - 1) M (some k) (some k') y)
    (hz : WF M h (minKeys M - 1) M (some k') (headOr K₂ hi) z)
    (hmany : minKeys M * 2 ≤ x.keyCount + y.keyCount + z.keyCount)
    (hfit : x.keyCount + y.keyCount + z.keyCount < 2 * M) :
    ∃ p', tryThreeToTwo M (decide (h = 0))
        ⟨K₁ ++ k :: k' :: K₂, C₁ ++ x :: y :: z :: C₂, L⟩ j = some (true, p') ∧
      Repaired M h lo hi ⟨K₁ ++ k :: k' :: K₂, C₁ ++ x :: y :: z :: C₂, L⟩ p' := by
  unfold tryThreeToTwo
  cases h with
  | zero => exact tryThreeToTwoLeaf_spec hM hK hC hL hR hx hy hz hmany hfit
  | succ h => exact tryThreeToTwoInternal_spec hK hC hL hR hx hy hz hmany hfit

end Windows

/-! ## §5. `FixChildUnderflow`. -/

section Fix

variable {M h : Nat} {lo hi : Option κ} {K₁ K₂ : List κ} {C₁ C₂ : List (Node κ ρ)}
  {c : Node κ ρ} {L : Links}

theorem SepLeft.last {P : Option κ → Option κ → Node κ ρ → Prop} {K : List κ}
    {C : List (Node κ ρ)} (h : SepLeft P lo K C) (hne : C ≠ []) :
    ∃ K' k C' x, K = K' ++ [k] ∧ C = C' ++ [x] ∧ C'.length = K'.length ∧ SepLeft P lo K' C' ∧
      P (lastOr lo K') (some k) x := by
  have hlen := sepLeft_length h
  rcases List.eq_nil_or_concat' C with rfl | ⟨C', x, rfl⟩
  · exact absurd rfl hne
  rcases List.eq_nil_or_concat' K with rfl | ⟨K', k, rfl⟩
  · simp at hlen
  rw [sepLeft_concat] at h
  exact ⟨K', k, C', x, rfl, rfl, by simpa using hlen, h.1, h.2⟩

/-- A canonical node may as well be one key short. -/
theorem WF.weaken {n : Node κ ρ} (hw : WF M h (minKeys M) M lo hi n) :
    WF M h (minKeys M - 1) M lo hi n :=
  hw.mono (Nat.le_trans (Nat.sub_le _ _) hw.keyCount.1) hw.keyCount.2

/-- No neighbour can lend: with three children one 3-to-2 attempt applies,
with two children the merge does. -/
theorem fixByMerging_spec (hM : 6 ≤ M) (heven : M % 2 = 0) (hlen : C₁.length = K₁.length)
    (hL : SepLeft (WF M h (minKeys M) M) lo K₁ C₁)
    (hc : WF M h (minKeys M - 1) M (lastOr lo K₁) (headOr K₂ hi) c)
    (hR : SepRight (WF M h (minKeys M) M) K₂ C₂ hi) (hshort : c.keyCount < minKeys M)
    (hleft : ∀ x ∈ C₁.getLast?, x.keyCount ≤ minKeys M)
    (hright : ∀ x ∈ C₂.head?, x.keyCount ≤ minKeys M) (htwo : 2 ≤ (C₁ ++ c :: C₂).length) :
    ∃ p', fixByMerging M (decide (h = 0)) ⟨K₁ ++ K₂, C₁ ++ c :: C₂, L⟩ C₁.length = some p' ∧
      Repaired M h lo hi ⟨K₁ ++ K₂, C₁ ++ c :: C₂, L⟩ p' := by
  have hmin : minKeys M * 2 = M := by unfold minKeys; omega
  have hcc := hc.keyCount
  unfold fixByMerging tryThreeToTwoAround
  rcases List.eq_nil_or_concat' C₁ with rfl | ⟨C₁', x, rfl⟩
  · obtain rfl : K₁ = [] := List.length_eq_zero_iff.mp (by simpa using hlen.symm)
    obtain _ | ⟨y, C₂⟩ := C₂
    · simp at htwo
    obtain _ | ⟨k, K₂⟩ := K₂
    · exact hR.elim
    have hyc := hright y rfl
    obtain _ | ⟨z, C₂⟩ := C₂
    · -- the first of two children
      obtain rfl : K₂ = [] := List.length_eq_zero_iff.mp (by
        simpa using (sepRight_length hR.2).symm)
      have hy := hR.1.weaken
      simpa using mergePair_spec (L := L) hM rfl rfl hL (sepRight_nil hi) hc hy (by omega)
    · -- the first of at least three
      obtain _ | ⟨k', K₂⟩ := K₂
      · exact hR.2.elim
      obtain ⟨p', hp', hrep⟩ := tryThreeToTwo_spec (L := L) hM rfl rfl hL hR.2.2 hc
        hR.1.weaken hR.2.1.weaken
        (by have := hR.2.1.keyCount; have := hR.1.keyCount; omega)
        (by have := hR.2.1.keyCount; omega)
      refine ⟨p', ?_, hrep⟩
      have h3 : ¬ C₂.length + 1 + 1 + 1 < 3 := by omega
      simp only [List.nil_append, List.length_nil] at hp' ⊢
      simp [orTry, hp', h3]
  · obtain ⟨K₁, k, C', x', rfl, hCx, hlen', hL', hx⟩ := SepLeft.last hL (by simp)
    obtain ⟨rfl, hxx⟩ := List.append_inj' hCx rfl
    obtain rfl : x = x' := by simpa using hxx
    have hxc := hleft x (by simp)
    have hx1 := hx.keyCount.1
    rw [lastOr_concat] at hc
    obtain _ | ⟨y, C₂⟩ := C₂
    · obtain rfl : K₂ = [] := List.length_eq_zero_iff.mp (by
        simpa using (sepRight_length hR).symm)
      rcases List.eq_nil_or_concat' C₁' with rfl | ⟨C₁, w, rfl⟩
      · -- the second of two children
        obtain rfl : K₁ = [] := List.length_eq_zero_iff.mp (by simpa using hlen'.symm)
        simpa using mergePair_spec (L := L) hM rfl rfl hL' (sepRight_nil hi) hx.weaken hc
          (by omega)
      · -- the last of at least three
        obtain ⟨K, k₀, C', w', rfl, hCw, hlen'', hL'', hw⟩ := SepLeft.last hL' (by simp)
        obtain ⟨rfl, hww⟩ := List.append_inj' hCw rfl
        obtain rfl : w = w' := by simpa using hww
        rw [lastOr_concat] at hx
        obtain ⟨p', hp', hrep⟩ := tryThreeToTwo_spec (L := L) hM hlen''.symm rfl hL''
          (sepRight_nil hi) hw.weaken hx.weaken hc
          (by have := hw.keyCount; omega) (by have := hw.keyCount; omega)
        refine ⟨p', ?_, by simpa using hrep⟩
        have h3 : ¬ C₁.length + 3 < 3 := by omega
        simp [orTry, hp', h3]
    · -- neighbours on both sides
      obtain _ | ⟨k', K₂⟩ := K₂
      · exact hR.elim
      have hyc := hright y rfl
      have hy1 := hR.1.keyCount.1
      obtain ⟨p', hp', hrep⟩ := tryThreeToTwo_spec (L := L) hM hlen'.symm rfl hL' hR.2
        hx.weaken hc hR.1.weaken (by omega) (by omega)
      refine ⟨p', ?_, by simpa using hrep⟩
      have h3 : ¬ C₁'.length + (C₂.length + 1 + 1 + 1) < 3 := by omega
      have h4 : C₁'.length + 1 + 1 < C₁'.length + (C₂.length + 1 + 1 + 1) := by omega
      simp [orTry, hp', h3, h4]

/-- The first question of `FixChildUnderflow`: can the left neighbour lend? -/
theorem leftLends_eq (hL : SepLeft (WF M h (minKeys M) M) lo K₁ C₁) :
    leftLends M ⟨K₁ ++ K₂, C₁ ++ c :: C₂, L⟩ C₁.length
      = some (C₁.getLast?.any fun s => decide (minKeys M < s.keyCount)) := by
  rcases List.eq_nil_or_concat' C₁ with rfl | ⟨C₁', x, rfl⟩
  · rfl
  · obtain ⟨K', k, C', x', rfl, hCx, -, -, hx⟩ := SepLeft.last hL (by simp)
    obtain ⟨rfl, hxx⟩ := List.append_inj' hCx rfl
    obtain rfl : x = x' := by simpa using hxx
    have hchild : (Parent.mk (K' ++ k :: K₂) (C₁' ++ x :: c :: C₂) L).child C₁'.length = some x :=
      child_mid rfl hx.ne_null
    simp [leftLends, hchild]

/-- The second question: can the right neighbour? -/
theorem rightLends_eq (hR : SepRight (WF M h (minKeys M) M) K₂ C₂ hi) :
    rightLends M ⟨K₁ ++ K₂, C₁ ++ c :: C₂, L⟩ C₁.length
      = some (C₂.head?.any fun s => decide (minKeys M < s.keyCount)) := by
  obtain _ | ⟨y, C₂⟩ := C₂
  · simp [rightLends]
  · obtain _ | ⟨k, K₂⟩ := K₂
    · exact hR.elim
    rw [rightLends, child_mid_one rfl hR.1.ne_null]
    simp

/-- **An underfull child is always repaired.** -/
theorem fixChildUnderflow_spec (hM : 6 ≤ M) (heven : M % 2 = 0) (hlen : C₁.length = K₁.length)
    (hL : SepLeft (WF M h (minKeys M) M) lo K₁ C₁)
    (hc : WF M h (minKeys M - 1) M (lastOr lo K₁) (headOr K₂ hi) c)
    (hR : SepRight (WF M h (minKeys M) M) K₂ C₂ hi) (htwo : 2 ≤ (C₁ ++ c :: C₂).length) :
    ∃ p', fixChildUnderflow M ⟨K₁ ++ K₂, C₁ ++ c :: C₂, L⟩ C₁.length = some p' ∧
      Repaired M h lo hi ⟨K₁ ++ K₂, C₁ ++ c :: C₂, L⟩ p' := by
  unfold fixChildUnderflow
  simp only [child_mid rfl hc.ne_null, Option.bind_eq_bind, Option.bind_some]
  by_cases hfull : minKeys M ≤ c.keyCount
  · rw [if_pos (Or.inl hfull)]
    refine ⟨_, rfl, ?_, rfl, fun _ _ h => h, by simp, by simp⟩
    exact (sepChain_focus hlen).mpr ⟨hL, hc.mono hfull hc.keyCount.2, hR⟩
  simp only [leftLends_eq hL, rightLends_eq hR, hc.isLeaf, Option.bind_some]
  rw [if_neg (by omega)]
  by_cases hleft : C₁.getLast?.any (fun s => decide (minKeys M < s.keyCount)) = true
  · -- borrow from the left neighbour
    rw [if_pos hleft]
    obtain ⟨K', k, C', x, rfl, rfl, hlen', hL', hx⟩ := SepLeft.last hL (by
      rintro rfl
      simp at hleft)
    rw [lastOr_concat] at hc
    obtain ⟨p', hp', hrep⟩ := borrowFor_spec (L := L) true hM hlen'.symm rfl hL'
      hR hx.weaken hc ⟨by simpa using hleft, by omega⟩
    exact ⟨p', by simpa using hp', by simpa using hrep⟩
  rw [if_neg hleft]
  by_cases hright : C₂.head?.any (fun s => decide (minKeys M < s.keyCount)) = true
  · -- borrow from the right neighbour
    rw [if_pos hright]
    obtain _ | ⟨y, C₂⟩ := C₂
    · simp at hright
    obtain _ | ⟨k, K₂⟩ := K₂
    · exact hR.elim
    exact borrowFor_spec false hM hlen.symm rfl hL hR.2 hc hR.1.weaken
      ⟨by omega, by simpa using hright⟩
  · rw [if_neg hright]
    refine fixByMerging_spec hM heven hlen hL hc hR (by omega) ?_ ?_ htwo
    · intro x hx
      rw [Option.mem_def] at hx
      simpa [hx] using hleft
    · intro x hx
      rw [Option.mem_def] at hx
      simpa [hx] using hright

end Fix

/-! ## §6. The recursion. -/

/-- What `RemoveRecursive` returns for `n`. -/
structure Removed (M h l : Nat) (lo hi : Option κ) (key : κ) (r : ρ) (n : Node κ ρ) (L : Links)
    (res : Bool × Node κ ρ × Links) : Prop where
  wf : WF M h (l - 1) M lo hi res.2.1
  entries : res.2.1.entries = removeEntry key r n.entries
  linked : ∀ A B, L.Linked (A ++ n.addrs ++ B) → res.2.2.Linked (A ++ res.2.1.addrs ++ B)
  unchanged : res.1 = false → WF M h l M lo hi res.2.1

/-- **`RemoveRecursive` meets its contract at every height.** -/
theorem removeRecursive_spec {M : Nat} (hM : 6 ≤ M) (heven : M % 2 = 0) {key : κ} {r : ρ} :
    ∀ {h l : Nat} {lo hi : Option κ} {n : Node κ ρ} {L : Links}, WF M h l M lo hi n →
      (1 ≤ h → 1 ≤ l) → Above lo key → Below hi key →
      ∃ res, removeRecursive M key r (h + 1) n L = some res ∧ Removed M h l lo hi key r n L res
  | 0, l, lo, hi, n, L, hw, hl, hlo, hhi => by
      obtain ⟨a, es, rfl, hs, hr, h1, h2⟩ := hw.leaf_cases
      obtain ⟨heq, hsame, hlen1, hlen2⟩ := removeFromLeaf_spec (a := a) hs hr key r
      refine ⟨_, rfl, ?_⟩
      simp only [heq]
      refine ⟨⟨sortedIn_removeEntry hs, rowsOk_removeEntry hr, by omega, by omega⟩, by simp,
        fun A B h => by simpa using h, fun hf => ?_⟩
      simp only [hsame hf]
      exact hw
  | h + 1, l, lo, hi, n, L, hw, hl, hlo, hhi => by
      obtain ⟨ks, cs, rfl, hc, h1, h2⟩ := hw.internal_cases
      obtain ⟨K₁, K₂, C₁, c, C₂, rfl, rfl, hK, hC, hL, hcw, hR, hlo', hhi', hb, ha⟩ :=
        childrenWF_route (by omega) hc hlo hhi
      have hmin : 1 ≤ minKeys M := minKeys_pos (by omega)
      have hl := hl (by omega)
      obtain ⟨⟨removed, c', L'⟩, hres, hrem⟩ := removeRecursive_spec hM heven (r := r) (L := L)
        hcw (fun _ => hmin) hlo' hhi'
      have hent : entriesOf (C₁ ++ c' :: C₂)
          = removeEntry key r (Node.internal (K₁ ++ K₂) (C₁ ++ c :: C₂)).entries := by
        simp only [entries_internal, entriesOf_append, entriesOf_cons, hrem.entries]
        rw [removeEntry_append_left hb, removeEntry_append_right ha]
      have hlink : ∀ A B,
          L.Linked (A ++ (Node.internal (K₁ ++ K₂) (C₁ ++ c :: C₂)).addrs ++ B) →
          L'.Linked (A ++ addrsOf (C₁ ++ c' :: C₂) ++ B) := by
        intro A B hl
        simpa using hrem.linked (A ++ addrsOf C₁) (addrsOf C₂ ++ B) (by simpa using hl)
      rw [removeRecursive, child_mid hC hcw.ne_null]
      simp only [Option.bind_eq_bind, Option.bind_some, hres, set_mid hC]
      cases removed with
      | false =>
          have hw' : WF M (h + 1) l M lo hi (.internal (K₁ ++ K₂) (C₁ ++ c' :: C₂)) :=
            ⟨(sepChain_focus (hC.trans hK.symm)).mpr ⟨hL, hrem.unchanged rfl, hR⟩, h1, h2⟩
          exact ⟨_, rfl, hw'.mono (by simp at h1 ⊢; omega) h2, by simpa using hent,
            fun A B hl => by simpa using hlink A B hl, fun _ => hw'⟩
      | true =>
          have htwo : 2 ≤ (C₁ ++ c' :: C₂).length := by
            have := sepChain_length hc
            simp only [List.length_append, List.length_cons] at this h1 ⊢
            omega
          obtain ⟨p', hp', hrep⟩ := fixChildUnderflow_spec (L := L') hM heven
            (hC.trans hK.symm) hL hrem.wf hR htwo
          rw [← hC, hp']
          have h3 := hrep.shrinks
          have h4 := hrep.loses
          refine ⟨_, rfl, ⟨hrep.chain, by simp only at h4; omega, Nat.le_trans h3 h2⟩, ?_, ?_,
            by simp⟩
          · simpa [hrep.entries] using hent
          · intro A B hl
            simpa using hrep.linked A B (hlink A B hl)

end CustomDbms.Index
