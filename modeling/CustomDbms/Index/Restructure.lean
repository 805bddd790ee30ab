/-
  CustomDbms.Index.Restructure
  ────────────────────────────
  **THE ATTEMPTS BEFORE AN INSERTION** — redistribution to a neighbour and the
  2-to-3 split, for leaves and for internal nodes.

  `Kept p p'` is what each of them owes the parent: the children of `p'` are
  again canonical within the same bounds, hold the same entries in the same
  order, the leaf chain runs along them, and the parent has not shrunk.
  `Attempt p r` adds that the attempt is defined and that declining changes
  nothing.  All six are instances of two moves: glue adjacent nodes at their
  separator, cut the result elsewhere.
-/
import CustomDbms.Index.Invariant

namespace CustomDbms.Index

open CustomDbms.Lib

set_option linter.unusedSectionVars false

variable {κ ρ : Type} [LinearOrder κ] [DecidableEq ρ]

/-! ## §1. The contract of an attempt. -/

/-- The restructured parent is as good as the old one. -/
structure Kept (M h : Nat) (lo hi : Option κ) (p p' : Parent κ ρ) : Prop where
  chain : ChildrenWF M h lo hi p'.keys p'.children
  entries : entriesOf p'.children = entriesOf p.children
  linked : ∀ A B, p.links.Linked (A ++ addrsOf p.children ++ B) →
    p'.links.Linked (A ++ addrsOf p'.children ++ B)
  grows : p.keys.length ≤ p'.keys.length
  bounded : p.keys.length ≤ M → p'.keys.length ≤ M

/-- An attempt is defined, keeps the parent, and changes nothing when it
declines. -/
def Attempt (M h : Nat) (lo hi : Option κ) (p : Parent κ ρ)
    (r : Option (Bool × Parent κ ρ)) : Prop :=
  ∃ b p', r = some (b, p') ∧ (b = false → p' = p) ∧ Kept M h lo hi p p'

theorem Kept.refl {M h : Nat} {lo hi : Option κ} {p : Parent κ ρ}
    (hc : ChildrenWF M h lo hi p.keys p.children) : Kept M h lo hi p p :=
  ⟨hc, rfl, fun _ _ h => h, Nat.le_refl _, fun h => h⟩

theorem attempt_decline {M h : Nat} {lo hi : Option κ} {p : Parent κ ρ}
    (hc : ChildrenWF M h lo hi p.keys p.children) : Attempt M h lo hi p (some (false, p)) :=
  ⟨false, p, rfl, fun _ => rfl, Kept.refl hc⟩

theorem attempt_done {M h : Nat} {lo hi : Option κ} {p p' : Parent κ ρ}
    (hk : Kept M h lo hi p p') : Attempt M h lo hi p (some (true, p')) :=
  ⟨true, p', rfl, by simp, hk⟩

theorem attempt_orTry {M h : Nat} {lo hi : Option κ} {p : Parent κ ρ}
    {r : Option (Bool × Parent κ ρ)} {next : Parent κ ρ → Option (Bool × Parent κ ρ)}
    (h1 : Attempt M h lo hi p r) (h2 : Attempt M h lo hi p (next p)) :
    Attempt M h lo hi p (orTry r next) := by
  obtain ⟨b, p', rfl, hd, hk⟩ := h1
  cases b with
  | false =>
      rw [hd rfl]
      exact h2
  | true => exact ⟨true, p', rfl, hd, hk⟩

/-- The child at `i` is full. -/
def FullAt (M : Nat) (cs : List (Node κ ρ)) (i : Nat) : Prop :=
  ∀ c, cs[i]? = some c → M ≤ c.keyCount

/-- Two adjacent nonempty leaves make one sorted list. -/
theorem leaves_glue {M l l' u u' : Nat} {lo hi : Option κ} {k : κ} {a b : Addr}
    {A B : List (IndexEntry κ ρ)} (hM : 1 ≤ M) (hl : 1 ≤ l) (hl' : 1 ≤ l')
    (hA : WF M 0 l u lo (some k) (.leaf a A)) (hB : WF M 0 l' u' (some k) hi (.leaf b B)) :
    SortedIn lo hi (A ++ B) ∧ RowsOk (A ++ B) := by
  have h1 : Before lo (some k) := hA.before hM (fun _ => Nat.le_trans hl hA.keyCount.1)
  have h2 : Before (some k) hi := hB.before hM (fun _ => Nat.le_trans hl' hB.keyCount.1)
  exact ⟨hA.1.glue hB.1 h1 h2, rowsOk_append.mpr ⟨hA.2.1, hB.2.1⟩⟩

/-- A sorted list cut before an entry makes two leaves. -/
theorem leaves_cut {M : Nat} {lo hi : Option κ} {a b : Addr} {e : IndexEntry κ ρ}
    {A B : List (IndexEntry κ ρ)} (hs : SortedIn lo hi (A ++ e :: B))
    (hr : RowsOk (A ++ e :: B)) (hA : minKeys M ≤ A.length ∧ A.length ≤ M)
    (hB : minKeys M ≤ B.length + 1 ∧ B.length + 1 ≤ M) :
    WF M 0 (minKeys M) M lo (some e.key) (.leaf a A) ∧
      WF M 0 (minKeys M) M (some e.key) hi (.leaf b (e :: B)) := by
  obtain ⟨h1, h2⟩ := hs.cut
  rw [rowsOk_append] at hr
  exact ⟨⟨h1, hr.1, hA⟩, ⟨h2, hr.2, by simpa using hB⟩⟩

/-! ## §2. Leaves. -/

theorem tryRedistributeLeafWithLeft_attempt {M i : Nat} {lo hi : Option κ} {ks : List κ}
    {cs : List (Node κ ρ)} {L : Links} (hM : 3 ≤ M) (hc : ChildrenWF M 0 lo hi ks cs)
    (hi' : i < cs.length) (hfull : FullAt M cs i) :
    Attempt M 0 lo hi ⟨ks, cs, L⟩ (tryRedistributeLeafWithLeft M ⟨ks, cs, L⟩ i) := by
  have hmin := minKeys_pos (M := M) (by omega)
  unfold tryRedistributeLeafWithLeft
  obtain _ | j := i
  · exact attempt_decline hc
  obtain ⟨K₁, k, K₂, C₁, x, y, C₂, rfl, rfl, hK, hC, hL, hx, hy, hR⟩ := hc.window₂ hi'
  obtain ⟨al, els, rfl, -⟩ := hx.leaf_cases
  obtain ⟨a, es, rfl, -⟩ := hy.leaf_cases
  have hes : M ≤ es.length := by simpa using hfull _ (getElem?_mid_one hC ..)
  obtain _ | ⟨e, _ | ⟨e', rest⟩⟩ := es
  · simp at hes; omega
  · simp at hes; omega
  simp only [Nat.add_one_sub_one, child_mid_one hC hy.ne_null, child_mid hC hx.ne_null,
    Parent.key, getElem?_mid hK, set_mid hK, set_mid hC, set_mid_one hC, reduceCtorEq,
    or_false, Nat.add_eq_zero_iff, Nat.one_ne_zero, and_false, if_false]
  split_ifs with hroom
  · exact attempt_decline hc
  have hx3 := hx.keyCount
  have hy3 := hy.keyCount
  simp only [keyCount_leaf, List.length_cons] at hx3 hy3 hes
  unfold minKeys at hx3 hy3
  -- glue the two leaves, cut one entry further right
  obtain ⟨hs, hr⟩ := leaves_glue (by omega) hmin hmin hx hy
  rw [show els ++ e :: e' :: rest = (els ++ [e]) ++ e' :: rest by simp] at hs hr
  obtain ⟨hl', hr'⟩ := leaves_cut (M := M) (a := al) (b := a) hs hr
    (by simp [minKeys]; omega) (by unfold minKeys; omega)
  refine attempt_done ⟨?_, by simp, ?_, by simp, by simp⟩
  · exact (sepChain_focus (hC.trans hK.symm)).mpr ⟨hL, hl', hr', hR⟩
  · intro A B h
    simpa using h

theorem tryRedistributeLeafWithRight_attempt {M i : Nat} {lo hi : Option κ} {ks : List κ}
    {cs : List (Node κ ρ)} {L : Links} (hM : 3 ≤ M) (hc : ChildrenWF M 0 lo hi ks cs)
    (hfull : FullAt M cs i) :
    Attempt M 0 lo hi ⟨ks, cs, L⟩ (tryRedistributeLeafWithRight M ⟨ks, cs, L⟩ i) := by
  have hmin := minKeys_pos (M := M) (by omega)
  unfold tryRedistributeLeafWithRight
  split_ifs with hlast
  · exact attempt_decline hc
  obtain ⟨K₁, k, K₂, C₁, x, y, C₂, rfl, rfl, hK, hC, hL, hx, hy, hR⟩ :=
    hc.window₂ (by simpa using hlast)
  obtain ⟨a, es, rfl, -⟩ := hx.leaf_cases
  obtain ⟨ar, ers, rfl, -⟩ := hy.leaf_cases
  have hes : M ≤ es.length := by simpa using hfull _ (getElem?_mid hC ..)
  rcases List.eq_nil_or_concat' es with rfl | ⟨es', e, rfl⟩
  · simp at hes; omega
  simp only [child_mid hC hx.ne_null, child_mid_one hC hy.ne_null, Parent.key,
    getElem?_mid hK, set_mid hK, set_mid hC, set_mid_one hC, List.getLast?_concat,
    List.dropLast_concat, List.append_eq_nil_iff, reduceCtorEq, and_false, or_false]
  split_ifs with hroom
  · exact attempt_decline hc
  have hx3 := hx.keyCount
  have hy3 := hy.keyCount
  simp only [keyCount_leaf, List.length_append, List.length_singleton] at hx3 hy3 hes
  unfold minKeys at hx3 hy3
  obtain ⟨hs, hr⟩ := leaves_glue (by omega) hmin hmin hx hy
  rw [show (es' ++ [e]) ++ ers = es' ++ e :: ers by simp] at hs hr
  obtain ⟨hl', hr'⟩ := leaves_cut (M := M) (a := a) (b := ar) hs hr
    (by unfold minKeys; omega) (by unfold minKeys; omega)
  refine attempt_done ⟨?_, by simp, ?_, by simp, by simp⟩
  · exact (sepChain_focus (hC.trans hK.symm)).mpr ⟨hL, hl', hr', hR⟩
  · intro A B h
    simpa using h

theorem tryTwoToThreeSplitLeafWithRight_attempt {M i : Nat} {lo hi : Option κ} {ks : List κ}
    {cs : List (Node κ ρ)} {L : Links} (hM : 3 ≤ M) (hc : ChildrenWF M 0 lo hi ks cs) :
    Attempt M 0 lo hi ⟨ks, cs, L⟩ (tryTwoToThreeSplitLeafWithRight M ⟨ks, cs, L⟩ i) := by
  have hmin := minKeys_pos (M := M) (by omega)
  unfold tryTwoToThreeSplitLeafWithRight
  split_ifs with hlast
  · exact attempt_decline hc
  simp only [not_or, not_le] at hlast
  obtain ⟨K₁, k, K₂, C₁, x, y, C₂, rfl, rfl, hK, hC, hL, hx, hy, hR⟩ := hc.window₂ hlast.1
  obtain ⟨al, els, rfl, -⟩ := hx.leaf_cases
  obtain ⟨ar, ers, rfl, -⟩ := hy.leaf_cases
  have hx3 := hx.keyCount
  have hy3 := hy.keyCount
  simp only [keyCount_leaf] at hx3 hy3
  obtain ⟨hs, hr⟩ := leaves_glue (by omega) hmin hmin hx hy
  simp only [child_mid hC hx.ne_null, child_mid_one hC hy.ne_null, Parent.key,
    getElem?_mid hK]
  split_ifs with hfew hzero
  · exact attempt_decline hc
  · exact attempt_decline hc
  simp only [not_or, not_lt] at hfew
  have hlen : (els ++ ers).length = M + M := by simp; omega
  generalize hall : els ++ ers = all at hs hr hlen hzero ⊢
  rw [hlen] at hzero ⊢
  generalize hf : (M + M) / 3 = f at hzero ⊢
  generalize hg : (M + M - f) / 2 = g at hzero ⊢
  have hparts : all = all.take f ++ ((all.drop f).take g ++ all.drop (f + g)) := by
    rw [← List.drop_drop, List.take_append_drop, List.take_append_drop]
  -- the middle and the right part begin with an entry each
  have h1 : (all.take f).length = f := by simp; omega
  have h2 : ((all.drop f).take g).length = g := by simp; omega
  have h3 : (all.drop (f + g)).length = M + M - f - g := by simp; omega
  rw [hparts] at hs hr
  rcases hm : (all.drop f).take g with _ | ⟨em, ems⟩
  · rw [hm] at h2; simp at h2; omega
  rcases hd : all.drop (f + g) with _ | ⟨er, ers'⟩
  · rw [hd] at h3; simp at h3; omega
  rw [hm] at hs hr h2
  rw [hd] at hs hr h3
  simp only [List.length_cons] at h2 h3
  simp only [List.head?_cons, set_mid hK, set_mid hC, set_mid_one hC, insertIdx_mid_one hK,
    insertIdx_mid_one hC]
  unfold minKeys at hx3 hy3
  obtain ⟨hs1, hs2⟩ := hs.cut
  rw [rowsOk_append] at hr
  obtain ⟨hw2, hw3⟩ := leaves_cut (M := M) (a := L.fresh) (b := ar) hs2 hr.2
    (by simp [minKeys]; omega) (by unfold minKeys; omega)
  refine attempt_done ⟨?_, ?_, ?_, by simp, ?_⟩
  · exact (sepChain_focus (hC.trans hK.symm)).mpr
      ⟨hL, ⟨hs1, hr.1, by unfold minKeys; omega, by omega⟩, hw2, hw3, hR⟩
  · rw [hm, hd] at hparts
    have hleaves : all.take f ++ (em :: ems ++ er :: ers') = els ++ ers := by
      rw [hall, ← hparts]
    simpa using congrArg (fun l => entriesOf C₁ ++ (l ++ entriesOf C₂)) hleaves
  · intro A B h
    simpa using Links.Linked.insertBetween (A := A ++ addrsOf C₁) (by simpa using h)
  · intro _
    simp at hlast ⊢
    omega

theorem tryTwoToThreeSplitLeafWithLeft_attempt {M i : Nat} {lo hi : Option κ} {ks : List κ}
    {cs : List (Node κ ρ)} {L : Links} (hM : 3 ≤ M) (hc : ChildrenWF M 0 lo hi ks cs) :
    Attempt M 0 lo hi ⟨ks, cs, L⟩ (tryTwoToThreeSplitLeafWithLeft M ⟨ks, cs, L⟩ i) := by
  unfold tryTwoToThreeSplitLeafWithLeft
  split_ifs
  · exact attempt_decline hc
  · exact tryTwoToThreeSplitLeafWithRight_attempt hM hc

/-! ## §3. Internal nodes. -/

/-- Two adjacent internal nodes make one chain. -/
theorem internals_glue {M h : Nat} {lo hi : Option κ} {k : κ} {lks rks : List κ}
    {lcs rcs : List (Node κ ρ)} (hl : ChildrenWF M h lo (some k) lks lcs)
    (hr : ChildrenWF M h (some k) hi rks rcs) :
    ChildrenWF M h lo hi (lks ++ k :: rks) (lcs ++ rcs) :=
  (sepChain_append (sepChain_length hl)).mpr ⟨hl, hr⟩

theorem tryRedistributeInternalWithLeft_attempt {M h i : Nat} {lo hi : Option κ} {ks : List κ}
    {cs : List (Node κ ρ)} {L : Links} (hM : 3 ≤ M) (hc : ChildrenWF M (h + 1) lo hi ks cs)
    (hi' : i < cs.length) (hfull : FullAt M cs i) :
    Attempt M (h + 1) lo hi ⟨ks, cs, L⟩ (tryRedistributeInternalWithLeft M ⟨ks, cs, L⟩ i) := by
  unfold tryRedistributeInternalWithLeft
  obtain _ | j := i
  · exact attempt_decline hc
  obtain ⟨K₁, k, K₂, C₁, x, y, C₂, rfl, rfl, hK, hC, hL, hx, hy, hR⟩ := hc.window₂ hi'
  obtain ⟨lks, lcs, rfl, hlc, hl1, hl2⟩ := hx.internal_cases
  obtain ⟨nks, ncs, rfl, hnc, hn1, hn2⟩ := hy.internal_cases
  have hnk : M ≤ nks.length := by simpa using hfull _ (getElem?_mid_one hC ..)
  have hnlen := sepChain_length hnc
  obtain _ | ⟨k', nks⟩ := nks
  · simp at hnk; omega
  obtain _ | ⟨c, ncs⟩ := ncs
  · simp at hnlen
  simp only [Nat.add_one_sub_one, child_mid_one hC hy.ne_null, child_mid hC hx.ne_null,
    Parent.key, getElem?_mid hK, set_mid hK, set_mid hC, set_mid_one hC, reduceCtorEq,
    or_false, Nat.add_eq_zero_iff, Nat.one_ne_zero, and_false, if_false]
  split_ifs with hroom
  · exact attempt_decline hc
  simp only [List.length_cons] at hnk hn1 hn2
  -- glue at `k`, cut at the first separator of the right node
  have hg := internals_glue hlc hnc
  rw [show lks ++ k :: k' :: nks = (lks ++ [k]) ++ k' :: nks by simp,
    show lcs ++ c :: ncs = (lcs ++ [c]) ++ ncs by simp] at hg
  obtain ⟨hg1, hg2⟩ := (sepChain_append (by simpa using sepChain_length hlc)).mp hg
  unfold minKeys at hl1 hn1
  refine attempt_done ⟨?_, by simp, ?_, by simp, by simp⟩
  · refine (sepChain_focus (hC.trans hK.symm)).mpr ⟨hL, ⟨hg1, ?_, ?_⟩, ⟨hg2, ?_, ?_⟩, hR⟩
    · simp [minKeys]; omega
    · simp; omega
    · unfold minKeys; omega
    · omega
  · intro A B h
    simpa using h

theorem tryRedistributeInternalWithRight_attempt {M h i : Nat} {lo hi : Option κ}
    {ks : List κ} {cs : List (Node κ ρ)} {L : Links} (hM : 3 ≤ M)
    (hc : ChildrenWF M (h + 1) lo hi ks cs) (hfull : FullAt M cs i) :
    Attempt M (h + 1) lo hi ⟨ks, cs, L⟩ (tryRedistributeInternalWithRight M ⟨ks, cs, L⟩ i) := by
  unfold tryRedistributeInternalWithRight
  split_ifs with hlast
  · exact attempt_decline hc
  obtain ⟨K₁, k, K₂, C₁, x, y, C₂, rfl, rfl, hK, hC, hL, hx, hy, hR⟩ :=
    hc.window₂ (by simpa using hlast)
  obtain ⟨nks, ncs, rfl, hnc, hn1, hn2⟩ := hx.internal_cases
  obtain ⟨rks, rcs, rfl, hrc, hr1, hr2⟩ := hy.internal_cases
  have hnk : M ≤ nks.length := by simpa using hfull _ (getElem?_mid hC ..)
  have hnlen := sepChain_length hnc
  rcases List.eq_nil_or_concat' nks with rfl | ⟨nks', k', rfl⟩
  · simp at hnk; omega
  rcases List.eq_nil_or_concat' ncs with rfl | ⟨ncs', c, rfl⟩
  · simp at hnlen
  simp only [child_mid hC hx.ne_null, child_mid_one hC hy.ne_null, Parent.key,
    getElem?_mid hK, set_mid hK, set_mid hC, set_mid_one hC, List.getLast?_concat,
    List.dropLast_concat, List.append_eq_nil_iff, reduceCtorEq, and_false, or_false]
  split_ifs with hroom
  · exact attempt_decline hc
  simp only [List.length_append, List.length_singleton] at hnk hn1 hn2 hnlen
  have hg := internals_glue hnc hrc
  rw [show (nks' ++ [k']) ++ k :: rks = nks' ++ k' :: k :: rks by simp,
    show (ncs' ++ [c]) ++ rcs = ncs' ++ c :: rcs by simp] at hg
  obtain ⟨hg1, hg2⟩ := (sepChain_append (by omega)).mp hg
  unfold minKeys at hr1 hn1
  refine attempt_done ⟨?_, by simp, ?_, by simp, by simp⟩
  · refine (sepChain_focus (hC.trans hK.symm)).mpr ⟨hL, ⟨hg1, ?_, ?_⟩, ⟨hg2, ?_, ?_⟩, hR⟩
    · unfold minKeys; omega
    · omega
    · simp [minKeys]; omega
    · simp; omega
  · intro A B h
    simpa using h

/-- The 2-to-3 split of internal nodes leaves canonical nodes only for even
orders from 6 on: the right node gets what is left after two separators. -/
theorem tryTwoToThreeSplitInternalWithRight_attempt {M h i : Nat} {lo hi : Option κ}
    {ks : List κ} {cs : List (Node κ ρ)} {L : Links} (hM : 6 ≤ M) (heven : M % 2 = 0)
    (hc : ChildrenWF M (h + 1) lo hi ks cs) :
    Attempt M (h + 1) lo hi ⟨ks, cs, L⟩
      (tryTwoToThreeSplitInternalWithRight M ⟨ks, cs, L⟩ i) := by
  unfold tryTwoToThreeSplitInternalWithRight
  split_ifs with hlast
  · exact attempt_decline hc
  simp only [not_or, not_le] at hlast
  obtain ⟨K₁, k, K₂, C₁, x, y, C₂, rfl, rfl, hK, hC, hL, hx, hy, hR⟩ := hc.window₂ hlast.1
  obtain ⟨lks, lcs, rfl, hlc, hl1, hl2⟩ := hx.internal_cases
  obtain ⟨rks, rcs, rfl, hrc, hr1, hr2⟩ := hy.internal_cases
  have hg := internals_glue hlc hrc
  simp only [child_mid hC hx.ne_null, child_mid_one hC hy.ne_null, Parent.key,
    getElem?_mid hK]
  by_cases hfew : lks.length < M ∨ rks.length < M
  · rw [if_pos hfew]
    exact attempt_decline hc
  rw [if_neg hfew]
  simp only [not_or, not_lt] at hfew
  have hlen : (lks ++ k :: rks).length = M + M + 1 := by simp; omega
  have hclen := sepChain_length hg
  generalize hallK : lks ++ k :: rks = allK at hg hlen hclen ⊢
  generalize hallC : lcs ++ rcs = allC at hg hclen ⊢
  rw [hlen] at hclen ⊢
  -- the sizes of the three nodes; here the order has to be even and at least 6
  generalize hf : (M + M + 1) / 3 = f
  generalize hm : (M + M + 1 - f) / 2 = m
  generalize hr : M + M + 1 - f - m - 2 = r
  have hsum : f + m + r + 2 = M + M + 1 := by omega
  have hfm : minKeys M ≤ f ∧ f ≤ M ∧ minKeys M ≤ m ∧ m ≤ M ∧ minKeys M ≤ r ∧ r ≤ M := by
    unfold minKeys; omega
  have hmin := minKeys_pos (M := M) (by omega)
  rw [if_neg (by omega)]
  have h1 : f < allK.length := by omega
  have h2 : f + 1 + m < allK.length := by omega
  rw [List.getElem?_eq_getElem h1, List.getElem?_eq_getElem h2]
  simp only
  rw [if_neg (by omega)]
  simp only [set_mid hK, set_mid hC, set_mid_one hC, insertIdx_mid_one hK, insertIdx_mid_one hC]
  -- cut at the first separator, then cut the right piece at the second
  obtain ⟨hw1, hrest⟩ := hg.cut_at (List.getElem?_eq_getElem h1)
  have hk2 : (allK.drop (f + 1))[m]? = some allK[f + 1 + m] := by
    rw [List.getElem?_drop, List.getElem?_eq_getElem h2]
  obtain ⟨hw2, hw3⟩ := hrest.cut_at hk2
  rw [List.drop_drop, List.drop_drop] at hw3
  have htake : (allC.drop (f + 1 + (m + 1))).take (r + 1) = allC.drop (f + 1 + (m + 1)) :=
    List.take_of_length_le (by simp; omega)
  rw [htake]
  have hparts : allC.take (f + 1) ++ ((allC.drop (f + 1)).take (m + 1)
      ++ allC.drop (f + 1 + (m + 1))) = lcs ++ rcs := by
    have hdrop : allC.drop (f + 1 + (m + 1)) = (allC.drop (f + 1)).drop (m + 1) := by
      rw [List.drop_drop]
    rw [hdrop, List.take_append_drop, List.take_append_drop, hallC]
  refine attempt_done ⟨?_, ?_, ?_, by simp, ?_⟩
  · refine (sepChain_focus (hC.trans hK.symm)).mpr
      ⟨hL, ⟨hw1, ?_⟩, ⟨hw2, ?_⟩, ⟨by simpa [Nat.add_assoc] using hw3, ?_⟩, hR⟩
    · simp only [List.length_take]; omega
    · simp only [List.length_take, List.length_drop]; omega
    · simp only [List.length_drop]; omega
  · have hentries := congrArg (fun l => entriesOf C₁ ++ (entriesOf l ++ entriesOf C₂)) hparts
    simp only [entriesOf_append, List.append_assoc] at hentries
    simpa only [entriesOf_append, entriesOf_cons, entries_internal, List.append_assoc]
      using hentries
  · intro A B h
    have haddrs := congrArg (fun l => A ++ (addrsOf C₁ ++ (addrsOf l ++ (addrsOf C₂ ++ B)))) hparts
    simp only [addrsOf_append, List.append_assoc] at haddrs
    simpa [haddrs] using h
  · intro _
    have := hlast.2
    simp only [List.length_append, List.length_cons] at this ⊢
    omega

theorem tryTwoToThreeSplitInternalWithLeft_attempt {M h i : Nat} {lo hi : Option κ}
    {ks : List κ} {cs : List (Node κ ρ)} {L : Links} (hM : 6 ≤ M) (heven : M % 2 = 0)
    (hc : ChildrenWF M (h + 1) lo hi ks cs) :
    Attempt M (h + 1) lo hi ⟨ks, cs, L⟩
      (tryTwoToThreeSplitInternalWithLeft M ⟨ks, cs, L⟩ i) := by
  unfold tryTwoToThreeSplitInternalWithLeft
  split_ifs
  · exact attempt_decline hc
  · exact tryTwoToThreeSplitInternalWithRight_attempt hM heven hc

/-! ## §4. All attempts together. -/

/-- **Whatever the attempts do, the parent stays as good as it was.** -/
theorem adjustFullChild_attempt {M h i : Nat} {lo hi : Option κ} {ks : List κ}
    {cs : List (Node κ ρ)} {L : Links} {c : Node κ ρ} (hM : 6 ≤ M) (heven : M % 2 = 0)
    (hc : ChildrenWF M h lo hi ks cs) (hi' : i < cs.length) (hfull : FullAt M cs i)
    (hleaf : c.isLeaf = decide (h = 0)) :
    Attempt M h lo hi ⟨ks, cs, L⟩ (adjustFullChild M ⟨ks, cs, L⟩ i c) := by
  unfold adjustFullChild
  rw [hleaf]
  cases h with
  | zero =>
      exact attempt_orTry (attempt_orTry (attempt_orTry
        (tryRedistributeLeafWithLeft_attempt (by omega) hc hi' hfull)
        (tryRedistributeLeafWithRight_attempt (by omega) hc hfull))
        (tryTwoToThreeSplitLeafWithRight_attempt (by omega) hc))
        (tryTwoToThreeSplitLeafWithLeft_attempt (by omega) hc)
  | succ h =>
      exact attempt_orTry (attempt_orTry (attempt_orTry
        (tryRedistributeInternalWithLeft_attempt (by omega) hc hi' hfull)
        (tryRedistributeInternalWithRight_attempt (by omega) hc hfull))
        (tryTwoToThreeSplitInternalWithRight_attempt hM heven hc))
        (tryTwoToThreeSplitInternalWithLeft_attempt hM heven hc)

end CustomDbms.Index
