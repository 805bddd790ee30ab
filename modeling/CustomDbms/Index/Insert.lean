/-
  CustomDbms.Index.Insert
  ───────────────────────
  **INSERTION IS CORRECT.**

  `InsertRecursive` leaves one node, or a node and its new right sibling, in
  place of the node it was called on.  `Inserted` is its contract: the pieces
  are canonical on both sides of the separator, together they hold
  `insertEntry` of the old entries, and the leaf chain runs along them.

    • `insertIntoLeaf_spec`   — the leaf case, with `SplitLeaf`.
    • `insertSplit_spec`      — the parent takes up a split, with `SplitInternal`.
    • `insertRecursive_spec`  — induction on the height.
-/
import CustomDbms.Index.Restructure

namespace CustomDbms.Index

open CustomDbms.Lib

set_option linter.unusedSectionVars false

variable {κ ρ : Type} [LinearOrder κ] [DecidableEq ρ]

/-! ## §1. The contract of an insertion. -/

/-- The nodes an insertion leaves in place of one. -/
def pieces (n : Node κ ρ) : Option (Split κ ρ) → List (Node κ ρ)
  | none => [n]
  | some s => [n, s.right]

/-- What `InsertRecursive` returns for `n`: the node, its split, the links. -/
structure Inserted (M h l : Nat) (lo hi : Option κ) (key : κ) (r : ρ) (n : Node κ ρ)
    (L : Links) (res : Node κ ρ × Option (Split κ ρ) × Links) : Prop where
  whole : res.2.1 = none → WF M h l M lo hi res.1
  halves : ∀ s, res.2.1 = some s → WF M h (minKeys M) M lo (some s.separatorKey) res.1 ∧
    WF M h (minKeys M) M (some s.separatorKey) hi s.right
  entries : entriesOf (pieces res.1 res.2.1) = insertEntry key r n.entries
  linked : ∀ A B, L.Linked (A ++ n.addrs ++ B) →
    res.2.2.Linked (A ++ addrsOf (pieces res.1 res.2.1) ++ B)

/-! ## §2. Leaves. -/

/-- `SplitLeaf` of a leaf with one entry too many. -/
theorem splitLeaf_spec {M l : Nat} {lo hi : Option κ} {a : Addr} {es es' : List (IndexEntry κ ρ)}
    {L : Links} {key : κ} {r : ρ} (hM : 1 ≤ M) (hes : es' = insertEntry key r es)
    (hs : SortedIn lo hi es') (hr : RowsOk es') (hlen : es'.length = M + 1) :
    ∃ res, ((splitLeaf a es' L).map fun s => (s.1, some s.2.1, s.2.2)) = some res ∧
      Inserted M 0 l lo hi key r (.leaf a es) L res := by
  unfold splitLeaf
  simp only [hlen]
  have hdrop : (es'.drop ((M + 1) / 2)).length = M + 1 - (M + 1) / 2 := by simp [hlen]
  have hparts := List.take_append_drop ((M + 1) / 2) es'
  rcases hd : es'.drop ((M + 1) / 2) with _ | ⟨e, rest⟩
  · rw [hd] at hdrop; simp at hdrop; omega
  rw [hd] at hdrop hparts
  simp only [List.length_cons] at hdrop
  simp only [Option.map_some]
  rw [← hparts] at hs hr
  have htake : (es'.take ((M + 1) / 2)).length = (M + 1) / 2 := by simp [hlen]; omega
  obtain ⟨hw1, hw2⟩ := leaves_cut (M := M) (a := a) (b := L.fresh) hs hr
    (by unfold minKeys; omega) (by unfold minKeys; omega)
  refine ⟨_, rfl, ⟨by simp, ?_, ?_, ?_⟩⟩
  · intro s hs'
    obtain rfl := Option.some.inj hs'
    exact ⟨hw1, hw2⟩
  · simpa [pieces, hes] using hparts
  · intro A B h
    simpa [pieces] using Links.Linked.insertAfter (A := A) (by simpa using h)

theorem insertIntoLeaf_spec {M l : Nat} {lo hi : Option κ} {a : Addr}
    {es : List (IndexEntry κ ρ)} {L : Links} {key : κ} {r : ρ} (hM : 1 ≤ M)
    (hw : WF M 0 l M lo hi (.leaf a es)) (hlo : Above lo key) (hhi : Below hi key) :
    ∃ res, insertIntoLeaf M a es L key r = some res ∧
      Inserted M 0 l lo hi key r (.leaf a es) L res := by
  obtain ⟨hs, hr, hl, hu⟩ := hw
  have hs' := sortedIn_insertEntry (r := r) hs hlo hhi
  have hr' := rowsOk_insertEntry key r hr
  obtain ⟨A, B, hes, hlen, hA, hB⟩ := lowerBound_cut es key
  unfold insertIntoLeaf
  rw [← hlen]
  -- a leaf that stays within the order is its own result
  have hstay : ∀ es', es' = insertEntry key r es → es.length ≤ es'.length → es'.length ≤ M →
      Inserted M 0 l lo hi key r (.leaf a es) L (.leaf a es', none, L) := by
    intro es' he h1 h2
    subst he
    exact ⟨fun _ => ⟨hs', hr', Nat.le_trans hl h1, h2⟩, by simp, by simp [pieces],
      fun A B h => by simpa [pieces] using h⟩
  have hfresh : insertEntry key r es = A ++ ⟨key, [r]⟩ :: B →
      ∃ res, (if (es.insertIdx A.length ⟨key, [r]⟩).length ≤ M
        then some (Node.leaf a (es.insertIdx A.length ⟨key, [r]⟩), none, L)
        else (splitLeaf a (es.insertIdx A.length ⟨key, [r]⟩) L).map
          fun s => (s.1, some s.2.1, s.2.2)) = some res ∧
        Inserted M 0 l lo hi key r (.leaf a es) L res := by
    intro hins
    have hidx : es.insertIdx A.length ⟨key, [r]⟩ = insertEntry key r es := by
      rw [hins, hes, insertIdx_mid rfl]
    have hlen' : (insertEntry key r es).length = es.length + 1 := by
      rw [hins, hes]; simp; omega
    rw [hidx]
    split_ifs with hfit
    · exact ⟨_, rfl, hstay _ rfl (by omega) hfit⟩
    · exact splitLeaf_spec hM rfl hs' hr' (by omega)
  subst hes
  rw [insertEntry_append_left hA] at hfresh hstay
  cases B with
  | nil =>
      have hnone : (A ++ [])[A.length]? = none := List.getElem?_eq_none (by simp)
      simp only [hnone]
      exact hfresh (by simp [insertEntry])
  | cons e B =>
      have hge : ¬ e.key < key := not_lt.mpr (hB e rfl)
      simp only [getElem?_mid, insertEntry, if_neg hge] at hfresh hstay ⊢
      by_cases he : e.key = key
      · rw [if_pos he, set_mid rfl]
        exact ⟨_, rfl, hstay _ (by simp [he]) (by simp) (by simpa using hu)⟩
      · rw [if_neg he]
        exact hfresh (by simp [he])

/-! ## §3. The parent takes up a split. -/

theorem insertSplit_spec {M h l : Nat} {lo hi : Option κ} {ks : List κ} {cs : List (Node κ ρ)}
    {L : Links} {key : κ} {r : ρ} {n : Node κ ρ} {L₀ : Links} (hM : 1 ≤ M) (heven : M % 2 = 0)
    (hc : ChildrenWF M h lo hi ks cs) (hl : l ≤ ks.length) (hu : ks.length ≤ M + 1)
    (hent : entriesOf cs = insertEntry key r n.entries)
    (hlink : ∀ A B, L₀.Linked (A ++ n.addrs ++ B) → L.Linked (A ++ addrsOf cs ++ B)) :
    ∃ res, (if ks.length ≤ M then some (Node.internal ks cs, none, L)
        else (splitInternal ks cs).map fun t => (t.1, some t.2, L)) = some res ∧
      Inserted M (h + 1) l lo hi key r n L₀ res := by
  split_ifs with hfit
  · exact ⟨_, rfl, fun _ => ⟨hc, hl, hfit⟩, by simp, by simpa [pieces] using hent,
      fun A B h => by simpa [pieces] using hlink A B h⟩
  · have hlen : ks.length = M + 1 := by omega
    have hmid : (M + 1) / 2 < ks.length := by omega
    unfold splitInternal
    simp only [hlen, List.getElem?_eq_getElem hmid, Option.map_some]
    obtain ⟨hw1, hw2⟩ := hc.cut_at (List.getElem?_eq_getElem hmid)
    refine ⟨_, rfl, by simp, ?_, ?_, ?_⟩
    · intro s hs
      obtain rfl := Option.some.inj hs
      refine ⟨⟨hw1, ?_⟩, ⟨hw2, ?_⟩⟩
      · simp only [List.length_take, minKeys]; omega
      · simp only [List.length_drop, minKeys]; omega
    · rw [← hent]
      simp only [pieces, entriesOf_cons, entriesOf_nil, entries_internal, List.append_nil,
        ← entriesOf_append, List.take_append_drop]
    · intro A B h
      simpa only [pieces, addrsOf_cons, addrsOf_nil, addrs_internal, List.append_nil,
        ← addrsOf_append, List.take_append_drop] using hlink A B h

/-! ## §4. The recursion. -/

/-- The parent after its child was replaced by the pieces of an insertion. -/
theorem inserted_into_parent {M h l : Nat} {lo hi : Option κ} {K₁ K₂ : List κ}
    {C₁ C₂ : List (Node κ ρ)} {c : Node κ ρ} {L : Links} {key : κ} {r : ρ} {i : Nat}
    {res : Node κ ρ × Option (Split κ ρ) × Links} {n : Node κ ρ} {L₀ : Links}
    (hM : 1 ≤ M) (heven : M % 2 = 0) (hK : K₁.length = i) (hC : C₁.length = i)
    (hL : SepLeft (WF M h (minKeys M) M) lo K₁ C₁)
    (hR : SepRight (WF M h (minKeys M) M) K₂ C₂ hi)
    (hbelow : ∀ e ∈ entriesOf C₁, e.key < key) (habove : ∀ e ∈ entriesOf C₂, key < e.key)
    (hres : Inserted M h (minKeys M) (lastOr lo K₁) (headOr K₂ hi) key r c L res)
    (hl : l ≤ (K₁ ++ K₂).length) (hu : (K₁ ++ K₂).length ≤ M)
    (hent : entriesOf (C₁ ++ c :: C₂) = n.entries)
    (hlink : ∀ A B, L₀.Linked (A ++ n.addrs ++ B) →
      L.Linked (A ++ addrsOf (C₁ ++ c :: C₂) ++ B)) :
    ∃ res', (match res.2.1 with
        | none => some (.internal (K₁ ++ K₂) ((C₁ ++ c :: C₂).set i res.1), none, res.2.2)
        | some s => insertSplit M (K₁ ++ K₂) ((C₁ ++ c :: C₂).set i res.1) res.2.2 i s)
        = some res' ∧
      Inserted M (h + 1) l lo hi key r n L₀ res' := by
  obtain ⟨c', split, L'⟩ := res
  have hentries : entriesOf (C₁ ++ (pieces c' split ++ C₂)) = insertEntry key r n.entries := by
    rw [← hent]
    simp only [entriesOf_append, entriesOf_cons, hres.entries]
    rw [insertEntry_append_left hbelow, insertEntry_append_right habove]
  have hlinked : ∀ A B, L₀.Linked (A ++ n.addrs ++ B) →
      L'.Linked (A ++ addrsOf (C₁ ++ (pieces c' split ++ C₂)) ++ B) := by
    intro A B h
    have h1 := hlink A B h
    have h2 := hres.linked (A ++ addrsOf C₁) (addrsOf C₂ ++ B) (by simpa using h1)
    simpa using h2
  rw [set_mid hC]
  cases split with
  | none =>
      refine ⟨_, rfl, fun _ => ⟨?_, hl, hu⟩, by simp, by simpa [pieces] using hentries,
        fun A B h => by simpa [pieces] using hlinked A B h⟩
      exact (sepChain_focus (hC.trans hK.symm)).mpr ⟨hL, hres.whole rfl, hR⟩
  | some s =>
      obtain ⟨hw1, hw2⟩ := hres.halves s rfl
      simp only [insertSplit, insertIdx_mid hK, insertIdx_mid_one hC]
      refine insertSplit_spec hM heven ?_ (by simp at hl ⊢; omega) (by simp at hu ⊢; omega)
        (by simpa [pieces] using hentries) (fun A B h => by simpa [pieces] using hlinked A B h)
      refine (sepChain_focus (hC.trans hK.symm)).mpr ⟨hL, hw1, ?_, hR⟩
      exact hw2

/-- What `InsertRecursive` does in an internal node, once the attempts have
left the parent `p`: it descends into the child the key belongs to. -/
theorem insertRecursive_internal {M h i : Nat} {lo hi : Option κ} {ks : List κ}
    {cs : List (Node κ ρ)} {L : Links} {key : κ} {r : ρ} (fuel : Nat) {c : Node κ ρ}
    (hM : 6 ≤ M) (heven : M % 2 = 0) (hc : ChildrenWF M h lo hi ks cs)
    (hiu : i = upperBound ks key) (hci : cs[i]? = some c) (hcw : c ≠ .null)
    (hleaf : c.isLeaf = decide (h = 0)) :
    ∃ p : Parent κ ρ, Kept M h lo hi ⟨ks, cs, L⟩ p ∧
      insertRecursive M key r (fuel + 1) (.internal ks cs) L =
        (p.child (upperBound p.keys key)).bind fun target =>
        (insertRecursive M key r fuel target p.links).bind fun res =>
        match res.2.1 with
        | none =>
            some (.internal p.keys (p.children.set (upperBound p.keys key) res.1), none, res.2.2)
        | some s =>
            insertSplit M p.keys (p.children.set (upperBound p.keys key) res.1) res.2.2
              (upperBound p.keys key) s := by
  have hchild : (Parent.mk ks cs L).child i = some c := by
    unfold Parent.child
    simp only [hci]
    cases c <;> simp_all
  rw [insertRecursive, ← hiu, hchild]
  by_cases hfull : M ≤ c.keyCount
  · obtain ⟨b, p, hadj, hd, hk⟩ := adjustFullChild_attempt (i := i) (L := L) hM heven hc
      (List.getElem?_eq_some_iff.mp hci).1 (c := c)
      (fun x hx => by rw [hci] at hx; obtain rfl := Option.some.inj hx; exact hfull) hleaf
    refine ⟨p, hk, ?_⟩
    have hidx : (if b = true then upperBound p.keys key else i) = upperBound p.keys key := by
      cases b with
      | true => rfl
      | false => rw [hd rfl]; exact hiu
    simp only [hfull, if_true, hadj, Option.map_some, hidx, Option.bind_eq_bind,
      Option.bind_some]
    all_goals rfl
  · refine ⟨⟨ks, cs, L⟩, Kept.refl hc, ?_⟩
    simp only [hfull, if_false, Option.bind_eq_bind, Option.bind_some, ← hiu]
    all_goals rfl

/-- **`InsertRecursive` meets its contract at every height.** -/
theorem insertRecursive_spec {M : Nat} (hM : 6 ≤ M) (heven : M % 2 = 0) {key : κ} {r : ρ} :
    ∀ {h l : Nat} {lo hi : Option κ} {n : Node κ ρ} {L : Links}, WF M h l M lo hi n →
      Above lo key → Below hi key →
      ∃ res, insertRecursive M key r (h + 1) n L = some res ∧
        Inserted M h l lo hi key r n L res
  | 0, l, lo, hi, n, L, hw, hlo, hhi => by
      obtain ⟨a, es, rfl, -⟩ := hw.leaf_cases
      exact insertIntoLeaf_spec (by omega) hw hlo hhi
  | h + 1, l, lo, hi, n, L, hw, hlo, hhi => by
      obtain ⟨ks, cs, rfl, hc, hl, hu⟩ := hw.internal_cases
      obtain ⟨K₁, K₂, C₁, c, C₂, rfl, rfl, hK, hC, -, hcw, -⟩ :=
        childrenWF_route (by omega) hc hlo hhi
      obtain ⟨p, hkept, heq⟩ := insertRecursive_internal (h + 1) (L := L) (r := r) hM heven
        hc rfl (getElem?_mid hC ..) hcw.ne_null hcw.isLeaf
      rw [heq]
      -- the target is looked up again in what the attempts left
      obtain ⟨pks, pcs, pL⟩ := p
      obtain ⟨K₁', K₂', C₁', c', C₂', rfl, rfl, hK', hC', hL', hcw', hR', hlo', hhi', hb', ha'⟩ :=
        childrenWF_route (by omega) hkept.chain hlo hhi
      obtain ⟨res, hres, hins⟩ := insertRecursive_spec hM heven (r := r) (L := pL) hcw' hlo' hhi'
      rw [child_mid hC' hcw'.ne_null]
      simp only [Option.bind_some, hres]
      exact inserted_into_parent (by omega) heven hK' hC' hL' hR' hb' ha' hins
        (Nat.le_trans hl hkept.grows) (hkept.bounded hu)
        (by simpa using hkept.entries) (fun A B h => hkept.linked A B (by simpa using h))

end CustomDbms.Index
