/-
  CustomDbms.Index.Refinement
  ───────────────────────────
  **THE TREE REFINES A FINITE MAP.**

  `Valid` is the invariant of a whole tree: the root is well formed within no
  bounds (a root leaf may be empty, a root node needs one separator), and the
  leaf chain runs along its leaves.  Under `Valid` each operation is defined
  and computes on the entry list what §2 of `Index.Entries` says:

    • `BStarPlusTree.insert_spec`, `BStarPlusTree.remove_spec`
    • `BStarPlusTree.find_spec`      — `Find` is `rowsOf`
    • `BStarPlusTree.rangeScan_spec` — `RangeScan` is `entriesBetween`; the scan
      leaves the tree at the first leaf and follows the chain from there.

  `tree_refines_map` runs any list of calls from the empty tree against the
  abstract map `rowMap` from keys to row lists.
-/
import CustomDbms.Index.Insert
import CustomDbms.Index.Remove
import Mathlib.Data.List.Induction
import Mathlib.Logic.Function.Basic

namespace CustomDbms.Index

open CustomDbms.Lib

set_option linter.unusedSectionVars false

variable {κ ρ : Type} [LinearOrder κ] [DecidableEq ρ]

/-! ## §1. Scanning the leaf chain. -/

theorem entriesBetween_append (lower upper : κ) (A B : List (IndexEntry κ ρ)) :
    entriesBetween lower upper (A ++ B)
      = entriesBetween lower upper A ++ entriesBetween lower upper B := by
  simp [entriesBetween]

theorem entriesBetween_of_below {lower upper : κ} {A : List (IndexEntry κ ρ)}
    (h : ∀ e ∈ A, e.key < lower) : entriesBetween lower upper A = [] := by
  rw [entriesBetween, List.filter_eq_nil_iff]
  intro e he
  simp [not_le.mpr (h e he)]

theorem entriesBetween_of_above {lower upper : κ} {A : List (IndexEntry κ ρ)}
    (h : ∀ e ∈ A, upper ≤ e.key) : entriesBetween lower upper A = [] := by
  rw [entriesBetween, List.filter_eq_nil_iff]
  intro e he
  simp [not_lt.mpr (h e he)]

/-- One leaf of the scan, `rest` being everything behind it. -/
theorem scanEntries_spec (lower upper : κ) {es rest : List (IndexEntry κ ρ)}
    (hs : (es ++ rest).Pairwise (fun e f => e.key < f.key)) :
    ((scanEntries lower upper es).2 = true →
      (scanEntries lower upper es).1 = entriesBetween lower upper (es ++ rest)) ∧
    ((scanEntries lower upper es).2 = false →
      (scanEntries lower upper es).1 = entriesBetween lower upper es) := by
  induction es with
  | nil => simp [scanEntries, entriesBetween]
  | cons e es ih =>
      rw [List.cons_append, List.pairwise_cons] at hs
      obtain ⟨ih1, ih2⟩ := ih hs.2
      rw [scanEntries]
      by_cases h1 : e.key < lower
      · rw [if_pos h1]
        have hskip : ∀ l, entriesBetween lower upper (e :: l) = entriesBetween lower upper l := by
          intro l
          simp [entriesBetween, not_le.mpr h1]
        rw [List.cons_append, hskip, hskip]
        exact ⟨ih1, ih2⟩
      rw [if_neg h1]
      by_cases h2 : upper ≤ e.key
      · -- the scan stops here, and nothing behind is below the upper bound
        rw [if_pos h2]
        refine ⟨fun _ => ?_, by simp⟩
        refine (entriesBetween_of_above fun x hx => ?_).symm
        rcases List.mem_cons.mp hx with rfl | hx
        · exact h2
        · exact le_trans h2 (le_of_lt (hs.1 x hx))
      · rw [if_neg h2]
        simp only [entriesBetween, List.cons_append, List.filter_cons, not_lt.mp h1,
          not_le.mp h2, decide_true, Bool.and_self, if_true]
        exact ⟨fun h => by rw [ih1 h, entriesBetween], fun h => by rw [ih2 h, entriesBetween]⟩

/-- A leaf pointer on the chain is found among the leaves. -/
theorem find_leaf_mid {L : Links} {P S : List (Addr × List (IndexEntry κ ρ))} {a : Addr}
    {es : List (IndexEntry κ ρ)} (hl : L.Linked ((P ++ (a, es) :: S).map (·.1))) :
    (P ++ (a, es) :: S).find? (fun l => decide (l.1 = a)) = some (a, es) ∧
      L.next a = (S.map (·.1)).head? := by
  have hl' : L.Linked (P.map (·.1) ++ a :: S.map (·.1)) := by simpa using hl
  refine ⟨?_, hl'.around.2.2⟩
  have hfree : a ∉ P.map (·.1) := (Links.nodup_mid hl'.nodup).1
  have hnone : P.find? (fun l => decide (l.1 = a)) = none := by
    rw [List.find?_eq_none]
    rintro ⟨b, fs⟩ hb heq
    obtain rfl : b = a := by simpa using heq
    exact hfree (List.mem_map.mpr ⟨_, hb, rfl⟩)
  rw [List.find?_append, hnone]
  simp

/-- The chain followed from a leaf `a`: it reads the entries of `a` and of
everything behind it. -/
theorem scanLeaves_spec {L : Links} {lower upper : κ}
    {S P : List (Addr × List (IndexEntry κ ρ))} {a : Addr} {es : List (IndexEntry κ ρ)}
    {fuel : Nat} (hl : L.Linked ((P ++ (a, es) :: S).map (·.1)))
    (hs : (((a, es) :: S).flatMap (·.2)).Pairwise (fun e f => e.key < f.key))
    (hf : S.length < fuel) :
    scanLeaves (P ++ (a, es) :: S) L lower upper fuel (some a)
      = some (entriesBetween lower upper (((a, es) :: S).flatMap (·.2))) := by
  induction S generalizing P a es fuel with
  | nil =>
      obtain _ | fuel := fuel
      · simp at hf
      obtain ⟨hfind, hnext⟩ := find_leaf_mid hl
      rw [List.flatMap_cons, List.flatMap_nil] at hs ⊢
      obtain ⟨h1, h2⟩ := scanEntries_spec lower upper hs
      rw [scanLeaves, hfind]
      rcases hse : scanEntries lower upper es with ⟨xs, _ | _⟩
      · simp only [hnext]
        cases fuel <;> simpa [scanLeaves, hse] using h2 (by rw [hse])
      · simpa [hse] using h1 (by rw [hse])
  | cons b S ih =>
      obtain ⟨b, fs⟩ := b
      obtain _ | fuel := fuel
      · simp at hf
      obtain ⟨hfind, hnext⟩ := find_leaf_mid hl
      rw [List.flatMap_cons] at hs ⊢
      obtain ⟨h1, h2⟩ := scanEntries_spec lower upper hs
      rw [scanLeaves, hfind]
      rcases hse : scanEntries lower upper es with ⟨xs, _ | _⟩
      · -- the leaf is exhausted: on to the next one
        have hl' : L.Linked (((P ++ [(a, es)]) ++ (b, fs) :: S).map (·.1)) := by simpa using hl
        have hrest := ih hl' (List.pairwise_append.mp hs).2.1 (Nat.lt_of_succ_lt_succ hf)
        rw [List.append_assoc, List.singleton_append] at hrest
        simp only [hnext, List.map_cons, List.head?_cons, hrest, Option.map_some]
        rw [entriesBetween_append, ← h2 (by rw [hse]), hse]
      · simpa [hse] using h1 (by rw [hse])

/-! ## §2. The operations on a valid tree. -/

/-- How few keys the root may have. -/
def rootMin (h : Nat) : Nat := if h = 0 then 0 else 1

namespace BStarPlusTree

/-- The invariant of a whole tree. -/
structure Valid (t : BStarPlusTree κ ρ) : Prop where
  wf : ∃ h, WF t.maxKeysPerNode h (rootMin h) t.maxKeysPerNode none none t.root
  linked : t.links.Linked t.root.addrs

/-- The abstract value: all entries in key order. -/
def entries (t : BStarPlusTree κ ρ) : List (IndexEntry κ ρ) := t.root.entries

theorem valid_new {M : Nat} : Valid (new M : BStarPlusTree κ ρ) := by
  refine ⟨⟨0, ⟨List.Pairwise.nil, by simp⟩, by simp [RowsOk], by simp [rootMin], by simp⟩, ?_⟩
  refine ⟨by simp [new], ?_, ?_⟩
  · simp [new]
  · simp [new, Links.Seg]

theorem entries_new {M : Nat} : entries (new M : BStarPlusTree κ ρ) = [] := by
  simp [entries, new]

section

variable {t : BStarPlusTree κ ρ}

theorem Valid.sorted (ht : t.Valid) (hM : 1 ≤ t.maxKeysPerNode) :
    SortedIn none none t.entries := by
  obtain ⟨h, hw⟩ := ht.wf
  exact hw.sorted hM

theorem Valid.rowsOk (ht : t.Valid) : RowsOk t.entries := by
  obtain ⟨h, hw⟩ := ht.wf
  exact hw.rowsOk

theorem insert_spec (hM : 6 ≤ t.maxKeysPerNode) (heven : t.maxKeysPerNode % 2 = 0)
    (ht : t.Valid) (key : κ) (r : ρ) :
    ∃ t', t.insert key r = some t' ∧ t'.Valid ∧ t'.maxKeysPerNode = t.maxKeysPerNode ∧
      t'.entries = insertEntry key r t.entries := by
  obtain ⟨⟨h, hw⟩, hl⟩ := ht
  obtain ⟨⟨root, split, L⟩, hres, hins⟩ := insertRecursive_spec (r := r) (L := t.links) hM heven
    hw (above_none key) (below_none key)
  unfold insert
  rw [hw.height (by omega), hres]
  have hlink := hins.linked [] [] (by simpa using hl)
  cases split with
  | none =>
      refine ⟨_, rfl, ⟨⟨h, hins.whole rfl⟩, by simpa [pieces] using hlink⟩, rfl, ?_⟩
      simpa [pieces, entries] using hins.entries
  | some s =>
      -- a new root above the two halves
      obtain ⟨hw1, hw2⟩ := hins.halves s rfl
      refine ⟨_, rfl, ⟨⟨h + 1, ?_⟩, by simpa [pieces] using hlink⟩, rfl, ?_⟩
      · exact ⟨⟨hw1, hw2⟩, by simp [rootMin], by simp; omega⟩
      · simpa [pieces, entries] using hins.entries

theorem remove_spec (hM : 6 ≤ t.maxKeysPerNode) (heven : t.maxKeysPerNode % 2 = 0)
    (ht : t.Valid) (key : κ) (r : ρ) :
    ∃ t', t.remove key r = some t' ∧ t'.Valid ∧ t'.maxKeysPerNode = t.maxKeysPerNode ∧
      t'.entries = removeEntry key r t.entries := by
  obtain ⟨⟨h, hw⟩, hl⟩ := ht
  obtain ⟨⟨b, root, L⟩, hres, hrem⟩ := removeRecursive_spec (r := r) (L := t.links) hM heven
    hw (fun h1 => by unfold rootMin; split <;> omega) (above_none key) (below_none key)
  have hlink := hrem.linked [] [] (by simpa using hl)
  have hwf := hrem.wf
  have hent := hrem.entries
  simp only [List.nil_append, List.append_nil] at hlink hwf hent
  unfold remove
  rw [hw.height (by omega), hres]
  cases h with
  | zero =>
      obtain ⟨a, es, rfl, -⟩ := hwf.leaf_cases
      exact ⟨_, rfl, ⟨⟨0, hwf⟩, hlink⟩, rfl, hent⟩
  | succ h =>
      obtain ⟨ks, cs, rfl, hc, hk1, hk2⟩ := hwf.internal_cases
      have hlen := sepChain_length hc
      match cs, hlen with
      | [c], hlen =>
          -- the root lost its last separator: its only child is the new root
          obtain rfl : ks = [] := List.length_eq_zero_iff.mp (by simpa using hlen.symm)
          have hcw : WF t.maxKeysPerNode h _ _ none none c := hc
          refine ⟨_, rfl, ⟨⟨h, hcw.mono ?_ hcw.keyCount.2⟩, by simpa using hlink⟩, rfl, ?_⟩
          · have := hcw.keyCount.1
            have := minKeys_pos (M := t.maxKeysPerNode) (by omega)
            unfold rootMin
            split <;> omega
          · simpa [entries] using hent
      | c :: c' :: cs, hlen =>
          refine ⟨_, rfl, ⟨⟨h + 1, hc, ?_, hk2⟩, hlink⟩, rfl, hent⟩
          simp only [List.length_cons] at hlen
          simp only [rootMin, Nat.add_eq_zero_iff, Nat.one_ne_zero, and_false, if_false]
          omega

/-- A search tree finds what its entries say. -/
theorem find_of_ordered {h : Nat} (hn : Ordered h none none t.root) (key : κ) :
    t.find key = some (rowsOf t.entries key) := by
  have hsorted : SortedIn none none t.entries := hn.sorted
  obtain ⟨a, es, P, S, hf, hleaves, hP, hS⟩ := hn.findLeaf (above_none key) (below_none key)
  have hent : t.entries = P.flatMap (·.2) ++ (es ++ S.flatMap (·.2)) := by
    simp [entries, Node.entries, hleaves]
  have hes : SortedIn none none es := by
    rw [hent] at hsorted
    exact ⟨((List.pairwise_append.mp (List.pairwise_append.mp hsorted.1).2.1).1), by simp⟩
  unfold find
  rw [hn.height, hf, hent, rowsOf_append_left hP, rowsOf_append_right hS]
  exact leafLookup_eq_rowsOf hes key

theorem find_spec (hM : 1 ≤ t.maxKeysPerNode) (ht : t.Valid) (key : κ) :
    t.find key = some (rowsOf t.entries key) := by
  obtain ⟨⟨h, hw⟩, -⟩ := ht
  exact find_of_ordered (hw.ordered hM) key

theorem rangeScan_spec (hM : 1 ≤ t.maxKeysPerNode) (ht : t.Valid) (lower upper : κ) :
    t.rangeScan lower upper = some (entriesBetween lower upper t.entries) := by
  have hsorted := ht.sorted hM
  obtain ⟨⟨h, hw⟩, hl⟩ := ht
  obtain ⟨a, es, P, S, hf, hleaves, hP, hS⟩ :=
    (hw.ordered hM).findLeaf (above_none lower) (below_none lower)
  have hent : t.entries = P.flatMap (·.2) ++ ((a, es) :: S).flatMap (·.2) := by
    simp [entries, Node.entries, hleaves]
  rw [hent] at hsorted
  unfold rangeScan
  rw [hw.height hM, hf]
  simp only [hleaves]
  rw [scanLeaves_spec (by simpa [Node.addrs, hleaves] using hl)
      (List.pairwise_append.mp hsorted.1).2.1 (by simp; omega),
    hent, entriesBetween_append, entriesBetween_of_below hP, List.nil_append]

end

end BStarPlusTree

/-! ## §3. Runs against the abstract map. -/

/-- One mutating call on the tree. -/
inductive Call (κ ρ : Type) where
  | insert (key : κ) (rowId : ρ)
  | remove (key : κ) (rowId : ρ)
  deriving DecidableEq

namespace Call

/-- The call on the tree. -/
def run (t : BStarPlusTree κ ρ) : Call κ ρ → Option (BStarPlusTree κ ρ)
  | .insert k r => t.insert k r
  | .remove k r => t.remove k r

/-- The call on the abstract map from keys to row lists. -/
def apply (m : κ → List ρ) : Call κ ρ → κ → List ρ
  | .insert k r => Function.update m k (if r ∈ m k then m k else m k ++ [r])
  | .remove k r => Function.update m k ((m k).erase r)

end Call

/-- A sequence of calls on the tree. -/
def runCalls (t : BStarPlusTree κ ρ) : List (Call κ ρ) → Option (BStarPlusTree κ ρ)
  | [] => some t
  | c :: cs => (c.run t).bind fun t' => runCalls t' cs

/-- The map a sequence of calls leaves behind. -/
def rowMap (cs : List (Call κ ρ)) : κ → List ρ := cs.foldl Call.apply (fun _ => [])

/-- Row `r` was inserted for `k` and not removed since. -/
def Live (cs : List (Call κ ρ)) (k : κ) (r : ρ) : Prop :=
  ∃ A B, cs = A ++ .insert k r :: B ∧ Call.remove k r ∉ B

theorem live_concat {cs : List (Call κ ρ)} {c : Call κ ρ} {k : κ} {r : ρ} :
    Live (cs ++ [c]) k r ↔ c = .insert k r ∨ (c ≠ .remove k r ∧ Live cs k r) := by
  constructor
  · rintro ⟨A, B, heq, hB⟩
    rcases List.eq_nil_or_concat' B with rfl | ⟨B', b, rfl⟩
    · exact Or.inl (by simpa using (List.append_inj' heq rfl).2)
    · rw [← List.cons_append, ← List.append_assoc] at heq
      obtain ⟨rfl, hb⟩ := List.append_inj' heq rfl
      obtain rfl : c = b := by simpa using hb
      refine Or.inr ⟨?_, A, B', rfl, fun h => hB (by simp [h])⟩
      rintro rfl
      exact hB (by simp)
  · rintro (rfl | ⟨hc, A, B, rfl, hB⟩)
    · exact ⟨cs, [], rfl, by simp⟩
    · exact ⟨A, B ++ [c], by simp, by simp [hB, Ne.symm hc]⟩

/-- The map holds duplicate-free lists of exactly the live rows. -/
theorem rowMap_live (cs : List (Call κ ρ)) (k : κ) :
    (rowMap cs k).Nodup ∧ ∀ r, r ∈ rowMap cs k ↔ Live cs k r := by
  induction cs using List.reverseRecOn with
  | nil => simp [rowMap, Live]
  | append_singleton cs c ih =>
      obtain ⟨hnd, hmem⟩ := ih
      have hstep : rowMap (cs ++ [c]) = c.apply (rowMap cs) := by simp [rowMap]
      rw [hstep]
      simp only [live_concat]
      cases c with
      | insert k' r' =>
          by_cases hk : k = k'
          · subst hk
            have hadd : (Call.insert k r').apply (rowMap cs) k = addRowId (rowMap cs k) r' := by
              simp [Call.apply, addRowId]
            rw [hadd]
            refine ⟨nodup_addRowId hnd r', fun r => ?_⟩
            unfold addRowId
            split_ifs with hr
            · by_cases he : r' = r
              · subst he; simp [hr]
              · simp [he, hmem]
            · simp [hmem, or_comm, eq_comm]
          · simp [Call.apply, Function.update_of_ne hk, Ne.symm hk, hnd, hmem]
      | remove k' r' =>
          by_cases hk : k = k'
          · subst hk
            simp only [Call.apply, Function.update_self]
            refine ⟨hnd.erase r', fun r => ?_⟩
            rw [hnd.mem_erase_iff, hmem]
            simp [eq_comm]
          · simp [Call.apply, Function.update_of_ne hk, Ne.symm hk, hnd, hmem]

/-- The tree holds the map: what `Find` reads from the entry list. -/
def Holds (t : BStarPlusTree κ ρ) (m : κ → List ρ) : Prop :=
  ∀ k, rowsOf t.entries k = m k

/-- One call keeps the tree valid and in step with the map. -/
theorem call_spec {t : BStarPlusTree κ ρ} {m : κ → List ρ} (hM : 6 ≤ t.maxKeysPerNode)
    (heven : t.maxKeysPerNode % 2 = 0) (ht : t.Valid) (hm : Holds t m) (c : Call κ ρ) :
    ∃ t', c.run t = some t' ∧ t'.Valid ∧ t'.maxKeysPerNode = t.maxKeysPerNode ∧
      Holds t' (c.apply m) := by
  have hs := ht.sorted (by omega)
  cases c with
  | insert k r =>
      obtain ⟨t', hrun, hv, horder, hent⟩ := t.insert_spec hM heven ht k r
      refine ⟨t', hrun, hv, horder, fun x => ?_⟩
      rw [hent, rowsOf_insertEntry hs, hm x]
      by_cases hx : x = k
      · subst hx; simp [Call.apply, addRowId]
      · simp [Call.apply, hx]
  | remove k r =>
      obtain ⟨t', hrun, hv, horder, hent⟩ := t.remove_spec hM heven ht k r
      refine ⟨t', hrun, hv, horder, fun x => ?_⟩
      rw [hent, rowsOf_removeEntry hs, hm x]
      by_cases hx : x = k
      · subst hx; simp [Call.apply]
      · simp [Call.apply, hx]

/-- A run of calls keeps the tree valid and in step with the map. -/
theorem runCalls_spec {t : BStarPlusTree κ ρ} {m : κ → List ρ} (hM : 6 ≤ t.maxKeysPerNode)
    (heven : t.maxKeysPerNode % 2 = 0) (ht : t.Valid) (hm : Holds t m) (cs : List (Call κ ρ)) :
    ∃ t', runCalls t cs = some t' ∧ t'.Valid ∧ t'.maxKeysPerNode = t.maxKeysPerNode ∧
      Holds t' (cs.foldl Call.apply m) := by
  induction cs generalizing t m with
  | nil => exact ⟨t, rfl, ht, rfl, hm⟩
  | cons c cs ih =>
      obtain ⟨t₁, hrun, hv, horder, hm₁⟩ := call_spec hM heven ht hm c
      obtain ⟨t', hruns, hv', horder', hm'⟩ := ih (by omega) (by omega) hv hm₁
      exact ⟨t', by rw [runCalls, hrun]; exact hruns, hv', horder'.trans horder, hm'⟩

/-- The entries of a sorted list are the nonempty values of its map. -/
theorem mem_iff_rowsOf {lo hi : Option κ} {es : List (IndexEntry κ ρ)} (hs : SortedIn lo hi es)
    (hr : ∀ e ∈ es, e.rowIds ≠ []) (e : IndexEntry κ ρ) :
    e ∈ es ↔ e.rowIds = rowsOf es e.key ∧ e.rowIds ≠ [] := by
  constructor
  · intro he
    refine ⟨?_, hr e he⟩
    obtain ⟨A, B, rfl⟩ := List.append_of_mem he
    have hA : ∀ x ∈ A, x.key < e.key := fun x hx =>
      (List.pairwise_append.mp hs.1).2.2 x hx e (by simp)
    rw [rowsOf_append_left hA, rowsOf_cons, if_pos rfl]
  · rintro ⟨hrows, hne⟩
    rw [rowsOf] at hrows
    rcases hf : es.find? (fun x => decide (x.key = e.key)) with _ | x
    · rw [hf] at hrows
      exact absurd hrows hne
    · rw [hf] at hrows
      have hk : x.key = e.key := by simpa using List.find?_some hf
      have hx : x = e := by
        cases x; cases e; simp_all
      exact hx ▸ List.mem_of_find?_eq_some hf

/-- **The B*+-tree is a finite map.**  For every even order from 6 on and every
sequence of calls on the empty tree, no call goes wrong, `Find` returns the
live rows of a key, each once, and `RangeScan` the entries of the map within
the half-open range in strictly increasing key order. -/
theorem tree_refines_map (M : Nat) (hM : 6 ≤ M) (heven : M % 2 = 0) (cs : List (Call κ ρ)) :
    ∃ t, runCalls (BStarPlusTree.new M) cs = some t ∧
      (∀ k, t.find k = some (rowMap cs k) ∧ (rowMap cs k).Nodup ∧
        ∀ r, r ∈ rowMap cs k ↔ Live cs k r) ∧
      ∀ lower upper, ∃ es, t.rangeScan lower upper = some es ∧
        es.Pairwise (fun e f => e.key < f.key) ∧
        ∀ e, e ∈ es ↔ lower ≤ e.key ∧ e.key < upper ∧ e.rowIds = rowMap cs e.key ∧
          e.rowIds ≠ [] := by
  have hnew : (BStarPlusTree.new M : BStarPlusTree κ ρ).maxKeysPerNode = M := by
    simp only [BStarPlusTree.new]; omega
  obtain ⟨t, hrun, hv, horder, hm⟩ := runCalls_spec (t := BStarPlusTree.new M)
    (m := fun _ => []) (by omega) (by omega) BStarPlusTree.valid_new
    (fun k => by rw [BStarPlusTree.entries_new]; rfl) cs
  have hM1 : 1 ≤ t.maxKeysPerNode := by omega
  have hs := hv.sorted hM1
  refine ⟨t, hrun, fun k => ⟨?_, rowMap_live cs k⟩, fun lower upper => ?_⟩
  · rw [BStarPlusTree.find_spec hM1 hv, hm k]
    rfl
  · refine ⟨_, BStarPlusTree.rangeScan_spec hM1 hv lower upper,
      List.Pairwise.filter _ hs.1, fun e => ?_⟩
    rw [entriesBetween, List.mem_filter, mem_iff_rowsOf hs hv.rowsOk.ne_nil, hm e.key]
    simp only [Bool.and_eq_true, decide_eq_true_eq, rowMap]
    tauto

/-- The engine's order, with rows added and removed around a split. -/
theorem tree_refines_map_default_order :
    ∃ t, runCalls (BStarPlusTree.new 8)
        [.insert 3 0, .insert 5 1, .insert 3 2, .remove 3 (0 : Nat), .insert (1 : Nat) 4]
        = some t ∧ t.find 3 = some [2] := by
  obtain ⟨t, hrun, hfind, -⟩ := tree_refines_map 8 (by decide) (by decide)
    [.insert 3 0, .insert 5 1, .insert 3 2, .remove 3 (0 : Nat), .insert (1 : Nat) 4]
  exact ⟨t, hrun, by rw [(hfind 3).1]; rfl⟩

end CustomDbms.Index
