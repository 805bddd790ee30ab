/-
  CustomDbms.Index.Validate
  ─────────────────────────
  **`ValidateCanonicalInvariants` ACCEPTS EVERY VALID TREE.**

  `ValidateNode` walks the tree from left to right and threads the last leaf it
  has seen through `previous_leaf`; `none` is its answer `false`.
-/
import CustomDbms.Index.Refinement

namespace CustomDbms.Index

open CustomDbms.Lib

set_option linter.unusedSectionVars false

variable {κ ρ : Type} [LinearOrder κ] [DecidableEq ρ]

/-! ## §1. The checker. -/

/-- `*previous_leaf`: the leaf seen last, with its entries. -/
abbrev LeafSeen (κ ρ : Type) := Option (Addr × List (IndexEntry κ ρ))

/-- The loop over `keys[index - 1] >= keys[index]`. -/
def strictlyIncreasing : List κ → Bool
  | [] => true
  | [_] => true
  | k :: k' :: ks => decide (k < k') && strictlyIncreasing (k' :: ks)

/-- The checks of `ValidateNode` on a leaf. -/
def validateLeaf (L : Links) (a : Addr) (es : List (IndexEntry κ ρ)) (minKey maxKey : Option κ)
    (previous : LeafSeen κ ρ) : Bool :=
  es.all (fun e => (minKey.all fun m => decide (m ≤ e.key)) &&
    (maxKey.all fun m => decide (e.key < m)) && !e.rowIds.isEmpty) &&
  match previous with
  | none => (L.prev a).isNone
  | some (b, fs) =>
      decide (L.next b = some a) && decide (L.prev a = some b) &&
      match fs.getLast?, es.head? with
      | some f, some e => decide (f.key < e.key)
      | _, _ => true

/-- The recursion of `ValidateNode` over the children of one node. -/
def validateChildren (check : Option κ → Option κ → Node κ ρ → LeafSeen κ ρ → Option (LeafSeen κ ρ))
    (maxKey : Option κ) : Option κ → List κ → List (Node κ ρ) → LeafSeen κ ρ →
    Option (LeafSeen κ ρ)
  | minKey, [], [c], previous => check minKey maxKey c previous
  | minKey, k :: ks, c :: cs, previous =>
      match check minKey (some k) c previous with
      | none => none
      | some previous' => validateChildren check maxKey (some k) ks cs previous'
  | _, _, _, _ => none

/-- `ValidateNode`; `fuel` is the height. -/
def validateNode (M : Nat) (L : Links) (expectedLeafDepth : Nat) :
    Nat → (isRoot parentIsRoot : Bool) → (currentDepth : Nat) → (minKey maxKey : Option κ) →
    Node κ ρ → LeafSeen κ ρ → Option (LeafSeen κ ρ)
  | 0, _, _, _, _, _, _, _ => none
  | _ + 1, _, _, _, _, _, .null, _ => none
  | _ + 1, isRoot, parentIsRoot, depth, minKey, maxKey, .leaf a es, previous =>
      if es.length ≤ M ∧ strictlyIncreasing (es.map (·.key)) ∧
          (isRoot ∨ parentIsRoot ∨ minKeys M ≤ es.length) ∧ depth = expectedLeafDepth ∧
          validateLeaf L a es minKey maxKey previous
      then some (some (a, es)) else none
  | fuel + 1, isRoot, parentIsRoot, depth, minKey, maxKey, .internal ks cs, previous =>
      if ks.length ≤ M ∧ strictlyIncreasing ks ∧
          (isRoot ∨ parentIsRoot ∨ minKeys M ≤ ks.length) ∧ cs.length = ks.length + 1
      then validateChildren (validateNode M L expectedLeafDepth fuel false isRoot (depth + 1))
        maxKey minKey ks cs previous
      else none

/-- The depth of the leftmost leaf. -/
def leftmostDepth : Nat → Node κ ρ → Option Nat
  | 0, _ => none
  | _ + 1, .null => none
  | _ + 1, .leaf _ _ => some 0
  | fuel + 1, .internal _ cs =>
      match cs with
      | [] => none
      | c :: _ => (leftmostDepth fuel c).map (· + 1)

/-- `ValidateCanonicalInvariants`. -/
def BStarPlusTree.validateCanonicalInvariants (t : BStarPlusTree κ ρ) : Bool :=
  match leftmostDepth t.root.height t.root with
  | none => false
  | some depth =>
      match validateNode t.maxKeysPerNode t.links depth t.root.height true false 0 none none
          t.root none with
      | none => false
      | some none => true
      | some (some (a, _)) => (t.links.next a).isNone

/-! ## §2. Valid trees pass. -/

theorem strictlyIncreasing_of_pairwise {ks : List κ} (h : ks.Pairwise (· < ·)) :
    strictlyIncreasing ks = true := by
  induction ks with
  | nil => rfl
  | cons k ks ih =>
      cases ks with
      | nil => rfl
      | cons k' ks =>
          obtain ⟨h1, h2⟩ := List.pairwise_cons.mp h
          simp [strictlyIncreasing, h1 k' (by simp), ih h2]

theorem WF.leftmostDepth {M : Nat} : ∀ {h l u : Nat} {lo hi : Option κ} {n : Node κ ρ},
    WF M h l u lo hi n → Index.leftmostDepth (h + 1) n = some h
  | 0, _, _, _, _, n, hw => by
      obtain ⟨a, es, rfl, -⟩ := hw.leaf_cases
      rfl
  | h + 1, l, u, lo, hi, n, hw => by
      obtain ⟨ks, cs, rfl, hc, -, -⟩ := hw.internal_cases
      cases cs with
      | nil =>
          have := sepChain_length hc
          simp at this
      | cons c cs =>
          have hcw := ((sepChain_cons ..).mp hc).1
          simp [Index.leftmostDepth, WF.leftmostDepth hcw]

/-- The leaf seen last stands at the end of `A`, and its keys come first. -/
def SeenBefore (previous : LeafSeen κ ρ) (A : List Addr) (es : List (IndexEntry κ ρ)) : Prop :=
  previous.map (·.1) = A.getLast? ∧ ∀ p ∈ previous, ∀ f ∈ p.2, ∀ e ∈ es, f.key < e.key

theorem validateLeaf_of_sorted {L : Links} {a : Addr} {es : List (IndexEntry κ ρ)}
    {lo hi : Option κ} {previous : LeafSeen κ ρ} {A B : List Addr} (hs : SortedIn lo hi es)
    (hr : RowsOk es) (hl : L.Linked (A ++ a :: B)) (hp : SeenBefore previous A es) :
    validateLeaf L a es lo hi previous = true := by
  obtain ⟨hpa, hpk⟩ := hp
  have hseg : Links.Seg L none (A ++ [a]) B.head? := hl.around.1
  have hprev : L.prev a = A.getLast? := by
    have := (Links.seg_append.mp hseg).2.1
    simpa using this
  unfold validateLeaf
  rw [Bool.and_eq_true]
  constructor
  · rw [List.all_eq_true]
    intro e he
    obtain ⟨h1, h2⟩ := hs.2 e he
    have h3 := (hr e he).1
    cases lo <;> cases hi <;> simp_all
  · cases previous with
    | none =>
        have : A.getLast? = none := by simpa using hpa.symm
        simp [hprev, this]
    | some p =>
        obtain ⟨b, fs⟩ := p
        have hlast : A.getLast? = some b := by simpa using hpa.symm
        obtain ⟨A', rfl⟩ : ∃ A', A = A' ++ [b] := by
          rcases List.eq_nil_or_concat' A with rfl | ⟨A', c, rfl⟩
          · simp at hlast
          · exact ⟨A', by simpa using hlast⟩
        have hnext : L.next b = some a := by
          have hl' : L.Linked (A' ++ b :: a :: B) := by simpa using hl
          exact hl'.around.2.2
        simp only [hprev, hlast, hnext, decide_true, Bool.true_and]
        split
        · rename_i f e hf he
          have hfm := List.mem_of_getLast? hf
          have hem := List.mem_of_mem_head? he
          simpa using hpk (b, fs) rfl f hfm e hem
        · rfl

/-- The check of the children in turn, from the check of one child. -/
theorem validateChildren_of_chain {M h : Nat} (hM : 1 ≤ M) {L : Links} {hi : Option κ}
    {check : Option κ → Option κ → Node κ ρ → LeafSeen κ ρ → Option (LeafSeen κ ρ)}
    (hcheck : ∀ {lo hi : Option κ} {c : Node κ ρ} {previous : LeafSeen κ ρ} {A B : List Addr},
      WF M h (minKeys M) M lo hi c → L.Linked (A ++ c.addrs ++ B) →
      SeenBefore previous A c.entries →
      ∃ p, check lo hi c previous = some (some p) ∧ c.leaves.getLast? = some p)
    {ks : List κ} {cs : List (Node κ ρ)} {lo : Option κ} {previous : LeafSeen κ ρ}
    {A B : List Addr} (hc : ChildrenWF M h lo hi ks cs)
    (hl : L.Linked (A ++ addrsOf cs ++ B)) (hp : SeenBefore previous A (entriesOf cs)) :
    ∃ p, validateChildren check hi lo ks cs previous = some (some p) ∧
      (Node.leavesOf cs).getLast? = some p := by
  induction ks generalizing lo cs A previous with
  | nil =>
      obtain ⟨c, rfl⟩ := List.length_eq_one_iff.mp (sepChain_length hc)
      have hcw : WF M h (minKeys M) M lo hi c := hc
      obtain ⟨p, hv, hlast⟩ := hcheck hcw (by simpa using hl) (by simpa using hp)
      exact ⟨p, hv, by simpa [Node.leavesOf] using hlast⟩
  | cons k ks ih =>
      cases cs with
      | nil => exact hc.elim
      | cons c cs =>
          obtain ⟨hcw, hrest⟩ := hc
          rw [entriesOf_cons] at hp
          obtain ⟨p, hv, hlast⟩ := hcheck (A := A) (B := addrsOf cs ++ B) hcw (by simpa using hl)
            ⟨hp.1, fun q hq f hf e he => hp.2 q hq f hf e (List.mem_append_left _ he)⟩
          have hadr : (A ++ c.addrs).getLast? = some p.1 := by
            have hca : c.addrs.getLast? = some p.1 := by
              simp [Node.addrs, hlast]
            simp [List.getLast?_append, hca]
          -- the keys of the last leaf of `c` stay below `k`, those behind do not
          have hseen : SeenBefore (some p) (A ++ c.addrs) (entriesOf cs) := by
            refine ⟨by simpa using hadr.symm, ?_⟩
            intro q hq f hf e he
            obtain rfl : p = q := by simpa using hq
            have hfc : f ∈ c.entries :=
              List.mem_flatMap.mpr ⟨p, List.mem_of_getLast? hlast, hf⟩
            exact lt_of_lt_of_le ((hcw.sorted hM).2 f hfc).2
              ((childrenWF_sorted hM hrest).2 e he).1
          obtain ⟨p', hv', hlast'⟩ := ih (A := A ++ c.addrs) hrest (by simpa using hl) hseen
          refine ⟨p', ?_, ?_⟩
          · rw [validateChildren, hv]
            exact hv'
          · simp [Node.leavesOf, List.getLast?_append, hlast']

/-- What a successful check leaves behind: the last leaf of the node. -/
theorem validateNode_of_wf {M : Nat} (hM : 1 ≤ M) {L : Links} {E : Nat} :
    ∀ {h l : Nat} {lo hi : Option κ} {n : Node κ ρ} (isRoot parentIsRoot : Bool) {depth : Nat}
      {previous : LeafSeen κ ρ} {A B : List Addr}, WF M h l M lo hi n → depth + h = E →
      (isRoot = true ∨ parentIsRoot = true ∨ minKeys M ≤ l) → L.Linked (A ++ n.addrs ++ B) →
      SeenBefore previous A n.entries →
      ∃ p, validateNode M L E (h + 1) isRoot parentIsRoot depth lo hi n previous = some (some p) ∧
        n.leaves.getLast? = some p
  | 0, l, lo, hi, n, isRoot, parentIsRoot, depth, previous, A, B, hw, hd, hmin, hl, hp => by
      obtain ⟨a, es, rfl, hs, hr, h1, h2⟩ := hw.leaf_cases
      have hinc := strictlyIncreasing_of_pairwise (sortedIn_iff_keys.mp hs).1
      have hleaf := validateLeaf_of_sorted hs hr (A := A) (B := B) (by simpa using hl)
        (by simpa using hp)
      have hm : isRoot = true ∨ parentIsRoot = true ∨ minKeys M ≤ es.length :=
        hmin.imp_right (Or.imp_right fun h => Nat.le_trans h h1)
      refine ⟨(a, es), ?_, rfl⟩
      rw [validateNode, if_pos ⟨h2, hinc, hm, by omega, hleaf⟩]
  | h + 1, l, lo, hi, n, isRoot, parentIsRoot, depth, previous, A, B, hw, hd, hmin, hl, hp => by
      obtain ⟨ks, cs, rfl, hc, h1, h2⟩ := hw.internal_cases
      have hinc := strictlyIncreasing_of_pairwise (childrenWF_separators hM hc).increasing
      have hm : isRoot = true ∨ parentIsRoot = true ∨ minKeys M ≤ ks.length :=
        hmin.imp_right (Or.imp_right fun h => Nat.le_trans h h1)
      rw [validateNode, if_pos ⟨h2, hinc, hm, sepChain_length hc⟩]
      simp only [addrs_internal, entries_internal, Node.leaves] at hl hp ⊢
      refine validateChildren_of_chain hM ?_ hc hl hp
      intro lo' hi' c previous' A' B' hcw hl' hp'
      exact validateNode_of_wf hM false isRoot hcw (by omega) (Or.inr (Or.inr (Nat.le_refl _)))
        hl' hp'

/-- **`ValidateCanonicalInvariants` accepts every valid tree.** -/
theorem BStarPlusTree.Valid.validates {t : BStarPlusTree κ ρ} (ht : t.Valid)
    (hM : 1 ≤ t.maxKeysPerNode) : t.validateCanonicalInvariants = true := by
  obtain ⟨⟨h, hw⟩, hl⟩ := ht
  obtain ⟨p, hv, hlast⟩ := validateNode_of_wf (A := []) (B := []) hM true false
    hw (Nat.zero_add h) (Or.inl rfl) (by simpa using hl)
    (show SeenBefore none [] t.root.entries from ⟨rfl, by simp⟩)
  unfold validateCanonicalInvariants
  rw [hw.height hM, hw.leftmostDepth]
  simp only [hv]
  -- the chain ends behind the last leaf
  have hadr : t.root.addrs.getLast? = some p.1 := by
    simp [Node.addrs, hlast]
  obtain ⟨A, hA⟩ : ∃ A, t.root.addrs = A ++ [p.1] := by
    rcases List.eq_nil_or_concat' t.root.addrs with h0 | ⟨A, c, hA⟩
    · rw [h0] at hadr
      simp at hadr
    · rw [hA] at hadr
      exact ⟨A, by rw [hA]; simpa using hadr⟩
  rw [hA] at hl
  simp [hl.around.2.2]

end CustomDbms.Index
