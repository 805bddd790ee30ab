/-
  CustomDbms.Index.Invariant
  ──────────────────────────
  **THE TREE INVARIANT.**

  `WF M h l u lo hi n` — `n` is a subtree of uniform height `h` whose keys lie
  in `[lo, hi)`, with between `l` and `u` keys in `n` itself and between
  `minKeys M` and `M` keys in every node below it.  The bounds `l`, `u` of the
  top node are parameters because the root may be nearly empty and a node just
  edited may be short of one key; everything below is canonical.

  `Ordered h lo hi n` is the part of it that a lookup needs: a search tree of
  uniform height, with sorted leaves between increasing separators.

  Two readings of a subtree carry the refinement: `entries`, its entries from
  left to right, and `addrs`, the addresses of its leaves from left to right,
  along which the leaf chain must run (`Links.Linked`).
-/
import CustomDbms.Index.Entries

namespace CustomDbms.Index

open CustomDbms.Lib

set_option linter.unusedSectionVars false

variable {κ ρ : Type} [LinearOrder κ] [DecidableEq ρ]

/-! ## §1. The entries and the leaves of a subtree. -/

/-- The entries below a list of nodes, left to right. -/
def entriesOf (cs : List (Node κ ρ)) : List (IndexEntry κ ρ) :=
  (Node.leavesOf cs).flatMap (·.2)

/-- The leaf addresses below a list of nodes, left to right. -/
def addrsOf (cs : List (Node κ ρ)) : List Addr := (Node.leavesOf cs).map (·.1)

/-- The entries of a subtree, left to right. -/
def Node.entries (n : Node κ ρ) : List (IndexEntry κ ρ) := n.leaves.flatMap (·.2)

/-- The leaf addresses of a subtree, left to right. -/
def Node.addrs (n : Node κ ρ) : List Addr := n.leaves.map (·.1)

theorem leavesOf_append (A B : List (Node κ ρ)) :
    Node.leavesOf (A ++ B) = Node.leavesOf A ++ Node.leavesOf B := by
  induction A with
  | nil => rfl
  | cons c A ih => simp [Node.leavesOf, ih]

@[simp] theorem entriesOf_nil : entriesOf ([] : List (Node κ ρ)) = [] := rfl
@[simp] theorem entriesOf_cons (c : Node κ ρ) (cs : List (Node κ ρ)) :
    entriesOf (c :: cs) = c.entries ++ entriesOf cs := by
  simp [entriesOf, Node.entries, Node.leavesOf]
@[simp] theorem entriesOf_append (A B : List (Node κ ρ)) :
    entriesOf (A ++ B) = entriesOf A ++ entriesOf B := by
  simp [entriesOf, leavesOf_append]
@[simp] theorem addrsOf_nil : addrsOf ([] : List (Node κ ρ)) = [] := rfl
@[simp] theorem addrsOf_cons (c : Node κ ρ) (cs : List (Node κ ρ)) :
    addrsOf (c :: cs) = c.addrs ++ addrsOf cs := by
  simp [addrsOf, Node.addrs, Node.leavesOf]
@[simp] theorem addrsOf_append (A B : List (Node κ ρ)) :
    addrsOf (A ++ B) = addrsOf A ++ addrsOf B := by
  simp [addrsOf, leavesOf_append]
@[simp] theorem entries_leaf (a : Addr) (es : List (IndexEntry κ ρ)) :
    (Node.leaf a es).entries = es := by simp [Node.entries, Node.leaves]
@[simp] theorem entries_internal (ks : List κ) (cs : List (Node κ ρ)) :
    (Node.internal ks cs).entries = entriesOf cs := by
  simp [Node.entries, Node.leaves, entriesOf]
@[simp] theorem addrs_leaf (a : Addr) (es : List (IndexEntry κ ρ)) :
    (Node.leaf a es).addrs = [a] := by simp [Node.addrs, Node.leaves]
@[simp] theorem addrs_internal (ks : List κ) (cs : List (Node κ ρ)) :
    (Node.internal ks cs).addrs = addrsOf cs := by
  simp [Node.addrs, Node.leaves, addrsOf]

@[simp] theorem keyCount_leaf (a : Addr) (es : List (IndexEntry κ ρ)) :
    (Node.leaf a es).keyCount = es.length := rfl
@[simp] theorem keyCount_internal (ks : List κ) (cs : List (Node κ ρ)) :
    (Node.internal ks cs).keyCount = ks.length := rfl

/-! ## §2. Well-formed subtrees. -/

/-- The structural invariant of a subtree of height `h`. -/
def WF (M : Nat) : Nat → Nat → Nat → Option κ → Option κ → Node κ ρ → Prop
  | 0, l, u, lo, hi, .leaf _ es =>
      SortedIn lo hi es ∧ RowsOk es ∧ l ≤ es.length ∧ es.length ≤ u
  | h + 1, l, u, lo, hi, .internal ks cs =>
      SepChain (WF M h (minKeys M) M) lo ks cs hi ∧ l ≤ ks.length ∧ ks.length ≤ u
  | _, _, _, _, _, _ => False

/-- A node as the parent of canonical children of height `h`. -/
abbrev ChildrenWF (M h : Nat) (lo hi : Option κ) (ks : List κ) (cs : List (Node κ ρ)) : Prop :=
  SepChain (WF M h (minKeys M) M) lo ks cs hi

theorem WF.leaf_cases {M l u : Nat} {lo hi : Option κ} {n : Node κ ρ}
    (h : WF M 0 l u lo hi n) :
    ∃ a es, n = .leaf a es ∧ SortedIn lo hi es ∧ RowsOk es ∧ l ≤ es.length ∧ es.length ≤ u := by
  cases n with
  | null => exact h.elim
  | leaf a es => exact ⟨a, es, rfl, h⟩
  | internal ks cs => exact h.elim

theorem WF.internal_cases {M h l u : Nat} {lo hi : Option κ} {n : Node κ ρ}
    (hw : WF M (h + 1) l u lo hi n) :
    ∃ ks cs, n = .internal ks cs ∧ ChildrenWF M h lo hi ks cs ∧ l ≤ ks.length ∧
      ks.length ≤ u := by
  cases n with
  | null => exact hw.elim
  | leaf a es => exact hw.elim
  | internal ks cs => exact ⟨ks, cs, rfl, hw⟩

theorem WF.mono {M h l u l' u' : Nat} {lo hi : Option κ} {n : Node κ ρ}
    (hw : WF M h l u lo hi n) (hl : l' ≤ n.keyCount) (hu : n.keyCount ≤ u') :
    WF M h l' u' lo hi n := by
  cases h with
  | zero =>
      obtain ⟨a, es, rfl, h1, h2, h3, h4⟩ := hw.leaf_cases
      exact ⟨h1, h2, hl, hu⟩
  | succ h =>
      obtain ⟨ks, cs, rfl, h1, h2, h3⟩ := hw.internal_cases
      exact ⟨h1, hl, hu⟩

theorem WF.keyCount {M h l u : Nat} {lo hi : Option κ} {n : Node κ ρ}
    (hw : WF M h l u lo hi n) : l ≤ n.keyCount ∧ n.keyCount ≤ u := by
  cases h with
  | zero =>
      obtain ⟨a, es, rfl, h1, h2, h3, h4⟩ := hw.leaf_cases
      exact ⟨h3, h4⟩
  | succ h =>
      obtain ⟨ks, cs, rfl, h1, h2, h3⟩ := hw.internal_cases
      exact ⟨h2, h3⟩

theorem WF.isLeaf {M h l u : Nat} {lo hi : Option κ} {n : Node κ ρ}
    (hw : WF M h l u lo hi n) : n.isLeaf = decide (h = 0) := by
  cases h with
  | zero => obtain ⟨a, es, rfl, -⟩ := hw.leaf_cases; rfl
  | succ h => obtain ⟨ks, cs, rfl, -⟩ := hw.internal_cases; rfl

theorem WF.ne_null {M h l u : Nat} {lo hi : Option κ} {n : Node κ ρ}
    (hw : WF M h l u lo hi n) : n ≠ .null := by
  rintro rfl
  cases h <;> exact hw.elim

/-- A dereferenced child that is really there. -/
theorem child_mid {ks : List κ} {C₁ C₂ : List (Node κ ρ)} {c : Node κ ρ} {L : Links} {n : Nat}
    (hn : C₁.length = n) (hc : c ≠ .null) :
    (Parent.mk ks (C₁ ++ c :: C₂) L).child n = some c := by
  unfold Parent.child
  simp only [getElem?_mid hn]
  cases c <;> simp_all

theorem child_mid_one {ks : List κ} {C₁ C₂ : List (Node κ ρ)} {b c : Node κ ρ} {L : Links}
    {n : Nat} (hn : C₁.length = n) (hc : c ≠ .null) :
    (Parent.mk ks (C₁ ++ b :: c :: C₂) L).child (n + 1) = some c := by
  unfold Parent.child
  simp only [getElem?_mid_one hn]
  cases c <;> simp_all

theorem child_mid_two {ks : List κ} {C₁ C₂ : List (Node κ ρ)} {a b c : Node κ ρ} {L : Links}
    {n : Nat} (hn : C₁.length = n) (hc : c ≠ .null) :
    (Parent.mk ks (C₁ ++ a :: b :: c :: C₂) L).child (n + 2) = some c := by
  unfold Parent.child
  simp only [getElem?_mid_two hn]
  cases c <;> simp_all

/-! ## §3. What the invariant gives: bounds, separators, rows. -/

theorem minKeys_pos {M : Nat} (hM : 1 ≤ M) : 1 ≤ minKeys M := by
  unfold minKeys; omega

/-- A subtree that holds a key has room between its bounds. -/
theorem WF.before {M : Nat} (hM : 1 ≤ M) : ∀ {h l u : Nat} {lo hi : Option κ} {n : Node κ ρ},
    WF M h l u lo hi n → (h = 0 → 1 ≤ n.keyCount) → Before lo hi
  | 0, l, u, lo, hi, n, hw, hl => by
      obtain ⟨a, es, rfl, hs, -, -, -⟩ := hw.leaf_cases
      refine hs.before ?_
      rintro rfl
      simpa [Node.keyCount] using hl rfl
  | h + 1, l, u, lo, hi, n, hw, hl => by
      obtain ⟨ks, cs, rfl, hc, -, -⟩ := hw.internal_cases
      have hmin := minKeys_pos hM
      exact sepChain_before
        (fun hcw => WF.before hM hcw fun _ => Nat.le_trans hmin hcw.keyCount.1) hc

/-- A canonical child has room between its bounds. -/
theorem WF.before_child {M h : Nat} (hM : 1 ≤ M) {lo hi : Option κ} {n : Node κ ρ}
    (hw : WF M h (minKeys M) M lo hi n) : Before lo hi :=
  hw.before hM (fun _ => Nat.le_trans (minKeys_pos hM) hw.keyCount.1)

theorem childrenWF_separators {M h : Nat} (hM : 1 ≤ M) {lo hi : Option κ} {ks : List κ}
    {cs : List (Node κ ρ)} (hc : ChildrenWF M h lo hi ks cs) : Separators lo hi ks :=
  sepChain_separators (WF.before_child hM) hc

/-- Every entry of a subtree has rows, each once. -/
theorem WF.rowsOk {M : Nat} : ∀ {h l u : Nat} {lo hi : Option κ} {n : Node κ ρ},
    WF M h l u lo hi n → RowsOk n.entries
  | 0, _, _, _, _, n, hw => by
      obtain ⟨a, es, rfl, -, hr, -⟩ := hw.leaf_cases
      simpa using hr
  | h + 1, l, u, lo, hi, n, hw => by
      obtain ⟨ks, cs, rfl, hc, -, -⟩ := hw.internal_cases
      clear hw
      rw [entries_internal]
      induction ks generalizing lo cs with
      | nil =>
          obtain ⟨c, rfl⟩ := List.length_eq_one_iff.mp (sepChain_length hc)
          simpa using WF.rowsOk hc
      | cons k ks ih =>
          cases cs with
          | nil => exact hc.elim
          | cons c cs =>
              rw [entriesOf_cons, rowsOk_append]
              exact ⟨WF.rowsOk hc.1, ih _ cs hc.2⟩

/-! ## §4. Search trees: what a lookup needs of the invariant. -/

/-- `UpperBound` cuts the separators where the key belongs. -/
theorem upperBound_cut (ks : List κ) (key : κ) :
    ∃ K₁ K₂, ks = K₁ ++ K₂ ∧ K₁.length = upperBound ks key ∧ (∀ k ∈ K₁, k ≤ key) ∧
      ∀ k ∈ K₂.head?, key < k := by
  induction ks with
  | nil => exact ⟨[], [], rfl, rfl, by simp, by simp⟩
  | cons k ks ih =>
      by_cases h : k ≤ key
      · obtain ⟨K₁, K₂, hks, hlen, h1, h2⟩ := ih
        refine ⟨k :: K₁, K₂, by rw [hks, List.cons_append], ?_, ?_, h2⟩
        · simpa [upperBound, h] using hlen
        · intro x hx
          rcases List.mem_cons.mp hx with rfl | hx
          · exact h
          · exact h1 x hx
      · refine ⟨[], k :: ks, rfl, by simp [upperBound, h], by simp, ?_⟩
        intro x hx
        simp only [List.head?_cons, Option.mem_some_iff] at hx
        rw [← hx]
        exact not_le.mp h

section Chains

variable {P : Option κ → Option κ → Node κ ρ → Prop}
  (hP : ∀ {lo hi : Option κ} {c : Node κ ρ}, P lo hi c → SortedIn lo hi c.entries)

include hP

/-- Sorted children between increasing separators are sorted in a row. -/
theorem sepChain_sorted {lo hi : Option κ} {ks : List κ} {cs : List (Node κ ρ)}
    (hc : SepChain P lo ks cs hi) (hks : Separators lo hi ks) : SortedIn lo hi (entriesOf cs) := by
  induction ks generalizing lo cs with
  | nil =>
      obtain ⟨c, rfl⟩ := List.length_eq_one_iff.mp (sepChain_length hc)
      simpa using hP hc
  | cons k ks ih =>
      cases cs with
      | nil => exact hc.elim
      | cons c cs =>
          rw [entriesOf_cons]
          have hk := hks.within k (by simp)
          exact (hP hc.1).glue (ih hc.2 hks.tail) hk.1 hk.2

/-- The children left of the target hold smaller keys only. -/
theorem sepLeft_below {lo : Option κ} {K : List κ} {C : List (Node κ ρ)} {key : κ}
    (hs : SepLeft P lo K C) (hK : ∀ k ∈ K, k ≤ key) : ∀ e ∈ entriesOf C, e.key < key := by
  induction K generalizing lo C with
  | nil =>
      cases C with
      | nil => simp
      | cons c C => exact hs.elim
  | cons k K ih =>
      cases C with
      | nil => exact hs.elim
      | cons c C =>
          intro e he
          rw [entriesOf_cons, List.mem_append] at he
          rcases he with he | he
          · exact lt_of_lt_of_le ((hP hs.1).2 e he).2 (hK k (by simp))
          · exact ih hs.2 (fun x hx => hK x (by simp [hx])) e he

/-- The children right of the target hold greater keys only. -/
theorem sepRight_above {hi : Option κ} {K : List κ} {C : List (Node κ ρ)} {key : κ}
    (hs : SepRight P K C hi) (hK : ∀ k ∈ K, key < k) : ∀ e ∈ entriesOf C, key < e.key := by
  induction K generalizing C with
  | nil =>
      cases C with
      | nil => simp
      | cons c C => exact hs.elim
  | cons k K ih =>
      cases C with
      | nil => exact hs.elim
      | cons c C =>
          intro e he
          rw [entriesOf_cons, List.mem_append] at he
          rcases he with he | he
          · exact lt_of_lt_of_le (hK k (by simp)) ((hP hs.1).2 e he).1
          · exact ih hs.2 (fun x hx => hK x (by simp [hx])) e he

/-- **Routing.**  A key within the bounds of a node belongs to the child at
`UpperBound`; left of it all keys are smaller, right of it all are greater. -/
theorem sepChain_route {lo hi : Option κ} {ks : List κ} {cs : List (Node κ ρ)}
    (hc : SepChain P lo ks cs hi) (hks : ks.Pairwise (· < ·)) {key : κ}
    (hlo : Above lo key) (hhi : Below hi key) :
    ∃ K₁ K₂ C₁ c C₂, ks = K₁ ++ K₂ ∧ cs = C₁ ++ c :: C₂ ∧
      K₁.length = upperBound ks key ∧ C₁.length = upperBound ks key ∧
      SepLeft P lo K₁ C₁ ∧ P (lastOr lo K₁) (headOr K₂ hi) c ∧ SepRight P K₂ C₂ hi ∧
      Above (lastOr lo K₁) key ∧ Below (headOr K₂ hi) key ∧
      (∀ e ∈ entriesOf C₁, e.key < key) ∧ ∀ e ∈ entriesOf C₂, key < e.key := by
  obtain ⟨K₁, K₂, rfl, hlen, h1, h2⟩ := upperBound_cut ks key
  have hcs := sepChain_length hc
  obtain ⟨C₁, c, C₂, rfl, hC⟩ := exists_cut_at (l := cs) (i := K₁.length) (by
    simp at hcs; omega)
  obtain ⟨hL, hw, hR⟩ := (sepChain_focus hC).mp hc
  -- the separators right of the key increase from the first of them
  have habove : ∀ k ∈ K₂, key < k := by
    intro k hk
    cases K₂ with
    | nil => cases hk
    | cons k₀ K₂ =>
        have hfirst : key < k₀ := h2 k₀ rfl
        have htail := (List.pairwise_cons.mp (List.pairwise_append.mp hks).2.1).1
        rcases List.mem_cons.mp hk with rfl | hk
        · exact hfirst
        · exact lt_trans hfirst (htail k hk)
  refine ⟨K₁, K₂, C₁, c, C₂, rfl, rfl, hlen, hC.trans hlen, hL, hw, hR, ?_, ?_,
    sepLeft_below hP hL h1, sepRight_above hP hR habove⟩
  · rcases List.eq_nil_or_concat' K₁ with rfl | ⟨l, b, rfl⟩
    · exact hlo
    · rw [lastOr_concat]
      exact h1 b (by simp)
  · cases K₂ with
    | nil => exact hhi
    | cons k K₂ => exact h2 k rfl

end Chains

/-- A search tree of uniform height, whatever its nodes hold. -/
def Ordered : Nat → Option κ → Option κ → Node κ ρ → Prop
  | 0, lo, hi, .leaf _ es => SortedIn lo hi es
  | h + 1, lo, hi, .internal ks cs => SepChain (Ordered h) lo ks cs hi ∧ Separators lo hi ks
  | _, _, _, _ => False

theorem Ordered.leaf_cases {lo hi : Option κ} {n : Node κ ρ} (hn : Ordered 0 lo hi n) :
    ∃ a es, n = .leaf a es ∧ SortedIn lo hi es := by
  cases n with
  | null => exact hn.elim
  | leaf a es => exact ⟨a, es, rfl, hn⟩
  | internal ks cs => exact hn.elim

theorem Ordered.internal_cases {h : Nat} {lo hi : Option κ} {n : Node κ ρ}
    (hn : Ordered (h + 1) lo hi n) :
    ∃ ks cs, n = .internal ks cs ∧ SepChain (Ordered h) lo ks cs hi ∧ Separators lo hi ks := by
  cases n with
  | null => exact hn.elim
  | leaf a es => exact hn.elim
  | internal ks cs => exact ⟨ks, cs, rfl, hn⟩

/-- The entries of a search tree are sorted and within its bounds. -/
theorem Ordered.sorted : ∀ {h : Nat} {lo hi : Option κ} {n : Node κ ρ},
    Ordered h lo hi n → SortedIn lo hi n.entries
  | 0, lo, hi, n, hn => by
      obtain ⟨a, es, rfl, hs⟩ := hn.leaf_cases
      simpa using hs
  | h + 1, lo, hi, n, hn => by
      obtain ⟨ks, cs, rfl, hc, hks⟩ := hn.internal_cases
      rw [entries_internal]
      exact sepChain_sorted Ordered.sorted hc hks

/-- All paths of a search tree have the same length. -/
theorem Ordered.height : ∀ {h : Nat} {lo hi : Option κ} {n : Node κ ρ},
    Ordered h lo hi n → n.height = h + 1
  | 0, _, _, n, hn => by
      obtain ⟨a, es, rfl, -⟩ := hn.leaf_cases
      rfl
  | h + 1, lo, hi, n, hn => by
      obtain ⟨ks, cs, rfl, hc, -⟩ := hn.internal_cases
      clear hn
      suffices Node.heightOf cs = h + 1 by simp [Node.height, this]
      induction ks generalizing lo cs with
      | nil =>
          obtain ⟨c, rfl⟩ := List.length_eq_one_iff.mp (sepChain_length hc)
          simp [Node.heightOf, Ordered.height hc]
      | cons k ks ih =>
          cases cs with
          | nil => exact hc.elim
          | cons c cs => simp [Node.heightOf, Ordered.height hc.1, ih _ cs hc.2]

/-- `FindLeaf` splits the leaves where the key belongs. -/
theorem Ordered.findLeaf {key : κ} : ∀ {h : Nat} {lo hi : Option κ} {n : Node κ ρ},
    Ordered h lo hi n → Above lo key → Below hi key →
      ∃ a es P S, Index.findLeaf key (h + 1) n = some (a, es) ∧ n.leaves = P ++ (a, es) :: S ∧
        (∀ e ∈ P.flatMap (·.2), e.key < key) ∧ ∀ e ∈ S.flatMap (·.2), key < e.key
  | 0, lo, hi, n, hn, hlo, hhi => by
      obtain ⟨a, es, rfl, -⟩ := hn.leaf_cases
      exact ⟨a, es, [], [], rfl, rfl, by simp, by simp⟩
  | h + 1, lo, hi, n, hn, hlo, hhi => by
      obtain ⟨ks, cs, rfl, hc, hks⟩ := hn.internal_cases
      obtain ⟨K₁, K₂, C₁, c, C₂, rfl, rfl, hK, hC, -, hcn, -, hlo', hhi', hb, ha⟩ :=
        sepChain_route Ordered.sorted hc hks.increasing hlo hhi
      obtain ⟨a, es, P, S, hf, hleaves, hP, hS⟩ := Ordered.findLeaf hcn hlo' hhi'
      refine ⟨a, es, Node.leavesOf C₁ ++ P, S ++ Node.leavesOf C₂, ?_, ?_, ?_, ?_⟩
      · rw [Index.findLeaf, getElem?_mid hC]
        exact hf
      · simp [Node.leaves, leavesOf_append, Node.leavesOf, hleaves]
      · intro e he
        rw [List.flatMap_append, List.mem_append] at he
        exact he.elim (hb e) (hP e)
      · intro e he
        rw [List.flatMap_append, List.mem_append] at he
        exact he.elim (hS e) (ha e)

/-! ## §5. Well-formed subtrees are search trees. -/

theorem WF.ordered {M : Nat} (hM : 1 ≤ M) : ∀ {h l u : Nat} {lo hi : Option κ} {n : Node κ ρ},
    WF M h l u lo hi n → Ordered h lo hi n
  | 0, _, _, _, _, n, hw => by
      obtain ⟨a, es, rfl, hs, -⟩ := hw.leaf_cases
      exact hs
  | h + 1, l, u, lo, hi, n, hw => by
      obtain ⟨ks, cs, rfl, hc, -, -⟩ := hw.internal_cases
      exact ⟨hc.imp fun hcw => WF.ordered hM hcw, childrenWF_separators hM hc⟩

/-- The entries of a subtree are sorted and within its bounds. -/
theorem WF.sorted {M : Nat} (hM : 1 ≤ M) {h l u : Nat} {lo hi : Option κ} {n : Node κ ρ}
    (hw : WF M h l u lo hi n) : SortedIn lo hi n.entries :=
  (hw.ordered hM).sorted

theorem childrenWF_sorted {M h : Nat} (hM : 1 ≤ M) {lo hi : Option κ} {ks : List κ}
    {cs : List (Node κ ρ)} (hc : ChildrenWF M h lo hi ks cs) :
    SortedIn lo hi (entriesOf cs) :=
  sepChain_sorted (WF.sorted hM) hc (childrenWF_separators hM hc)

theorem WF.height {M : Nat} (hM : 1 ≤ M) {h l u : Nat} {lo hi : Option κ} {n : Node κ ρ}
    (hw : WF M h l u lo hi n) : n.height = h + 1 :=
  (hw.ordered hM).height

/-- A key within the bounds of a node belongs to the child at `UpperBound`. -/
theorem childrenWF_route {M h : Nat} (hM : 1 ≤ M) {lo hi : Option κ} {ks : List κ}
    {cs : List (Node κ ρ)} (hc : ChildrenWF M h lo hi ks cs) {key : κ}
    (hlo : Above lo key) (hhi : Below hi key) :
    ∃ K₁ K₂ C₁ c C₂, ks = K₁ ++ K₂ ∧ cs = C₁ ++ c :: C₂ ∧
      K₁.length = upperBound ks key ∧ C₁.length = upperBound ks key ∧
      SepLeft (WF M h (minKeys M) M) lo K₁ C₁ ∧
      WF M h (minKeys M) M (lastOr lo K₁) (headOr K₂ hi) c ∧
      SepRight (WF M h (minKeys M) M) K₂ C₂ hi ∧
      Above (lastOr lo K₁) key ∧ Below (headOr K₂ hi) key ∧
      (∀ e ∈ entriesOf C₁, e.key < key) ∧ ∀ e ∈ entriesOf C₂, key < e.key :=
  sepChain_route (WF.sorted hM) hc (childrenWF_separators hM hc).increasing hlo hhi

end CustomDbms.Index
