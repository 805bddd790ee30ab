/-
  CustomDbms.Index.CheckedTrees
  ─────────────────────────────
  **WHAT `ValidateCanonicalInvariants` ESTABLISHES.**

  The converse of `Index.Validate`, for a tree of which nothing is known but the
  answer of the check.  `ValidateNode` compares the keys of the leaves with
  their bounds, never a separator, and it lets the children of the root be
  empty; below them every leaf holds a key, which is what keeps the separators
  of an inner node between its bounds.

    • `checked_of_validateNode` — one node, by recursion over its height;
    • `BStarPlusTree.find_of_validates` — a checked tree finds what its entries
      say, so `Find` misses none of them.
-/
import CustomDbms.Index.Validate

namespace CustomDbms.Index

open CustomDbms.Lib

set_option linter.unusedSectionVars false

variable {κ ρ : Type} [LinearOrder κ] [DecidableEq ρ]

/-! ## §1. Keys and leaves. -/

theorem pairwise_of_strictlyIncreasing {ks : List κ} (h : strictlyIncreasing ks = true) :
    ks.Pairwise (· < ·) := by
  induction ks with
  | nil => exact List.Pairwise.nil
  | cons k ks ih =>
      cases ks with
      | nil => exact List.pairwise_singleton _ _
      | cons k' ks =>
          rw [strictlyIncreasing, Bool.and_eq_true, decide_eq_true_eq] at h
          have htail := ih h.2
          refine List.pairwise_cons.mpr ⟨fun x hx => ?_, htail⟩
          rcases List.mem_cons.mp hx with rfl | hx
          · exact h.1
          · exact lt_trans h.1 ((List.pairwise_cons.mp htail).1 x hx)

/-- A leaf that passes lies between its bounds, and none of its keys is without
rows. -/
theorem leaf_of_validateLeaf {L : Links} {a : Addr} {es : List (IndexEntry κ ρ)}
    {lo hi : Option κ} {previous : LeafSeen κ ρ}
    (h : validateLeaf L a es lo hi previous = true) :
    ∀ e ∈ es, (Above lo e.key ∧ Below hi e.key) ∧ e.rowIds ≠ [] := by
  intro e he
  unfold validateLeaf at h
  have hall := List.all_eq_true.mp ((Bool.and_eq_true _ _).mp h).1 e he
  simp only [Bool.and_eq_true, Bool.not_eq_true', List.isEmpty_eq_false_iff] at hall
  obtain ⟨⟨hlo, hhi⟩, hrows⟩ := hall
  refine ⟨⟨?_, ?_⟩, hrows⟩
  · cases lo with
    | none => exact above_none _
    | some m => simpa using hlo
  · cases hi with
    | none => exact below_none _
    | some m => simpa using hhi

/-! ## §2. Nodes. -/

/-- What the check of a node at `depth` establishes; a node that is neither the
root nor a child of it has entries. -/
structure Checked (M E depth : Nat) (nearRoot : Bool) (lo hi : Option κ) (n : Node κ ρ) :
    Prop where
  ordered : ∃ h, depth + h = E ∧ Ordered h lo hi n
  rows : ∀ e ∈ n.entries, e.rowIds ≠ []
  filled : nearRoot = false → 1 ≤ M → n.entries ≠ []

/-- A node with entries has room between its bounds. -/
theorem Checked.before {M E depth : Nat} {lo hi : Option κ} {n : Node κ ρ}
    (h : Checked M E depth false lo hi n) (hM : 1 ≤ M) : Before lo hi := by
  obtain ⟨k, -, hn⟩ := h.ordered
  exact hn.sorted.before (h.filled rfl hM)

/-- The children that pass in turn form a chain of checked nodes. -/
theorem sepChain_of_validateChildren {P : Option κ → Option κ → Node κ ρ → Prop}
    {check : Option κ → Option κ → Node κ ρ → LeafSeen κ ρ → Option (LeafSeen κ ρ)}
    (hcheck : ∀ {lo hi : Option κ} {c : Node κ ρ} {previous p : LeafSeen κ ρ},
      check lo hi c previous = some p → P lo hi c)
    {hi lo : Option κ} {ks : List κ} {cs : List (Node κ ρ)} {previous p : LeafSeen κ ρ}
    (h : validateChildren check hi lo ks cs previous = some p) : SepChain P lo ks cs hi := by
  induction ks generalizing lo cs previous with
  | nil =>
      cases cs with
      | nil => cases h
      | cons c cs =>
          cases cs with
          | nil => exact hcheck h
          | cons c' cs => cases h
  | cons k ks ih =>
      cases cs with
      | nil => cases h
      | cons c cs =>
          rw [validateChildren] at h
          cases hc : check lo (some k) c previous with
          | none =>
              rw [hc] at h
              cases h
          | some p' =>
              rw [hc] at h
              exact ⟨hcheck hc, ih h⟩

/-- What holds of the entries of each child holds of all entries of the node. -/
theorem sepChain_entries {P : Option κ → Option κ → Node κ ρ → Prop}
    {Q : IndexEntry κ ρ → Prop}
    (hPQ : ∀ {lo hi : Option κ} {c : Node κ ρ}, P lo hi c → ∀ e ∈ c.entries, Q e)
    {lo hi : Option κ} {ks : List κ} {cs : List (Node κ ρ)} (h : SepChain P lo ks cs hi) :
    ∀ e ∈ entriesOf cs, Q e := by
  induction ks generalizing lo cs with
  | nil =>
      obtain ⟨c, rfl⟩ := List.length_eq_one_iff.mp (sepChain_length h)
      simpa using hPQ h
  | cons k ks ih =>
      cases cs with
      | nil => exact h.elim
      | cons c cs =>
          intro e he
          rw [entriesOf_cons, List.mem_append] at he
          exact he.elim (hPQ h.1 e) (ih h.2 e)

/-- An inner node over checked children.  Its separators lie between its bounds
because the children hold keys, unless no key is allowed at all. -/
theorem Checked.internal {M E depth : Nat} {isRoot nearRoot : Bool} {lo hi : Option κ}
    {ks : List κ} {cs : List (Node κ ρ)}
    (hroot : isRoot = true → nearRoot = true ∧ lo = none ∧ hi = none) (hlen : ks.length ≤ M)
    (hks : ks.Pairwise (· < ·)) (hc : SepChain (Checked M E (depth + 1) isRoot) lo ks cs hi) :
    Checked M E depth nearRoot lo hi (.internal ks cs) := by
  have hsep : Separators lo hi ks := by
    cases isRoot with
    | true =>
        obtain ⟨-, rfl, rfl⟩ := hroot rfl
        exact ⟨hks, fun k _ => ⟨before_none_left _, before_none_right _⟩⟩
    | false =>
        by_cases hM : 1 ≤ M
        · exact sepChain_separators (fun hcc => hcc.before hM) hc
        · obtain rfl : ks = [] := List.length_eq_zero_iff.mp (by omega)
          exact ⟨hks, fun k hk => absurd hk List.not_mem_nil⟩
  obtain ⟨c, rest, rfl⟩ := List.exists_cons_of_length_eq_add_one (sepChain_length hc)
  have hfirst := ((sepChain_cons ..).mp hc).1
  obtain ⟨h, hh, -⟩ := hfirst.ordered
  refine ⟨⟨h + 1, by omega, hc.imp fun hcc => ?_, hsep⟩, ?_, ?_⟩
  · -- the leaves stand at one depth, so the children have one height
    obtain ⟨h', hh', hn⟩ := hcc.ordered
    obtain rfl : h' = h := by omega
    exact hn
  · rw [entries_internal]
    exact sepChain_entries (fun hcc => hcc.rows) hc
  · intro hnear hM hempty
    rw [entries_internal, entriesOf_cons, List.append_eq_nil_iff] at hempty
    have hnot : isRoot = false := by
      cases isRoot with
      | true => exact absurd (hroot rfl).1 (by simp [hnear])
      | false => rfl
    exact hfirst.filled hnot hM hempty.1

/-- **One node that passes**, and with it everything below. -/
theorem checked_of_validateNode {M : Nat} {L : Links} {E : Nat} {fuel : Nat} :
    ∀ {isRoot parentIsRoot : Bool} {depth : Nat} {lo hi : Option κ} {n : Node κ ρ}
      {previous p : LeafSeen κ ρ},
      validateNode M L E fuel isRoot parentIsRoot depth lo hi n previous = some p →
      (isRoot = true → lo = none ∧ hi = none) →
      Checked M E depth (isRoot || parentIsRoot) lo hi n := by
  induction fuel with
  | zero =>
      intro isRoot parentIsRoot depth lo hi n previous p h
      cases h
  | succ fuel ih =>
      intro isRoot parentIsRoot depth lo hi n previous p h hroot
      cases n with
      | null => cases h
      | leaf a es =>
          rw [validateNode, Option.ite_none_right_eq_some] at h
          obtain ⟨⟨-, hinc, hmin, hdepth, hleaf⟩, -⟩ := h
          have hok := leaf_of_validateLeaf hleaf
          have hsorted : SortedIn lo hi es :=
            sortedIn_iff_keys.mpr ⟨pairwise_of_strictlyIncreasing hinc,
              List.forall_mem_map.mpr fun e he => (hok e he).1⟩
          refine ⟨⟨0, hdepth, hsorted⟩, ?_, ?_⟩
          · intro e he
            rw [entries_leaf] at he
            exact (hok e he).2
          · intro hnear hM hempty
            obtain ⟨hnot, hparent⟩ := Bool.or_eq_false_iff.mp hnear
            rw [entries_leaf] at hempty
            have hfew : minKeys M ≤ es.length := by simpa [hnot, hparent] using hmin
            have hpos := minKeys_pos hM
            rw [hempty, List.length_nil] at hfew
            omega
      | internal ks cs =>
          rw [validateNode, Option.ite_none_right_eq_some] at h
          obtain ⟨⟨hlen, hinc, -, -⟩, hchildren⟩ := h
          have hbounds : isRoot = true → (isRoot || parentIsRoot) = true ∧ lo = none ∧ hi = none :=
            fun hr => ⟨by rw [hr, Bool.true_or], hroot hr⟩
          refine Checked.internal hbounds hlen (pairwise_of_strictlyIncreasing hinc) ?_
          refine sepChain_of_validateChildren (fun hcheck => ?_) hchildren
          have hchild := ih hcheck (fun hfalse => by cases hfalse)
          rwa [Bool.false_or] at hchild

/-! ## §3. Trees. -/

namespace BStarPlusTree

variable {t : BStarPlusTree κ ρ}

/-- **A tree that passes is a search tree**, and every key of it has rows. -/
theorem ordered_of_validates (h : t.validateCanonicalInvariants = true) :
    (∃ h, Ordered h none none t.root) ∧ ∀ e ∈ t.entries, e.rowIds ≠ [] := by
  unfold validateCanonicalInvariants at h
  cases hdepth : leftmostDepth t.root.height t.root with
  | none =>
      rw [hdepth] at h
      cases h
  | some depth =>
      rw [hdepth] at h
      cases hnode : validateNode t.maxKeysPerNode t.links depth t.root.height true false 0
          none none t.root none with
      | none =>
          simp only [hnode] at h
          cases h
      | some p =>
          have hchecked := checked_of_validateNode hnode fun _ => ⟨rfl, rfl⟩
          obtain ⟨k, -, hn⟩ := hchecked.ordered
          exact ⟨⟨k, hn⟩, hchecked.rows⟩

theorem sorted_of_validates (h : t.validateCanonicalInvariants = true) :
    SortedIn none none t.entries := by
  obtain ⟨⟨k, hn⟩, -⟩ := ordered_of_validates h
  exact hn.sorted

/-- **`Find` in a tree that passes** misses no entry. -/
theorem find_of_validates (h : t.validateCanonicalInvariants = true) (key : κ) :
    t.find key = some (rowsOf t.entries key) := by
  obtain ⟨⟨k, hn⟩, -⟩ := ordered_of_validates h
  exact find_of_ordered hn key

end BStarPlusTree

end CustomDbms.Index
