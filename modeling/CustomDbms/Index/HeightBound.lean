/-
  CustomDbms.Index.HeightBound
  ────────────────────────────
  **HOW DEEP THE TREE GROWS.**

  Every node below the root of a valid tree holds at least `minKeys M` keys, so
  the number of keys grows with the height as a power of `minKeys M + 1`, and
  no faster than as a power of `M + 1`.  A lookup visits one node a level.

    • `WF.entries_le`, `WF.le_entries` — how many keys a subtree of a given
      height holds;
    • `Ordered.findLeaf_none` — `FindLeaf` does not stop above the leaves;
    • `height_logarithmic` — both over every sequence of calls.
-/
import CustomDbms.Index.Refinement
import Mathlib.Algebra.Group.Nat.Defs
import Mathlib.Data.Nat.Log

namespace CustomDbms.Index

open CustomDbms.Lib

set_option linter.unusedSectionVars false

variable {κ ρ : Type} [LinearOrder κ] [DecidableEq ρ]

/-! ## §1. The size of a subtree. -/

/-- Children with between `a` and `b` entries each. -/
theorem sepChain_entries_bounds {P : Option κ → Option κ → Node κ ρ → Prop} {a b : Nat}
    (hP : ∀ {lo hi : Option κ} {c : Node κ ρ}, P lo hi c →
      a ≤ c.entries.length ∧ c.entries.length ≤ b)
    {lo hi : Option κ} {ks : List κ} {cs : List (Node κ ρ)} (hc : SepChain P lo ks cs hi) :
    (ks.length + 1) * a ≤ (entriesOf cs).length ∧
      (entriesOf cs).length ≤ (ks.length + 1) * b := by
  induction ks generalizing lo cs with
  | nil =>
      obtain ⟨c, rfl⟩ := List.length_eq_one_iff.mp (sepChain_length hc)
      simpa using hP hc
  | cons k ks ih =>
      cases cs with
      | nil => exact hc.elim
      | cons c cs =>
          have hfirst := hP hc.1
          have hrest := ih hc.2
          rw [entriesOf_cons, List.length_append, List.length_cons, Nat.succ_mul (_ + 1),
            Nat.succ_mul (_ + 1)]
          omega

/-- How many entries a subtree of height `h` holds at most. -/
theorem WF.entries_le {M : Nat} : ∀ {h l : Nat} {lo hi : Option κ} {n : Node κ ρ},
    WF M h l M lo hi n → n.entries.length ≤ M * (M + 1) ^ h
  | 0, _, _, _, n, hw => by
      obtain ⟨a, es, rfl, -, -, -, hmax⟩ := hw.leaf_cases
      simpa using hmax
  | h + 1, _, _, _, n, hw => by
      obtain ⟨ks, cs, rfl, hc, -, hmax⟩ := hw.internal_cases
      rw [entries_internal]
      calc (entriesOf cs).length
          ≤ (ks.length + 1) * (M * (M + 1) ^ h) :=
            (sepChain_entries_bounds (fun hcw => ⟨Nat.zero_le _, WF.entries_le hcw⟩) hc).2
        _ ≤ (M + 1) * (M * (M + 1) ^ h) := Nat.mul_le_mul_right _ (by omega)
        _ = M * (M + 1) ^ (h + 1) := by rw [Nat.pow_succ]; ac_rfl

/-- How many entries a canonical subtree of height `h` holds at least. -/
theorem WF.le_entries {M : Nat} : ∀ {h : Nat} {lo hi : Option κ} {n : Node κ ρ},
    WF M h (minKeys M) M lo hi n → minKeys M * (minKeys M + 1) ^ h ≤ n.entries.length
  | 0, _, _, n, hw => by
      obtain ⟨a, es, rfl, -, -, hmin, -⟩ := hw.leaf_cases
      simpa using hmin
  | h + 1, _, _, n, hw => by
      obtain ⟨ks, cs, rfl, hc, hmin, -⟩ := hw.internal_cases
      rw [entries_internal]
      calc minKeys M * (minKeys M + 1) ^ (h + 1)
          = (minKeys M + 1) * (minKeys M * (minKeys M + 1) ^ h) := by
            rw [Nat.pow_succ]; ac_rfl
        _ ≤ (ks.length + 1) * (minKeys M * (minKeys M + 1) ^ h) :=
            Nat.mul_le_mul_right _ (by omega)
        _ ≤ (entriesOf cs).length :=
            (sepChain_entries_bounds (fun hcw => ⟨WF.le_entries hcw, hcw.entries_le⟩) hc).1

/-- A root may be nearly empty, but above the leaves it has two children. -/
theorem WF.le_entries_root {M h : Nat} {n : Node κ ρ}
    (hw : WF M (h + 1) (rootMin (h + 1)) M none none n) :
    2 * minKeys M * (minKeys M + 1) ^ h ≤ n.entries.length := by
  obtain ⟨ks, cs, rfl, hc, hmin, -⟩ := hw.internal_cases
  have hone : 1 ≤ ks.length := by simpa [rootMin] using hmin
  rw [entries_internal]
  calc 2 * minKeys M * (minKeys M + 1) ^ h
      = 2 * (minKeys M * (minKeys M + 1) ^ h) := Nat.mul_assoc ..
    _ ≤ (ks.length + 1) * (minKeys M * (minKeys M + 1) ^ h) :=
        Nat.mul_le_mul_right _ (by omega)
    _ ≤ (entriesOf cs).length :=
        (sepChain_entries_bounds (fun hcw => ⟨hcw.le_entries, hcw.entries_le⟩) hc).1

/-- The height of a subtree under such a root, from the number of its entries. -/
theorem WF.height_le {M h : Nat} (hM : 1 ≤ M) {n : Node κ ρ}
    (hw : WF M h (rootMin h) M none none n) :
    h ≤ 1 + Nat.log (minKeys M + 1) (n.entries.length / (2 * minKeys M)) := by
  have hmin := minKeys_pos hM
  cases h with
  | zero => exact Nat.zero_le _
  | succ h =>
      have hpow : (minKeys M + 1) ^ h ≤ n.entries.length / (2 * minKeys M) := by
        rw [Nat.le_div_iff_mul_le (by omega), Nat.mul_comm]
        exact hw.le_entries_root
      have := Nat.le_log_of_pow_le (by omega) hpow
      omega

/-! ## §2. The path of a lookup. -/

/-- `FindLeaf` has not reached a leaf before it has visited a node a level. -/
theorem Ordered.findLeaf_none {key : κ} : ∀ {h : Nat} {lo hi : Option κ} {n : Node κ ρ},
    Ordered h lo hi n → Above lo key → Below hi key → ∀ fuel, fuel ≤ h →
      Index.findLeaf key fuel n = none
  | _, _, _, _, _, _, _, 0, _ => rfl
  | h + 1, lo, hi, n, hn, hlo, hhi, fuel + 1, hle => by
      obtain ⟨ks, cs, rfl, hc, hks⟩ := hn.internal_cases
      obtain ⟨K₁, K₂, C₁, c, C₂, rfl, rfl, -, hC, -, hcn, -, hlo', hhi', -, -⟩ :=
        sepChain_route Ordered.sorted hc hks.increasing hlo hhi
      rw [Index.findLeaf, getElem?_mid hC]
      exact Ordered.findLeaf_none hcn hlo' hhi' fuel (by omega)

/-! ## §3. The height over a run of calls. -/

section

variable {t : BStarPlusTree κ ρ}

/-- The keys of a valid tree, each once. -/
theorem BStarPlusTree.Valid.keys_nodup (ht : t.Valid) (hM : 1 ≤ t.maxKeysPerNode) :
    (t.entries.map (·.key)).Nodup := by
  rw [List.Nodup, List.pairwise_map]
  exact (ht.sorted hM).1.imp fun hlt => ne_of_lt hlt

/-- The keys of the tree are the keys of its map that hold rows. -/
theorem BStarPlusTree.Valid.mem_keys (ht : t.Valid) (hM : 1 ≤ t.maxKeysPerNode)
    {m : κ → List ρ} (hm : Holds t m) (k : κ) :
    k ∈ t.entries.map (·.key) ↔ m k ≠ [] := by
  have hmem := mem_iff_rowsOf (ht.sorted hM) ht.rowsOk.ne_nil
  rw [List.mem_map]
  constructor
  · rintro ⟨e, he, rfl⟩
    obtain ⟨hrows, hne⟩ := (hmem e).mp he
    rwa [← hm e.key, ← hrows]
  · intro hk
    rw [← hm k] at hk
    exact ⟨⟨k, rowsOf t.entries k⟩, (hmem _).mpr ⟨rfl, hk⟩, rfl⟩

end

/-- The keys that hold rows after a run are those with a live row. -/
theorem rowMap_ne_nil_iff (cs : List (Call κ ρ)) (k : κ) :
    rowMap cs k ≠ [] ↔ ∃ r, Live cs k r := by
  have hlive := (rowMap_live cs k).2
  constructor
  · intro hne
    obtain ⟨r, hr⟩ := List.exists_mem_of_ne_nil _ hne
    exact ⟨r, (hlive r).mp hr⟩
  · rintro ⟨r, hr⟩
    exact List.ne_nil_of_mem ((hlive r).mpr hr)

/-- **The height of the tree is logarithmic in the number of its keys.**  After
every sequence of calls on an empty tree of even order from 6 on, with `keys`
the keys that have a live row: the tree has at most `M * (M + 1) ^ (height - 1)`
of them and its height is at most `2 + log (keys / 2 minKeys M)` to the base
`minKeys M + 1`; and `FindLeaf` for any key reaches a leaf after visiting
exactly `height` nodes. -/
theorem height_logarithmic {M : Nat} (hM : 6 ≤ M) (heven : M % 2 = 0) (cs : List (Call κ ρ))
    (keys : List κ) (hnodup : keys.Nodup) (hkeys : ∀ k, k ∈ keys ↔ ∃ r, Live cs k r) :
    ∃ t, runCalls (BStarPlusTree.new M) cs = some t ∧
      keys.length ≤ M * (M + 1) ^ (t.root.height - 1) ∧
      t.root.height ≤ 2 + Nat.log (minKeys M + 1) (keys.length / (2 * minKeys M)) ∧
      ∀ key, (findLeaf key t.root.height t.root).isSome ∧
        ∀ visited < t.root.height, findLeaf key visited t.root = none := by
  have hnew : (BStarPlusTree.new M : BStarPlusTree κ ρ).maxKeysPerNode = M := by
    simp only [BStarPlusTree.new]
    omega
  obtain ⟨t, hrun, hv, horder, hm⟩ := runCalls_spec (t := BStarPlusTree.new M)
    (m := fun _ => []) (by omega) (by omega) BStarPlusTree.valid_new
    (fun k => by rw [BStarPlusTree.entries_new]; rfl) cs
  have hM1 : 1 ≤ t.maxKeysPerNode := by omega
  have hlen : keys.length = t.entries.length := by
    rw [← List.length_map (fun e : IndexEntry κ ρ => e.key)]
    refine ((List.perm_ext_iff_of_nodup hnodup (hv.keys_nodup hM1)).mpr fun k => ?_).length_eq
    rw [hv.mem_keys hM1 hm k, hkeys k]
    exact (rowMap_ne_nil_iff cs k).symm
  obtain ⟨h, hw⟩ := hv.wf
  have hheight : t.root.height = h + 1 := hw.height hM1
  have hn := hw.ordered hM1
  rw [show t.maxKeysPerNode = M from horder.trans hnew] at hw
  have hhigh : t.entries.length ≤ M * (M + 1) ^ h := hw.entries_le
  have hlog : h ≤ 1 + Nat.log (minKeys M + 1) (t.entries.length / (2 * minKeys M)) :=
    hw.height_le (by omega)
  refine ⟨t, hrun, ?_⟩
  rw [hheight, hlen]
  refine ⟨hhigh, by omega, fun key => ⟨?_, fun visited hlt => ?_⟩⟩
  · obtain ⟨a, es, P, S, hf, -⟩ := hn.findLeaf (above_none key) (below_none key)
    rw [hf]
    rfl
  · exact hn.findLeaf_none (above_none key) (below_none key) visited (by omega)

/-- The engine's order, with one key left after a removal. -/
theorem height_logarithmic_default_order :
    ∃ t, runCalls (BStarPlusTree.new 8) [.insert 3 0, .insert (5 : Nat) 1, .remove 3 (0 : Nat)]
        = some t ∧
      t.root.height ≤ 2 + Nat.log (minKeys 8 + 1) (1 / (2 * minKeys 8)) := by
  obtain ⟨t, hrun, -, hheight, -⟩ := height_logarithmic (M := 8) (by decide)
    (by decide) [.insert 3 0, .insert (5 : Nat) 1, .remove 3 (0 : Nat)] [5] (by decide) fun k => by
      rw [← rowMap_ne_nil_iff]
      by_cases h5 : k = 5
      · subst h5
        decide
      · by_cases h3 : k = 3
        · subst h3
          decide
        · simp [rowMap, Call.apply, Function.update, h3, h5]
  exact ⟨t, hrun, hheight⟩

end CustomDbms.Index
