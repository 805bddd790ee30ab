/-
  CustomDbms.Index.CanonicalShape
  ───────────────────────────────
  **WHICH ORDERS KEEP THE CANONICAL SHAPE.**

  Half of an odd number of keys is too few: `SplitInternal` leaves a node below
  the minimum, and `TryThreeToTwoInternal`, which moves the children of its
  three nodes before it looks at their number, declines on a full neighbour and
  leaves null pointers.  Below 6 an even order fails as well, since the last
  part of a 2-to-3 split is short.

    • `declined_unchanged_iff` — when an attempt that declines has changed
      nothing;
    • `canonical_of_even_order` — the orders on which every sequence of calls
      keeps the shape.
-/
import CustomDbms.Index.Validate

namespace CustomDbms.Index

open CustomDbms.Lib

set_option linter.unusedSectionVars false

variable {κ ρ : Type} [LinearOrder κ] [DecidableEq ρ]

/-! ## §1. Attempts that decline. -/

/-- The restructuring attempts. -/
inductive Restructuring where
  | redistributeLeafWithLeft
  | redistributeLeafWithRight
  | twoToThreeSplitLeafWithRight
  | twoToThreeSplitLeafWithLeft
  | redistributeInternalWithLeft
  | redistributeInternalWithRight
  | twoToThreeSplitInternalWithRight
  | twoToThreeSplitInternalWithLeft
  | threeToTwoLeaf
  | threeToTwoInternal
  deriving DecidableEq

/-- The function of an attempt. -/
def Restructuring.run (maxKeys : Nat) (p : Parent κ ρ) (i : Nat) :
    Restructuring → Option (Bool × Parent κ ρ)
  | .redistributeLeafWithLeft => tryRedistributeLeafWithLeft maxKeys p i
  | .redistributeLeafWithRight => tryRedistributeLeafWithRight maxKeys p i
  | .twoToThreeSplitLeafWithRight => tryTwoToThreeSplitLeafWithRight maxKeys p i
  | .twoToThreeSplitLeafWithLeft => tryTwoToThreeSplitLeafWithLeft maxKeys p i
  | .redistributeInternalWithLeft => tryRedistributeInternalWithLeft maxKeys p i
  | .redistributeInternalWithRight => tryRedistributeInternalWithRight maxKeys p i
  | .twoToThreeSplitInternalWithRight => tryTwoToThreeSplitInternalWithRight maxKeys p i
  | .twoToThreeSplitInternalWithLeft => tryTwoToThreeSplitInternalWithLeft maxKeys p i
  | .threeToTwoLeaf => tryThreeToTwoLeaf maxKeys p i
  | .threeToTwoInternal => tryThreeToTwoInternal maxKeys p i

/-- A child that is there, with no more keys than allowed and one child more
than keys. -/
def Node.WellFormed (maxKeys : Nat) : Node κ ρ → Prop
  | .null => False
  | .leaf _ es => es.length ≤ maxKeys
  | .internal ks cs =>
      ks.length ≤ maxKeys ∧ cs.length = ks.length + 1 ∧ ∀ c ∈ cs, c ≠ .null

/-- A parent of such children. -/
structure Parent.WellFormed (maxKeys : Nat) (p : Parent κ ρ) : Prop where
  length : p.children.length = p.keys.length + 1
  children : ∀ c ∈ p.children, c.WellFormed maxKeys

/-- Three internal siblings have room for their keys in two nodes, and enough
of them. -/
def TripleFits (maxKeys : Nat) (p : Parent κ ρ) (l : Nat) : Prop :=
  ∀ lks lcs mks mcs rks rcs, p.child l = some (.internal lks lcs) →
    p.child (l + 1) = some (.internal mks mcs) → p.child (l + 2) = some (.internal rks rcs) →
    minKeys maxKeys * 2 + 1 ≤ lks.length + mks.length + rks.length + 2 ∧
      lks.length + mks.length + rks.length + 2 ≤ 2 * maxKeys + 1

section Declined

variable {M i : Nat} {p p' : Parent κ ρ}

theorem Parent.child_eq_some {n : Node κ ρ} (h : p.child i = some n) :
    p.children[i]? = some n ∧ n ≠ .null := by
  unfold Parent.child at h
  split at h
  · cases h
  · rename_i hnull
    exact ⟨h, fun heq => hnull (heq ▸ h)⟩

theorem Parent.WellFormed.child (hp : p.WellFormed M) {n : Node κ ρ} (h : p.child i = some n) :
    n.WellFormed M :=
  hp.children n (List.mem_of_getElem? (Parent.child_eq_some h).1)

theorem redistributeLeafWithLeft_declined
    (h : tryRedistributeLeafWithLeft M p i = some (false, p')) : p' = p := by
  unfold tryRedistributeLeafWithLeft at h
  repeat' split at h
  all_goals cases h <;> rfl

theorem redistributeLeafWithRight_declined
    (h : tryRedistributeLeafWithRight M p i = some (false, p')) : p' = p := by
  unfold tryRedistributeLeafWithRight at h
  repeat' split at h
  all_goals cases h <;> rfl

theorem twoToThreeSplitLeafWithRight_declined
    (h : tryTwoToThreeSplitLeafWithRight M p i = some (false, p')) : p' = p := by
  unfold tryTwoToThreeSplitLeafWithRight at h
  dsimp only at h
  repeat' split at h
  all_goals cases h <;> rfl

theorem redistributeInternalWithLeft_declined
    (h : tryRedistributeInternalWithLeft M p i = some (false, p')) : p' = p := by
  unfold tryRedistributeInternalWithLeft at h
  repeat' split at h
  all_goals cases h <;> rfl

theorem redistributeInternalWithRight_declined
    (h : tryRedistributeInternalWithRight M p i = some (false, p')) : p' = p := by
  unfold tryRedistributeInternalWithRight at h
  repeat' split at h
  all_goals cases h <;> rfl

theorem threeToTwoLeaf_declined (h : tryThreeToTwoLeaf M p i = some (false, p')) : p' = p := by
  unfold tryThreeToTwoLeaf at h
  dsimp only at h
  repeat' split at h
  all_goals cases h <;> rfl

/-- **A 2-to-3 split of full nodes has three parts**, so it does not decline
once the children have been moved. -/
theorem twoToThreeSplitInternalWithRight_declined (hM : 3 ≤ M) (hp : p.WellFormed M)
    (h : tryTwoToThreeSplitInternalWithRight M p i = some (false, p')) : p' = p := by
  unfold tryTwoToThreeSplitInternalWithRight at h
  split at h
  · cases h
    rfl
  · split at h
    · rename_i lks lcs rks rcs hleft hright
      have hl := hp.child hleft
      have hr := hp.child hright
      split at h
      · cases h
        rfl
      · rename_i hfull
        split at h
        · cases h
        · rename_i sep hsep
          dsimp only at h
          split at h
          · -- the parts of 2 * M + 1 keys are not empty
            rename_i hempty
            exfalso
            have hll : lks.length ≤ M := hl.1
            have hrl : rks.length ≤ M := hr.1
            simp only [List.length_append, List.length_cons] at hempty
            omega
          · repeat' split at h
            all_goals cases h
    · cases h
      rfl
    · cases h

/-- What a 3-to-2 merge of internal nodes does when it declines on three
siblings. -/
theorem threeToTwoInternal_of_unfit (hp : p.WellFormed M) (h : ¬ TripleFits M p i) :
    ∃ p', tryThreeToTwoInternal M p i = some (false, p') ∧ p' ≠ p := by
  unfold TripleFits at h
  push Not at h
  obtain ⟨lks, lcs, mks, mcs, rks, rcs, hl, hm, hr, hsize⟩ := h
  obtain ⟨hright, -⟩ := Parent.child_eq_some hr
  obtain ⟨hleft, -⟩ := Parent.child_eq_some hl
  have hlength : i + 2 < p.children.length := by
    rw [List.getElem?_eq_some_iff] at hright
    exact hright.1
  have hkeys : i + 1 < p.keys.length := by
    have := hp.length
    omega
  obtain ⟨sep, hsep⟩ : ∃ k, p.key i = some k :=
    ⟨_, List.getElem?_eq_getElem (by omega)⟩
  obtain ⟨sep', hsep'⟩ : ∃ k, p.key (i + 1) = some k :=
    ⟨_, List.getElem?_eq_getElem hkeys⟩
  -- the first child of the left node is moved away
  obtain ⟨c, rest, hcs⟩ : ∃ c rest, lcs = c :: rest := by
    refine List.exists_cons_of_ne_nil fun hnil => ?_
    have hcount := (hp.child hl).2.1
    rw [hnil] at hcount
    simp at hcount
  have hc : c ≠ .null := (hp.child hl).2.2 c (by rw [hcs]; exact List.mem_cons_self)
  let emptied : Parent κ ρ := { p with
    children := ((p.children.set i (.internal lks (lcs.map fun _ => .null))).set
      (i + 1) (.internal mks (mcs.map fun _ => .null))).set
      (i + 2) (.internal rks (rcs.map fun _ => .null)) }
  refine ⟨emptied, ?_, ?_⟩
  · unfold tryThreeToTwoInternal
    rw [if_neg (by omega), hl, hm, hr, hsep, hsep']
    dsimp only
    by_cases hlow : minKeys M * 2 + 1 ≤ lks.length + mks.length + rks.length + 2
    · rw [if_pos]
      simp only [List.length_append, List.length_cons]
      have := hsize hlow
      omega
    · by_cases hhigh : 2 * M + 1 < (lks ++ sep :: (mks ++ sep' :: rks)).length
      · rw [if_pos hhigh]
      · rw [if_neg hhigh, if_pos]
        simp only [List.length_append, List.length_cons]
        omega
  · intro heq
    have hchildren : emptied.children[i]? = p.children[i]? := by rw [heq]
    have hat : emptied.children[i]? = some (.internal lks (lcs.map fun _ => .null)) := by
      show (((p.children.set i _).set (i + 1) _).set (i + 2) _)[i]? = _
      rw [List.getElem?_set_ne (by omega), List.getElem?_set_ne (by omega),
        List.getElem?_set_self (by omega)]
    rw [hat, hleft, hcs] at hchildren
    simp only [Option.some.injEq, Node.internal.injEq, List.map_cons, List.cons.injEq,
      true_and] at hchildren
    exact hc hchildren.1.symm

theorem threeToTwoInternal_declined (hfits : TripleFits M p i)
    (h : tryThreeToTwoInternal M p i = some (false, p')) : p' = p := by
  unfold tryThreeToTwoInternal at h
  split at h
  · cases h
    rfl
  · split at h
    · rename_i lks lcs mks mcs rks rcs hl hm hr
      obtain ⟨hlow, hhigh⟩ := hfits _ _ _ _ _ _ hl hm hr
      split at h
      · rename_i sep sep' hsep hsep'
        have hsize : (lks ++ sep :: (mks ++ sep' :: rks)).length
            = lks.length + mks.length + rks.length + 2 := by
          simp only [List.length_append, List.length_cons]
          omega
        dsimp only at h
        rw [hsize, if_neg (by omega), if_neg (by omega), if_neg (by omega)] at h
        repeat' split at h
        all_goals cases h
      · cases h
    · cases h
      rfl
    · cases h

end Declined

/-- **An attempt that declines has changed nothing**, except for a 3-to-2 merge
of internal nodes whose keys do not fit. -/
theorem declined_unchanged_iff {M : Nat} (hM : 3 ≤ M) {p : Parent κ ρ} (hp : p.WellFormed M)
    (f : Restructuring) (i : Nat) :
    (∀ p', f.run M p i = some (false, p') → p' = p) ↔
      (f = .threeToTwoInternal → TripleFits M p i) := by
  constructor
  · rintro h rfl
    by_contra hfits
    obtain ⟨p', hrun, hne⟩ := threeToTwoInternal_of_unfit hp hfits
    exact hne (h p' hrun)
  · intro hfits p' hrun
    cases f with
    | redistributeLeafWithLeft => exact redistributeLeafWithLeft_declined hrun
    | redistributeLeafWithRight => exact redistributeLeafWithRight_declined hrun
    | twoToThreeSplitLeafWithRight => exact twoToThreeSplitLeafWithRight_declined hrun
    | twoToThreeSplitLeafWithLeft =>
        replace hrun : tryTwoToThreeSplitLeafWithLeft M p i = some (false, p') := hrun
        unfold tryTwoToThreeSplitLeafWithLeft at hrun
        split at hrun
        · cases hrun
          rfl
        · exact twoToThreeSplitLeafWithRight_declined hrun
    | redistributeInternalWithLeft => exact redistributeInternalWithLeft_declined hrun
    | redistributeInternalWithRight => exact redistributeInternalWithRight_declined hrun
    | twoToThreeSplitInternalWithRight =>
        exact twoToThreeSplitInternalWithRight_declined hM hp hrun
    | twoToThreeSplitInternalWithLeft =>
        replace hrun : tryTwoToThreeSplitInternalWithLeft M p i = some (false, p') := hrun
        unfold tryTwoToThreeSplitInternalWithLeft at hrun
        split at hrun
        · cases hrun
          rfl
        · exact twoToThreeSplitInternalWithRight_declined hM hp hrun
    | threeToTwoLeaf => exact threeToTwoLeaf_declined hrun
    | threeToTwoInternal => exact threeToTwoInternal_declined (hfits rfl) hrun

/-- An internal node with a leaf for every number. -/
def sampleNode (ks : List Nat) (leaves : List Nat) : Node Nat Nat :=
  .internal ks (leaves.map fun n => .leaf n [⟨n, [0]⟩])

/-- Three siblings of order 3 whose first has too few keys. -/
def sampleParent (right : Node Nat Nat) : Parent Nat Nat where
  keys := [3, 9]
  children := [sampleNode [1] [0, 1], sampleNode [5, 7] [3, 5, 7], right]
  links := ⟨fun _ => none, fun _ => none, 20⟩

theorem wellFormed_sampleNode {ks leaves : List Nat} (hkeys : ks.length ≤ 3)
    (hchildren : leaves.length = ks.length + 1) : (sampleNode ks leaves).WellFormed 3 := by
  refine ⟨hkeys, by rw [List.length_map]; exact hchildren, ?_⟩
  intro c hc
  obtain ⟨n, -, rfl⟩ := List.mem_map.mp hc
  simp

theorem wellFormed_sampleParent {right : Node Nat Nat} (h : right.WellFormed 3) :
    (sampleParent right).WellFormed 3 where
  length := rfl
  children := by
    intro c hc
    simp only [sampleParent, List.mem_cons, List.not_mem_nil, or_false] at hc
    rcases hc with rfl | rfl | rfl
    · exact wellFormed_sampleNode (by decide) (by decide)
    · exact wellFormed_sampleNode (by decide) (by decide)
    · exact h

/-- **Two keys in the third node fit.** -/
theorem declined_unchanged_sample :
    (sampleParent (sampleNode [11, 13] [9, 11, 13])).WellFormed 3 ∧
    ∀ p', Restructuring.run 3 (sampleParent (sampleNode [11, 13] [9, 11, 13])) 0
      .threeToTwoInternal = some (false, p') →
        p' = sampleParent (sampleNode [11, 13] [9, 11, 13]) := by
  have hright : (sampleNode [11, 13] [9, 11, 13]).WellFormed 3 :=
    wellFormed_sampleNode (by decide) (by decide)
  have hp := wellFormed_sampleParent hright
  refine ⟨hp, (declined_unchanged_iff (by decide) hp _ _).mpr fun _ => ?_⟩
  intro lks lcs mks mcs rks rcs hl hm hr
  cases hl
  cases hm
  cases hr
  decide

/-- **A full third node does not**: the merge that `FixChildUnderflow` tries on
the first child declines and leaves null pointers. -/
theorem declined_full_sibling :
    (sampleParent (sampleNode [11, 13, 15] [9, 11, 13, 15])).WellFormed 3 ∧
    ∃ p', Restructuring.run 3 (sampleParent (sampleNode [11, 13, 15] [9, 11, 13, 15])) 0
        .threeToTwoInternal = some (false, p') ∧
      p'.children[0]? = some (.internal [1] [.null, .null]) ∧
      p' ≠ sampleParent (sampleNode [11, 13, 15] [9, 11, 13, 15]) := by
  refine ⟨wellFormed_sampleParent (wellFormed_sampleNode (by decide) (by decide)), _, rfl, rfl, ?_⟩
  intro heq
  have hfirst := congrArg (fun p => p.children[0]?) heq
  simp [sampleParent, sampleNode] at hfirst

/-! ## §2. Canonical orders. -/

mutual

/-- No pointer in a subtree is null. -/
def Node.noNull : Node κ ρ → Bool
  | .null => false
  | .leaf _ _ => true
  | .internal _ cs => noNullOf cs

/-- No pointer below a list of children is null. -/
def Node.noNullOf : List (Node κ ρ) → Bool
  | [] => true
  | c :: cs => noNull c && noNullOf cs

end

/-- A well-formed subtree has lost no node. -/
theorem WF.noNull {M : Nat} : ∀ {h l u : Nat} {lo hi : Option κ} {n : Node κ ρ},
    WF M h l u lo hi n → n.noNull = true
  | 0, _, _, _, _, n, hw => by
      obtain ⟨a, es, rfl, -⟩ := hw.leaf_cases
      rfl
  | h + 1, l, u, lo, hi, n, hw => by
      obtain ⟨ks, cs, rfl, hc, -, -⟩ := hw.internal_cases
      clear hw
      show Node.noNullOf cs = true
      induction ks generalizing lo cs with
      | nil =>
          obtain ⟨c, rfl⟩ := List.length_eq_one_iff.mp (sepChain_length hc)
          simp [Node.noNullOf, WF.noNull hc]
      | cons k ks ih =>
          cases cs with
          | nil => exact hc.elim
          | cons c cs => simp [Node.noNullOf, WF.noNull hc.1, ih _ cs hc.2]

/-- **Every sequence of calls keeps the shape of a tree of even order from 6
on**: no call goes wrong, no node is lost, and `ValidateCanonicalInvariants`
returns true. -/
theorem canonical_of_even_order {M : Nat} (hM : 6 ≤ M) (heven : M % 2 = 0)
    (cs : List (Call κ ρ)) :
    ∃ t, runCalls (BStarPlusTree.new M) cs = some t ∧ t.root.noNull = true ∧
      t.validateCanonicalInvariants = true := by
  have hnew : (BStarPlusTree.new M : BStarPlusTree κ ρ).maxKeysPerNode = M := by
    simp only [BStarPlusTree.new]
    omega
  obtain ⟨t, hrun, hv, horder, -⟩ := runCalls_spec (t := BStarPlusTree.new M)
    (m := fun _ => []) (by omega) (by omega) BStarPlusTree.valid_new
    (fun k => by rw [BStarPlusTree.entries_new]; rfl) cs
  obtain ⟨h, hw⟩ := hv.1
  exact ⟨t, hrun, hw.noNull, hv.validates (by omega)⟩

/-- The engine's order. -/
theorem canonical_default_order :
    ∃ t, runCalls (BStarPlusTree.new 8)
        [.insert 3 0, .insert 5 1, .remove 3 (0 : Nat), .insert (1 : Nat) 4] = some t ∧
      t.root.noNull = true ∧ t.validateCanonicalInvariants = true :=
  canonical_of_even_order (by decide) (by decide) _

/-- The keys 27, …, 0, one after the other. -/
def descendingInserts : List (Call Nat Nat) := (List.range 28).reverse.map fun k => .insert k 0

/-- **Order 3 fails**: the 28th insertion leaves an internal node below the
root's children with one key. -/
theorem order_three_not_canonical :
    ∃ t, runCalls (BStarPlusTree.new 3) descendingInserts = some t ∧
      t.validateCanonicalInvariants = false := by
  have hrun : (runCalls (BStarPlusTree.new 3) descendingInserts).map
      BStarPlusTree.validateCanonicalInvariants = some false := by decide +kernel
  exact Option.map_eq_some_iff.mp hrun

end CustomDbms.Index
