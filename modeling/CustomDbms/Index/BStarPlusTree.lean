/-
  CustomDbms.Index.BStarPlusTree
  ──────────────────────────────
  **THE B*+-TREE AS THE CODE COMPUTES IT** (`src/index/b_star_plus_tree.cpp`).

  The ownership tree (`unique_ptr` children) is the inductive type `Node`; a
  moved-from `unique_ptr` is `Node.null`.  A leaf carries an address, and the
  raw pointers `next_leaf` / `prev_leaf` of all leaves live in one pointer table
  (`Lib.Links`), because the code writes through them into leaves of other
  parents.  The parallel vectors `keys` / `values` of a leaf, which every
  operation changes together, are one list of `IndexEntry`.

  Every operation is `Option`-valued.  `none` is what C++ leaves undefined: a
  null or dangling pointer is followed, a vector is indexed out of range, or
  the recursion does not reach a leaf (the `fuel` argument is the height).
-/
import CustomDbms.Lib.DoublyLinked
import Mathlib.Order.Lattice

namespace CustomDbms.Index

open CustomDbms.Lib

/-! ## §1. Nodes, leaf links, the tree. -/

/-- The address of a leaf node. -/
abbrev Addr := Nat

/-- `IndexEntry`: one key with the rows it stands for. -/
structure IndexEntry (κ ρ : Type) where
  key : κ
  rowIds : List ρ
  deriving Repr, DecidableEq

/-- `Node`: a `unique_ptr<Node>`, which is null after a move. -/
inductive Node (κ ρ : Type) where
  | null
  | leaf (addr : Addr) (entries : List (IndexEntry κ ρ))
  | internal (keys : List κ) (children : List (Node κ ρ))

/-- `Split`: the separator and the new right sibling handed to the parent. -/
structure Split (κ ρ : Type) where
  separatorKey : κ
  right : Node κ ρ

/-- `BStarPlusTree`. -/
structure BStarPlusTree (κ ρ : Type) where
  maxKeysPerNode : Nat
  root : Node κ ρ
  links : Links

/-- A parent node under restructuring, with the leaf links it may touch;
`make_unique<Node>(true)` takes its address from `links.fresh`. -/
structure Parent (κ ρ : Type) where
  keys : List κ
  children : List (Node κ ρ)
  links : Links

variable {κ ρ : Type}

namespace Node

/-- `is_leaf`. -/
def isLeaf : Node κ ρ → Bool
  | .leaf _ _ => true
  | _ => false

/-- `keys.size()`. -/
def keyCount : Node κ ρ → Nat
  | .null => 0
  | .leaf _ es => es.length
  | .internal ks _ => ks.length

mutual

/-- The leaves below a node, left to right, with their contents. -/
def leaves : Node κ ρ → List (Addr × List (IndexEntry κ ρ))
  | .null => []
  | .leaf a es => [(a, es)]
  | .internal _ cs => leavesOf cs

/-- The leaves below a list of children. -/
def leavesOf : List (Node κ ρ) → List (Addr × List (IndexEntry κ ρ))
  | [] => []
  | c :: cs => leaves c ++ leavesOf cs

end

mutual

/-- The number of levels: no path from the node to a leaf is longer. -/
def height : Node κ ρ → Nat
  | .null => 0
  | .leaf _ _ => 1
  | .internal _ cs => heightOf cs + 1

/-- The number of levels below a list of children. -/
def heightOf : List (Node κ ρ) → Nat
  | [] => 0
  | c :: cs => max (height c) (heightOf cs)

end

end Node

namespace Parent

/-- `parent->children[i].get()`, dereferenced. -/
def child (p : Parent κ ρ) (i : Nat) : Option (Node κ ρ) :=
  match p.children[i]? with
  | some .null => none
  | r => r

/-- `parent->keys[i]`. -/
def key (p : Parent κ ρ) (i : Nat) : Option κ := p.keys[i]?

end Parent

/-! ## §2. Order and searching. -/

/-- `MinLeafKeys` and `MinInternalKeys`. -/
def minKeys (maxKeys : Nat) : Nat := (maxKeys + 1) / 2

section Ordered

variable [LinearOrder κ] [DecidableEq ρ]

/-- `LowerBound`: the position of the first key not less than `key`. -/
def lowerBound (keys : List κ) (key : κ) : Nat :=
  (keys.takeWhile (fun k => decide (k < key))).length

/-- `UpperBound`: the position of the first key greater than `key`. -/
def upperBound (keys : List κ) (key : κ) : Nat :=
  (keys.takeWhile (fun k => decide (k ≤ key))).length

/-- `FindLeaf`. -/
def findLeaf (key : κ) : Nat → Node κ ρ → Option (Addr × List (IndexEntry κ ρ))
  | 0, _ => none
  | _ + 1, .null => none
  | _ + 1, .leaf a es => some (a, es)
  | fuel + 1, .internal ks cs =>
      match cs[upperBound ks key]? with
      | none => none
      | some c => findLeaf key fuel c

/-! ## §3. Splitting one overfull node. -/

/-- `SplitLeaf`. -/
def splitLeaf (a : Addr) (es : List (IndexEntry κ ρ)) (L : Links) :
    Option (Node κ ρ × Split κ ρ × Links) :=
  let mid := es.length / 2
  let r := L.fresh
  let L1 := L.alloc.setNext r (L.next a)
  let L2 := L1.setPrevOf (L1.next r) (some r)
  let L3 := (L2.setPrev r (some a)).setNext a (some r)
  match es.drop mid with
  | [] => none
  | e :: rest => some (.leaf a (es.take mid), ⟨e.key, .leaf r (e :: rest)⟩, L3)

/-- `SplitInternal`. -/
def splitInternal (ks : List κ) (cs : List (Node κ ρ)) :
    Option (Node κ ρ × Split κ ρ) :=
  let mid := ks.length / 2
  match ks[mid]? with
  | none => none
  | some sep =>
      some (.internal (ks.take mid) (cs.take (mid + 1)),
        ⟨sep, .internal (ks.drop (mid + 1)) (cs.drop (mid + 1))⟩)

/-! ## §4. Redistribution and 2-to-3 splits before an insertion. -/

/-- `TryRedistributeLeafWithLeft`. -/
def tryRedistributeLeafWithLeft (maxKeys : Nat) (p : Parent κ ρ) (i : Nat) :
    Option (Bool × Parent κ ρ) :=
  if i = 0 then some (false, p) else
  match p.child i, p.child (i - 1) with
  | some (.leaf a es), some (.leaf al els) =>
      if maxKeys ≤ els.length ∨ es = [] then some (false, p) else
      match es, p.key (i - 1) with
      | e :: e' :: rest, some _ =>
          some (true,
            { p with
              keys := p.keys.set (i - 1) e'.key
              children := (p.children.set (i - 1) (.leaf al (els ++ [e]))).set i
                (.leaf a (e' :: rest)) })
      | _, _ => none
  | some _, some _ => some (false, p)
  | _, _ => none

/-- `TryRedistributeLeafWithRight`. -/
def tryRedistributeLeafWithRight (maxKeys : Nat) (p : Parent κ ρ) (i : Nat) :
    Option (Bool × Parent κ ρ) :=
  if p.children.length ≤ i + 1 then some (false, p) else
  match p.child i, p.child (i + 1) with
  | some (.leaf a es), some (.leaf ar ers) =>
      if maxKeys ≤ ers.length ∨ es = [] then some (false, p) else
      match es.getLast?, p.key i with
      | some e, some _ =>
          some (true,
            { p with
              keys := p.keys.set i e.key
              children := (p.children.set (i + 1) (.leaf ar (e :: ers))).set i
                (.leaf a es.dropLast) })
      | _, _ => none
  | some _, some _ => some (false, p)
  | _, _ => none

/-- `TryTwoToThreeSplitLeafWithRight`. -/
def tryTwoToThreeSplitLeafWithRight (maxKeys : Nat) (p : Parent κ ρ) (i : Nat) :
    Option (Bool × Parent κ ρ) :=
  if p.children.length ≤ i + 1 ∨ maxKeys ≤ p.keys.length then some (false, p) else
  match p.child i, p.child (i + 1) with
  | some (.leaf al els), some (.leaf ar ers) =>
      if els.length < maxKeys ∨ ers.length < maxKeys then some (false, p) else
      let all := els ++ ers
      let total := all.length
      let first := total / 3
      let second := (total - first) / 2
      let third := total - first - second
      if first = 0 ∨ second = 0 ∨ third = 0 then some (false, p) else
      let middle := (all.drop first).take second
      let right := all.drop (first + second)
      let am := p.links.fresh
      let L := (((p.links.alloc.setPrev am (some al)).setNext am (some ar)).setPrev ar
        (some am)).setNext al (some am)
      match middle.head?, right.head?, p.key i with
      | some em, some er, some _ =>
          some (true,
            { keys := (p.keys.set i em.key).insertIdx (i + 1) er.key
              children := ((p.children.set i (.leaf al (all.take first))).set (i + 1)
                (.leaf ar right)).insertIdx (i + 1) (.leaf am middle)
              links := L })
      | _, _, _ => none
  | some _, some _ => some (false, p)
  | _, _ => none

/-- `TryTwoToThreeSplitLeafWithLeft`. -/
def tryTwoToThreeSplitLeafWithLeft (maxKeys : Nat) (p : Parent κ ρ) (i : Nat) :
    Option (Bool × Parent κ ρ) :=
  if i = 0 ∨ maxKeys ≤ p.keys.length then some (false, p)
  else tryTwoToThreeSplitLeafWithRight maxKeys p (i - 1)

/-- `TryRedistributeInternalWithLeft`. -/
def tryRedistributeInternalWithLeft (maxKeys : Nat) (p : Parent κ ρ) (i : Nat) :
    Option (Bool × Parent κ ρ) :=
  if i = 0 then some (false, p) else
  match p.child i, p.child (i - 1) with
  | some (.internal ks cs), some (.internal lks lcs) =>
      if maxKeys ≤ lks.length ∨ ks = [] ∨ cs = [] then some (false, p) else
      match ks, cs, p.key (i - 1) with
      | k :: ks', c :: cs', some sep =>
          some (true,
            { p with
              keys := p.keys.set (i - 1) k
              children := (p.children.set (i - 1)
                (.internal (lks ++ [sep]) (lcs ++ [c]))).set i (.internal ks' cs') })
      | _, _, _ => none
  | some _, some _ => some (false, p)
  | _, _ => none

/-- `TryRedistributeInternalWithRight`. -/
def tryRedistributeInternalWithRight (maxKeys : Nat) (p : Parent κ ρ) (i : Nat) :
    Option (Bool × Parent κ ρ) :=
  if p.children.length ≤ i + 1 then some (false, p) else
  match p.child i, p.child (i + 1) with
  | some (.internal ks cs), some (.internal rks rcs) =>
      if maxKeys ≤ rks.length ∨ ks = [] ∨ cs = [] then some (false, p) else
      match ks.getLast?, cs.getLast?, p.key i with
      | some k, some c, some sep =>
          some (true,
            { p with
              keys := p.keys.set i k
              children := (p.children.set (i + 1)
                (.internal (sep :: rks) (c :: rcs))).set i
                (.internal ks.dropLast cs.dropLast) })
      | _, _, _ => none
  | some _, some _ => some (false, p)
  | _, _ => none

/-- `TryTwoToThreeSplitInternalWithRight`.  The children of both nodes are
moved into `all_children` before the size test, so declining there leaves
null pointers behind. -/
def tryTwoToThreeSplitInternalWithRight (maxKeys : Nat) (p : Parent κ ρ) (i : Nat) :
    Option (Bool × Parent κ ρ) :=
  if p.children.length ≤ i + 1 ∨ maxKeys ≤ p.keys.length then some (false, p) else
  match p.child i, p.child (i + 1) with
  | some (.internal lks lcs), some (.internal rks rcs) =>
      if lks.length < maxKeys ∨ rks.length < maxKeys then some (false, p) else
      match p.key i with
      | none => none
      | some sep =>
          let allKeys := lks ++ sep :: rks
          let allChildren := lcs ++ rcs
          let total := allKeys.length
          let nLeft := total / 3
          let nMiddle := (total - nLeft) / 2
          let nRight := total - nLeft - nMiddle - 2
          if nLeft = 0 ∨ nMiddle = 0 ∨ nRight = 0 then
            some (false,
              { p with
                children := (p.children.set i (.internal lks (lcs.map fun _ => .null))).set
                  (i + 1) (.internal rks (rcs.map fun _ => .null)) })
          else
          match allKeys[nLeft]?, allKeys[nLeft + 1 + nMiddle]? with
          | some sep1, some sep2 =>
              if allChildren.length < nLeft + 1 + (nMiddle + 1) + (nRight + 1) then none else
              some (true,
                { p with
                  keys := (p.keys.set i sep1).insertIdx (i + 1) sep2
                  children := ((p.children.set i
                    (.internal (allKeys.take nLeft) (allChildren.take (nLeft + 1)))).set (i + 1)
                    (.internal (allKeys.drop (nLeft + 1 + nMiddle + 1))
                      ((allChildren.drop (nLeft + 1 + (nMiddle + 1))).take
                        (nRight + 1)))).insertIdx (i + 1)
                    (.internal ((allKeys.drop (nLeft + 1)).take nMiddle)
                      ((allChildren.drop (nLeft + 1)).take (nMiddle + 1))) })
          | _, _ => none
  | some _, some _ => some (false, p)
  | _, _ => none

/-- `TryTwoToThreeSplitInternalWithLeft`. -/
def tryTwoToThreeSplitInternalWithLeft (maxKeys : Nat) (p : Parent κ ρ) (i : Nat) :
    Option (Bool × Parent κ ρ) :=
  if i = 0 ∨ maxKeys ≤ p.keys.length then some (false, p)
  else tryTwoToThreeSplitInternalWithRight maxKeys p (i - 1)

/-- `a || b` for attempts on the parent: the second runs on what the first
left behind, and only when the first returned `false`. -/
def orTry (r : Option (Bool × Parent κ ρ))
    (next : Parent κ ρ → Option (Bool × Parent κ ρ)) : Option (Bool × Parent κ ρ) :=
  match r with
  | some (false, p) => next p
  | r => r

/-- The attempts `InsertRecursive` makes when the target child is full. -/
def adjustFullChild (maxKeys : Nat) (p : Parent κ ρ) (i : Nat) (child : Node κ ρ) :
    Option (Bool × Parent κ ρ) :=
  if child.isLeaf then
    orTry (orTry (orTry (tryRedistributeLeafWithLeft maxKeys p i)
      (tryRedistributeLeafWithRight maxKeys · i))
      (tryTwoToThreeSplitLeafWithRight maxKeys · i))
      (tryTwoToThreeSplitLeafWithLeft maxKeys · i)
  else
    orTry (orTry (orTry (tryRedistributeInternalWithLeft maxKeys p i)
      (tryRedistributeInternalWithRight maxKeys · i))
      (tryTwoToThreeSplitInternalWithRight maxKeys · i))
      (tryTwoToThreeSplitInternalWithLeft maxKeys · i)

/-! ## §5. Insertion. -/

/-- `row_ids.push_back(row_id)` unless `ContainsRowId`. -/
def addRowId (ids : List ρ) (r : ρ) : List ρ :=
  if r ∈ ids then ids else ids ++ [r]

/-- The leaf case of `InsertRecursive`. -/
def insertIntoLeaf (maxKeys : Nat) (a : Addr) (es : List (IndexEntry κ ρ)) (L : Links)
    (key : κ) (r : ρ) : Option (Node κ ρ × Option (Split κ ρ) × Links) :=
  let pos := lowerBound (es.map (·.key)) key
  let fresh :=
    let es' := es.insertIdx pos ⟨key, [r]⟩
    if es'.length ≤ maxKeys then some (.leaf a es', none, L)
    else (splitLeaf a es' L).map fun s => (s.1, some s.2.1, s.2.2)
  match es[pos]? with
  | some e =>
      if e.key = key then
        some (.leaf a (es.set pos { e with rowIds := addRowId e.rowIds r }), none, L)
      else fresh
  | none => fresh

/-- The parent takes up the split of its child `i`, and splits in turn when
it overflows. -/
def insertSplit (maxKeys : Nat) (ks : List κ) (cs : List (Node κ ρ)) (L : Links)
    (i : Nat) (s : Split κ ρ) : Option (Node κ ρ × Option (Split κ ρ) × Links) :=
  let ks' := ks.insertIdx i s.separatorKey
  let cs' := cs.insertIdx (i + 1) s.right
  if ks'.length ≤ maxKeys then some (.internal ks' cs', none, L)
  else (splitInternal ks' cs').map fun t => (t.1, some t.2, L)

/-- `InsertRecursive`. -/
def insertRecursive (maxKeys : Nat) (key : κ) (r : ρ) :
    Nat → Node κ ρ → Links → Option (Node κ ρ × Option (Split κ ρ) × Links)
  | 0, _, _ => none
  | _ + 1, .null, _ => none
  | _ + 1, .leaf a es, L => insertIntoLeaf maxKeys a es L key r
  | fuel + 1, .internal ks cs, L => do
      let p : Parent κ ρ := ⟨ks, cs, L⟩
      let i := upperBound ks key
      let child ← p.child i
      let (p, i) ←
        if maxKeys ≤ child.keyCount then
          (adjustFullChild maxKeys p i child).map fun t =>
            (t.2, if t.1 then upperBound t.2.keys key else i)
        else some (p, i)
      let target ← p.child i
      let (child', split, L') ← insertRecursive maxKeys key r fuel target p.links
      match split with
      | none => some (.internal p.keys (p.children.set i child'), none, L')
      | some s => insertSplit maxKeys p.keys (p.children.set i child') L' i s

namespace BStarPlusTree

/-- The constructor: the order is clamped to at least 3, the root is an empty
leaf. -/
def new (maxKeysPerNode : Nat) : BStarPlusTree κ ρ where
  maxKeysPerNode := max 3 maxKeysPerNode
  root := .leaf 0 []
  links := ⟨fun _ => none, fun _ => none, 1⟩

/-- `Insert`. -/
def insert (t : BStarPlusTree κ ρ) (key : κ) (r : ρ) : Option (BStarPlusTree κ ρ) :=
  match insertRecursive t.maxKeysPerNode key r t.root.height t.root t.links with
  | none => none
  | some (root, none, L) => some { t with root := root, links := L }
  | some (root, some s, L) =>
      some { t with root := .internal [s.separatorKey] [root, s.right], links := L }

end BStarPlusTree

/-! ## §6. Repairing an underfull child after a removal. -/

/-- `BorrowForLeaf`. -/
def borrowForLeaf (p : Parent κ ρ) (l r : Nat) (fromLeft : Bool) : Option (Parent κ ρ) :=
  match p.child l, p.child r, p.key l with
  | some (.leaf al els), some (.leaf ar ers), some _ =>
      if fromLeft then
        match els.getLast? with
        | none => none
        | some e =>
            some { p with
              keys := p.keys.set l e.key
              children := (p.children.set l (.leaf al els.dropLast)).set r
                (.leaf ar (e :: ers)) }
      else
        match ers with
        | e :: e' :: rest =>
            some { p with
              keys := p.keys.set l e'.key
              children := (p.children.set l (.leaf al (els ++ [e]))).set r
                (.leaf ar (e' :: rest)) }
        | _ => none
  | _, _, _ => none

/-- `MergeLeaves`. -/
def mergeLeaves (p : Parent κ ρ) (l r : Nat) : Option (Parent κ ρ) :=
  match p.child l, p.child r, p.key l with
  | some (.leaf al els), some (.leaf ar ers), some _ =>
      let L1 := p.links.setNext al (p.links.next ar)
      some {
        keys := p.keys.eraseIdx l
        children := (p.children.set l (.leaf al (els ++ ers))).eraseIdx r
        links := L1.setPrevOf (L1.next al) (some al) }
  | _, _, _ => none

/-- `BorrowForInternal`. -/
def borrowForInternal (p : Parent κ ρ) (l r : Nat) (fromLeft : Bool) : Option (Parent κ ρ) :=
  match p.child l, p.child r, p.key l with
  | some (.internal lks lcs), some (.internal rks rcs), some sep =>
      if fromLeft then
        match lks.getLast?, lcs.getLast? with
        | some k, some c =>
            some { p with
              keys := p.keys.set l k
              children := (p.children.set l (.internal lks.dropLast lcs.dropLast)).set r
                (.internal (sep :: rks) (c :: rcs)) }
        | _, _ => none
      else
        match rks, rcs with
        | k :: rks', c :: rcs' =>
            some { p with
              keys := p.keys.set l k
              children := (p.children.set l (.internal (lks ++ [sep]) (lcs ++ [c]))).set r
                (.internal rks' rcs') }
        | _, _ => none
  | _, _, _ => none

/-- `MergeInternal`. -/
def mergeInternal (p : Parent κ ρ) (l r : Nat) : Option (Parent κ ρ) :=
  match p.child l, p.child r, p.key l with
  | some (.internal lks lcs), some (.internal rks rcs), some sep =>
      some { p with
        keys := p.keys.eraseIdx l
        children := (p.children.set l (.internal (lks ++ sep :: rks) (lcs ++ rcs))).eraseIdx r }
  | _, _, _ => none

/-- `TryThreeToTwoLeaf`. -/
def tryThreeToTwoLeaf (maxKeys : Nat) (p : Parent κ ρ) (l : Nat) :
    Option (Bool × Parent κ ρ) :=
  if p.children.length ≤ l + 2 then some (false, p) else
  match p.child l, p.child (l + 1), p.child (l + 2) with
  | some (.leaf al els), some (.leaf am ems), some (.leaf ar ers) =>
      let all := els ++ ems ++ ers
      if 2 * maxKeys < all.length then some (false, p) else
      if all.length < minKeys maxKeys * 2 then some (false, p) else
      let nLeft := all.length / 2
      let nRight := all.length - nLeft
      if nLeft < minKeys maxKeys ∨ nRight < minKeys maxKeys then some (false, p) else
      let L1 := p.links.setNext am (p.links.next ar)
      let L2 := L1.setPrevOf (L1.next am) (some am)
      let L3 := (L2.setPrev am (some al)).setNext al (some am)
      match all.drop nLeft, p.key l, p.key (l + 1) with
      | e :: rest, some _, some _ =>
          some (true,
            { keys := (p.keys.set l e.key).eraseIdx (l + 1)
              children := ((p.children.set l (.leaf al (all.take nLeft))).set (l + 1)
                (.leaf am (e :: rest))).eraseIdx (l + 2)
              links := L3 })
      | _, _, _ => none
  | some _, some _, some _ => some (false, p)
  | _, _, _ => none

/-- `TryThreeToTwoInternal`.  All children are moved into `all_children`
before the size tests, so declining there leaves null pointers behind. -/
def tryThreeToTwoInternal (maxKeys : Nat) (p : Parent κ ρ) (l : Nat) :
    Option (Bool × Parent κ ρ) :=
  if p.children.length ≤ l + 2 then some (false, p) else
  match p.child l, p.child (l + 1), p.child (l + 2) with
  | some (.internal lks lcs), some (.internal mks mcs), some (.internal rks rcs) =>
      match p.key l, p.key (l + 1) with
      | some sep1, some sep2 =>
          let allKeys := lks ++ sep1 :: (mks ++ sep2 :: rks)
          let allChildren := lcs ++ mcs ++ rcs
          let emptied : Parent κ ρ :=
            { p with
              children := ((p.children.set l (.internal lks (lcs.map fun _ => .null))).set
                (l + 1) (.internal mks (mcs.map fun _ => .null))).set
                (l + 2) (.internal rks (rcs.map fun _ => .null)) }
          if 2 * maxKeys + 1 < allKeys.length then some (false, emptied) else
          if allKeys.length < minKeys maxKeys * 2 + 1 then some (false, emptied) else
          let nLeft := allKeys.length / 2
          let nRight := allKeys.length - nLeft - 1
          if nLeft < minKeys maxKeys ∨ nRight < minKeys maxKeys then some (false, emptied) else
          if allChildren.length < nLeft + 1 + (nRight + 1) then none else
          match allKeys[nLeft]? with
          | none => none
          | some sep =>
              some (true,
                { p with
                  keys := (p.keys.set l sep).eraseIdx (l + 1)
                  children := ((p.children.set l
                    (.internal (allKeys.take nLeft) (allChildren.take (nLeft + 1)))).set (l + 1)
                    (.internal (allKeys.drop (nLeft + 1))
                      ((allChildren.drop (nLeft + 1)).take (nRight + 1)))).eraseIdx (l + 2) })
      | _, _ => none
  | some _, some _, some _ => some (false, p)
  | _, _, _ => none

/-- The 3-to-2 attempt on the triple starting at `l`, for the child's kind. -/
def tryThreeToTwo (maxKeys : Nat) (leaf : Bool) (p : Parent κ ρ) (l : Nat) :
    Option (Bool × Parent κ ρ) :=
  if leaf then tryThreeToTwoLeaf maxKeys p l else tryThreeToTwoInternal maxKeys p l

/-- The three 3-to-2 attempts of `FixChildUnderflow`, guarded as in the code. -/
def tryThreeToTwoAround (maxKeys : Nat) (leaf : Bool) (p : Parent κ ρ) (i : Nat) :
    Option (Bool × Parent κ ρ) :=
  if p.children.length < 3 then some (false, p) else
  orTry (orTry
    (if 0 < i ∧ i + 1 < p.children.length then tryThreeToTwo maxKeys leaf p (i - 1)
      else some (false, p))
    (fun p => if i + 2 < p.children.length then tryThreeToTwo maxKeys leaf p i
      else some (false, p)))
    (fun p => if 2 ≤ i then tryThreeToTwo maxKeys leaf p (i - 2) else some (false, p))

/-- The borrowing half of `FixChildUnderflow` for a sibling pair. -/
def borrowFor (leaf : Bool) (p : Parent κ ρ) (l r : Nat) (fromLeft : Bool) :
    Option (Parent κ ρ) :=
  if leaf then borrowForLeaf p l r fromLeft else borrowForInternal p l r fromLeft

/-- The merging half of `FixChildUnderflow` for a sibling pair. -/
def mergePair (leaf : Bool) (p : Parent κ ρ) (l r : Nat) : Option (Parent κ ρ) :=
  if leaf then mergeLeaves p l r else mergeInternal p l r

/-- `FixChildUnderflow` once neither neighbour can lend a key: the 3-to-2
attempts, then the merge of the only two children. -/
def fixByMerging (maxKeys : Nat) (leaf : Bool) (p : Parent κ ρ) (i : Nat) :
    Option (Parent κ ρ) :=
  match tryThreeToTwoAround maxKeys leaf p i with
  | none => none
  | some (true, p') => some p'
  | some (false, p') =>
      if p'.children.length = 2 then
        if 0 < i then mergePair leaf p' (i - 1) i else mergePair leaf p' i (i + 1)
      else some p'

/-- Whether the left neighbour of child `i` exists and has a key to spare. -/
def leftLends (maxKeys : Nat) (p : Parent κ ρ) (i : Nat) : Option Bool :=
  if 0 < i then (p.child (i - 1)).map fun s => decide (minKeys maxKeys < s.keyCount)
  else some false

/-- Whether the right neighbour of child `i` exists and has a key to spare. -/
def rightLends (maxKeys : Nat) (p : Parent κ ρ) (i : Nat) : Option Bool :=
  if i + 1 < p.children.length then
    (p.child (i + 1)).map fun s => decide (minKeys maxKeys < s.keyCount)
  else some false

/-- `FixChildUnderflow`. -/
def fixChildUnderflow (maxKeys : Nat) (p : Parent κ ρ) (i : Nat) : Option (Parent κ ρ) := do
  let child ← p.child i
  if minKeys maxKeys ≤ child.keyCount ∨ p.children.length = 1 then some p else
  let lends ← leftLends maxKeys p i
  if lends then borrowFor child.isLeaf p (i - 1) i true else
  let lends ← rightLends maxKeys p i
  if lends then borrowFor child.isLeaf p i (i + 1) false else
  fixByMerging maxKeys child.isLeaf p i

/-! ## §7. Removal, lookup and range scan. -/

/-- The leaf case of `RemoveRecursive`. -/
def removeFromLeaf (a : Addr) (es : List (IndexEntry κ ρ)) (key : κ) (r : ρ) :
    Bool × Node κ ρ :=
  let pos := lowerBound (es.map (·.key)) key
  match es[pos]? with
  | none => (false, .leaf a es)
  | some e =>
      if e.key = key ∧ r ∈ e.rowIds then
        let ids := e.rowIds.erase r
        if ids = [] then (true, .leaf a (es.eraseIdx pos))
        else (true, .leaf a (es.set pos { e with rowIds := ids }))
      else (false, .leaf a es)

/-- `RemoveRecursive`. -/
def removeRecursive (maxKeys : Nat) (key : κ) (r : ρ) :
    Nat → Node κ ρ → Links → Option (Bool × Node κ ρ × Links)
  | 0, _, _ => none
  | _ + 1, .null, _ => none
  | _ + 1, .leaf a es, L =>
      let t := removeFromLeaf a es key r
      some (t.1, t.2, L)
  | fuel + 1, .internal ks cs, L => do
      let p : Parent κ ρ := ⟨ks, cs, L⟩
      let i := upperBound ks key
      let child ← p.child i
      let (removed, child', L') ← removeRecursive maxKeys key r fuel child L
      if removed then
        let p' ← fixChildUnderflow maxKeys ⟨ks, cs.set i child', L'⟩ i
        some (true, .internal p'.keys p'.children, p'.links)
      else some (false, .internal ks (cs.set i child'), L')

/-- The body of the `for` loop of `RangeScan` over one leaf: the entries it
appends, and whether it returned because a key reached the upper bound. -/
def scanEntries (lower upper : κ) : List (IndexEntry κ ρ) → List (IndexEntry κ ρ) × Bool
  | [] => ([], false)
  | e :: es =>
      if e.key < lower then scanEntries lower upper es
      else if upper ≤ e.key then ([], true)
      else
        let t := scanEntries lower upper es
        (e :: t.1, t.2)

/-- The `while (leaf != nullptr)` loop of `RangeScan`.  A leaf pointer is
dereferenced in the list of leaves the tree owns. -/
def scanLeaves (leaves : List (Addr × List (IndexEntry κ ρ))) (L : Links) (lower upper : κ) :
    Nat → Option Addr → Option (List (IndexEntry κ ρ))
  | _, none => some []
  | 0, some _ => none
  | fuel + 1, some a =>
      match leaves.find? (fun l => l.1 = a) with
      | none => none
      | some l =>
          match scanEntries lower upper l.2 with
          | (xs, true) => some xs
          | (xs, false) =>
              (scanLeaves leaves L lower upper fuel (L.next a)).map (xs ++ ·)

namespace BStarPlusTree

/-- `Remove`. -/
def remove (t : BStarPlusTree κ ρ) (key : κ) (r : ρ) : Option (BStarPlusTree κ ρ) :=
  match removeRecursive t.maxKeysPerNode key r t.root.height t.root t.links with
  | none => none
  | some (_, root, L) =>
      match root with
      | .internal _ [c] => some { t with root := c, links := L }
      | _ => some { t with root := root, links := L }

/-- `Find`. -/
def find (t : BStarPlusTree κ ρ) (key : κ) : Option (List ρ) :=
  match findLeaf key t.root.height t.root with
  | none => none
  | some (_, es) =>
      match es[lowerBound (es.map (·.key)) key]? with
      | none => some []
      | some e => if e.key = key then some e.rowIds else some []

/-- `RangeScan`. -/
def rangeScan (t : BStarPlusTree κ ρ) (lower upper : κ) : Option (List (IndexEntry κ ρ)) :=
  match findLeaf lower t.root.height t.root with
  | none => none
  | some (a, _) =>
      scanLeaves t.root.leaves t.links lower upper t.root.leaves.length (some a)

end BStarPlusTree

end Ordered

end CustomDbms.Index
