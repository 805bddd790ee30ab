/-
  CustomDbms.Lib.Shards
  ─────────────────────
  **DATA SPREAD OVER SHARDS.**

  A list of shards holds a list of elements, each on the shard its route gives.
  What is selected by a predicate that fixes the route lies on one shard; keys
  that decide the route and differ on every shard differ everywhere.  Elements
  are spread by appending each to the group of its route; no element is lost or
  doubled when the shards get these groups.
-/
import CustomDbms.Lib.Dict
import Mathlib.Data.List.Basic
import Mathlib.Data.List.Nodup
import Mathlib.Order.Lattice

namespace CustomDbms.Lib

variable {α β : Type}

/-- Every element is on the shard its route gives. -/
def Placed (route : α → Option Nat) (shards : List (List α)) : Prop :=
  ∀ i shard, shards[i]? = some shard → ∀ a ∈ shard, route a = some i

namespace Placed

variable {route : α → Option Nat} {shards : List (List α)}

theorem route_of_mem (h : Placed route shards) {i : Nat} {shard : List α}
    (hi : shards[i]? = some shard) {a : α} (ha : a ∈ shard) : route a = some i :=
  h i shard hi a ha

/-- **A selection that fixes the route finds nothing on the other shards.** -/
theorem filter_eq_nil (h : Placed route shards) {p : α → Bool} {i j : Nat} {shard : List α}
    (hj : shards[j]? = some shard) (hne : j ≠ i)
    (hp : ∀ a ∈ shard, p a = true → route a = some i) : shard.filter p = [] := by
  rw [List.filter_eq_nil_iff]
  intro a ha hpa
  have hi := hp a ha hpa
  rw [h.route_of_mem hj ha] at hi
  exact hne (Option.some.inj hi)

/-- **Keys that decide the route are unique everywhere when they are on each
shard.** -/
theorem nodup_flatten (h : Placed route shards) {key : α → β}
    (hkey : ∀ a ∈ shards.flatten, ∀ b ∈ shards.flatten, key a = key b → route a = route b)
    (hnodup : ∀ shard ∈ shards, (shard.map key).Nodup) : (shards.flatten.map key).Nodup := by
  rw [List.map_flatten, List.nodup_flatten]
  constructor
  · intro l hl
    obtain ⟨shard, hs, rfl⟩ := List.mem_map.mp hl
    exact hnodup shard hs
  · rw [List.pairwise_map, List.pairwise_iff_getElem]
    intro i j hi hj hlt x hx hx'
    obtain ⟨a, ha, rfl⟩ := List.mem_map.mp hx
    obtain ⟨b, hb, heq⟩ := List.mem_map.mp hx'
    have hroute := hkey a (List.mem_flatten.mpr ⟨_, List.getElem_mem hi, ha⟩) b
      (List.mem_flatten.mpr ⟨_, List.getElem_mem hj, hb⟩) heq.symm
    rw [h.route_of_mem (List.getElem?_eq_getElem hi) ha,
      h.route_of_mem (List.getElem?_eq_getElem hj) hb] at hroute
    have := Option.some.inj hroute
    omega

end Placed

/-- **Filters for different keys that cover a list make it up.** -/
theorem flatMap_filter_perm {route : α → Option Nat} {keys : List Nat} (hkeys : keys.Nodup)
    {as : List α} (hcover : ∀ a ∈ as, ∃ i ∈ keys, route a = some i) :
    (keys.flatMap fun i => as.filter fun a => decide (route a = some i)).Perm as := by
  induction keys generalizing as with
  | nil =>
      cases as with
      | nil => exact List.Perm.refl _
      | cons a as =>
          obtain ⟨i, hi, -⟩ := hcover a (by simp)
          cases hi
  | cons k keys ih =>
      obtain ⟨hk, hkeys⟩ := List.nodup_cons.mp hkeys
      -- the later filters do not look at what the first one takes
      have hrest : (keys.flatMap fun i => as.filter fun a => decide (route a = some i))
          = keys.flatMap fun i => (as.filter fun a => !decide (route a = some k)).filter
              fun a => decide (route a = some i) := by
        refine List.flatMap_congr fun i hi => ?_
        rw [List.filter_filter]
        refine List.filter_congr fun a _ => ?_
        by_cases ha : route a = some i
        · have hne : i ≠ k := fun h => hk (h ▸ hi)
          simp [ha, hne]
        · simp [ha]
      have hcovered : ∀ a ∈ as.filter fun a => !decide (route a = some k),
          ∃ i ∈ keys, route a = some i := by
        intro a ha
        obtain ⟨hmem, hne⟩ := List.mem_filter.mp ha
        obtain ⟨i, hi, hroute⟩ := hcover a hmem
        rcases List.mem_cons.mp hi with rfl | hi
        · simp [hroute] at hne
        · exact ⟨i, hi, hroute⟩
      have hlater := ih hkeys hcovered
      rw [List.flatMap_cons, hrest]
      exact (hlater.append_left _).trans (List.filter_append_perm _ as)

/-- The groups hold the elements by their routes, in order; no group is empty. -/
def GroupedBy (route : α → Option Nat) (as : List α) (groups : Dict Nat (List α)) : Prop :=
  ∀ i group, groups.find? i = some group ↔
    group ≠ [] ∧ group = as.filter fun a => decide (route a = some i)

/-- The dictionary with an element appended to a group. -/
def appendTo (groups : Dict Nat (List α)) (i : Nat) (a : α) : Dict Nat (List α) :=
  (groups.emplace i []).modify i (· ++ [a])

theorem find?_appendTo (groups : Dict Nat (List α)) (i j : Nat) (a : α) :
    (appendTo groups i a).find? j
      = if j = i then some ((groups.find? i).getD [] ++ [a]) else groups.find? j :=
  Dict.find?_modify_emplace groups i j [] (· ++ [a])

namespace GroupedBy

variable {route : α → Option Nat} {as : List α} {groups : Dict Nat (List α)}

theorem empty (route : α → Option Nat) : GroupedBy route [] (Dict.empty : Dict Nat (List α)) := by
  intro i group
  rw [Dict.find?_empty]
  constructor
  · intro h
    cases h
  · rintro ⟨hne, hnil⟩
    exact absurd hnil hne

/-- The group of a route, empty where there is none. -/
theorem getD (h : GroupedBy route as groups) (i : Nat) :
    (groups.find? i).getD [] = as.filter fun a => decide (route a = some i) := by
  cases hi : groups.find? i with
  | some group => exact ((h i group).mp hi).2
  | none =>
      by_contra hne
      have hsome := (h i _).mpr ⟨fun hnil => hne (by rw [hnil]; rfl), rfl⟩
      rw [hi] at hsome
      cases hsome

/-- **One more element.** -/
theorem append (h : GroupedBy route as groups) {i : Nat} {a : α} (ha : route a = some i) :
    GroupedBy route (as ++ [a]) (appendTo groups i a) := by
  intro j group
  rw [find?_appendTo, List.filter_append]
  by_cases hj : j = i
  · rw [if_pos hj, h.getD i, hj]
    have hone : [a].filter (fun b => decide (route b = some i)) = [a] := by simp [ha]
    rw [hone]
    constructor
    · intro heq
      cases heq
      exact ⟨by simp, rfl⟩
    · rintro ⟨-, rfl⟩
      rfl
  · have hne : route a ≠ some j := by
      rw [ha]
      exact fun heq => hj (Option.some.inj heq).symm
    have hnone : [a].filter (fun b => decide (route b = some j)) = [] := by simp [hne]
    rw [if_neg hj, hnone, List.append_nil]
    exact h j group

/-- An element of a group has its route. -/
theorem route_of_mem (h : GroupedBy route as groups) {i : Nat} {group : List α}
    (hi : groups.find? i = some group) {a : α} (ha : a ∈ group) : a ∈ as ∧ route a = some i := by
  rw [((h i group).mp hi).2] at ha
  obtain ⟨hmem, hroute⟩ := List.mem_filter.mp ha
  exact ⟨hmem, of_decide_eq_true hroute⟩

/-- **The groups hold every element that has a route, as often as it occurs.** -/
theorem flatten_perm (h : GroupedBy route as groups) (hroute : ∀ a ∈ as, ∃ i, route a = some i) :
    (groups.entries.flatMap (·.2)).Perm as := by
  have hgroups : groups.entries.flatMap (·.2)
      = (groups.entries.map (·.1)).flatMap fun i =>
          as.filter fun a => decide (route a = some i) := by
    rw [List.flatMap_map]
    refine List.flatMap_congr fun p hp => ?_
    exact ((h p.1 p.2).mp (Dict.mem_entries_iff.mp hp)).2
  rw [hgroups]
  refine flatMap_filter_perm groups.nodup ?_
  intro a ha
  obtain ⟨i, hi⟩ := hroute a ha
  have hmem : a ∈ as.filter fun a => decide (route a = some i) :=
    List.mem_filter.mpr ⟨ha, by simpa using hi⟩
  have hfind := (h i _).mpr ⟨List.ne_nil_of_mem hmem, rfl⟩
  exact ⟨i, List.mem_map.mpr ⟨_, Dict.mem_entries_iff.mpr hfind, rfl⟩, hi⟩

end GroupedBy

/-! Elements that are spread over the shards. -/

/-- Shards that have each got more elements hold all these. -/
theorem flatten_perm_append {extra : Nat → List α} {shards shards' : List (List α)} {k : Nat}
    (hlength : shards'.length = shards.length)
    (h : ∀ i (shard shard' : List α), shards[i]? = some shard → shards'[i]? = some shard' →
      shard'.Perm (shard ++ extra (k + i))) :
    shards'.flatten.Perm (shards.flatten ++ (List.range' k shards.length).flatMap extra) := by
  induction shards generalizing shards' k with
  | nil => rw [List.length_eq_zero_iff.mp hlength]; exact List.Perm.refl _
  | cons shard shards ih =>
      cases shards' with
      | nil => cases hlength
      | cons shard' shards' =>
          have hfirst := h 0 shard shard' rfl rfl
          have hrest := ih (k := k + 1) (Nat.succ.inj hlength) fun i s s' hs hs' => by
            have hi := h (i + 1) s s' hs hs'
            rwa [Nat.add_comm i, ← Nat.add_assoc] at hi
          rw [List.flatten_cons, List.flatten_cons, List.length_cons, List.range'_succ,
            List.flatMap_cons, List.append_assoc]
          refine (hfirst.append hrest).trans ?_
          rw [List.append_assoc]
          refine List.Perm.append_left _ ?_
          rw [← List.append_assoc, ← List.append_assoc]
          exact List.perm_append_comm.append_right _

/-- **Elements spread by their routes**: every element ends on one shard. -/
theorem flatten_perm_spread {route : α → Option Nat} {as : List α} {shards shards' : List (List α)}
    (hlength : shards'.length = shards.length)
    (h : ∀ i (shard shard' : List α), shards[i]? = some shard → shards'[i]? = some shard' →
      shard'.Perm (shard ++ as.filter fun a => decide (route a = some i)))
    (hcover : ∀ a ∈ as, ∃ i < shards.length, route a = some i) :
    shards'.flatten.Perm (shards.flatten ++ as) := by
  have hmore := flatten_perm_append (k := 0) hlength fun i s s' hs hs' => by
    rw [Nat.zero_add]
    exact h i s s' hs hs'
  refine hmore.trans (List.Perm.append_left _ (flatMap_filter_perm List.nodup_range' ?_))
  intro a ha
  obtain ⟨i, hi, hroute⟩ := hcover a ha
  exact ⟨i, List.mem_range'_1.mpr ⟨Nat.zero_le i, by omega⟩, hroute⟩

/-- Such shards are in their places where they were before. -/
theorem placed_spread_iff {route : α → Option Nat} {as : List α} {shards shards' : List (List α)}
    (hlength : shards'.length = shards.length)
    (h : ∀ i (shard shard' : List α), shards[i]? = some shard → shards'[i]? = some shard' →
      shard'.Perm (shard ++ as.filter fun a => decide (route a = some i))) :
    Placed route shards' ↔ Placed route shards := by
  constructor
  · intro hplaced i shard hi a ha
    have hlt : i < shards'.length := hlength ▸ (List.getElem?_eq_some_iff.mp hi).1
    have hi' := List.getElem?_eq_getElem hlt
    exact hplaced i _ hi' a ((h i _ _ hi hi').mem_iff.mpr (List.mem_append_left _ ha))
  · intro hplaced i shard' hi' a ha
    have hlt : i < shards.length := hlength ▸ (List.getElem?_eq_some_iff.mp hi').1
    have hi := List.getElem?_eq_getElem hlt
    rcases List.mem_append.mp ((h i _ _ hi hi').mem_iff.mp ha) with hold | hnew
    · exact hplaced i _ hi a hold
    · exact of_decide_eq_true (List.mem_filter.mp hnew).2

end CustomDbms.Lib
