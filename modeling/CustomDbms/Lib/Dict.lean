/-
  CustomDbms.Lib.Dict
  ───────────────────
  **DICTIONARIES — finite maps with an iteration order.**

  A `Dict` is a list of key/value pairs without a repeated key; the list is the
  order in which the map is iterated.  `emplace`, `erase`, `assign` and
  `modify` are the map operations of the usual hash-map interface, all of which
  keep the position of the keys they do not remove.

    • `find?_emplace` … `find?_mapVals` — what a lookup reads after each one.
    • `mem_entries_iff` — iteration visits exactly what a lookup finds.
    • `Indexes.assign`, `Indexes.modify` — a dictionary that finds the elements
      of a list by a key of theirs.
-/
import Mathlib.Data.List.Nodup
import Mathlib.Data.List.Perm.Basic

namespace CustomDbms.Lib

/-- A finite map with an iteration order. -/
structure Dict (α β : Type) where
  entries : List (α × β)
  nodup : (entries.map Prod.fst).Nodup

namespace Dict

variable {α β γ : Type}

@[ext] theorem ext {d e : Dict α β} (h : d.entries = e.entries) : d = e := by
  cases d; cases e; simp_all

/-- The empty map. -/
def empty : Dict α β := ⟨[], List.nodup_nil⟩

instance : Inhabited (Dict α β) := ⟨empty⟩

/-- All keys, in iteration order. -/
def keys (d : Dict α β) : List α := d.entries.map Prod.fst

/-- The values rewritten in place. -/
def mapVals (f : α → β → γ) (d : Dict α β) : Dict α γ where
  entries := d.entries.map fun p => (p.1, f p.1 p.2)
  nodup := by simpa [List.map_map, Function.comp_def] using d.nodup

/-- New values for the first keys, in iteration order; the other keys go. -/
def withVals (d : Dict α β) (vs : List γ) : Dict α γ where
  entries := d.entries.zipWith (fun p v => (p.1, v)) vs
  nodup := by
    have hkeys : (d.entries.zipWith (fun p v => (p.1, v)) vs).map Prod.fst
        = (d.entries.map Prod.fst).take vs.length := by
      rw [List.map_zipWith, ← List.map_take]
      generalize d.entries = l
      induction l generalizing vs with
      | nil => simp
      | cons p l ih => cases vs <;> simp [ih]
    rw [hkeys]
    exact d.nodup.sublist (List.take_sublist _ _)

/-- New values computed one by one, seen through `g`. -/
theorem mapVals_withVals {δ : Type} {d : Dict α β} {vs : List γ} {f : α → β → δ} {g : α → γ → δ}
    (h : List.Forall₂ (fun p v => g p.1 v = f p.1 p.2) d.entries vs) :
    (d.withVals vs).mapVals g = d.mapVals f := by
  apply ext
  simp only [mapVals, withVals]
  generalize d.entries = l at h ⊢
  induction h with
  | nil => rfl
  | cons hpv _ ih => simp [hpv, ih]

theorem mem_withVals {d : Dict α β} {vs : List γ} {P : α × β → γ → Prop}
    (h : List.Forall₂ P d.entries vs) {a : α} {v : γ} (hmem : (a, v) ∈ (d.withVals vs).entries) :
    ∃ b, (a, b) ∈ d.entries ∧ P (a, b) v := by
  simp only [withVals] at hmem
  generalize d.entries = l at h hmem ⊢
  induction h with
  | nil => cases hmem
  | cons hpv _ ih =>
      rcases List.mem_cons.mp hmem with heq | hmem
      · cases heq
        exact ⟨_, List.mem_cons_self .., hpv⟩
      · obtain ⟨b, hb, hP⟩ := ih hmem
        exact ⟨b, List.mem_cons_of_mem _ hb, hP⟩

@[simp] theorem keys_mapVals {f : α → β → γ} {d : Dict α β} : (d.mapVals f).keys = d.keys := by
  simp [keys, mapVals, List.map_map, Function.comp_def]

variable [DecidableEq α]

instance [DecidableEq β] : DecidableEq (Dict α β) := fun d e =>
  decidable_of_iff (d.entries = e.entries) ⟨ext, fun h => h ▸ rfl⟩

/-- `find`. -/
def find? (d : Dict α β) (a : α) : Option β :=
  (d.entries.find? (fun p => decide (p.1 = a))).map Prod.snd

/-- `contains`. -/
def contains (d : Dict α β) (a : α) : Bool := (d.find? a).isSome

/-! ## §1. Lookup and iteration. -/

theorem find?_eq_none_iff {d : Dict α β} {a : α} : d.find? a = none ↔ a ∉ d.keys := by
  rw [find?, Option.map_eq_none_iff, List.find?_eq_none, keys, List.mem_map]
  constructor
  · rintro h ⟨p, hp, rfl⟩
    exact h p hp (by simp)
  · intro h p hp heq
    exact h ⟨p, hp, by simpa using heq⟩

theorem mem_entries_iff {d : Dict α β} {a : α} {b : β} :
    (a, b) ∈ d.entries ↔ d.find? a = some b := by
  constructor
  · intro h
    obtain ⟨A, B, hAB⟩ := List.append_of_mem h
    have hnd := d.nodup
    rw [hAB, List.map_append, List.map_cons, List.nodup_append] at hnd
    have hnone : A.find? (fun p => decide (p.1 = a)) = none := by
      rw [List.find?_eq_none]
      intro p hp heq
      have hpa : p.1 = a := by simpa using heq
      exact hnd.2.2 p.1 (List.mem_map_of_mem hp) a (by simp) hpa
    rw [find?, hAB, List.find?_append, hnone]
    simp
  · intro h
    rw [find?] at h
    rcases hf : d.entries.find? (fun p => decide (p.1 = a)) with _ | p
    · rw [hf] at h
      simp at h
    · rw [hf] at h
      have hp : p.1 = a := by simpa using List.find?_some hf
      have hb : p.2 = b := by simpa using h
      have := List.mem_of_find?_eq_some hf
      rwa [show p = (a, b) by rw [← hp, ← hb]] at this

theorem mem_keys_iff {d : Dict α β} {a : α} : a ∈ d.keys ↔ ∃ b, d.find? a = some b := by
  rw [← Option.ne_none_iff_exists', ne_eq, find?_eq_none_iff, not_not]

/-- Maps with the same iteration order and the same lookups are the same. -/
theorem ext_find? {d e : Dict α β} (hk : d.keys = e.keys)
    (h : ∀ a, d.find? a = e.find? a) : d = e := by
  have key : ∀ (l : List (α × β)), (∀ p ∈ l, d.find? p.1 = some p.2) →
      l = (l.map Prod.fst).filterMap fun a => (d.find? a).map (a, ·) := by
    intro l hl
    induction l with
    | nil => rfl
    | cons p l ih =>
        have hp := hl p (by simp)
        rw [List.map_cons, List.filterMap_cons, hp]
        simp only [Option.map_some]
        rw [← ih (fun q hq => hl q (by simp [hq]))]
  apply ext
  have hd := key d.entries (fun p hp => mem_entries_iff.mp hp)
  have he := key e.entries (fun p hp => by rw [h]; exact mem_entries_iff.mp hp)
  rw [hd, he]
  exact congrArg _ hk

/-! ## §2. The operations. -/

/-- `emplace`: no effect on a key that is there. -/
def emplace (d : Dict α β) (a : α) (b : β) : Dict α β :=
  if h : a ∈ d.keys then d
  else ⟨d.entries ++ [(a, b)], by
    have hnd := d.nodup
    rw [List.map_append, List.nodup_append]
    refine ⟨hnd, by simp, ?_⟩
    intro x hx y hy
    obtain rfl : y = a := by simpa using hy
    intro heq
    exact h (heq ▸ hx)⟩

/-- `erase`. -/
def erase (d : Dict α β) (a : α) : Dict α β where
  entries := d.entries.filter fun p => decide (p.1 ≠ a)
  nodup := d.nodup.sublist (List.Sublist.map _ List.filter_sublist)

/-- The value of a key rewritten in place. -/
def modify (d : Dict α β) (a : α) (f : β → β) : Dict α β where
  entries := d.entries.map fun p => if p.1 = a then (p.1, f p.2) else p
  nodup := by
    have : (d.entries.map fun p => if p.1 = a then (p.1, f p.2) else p).map Prod.fst
        = d.entries.map Prod.fst := by
      rw [List.map_map]
      apply List.map_congr_left
      intro p _
      by_cases h : p.1 = a <;> simp [h]
    rw [this]
    exact d.nodup

/-- `map[a] = b`. -/
def assign (d : Dict α β) (a : α) (b : β) : Dict α β :=
  if a ∈ d.keys then d.modify a (fun _ => b) else d.emplace a b

@[simp] theorem find?_empty (a : α) : (empty : Dict α β).find? a = none := rfl

theorem find?_emplace {d : Dict α β} {a x : α} {b : β} (h : d.find? a = none) :
    (d.emplace a b).find? x = if x = a then some b else d.find? x := by
  have ha : a ∉ d.keys := find?_eq_none_iff.mp h
  simp only [emplace, dif_neg ha, find?, List.find?_append]
  by_cases hx : x = a
  · subst hx
    have : d.entries.find? (fun p => decide (p.1 = x)) = none := by
      simpa [find?] using h
    simp [this]
  · cases d.entries.find? (fun p => decide (p.1 = x)) <;> simp [hx, Ne.symm hx]

theorem keys_emplace {d : Dict α β} {a : α} {b : β} (h : d.find? a = none) :
    (d.emplace a b).keys = d.keys ++ [a] := by
  have ha : a ∉ d.keys := find?_eq_none_iff.mp h
  rw [emplace, dif_neg ha]
  simp [keys]

theorem emplace_of_find? {d : Dict α β} {a : α} {b c : β} (h : d.find? a = some c) :
    d.emplace a b = d := by
  have ha : a ∈ d.keys := mem_keys_iff.mpr ⟨c, h⟩
  simp [emplace, ha]

theorem mem_emplace {d : Dict α β} {a : α} {b : β} {p : α × β}
    (h : p ∈ (d.emplace a b).entries) : p ∈ d.entries ∨ p = (a, b) := by
  unfold emplace at h
  split at h
  · exact Or.inl h
  · exact (List.mem_append.mp h).imp_right List.mem_singleton.mp

theorem find?_erase {d : Dict α β} {a x : α} :
    (d.erase a).find? x = if x = a then none else d.find? x := by
  unfold find? erase
  simp only [List.find?_filter]
  by_cases hx : x = a
  · subst hx
    rw [List.find?_eq_none.mpr]
    · simp
    · intro p _
      simp
  · rw [if_neg hx]
    congr 2
    funext p
    by_cases hp : p.1 = x
    · simp [hp, hx]
    · simp [hp]

theorem find?_modify {d : Dict α β} {a x : α} {f : β → β} :
    (d.modify a f).find? x = if x = a then (d.find? a).map f else d.find? x := by
  unfold find? modify
  simp only [List.find?_map]
  have hfst : ((fun p : α × β => decide (p.1 = x)) ∘
      fun p : α × β => if p.1 = a then (p.1, f p.2) else p) = fun p => decide (p.1 = x) := by
    funext p
    by_cases h : p.1 = a <;> simp [h]
  rw [hfst]
  by_cases hx : x = a
  · subst hx
    rcases hf : d.entries.find? (fun p => decide (p.1 = x)) with _ | p
    · simp [hf]
    · have hp : p.1 = x := by simpa using List.find?_some hf
      simp [hf, hp]
  · rcases hf : d.entries.find? (fun p => decide (p.1 = x)) with _ | p
    · simp [hf, hx]
    · have hp : p.1 = x := by simpa using List.find?_some hf
      simp [hf, hp, hx]

/-- An entry that is changed, or made from a default. -/
theorem find?_modify_emplace (d : Dict α β) (a x : α) (b : β) (f : β → β) :
    ((d.emplace a b).modify a f).find? x
      = if x = a then some (f ((d.find? a).getD b)) else d.find? x := by
  rw [find?_modify]
  cases ha : d.find? a with
  | none =>
      rw [find?_emplace ha, find?_emplace ha, if_pos rfl]
      by_cases hx : x = a
      · rw [if_pos hx, if_pos hx]
        rfl
      · rw [if_neg hx, if_neg hx, if_neg hx]
  | some c =>
      rw [emplace_of_find? ha, ha]
      rfl

@[simp] theorem keys_modify (d : Dict α β) (a : α) (f : β → β) :
    (d.modify a f).keys = d.keys := by
  unfold keys modify
  rw [List.map_map]
  apply List.map_congr_left
  intro p _
  by_cases h : p.1 = a <;> simp [h]

theorem modify_eq_self {d : Dict α β} {a : α} {f : β → β}
    (h : ∀ b, d.find? a = some b → f b = b) : d.modify a f = d := by
  refine ext_find? (keys_modify d a f) fun x => ?_
  rw [find?_modify]
  split_ifs with hx
  · subst hx
    cases hd : d.find? x with
    | none => rfl
    | some b => rw [Option.map_some, h b hd]
  · rfl

theorem modify_congr {d : Dict α β} {a : α} {f g : β → β}
    (h : ∀ b, d.find? a = some b → f b = g b) : d.modify a f = d.modify a g := by
  refine ext_find? (by simp) fun x => ?_
  rw [find?_modify, find?_modify]
  split_ifs with hx
  · cases hd : d.find? a with
    | none => rfl
    | some b => rw [Option.map_some, Option.map_some, h b hd]
  · rfl

/-- A new entry rewritten at once. -/
theorem modify_emplace {d : Dict α β} {a : α} {b : β} {f : β → β} (h : d.find? a = none) :
    (d.emplace a b).modify a f = d.emplace a (f b) := by
  refine ext_find? (by rw [keys_modify, keys_emplace h, keys_emplace h]) fun x => ?_
  simp only [find?_modify, find?_emplace h]
  by_cases hx : x = a
  · simp [hx]
  · simp [hx]

theorem entries_emplace {d : Dict α β} {a : α} {b : β} (h : d.find? a = none) :
    (d.emplace a b).entries = d.entries ++ [(a, b)] := by
  rw [emplace, dif_neg (find?_eq_none_iff.mp h)]

/-- Entries put in one after the other stand there in that order. -/
theorem entries_foldl_emplace {l : List (α × β)} {d : Dict α β}
    (h : (d.keys ++ l.map Prod.fst).Nodup) :
    (l.foldl (fun d p => d.emplace p.1 p.2) d).entries = d.entries ++ l := by
  induction l generalizing d with
  | nil => simp
  | cons p l ih =>
      have hnone : d.find? p.1 = none := by
        rw [find?_eq_none_iff]
        intro hmem
        rw [List.map_cons, List.nodup_append] at h
        exact h.2.2 _ hmem _ (List.mem_cons_self ..) rfl
      rw [List.foldl_cons, ih (by rw [keys_emplace hnone]; simpa using h), entries_emplace hnone]
      simp

/-- **A map is what its entries make of the empty one.** -/
theorem foldl_emplace_entries (d : Dict α β) :
    d.entries.foldl (fun d p => d.emplace p.1 p.2) empty = d := by
  apply ext
  rw [entries_foldl_emplace (by simpa [keys, empty] using d.nodup)]
  rfl

theorem assign_of_find? {d : Dict α β} {a : α} {b : β} (h : d.find? a = none) :
    d.assign a b = d.emplace a b := by
  rw [assign, if_neg (find?_eq_none_iff.mp h)]

theorem foldl_assign {l : List (α × β)} {d : Dict α β} (h : (d.keys ++ l.map Prod.fst).Nodup) :
    l.foldl (fun d p => d.assign p.1 p.2) d = l.foldl (fun d p => d.emplace p.1 p.2) d := by
  induction l generalizing d with
  | nil => rfl
  | cons p l ih =>
      have hnone : d.find? p.1 = none := by
        rw [find?_eq_none_iff]
        intro hmem
        rw [List.map_cons, List.nodup_append] at h
        exact h.2.2 _ hmem _ (List.mem_cons_self ..) rfl
      rw [List.foldl_cons, List.foldl_cons, assign_of_find? hnone]
      exact ih (by rw [keys_emplace hnone]; simpa using h)

theorem foldl_assign_entries (d : Dict α β) :
    d.entries.foldl (fun d p => d.assign p.1 p.2) empty = d := by
  rw [foldl_assign (by simpa [keys, empty] using d.nodup), foldl_emplace_entries]

/-- A property of all entries after one of them has been rewritten. -/
theorem forall_modify {d : Dict α β} {a : α} {f : β → β} {P : α → β → Prop}
    (h : ∀ p ∈ d.entries, P p.1 p.2) (hf : ∀ b, (a, b) ∈ d.entries → P a (f b)) :
    ∀ p ∈ (d.modify a f).entries, P p.1 p.2 := by
  intro p hp
  obtain ⟨q, hq, rfl⟩ := List.mem_map.mp (show p ∈ d.entries.map _ from hp)
  by_cases hqa : q.1 = a
  · rw [if_pos hqa, hqa]
    exact hf q.2 (hqa ▸ hq)
  · rw [if_neg hqa]
    exact h q hq

theorem forall_emplace {d : Dict α β} {a : α} {b : β} {P : α → β → Prop}
    (h : ∀ p ∈ d.entries, P p.1 p.2) (hb : P a b) : ∀ p ∈ (d.emplace a b).entries, P p.1 p.2 := by
  intro p hp
  rcases mem_emplace hp with hp | rfl
  · exact h p hp
  · exact hb

theorem find?_assign {d : Dict α β} {a x : α} {b : β} :
    (d.assign a b).find? x = if x = a then some b else d.find? x := by
  unfold assign
  by_cases ha : a ∈ d.keys
  · obtain ⟨c, hc⟩ := mem_keys_iff.mp ha
    rw [if_pos ha, find?_modify, hc]
    rfl
  · rw [if_neg ha, find?_emplace (find?_eq_none_iff.mpr ha)]

@[simp] theorem find?_mapVals {f : α → β → γ} {d : Dict α β} {a : α} :
    (d.mapVals f).find? a = (d.find? a).map (f a) := by
  unfold find? mapVals
  simp only [List.find?_map]
  have hfst : ((fun p : α × γ => decide (p.1 = a)) ∘ fun p : α × β => (p.1, f p.1 p.2))
      = fun p => decide (p.1 = a) := rfl
  rw [hfst]
  rcases hf : d.entries.find? (fun p => decide (p.1 = a)) with _ | p
  · simp [hf]
  · have hp : p.1 = a := by simpa using List.find?_some hf
    simp [hf, hp]

/-- A value rewritten, seen through `g`. -/
theorem mapVals_modify {d : Dict α β} {a : α} {f : β → β} {g : β → γ} {h : γ → γ}
    (H : ∀ b, g (f b) = h (g b)) :
    (d.modify a f).mapVals (fun _ => g) = (d.mapVals fun _ => g).modify a h := by
  apply ext
  simp only [mapVals, modify, List.map_map]
  apply List.map_congr_left
  intro p _
  by_cases hp : p.1 = a <;> simp [hp, H]

theorem mapVals_emplace {d : Dict α β} {a : α} {b : β} {g : β → γ} :
    (d.emplace a b).mapVals (fun _ => g) = (d.mapVals fun _ => g).emplace a (g b) := by
  unfold emplace
  by_cases h : a ∈ d.keys
  · rw [dif_pos h, dif_pos (by rwa [keys_mapVals])]
  · rw [dif_neg h, dif_neg (by rwa [keys_mapVals])]
    apply ext
    simp [mapVals]

theorem mapVals_erase {d : Dict α β} {a : α} {g : β → γ} :
    (d.erase a).mapVals (fun _ => g) = (d.mapVals fun _ => g).erase a := by
  apply ext
  simp [mapVals, erase, List.filter_map, Function.comp_def]

/-- What dictionaries that agree through `g` have under a key. -/
theorem find?_cases_of_mapVals {d e : Dict α β} {g : β → γ}
    (heq : e.mapVals (fun _ => g) = d.mapVals (fun _ => g)) (a : α) :
    (d.find? a = none ∧ e.find? a = none) ∨
      ∃ b c, d.find? a = some b ∧ e.find? a = some c ∧ g c = g b := by
  have ha := congrArg (fun m => m.find? a) heq
  simp only [find?_mapVals] at ha
  cases hb : d.find? a with
  | none => exact .inl ⟨rfl, by simpa [hb] using ha⟩
  | some b =>
      obtain ⟨c, hc, hg⟩ := Option.map_eq_some_iff.mp (ha.trans (by rw [hb]; rfl))
      exact .inr ⟨b, c, rfl, hc, hg⟩

/-- Dictionaries that agree through `g` agree through `g'`, where `g` of two
values determines their `g'`. -/
theorem mapVals_congr {δ : Type} {d e : Dict α β} {g : β → γ} {g' : β → δ}
    (heq : e.mapVals (fun _ => g) = d.mapVals (fun _ => g))
    (h : ∀ a b c, d.find? a = some b → e.find? a = some c → g c = g b → g' c = g' b) :
    e.mapVals (fun _ => g') = d.mapVals (fun _ => g') := by
  refine ext_find? ?_ fun a => ?_
  · have hkeys := congrArg keys heq
    simpa using hkeys
  · rcases find?_cases_of_mapVals heq a with ⟨hd, he⟩ | ⟨b, c, hb, hc, hg⟩
    · simp [hd, he]
    · simp [hb, hc, h a b c hb hc hg]

/-- The dictionary finds the elements of the list by their keys. -/
def Indexes (d : Dict α β) (key : β → α) (l : List β) : Prop :=
  ∀ a b, d.find? a = some b ↔ b ∈ l ∧ key b = a

theorem indexes_empty (key : β → α) : Indexes (empty : Dict α β) key [] := by
  intro a b
  simp

/-- **One more element, under a new key.** -/
theorem Indexes.assign {d : Dict α β} {key : β → α} {l : List β} (h : d.Indexes key l) {b : β}
    (hnew : key b ∉ l.map key) : (d.assign (key b) b).Indexes key (l ++ [b]) := by
  intro x c
  rw [find?_assign, List.mem_append, List.mem_singleton]
  by_cases hx : x = key b
  · rw [if_pos hx]
    constructor
    · intro heq
      cases heq
      exact ⟨Or.inr rfl, hx.symm⟩
    · rintro ⟨hc | rfl, hkey⟩
      · exact absurd (List.mem_map.mpr ⟨c, hc, hkey.trans hx⟩) hnew
      · rfl
  · rw [if_neg hx, h]
    constructor
    · rintro ⟨hc, hkey⟩
      exact ⟨Or.inl hc, hkey⟩
    · rintro ⟨hc | rfl, hkey⟩
      · exact ⟨hc, hkey⟩
      · exact absurd hkey.symm hx

/-- **One element replaced under its key.** -/
theorem Indexes.modify {d : Dict α β} {key : β → α} {front back : List β} {b : β} {f : β → β}
    (h : d.Indexes key (front ++ b :: back)) (hnodup : ((front ++ b :: back).map key).Nodup)
    (hkey : key (f b) = key b) :
    (d.modify (key b) f).Indexes key (front ++ f b :: back) := by
  have hfind : d.find? (key b) = some b := (h _ _).mpr ⟨by simp, rfl⟩
  -- the key of the element is no other's
  have hother : ∀ c, c ∈ front ∨ c ∈ back → key c ≠ key b := by
    intro c hc heq
    rw [List.map_append, List.map_cons, List.nodup_middle, List.nodup_cons] at hnodup
    refine hnodup.1 ?_
    rw [← List.map_append]
    exact List.mem_map.mpr ⟨c, List.mem_append.mpr hc, heq⟩
  intro x c
  rw [find?_modify]
  by_cases hx : x = key b
  · rw [if_pos hx, hfind, Option.map_some]
    constructor
    · intro heq
      cases heq
      exact ⟨by simp, hkey.trans hx.symm⟩
    · rintro ⟨hc, hkc⟩
      rcases List.mem_append.mp hc with hc | hc
      · exact absurd (hkc.trans hx) (hother c (Or.inl hc))
      · rcases List.mem_cons.mp hc with rfl | hc
        · rfl
        · exact absurd (hkc.trans hx) (hother c (Or.inr hc))
  · rw [if_neg hx, h]
    refine and_congr_left fun hkc => ?_
    have hb : c ≠ b := fun hcb => hx (hkc.symm.trans (congrArg key hcb))
    have hfb : c ≠ f b := fun hcb => hx (hkc.symm.trans ((congrArg key hcb).trans hkey))
    simp [hb, hfb]

end Dict

end CustomDbms.Lib
