/-
  CustomDbms.Execution.RowMaps
  ────────────────────────────
  **ROWS BY ID.**

  A list of rows in id order is the same thing as a finite map from ids to
  rows: `rowAt rows` is the map, and two ordered lists with the same map are
  equal.  Row events act on the map one id at a time, so the effect of a list
  of events about different ids is read off id by id (`applyEvents_at`).

    • `sortedRows_eq` — sorting a map of rows gives the list it is the map of.
    • `applyEvents_update`, `applyEvents_delete`, `applyEvents_revert` — the
      events of a statement lead from the map of the old rows to that of the
      new ones.
-/
import CustomDbms.Execution.StoreInvariant

namespace CustomDbms.Execution

open CustomDbms.Common CustomDbms.Catalog CustomDbms.Core CustomDbms.Index CustomDbms.Lib
open CustomDbms.Parser CustomDbms.Storage CustomDbms.Versioning

/-! ## §1. The map of a list of rows. -/

/-- The row with an id. -/
def rowAt (rows : List RowData) (i : RowId) : Option RowData :=
  rows.find? fun r => decide (r.rowId = i)

@[simp] theorem rowAt_nil (i : RowId) : rowAt [] i = none := rfl

theorem rowAt_cons (r : RowData) (rows : List RowData) (i : RowId) :
    rowAt (r :: rows) i = if r.rowId = i then some r else rowAt rows i := by
  unfold rowAt
  rw [List.find?_cons]
  by_cases h : r.rowId = i <;> simp [h]

theorem rowAt_eq_none {rows : List RowData} {i : RowId} :
    rowAt rows i = none ↔ i ∉ rows.map (·.rowId) := by
  simp [rowAt]

theorem rowAt_rowId {rows : List RowData} {i : RowId} {r : RowData} (h : rowAt rows i = some r) :
    r ∈ rows ∧ r.rowId = i :=
  ⟨List.mem_of_find?_eq_some h, by simpa using List.find?_some h⟩

/-- In a list without repeated ids every row is found under its id. -/
theorem rowAt_of_mem {rows : List RowData} (h : (rows.map (·.rowId)).Nodup) {r : RowData}
    (hr : r ∈ rows) : rowAt rows r.rowId = some r := by
  induction rows with
  | nil => cases hr
  | cons s rows ih =>
      rw [List.map_cons, List.nodup_cons] at h
      rw [rowAt_cons]
      rcases List.mem_cons.mp hr with rfl | hr
      · simp
      · rw [if_neg]
        · exact ih h.2 hr
        · intro heq
          exact h.1 (heq ▸ List.mem_map_of_mem hr)

theorem rowAt_append {A B : List RowData} {i : RowId} :
    rowAt (A ++ B) i = (rowAt A i).or (rowAt B i) := by
  simp [rowAt, List.find?_append]

/-- Lists in id order with the same map are the same. -/
theorem rowsOrdered_ext {rows rows' : List RowData} (h : RowsOrdered rows)
    (h' : RowsOrdered rows') (heq : ∀ i, rowAt rows i = rowAt rows' i) : rows = rows' := by
  have hmem : ∀ r, r ∈ rows ↔ r ∈ rows' := by
    intro r
    constructor
    · intro hr
      have := rowAt_of_mem h.nodup hr
      rw [heq] at this
      exact (rowAt_rowId this).1
    · intro hr
      have := rowAt_of_mem h'.nodup hr
      rw [← heq] at this
      exact (rowAt_rowId this).1
  have hperm : rows.Perm rows' :=
    (List.perm_ext_iff_of_nodup h.nodup.of_map h'.nodup.of_map).mpr hmem
  refine List.Perm.eq_of_pairwise ?_ h.2 h'.2 hperm
  intro a b ha hb hab hba
  obtain ⟨i, hi⟩ := Option.isSome_iff_exists.mp (h.1 a ha)
  obtain ⟨j, hj⟩ := Option.isSome_iff_exists.mp (h'.1 b hb)
  have h1 := hab i hi j hj
  have h2 := hba j hj i hi
  omega

/-- The map a keyed dictionary stands for. -/
theorem rowAt_sortedRows {m : Dict RowId RowData} (h : Keyed m) (i : RowId) :
    rowAt (sortedRows m) i = m.find? i := by
  have hmem : ∀ r, r ∈ sortedRows m ↔ ∃ j, (j, r) ∈ m.entries := by
    intro r
    rw [(sortedRows_perm m).mem_iff, List.mem_map]
    constructor
    · rintro ⟨⟨j, r'⟩, hp, rfl⟩
      exact ⟨j, hp⟩
    · rintro ⟨j, hp⟩
      exact ⟨(j, r), hp, rfl⟩
  cases hf : m.find? i with
  | some r =>
      have hp := Dict.mem_entries_iff.mpr hf
      have hr : r ∈ sortedRows m := (hmem r).mpr ⟨i, hp⟩
      have := rowAt_of_mem h.rowsOrdered.nodup hr
      rwa [(h i r hp).1] at this
  | none =>
      rw [rowAt_eq_none]
      intro hi
      obtain ⟨r, hr, rfl⟩ := List.mem_map.mp hi
      obtain ⟨j, hp⟩ := (hmem r).mp hr
      rw [← (h j r hp).1, Dict.mem_entries_iff] at hp
      rw [hf] at hp
      cases hp

/-- **A map of ordered rows, sorted, is the list of the rows.** -/
theorem sortedRows_eq {m : Dict RowId RowData} (h : Keyed m) {rows : List RowData}
    (hrows : RowsOrdered rows) (heq : ∀ i, m.find? i = rowAt rows i) : sortedRows m = rows :=
  rowsOrdered_ext h.rowsOrdered hrows fun i => (rowAt_sortedRows h i).trans (heq i)

theorem find?_rowsById {rows : List RowData} (h : (rows.map (·.rowId)).Nodup) (i : RowId) :
    (rowsById rows).find? i = rowAt rows i := by
  have key : ∀ (l : List RowData) (m : Dict RowId RowData), (l.map (·.rowId)).Nodup →
      (∀ r ∈ l, m.find? r.rowId = none) →
      (l.foldl (fun m row => m.emplace row.rowId row) m).find? i
        = (m.find? i).or (rowAt l i) := by
    intro l
    induction l with
    | nil => intro m _ _; simp
    | cons r l ih =>
        intro m hnd hnone
        rw [List.map_cons, List.nodup_cons] at hnd
        have hr := hnone r (List.mem_cons_self ..)
        have hother : ∀ s ∈ l, s.rowId ≠ r.rowId := by
          intro s hs heq
          exact hnd.1 (heq ▸ List.mem_map_of_mem hs)
        rw [List.foldl_cons, ih _ hnd.2 (by
          intro s hs
          rw [Dict.find?_emplace hr, if_neg (hother s hs)]
          exact hnone s (List.mem_cons_of_mem _ hs)), Dict.find?_emplace hr, rowAt_cons]
        by_cases hi : i = r.rowId
        · subst hi
          simp [hr]
        · simp [hi, Ne.symm hi]
  have := key rows Dict.empty h (by simp)
  simpa [rowsById] using this

/-! ## §2. Events on the map. -/

/-- The id an event is about. -/
def RowEvent.rowId : RowEvent → RowId
  | .inserted row => row.rowId
  | .updated _ after => after.rowId
  | .deleted row => row.rowId

/-- An event on the map. -/
def applyEvent (m : RowId → Option RowData) (ev : RowEvent) : RowId → Option RowData :=
  Function.update m ev.rowId ev.after

/-- A list of events on the map. -/
def applyEvents (m : RowId → Option RowData) (evs : List RowEvent) : RowId → Option RowData :=
  evs.foldl applyEvent m

theorem applyEvents_other {m : RowId → Option RowData} {evs : List RowEvent} {i : RowId}
    (h : i ∉ evs.map RowEvent.rowId) : applyEvents m evs i = m i := by
  induction evs generalizing m with
  | nil => rfl
  | cons ev evs ih =>
      rw [List.map_cons, List.mem_cons, not_or] at h
      show applyEvents (applyEvent m ev) evs i = m i
      rw [ih h.2, applyEvent, Function.update_of_ne h.1]

/-- **Events about different ids act independently.** -/
theorem applyEvents_at {m : RowId → Option RowData} {evs : List RowEvent}
    (h : (evs.map RowEvent.rowId).Nodup) {ev : RowEvent} (hev : ev ∈ evs) :
    applyEvents m evs ev.rowId = ev.after := by
  induction evs generalizing m with
  | nil => cases hev
  | cons e evs ih =>
      rw [List.map_cons, List.nodup_cons] at h
      show applyEvents (applyEvent m e) evs ev.rowId = ev.after
      rcases List.mem_cons.mp hev with rfl | hev
      · rw [applyEvents_other h.1, applyEvent, Function.update_self]
      · exact ih h.2 hev

/-- Two maps agree after the events when they do so id by id. -/
theorem applyEvents_eq {m m' : RowId → Option RowData} {evs : List RowEvent}
    (h : (evs.map RowEvent.rowId).Nodup) (hev : ∀ ev ∈ evs, m' ev.rowId = ev.after)
    (hother : ∀ i, i ∉ evs.map RowEvent.rowId → m' i = m i) : applyEvents m evs = m' := by
  funext i
  by_cases hi : i ∈ evs.map RowEvent.rowId
  · obtain ⟨ev, hmem, rfl⟩ := List.mem_map.mp hi
    rw [applyEvents_at h hmem, hev ev hmem]
  · rw [applyEvents_other hi, hother i hi]

/-! ## §3. The events of the statements. -/

theorem UpdatedRows.ids {re : RegexMatch} {schema : TableSchema} {stmt : UpdateStatement}
    {rows rows' : List RowData} {evs : List RowEvent}
    (h : UpdatedRows re schema stmt rows rows' evs) :
    List.Sublist (evs.map RowEvent.rowId) (rows.map (·.rowId)) := by
  induction h with
  | nil => exact List.Sublist.refl _
  | cons h _ ih =>
      cases h with
      | kept h => exact ih.cons _
      | changed h =>
          simp only [List.map_cons, List.singleton_append, RowEvent.rowId, (updateRow_ok h).1]
          exact ih.cons_cons _

/-- **The events of `UPDATE`.** -/
theorem applyEvents_update {re : RegexMatch} {schema : TableSchema} {stmt : UpdateStatement}
    {rows rows' : List RowData} {evs : List RowEvent}
    (h : UpdatedRows re schema stmt rows rows' evs) (hnd : (rows.map (·.rowId)).Nodup) :
    applyEvents (rowAt rows) evs = rowAt rows' := by
  refine applyEvents_eq (hnd.sublist h.ids) ?_ ?_
  · -- an updated row is in the new list, under the id it had
    have hmem : ∀ ev ∈ evs, ∃ r ∈ rows', ev.after = some r ∧ ev.rowId = r.rowId := by
      clear hnd
      induction h with
      | nil => simp
      | cons h _ ih =>
          intro ev hev
          rcases List.mem_append.mp hev with hev | hev
          · cases h with
            | kept h => cases hev
            | changed h =>
                rw [List.mem_singleton.mp hev]
                exact ⟨_, List.mem_cons_self .., rfl, rfl⟩
          · obtain ⟨r, hr, heq⟩ := ih ev hev
            exact ⟨r, List.mem_cons_of_mem _ hr, heq⟩
    intro ev hev
    obtain ⟨r, hr, hafter, hid⟩ := hmem ev hev
    rw [hid, hafter, rowAt_of_mem (h.rows.1 ▸ hnd) hr]
  · clear hnd
    induction h with
    | nil => intro i _; rfl
    | cons h _ ih =>
        intro i hi
        rw [List.map_append, List.mem_append, not_or] at hi
        rw [rowAt_cons, rowAt_cons, ih i hi.2]
        cases h with
        | kept h => rfl
        | changed h =>
            have hne : ¬ _ = i := fun heq => hi.1 (by
              rw [← heq]
              exact List.mem_singleton.mpr rfl)
            have hid := (updateRow_ok h).1
            simp only [RowEvent.rowId] at hne
            rw [if_neg hne, if_neg (hid ▸ hne)]

theorem DeletedRows.ids {re : RegexMatch} {schema : TableSchema} {w : Option Expression}
    {rows rows' : List RowData} {evs : List RowEvent} (h : DeletedRows re schema w rows rows' evs) :
    List.Sublist (evs.map RowEvent.rowId) (rows.map (·.rowId)) := by
  induction h with
  | nil => exact List.Sublist.refl _
  | kept _ _ ih => exact ih.cons _
  | dropped _ _ ih => exact ih.cons_cons _

/-- **The events of `DELETE`.** -/
theorem applyEvents_delete {re : RegexMatch} {schema : TableSchema} {w : Option Expression}
    {rows rows' : List RowData} {evs : List RowEvent} (h : DeletedRows re schema w rows rows' evs)
    (hnd : (rows.map (·.rowId)).Nodup) : applyEvents (rowAt rows) evs = rowAt rows' := by
  refine applyEvents_eq (hnd.sublist h.ids) ?_ ?_
  · -- the id of a deleted row is in the new list no more
    induction h with
    | nil => simp
    | kept _ hs ih =>
        rw [List.map_cons, List.nodup_cons] at hnd
        intro ev hev
        have hmem := hs.ids.subset (List.mem_map_of_mem hev)
        rw [rowAt_cons, if_neg (by
          intro heq
          rw [heq] at hnd
          exact hnd.1 hmem)]
        exact ih hnd.2 ev hev
    | dropped _ hs ih =>
        rw [List.map_cons, List.nodup_cons] at hnd
        intro ev hev
        rcases List.mem_cons.mp hev with rfl | hev
        · refine rowAt_eq_none.mpr fun hmem => hnd.1 ?_
          exact (hs.sublist.map _).subset hmem
        · exact ih hnd.2 ev hev
  · clear hnd
    induction h with
    | nil => intro i _; rfl
    | kept _ _ ih =>
        intro i hi
        rw [rowAt_cons, rowAt_cons, ih i hi]
    | dropped _ _ ih =>
        intro i hi
        rw [List.map_cons, List.mem_cons, not_or] at hi
        have hne := Ne.symm hi.1
        simp only [RowEvent.rowId] at hne
        rw [rowAt_cons, if_neg hne, ih i hi.2]

/-- `RowValuesEqual` is equality. -/
theorem rowValuesEqual_iff {vs ws : List Value} : rowValuesEqual vs ws = true ↔ vs = ws := by
  induction vs generalizing ws with
  | nil => cases ws <;> simp [rowValuesEqual]
  | cons a vs ih =>
      cases ws with
      | nil => simp [rowValuesEqual]
      | cons b ws =>
          simp only [rowValuesEqual, Bool.and_eq_true, decide_eq_true_eq, ih,
            compareValues_eq_zero, List.cons.injEq]

/-- A loop whose events are about the ids it visits. -/
theorem filterMap_ids {l : List (RowId × RowData)} {f : RowId × RowData → Option RowEvent}
    (h : ∀ p ∈ l, ∀ ev, f p = some ev → ev.rowId = p.1) :
    List.Sublist ((l.filterMap f).map RowEvent.rowId) (l.map Prod.fst) := by
  induction l with
  | nil => exact List.Sublist.refl _
  | cons p l ih =>
      have ih' := ih fun q hq => h q (List.mem_cons_of_mem _ hq)
      rw [List.filterMap_cons]
      cases hp : f p with
      | none => exact ih'.cons _
      | some ev =>
          rw [List.map_cons, List.map_cons, h p (List.mem_cons_self ..) ev hp]
          exact ih'.cons_cons _

/-- **The events of `REVERT`.** -/
theorem applyEvents_revert {current target : List RowData}
    (hc : (current.map (·.rowId)).Nodup) (ht : (target.map (·.rowId)).Nodup) :
    applyEvents (rowAt current) (revertEvents (rowsById current) (rowsById target))
      = rowAt target := by
  have hcur := find?_rowsById hc
  have htar := find?_rowsById ht
  -- both loops log events about the ids they visit
  have hremoved : ∀ p ∈ (rowsById current).entries, ∀ ev,
      removalEvent (rowsById target) p = some ev →
        ev.rowId = p.1 ∧ rowAt target p.1 = ev.after := by
    intro p hp ev hev
    unfold removalEvent at hev
    rw [htar] at hev
    cases hr : rowAt target p.1 with
    | none =>
        rw [hr] at hev
        cases hev
        exact ⟨(mem_rowsById hp).2.symm, rfl⟩
    | some row =>
        simp only [hr] at hev
        split at hev
        · cases hev
        · cases hev
          exact ⟨(rowAt_rowId hr).2, rfl⟩
  have hrestored : ∀ p ∈ (rowsById target).entries, ∀ ev,
      restoreEvent (rowsById current) p = some ev →
        ev.rowId = p.1 ∧ rowAt target p.1 = ev.after ∧ rowAt current p.1 = none := by
    intro p hp ev hev
    unfold restoreEvent at hev
    split at hev
    · cases hev
    · rename_i hnot
      cases hev
      refine ⟨(mem_rowsById hp).2.symm, ?_, ?_⟩
      · rw [← htar]
        exact Dict.mem_entries_iff.mp hp
      · rw [← hcur]
        simpa [Dict.contains] using hnot
  have hall : ∀ ev ∈ revertEvents (rowsById current) (rowsById target),
      rowAt target ev.rowId = ev.after := by
    intro ev hev
    rcases List.mem_append.mp hev with hev | hev
    · obtain ⟨p, hp, hpe⟩ := List.mem_filterMap.mp hev
      obtain ⟨hid, hafter⟩ := hremoved p hp ev hpe
      rw [hid, hafter]
    · obtain ⟨p, hp, hpe⟩ := List.mem_filterMap.mp hev
      obtain ⟨hid, hafter, -⟩ := hrestored p hp ev hpe
      rw [hid, hafter]
  refine applyEvents_eq ?_ hall ?_
  · -- a restored id is not a current one
    have h1 := filterMap_ids fun p hp ev hev => (hremoved p hp ev hev).1
    have h2 := filterMap_ids fun p hp ev hev => (hrestored p hp ev hev).1
    rw [revertEvents, List.map_append, List.nodup_append]
    refine ⟨(rowsById current).nodup.sublist h1, (rowsById target).nodup.sublist h2, ?_⟩
    intro i hi j hj hij
    subst hij
    obtain ⟨ev, hev, rfl⟩ := List.mem_map.mp hj
    obtain ⟨p, hp, hpe⟩ := List.mem_filterMap.mp hev
    obtain ⟨hid, -, hnone⟩ := hrestored p hp ev hpe
    have hkey : p.1 ∈ (rowsById current).keys := hid ▸ h1.subset hi
    obtain ⟨r, hr⟩ := Dict.mem_keys_iff.mp hkey
    rw [hcur, hnone] at hr
    cases hr
  · intro i hi
    have hnot : ∀ ev ∈ revertEvents (rowsById current) (rowsById target), ev.rowId ≠ i :=
      fun ev hev heq => hi (heq ▸ List.mem_map_of_mem hev)
    cases hr : rowAt current i with
    | none =>
        cases hs : rowAt target i with
        | none => rfl
        | some s =>
            have hp : (i, s) ∈ (rowsById target).entries :=
              Dict.mem_entries_iff.mpr ((htar i).trans hs)
            refine absurd (rowAt_rowId hs).2 (hnot (.inserted s) ?_)
            refine List.mem_append_right _ (List.mem_filterMap.mpr ⟨_, hp, ?_⟩)
            simp [restoreEvent, Dict.contains, hcur, hr]
    | some r =>
        have hp : (i, r) ∈ (rowsById current).entries :=
          Dict.mem_entries_iff.mpr ((hcur i).trans hr)
        have hremove : removalEvent (rowsById target) (i, r) = none := by
          cases hev : removalEvent (rowsById target) (i, r) with
          | none => rfl
          | some ev =>
              have hmem : ev ∈ revertEvents (rowsById current) (rowsById target) :=
                List.mem_append_left _ (List.mem_filterMap.mpr ⟨_, hp, hev⟩)
              exact absurd (hremoved _ hp ev hev).1 (hnot ev hmem)
        unfold removalEvent at hremove
        rw [htar] at hremove
        cases hs : rowAt target i with
        | none =>
            rw [hs] at hremove
            cases hremove
        | some s =>
            simp only [hs] at hremove
            split at hremove
            · rename_i hval
              have hvals := rowValuesEqual_iff.mp hval
              have hids := (rowAt_rowId hs).2.trans (rowAt_rowId hr).2.symm
              cases r
              cases s
              simp_all
            · cases hremove

end CustomDbms.Execution
