/-
  CustomDbms.Core.PersistenceRoundTrip
  ────────────────────────────────────
  **SAVE, THEN LOAD.**

  What `Load` has read holds no newline, whatever the files were, since a line
  holds none and neither splitting nor unescaping adds one.  With the round
  trip of the two files this decides which stores survive: those without a
  newline in any of their strings, and no others.
-/
import CustomDbms.Core.EngineInvariant
import CustomDbms.Core.StateFiles

namespace CustomDbms.Core

open CustomDbms.Common CustomDbms.Catalog CustomDbms.Lib CustomDbms.Parser CustomDbms.Storage
open CustomDbms.Versioning CustomDbms.Execution

/-! ## §1. Loaded strings. -/

/-- **What one line preserves, the file preserves.** -/
theorem loadLines_invariant {σ : Type} {step : σ → List Str → σ × LoadStatus} {P : σ → Prop}
    (hstep : ∀ s parts, P s → (∀ p ∈ parts, newline ∉ p) → P (step s parts).1) (b : Bool) {s : σ}
    (hs : P s) {ls : List Str} (hls : ∀ l ∈ ls, newline ∉ l) : P (loadLines step b s ls).1 := by
  induction ls generalizing b s with
  | nil => exact hs
  | cons l ls ih =>
      have hrest : ∀ m ∈ ls, newline ∉ m := fun m hm => hls m (by simp [hm])
      have hparts : ∀ p ∈ splitByTab l, newline ∉ p :=
        fun p hp => newline_not_mem_of_mem_splitByTab (hls l (by simp)) hp
      rw [loadLines]
      split
      · exact ih b hs hrest
      · simp only
        split
        · split
          · exact ih true hs hrest
          · exact hs
        · have hP := hstep s (splitByTab l) hs hparts
          rcases hr : step s (splitByTab l) with ⟨s', status⟩
          rw [hr] at hP
          cases status with
          | accepted => exact ih true hP hrest
          | rejected => exact hP
          | thrown => exact hP

theorem newline_not_mem_unescape {s : Str} (h : newline ∉ s) : newline ∉ unescape s :=
  fun hm => h (mem_of_mem_unescapeFrom hm)

theorem newline_not_mem_of_parseKeyValueToken {token k v : Str} (h : newline ∉ token)
    (hp : parseKeyValueToken token = some (k, v)) : newline ∉ v := by
  intro hv
  rw [parseKeyValueToken] at hp
  cases hd : token.dropWhile (fun c => decide (c ≠ byte '=')) with
  | nil => rw [hd] at hp; cases hp
  | cons c cs =>
      rw [hd] at hp
      simp only at hp
      split at hp
      · cases hp
      · cases hp
        have hsub : token.dropWhile (fun c => decide (c ≠ byte '=')) ⊆ token :=
          (List.dropWhile_sublist _).subset
        exact h (hsub (by rw [hd]; exact List.mem_cons_of_mem _ hv))

theorem newline_not_mem_of_findField {parts : List Str} {k v : Str}
    (h : ∀ p ∈ parts, newline ∉ p) (hf : findField k parts = some v) : newline ∉ v := by
  induction parts with
  | nil => cases hf
  | cons token rest ih =>
      have hrest := ih fun p hp => h p (by simp [hp])
      rw [findField] at hf
      split at hf
      · rename_i key value hp
        split at hf
        · cases hf
          exact newline_not_mem_of_parseKeyValueToken (h token (by simp)) hp
        · exact hrest hf
      · exact hrest hf

theorem newline_not_mem_of_findFieldValue {parts : List Str} {k v : Str}
    (h : ∀ p ∈ parts, newline ∉ p) (hf : findFieldValue parts k = some v) : newline ∉ v :=
  newline_not_mem_of_findField (fun p hp => h p (List.mem_of_mem_tail hp)) hf

theorem valueSavable_decodeInt {s : Str} {v : Value} (h : decodeInt s = some v) :
    ValueSavable v := by
  rw [decodeInt] at h
  split at h
  · split at h
    · cases h
      trivial
    · cases h
  · cases h

theorem valueSavable_of_decode {s : Str} {v : Value} (h : newline ∉ s)
    (hd : tryDecodeValue s = some v) : ValueSavable v := by
  rw [tryDecodeValue] at hd
  split at hd
  · cases hd
    trivial
  · split at hd
    · exact valueSavable_decodeInt hd
    · exact valueSavable_decodeInt hd
    · split at hd
      · rename_i rest hs
        cases hd
        exact newline_not_mem_unescape (newline_not_mem_of_stripStart h (by assumption))
      · rename_i rest hs
        cases hd
        exact newline_not_mem_unescape (newline_not_mem_of_stripStart h (by assumption))
      · cases hd

theorem columnSavable_of_keyedColumn {name type constraint default : Str}
    {c : Catalog.ColumnDefinition} (hname : newline ∉ name) (hdefault : newline ∉ default)
    (h : keyedColumn name type constraint default = some c) : ColumnSavable c := by
  rw [keyedColumn] at h
  simp only [Option.bind_eq_bind, Option.bind_eq_some_iff] at h
  obtain ⟨t, -, k, -, d, hd, heq⟩ := h
  cases heq
  refine ⟨newline_not_mem_unescape hname, ?_⟩
  intro v hv
  have hv' : keyedDefault d = some v := hv
  rw [keyedDefault] at hv'
  split at hv'
  · cases hv'
  · cases hv'
    exact valueSavable_of_decode hdefault hd

theorem rowSavable_of_decodeRow {parts encoded : List Str} {row : RowData}
    (h : ∀ p ∈ encoded, newline ∉ p) (hd : decodeRow parts encoded = some row) :
    RowSavable row := by
  rw [decodeRow] at hd
  simp only [Option.bind_eq_bind, Option.bind_eq_some_iff] at hd
  obtain ⟨i, -, values, hvalues, heq⟩ := hd
  cases heq
  show ∀ v ∈ values, ValueSavable v
  clear * - h hvalues
  induction encoded generalizing values with
  | nil =>
      cases hvalues
      simp
  | cons p encoded ih =>
      rw [List.mapM_cons] at hvalues
      simp only [Option.bind_eq_bind, Option.bind_eq_some_iff] at hvalues
      obtain ⟨v, hv, vs, hvs, heq⟩ := hvalues
      cases heq
      intro w hw
      rcases List.mem_cons.mp hw with rfl | hw
      · exact valueSavable_of_decode (h p (by simp)) hv
      · exact ih (fun q hq => h q (by simp [hq])) vs hvs w hw

theorem newline_not_mem_keyedValues {parts : List Str} (h : ∀ p ∈ parts, newline ∉ p) :
    ∀ p ∈ keyedValues parts, newline ∉ p := by
  intro v hv
  obtain ⟨token, htoken, hf⟩ := List.mem_filterMap.mp hv
  split at hf
  · rename_i key value hp
    split at hf
    · cases hf
      exact newline_not_mem_of_parseKeyValueToken (h token htoken) hp
    · cases hf
  · cases hf

theorem stateSavable_loadDatabase {s : RuntimeState} (h : StateSavable s) {n : Str}
    (hn : newline ∉ n) : StateSavable (loadDatabase s n) :=
  Dict.forall_emplace h ⟨hn, fun _ hp => by cases hp⟩

theorem stateSavable_loadTable {s : RuntimeState} (h : StateSavable s) {n t : Str}
    (hn : newline ∉ n) (ht : newline ∉ t) : StateSavable (loadTable s n t) := by
  refine Dict.forall_modify (stateSavable_loadDatabase h hn) fun d hd => ?_
  have hd' := stateSavable_loadDatabase h hn _ hd
  refine ⟨hn, Dict.forall_emplace hd'.tables ⟨ht, ?_, ?_⟩⟩
  · intro c hc
    cases hc
  · intro r hr
    cases hr

/-- The table a line names is one of the state. -/
theorem tableSavable_of_lookup {s : RuntimeState} (h : StateSavable s) {n t : Str}
    {table : TableRuntime} (hl : lookupTable s n t = some table) : TableSavable t table := by
  rw [lookupTable] at hl
  split at hl
  · cases hl
  · rename_i d hd
    exact (h _ (Dict.mem_entries_iff.mpr hd)).tables _ (Dict.mem_entries_iff.mpr hl)

theorem stateSavable_putTable {s : RuntimeState} (h : StateSavable s) {n t : Str}
    {table : TableRuntime} (ht : TableSavable t table) : StateSavable (putTable s n t table) := by
  refine Dict.forall_modify h fun d hd => ?_
  have hd' := h _ hd
  exact ⟨hd'.name, Dict.forall_modify hd'.tables fun _ _ => ht⟩

theorem stateSavable_loadColumn {s : RuntimeState} (h : StateSavable s) {n t : Str}
    {c : Catalog.ColumnDefinition} (hc : ColumnSavable c) : StateSavable (loadColumn s n t c) := by
  rw [loadColumn]
  split
  · exact h
  · rename_i table hl
    have ht := tableSavable_of_lookup h hl
    refine stateSavable_putTable h ⟨ht.name, ?_, ?_⟩
    · intro c' hc'
      have hmem : c' ∈ table.schema.columns ++ [c] := by
        unfold addColumn at hc'
        split at hc' <;> exact hc'
      rcases List.mem_append.mp hmem with hm | hm
      · exact ht.columns c' hm
      · rw [List.mem_singleton.mp hm]
        exact hc
    · intro r hr
      have hmem : r ∈ ([] : List RowData) := by
        unfold addColumn at hr
        split at hr <;> exact hr
      cases hmem

theorem stateSavable_loadPositionalColumn {s : RuntimeState} (h : StateSavable s)
    {parts : List Str} (hparts : ∀ p ∈ parts, newline ∉ p) :
    StateSavable (loadPositionalColumn s parts).1 := by
  unfold loadPositionalColumn
  split
  · rename_i tag db table name type constraint hasDefault default rest
    split
    · simp only
      split
      · exact h
      · rename_i d t c hd ht hc
        refine stateSavable_loadColumn h ⟨newline_not_mem_unescape (hparts name (by simp)), ?_⟩
        intro v hv
        obtain rfl : d = some v := hv
        split at hd
        · obtain ⟨v', hv', heq⟩ := Option.map_eq_some_iff.mp hd
          cases heq
          exact valueSavable_of_decode (hparts default (by simp)) hv'
        · cases hd
      · exact h
    · exact h
  · exact h

theorem stateSavable_loadColumnLine {s : RuntimeState} (h : StateSavable s)
    {parts : List Str} (hparts : ∀ p ∈ parts, newline ∉ p) :
    StateSavable (loadColumnLine s parts).1 := by
  unfold loadColumnLine
  split
  · rename_i db table name type constraint default hdb htable hname htype hconstraint hdefault
    split
    · exact h
    · rename_i c hc
      exact stateSavable_loadColumn h (columnSavable_of_keyedColumn
        (newline_not_mem_of_findFieldValue hparts hname)
        (newline_not_mem_of_findFieldValue hparts hdefault) hc)
  · exact stateSavable_loadPositionalColumn h hparts

theorem stateSavable_loadRowLine {s : RuntimeState} (h : StateSavable s) {parts encoded : List Str}
    (n t : Str) (hencoded : ∀ p ∈ encoded, newline ∉ p) :
    StateSavable (loadRowLine s parts n t encoded).1 := by
  rw [loadRowLine]
  split
  · exact h
  · rename_i table hl
    have ht := tableSavable_of_lookup h hl
    split
    · exact h
    · rename_i row hrow
      have hvalues := rowSavable_of_decodeRow hencoded hrow
      rw [loadRow]
      split
      · exact h
      · refine stateSavable_putTable h ⟨ht.name, ht.columns, ?_⟩
        intro r hr
        have hmem : r ∈ table.heap.rows ∨ r.values = row.values := by
          have hr' : r ∈ (table.heap.insert row).1.rows := hr
          unfold TableHeap.insert at hr'
          split at hr' <;> rcases List.mem_append.mp hr' with hm | hm
          · exact .inl hm
          · rw [List.mem_singleton.mp hm]
            exact .inr rfl
          · exact .inl hm
          · rw [List.mem_singleton.mp hm]
            exact .inr rfl
        rcases hmem with hm | hm
        · exact ht.rows r hm
        · intro v hv
          exact hvalues v (hm ▸ hv)

/-- **One line of `runtime_state.tsv` brings no newline into the state.** -/
theorem stateSavable_loadStateLine {s : RuntimeState} (h : StateSavable s) {parts : List Str}
    (hparts : ∀ p ∈ parts, newline ∉ p) : StateSavable (loadStateLine s parts).1 := by
  have hfield : ∀ k v, findFieldValue parts k = some v → newline ∉ unescape v := fun k v hv =>
    newline_not_mem_unescape (newline_not_mem_of_findFieldValue hparts hv)
  delta loadStateLine
  simp only
  split
  · split
    · exact h
    · rename_i name hname
      exact stateSavable_loadDatabase h (hfield _ _ hname)
  · split
    · refine stateSavable_loadDatabase h (newline_not_mem_unescape ?_)
      cases hp : parts.tail.head? with
      | none => simp
      | some p => exact hparts p (List.mem_of_mem_tail (List.mem_of_mem_head? hp))
    · split
      · split
        · rename_i db name hdb hname
          exact stateSavable_loadTable h (hfield _ _ hdb) (hfield _ _ hname)
        · exact stateSavable_loadTable h (newline_not_mem_unescape (hparts _ (by simp)))
            (newline_not_mem_unescape (hparts _ (by simp)))
        · exact h
      · split
        · exact stateSavable_loadColumnLine h hparts
        · split
          · split
            · exact stateSavable_loadRowLine h _ _ (newline_not_mem_keyedValues hparts)
            · exact stateSavable_loadRowLine h _ _ fun p hp => hparts p (by simp [hp])
            · exact h
          · exact h

/-- **A loaded state holds no newline.** -/
theorem stateSavable_loaded (text : Str) :
    StateSavable (loadLines loadStateLine false RuntimeState.empty (lines text)).1 :=
  loadLines_invariant (P := StateSavable)
    (fun _ _ h hparts => stateSavable_loadStateLine h hparts) false (fun _ hp => by cases hp)
    fun _ hl => newline_not_mem_of_mem_lines hl

/-- What the loader of the log holds. -/
structure LoadSavable (s : HistoryLoad) : Prop where
  records : ∀ r ∈ s.records, RecordSavable r
  pending : ∀ r ∈ s.pending, RecordSavable r

theorem newline_not_mem_imageValues {parts : List Str} (h : ∀ p ∈ parts, newline ∉ p) :
    ∀ p ∈ imageValues parts, newline ∉ p := by
  intro v hv
  obtain ⟨token, htoken, hf⟩ := List.mem_filterMap.mp hv
  have ht := h token (List.mem_of_mem_tail htoken)
  split at hf
  · rename_i key value hp
    split at hf
    · cases hf
      exact newline_not_mem_of_parseKeyValueToken ht hp
    · cases hf
  · cases hf
    exact ht

theorem recordSavable_loadEvent {parts : List Str} (h : ∀ p ∈ parts, newline ∉ p)
    {r : ChangeRecord} (hr : loadEvent parts = some r) : RecordSavable r := by
  rw [loadEvent] at hr
  simp only [Option.bind_eq_bind, Option.bind_eq_some_iff] at hr
  obtain ⟨kind, -, db, hdb, table, htable, timestamp, htimestamp, k, -, i, -, heq⟩ := hr
  have hfield : ∀ k v, findFieldValue parts k = some v → newline ∉ unescape v := fun k v hv =>
    newline_not_mem_unescape (newline_not_mem_of_findFieldValue h hv)
  cases heq
  exact ⟨hfield _ _ hdb, hfield _ _ htable, hfield _ _ htimestamp, fun _ hs => (by cases hs),
    fun _ hb => (by cases hb), fun _ ha => (by cases ha)⟩

theorem columnSavable_loadSchemaColumn {parts : List Str} (h : ∀ p ∈ parts, newline ∉ p)
    {c : Catalog.ColumnDefinition} (hc : loadSchemaColumn parts = some c) : ColumnSavable c := by
  rw [loadSchemaColumn] at hc
  simp only [Option.bind_eq_bind, Option.bind_eq_some_iff] at hc
  obtain ⟨name, hname, type, -, constraint, -, default, hdefault, hcol⟩ := hc
  exact columnSavable_of_keyedColumn (newline_not_mem_of_findFieldValue h hname)
    (newline_not_mem_of_findFieldValue h hdefault) hcol

theorem recordSavable_addSchemaColumn {r : ChangeRecord} (h : RecordSavable r)
    {c : Catalog.ColumnDefinition} (hc : ColumnSavable c) :
    RecordSavable (addSchemaColumn r c) := by
  refine ⟨h.databaseName, h.tableName, h.timestamp, ?_, h.beforeRow, h.afterRow⟩
  intro s hs
  cases hs
  intro c' hc'
  rcases List.mem_append.mp hc' with hm | hm
  · cases hschema : r.schema with
    | none =>
        rw [hschema] at hm
        cases hm
    | some s =>
        rw [hschema] at hm
        exact h.schema s hschema c' hm
  · rw [List.mem_singleton.mp hm]
    exact hc

/-- **One line of `version_history.tsv` brings no newline into the log.** -/
theorem loadSavable_loadHistoryLine {s : HistoryLoad} (h : LoadSavable s) {parts : List Str}
    (hparts : ∀ p ∈ parts, newline ∉ p) : LoadSavable (loadHistoryLine s parts).1 := by
  delta loadHistoryLine
  simp only
  split
  · split
    · rename_i r hpending hr
      refine ⟨h.records, ?_⟩
      rintro r' ⟨⟩
      exact recordSavable_loadEvent hparts hr
    · exact h
  · split
    · split
      · rename_i r c hpending hc
        refine ⟨h.records, ?_⟩
        rintro r' ⟨⟩
        exact recordSavable_addSchemaColumn (h.pending r hpending)
          (columnSavable_loadSchemaColumn hparts hc)
      · exact h
    · split
      · split
        · rename_i r row hpending hrow
          have hr := h.pending r hpending
          have hsave := rowSavable_of_decodeRow (newline_not_mem_imageValues hparts) hrow
          refine ⟨h.records, ?_⟩
          rintro r' ⟨⟩
          split
          · exact ⟨hr.databaseName, hr.tableName, hr.timestamp, hr.schema,
              fun row' hrow' => (by cases hrow'; exact hsave), hr.afterRow⟩
          · exact ⟨hr.databaseName, hr.tableName, hr.timestamp, hr.schema, hr.beforeRow,
              fun row' hrow' => (by cases hrow'; exact hsave)⟩
        · exact h
      · split
        · split
          · exact h
          · rename_i r hpending
            refine ⟨?_, fun _ hr => by cases hr⟩
            intro r' hr'
            rcases List.mem_append.mp hr' with hm | hm
            · exact h.records r' hm
            · rw [List.mem_singleton.mp hm]
              exact h.pending r hpending
        · exact h

/-- **A loaded log holds no newline.** -/
theorem historySavable_loaded {text : Str} {records : List ChangeRecord}
    (h : loadHistory text = some records) : HistorySavable ⟨records⟩ := by
  have hload := loadLines_invariant (P := LoadSavable)
    (fun _ _ h hparts => loadSavable_loadHistoryLine h hparts) false
    (s := ⟨[], none⟩) ⟨fun _ hr => (by cases hr), fun _ hr => (by cases hr)⟩
    (fun _ (hl : _ ∈ lines text) => newline_not_mem_of_mem_lines hl)
  rw [loadHistory] at h
  rcases hr : loadLines loadHistoryLine false ⟨[], none⟩ (lines text) with ⟨⟨recs, pending⟩, status⟩
  rw [hr] at h hload
  cases pending with
  | some r => cases h
  | none =>
      cases status with
      | accepted =>
          cases h
          exact hload.records
      | rejected => cases h
      | thrown => cases h

/-! ## §2. Stores up to `DEFAULT NULL`. -/

theorem plainColumn_plainColumn (c : Catalog.ColumnDefinition) :
    plainColumn (plainColumn c) = plainColumn c := by
  obtain ⟨name, type, constraint, default⟩ := c
  cases default with
  | none => rfl
  | some v =>
      by_cases hv : v = .null
      · simp [plainColumn, keyedDefault, hv]
      · simp [plainColumn, keyedDefault, hv]

theorem columnSavable_plain {c : Catalog.ColumnDefinition} :
    ColumnSavable (plainColumn c) ↔ ColumnSavable c := by
  have hdefault : (∀ v ∈ c.defaultValue.bind keyedDefault, ValueSavable v) ↔
      ∀ v ∈ c.defaultValue, ValueSavable v := by
    cases c.defaultValue with
    | none => simp
    | some v =>
        by_cases hv : v = .null
        · simp [keyedDefault, hv, ValueSavable]
        · simp [keyedDefault, hv]
  exact ⟨fun h => ⟨h.name, hdefault.mp h.defaultValue⟩,
    fun h => ⟨h.name, hdefault.mpr h.defaultValue⟩⟩

theorem plainSchema_plainSchema (schema : TableSchema) :
    plainSchema (plainSchema schema) = plainSchema schema := by
  simp [plainSchema, Function.comp_def, plainColumn_plainColumn]

theorem StateOk.plain {s : RuntimeState} (h : StateOk s) : StateOk s.plain := by
  intro n d hd
  obtain ⟨d0, hd0, rfl⟩ := Option.map_eq_some_iff.mp ((Dict.find?_mapVals).symm.trans hd)
  refine ⟨(h n d0 hd0).name, ?_⟩
  intro t table ht
  obtain ⟨table0, ht0, rfl⟩ := Option.map_eq_some_iff.mp ((Dict.find?_mapVals).symm.trans ht)
  exact ((h n d0 hd0).tables t table0 ht0).plain

theorem plain_plain (s : RuntimeState) : s.plain.plain = s.plain := by
  have htable : ∀ table : TableRuntime, table.plain.plain = table.plain := by
    intro table
    simp [TableRuntime.plain, plainSchema_plainSchema]
  have hmap : ∀ {β : Type} (d : Dict Str β) (f g : β → β), (∀ b, f (g b) = g b) →
      (d.mapVals fun _ => g).mapVals (fun _ => f) = d.mapVals fun _ => g := by
    intro β d f g hfg
    apply Dict.ext
    simp [Dict.mapVals, hfg]
  have hdatabase : ∀ d : DatabaseRuntime, d.plain.plain = d.plain := by
    intro d
    simp only [DatabaseRuntime.plain]
    rw [hmap d.tables _ _ htable]
  exact congrArg RuntimeState.mk (hmap s.databases _ _ hdatabase)

/-- States with the same view are the same up to `DEFAULT NULL`. -/
theorem plain_view_congr {s s' : RuntimeState} (h : s'.view = s.view) :
    s'.plain.view = s.plain.view := by
  have hview : ∀ s : RuntimeState, s.plain.view
      = s.databases.mapVals fun _ d => d.plain.view := by
    intro s
    apply Dict.ext
    simp [RuntimeState.view, RuntimeState.plain, Dict.mapVals]
  have hdb : ∀ d : DatabaseRuntime, d.plain.view
      = (d.name, d.tables.mapVals fun _ table => table.plain.view) := by
    intro d
    refine Prod.ext rfl (Dict.ext ?_)
    simp [DatabaseRuntime.view, DatabaseRuntime.plain, Dict.mapVals]
  rw [hview, hview]
  refine Dict.mapVals_congr h fun n d d' _ _ hd => ?_
  obtain ⟨hname, htables⟩ := Prod.mk.inj hd
  rw [hdb, hdb, hname]
  refine congrArg _ (Dict.mapVals_congr htables fun t table table' _ _ ht => ?_)
  obtain ⟨hschema, hheap⟩ := TableView.mk.inj ht
  simp only [TableRuntime.view, TableRuntime.plain, hschema, hheap]

/-- **The strings of a state are those of its plain view.** -/
theorem stateSavable_congr {s s' : RuntimeState} (h : s'.plain.view = s.plain.view)
    (hs : StateSavable s') : StateSavable s := by
  rintro ⟨n, d⟩ hp
  have hfind := Dict.mem_entries_iff.mp hp
  have hd : s.plain.databases.find? n = some d.plain := by
    rw [RuntimeState.plain, Dict.find?_mapVals, hfind]
    rfl
  rcases Dict.find?_cases_of_mapVals h n with ⟨hn, -⟩ | ⟨e, e', he, he', hview⟩
  · rw [hd] at hn
    cases hn
  · obtain rfl : d.plain = e := by simpa using hd.symm.trans he
    obtain ⟨d', hd', rfl⟩ := Option.map_eq_some_iff.mp ((Dict.find?_mapVals).symm.trans he')
    have hsave := hs (n, d') (Dict.mem_entries_iff.mpr hd')
    refine ⟨hsave.name, ?_⟩
    rintro ⟨t, table⟩ hq
    have ht : d.plain.tables.find? t = some table.plain := by
      rw [DatabaseRuntime.plain, Dict.find?_mapVals, Dict.mem_entries_iff.mp hq]
      rfl
    rcases Dict.find?_cases_of_mapVals (Prod.mk.inj hview).2 t with
      ⟨hn, -⟩ | ⟨b, b', hb, hb', htv⟩
    · rw [ht] at hn
      cases hn
    · obtain rfl : table.plain = b := by simpa using ht.symm.trans hb
      obtain ⟨table', ht', rfl⟩ := Option.map_eq_some_iff.mp ((Dict.find?_mapVals).symm.trans hb')
      have hts := hsave.tables (t, table') (Dict.mem_entries_iff.mpr ht')
      obtain ⟨hschema, hheap⟩ := TableView.mk.inj htv
      have hcols : table'.schema.columns.map plainColumn = table.schema.columns.map plainColumn :=
        congrArg TableSchema.columns hschema
      have hrows : table'.heap = table.heap := hheap
      refine ⟨hts.name, ?_, hrows ▸ hts.rows⟩
      intro c hc
      obtain ⟨c', hc', heq⟩ := List.mem_map.mp (hcols ▸ List.mem_map_of_mem hc)
      exact columnSavable_plain.mp (heq ▸ columnSavable_plain.mpr (hts.columns c' hc'))

theorem plainRecord_columns (r : ChangeRecord) :
    ChangeRecord.columns (plainRecord r) = (ChangeRecord.columns r).map plainColumn := by
  rw [ChangeRecord.columns, plainRecord]
  by_cases h : ChangeRecord.columns r = []
  · simp [h]
  · simp [h]

theorem plainRecord_plainRecord (r : ChangeRecord) :
    plainRecord (plainRecord r) = plainRecord r := by
  conv_lhs => rw [plainRecord]
  rw [plainRecord_columns, List.map_map]
  have hcols : (ChangeRecord.columns r).map (plainColumn ∘ plainColumn)
      = (ChangeRecord.columns r).map plainColumn :=
    List.map_congr_left fun c _ => plainColumn_plainColumn c
  rw [hcols]
  simp only [List.map_eq_nil_iff]
  rfl

theorem recordSavable_plain {r : ChangeRecord} :
    RecordSavable (plainRecord r) ↔ RecordSavable r := by
  have hcols : ∀ r : ChangeRecord, (∀ s ∈ r.schema, ∀ c ∈ s.columns, ColumnSavable c) ↔
      ∀ c ∈ ChangeRecord.columns r, ColumnSavable c := by
    intro r
    unfold ChangeRecord.columns
    cases r.schema with
    | none => simp
    | some s => simp
  have hiff : (∀ s ∈ (plainRecord r).schema, ∀ c ∈ s.columns, ColumnSavable c) ↔
      ∀ s ∈ r.schema, ∀ c ∈ s.columns, ColumnSavable c := by
    rw [hcols, hcols, plainRecord_columns]
    simp only [List.mem_map, forall_exists_index, and_imp, forall_apply_eq_imp_iff₂,
      columnSavable_plain]
  exact ⟨fun h => ⟨h.databaseName, h.tableName, h.timestamp, hiff.mp h.schema, h.beforeRow,
      h.afterRow⟩,
    fun h => ⟨h.databaseName, h.tableName, h.timestamp, hiff.mpr h.schema, h.beforeRow,
      h.afterRow⟩⟩

theorem historySavable_congr {v v' : VersionStore}
    (h : v'.records.map plainRecord = v.records.map plainRecord) (hv : HistorySavable v') :
    HistorySavable v := by
  intro r hr
  obtain ⟨r', hr', heq⟩ := List.mem_map.mp (h ▸ List.mem_map_of_mem hr)
  exact recordSavable_plain.mp (heq ▸ recordSavable_plain.mpr (hv r' hr'))

/-! ## §3. The round trip. -/

/-- The row ids of a store in their 64 bits, as the counter keeps them. -/
structure StoreIdsFit (s : Store) : Prop where
  state : StateIdsFit s.runtime
  history : ∀ r ∈ s.versions.records, RecordIdsFit r

/-- **No string of the store holds a newline.** -/
structure StoreSavable (s : Store) : Prop where
  state : StateSavable s.runtime
  history : HistorySavable s.versions

/-- The loaded store holds what the saved one held: databases, schemas, rows
with their ids and order, and indexes, up to `DEFAULT NULL`; and the events,
with the columns of their schemas. -/
structure Restores (s s' : Store) : Prop where
  state : s'.runtime.plain.contents = s.runtime.plain.contents
  history : s'.versions.records.map plainRecord = s.versions.records.map plainRecord

/-- What `Load` leaves, as a store. -/
def Loaded.store (l : Loaded) : Store := ⟨l.runtime, l.versions⟩

@[simp] theorem save_state (state : RuntimeState) (v : VersionStore) (d : Directory) :
    save state v d .state = some (stateText state) := rfl

@[simp] theorem save_history (state : RuntimeState) (v : VersionStore) (d : Directory) :
    save state v d .history = some (historyText v) := rfl

/-- Two files that are read without an error. -/
theorem load_accepted {d : Directory} {text history : Str} {s' : RuntimeState}
    {records : List ChangeRecord} (hstate : d .state = some text)
    (hhistory : d .history = some history)
    (hload : loadLines loadStateLine false RuntimeState.empty (lines text) = (s', .accepted))
    (hrecords : loadHistory history = some records)
    (hvalid : validateRuntimeIndexConsistency s' = .ok ()) (rt : RuntimeState)
    (v : VersionStore) : load d rt v = ⟨s', ⟨records⟩, .accepted⟩ := by
  rw [load, hstate]
  simp only [hload, hhistory, hrecords, hvalid]

/-- The two files of a store without newlines are read. -/
theorem load_of_savable {s : Store} (hok : StateOk s.runtime) (hfits : StoreIdsFit s)
    (hsave : StoreSavable s) {d : Directory} (hstate : d .state = some (stateText s.runtime))
    (hhistory : d .history = some (historyText s.versions)) (rt : RuntimeState) (v : VersionStore) :
    ∃ s', load d rt v = ⟨s', ⟨s.versions.records.map plainRecord⟩, .accepted⟩ ∧ StateOk s' ∧
      s'.view = s.runtime.plain.view := by
  obtain ⟨s', hload, hok', hview⟩ := loadLines_stateText hok hfits.state hsave.state
  exact ⟨s', load_accepted hstate hhistory hload
    (loadHistory_historyText hfits.history hsave.history) hok'.validates rt v, hok', hview⟩

theorem restores_of_view {s s' : Store} (hok : StateOk s.runtime) (hok' : StateOk s'.runtime)
    (hview : s'.runtime.view = s.runtime.plain.view)
    (hhistory : s'.versions.records = s.versions.records.map plainRecord) : Restores s s' := by
  have hplain : s'.runtime.plain.view = s.runtime.plain.view := by
    have := plain_view_congr (s := s.runtime.plain) hview
    rwa [plain_plain] at this
  refine ⟨contents_eq_of_view_eq hok.plain hok'.plain hplain, ?_⟩
  rw [hhistory, List.map_map]
  exact List.map_congr_left fun r _ => plainRecord_plainRecord r

/-- What an accepting `Load` has read holds no newline. -/
theorem storeSavable_of_load {d : Directory} {rt : RuntimeState} {v : VersionStore} {text h : Str}
    (hstate : d .state = some text) (hhistory : d .history = some h)
    (hacc : (load d rt v).status = .accepted) : StoreSavable (load d rt v).store := by
  rw [load, hstate] at hacc ⊢
  have hs := stateSavable_loaded text
  rcases hload : loadLines loadStateLine false RuntimeState.empty (lines text) with ⟨s', status⟩
  rw [hload] at hs
  simp only [hload, hhistory] at hacc ⊢
  cases status with
  | rejected => cases hacc
  | thrown => cases hacc
  | accepted =>
      cases hh : loadHistory h with
      | none =>
          simp only [hh] at hacc
          cases hacc
      | some records => exact ⟨hs, historySavable_loaded hh⟩

/-- A store in step is restored exactly when it holds no newline. -/
theorem restores_iff {s : Store} (hok : StoreOk s) (hfits : StoreIdsFit s) (d : Directory)
    (rt : RuntimeState) (v : VersionStore) :
    ((load (save s.runtime s.versions d) rt v).status = .accepted ∧
        Restores s (load (save s.runtime s.versions d) rt v).store) ↔ StoreSavable s := by
  constructor
  · rintro ⟨hacc, hres⟩
    have hsave := storeSavable_of_load (save_state _ _ d) (save_history _ _ d) hacc
    exact ⟨stateSavable_congr (view_eq_of_contents_eq hres.state) hsave.state,
      historySavable_congr hres.history hsave.history⟩
  · intro hsave
    obtain ⟨s', hload, hok', hview⟩ :=
      load_of_savable hok.state hfits hsave (save_state _ _ d) (save_history _ _ d) rt v
    rw [hload]
    exact ⟨rfl, restores_of_view hok.state hok' hview rfl⟩

/-- **`Load` restores what `Save` wrote of a reachable engine exactly when no
string of its tables and events holds a newline.** -/
theorem load_restores_iff {e : DbmsEngine} (h : Reachable e) (hfits : StoreIdsFit e.store)
    (d : Directory) (rt : RuntimeState) (v : VersionStore) :
    ((load (save e.runtimeState e.versionStore d) rt v).status = .accepted ∧
        Restores e.store (load (save e.runtimeState e.versionStore d) rt v).store) ↔
      StoreSavable e.store :=
  restores_iff (reachable_ok h).committed hfits d rt v

instance (i : RowId) : Decidable (RowIdFits i) :=
  inferInstanceAs (Decidable (∀ n ∈ i, n < 2 ^ 64 - 1))

instance (r : ChangeRecord) : Decidable (RecordIdsFit r) :=
  decidable_of_iff (RowIdFits r.rowId ∧ (∀ row ∈ r.beforeRow, RowIdFits row.rowId) ∧
      ∀ row ∈ r.afterRow, RowIdFits row.rowId)
    ⟨fun h => ⟨h.1, h.2.1, h.2.2⟩, fun h => ⟨h.rowId, h.beforeRow, h.afterRow⟩⟩

instance (s : Store) : Decidable (StoreIdsFit s) :=
  decidable_of_iff ((∀ p ∈ s.runtime.databases.entries, ∀ q ∈ p.2.tables.entries,
      ∀ r ∈ q.2.heap.rows, RowIdFits r.rowId) ∧ ∀ r ∈ s.versions.records, RecordIdsFit r)
    ⟨fun h => ⟨h.1, h.2⟩, fun h => ⟨h.state, h.history⟩⟩

set_option maxRecDepth 4000 in
theorem load_restores_sampleRun :
    StoreIdsFit sampleRun.1.store ∧
      (((load (save sampleRun.1.runtimeState sampleRun.1.versionStore Directory.empty)
          RuntimeState.empty VersionStore.empty).status = .accepted ∧
        Restores sampleRun.1.store
          (load (save sampleRun.1.runtimeState sampleRun.1.versionStore Directory.empty)
            RuntimeState.empty VersionStore.empty).store) ↔ StoreSavable sampleRun.1.store) := by
  have hfits : StoreIdsFit sampleRun.1.store := by decide +kernel
  exact ⟨hfits, load_restores_iff reachable_sampleRun hfits _ _ _⟩

/-- A table with a string of two lines. -/
def multilineRun : DbmsEngine × SessionContext :=
  runTexts sampleEnv Io.good freshEngine ⟨str "a", []⟩
    [str "CREATE DATABASE d;", str "USE d;", str "CREATE TABLE t (v STRING);",
      str "INSERT INTO t (v) VALUES (\"x\ny\");"]

/-- Restored stores have the same rows. -/
theorem Restores.storeRows_eq {s s' : Store} (h : Restores s s') (d t : Str) :
    storeRows s' d t = storeRows s d t := by
  have hrows : ∀ s : Store, storeRows s d t
      = (viewTable s.runtime.plain.view d t).map fun w => w.heap.rows := by
    intro s
    simp only [storeRows, viewTable, RuntimeState.view, RuntimeState.plain, Dict.find?_mapVals,
      Option.map_map]
    cases s.runtime.databases.find? d with
    | none => rfl
    | some db =>
        simp only [Option.bind_some, Option.map_some, Function.comp_apply, DatabaseRuntime.view,
          DatabaseRuntime.plain, Dict.find?_mapVals, Option.map_map]
        cases db.tables.find? t <;> rfl
  rw [hrows, hrows, view_eq_of_contents_eq h.state]

set_option maxRecDepth 4000 in
/-- The second line of the string is lost. -/
theorem newline_in_value_is_lost :
    Reachable multilineRun.1 ∧ StoreIdsFit multilineRun.1.store ∧
      ¬ ((load (save multilineRun.1.runtimeState multilineRun.1.versionStore Directory.empty)
          RuntimeState.empty VersionStore.empty).status = .accepted ∧
        Restores multilineRun.1.store
          (load (save multilineRun.1.runtimeState multilineRun.1.versionStore Directory.empty)
            RuntimeState.empty VersionStore.empty).store) := by
  refine ⟨reachable_runTexts sampleEnv Io.good reachable_freshEngine _ _, by decide +kernel, ?_⟩
  rintro ⟨-, hres⟩
  have hrows := hres.storeRows_eq (str "d") (str "t")
  exact absurd hrows (by decide +kernel)

end CustomDbms.Core
