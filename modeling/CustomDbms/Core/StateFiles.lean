/-
  CustomDbms.Core.StateFiles
  ──────────────────────────
  **WHAT `Save` WRITES, `Load` READS.**

  A text is read by the line loop of `Load` as a step from one loader state to
  another (`Reads`); texts that stand one behind the other are read one after
  the other.  The lines of a table build a clone of it, the lines of an event
  build the event.  So the two files give the store back, as long as no string
  in it holds a newline: `Escape` marks a newline and leaves it in place, and
  `std::getline` ends the line there.
-/
import CustomDbms.Core.RuntimePersistence
import CustomDbms.Execution.StoreInvariant

namespace CustomDbms.Core

open CustomDbms.Common CustomDbms.Catalog CustomDbms.Lib CustomDbms.Parser CustomDbms.Storage
open CustomDbms.Versioning CustomDbms.Execution CustomDbms.Index

/-! ## §1. Texts that are read. -/

section Reading

variable {σ : Type} {step : σ → List Str → σ × LoadStatus}

/-- Behind the header, the loop reads the text and comes from `s` to `s'`. -/
def Reads (step : σ → List Str → σ × LoadStatus) (text : Str) (s s' : σ) : Prop :=
  ∀ rest, loadLines step true s (lines (text ++ rest)) = loadLines step true s' (lines rest)

theorem reads_nil (s : σ) : Reads step [] s s := fun _ => rfl

theorem Reads.append {t t' : Str} {s s' s'' : σ} (h : Reads step t s s')
    (h' : Reads step t' s' s'') : Reads step (t ++ t') s s'' := by
  intro rest
  rw [List.append_assoc, h, h']

/-- The end of the file. -/
theorem Reads.finish {t : Str} {s s' : σ} (h : Reads step t s s') :
    loadLines step true s (lines t) = (s', .accepted) := by
  simpa [loadLines] using h []

/-- An empty line or a comment. -/
theorem reads_skip {l : Str} (hn : newline ∉ l) (hl : l = [] ∨ l.head? = some (byte '#'))
    (s : σ) : Reads step (l ++ [newline]) s s := by
  intro rest
  rw [List.append_assoc, List.singleton_append, lines_append hn, loadLines, if_pos hl]

/-- A line of comment, with its end. -/
def commentLine (text : Str) : Bool :=
  text.head? = some (byte '#') && text.getLast? = some newline && text.dropLast.all (· ≠ newline)

/-- Several comments. -/
theorem reads_comments {texts : List Str} (h : ∀ text ∈ texts, commentLine text = true) (s : σ) :
    Reads step texts.flatten s s := by
  induction texts with
  | nil => exact reads_nil s
  | cons text texts ih =>
      have hline : commentLine text = true := h text (by simp)
      simp only [commentLine, Bool.and_eq_true, decide_eq_true_eq, List.all_eq_true] at hline
      obtain ⟨⟨hhead, hlast⟩, hother⟩ := hline
      have hinner : newline ∉ text.dropLast := fun hmem => hother newline hmem rfl
      have htext : text = text.dropLast ++ [newline] :=
        (List.dropLast_append_getLast? newline hlast).symm
      have hskip : text.dropLast = [] ∨ text.dropLast.head? = some (byte '#') := by
        cases hfront : text.dropLast with
        | nil => exact .inl rfl
        | cons c front =>
            rw [htext, hfront] at hhead
            exact .inr hhead
      rw [List.flatten_cons, htext]
      exact (reads_skip hinner hskip s).append (ih fun m hm => h m (by simp [hm]))

theorem head?_intercalate {p : Str} (ps : List Str) (hp : p ≠ []) :
    ([tab].intercalate (p :: ps)).head? = p.head? := by
  obtain ⟨c, cs, rfl⟩ := List.exists_cons_of_ne_nil hp
  cases ps with
  | nil => simp [List.intercalate]
  | cons q ps => rw [List.intercalate_cons_cons]; rfl

/-- **A line of parts is read by one step.** -/
theorem reads_line {p : Str} {ps : List Str} {s s' : σ} (h : ∀ q ∈ p :: ps, Part q)
    (hp : p ≠ []) (hhash : p.head? ≠ some (byte '#'))
    (hstep : step s (p :: ps) = (s', .accepted)) : Reads step (lineOf (p :: ps)) s s' := by
  intro rest
  have hn : newline ∉ [tab].intercalate (p :: ps) :=
    newline_not_mem_intercalate fun q hq => (h q hq).oneLine
  have hhead := head?_intercalate ps hp
  have hskip : ¬ ([tab].intercalate (p :: ps) = [] ∨
      ([tab].intercalate (p :: ps)).head? = some (byte '#')) := by
    rintro (h0 | h0)
    · rw [h0] at hhead
      exact hp (List.head?_eq_none_iff.mp hhead.symm)
    · exact hhash (hhead.symm.trans h0)
  rw [lineOf, List.append_assoc, List.singleton_append, lines_append hn, loadLines, if_neg hskip,
    splitByTab_intercalate fun q hq => (h q hq).unbroken]
  simp [hstep]

/-- The header line is checked and passed over. -/
theorem loadLines_formatLine (s : σ) (rest : Str) :
    loadLines step false s (lines (formatLine ++ rest)) = loadLines step true s (lines rest) := by
  have hparts : ∀ q ∈ [str "FORMAT", str "3"], newline ∉ q ∧ backslash ∉ q ∧ tab ∉ q := by decide
  have hn : newline ∉ [tab].intercalate [str "FORMAT", str "3"] :=
    newline_not_mem_intercalate fun q hq => (hparts q hq).1
  have hskip : ¬ ([tab].intercalate [str "FORMAT", str "3"] = [] ∨
      ([tab].intercalate [str "FORMAT", str "3"]).head? = some (byte '#')) := by decide
  rw [formatLine, lineOf, List.append_assoc, List.singleton_append, lines_append hn, loadLines,
    if_neg hskip,
    splitByTab_intercalate fun q hq => unbroken_plain (hparts q hq).2.1 (hparts q hq).2.2]
  simp

end Reading

/-! ## §2. Parts and their contents. -/

/-- A field with a key of the format. -/
theorem part_field {k : String} {v : Str}
    (hk : (str k ++ str "=").all plainByte = true) (hv : Part v) :
    Part (field k v) := (part_plain hk).append hv

theorem parseKeyValueToken_field {k : String} (v : Str) (hk : byte '=' ∉ str k)
    (hne : str k ≠ []) : parseKeyValueToken (field k v) = some (str k, v) := by
  have key : ∀ l : Str, byte '=' ∉ l →
      (l ++ byte '=' :: v).takeWhile (fun c => decide (c ≠ byte '=')) = l ∧
        (l ++ byte '=' :: v).dropWhile (fun c => decide (c ≠ byte '=')) = byte '=' :: v := by
    intro l
    induction l with
    | nil => intro _; simp
    | cons c l ih =>
        intro hl
        have hc : c ≠ byte '=' := by rintro rfl; exact hl (by simp)
        obtain ⟨h1, h2⟩ := ih fun hm => hl (by simp [hm])
        rw [List.cons_append, List.takeWhile_cons, List.dropWhile_cons, h1, h2]
        simp [hc]
  have htext : field k v = str k ++ byte '=' :: v := by
    simp [field, str]
  obtain ⟨h1, h2⟩ := key (str k) hk
  rw [parseKeyValueToken, htext]
  simp only [h1, h2, hne, if_false]

/-- The field of a key. -/
theorem findField_field {k : String} (v : Str) (rest : List Str) (hk : byte '=' ∉ str k)
    (hne : str k ≠ []) : findField (str k) (field k v :: rest) = some v := by
  simp [findField, parseKeyValueToken_field v hk hne]

/-- A field of another key. -/
theorem findField_other {k k' : String} (v : Str) (rest : List Str) (hk : byte '=' ∉ str k)
    (hne : str k ≠ []) (hkk : str k ≠ str k') :
    findField (str k') (field k v :: rest) = findField (str k') rest := by
  simp [findField, parseKeyValueToken_field v hk hne, hkk]

theorem parseValueType_name (t : ValueType) : parseValueType (valueTypeName t) = some t := by
  cases t <;> decide

theorem parseConstraint_name (c : ColumnConstraint) :
    parseConstraint (constraintName c) = some c := by
  cases c <;> decide

theorem parseChangeKind_name (k : ChangeKind) : parseChangeKind (changeKindName k) = some k := by
  cases k <;> decide

theorem part_valueTypeName (t : ValueType) : Part (valueTypeName t) := by
  cases t <;> exact part_plain (by decide)

theorem part_constraintName (c : ColumnConstraint) : Part (constraintName c) := by
  cases c <;> exact part_plain (by decide)

theorem part_changeKindName (k : ChangeKind) : Part (changeKindName k) := by
  cases k <;> exact part_plain (by decide)

/-! ## §3. Values, rows and columns. -/

/-- A value a line can carry. -/
def ValueSavable : Value → Prop
  | .string s => newline ∉ s
  | _ => True

instance : DecidablePred ValueSavable := fun v =>
  match v with
  | .null => isTrue trivial
  | .int _ => isTrue trivial
  | .string s => inferInstanceAs (Decidable (newline ∉ s))

/-- A row id in its 64 bits. -/
def RowIdFits (i : RowId) : Prop := ∀ n ∈ i, n < 2 ^ 64 - 1

/-- A row a line can carry. -/
def RowSavable (row : RowData) : Prop := ∀ v ∈ row.values, ValueSavable v

/-- A column a line can carry. -/
structure ColumnSavable (c : Catalog.ColumnDefinition) : Prop where
  name : newline ∉ c.name
  defaultValue : ∀ v ∈ c.defaultValue, ValueSavable v

/-- A column without an explicit `DEFAULT NULL`, which says nothing. -/
def plainColumn (c : Catalog.ColumnDefinition) : Catalog.ColumnDefinition :=
  { c with defaultValue := c.defaultValue.bind keyedDefault }

theorem part_encodeValue {v : Value} (h : ValueSavable v) : Part (encodeValue v) := by
  cases v with
  | null => exact part_plain (by decide)
  | int i => exact (part_plain (by decide)).append (part_intToString _)
  | string s => exact (part_plain (by decide)).append (part_escape h)

/-- **A value is read back.** -/
theorem tryDecodeValue_encodeValue (v : Value) : tryDecodeValue (encodeValue v) = some v := by
  cases v with
  | null => decide
  | int i =>
      have hne : ¬ (encodeValue (.int i) = str "N" ∨ encodeValue (.int i) = str "Null") := by
        rintro (h0 | h0) <;> cases h0
      rw [tryDecodeValue, if_neg hne]
      simp only [encodeValue, stripStart_append]
      simp [decodeInt, stoll_intToString]
  | string s =>
      have hne : ¬ (encodeValue (.string s) = str "N" ∨ encodeValue (.string s) = str "Null") := by
        simp [encodeValue, str, byte]
      have h1 : stripStart (str "Int:") (str "String:" ++ escape s) = none := rfl
      have h2 : stripStart (str "I:") (str "String:" ++ escape s) = none := rfl
      rw [tryDecodeValue, if_neg hne]
      simp only [encodeValue, stripStart_append, h1, h2, unescape_escape]

theorem mapM_tryDecodeValue (vs : List Value) :
    (vs.map encodeValue).mapM tryDecodeValue = some vs := by
  induction vs with
  | nil => rfl
  | cons v vs ih => simp [List.mapM_cons, tryDecodeValue_encodeValue, ih]

theorem part_rowIdToString (i : RowId) : Part (rowIdToString i) := part_natToString _

/-- **A row id is read back.** -/
theorem parseRowId_rowIdToString {i : RowId} (h : RowIdFits i) :
    parseRowId (rowIdToString i) = some i := by
  cases i with
  | none => simp [parseRowId, rowIdToString, stoull_natToString]
  | some n =>
      have hn := h n rfl
      rw [parseRowId, rowIdToString, Option.getD_some, stoull_natToString (by omega)]
      simp only [Option.map_some, Option.some.injEq, ite_eq_right_iff]
      omega

theorem part_encodeDefault {o : Option Value} (h : ∀ v ∈ o, ValueSavable v) :
    Part (encodeDefault o) := by
  cases o with
  | none => exact part_plain (by decide)
  | some v => exact part_encodeValue (h v rfl)

/-- **A column is read back**, without its `DEFAULT NULL`. -/
theorem keyedColumn_column (c : Catalog.ColumnDefinition) :
    keyedColumn (escape c.name) (valueTypeName c.type) (constraintName c.constraint)
      (encodeDefault c.defaultValue) = some (plainColumn c) := by
  have hd : ∃ v, tryDecodeValue (encodeDefault c.defaultValue) = some v ∧
      keyedDefault v = c.defaultValue.bind keyedDefault := by
    cases c.defaultValue with
    | none => exact ⟨.null, by decide, by simp [keyedDefault]⟩
    | some v => exact ⟨v, tryDecodeValue_encodeValue v, rfl⟩
  obtain ⟨v, hv, hk⟩ := hd
  simp [keyedColumn, parseValueType_name, parseConstraint_name, hv, hk, plainColumn]

/-- The values of a line with keyed values at its end. -/
theorem filterMap_values (f : Str → Option Str)
    (hf : ∀ v, f (field "value" v) = some v) (vs : List Value) :
    (vs.map fun v => field "value" (encodeValue v)).filterMap f = vs.map encodeValue := by
  induction vs with
  | nil => rfl
  | cons v vs ih => simp [hf, ih]

/-- The keys in front of the values of a line. -/
theorem keyedValues_cons {k : String} (v : Str) (rest : List Str) (hk : byte '=' ∉ str k)
    (hne : str k ≠ []) (hkv : str k ≠ str "value") :
    keyedValues (field k v :: rest) = keyedValues rest := by
  rw [keyedValues, List.filterMap_cons, parseKeyValueToken_field v hk hne]
  simp [hkv, keyedValues]

theorem keyedValues_values (vs : List Value) :
    keyedValues (vs.map fun v => field "value" (encodeValue v)) = vs.map encodeValue := by
  refine filterMap_values _ (fun v => ?_) vs
  rw [parseKeyValueToken_field v (by decide) (by decide)]
  simp

theorem keyedValues_tag {tag : Str} (rest : List Str) (h : parseKeyValueToken tag = none) :
    keyedValues (tag :: rest) = keyedValues rest := by
  rw [keyedValues, List.filterMap_cons, h]
  rfl

/-! ## §4. The lines of a table. -/

theorem loadStateLine_database (s : RuntimeState) (n : Str) :
    loadStateLine s [str "DATABASE", field "name" (escape n)]
      = (loadDatabase s n, .accepted) := by
  have hf : findFieldValue [str "DATABASE", field "name" (escape n)] (str "name")
      = some (escape n) := findField_field _ _ (by decide) (by decide)
  delta loadStateLine
  simp [hf]

theorem loadStateLine_table (s : RuntimeState) (n t : Str) :
    loadStateLine s [str "TABLE", field "db" (escape n), field "name" (escape t)]
      = (loadTable s n t, .accepted) := by
  have hdb : findFieldValue [str "TABLE", field "db" (escape n), field "name" (escape t)]
      (str "db") = some (escape n) := findField_field _ _ (by decide) (by decide)
  have hname : findFieldValue [str "TABLE", field "db" (escape n), field "name" (escape t)]
      (str "name") = some (escape t) := by
    simp (disch := decide) only [findFieldValue, List.tail_cons, findField_other, findField_field]
  have h1 : str "TABLE" ≠ str "DATABASE" := by decide
  have h2 : str "TABLE" ≠ str "DB" := by decide
  delta loadStateLine
  simp [hdb, hname, h1, h2]

theorem loadStateLine_column (s : RuntimeState) (n t : Str) (c : Catalog.ColumnDefinition) :
    loadStateLine s [str "COLUMN", field "db" (escape n), field "table" (escape t),
        field "name" (escape c.name), field "type" (valueTypeName c.type),
        field "constraint" (constraintName c.constraint),
        field "default" (encodeDefault c.defaultValue)]
      = (loadColumn s n t (plainColumn c), .accepted) := by
  have h1 : str "COLUMN" ≠ str "DATABASE" := by decide
  have h2 : str "COLUMN" ≠ str "DB" := by decide
  have h3 : str "COLUMN" ≠ str "TABLE" := by decide
  delta loadStateLine
  simp only [List.head?_cons, Option.getD_some, h1, h2, h3, if_false, false_and,
    if_true, loadColumnLine, findFieldValue, List.tail_cons]
  simp (disch := decide) only [findField_other, findField_field, keyedColumn_column,
    unescape_escape]

theorem decodeRow_line {parts : List Str} {row : RowData} (h : RowIdFits row.rowId)
    (hid : findFieldValue parts (str "row_id") = some (rowIdToString row.rowId)) :
    decodeRow parts (row.values.map encodeValue) = some row := by
  have hvalues := mapM_tryDecodeValue row.values
  simp only [decodeRow, rowIdField, hid, parseRowId_rowIdToString h, hvalues]
  rfl

theorem loadStateLine_row (s : RuntimeState) (n t : Str) {row : RowData} (h : RowIdFits row.rowId)
    {table : TableRuntime} (htable : lookupTable s n t = some table) :
    loadStateLine s ([str "ROW", field "db" (escape n), field "table" (escape t),
        field "row_id" (rowIdToString row.rowId)]
          ++ row.values.map fun v => field "value" (encodeValue v))
      = loadRow s n t table row := by
  have h1 : str "ROW" ≠ str "DATABASE" := by decide
  have h2 : str "ROW" ≠ str "DB" := by decide
  have h3 : str "ROW" ≠ str "TABLE" := by decide
  have h4 : str "ROW" ≠ str "COLUMN" := by decide
  have htag : parseKeyValueToken (str "ROW") = none := by decide
  have hvalues := keyedValues_values row.values
  delta loadStateLine
  simp only [List.cons_append, List.nil_append, List.head?_cons, Option.getD_some,
    h1, h2, h3, h4, if_false, false_and, if_true, findFieldValue, List.tail_cons]
  simp (disch := decide) only [findField_other, findField_field, unescape_escape, loadRowLine,
    htable, keyedValues_tag _ htag, keyedValues_cons, hvalues]
  rw [decodeRow_line h]
  simp (disch := decide) only [findFieldValue, List.tail_cons, findField_other, findField_field]

/-! ## §5. Tables and databases. -/

/-- A schema without an explicit `DEFAULT NULL`. -/
def plainSchema (schema : TableSchema) : TableSchema :=
  { schema with columns := schema.columns.map plainColumn }

/-- A table with such a schema. -/
def TableRuntime.plain (table : TableRuntime) : TableRuntime :=
  { table with schema := plainSchema table.schema }

theorem findColumnIndex_plainSchema (schema : TableSchema) (n : Str) :
    findColumnIndex (plainSchema schema) n = findColumnIndex schema n := by
  rw [findColumnIndex, findColumnIndex, plainSchema, List.findIdx?_map]
  rfl

theorem indexKey_plainSchema (schema : TableSchema) (n : Str) (row : RowData) :
    indexKey (plainSchema schema) n row = indexKey schema n row := by
  unfold indexKey
  rw [findColumnIndex_plainSchema]
  cases findColumnIndex schema n with
  | none => rfl
  | some i =>
      simp only [plainSchema, List.getElem?_map]
      cases schema.columns[i]? <;> rfl

theorem SchemaOk.plain {d t : Str} {schema : TableSchema} (h : SchemaOk d t schema) :
    SchemaOk d t (plainSchema schema) where
  database := h.database
  table := h.table
  columns_ne := by simpa [plainSchema] using h.columns_ne
  columns_nodup := by
    have := h.columns_nodup
    simpa [plainSchema, List.map_map, Function.comp_def, plainColumn] using this
  indexes := by
    show schema.indexes = _
    rw [h.indexes, plainSchema, List.filter_map, List.map_map]
    rfl

/-- **Without `DEFAULT NULL` a table is in step as before.** -/
theorem TableOk.plain {d t : Str} {table : TableRuntime} (h : TableOk d t table) :
    TableOk d t table.plain where
  schema := h.schema.plain
  heap := h.heap
  shape := by
    intro r hr
    rw [h.shape r hr]
    simp [TableRuntime.plain, plainSchema]
  keys := h.keys
  indexes := by
    intro n tree hmem
    obtain ⟨hvalid, horder, hkeyed, hdistinct, hholds⟩ := h.indexes n tree hmem
    have hkey : indexKey (plainSchema table.schema) n = indexKey table.schema n :=
      funext (indexKey_plainSchema table.schema n)
    refine ⟨hvalid, horder, ?_, ?_, ?_⟩
    · show ∀ r ∈ table.heap.rows, (indexKey (plainSchema table.schema) n r).isSome
      rwa [hkey]
    · show (table.heap.rows.map (indexKey (plainSchema table.schema) n)).Nodup
      rwa [hkey]
    · show Holds tree (rowsWithKey (plainSchema table.schema) n table.heap.rows)
      unfold rowsWithKey
      rwa [hkey]

/-- The row ids of a table in their 64 bits. -/
def TableIdsFit (table : TableRuntime) : Prop := ∀ r ∈ table.heap.rows, RowIdFits r.rowId

/-- A table the lines can carry. -/
structure TableSavable (t : Str) (table : TableRuntime) : Prop where
  name : newline ∉ t
  columns : ∀ c ∈ table.schema.columns, ColumnSavable c
  rows : ∀ r ∈ table.heap.rows, RowSavable r

section Tables

variable {D : Dict Str DatabaseRuntime} {n t : Str} (hD : D.find? n = none)

/-- The state while the tables of its last database are read. -/
def inDatabase (D : Dict Str DatabaseRuntime) (n : Str) (T : Dict Str TableRuntime) :
    RuntimeState := ⟨D.emplace n ⟨n, T⟩⟩

include hD

theorem loadTable_inDatabase (T : Dict Str TableRuntime) :
    loadTable (inDatabase D n T) n t
      = inDatabase D n (T.emplace t ⟨⟨n, t, [], []⟩, TableHeap.new, Dict.empty⟩) := by
  have hfind : (D.emplace n ⟨n, T⟩).find? n = some ⟨n, T⟩ := by
    rw [Dict.find?_emplace hD, if_pos rfl]
  simp only [loadTable, loadDatabase, inDatabase, Dict.emplace_of_find? hfind,
    Dict.modify_emplace hD]

variable {T : Dict Str TableRuntime} (hT : T.find? t = none)

include hT

theorem lookupTable_inDatabase (table : TableRuntime) :
    lookupTable (inDatabase D n (T.emplace t table)) n t = some table := by
  have hfind : (D.emplace n ⟨n, T.emplace t table⟩).find? n = some ⟨n, T.emplace t table⟩ := by
    rw [Dict.find?_emplace hD, if_pos rfl]
  simp only [lookupTable, inDatabase, hfind, Dict.find?_emplace hT, if_true]

theorem putTable_inDatabase (table table' : TableRuntime) :
    putTable (inDatabase D n (T.emplace t table)) n t table'
      = inDatabase D n (T.emplace t table') := by
  simp only [putTable, inDatabase, Dict.modify_emplace hD, Dict.modify_emplace hT]

/-- The `COLUMN` lines of a table. -/
theorem reads_columns (hn : newline ∉ n) (ht : newline ∉ t)
    {cs : List Catalog.ColumnDefinition} (hcs : ∀ c ∈ cs, ColumnSavable c)
    (table : TableRuntime) :
    Reads loadStateLine (cs.flatMap (columnLine n t)) (inDatabase D n (T.emplace t table))
      (inDatabase D n (T.emplace t
        (cs.foldl (fun table c => addColumn table t (plainColumn c)) table))) := by
  induction cs generalizing table with
  | nil => exact reads_nil _
  | cons c cs ih =>
      have hc := hcs c (by simp)
      rw [List.flatMap_cons, List.foldl_cons]
      refine Reads.append ?_ (ih (fun c' hc' => hcs c' (by simp [hc'])) _)
      refine reads_line ?_ (by decide) (by decide) ?_
      · intro q hq
        simp only [List.mem_cons, List.not_mem_nil, or_false] at hq
        rcases hq with rfl | rfl | rfl | rfl | rfl | rfl | rfl
        · exact part_plain (by decide)
        · exact part_field (by decide) (part_escape hn)
        · exact part_field (by decide) (part_escape ht)
        · exact part_field (by decide) (part_escape hc.name)
        · exact part_field (by decide) (part_valueTypeName _)
        · exact part_field (by decide) (part_constraintName _)
        · exact part_field (by decide) (part_encodeDefault hc.defaultValue)
      · rw [loadStateLine_column, loadColumn, lookupTable_inDatabase hD hT]
        simp only [putTable_inDatabase hD hT]

/-- The `ROW` lines of a table enter the rows as a clone does. -/
theorem reads_rows (hn : newline ∉ n) (ht : newline ∉ t) {schema : TableSchema}
    {rows : List RowData} (hrows : ∀ r ∈ rows, RowSavable r)
    (hfits : ∀ r ∈ rows, RowIdFits r.rowId) (hid : ∀ r ∈ rows, r.rowId.isSome)
    (hlen : ∀ r ∈ rows, r.values.length = schema.columns.length)
    {ix ix' : Dict Str IndexTree} (h : TableHeap)
    (hix : indexRows (addIndexEntry schema) ix rows = (ix', .ok ())) :
    Reads loadStateLine (rows.flatMap (rowLine n t))
      (inDatabase D n (T.emplace t ⟨schema, h, ix⟩))
      (inDatabase D n (T.emplace t
        ⟨schema, rows.foldl (fun h row => (h.insert row).1) h, ix'⟩)) := by
  induction rows generalizing h ix with
  | nil =>
      cases hix
      exact reads_nil _
  | cons row rows ih =>
      have hrow := hrows row (by simp)
      obtain ⟨i, hi⟩ := Option.isSome_iff_exists.mp (hid row (by simp))
      rw [List.flatMap_cons, List.foldl_cons]
      rw [indexRows] at hix
      rcases hup : updateIndexes (addIndexEntry schema row) ix with ⟨ix1, r1⟩
      rw [hup] at hix
      cases r1 with
      | error e => cases hix
      | fault => cases hix
      | ok u =>
          refine Reads.append ?_ (ih (fun r hr => hrows r (by simp [hr]))
            (fun r hr => hfits r (by simp [hr])) (fun r hr => hid r (by simp [hr]))
            (fun r hr => hlen r (by simp [hr])) (h.insert row).1 hix)
          refine reads_line (p := str "ROW") ?_ (by decide) (by decide) ?_
          · intro q hq
            have hq' : q ∈ [str "ROW", field "db" (escape n), field "table" (escape t),
                field "row_id" (rowIdToString row.rowId)]
                  ++ row.values.map fun v => field "value" (encodeValue v) := hq
            rcases List.mem_append.mp hq' with hq | hq
            · simp only [List.mem_cons, List.not_mem_nil, or_false] at hq
              rcases hq with rfl | rfl | rfl | rfl
              · exact part_plain (by decide)
              · exact part_field (by decide) (part_escape hn)
              · exact part_field (by decide) (part_escape ht)
              · exact part_field (by decide) (part_rowIdToString _)
            · obtain ⟨v, hv, rfl⟩ := List.mem_map.mp hq
              exact part_field (by decide) (part_encodeValue (hrow v hv))
          · have hins : (h.insert row).2 = row.rowId := by rw [TableHeap.insert, hi]
            have hline := loadStateLine_row _ n t (hfits row (by simp))
              (lookupTable_inDatabase hD hT ⟨schema, h, ix⟩)
            rw [List.cons_append] at hline
            refine hline.trans ?_
            rw [loadRow, if_neg (not_not.mpr (hlen row (by simp)))]
            simp only [hins, hup, putTable_inDatabase hD hT, if_true]

end Tables

/-- The columns of a schema, read one by one, make its plain table. -/
theorem foldl_addColumn (n t : Str) (cs cols : List Catalog.ColumnDefinition)
    (ixs : List IndexDefinition) (I : Dict Str IndexTree) :
    cs.foldl (fun table c => addColumn table t (plainColumn c))
        ⟨⟨n, t, cols, ixs⟩, TableHeap.new, I⟩
      = (let new := (cs.filter fun c => decide (c.constraint = .indexed)).map
          fun c => indexDefinitionFor t c.name
        ⟨⟨n, t, cols ++ cs.map plainColumn, ixs ++ new⟩, TableHeap.new,
          new.foldl (fun d ix => d.emplace ix.columnName newIndexTree) I⟩) := by
  induction cs generalizing cols ixs I with
  | nil => simp
  | cons c cs ih =>
      rw [List.foldl_cons, addColumn]
      by_cases hc : c.constraint = .indexed
      · have hp : (plainColumn c).constraint = .indexed := hc
        rw [if_pos hp, ih]
        simp [hc, plainColumn, indexDefinitionFor]
      · have hp : ¬ (plainColumn c).constraint = .indexed := hc
        rw [if_neg hp, ih]
        simp [hc]

theorem foldl_addColumn_schema {n t : Str} {schema : TableSchema} (h : SchemaOk n t schema) :
    schema.columns.foldl (fun table c => addColumn table t (plainColumn c))
        ⟨⟨n, t, [], []⟩, TableHeap.new, Dict.empty⟩ = tableOf (plainSchema schema) := by
  rw [foldl_addColumn]
  simp only [List.nil_append]
  rw [← h.indexes]
  have hschema : (⟨n, t, schema.columns.map plainColumn, schema.indexes⟩ : TableSchema)
      = plainSchema schema := by
    rw [plainSchema, ← h.database, ← h.table]
  rw [hschema]
  rfl

/-- **The lines of a table make a clone of it.** -/
theorem reads_table {D : Dict Str DatabaseRuntime} {n t : Str} (hD : D.find? n = none)
    {T : Dict Str TableRuntime} (hT : T.find? t = none) (hn : newline ∉ n)
    {table : TableRuntime} (hok : TableOk n t table) (hfits : TableIdsFit table)
    (hsave : TableSavable t table) :
    ∃ table', TableOk n t table' ∧ table'.view = table.plain.view ∧
      Reads loadStateLine (tableText n t table) (inDatabase D n T)
        (inDatabase D n (T.emplace t table')) := by
  obtain ⟨indexes', hrun, hok'⟩ := hok.plain.reindex (f := addIndexEntry (plainSchema table.schema))
    fun _ _ _ _ _ hT hk hnew => addIndexEntry_ok hT hk hnew
  have ht := hsave.name
  have hcols := reads_columns hD hT hn ht hsave.columns ⟨⟨n, t, [], []⟩, TableHeap.new, Dict.empty⟩
  rw [foldl_addColumn_schema hok.schema] at hcols
  have hshape : ∀ r ∈ table.heap.rows,
      r.values.length = (plainSchema table.schema).columns.length := by
    intro r hr
    rw [hok.shape r hr]
    simp [plainSchema]
  have hrows := reads_rows hD hT hn ht hsave.rows hfits hok.heap.ordered.1 hshape TableHeap.new hrun
  have hheap : table.heap.rows.foldl (fun h row => (h.insert row).1) TableHeap.new = table.heap :=
    heapOf_rows hok.heap
  rw [hheap] at hrows
  have hcomment : ∀ c : String, (str c).all plainByte = true → (str c).head? = some (byte '#') →
      ∀ x : Str, newline ∉ x → ∀ s : RuntimeState,
      Reads loadStateLine (str c ++ escape x ++ [newline]) s s := by
    intro c hc hhead x hx s
    refine reads_skip ((part_plain hc).append (part_escape hx)).oneLine (.inr ?_) s
    rw [List.head?_append, hhead]
    rfl
  have hname : Reads loadStateLine
      (lineOf [str "TABLE", field "db" (escape n), field "name" (escape t)]) (inDatabase D n T)
      (inDatabase D n (T.emplace t ⟨⟨n, t, [], []⟩, TableHeap.new, Dict.empty⟩)) := by
    refine reads_line ?_ (by decide) (by decide) ?_
    · intro q hq
      simp only [List.mem_cons, List.not_mem_nil, or_false] at hq
      rcases hq with rfl | rfl | rfl
      · exact part_plain (by decide)
      · exact part_field (by decide) (part_escape hn)
      · exact part_field (by decide) (part_escape ht)
    · rw [loadStateLine_table, loadTable_inDatabase hD]
  have hhead := (hcomment "# Database: " (by decide) (by decide) n hn
    (inDatabase D n T)).append
      (hcomment "# Table: " (by decide) (by decide) t ht _)
  have hall := (((hhead.append hname).append hcols).append hrows).append
    (reads_skip (l := []) (by simp) (.inl rfl) _)
  refine ⟨_, hok', rfl, ?_⟩
  intro rest
  simpa only [tableText, TableHeap.scanAll, TableRuntime.plain, List.append_assoc,
    List.nil_append] using hall rest

/-- A database the lines can carry. -/
structure DatabaseSavable (n : Str) (d : DatabaseRuntime) : Prop where
  name : newline ∉ n
  tables : ∀ p ∈ d.tables.entries, TableSavable p.1 p.2

/-- A database without an explicit `DEFAULT NULL`. -/
def DatabaseRuntime.plain (d : DatabaseRuntime) : DatabaseRuntime :=
  { d with tables := d.tables.mapVals fun _ table => table.plain }

/-- A state without an explicit `DEFAULT NULL`. -/
def RuntimeState.plain (s : RuntimeState) : RuntimeState :=
  ⟨s.databases.mapVals fun _ d => d.plain⟩

/-- What the loader leaves for an entry of a map. -/
def ReadAs {β : Type} (Ok : Str → β → Prop) (Same : β → β → Prop) (p p' : Str × β) : Prop :=
  p'.1 = p.1 ∧ Ok p.1 p'.2 ∧ Same p.2 p'.2

theorem reads_tables {D : Dict Str DatabaseRuntime} {n : Str} (hD : D.find? n = none)
    (hn : newline ∉ n) {l : List (Str × TableRuntime)} (hnd : (l.map Prod.fst).Nodup)
    (hok : ∀ p ∈ l, TableOk n p.1 p.2) (hfits : ∀ p ∈ l, TableIdsFit p.2)
    (hsave : ∀ p ∈ l, TableSavable p.1 p.2)
    {T : Dict Str TableRuntime} (hfresh : ∀ p ∈ l, T.find? p.1 = none) :
    ∃ T' l', Reads loadStateLine (l.flatMap fun p => tableText n p.1 p.2) (inDatabase D n T)
        (inDatabase D n T') ∧ T'.entries = T.entries ++ l' ∧
      List.Forall₂ (ReadAs (TableOk n) fun table table' => table'.view = table.plain.view) l l' := by
  induction l generalizing T with
  | nil => exact ⟨T, [], reads_nil _, by simp, List.Forall₂.nil⟩
  | cons p l ih =>
      obtain ⟨hp, hnd'⟩ := List.nodup_cons.mp hnd
      have hT := hfresh p (by simp)
      obtain ⟨table', htok, hview, hread⟩ :=
        reads_table hD hT hn (hok p (by simp)) (hfits p (by simp)) (hsave p (by simp))
      obtain ⟨T', l', hreads, hentries, hall⟩ := ih hnd' (fun q hq => hok q (by simp [hq]))
        (fun q hq => hfits q (by simp [hq])) (fun q hq => hsave q (by simp [hq]))
        (T := T.emplace p.1 table') (by
          intro q hq
          have hne : q.1 ≠ p.1 := fun heq => hp (heq ▸ List.mem_map_of_mem hq)
          rw [Dict.find?_emplace hT, if_neg hne]
          exact hfresh q (by simp [hq]))
      refine ⟨T', (p.1, table') :: l', ?_, ?_, List.Forall₂.cons ⟨rfl, htok, hview⟩ hall⟩
      · rw [List.flatMap_cons]
        exact hread.append hreads
      · rw [hentries, Dict.entries_emplace hT]
        simp

/-- **The lines of a database make a clone of it.** -/
theorem reads_database {D : Dict Str DatabaseRuntime} {n : Str} (hD : D.find? n = none)
    {d : DatabaseRuntime} (hok : DatabaseOk n d)
    (hfits : ∀ p ∈ d.tables.entries, TableIdsFit p.2) (hsave : DatabaseSavable n d) :
    ∃ d', DatabaseOk n d' ∧ d'.view = d.plain.view ∧
      Reads loadStateLine (databaseText n d) ⟨D⟩ ⟨D.emplace n d'⟩ := by
  obtain ⟨T', l', hreads, hentries, hall⟩ := reads_tables hD hsave.name d.tables.nodup
    (fun p hp => hok.tables p.1 p.2 (Dict.mem_entries_iff.mp hp)) hfits hsave.tables
    (T := Dict.empty) (fun _ _ => rfl)
  have hT' : T'.entries = l' := by rw [hentries]; rfl
  have hview := forall₂_view d.plain.tables T' (g := TableRuntime.view) (P := TableOk n) (by
    rw [hT']
    show List.Forall₂ _ (d.tables.entries.map _) l'
    rw [List.forall₂_map_left_iff]
    exact hall)
  refine ⟨⟨n, T'⟩, ⟨rfl, hview.1⟩, ?_, ?_⟩
  · show (n, _) = (d.name, _)
    rw [hview.2, hok.name]
  · refine Reads.append ?_ hreads
    refine reads_line ?_ (by decide) (by decide) (loadStateLine_database ⟨D⟩ n)
    intro q hq
    simp only [List.mem_cons, List.not_mem_nil, or_false] at hq
    rcases hq with rfl | rfl
    · exact part_plain (by decide)
    · exact part_field (by decide) (part_escape hsave.name)

/-- The row ids of a state in their 64 bits. -/
def StateIdsFit (s : RuntimeState) : Prop :=
  ∀ p ∈ s.databases.entries, ∀ q ∈ p.2.tables.entries, TableIdsFit q.2

/-- A state the file can carry. -/
def StateSavable (s : RuntimeState) : Prop := ∀ p ∈ s.databases.entries, DatabaseSavable p.1 p.2

theorem reads_databases {l : List (Str × DatabaseRuntime)} (hnd : (l.map Prod.fst).Nodup)
    (hok : ∀ p ∈ l, DatabaseOk p.1 p.2)
    (hfits : ∀ p ∈ l, ∀ q ∈ p.2.tables.entries, TableIdsFit q.2)
    (hsave : ∀ p ∈ l, DatabaseSavable p.1 p.2)
    {D : Dict Str DatabaseRuntime} (hfresh : ∀ p ∈ l, D.find? p.1 = none) :
    ∃ D' l', Reads loadStateLine (l.flatMap fun p => databaseText p.1 p.2) ⟨D⟩ ⟨D'⟩ ∧
      D'.entries = D.entries ++ l' ∧
      List.Forall₂ (ReadAs DatabaseOk fun d d' => d'.view = d.plain.view) l l' := by
  induction l generalizing D with
  | nil => exact ⟨D, [], reads_nil _, by simp, List.Forall₂.nil⟩
  | cons p l ih =>
      obtain ⟨hp, hnd'⟩ := List.nodup_cons.mp hnd
      have hD := hfresh p (by simp)
      obtain ⟨d', hdok, hview, hread⟩ :=
        reads_database hD (hok p (by simp)) (hfits p (by simp)) (hsave p (by simp))
      obtain ⟨D', l', hreads, hentries, hall⟩ := ih hnd' (fun q hq => hok q (by simp [hq]))
        (fun q hq => hfits q (by simp [hq])) (fun q hq => hsave q (by simp [hq]))
        (D := D.emplace p.1 d') (by
          intro q hq
          have hne : q.1 ≠ p.1 := fun heq => hp (heq ▸ List.mem_map_of_mem hq)
          rw [Dict.find?_emplace hD, if_neg hne]
          exact hfresh q (by simp [hq]))
      refine ⟨D', (p.1, d') :: l', ?_, ?_, List.Forall₂.cons ⟨rfl, hdok, hview⟩ hall⟩
      · rw [List.flatMap_cons]
        exact hread.append hreads
      · rw [hentries, Dict.entries_emplace hD]
        simp

theorem reads_stateComments (s : RuntimeState) : Reads loadStateLine stateComments s s := by
  have htext : stateComments = [str "# Runtime state dump (human-readable)\n", str "# Records:\n",
      str "# DATABASE\\tname=<db>\n", str "# TABLE\\tdb=<db>\\tname=<table>\n",
      str "# COLUMN\\tdb=<db>\\ttable=<table>\\tname=<column>\\ttype=<INT|STRING|NULL>"
        ++ str "\\tconstraint=<NONE|NOT_NULL|INDEXED>\\tdefault=<value>\n",
      str "# ROW\\tdb=<db>\\ttable=<table>\\trow_id=<id>\\tvalue=<...>\\tvalue=<...>\n"].flatten := by
    simp only [stateComments, List.flatten_cons, List.flatten_nil, List.append_nil,
      List.append_assoc]
  rw [htext]
  refine reads_comments ?_ s
  repeat rw [str_ofList]
  decide

/-- **`runtime_state.tsv` gives the state back**, in step and with the same
tables, up to `DEFAULT NULL`. -/
theorem loadLines_stateText {s : RuntimeState} (hok : StateOk s) (hfits : StateIdsFit s)
    (hsave : StateSavable s) :
    ∃ s', loadLines loadStateLine false RuntimeState.empty (lines (stateText s))
        = (s', .accepted) ∧ StateOk s' ∧ s'.view = s.plain.view := by
  obtain ⟨D', l', hreads, hentries, hall⟩ := reads_databases s.databases.nodup
    (fun p hp => hok p.1 p.2 (Dict.mem_entries_iff.mp hp)) hfits hsave (D := Dict.empty)
    (fun _ _ => rfl)
  have hD' : D'.entries = l' := by rw [hentries]; rfl
  have hview := forall₂_view s.plain.databases D' (g := DatabaseRuntime.view) (P := DatabaseOk) (by
    rw [hD']
    show List.Forall₂ _ (s.databases.entries.map _) l'
    rw [List.forall₂_map_left_iff]
    exact hall)
  refine ⟨⟨D'⟩, ?_, hview.1, hview.2⟩
  rw [stateText, List.append_assoc, loadLines_formatLine]
  exact ((reads_stateComments _).append hreads).finish

/-! ## §6. The change log. -/

/-- The row ids of an event in their 64 bits. -/
structure RecordIdsFit (r : ChangeRecord) : Prop where
  rowId : RowIdFits r.rowId
  beforeRow : ∀ row ∈ r.beforeRow, RowIdFits row.rowId
  afterRow : ∀ row ∈ r.afterRow, RowIdFits row.rowId

/-- An event the lines can carry. -/
structure RecordSavable (r : ChangeRecord) : Prop where
  databaseName : newline ∉ r.databaseName
  tableName : newline ∉ r.tableName
  timestamp : newline ∉ r.timestamp
  schema : ∀ s ∈ r.schema, ∀ c ∈ s.columns, ColumnSavable c
  beforeRow : ∀ row ∈ r.beforeRow, RowSavable row
  afterRow : ∀ row ∈ r.afterRow, RowSavable row

/-- A log the file can carry. -/
def HistorySavable (v : VersionStore) : Prop := ∀ r ∈ v.records, RecordSavable r

/-- The columns an event carries. -/
def ChangeRecord.columns (r : ChangeRecord) : List Catalog.ColumnDefinition :=
  r.schema.elim [] (·.columns)

/-- An event as the loader rebuilds it: with the columns of its schema, not
with its index definitions. -/
def plainRecord (r : ChangeRecord) : ChangeRecord :=
  { r with
    schema := if ChangeRecord.columns r = [] then none else
      some ⟨r.databaseName, r.tableName, (ChangeRecord.columns r).map plainColumn, []⟩ }

theorem loadHistoryLine_event (s : HistoryLoad) (hs : s.pending = none) {r : ChangeRecord}
    (h : RowIdFits r.rowId) :
    loadHistoryLine s [str "EVENT", field "kind" (changeKindName r.kind),
        field "db" (escape r.databaseName), field "table" (escape r.tableName),
        field "timestamp" (escape r.timestamp), field "row_id" (rowIdToString r.rowId)]
      = ({ s with pending := some { r with schema := none, beforeRow := none, afterRow := none } },
          .accepted) := by
  have hload : loadEvent [str "EVENT", field "kind" (changeKindName r.kind),
        field "db" (escape r.databaseName), field "table" (escape r.tableName),
        field "timestamp" (escape r.timestamp), field "row_id" (rowIdToString r.rowId)]
      = some { r with schema := none, beforeRow := none, afterRow := none } := by
    unfold loadEvent rowIdField findFieldValue
    rw [List.tail_cons]
    simp (disch := decide) only [findField_other, findField_field, parseRowId_rowIdToString h,
      Option.bind_eq_bind, Option.bind_some, parseChangeKind_name, unescape_escape]
    rfl
  delta loadHistoryLine
  simp [hs, hload]

theorem loadHistoryLine_column (s : HistoryLoad) {r : ChangeRecord} (hs : s.pending = some r)
    (c : Catalog.ColumnDefinition) :
    loadHistoryLine s [str "SCHEMA_COLUMN", field "name" (escape c.name),
        field "type" (valueTypeName c.type), field "constraint" (constraintName c.constraint),
        field "default" (encodeDefault c.defaultValue)]
      = ({ s with pending := some (addSchemaColumn r (plainColumn c)) }, .accepted) := by
  have hload : loadSchemaColumn [str "SCHEMA_COLUMN", field "name" (escape c.name),
        field "type" (valueTypeName c.type), field "constraint" (constraintName c.constraint),
        field "default" (encodeDefault c.defaultValue)] = some (plainColumn c) := by
    unfold loadSchemaColumn findFieldValue
    rw [List.tail_cons]
    simp (disch := decide) only [findField_other, findField_field, keyedColumn_column,
      Option.bind_eq_bind, Option.bind_some]
  have h1 : str "SCHEMA_COLUMN" ≠ str "EVENT" := by decide
  delta loadHistoryLine
  simp [hs, hload, h1]

theorem loadHistoryLine_image (s : HistoryLoad) {r : ChangeRecord} (hs : s.pending = some r)
    {tag : String} (htag : tag = "BEFORE" ∨ tag = "AFTER") {row : RowData}
    (h : RowIdFits row.rowId) :
    loadHistoryLine s ([str tag, field "row_id" (rowIdToString row.rowId)]
        ++ row.values.map fun v => field "value" (encodeValue v))
      = ({ s with pending := some (if tag = "BEFORE" then { r with beforeRow := some row }
          else { r with afterRow := some row }) }, .accepted) := by
  have hvalues : imageValues ([str tag, field "row_id" (rowIdToString row.rowId)]
      ++ row.values.map fun v => field "value" (encodeValue v)) = row.values.map encodeValue := by
    show List.filterMap _ (field "row_id" (rowIdToString row.rowId) :: row.values.map _) = _
    rw [List.filterMap_cons, parseKeyValueToken_field _ (by decide) (by decide)]
    simp only [show str "row_id" ≠ str "value" by decide, if_false]
    refine filterMap_values _ (fun v => ?_) row.values
    rw [parseKeyValueToken_field v (by decide) (by decide)]
    simp
  have hid : findFieldValue ([str tag, field "row_id" (rowIdToString row.rowId)]
      ++ row.values.map fun v => field "value" (encodeValue v)) (str "row_id")
        = some (rowIdToString row.rowId) := by
    show findField _ (field "row_id" (rowIdToString row.rowId) :: _) = _
    exact findField_field _ _ (by decide) (by decide)
  have hrow := decodeRow_line h hid
  rw [← hvalues] at hrow
  rcases htag with rfl | rfl
  · have h1 : str "BEFORE" ≠ str "EVENT" := by decide
    have h2 : str "BEFORE" ≠ str "SCHEMA_COLUMN" := by decide
    delta loadHistoryLine
    simp only [hs, hrow]
    simp [h1, h2]
  · have h1 : str "AFTER" ≠ str "EVENT" := by decide
    have h2 : str "AFTER" ≠ str "SCHEMA_COLUMN" := by decide
    have h3 : str "AFTER" ≠ str "BEFORE" := by decide
    delta loadHistoryLine
    simp only [hs, hrow]
    simp [h1, h2, h3]

theorem loadHistoryLine_end (s : HistoryLoad) {r : ChangeRecord} (hs : s.pending = some r) :
    loadHistoryLine s [str "EVENT_END"] = (⟨s.records ++ [r], none⟩, .accepted) := by
  have h1 : str "EVENT_END" ≠ str "EVENT" := by decide
  have h2 : str "EVENT_END" ≠ str "SCHEMA_COLUMN" := by decide
  have h3 : str "EVENT_END" ≠ str "BEFORE" := by decide
  have h4 : str "EVENT_END" ≠ str "AFTER" := by decide
  delta loadHistoryLine
  simp [hs, h1, h2, h3, h4]

theorem reads_schemaColumns (recs : List ChangeRecord) {cs : List Catalog.ColumnDefinition}
    (hcs : ∀ c ∈ cs, ColumnSavable c) (r : ChangeRecord) :
    Reads loadHistoryLine (cs.flatMap schemaColumnLine) ⟨recs, some r⟩
      ⟨recs, some (cs.foldl (fun r c => addSchemaColumn r (plainColumn c)) r)⟩ := by
  induction cs generalizing r with
  | nil => exact reads_nil _
  | cons c cs ih =>
      have hc := hcs c (by simp)
      rw [List.flatMap_cons, List.foldl_cons]
      refine Reads.append ?_ (ih (fun c' hc' => hcs c' (by simp [hc'])) _)
      refine reads_line ?_ (by decide) (by decide) (loadHistoryLine_column ⟨recs, some r⟩ rfl c)
      intro q hq
      simp only [List.mem_cons, List.not_mem_nil, or_false] at hq
      rcases hq with rfl | rfl | rfl | rfl | rfl
      · exact part_plain (by decide)
      · exact part_field (by decide) (part_escape hc.name)
      · exact part_field (by decide) (part_valueTypeName _)
      · exact part_field (by decide) (part_constraintName _)
      · exact part_field (by decide) (part_encodeDefault hc.defaultValue)

theorem foldl_addSchemaColumn (r : ChangeRecord) (cs : List Catalog.ColumnDefinition)
    (cols : List Catalog.ColumnDefinition) :
    cs.foldl (fun r c => addSchemaColumn r (plainColumn c))
        { r with schema := some ⟨r.databaseName, r.tableName, cols, []⟩ }
      = { r with schema := some ⟨r.databaseName, r.tableName, cols ++ cs.map plainColumn, []⟩ } := by
  induction cs generalizing cols with
  | nil => simp
  | cons c cs ih =>
      rw [List.foldl_cons]
      have hadd : addSchemaColumn { r with schema := some ⟨r.databaseName, r.tableName, cols, []⟩ }
          (plainColumn c)
          = { r with schema := some ⟨r.databaseName, r.tableName, cols ++ [plainColumn c], []⟩ } :=
        rfl
      rw [hadd, ih]
      simp

theorem foldl_addSchemaColumn_columns (r : ChangeRecord) (cs : List Catalog.ColumnDefinition) :
    cs.foldl (fun r c => addSchemaColumn r (plainColumn c)) { r with schema := none }
      = { r with
          schema := if cs = [] then none else
            some ⟨r.databaseName, r.tableName, cs.map plainColumn, []⟩ } := by
  cases cs with
  | nil => rfl
  | cons c cs =>
      rw [List.foldl_cons]
      have hadd : addSchemaColumn { r with schema := none } (plainColumn c)
          = { r with schema := some ⟨r.databaseName, r.tableName, [plainColumn c], []⟩ } := rfl
      rw [hadd, foldl_addSchemaColumn]
      simp

/-- A `BEFORE` or `AFTER` line, where there is one. -/
theorem reads_image (recs : List ChangeRecord) (r : ChangeRecord) (tag : String)
    (htag : tag = "BEFORE" ∨ tag = "AFTER") {o : Option RowData} (h : ∀ row ∈ o, RowSavable row)
    (hfits : ∀ row ∈ o, RowIdFits row.rowId)
    (hnone : o = none → (if tag = "BEFORE" then { r with beforeRow := o }
      else { r with afterRow := o }) = r) :
    Reads loadHistoryLine (o.elim [] fun row => imageLine tag row) ⟨recs, some r⟩
      ⟨recs, some (if tag = "BEFORE" then { r with beforeRow := o }
        else { r with afterRow := o })⟩ := by
  cases o with
  | none =>
      rw [hnone rfl]
      exact reads_nil _
  | some row =>
      have hrow := h row rfl
      refine reads_line (p := str tag) ?_ ?_ ?_
        (loadHistoryLine_image ⟨recs, some r⟩ rfl htag (hfits row rfl))
      · intro q hq
        have hq' : q ∈ [str tag, field "row_id" (rowIdToString row.rowId)]
            ++ row.values.map fun v => field "value" (encodeValue v) := hq
        rcases List.mem_append.mp hq' with hq | hq
        · simp only [List.mem_cons, List.not_mem_nil, or_false] at hq
          rcases hq with rfl | rfl
          · rcases htag with rfl | rfl <;> exact part_plain (by decide)
          · exact part_field (by decide) (part_rowIdToString _)
        · obtain ⟨v, hv, rfl⟩ := List.mem_map.mp hq
          exact part_field (by decide) (part_encodeValue (hrow v hv))
      · rcases htag with rfl | rfl <;> decide
      · rcases htag with rfl | rfl <;> decide

/-- **The lines of an event make the event.** -/
theorem reads_record (recs : List ChangeRecord) {r : ChangeRecord} (hfits : RecordIdsFit r)
    (h : RecordSavable r) :
    Reads loadHistoryLine (recordText r) ⟨recs, none⟩ ⟨recs ++ [plainRecord r], none⟩ := by
  let r0 : ChangeRecord := { r with schema := none, beforeRow := none, afterRow := none }
  let r1 : ChangeRecord := { plainRecord r with beforeRow := none, afterRow := none }
  let r2 : ChangeRecord := { plainRecord r with afterRow := none }
  have hevent : Reads loadHistoryLine
      (lineOf [str "EVENT", field "kind" (changeKindName r.kind),
        field "db" (escape r.databaseName), field "table" (escape r.tableName),
        field "timestamp" (escape r.timestamp), field "row_id" (rowIdToString r.rowId)])
      ⟨recs, none⟩ ⟨recs, some r0⟩ := by
    refine reads_line ?_ (by decide) (by decide) (loadHistoryLine_event ⟨recs, none⟩ rfl hfits.rowId)
    intro q hq
    simp only [List.mem_cons, List.not_mem_nil, or_false] at hq
    rcases hq with rfl | rfl | rfl | rfl | rfl | rfl
    · exact part_plain (by decide)
    · exact part_field (by decide) (part_changeKindName _)
    · exact part_field (by decide) (part_escape h.databaseName)
    · exact part_field (by decide) (part_escape h.tableName)
    · exact part_field (by decide) (part_escape h.timestamp)
    · exact part_field (by decide) (part_rowIdToString _)
  have hcolumns : Reads loadHistoryLine
      (r.schema.elim [] fun s => s.columns.flatMap schemaColumnLine) ⟨recs, some r0⟩
      ⟨recs, some r1⟩ := by
    have htext : (r.schema.elim [] fun s => s.columns.flatMap schemaColumnLine)
        = (ChangeRecord.columns r).flatMap schemaColumnLine := by
      unfold ChangeRecord.columns
      cases r.schema <;> rfl
    have hcs : ∀ c ∈ ChangeRecord.columns r, ColumnSavable c := by
      unfold ChangeRecord.columns
      cases hs : r.schema with
      | none => simp
      | some s => exact h.schema s hs
    have hreads := reads_schemaColumns recs hcs r0
    have hfold := foldl_addSchemaColumn_columns
      { r with beforeRow := none, afterRow := none } (ChangeRecord.columns r)
    rw [show r0 = { ({ r with beforeRow := none, afterRow := none } : ChangeRecord) with
      schema := none } from rfl, hfold] at hreads
    rw [htext]
    exact hreads
  have hbefore := reads_image recs r1 "BEFORE" (.inl rfl) h.beforeRow
    hfits.beforeRow (fun hnone => by rw [hnone]; rfl)
  have hafter := reads_image recs r2 "AFTER" (.inr rfl) h.afterRow
    hfits.afterRow (fun hnone => by rw [hnone]; rfl)
  have hend : Reads loadHistoryLine (lineOf [str "EVENT_END"]) ⟨recs, some (plainRecord r)⟩
      ⟨recs ++ [plainRecord r], none⟩ := by
    refine reads_line ?_ (by decide) (by decide) (loadHistoryLine_end _ rfl)
    intro q hq
    rw [List.mem_singleton.mp hq]
    exact part_plain (by decide)
  have hblank : Reads loadHistoryLine [newline] ⟨recs ++ [plainRecord r], none⟩
      ⟨recs ++ [plainRecord r], none⟩ := reads_skip (l := []) (by simp) (.inl rfl) _
  exact (((((hevent.append hcolumns).append hbefore).append hafter).append hend).append hblank)

theorem reads_records {rs : List ChangeRecord} (hfits : ∀ r ∈ rs, RecordIdsFit r)
    (h : ∀ r ∈ rs, RecordSavable r) (recs : List ChangeRecord) :
    Reads loadHistoryLine (rs.flatMap recordText) ⟨recs, none⟩ ⟨recs ++ rs.map plainRecord, none⟩ := by
  induction rs generalizing recs with
  | nil => simpa using reads_nil _
  | cons r rs ih =>
      rw [List.flatMap_cons]
      have := (reads_record recs (hfits r (by simp)) (h r (by simp))).append
        (ih (fun x hx => hfits x (by simp [hx])) (fun x hx => h x (by simp [hx])) _)
      simpa using this

theorem reads_historyComments (s : HistoryLoad) : Reads loadHistoryLine historyComments s s := by
  have htext : historyComments = [str "# Version history dump (event-based)\n",
      str "# Records:\n",
      str "# EVENT\\tkind=<kind>\\tdb=<db>\\ttable=<table>\\ttimestamp=<ts>\\trow_id=<id>\n",
      str "# SCHEMA_COLUMN\\tname=<column>\\ttype=<type>\\tconstraint=<constraint>"
        ++ str "\\tdefault=<value>\n",
      str "# BEFORE\\tvalue=<...>\\tvalue=<...>\n", str "# AFTER\\tvalue=<...>\\tvalue=<...>\n",
      str "# EVENT_END\n"].flatten := by
    simp only [historyComments, List.flatten_cons, List.flatten_nil, List.append_nil,
      List.append_assoc]
  rw [htext]
  refine reads_comments ?_ s
  repeat rw [str_ofList]
  decide

/-- **`version_history.tsv` gives the log back**, with the columns of the
schemas. -/
theorem loadHistory_historyText {v : VersionStore} (hfits : ∀ r ∈ v.records, RecordIdsFit r)
    (h : HistorySavable v) :
    loadHistory (historyText v) = some (v.records.map plainRecord) := by
  have hreads := ((reads_historyComments ⟨[], none⟩).append (reads_records hfits h [])).finish
  rw [loadHistory, historyText, List.append_assoc, loadLines_formatLine, hreads]
  rfl

end CustomDbms.Core
