/-
  CustomDbms.Server.SplitInsert
  ─────────────────────────────
  **THE TEXTS OF A SHARDED INSERT HOLD ITS ROWS.**

  `SplitInsertByShard` sorts the rows of an INSERT by node and writes one
  INSERT for each.  Read again, the texts together hold the rows they were
  made of, each on its node, if and only if nothing in the rows is escaped:
  the parser keeps the backslash that `RenderLiteralSql` puts in front of a
  quote or a backslash, so a text comes back longer.  The database must be one
  a statement can name.
-/
import Mathlib.Algebra.Order.BigOperators.Group.List
import Mathlib.Algebra.Order.Group.Nat
import CustomDbms.Server.ShardPlacement

namespace CustomDbms.Server

open CustomDbms.Common CustomDbms.Lib CustomDbms.Parser CustomDbms.Catalog CustomDbms.Network
open CustomDbms.Execution CustomDbms.Core

/-! ## §1. Texts that need no escape. -/

/-- A byte that `RenderLiteralSql` escapes. -/
def needsEscape (c : Byte) : Bool := decide (c = byte '"' ∨ c = byte '\\')

/-- No byte of a text among the values is escaped. -/
def Plain : Value → Prop
  | .string text => ∀ c ∈ text, needsEscape c = false
  | _ => True

instance decidablePlain : (v : Value) → Decidable (Plain v)
  | .null => .isTrue trivial
  | .int _ => .isTrue trivial
  | .string text => inferInstanceAs (Decidable (∀ c ∈ text, needsEscape c = false))

/-- The bytes of a text among the values. -/
def textLength : Expression → Nat
  | .literal (.string text) => text.length
  | _ => 0

theorem length_le_escapeJsonText (text : Str) : text.length ≤ (escapeJsonText text).length := by
  induction text with
  | nil => exact Nat.le_refl _
  | cons c text ih =>
      unfold escapeJsonText
      split
      · simp only [List.length_cons]
        omega
      · simp only [List.length_cons]
        omega

/-- **An escaped text is longer, and any other stays.** -/
theorem escapeJsonText_cases (text : Str) :
    ((∀ c ∈ text, needsEscape c = false) ∧ escapeJsonText text = text) ∨
      ((¬ ∀ c ∈ text, needsEscape c = false) ∧ text.length < (escapeJsonText text).length) := by
  induction text with
  | nil => exact Or.inl ⟨by simp, rfl⟩
  | cons c text ih =>
      have hlength := length_le_escapeJsonText text
      unfold escapeJsonText
      by_cases hc : c = byte '"' ∨ c = byte '\\'
      · rw [if_pos hc]
        refine Or.inr ⟨fun h => ?_, by simp only [List.length_cons]; omega⟩
        have := h c (by simp)
        simp [needsEscape, hc] at this
      · rw [if_neg hc]
        have hplain : needsEscape c = false := by simp [needsEscape, hc]
        rcases ih with ⟨hall, heq⟩ | ⟨hsome, hlt⟩
        · exact Or.inl ⟨List.forall_mem_cons.mpr ⟨hplain, hall⟩, by rw [heq]⟩
        · refine Or.inr ⟨fun h => hsome (List.forall_mem_cons.mp h).2, ?_⟩
          simp only [List.length_cons]
          omega

theorem reread_of_plain {v : Value} (h : Plain v) : reread v = v := by
  cases v with
  | null => rfl
  | int a => rfl
  | string text =>
      rcases escapeJsonText_cases text with ⟨-, heq⟩ | ⟨hsome, -⟩
      · rw [Parser.reread, heq]
      · exact absurd h hsome

theorem textLength_le_reread (v : Value) :
    textLength (.literal v) ≤ textLength (.literal (reread v)) := by
  cases v with
  | null => exact Nat.le_refl _
  | int a => exact Nat.le_refl _
  | string text => exact length_le_escapeJsonText text

theorem textLength_lt_reread {v : Value} (h : ¬ Plain v) :
    textLength (.literal v) < textLength (.literal (reread v)) := by
  cases v with
  | null => exact absurd trivial h
  | int a => exact absurd trivial h
  | string text =>
      rcases escapeJsonText_cases text with ⟨hall, -⟩ | ⟨-, hlt⟩
      · exact absurd hall h
      · exact hlt

/-- **Rows that are read back in some order are plain.** -/
theorem plain_of_perm {rows : List (List Value)}
    (h : (rows.map rereadRow).Perm (rows.map fun row => row.map Expression.literal)) :
    ∀ row ∈ rows, ∀ v ∈ row, Plain v := by
  -- an escape would add to the bytes of all rows together
  by_contra hsome
  push Not at hsome
  obtain ⟨row, hrow, v, hv, hplain⟩ := hsome
  have hmem : v ∈ rows.flatten := List.mem_flatten.mpr ⟨row, hrow, hv⟩
  have hlt : (rows.flatten.map fun v => textLength (.literal v)).sum
      < (rows.flatten.map fun v => textLength (.literal (reread v))).sum :=
    List.sum_lt_sum _ _ (fun w _ => textLength_le_reread w) ⟨v, hmem, textLength_lt_reread hplain⟩
  have hsum := (h.flatten.map textLength).sum_nat
  have hread : (rows.map rereadRow).flatten = rows.flatten.map fun v => .literal (reread v) := by
    rw [List.map_flatten]
    rfl
  have hwritten : (rows.map fun row => row.map Expression.literal).flatten
      = rows.flatten.map Expression.literal := by
    rw [List.map_flatten]
  rw [hread, hwritten, List.map_map, List.map_map] at hsum
  exact absurd hsum (ne_of_gt hlt)

/-! ## §2. The parts read again. -/

/-- What a node reads of its text: the columns and the table of the INSERT, and
rows that belong on the node. -/
structure ReadsPart (hashes : Hashes) (nodeCount shardColumnIndex : Nat) (databaseName : Str)
    (insert : InsertStatement) (routed : Nat × Str) (part : InsertStatement) : Prop where
  parsed : parse routed.2 = .ok (.insert part)
  columns : part.columnNames = insert.columnNames
  table : part.tableName = ⟨some databaseName, insert.tableName.objectName⟩
  routes : ∀ row ∈ part.rows, ∃ v, row[shardColumnIndex]? = some (.literal v) ∧
    routeValueToNode hashes v nodeCount = .ok routed.1

/-- **The texts together hold the rows of the INSERT**, each on the node of its
shard key. -/
def PreservesRows (hashes : Hashes) (schemas : SchemaView) (session : SessionContext)
    (nodeCount : Nat) (insert : InsertStatement) (routed : List (Nat × Str)) : Prop :=
  ∃ schema shardKey shardColumnIndex databaseName,
    resolveClusterTableSchema schemas insert.tableName session = some schema ∧
    resolveShardKeyColumn schema = some shardKey ∧
    insert.columnNames.idxOf? shardKey = some shardColumnIndex ∧
    resolveClusterDatabaseName insert.tableName session = some databaseName ∧
    ∃ parts : List InsertStatement,
      List.Forall₂ (ReadsPart hashes nodeCount shardColumnIndex databaseName insert) routed parts ∧
      (parts.flatMap (·.rows)).Perm insert.rows

section Split

variable {hashes : Hashes} {schemas : SchemaView} {session : SessionContext} {n : Nat}
  {insert : InsertStatement} {parts : InsertParts} {sql : Str}

/-- The rows of the INSERT are the literals of the parts' rows. -/
theorem InsertParts.Of.rows_eq (h : parts.Of hashes schemas session n insert) :
    insert.rows = parts.rows.map fun row => row.map Expression.literal := by
  have hliterals := h.literals
  generalize parts.rows = rows at hliterals
  generalize insert.rows = inputs at hliterals
  induction hliterals with
  | nil => rfl
  | cons hhead _ ih => rw [List.map_cons, ← hhead.eq_map, ← ih]

/-- The statements the nodes read, in the order of the texts. -/
def partStatements (parts : InsertParts) (insert : InsertStatement) : List InsertStatement :=
  parts.groups.entries.map fun p => partStatement parts insert p.2

theorem rows_partStatements : (partStatements parts insert).flatMap (·.rows)
    = (parts.groups.entries.flatMap (·.2)).map rereadRow := by
  unfold partStatements
  rw [List.flatMap_map, List.map_flatMap]
  rfl

/-- **The rows the nodes read**, as the parser reads them. -/
theorem rows_partStatements_perm (h : parts.Of hashes schemas session n insert)
    (hroutes : ∀ row ∈ parts.rows,
      ∃ node, rowRoute hashes n parts.shardColumnIndex row = some node) :
    ((partStatements parts insert).flatMap (·.rows)).Perm (parts.rows.map rereadRow) := by
  rw [rows_partStatements]
  exact (h.grouped.flatten_perm hroutes).map rereadRow

/-- The texts have one reading. -/
theorem parts_eq_of_reads {k : Nat} {d : Str} {routed : List (Nat × Str)}
    {statements statements' : List InsertStatement}
    (h : List.Forall₂ (ReadsPart hashes n k d insert) routed statements)
    (h' : List.Forall₂ (fun p part => parse p.2 = .ok (.insert part)) routed statements') :
    statements = statements' := by
  induction h generalizing statements' with
  | nil =>
      cases h'
      rfl
  | cons hhead _ ih =>
      cases h' with
      | cons hhead' hrest' =>
          have heq := hhead.parsed.symm.trans hhead'
          cases heq
          rw [ih hrest']

/-- The nodes read the statements of the parts. -/
theorem parse_partStatements (hparse : parse sql = .ok (.insert insert))
    (h : parts.Of hashes schemas session n insert) (hname : isIdentifier parts.databaseName = true)
    {routed : List (Nat × Str)}
    (hrouted : routed = parts.groups.entries.map fun p => (p.1, renderInsertSql
      ⟨some parts.databaseName, insert.tableName.objectName⟩ insert.columnNames p.2)) :
    List.Forall₂ (fun p part => parse p.2 = .ok (.insert part)) routed
      (partStatements parts insert) := by
  rw [hrouted, partStatements, List.forall₂_map_left_iff, List.forall₂_map_right_iff,
    List.forall₂_same]
  intro p hp
  exact parse_part hparse h hname (Dict.mem_entries_iff.mp hp)

/-- A database that a reading of the texts names is an identifier. -/
theorem isIdentifier_of_preserves (hparse : parse sql = .ok (.insert insert)) {k : Nat} {d : Str}
    {routed : List (Nat × Str)} {statements : List InsertStatement}
    (hreads : List.Forall₂ (ReadsPart hashes n k d insert) routed statements)
    (hrows : (statements.flatMap (·.rows)).Perm insert.rows) : isIdentifier d = true := by
  obtain ⟨-, hvalid⟩ := parse_insert hparse
  obtain ⟨-, hne, -, -⟩ := validateInsert_eq_ok.mp hvalid
  cases hreads with
  | nil => exact absurd (List.nil_perm.mp hrows) hne
  | cons hhead _ =>
      obtain ⟨hok, -⟩ := parse_insert hhead.parsed
      exact hok.name.2 d (by rw [hhead.table]; exact Option.mem_some_self d)

/-- **A plain part is read as it was.** -/
theorem rereadRow_of_plain {row : List Value} (h : ∀ v ∈ row, Plain v) :
    rereadRow row = row.map Expression.literal :=
  List.map_congr_left fun v hv => by rw [reread_of_plain (h v hv)]

theorem readsPart_of_plain (hparse : parse sql = .ok (.insert insert))
    (h : parts.Of hashes schemas session n insert) (hname : isIdentifier parts.databaseName = true)
    (hplain : ∀ row ∈ parts.rows, ∀ v ∈ row, Plain v) {i : Nat} {group : List (List Value)}
    (hgroup : parts.groups.find? i = some group) :
    ReadsPart hashes n parts.shardColumnIndex parts.databaseName insert
      (i, renderInsertSql ⟨some parts.databaseName, insert.tableName.objectName⟩
        insert.columnNames group) (partStatement parts insert group) where
  parsed := parse_part hparse h hname hgroup
  columns := rfl
  table := rfl
  routes := by
    intro input hinput
    obtain ⟨row, hrow, rfl⟩ := List.mem_map.mp hinput
    have hmem := (h.grouped.route_of_mem hgroup hrow).1
    obtain ⟨-, v, hv, hroute⟩ := h.row_of_group hgroup hrow
    refine ⟨v, ?_, hroute⟩
    rw [rereadRow_of_plain (hplain row hmem), List.getElem?_map, hv]
    rfl

/-- **Rows that are preserved need no escape.** -/
theorem plain_of_preserves (hparse : parse sql = .ok (.insert insert)) {routed : List (Nat × Str)}
    (hsplit : splitInsertByShard hashes schemas session n insert = .ok (some routed))
    (h : PreservesRows hashes schemas session n insert routed) :
    (∀ d, resolveClusterDatabaseName insert.tableName session = some d →
      isIdentifier d = true) ∧
      ∀ row ∈ insert.rows, ∀ v, Expression.literal v ∈ row → Plain v := by
  obtain ⟨parts, hparts, hroutes, hrouted⟩ := splitInsertByShard_spec hsplit
  obtain ⟨schema, key, index, d, -, -, -, hd, statements, hreads, hperm⟩ := h
  have hname := isIdentifier_of_preserves hparse hreads hperm
  obtain rfl : parts.databaseName = d := Option.some.inj (hparts.database.symm.trans hd)
  refine ⟨fun d' hd' => ?_, ?_⟩
  · rw [hd] at hd'
    cases hd'
    exact hname
  · have hsame := parts_eq_of_reads hreads (parse_partStatements hparse hparts hname hrouted)
    have hrows := hparts.rows_eq
    have hreread : (parts.rows.map rereadRow).Perm
        (parts.rows.map fun row => row.map Expression.literal) := by
      rw [← hrows]
      refine (rows_partStatements_perm hparts hroutes).symm.trans ?_
      rw [← hsame]
      exact hperm
    intro row hrow v hv
    rw [hrows] at hrow
    obtain ⟨values, hvalues, rfl⟩ := List.mem_map.mp hrow
    obtain ⟨w, hw, heq⟩ := List.mem_map.mp hv
    cases heq
    exact plain_of_perm hreread values hvalues v hw

/-- **Plain rows are preserved.** -/
theorem preserves_of_plain (hparse : parse sql = .ok (.insert insert)) {routed : List (Nat × Str)}
    (hsplit : splitInsertByShard hashes schemas session n insert = .ok (some routed))
    (hnames : ∀ d, resolveClusterDatabaseName insert.tableName session = some d →
      isIdentifier d = true)
    (hliterals : ∀ row ∈ insert.rows, ∀ v, Expression.literal v ∈ row → Plain v) :
    PreservesRows hashes schemas session n insert routed := by
  obtain ⟨parts, hparts, hroutes, hrouted⟩ := splitInsertByShard_spec hsplit
  have hrows := hparts.rows_eq
  have hname := hnames _ hparts.database
  have hplain : ∀ row ∈ parts.rows, ∀ v ∈ row, Plain v := by
    intro row hrow v hv
    refine hliterals (row.map Expression.literal) ?_ v (List.mem_map_of_mem hv)
    rw [hrows]
    exact List.mem_map_of_mem hrow
  refine ⟨parts.schema, parts.shardKey, parts.shardColumnIndex, parts.databaseName, hparts.table,
    hparts.key, hparts.position, hparts.database, partStatements parts insert, ?_, ?_⟩
  · rw [hrouted, partStatements, List.forall₂_map_left_iff, List.forall₂_map_right_iff,
      List.forall₂_same]
    intro p hp
    exact readsPart_of_plain hparse hparts hname hplain (Dict.mem_entries_iff.mp hp)
  · have hreread : parts.rows.map rereadRow = insert.rows := by
      rw [hrows]
      exact List.map_congr_left fun row hrow => rereadRow_of_plain (hplain row hrow)
    rw [← hreread]
    exact rows_partStatements_perm hparts hroutes

/-- **A sharded INSERT preserves its rows exactly where nothing in them is
escaped**, and its database can be named. -/
theorem splitInsertByShard_preserves_iff (hparse : parse sql = .ok (.insert insert))
    {routed : List (Nat × Str)}
    (hsplit : splitInsertByShard hashes schemas session n insert = .ok (some routed)) :
    PreservesRows hashes schemas session n insert routed ↔
      (∀ d, resolveClusterDatabaseName insert.tableName session = some d →
        isIdentifier d = true) ∧
      ∀ row ∈ insert.rows, ∀ v, Expression.literal v ∈ row → Plain v := by
  constructor
  · exact plain_of_preserves hparse hsplit
  · rintro ⟨hnames, hliterals⟩
    exact preserves_of_plain hparse hsplit hnames hliterals

end Split

/-! ## §3. A quote in a text. -/

/-- The schemas of one table. -/
def sampleSchemas : SchemaView := [(str "d", [(str "t", sampleSchema)])]

/-- `INSERT INTO t (k, v) VALUES (3, "z"), (4, "w");` -/
def plainInsertSql : Str := str "INSERT INTO t (k, v) VALUES (3, \"z\"), (4, \"w\");"

/-- The statement of the text. -/
def plainInsert : InsertStatement :=
  ⟨⟨none, str "t"⟩, [str "k", str "v"],
    [[.literal (.int 3), .literal (.string (str "z"))],
      [.literal (.int 4), .literal (.string (str "w"))]]⟩

/-- The session of a client in the database. -/
def sessionInD : SessionContext := ⟨[], str "d"⟩

/-- The texts for the two nodes. -/
def plainTexts : List (Nat × Str) :=
  [(1, str "INSERT INTO d.t (k, v) VALUES (3, \"z\");"),
    (0, str "INSERT INTO d.t (k, v) VALUES (4, \"w\");")]

theorem plainInsert_runs :
    parse plainInsertSql = .ok (.insert plainInsert) ∧
      splitInsertByShard healthyConditions.hashes sampleSchemas sessionInD 2 plainInsert
        = .ok (some plainTexts) := by
  decide +kernel

/-- **Two rows on two nodes.** -/
theorem plainTexts_preserve :
    PreservesRows healthyConditions.hashes sampleSchemas sessionInD 2 plainInsert plainTexts := by
  refine (splitInsertByShard_preserves_iff plainInsert_runs.1 plainInsert_runs.2).mpr ⟨?_, ?_⟩
  · intro d hd
    cases hd
    decide
  · have hplain : ∀ row ∈ plainInsert.rows, ∀ e ∈ row, ∀ v, e = .literal v → Plain v := by
      intro row hrow e he v heq
      subst heq
      simp only [plainInsert, List.mem_cons, List.not_mem_nil, or_false] at hrow
      rcases hrow with rfl | rfl
      · simp only [List.mem_cons, Expression.literal.injEq, List.not_mem_nil, or_false] at he
        rcases he with rfl | rfl <;> decide +kernel
      · simp only [List.mem_cons, Expression.literal.injEq, List.not_mem_nil, or_false] at he
        rcases he with rfl | rfl <;> decide +kernel
    exact fun row hrow v hv => hplain row hrow _ hv v rfl

/-- `INSERT INTO t (k, v) VALUES (3, "a\"b");` -/
def quotedInsertSql : Str := str "INSERT INTO t (k, v) VALUES (3, \"a\\\"b\");"

/-- The statement of the text: the literal keeps its backslash. -/
def quotedInsert : InsertStatement :=
  ⟨⟨none, str "t"⟩, [str "k", str "v"], [[.literal (.int 3), .literal (.string (str "a\\\"b"))]]⟩

/-- The text for the node of the row. -/
def quotedTexts : List (Nat × Str) :=
  [(1, str "INSERT INTO d.t (k, v) VALUES (3, \"a\\\\\\\"b\");")]

/-- **A quote comes back with two more backslashes.** -/
theorem quotedTexts_change :
    parse quotedInsertSql = .ok (.insert quotedInsert) ∧
    splitInsertByShard healthyConditions.hashes sampleSchemas sessionInD 2 quotedInsert
      = .ok (some quotedTexts) ∧
    ¬ PreservesRows healthyConditions.hashes sampleSchemas sessionInD 2 quotedInsert
      quotedTexts := by
  have hparse : parse quotedInsertSql = .ok (.insert quotedInsert) := by decide +kernel
  have hsplit : splitInsertByShard healthyConditions.hashes sampleSchemas sessionInD 2 quotedInsert
      = .ok (some quotedTexts) := by decide +kernel
  refine ⟨hparse, hsplit, fun h => ?_⟩
  have hplain := (plain_of_preserves hparse hsplit h).2 _ (List.mem_singleton.mpr rfl)
    (.string (str "a\\\"b")) (by simp)
  revert hplain
  decide +kernel

end CustomDbms.Server
