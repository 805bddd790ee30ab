/-
  CustomDbms.Server.TableDumps
  ────────────────────────────
  **ROWS AS A DUMP** (`CLUSTER DUMP_TABLE` and `FetchTableDump`).

  A storage node answers with one line for each row, and the coordinator reads
  the lines again.  Tabs and backslashes are escaped; a newline is too, but its
  backslash does not keep it from ending the line.

    • `parseDump_iff` — the rows come back exactly if no string in them holds a
      newline;
    • `dumpTable_rows` — what a node answers;
    • `fetchTableDump_rows` — what the coordinator reads of it.
-/
import CustomDbms.Execution.IndexPath
import CustomDbms.Parser.StatementGrammar
import CustomDbms.Server.MetadataSync

namespace CustomDbms.Server

open CustomDbms.Common CustomDbms.Lib CustomDbms.Parser CustomDbms.Catalog CustomDbms.Network
open CustomDbms.Execution CustomDbms.Core CustomDbms.Runtime

/-! ## §1. Lines. -/

/-- The field of a value. -/
def dumpField : Value → Str
  | .null => str "Null"
  | .int i => str "Int:" ++ intToString i.toInt
  | .string s => str "String:" ++ escape s

/-- The line of a row. -/
def dumpLine (values : List Value) : Str := [tab].intercalate (str "ROW" :: values.map dumpField)

/-- The text of a dump. -/
def dumpText (rows : List (List Value)) : Str := str "ROWS" ++ rows.flatMap dumpRow

theorem intercalate_eq_flatMap (p : Str) (ps : List Str) :
    [tab].intercalate (p :: ps) = p ++ ps.flatMap (tab :: ·) := by
  induction ps generalizing p with
  | nil => simp
  | cons q ps ih =>
      rw [List.intercalate_cons_cons, ih, List.flatMap_cons, List.append_assoc]
      rfl

theorem dumpRow_eq (values : List Value) : dumpRow values = newline :: dumpLine values := by
  rw [dumpLine, intercalate_eq_flatMap, List.flatMap_map]
  show _ = str "\nROW" ++ _
  refine congrArg (str "\nROW" ++ ·) (List.flatMap_congr fun v _ => ?_)
  cases v <;> rfl

theorem dumpLine_ne_nil (values : List Value) : dumpLine values ≠ [] := by
  rw [dumpLine, intercalate_eq_flatMap]
  exact List.cons_ne_nil _ _

/-- No newline in a string. -/
def OneLine (v : Value) : Prop := ∀ s, v = .string s → newline ∉ s

theorem part_dumpField {v : Value} (h : OneLine v) : Part (dumpField v) := by
  cases v with
  | null => exact part_plain (by decide)
  | int i => exact (part_plain (p := str "Int:") (by decide)).append (part_intToString _)
  | string s => exact (part_plain (p := str "String:") (by decide)).append (part_escape (h s rfl))

theorem ne_of_head? {a b : Str} (h : a.head? ≠ b.head?) : a ≠ b := fun heq => h (by rw [heq])

theorem decodeClusterValue_dumpField (v : Value) : decodeClusterValue (dumpField v) = some v := by
  cases v with
  | null => rfl
  | int i =>
      have hne : str "Int:" ++ intToString i.toInt ≠ str "Null" :=
        ne_of_head? (show some (byte 'I') ≠ some (byte 'N') by decide)
      unfold decodeClusterValue dumpField
      rw [if_neg hne, stripStart_append]
      dsimp only
      rw [stoll_intToString]
      exact if_pos rfl
  | string s =>
      have hne : str "String:" ++ escape s ≠ str "Null" :=
        ne_of_head? (show some (byte 'S') ≠ some (byte 'N') by decide)
      unfold decodeClusterValue dumpField
      rw [if_neg hne, show stripStart (str "Int:") (str "String:" ++ escape s) = none from rfl]
      dsimp only
      rw [stripStart_append]
      dsimp only
      rw [unescape_escape]

/-- **A line is read back.** -/
theorem parseDumpLine_dumpLine {values : List Value} (h : ∀ v ∈ values, OneLine v) :
    newline ∉ dumpLine values ∧ parseDumpLine (dumpLine values) = some values := by
  have hparts : ∀ p ∈ str "ROW" :: values.map dumpField, Part p := by
    refine List.forall_mem_cons.mpr ⟨part_plain (by decide), fun p hp => ?_⟩
    obtain ⟨v, hv, rfl⟩ := List.mem_map.mp hp
    exact part_dumpField (h v hv)
  obtain ⟨hline, hsplit⟩ := line_of_parts hparts
  refine ⟨hline, ?_⟩
  unfold parseDumpLine dumpLine
  rw [hsplit]
  dsimp only
  rw [if_pos rfl]
  clear h hparts hline hsplit
  induction values with
  | nil => rfl
  | cons v values ih =>
      rw [List.map_cons, List.mapM_cons, decodeClusterValue_dumpField, ih]
      rfl

/-! ## §2. Dumps. -/

/-- A text without a newline is one line. -/
theorem lines_single {l : Str} (hne : l ≠ []) (h : newline ∉ l) : lines l = [l] := by
  induction l with
  | nil => exact absurd rfl hne
  | cons c l ih =>
      have hc : c ≠ newline := fun hc => h (by simp [hc])
      rw [lines, if_neg hc]
      rcases eq_or_ne l [] with rfl | hl
      · rfl
      · rw [ih hl fun hm => h (by simp [hm])]

theorem lines_dumpText {rows : List (List Value)} (h : ∀ row ∈ rows, ∀ v ∈ row, OneLine v) :
    lines (dumpText rows) = str "ROWS" :: rows.map dumpLine := by
  have key : ∀ l : Str, l ≠ [] → newline ∉ l →
      lines (l ++ rows.flatMap dumpRow) = l :: rows.map dumpLine := by
    induction rows with
    | nil =>
        intro l hne hl
        rw [List.flatMap_nil, List.append_nil, lines_single hne hl]
        rfl
    | cons row rows ih =>
        intro l _ hl
        obtain ⟨hrow, hrows⟩ := List.forall_mem_cons.mp h
        rw [List.flatMap_cons, dumpRow_eq, List.cons_append, lines_append hl,
          ih hrows _ (dumpLine_ne_nil row) (parseDumpLine_dumpLine hrow).1]
        rfl
  exact key _ (by decide) (by decide)

/-- What a list of results is made of. -/
theorem mem_of_mapM {α β : Type} {f : α → Option β} {l : List α} {r : List β}
    (h : l.mapM f = some r) : ∀ b ∈ r, ∃ a ∈ l, f a = some b := by
  induction l generalizing r with
  | nil =>
      cases h
      simp
  | cons a l ih =>
      rw [List.mapM_cons] at h
      obtain ⟨b, hb, hrest⟩ := Option.bind_eq_some_iff.mp h
      obtain ⟨bs, hbs, hr⟩ := Option.bind_eq_some_iff.mp hrest
      cases hr
      refine List.forall_mem_cons.mpr ⟨⟨a, by simp, hb⟩, fun b' hb' => ?_⟩
      obtain ⟨a', ha', h'⟩ := ih hbs b' hb'
      exact ⟨a', by simp [ha'], h'⟩

theorem decodeClusterValue_string {encoded s : Str}
    (h : decodeClusterValue encoded = some (.string s)) :
    ∃ text, encoded = str "String:" ++ text ∧ unescape text = s := by
  unfold decodeClusterValue at h
  split at h
  · cases h
  · split at h
    · split at h
      · split at h <;> cases h
      · cases h
    · split at h
      · rename_i text htext
        cases h
        exact ⟨text, stripStart_eq_some.mp htext, rfl⟩
      · cases h

/-- A value that is read from one line holds no newline. -/
theorem oneLine_of_parseDumpLine {line : Str} (hline : newline ∉ line) {row : List Value}
    (h : parseDumpLine line = some row) : ∀ v ∈ row, OneLine v := by
  unfold parseDumpLine at h
  split at h
  · rename_i tag fields hsplit
    split at h
    · rintro v hv s rfl
      obtain ⟨field, hfield, hdecode⟩ := mem_of_mapM h _ hv
      obtain ⟨text, rfl, rfl⟩ := decodeClusterValue_string hdecode
      have hplain : newline ∉ str "String:" ++ text :=
        newline_not_mem_of_mem_splitByTab hline (by rw [hsplit]; simp [hfield])
      exact fun hm => hplain (List.mem_append_right _ (mem_of_mem_unescapeFrom hm))
    · cases h
  · cases h

/-- **The rows of a dump come back exactly if no string in them holds a
newline.** -/
theorem parseDump_iff (rows : List (List Value)) :
    parseDump (dumpText rows) = some rows ↔ ∀ row ∈ rows, ∀ v ∈ row, OneLine v := by
  constructor
  · intro h row hrow
    unfold parseDump at h
    split at h
    · rename_i hnil
      cases h
      cases hrow
    · rename_i first rest hlines
      split at h
      · obtain ⟨line, hline, hparse⟩ := mem_of_mapM h row hrow
        refine oneLine_of_parseDumpLine
          (newline_not_mem_of_mem_lines (s := dumpText rows) ?_) hparse
        rw [hlines]
        exact List.mem_cons_of_mem _ (List.mem_of_mem_filter hline)
      · cases h
  · intro h
    have hfilter : (rows.map dumpLine).filter (· ≠ []) = rows.map dumpLine := by
      rw [List.filter_eq_self]
      intro line hline
      obtain ⟨row, -, rfl⟩ := List.mem_map.mp hline
      simpa using dumpLine_ne_nil row
    unfold parseDump
    rw [lines_dumpText h]
    dsimp only
    rw [if_pos rfl, hfilter]
    clear hfilter
    induction rows with
    | nil => rfl
    | cons row rows ih =>
        obtain ⟨hrow, hrows⟩ := List.forall_mem_cons.mp h
        rw [List.map_cons, List.mapM_cons, (parseDumpLine_dumpLine hrow).2, ih hrows]
        rfl

/-! ## §3. A node dumps a table. -/

/-- The session of DUMP_TABLE. -/
def dumpSession : SessionContext := ⟨str "__cluster_dump__", []⟩

/-- `SELECT * FROM` a table. -/
def dumpQuery (t : Str) : SelectStatement :=
  { items := [wildcard], tableName := ⟨none, t⟩, whereClause := none }

theorem parse_dumpQuery {t : Str} (h : isIdentifier t = true) :
    parse (str "SELECT * FROM " ++ t ++ str ";") = .ok (.select (dumpQuery t)) := by
  have htext : str "SELECT * FROM " ++ t ++ str ";"
      = str "SELECT" ++ byte ' ' :: byte '*' :: byte ' ' ::
        (str "FROM" ++ byte ' ' :: (t ++ str ";")) := by
    rw [List.append_assoc]
    rfl
  have htokens : tokenize (str "SELECT * FROM " ++ t ++ str ";")
      = printStatement (.select (dumpQuery t)) := by
    rw [htext, tokenize_word (lexesTo_identifier (by decide)), tokenize_mark (by decide),
      tokenize_space (by decide), tokenize_word (lexesTo_identifier (by decide)), tokenize_name h]
    rfl
  have hgrammar : Acceptable (.select (dumpQuery t)) := by
    refine ⟨⟨⟨h, fun d hd => by cases hd⟩, .inl rfl, fun clause hclause => by cases hclause⟩, ?_⟩
    rfl
  rw [parse, htokens]
  exact parseTokens_printStatement hgrammar

/-- All rows are selected. -/
theorem runStatement_dumpQuery (env : Env) {s : Store} {session : SessionContext} {d t : Str}
    (hd : d ≠ []) (hsession : session.currentDatabase = d) {table : TableRuntime}
    (htable : storeTable s d t = some table) :
    ∃ result, runStatement env s session (.select (dumpQuery t)) = (s, session, .ok result) ∧
      result.rows.map (·.values) = tableValues s d t := by
  obtain ⟨db, hdb, ht⟩ := storeTable_eq_some.mp htable
  have hresolve : resolveDatabaseName session none = .ok d := by
    unfold resolveDatabaseName
    rw [hsession, if_neg hd]
  have hon : OnTable s session (dumpQuery t).tableName d db table := ⟨hresolve, hdb, ht⟩
  have hstar : ∀ rows : List RowData,
      Result.mapList (projectRow table.schema [wildcard]) rows = .ok rows := by
    intro rows
    induction rows with
    | nil => rfl
    | cons row rows ih =>
        rw [Result.mapList_cons, ih]
        rfl
  have hfound : filterRows env.regexMatch table.heap.scanAll none table.schema table.indexes
      = .ok (table.heap.rows, false) := by
    show (filterScan env.regexMatch table.schema none table.heap.rows >>= fun rows =>
      (.ok (rows, false) : Result (List RowData × Bool))) = _
    rw [filterScan_eq (p := fun _ => true) fun _ _ => rfl, List.filter_true]
    rfl
  have hselect : executeSelect env (dumpQuery t) table = .ok ⟨table.heap.rows,
      headings table.schema [wildcard] table.heap.rows,
      selectedMessage table.heap.rows.length⟩ := by
    unfold executeSelect
    rw [show (dumpQuery t).whereClause = none from rfl, hfound]
    show selectRows table.schema [wildcard] table.heap.rows = _
    unfold selectRows
    rw [if_neg (by decide), hstar]
    rfl
  refine ⟨⟨table.heap.rows, headings table.schema [wildcard] table.heap.rows,
    selectedMessage table.heap.rows.length⟩, ?_, (tableValues_of_some htable).symm⟩
  rw [runStatement_select, withTable_onTable hon]
  dsimp only
  rw [hselect]
  exact Prod.ext
    (congrArg (fun runtime => (⟨runtime, s.versions⟩ : Store)) (setTable_self hdb ht)) rfl

/-- USE of a database that is there, outside transactions. -/
theorem executeSql_use (env : Env) (io : Io) {e : DbmsEngine} {session : SessionContext} {d : Str}
    (hidle : e.transactionOf session = none) (hd : isIdentifier d = true)
    (hpresent : e.store.runtime.databases.contains d = true) :
    executeSql env io e session (str "USE " ++ d ++ str ";")
      = (e, { session with currentDatabase := d }, .ok (.ofMessage (str "database selected"))) := by
  have hrun : runStatement env e.store session (.useDatabase d)
      = (e.store, { session with currentDatabase := d },
        .ok (.ofMessage (str "database selected"))) := by
    show (e.store, executeUse e.store session d) = _
    unfold executeUse
    rw [if_pos hpresent]
  refine (executeSqlImpl_statement (parse_use hd) (by simp) (by simp) (by simp)).trans ?_
  rw [show e.transactions.find? (transactionKey session) = none from hidle]
  dsimp only
  unfold executeAutocommit
  rw [hrun]
  rfl

/-- **A node answers with its rows**, and stays as it is. -/
theorem dumpTable_rows (ctx : RequestContext) {s : EntrypointServer} {d t : Str}
    (hidle : s.engine.transactionOf dumpSession = none) (hd : isIdentifier d = true)
    (ht : isIdentifier t = true) (htable : tableSchema s.engine.store d t ≠ none) :
    dumpTable ctx s d t = (s, some ⟨200, dumpText (tableValues s.engine.store d t)⟩) := by
  obtain ⟨schema, hschema⟩ := Option.ne_none_iff_exists'.mp htable
  obtain ⟨table, htable, -⟩ := tableSchema_eq_some.mp hschema
  have hcontains : s.engine.store.runtime.databases.contains d = true := by
    obtain ⟨db, hdb, -⟩ := storeTable_eq_some.mp htable
    unfold Dict.contains
    rw [hdb]
    rfl
  have hne : d ≠ [] := by
    rintro rfl
    cases hd
  have huse := executeSql_use ctx.env ctx.files hidle hd hcontains
  have hin : ({ dumpSession with currentDatabase := d } : SessionContext).currentDatabase = d := rfl
  obtain ⟨result, hrun, hvalues⟩ := runStatement_dumpQuery ctx.env hne hin htable
  have hselect : executeSql ctx.env ctx.files s.engine { dumpSession with currentDatabase := d }
      (str "SELECT * FROM " ++ t ++ str ";")
        = (s.engine, { dumpSession with currentDatabase := d }, .ok result) := by
    refine (executeSqlImpl_statement (parse_dumpQuery ht) (by simp) (by simp) (by simp)).trans ?_
    rw [show s.engine.transactions.find? (transactionKey { dumpSession with currentDatabase := d })
      = none from hidle]
    dsimp only
    unfold executeAutocommit
    rw [hrun]
    rfl
  unfold dumpTable
  rw [show (⟨str "__cluster_dump__", []⟩ : SessionContext) = dumpSession from rfl, huse]
  dsimp only
  rw [hselect]
  rw [← hvalues, dumpText, List.flatMap_map]
  rfl

/-! ## §4. The coordinator asks for it. -/

/-- A word goes to the part that is being read. -/
theorem splitWhitespaceFrom_append {w : Str} (hw : ∀ c ∈ w, isSpace c = false)
    (current rest : Str) :
    splitWhitespaceFrom current (w ++ rest) = splitWhitespaceFrom (current ++ w) rest := by
  induction w generalizing current with
  | nil => rw [List.append_nil, List.nil_append]
  | cons c w ih =>
      obtain ⟨hc, hw⟩ := List.forall_mem_cons.mp hw
      rw [List.cons_append, splitWhitespaceFrom, if_neg (by simp [hc]), ih hw, List.append_assoc]
      rfl

theorem isSpace_of_isIdentifier {name : Str} (h : isIdentifier name = true) :
    ∀ c ∈ name, isSpace c = false := by
  have hword : ∀ c : Byte, isWordByte c = true → isSpace c = false := by decide +kernel
  cases name with
  | nil => cases h
  | cons c name =>
      exact fun d hd => hword d (List.all_eq_true.mp (Bool.and_eq_true_iff.mp h).2 d hd)

/-- The words of the command. -/
theorem commandOf_dump {d t : Str} (hd : isIdentifier d = true) (ht : isIdentifier t = true) :
    commandOf (str "CLUSTER") (str "CLUSTER DUMP_TABLE " ++ d ++ str " " ++ t)
      = some (str "DUMP_TABLE", [d, t]) := by
  have hdne : d ≠ [] := by
    rintro rfl
    cases hd
  have htne : t ≠ [] := by
    rintro rfl
    cases ht
  have hwords : splitWhitespace (str "CLUSTER DUMP_TABLE " ++ d ++ str " " ++ t)
      = [str "CLUSTER", str "DUMP_TABLE", d, t] := by
    show str "CLUSTER" :: str "DUMP_TABLE" :: splitWhitespaceFrom [] (d ++ str " " ++ t) = _
    rw [List.append_assoc, splitWhitespaceFrom_append (isSpace_of_isIdentifier hd)]
    show str "CLUSTER" :: str "DUMP_TABLE" :: splitWhitespaceFrom d (byte ' ' :: t) = _
    rw [splitWhitespaceFrom, if_pos (by decide), if_neg hdne]
    have hlast := splitWhitespaceFrom_append (isSpace_of_isIdentifier ht) [] []
    rw [List.append_nil, List.nil_append, splitWhitespaceFrom, if_neg htne] at hlast
    rw [hlast]
  unfold commandOf
  rw [hwords]
  rfl

theorem handleRequest_dump {ν : Type} {w : World ν} {ctx : RequestContext} {s : System ν}
    {d t : Str} (hd : isIdentifier d = true) (ht : isIdentifier t = true) :
    handleRequest w ctx s (rebalanceRequest (str "CLUSTER DUMP_TABLE " ++ d ++ str " " ++ t))
      = ({ s with server := (dumpTable ctx s.server d t).1 }, (dumpTable ctx s.server d t).2) := by
  have hprepare : stripStart (str "CLUSTER PREPARE_TX ")
      (str "CLUSTER DUMP_TABLE " ++ d ++ str " " ++ t) = none := rfl
  have hcommit : stripStart (str "CLUSTER COMMIT_TX ")
      (str "CLUSTER DUMP_TABLE " ++ d ++ str " " ++ t) = none := rfl
  have habort : stripStart (str "CLUSTER ABORT_TX ")
      (str "CLUSTER DUMP_TABLE " ++ d ++ str " " ++ t) = none := rfl
  unfold handleRequest parseClusterCommand rebalanceRequest
  dsimp only
  rw [hprepare, hcommit, habort, commandOf_dump hd ht]
  rfl

section Fetch

variable {c : Conditions} (hquiet : c.Undisturbed) {n : Nodes} {node : StorageNodeEndpoint}

include hquiet

/-- A message that does not arrive, or is handled. -/
theorem forward_cases (request : RequestEnvelope) :
    let r := handleAt c (c.tick n.clock).moment (n.servers node.endpoint) request
    ((n.forward c node request).1.servers = n.servers ∧ (n.forward c node request).2 = none) ∨
      ((n.forward c node request).1.servers = Function.update n.servers node.endpoint r.1 ∧
        ((n.forward c node request).2 = none ∨ (n.forward c node request).2 = r.2)) := by
  unfold Nodes.forward
  simp only [hquiet n.clock, Nodes.handleAll, Nodes.deliver]
  cases (c.tick n.clock).delivery with
  | lost => exact .inl ⟨rfl, rfl⟩
  | unanswered => exact .inr ⟨rfl, .inl rfl⟩
  | answered => exact .inr ⟨rfl, .inr rfl⟩

/-- A message the node is not changed by. -/
theorem forward_kept {request : RequestEnvelope} {response : Option ResponseEnvelope}
    (h : handleAt c (c.tick n.clock).moment (n.servers node.endpoint) request
      = (n.servers node.endpoint, response)) :
    (n.forward c node request).1.servers = n.servers ∧
      ((n.forward c node request).2 = none ∨ (n.forward c node request).2 = response) := by
  rcases forward_cases hquiet request with ⟨hsame, hnone⟩ | ⟨hafter, hanswer⟩
  · exact ⟨hsame, .inl hnone⟩
  · rw [h] at hafter hanswer
    rw [Function.update_eq_self] at hafter
    exact ⟨hafter, hanswer⟩

/-- **What the coordinator reads**: nothing, or the rows of the node. -/
theorem fetchTableDump_rows {d t : Str}
    (hidle : (n.servers node.endpoint).engine.transactionOf dumpSession = none)
    (hd : isIdentifier d = true) (ht : isIdentifier t = true)
    (htable : tableSchema (n.servers node.endpoint).engine.store d t ≠ none) :
    ∃ n' rows, fetchTableDump (clusterWorld c) node d t n = (n', .ok rows) ∧
      n'.servers = n.servers ∧
      (rows = none ∨
        rows = parseDump (dumpText (tableValues (n.servers node.endpoint).engine.store d t))) := by
  have hhandle : handleAt c (c.tick n.clock).moment (n.servers node.endpoint)
      (rebalanceRequest (str "CLUSTER DUMP_TABLE " ++ d ++ str " " ++ t))
        = (n.servers node.endpoint,
          some ⟨200, dumpText (tableValues (n.servers node.endpoint).engine.store d t)⟩) := by
    unfold handleAt
    rw [handleRequest_dump hd ht]
    dsimp only
    rw [dumpTable_rows _ hidle hd ht htable]
  obtain ⟨hservers, hresponse⟩ := forward_kept hquiet hhandle
  unfold fetchTableDump
  rw [Net.forward_bind]
  rcases hresponse with hnone | hsome
  · rw [show ((clusterWorld c).forward n node _).2 = none from hnone]
    exact ⟨_, none, rfl, hservers, .inl rfl⟩
  · rw [show ((clusterWorld c).forward n node _).2 = _ from hsome]
    exact ⟨_, _, rfl, hservers, .inr rfl⟩

end Fetch

end CustomDbms.Server
