/-
  CustomDbms.Core.RelationalRefinement
  ────────────────────────────────────
  **THE ENGINE IS THE ABSTRACT DATABASE.**

  `relations` forgets of a store what the abstract database does not have, and
  `abstraction` does so for a system of clients.  Every statement, and from it
  every run of requests in any order, commutes with it: the same answers, the
  same relations, the same copies in transactions.

    • `insertRows_enter`, `executeWrite_rewrites`, `executeSelect_answers` —
      the statements on one table;
    • `runStatement_refines` — one statement;
    • `step_refines` — one request;
    • `engine_refines_relations` — runs.
-/
import CustomDbms.Core.RelationalModel

namespace CustomDbms.Core

open CustomDbms.Common CustomDbms.Catalog CustomDbms.Execution CustomDbms.Lib CustomDbms.Parser
open CustomDbms.Planner CustomDbms.Storage CustomDbms.Versioning

/-! ## §1. What is forgotten. -/

/-- The bag of the values of rows. -/
def tuplesOf (rows : List RowData) : Multiset Tuple := (rows.map (·.values) : List Tuple)

/-- The relation of a table. -/
def relationOf (w : TableView) : Relation := ⟨w.schema, tuplesOf w.heap.rows⟩

/-- The relations of a store. -/
def relations (s : Store) : Relations := fun d =>
  (s.runtime.view.find? d).map fun p t => (p.2.find? t).map relationOf

/-- The value of a result. -/
def okValue {α : Type} : Result α → Option α
  | .ok a => some a
  | _ => none

/-- The answer in a result. -/
def answerOf (r : Result QueryResult) : Answer := (okValue r).map fun q => tuplesOf q.rows

@[simp] theorem answerOf_error (e : Error) : answerOf (.error e) = none := rfl
@[simp] theorem answerOf_fault : answerOf .fault = none := rfl
@[simp] theorem answerOf_message (message : Str) :
    answerOf (.ok (.ofMessage message)) = some 0 := rfl

theorem answerOf_of_ne {r : Result QueryResult} (h : ∀ q, r ≠ .ok q) : answerOf r = none := by
  cases r with
  | ok q => exact absurd rfl (h q)
  | error e => rfl
  | fault => rfl

theorem relations_eq (s : Store) (d : Str) :
    relations s d = (s.runtime.databases.find? d).map fun db t =>
      (db.tables.find? t).map fun table => relationOf table.view := by
  unfold relations RuntimeState.view
  rw [Dict.find?_mapVals, Option.map_map]
  refine congrArg (fun f => Option.map f _) (funext fun db => funext fun t => ?_)
  show (Dict.find? (db.tables.mapVals fun _ table => table.view) t).map relationOf = _
  rw [Dict.find?_mapVals, Option.map_map]
  rfl

theorem relations_of_view {s s' : Store} (h : s'.runtime.view = s.runtime.view) :
    relations s' = relations s := by
  unfold relations
  rw [h]

/-! ## §2. INSERT. -/

section Insert

variable {d t : Str} {table : TableRuntime}

theorem keyed_coe {schema : TableSchema} {vss : List Tuple} :
    Keyed schema (vss : Multiset Tuple) ↔
      ∀ n ∈ indexedColumns schema, IndexableValues schema n vss := by
  unfold Keyed IndexableValues
  simp only [Multiset.mem_coe, Multiset.map_coe, Multiset.coe_nodup]
  rfl

/-- A new row has free keys where the bag with its tuple is keyed. -/
theorem keysFree_iff (h : TableOk d t table) (row : RowData) :
    KeysFree table row ↔ Keyed table.schema (row.values ::ₘ tuplesOf table.heap.rows) := by
  unfold tuplesOf
  rw [Multiset.cons_coe, ← List.map_cons, keyed_coe]
  simp only [← indexable_iff_values]
  refine forall_congr' fun n => forall_congr' fun hn => ?_
  have hrows := h.indexable hn
  unfold Indexable at hrows ⊢
  rw [List.forall_mem_cons, List.map_cons, List.nodup_cons, List.mem_map]
  constructor
  · rintro ⟨k, hk, hfree⟩
    refine ⟨⟨by rw [hk]; rfl, hrows.1⟩, ?_, hrows.2⟩
    rintro ⟨s, hs, heq⟩
    exact hfree s hs (heq.trans hk)
  · rintro ⟨⟨hsome, -⟩, hnot, -⟩
    obtain ⟨k, hk⟩ := Option.isSome_iff_exists.mp hsome
    exact ⟨k, hk, fun s hs heq => hnot ⟨s, hs, heq.trans hk.symm⟩⟩

/-- **The loop of INSERT enters tuples into the bag.** -/
theorem insertRows_enter (env : Env) (map : List Nat) (inputs : List (List Expression))
    (v : VersionStore) (h : TableOk d t table) :
    (insertRows env d map inputs table v).1.schema = table.schema ∧
    enter table.schema map inputs (tuplesOf table.heap.rows)
      = (tuplesOf (insertRows env d map inputs table v).1.heap.rows,
        (insertRows env d map inputs table v).2.2.isOk) := by
  induction inputs generalizing table v with
  | nil => exact ⟨rfl, rfl⟩
  | cons input inputs ih =>
      rw [insertRows, enter]
      have hstops : (∀ row, admitRow table map input ≠ .ok row) →
          ∀ row, buildInsertRow table.schema map input = .ok row →
            ¬ Keyed table.schema (row.values ::ₘ tuplesOf table.heap.rows) :=
        fun hnot row hbuild hkeyed =>
          hnot row ((admitRow_eq_ok h).mpr ⟨hbuild, (keysFree_iff h row).mpr hkeyed⟩)
      cases hrow : admitRow table map input with
      | ok row =>
          obtain ⟨hbuild, hfree⟩ := (admitRow_eq_ok h).mp hrow
          obtain ⟨hid, hlen, hnew⟩ := admitRow_ok h hrow
          obtain ⟨table', hrun, hok, hschema, hrows⟩ := storeRow_ok env v h hid hlen hnew
          have htuples : tuplesOf table'.heap.rows
              = row.values ::ₘ tuplesOf table.heap.rows := by
            unfold tuplesOf
            rw [hrows, List.map_append, ← Multiset.coe_add, add_comm]
            rfl
          simp only [hrun, inputTuple, hbuild, if_pos ((keysFree_iff h row).mp hfree)]
          rw [← htuples, ← hschema]
          exact ih _ hok
      | error e =>
          refine ⟨rfl, ?_⟩
          unfold inputTuple
          split
          · rfl
          · rename_i t ht
            split at ht
            · rename_i row hbuild
              cases ht
              rw [if_neg (hstops (by simp [hrow]) row hbuild)]
              rfl
            · cases ht
      | fault =>
          refine ⟨rfl, ?_⟩
          unfold inputTuple
          split
          · rfl
          · rename_i t ht
            split at ht
            · rename_i row hbuild
              cases ht
              rw [if_neg (hstops (by simp [hrow]) row hbuild)]
              rfl
            · cases ht

/-- What a statement on one table does to its relation. -/
def Refines (re : RegexMatch) (statement : Statement) (table : TableRuntime)
    (r : TableRuntime × VersionStore × Result QueryResult) : Prop :=
  onRelation re statement (relationOf table.view) = (relationOf r.1.view, answerOf r.2.2)

theorem executeInsert_enters (env : Env) (stmt : InsertStatement) (h : TableOk d t table)
    (v : VersionStore) :
    Refines env.regexMatch (.insert stmt) table (executeInsert env stmt d table v) := by
  show insertInto stmt (relationOf table.view) = _
  unfold insertInto executeInsert
  rw [show (relationOf table.view).schema = table.schema from rfl]
  rcases hmap : insertColumnMap table.schema stmt.columnNames with map | e | _
  · obtain ⟨hschema, henter⟩ := insertRows_enter env map stmt.rows v h
    rw [show (relationOf table.view).tuples = tuplesOf table.heap.rows from rfl]
    dsimp only
    rw [henter]
    refine Prod.ext ?_ ?_
    · exact congrArg₂ Relation.mk hschema.symm rfl
    · cases (insertRows env d map stmt.rows table v).2.2 with
      | ok u => rfl
      | error e => rfl
      | fault => rfl
  · rfl
  · rfl

end Insert

/-! ## §3. UPDATE and DELETE. -/

section Writes

variable {d t : Str} {table : TableRuntime} {re : RegexMatch}

theorem rewriteAll_coe (re : RegexMatch) (schema : TableSchema) (statement : Statement)
    (vss : List Tuple) :
    (Writable re schema statement vss →
      rewriteAll re schema statement (vss : Multiset Tuple)
        = some ((vss.filterMap (written re schema statement) : List Tuple) : Multiset Tuple)) ∧
    (¬ Writable re schema statement vss →
      rewriteAll re schema statement (vss : Multiset Tuple) = none) := by
  unfold rewriteAll
  rw [Multiset.filterMap_coe]
  constructor
  · intro hw
    exact if_pos ⟨hw.computed, keyed_coe.mpr hw.indexable⟩
  · intro hnot
    refine if_neg ?_
    rintro ⟨hcomputed, hkeyed⟩
    exact hnot ⟨hcomputed, keyed_coe.mp hkeyed⟩

/-- **A write rewrites all tuples.** -/
theorem writeTo_of_leaves {statement : Statement}
    {r : TableRuntime × VersionStore × Result QueryResult}
    (h : LeavesWritten re statement table r) (hmessage : ∀ q, r.2.2 = .ok q → q.rows = []) :
    writeTo re statement (relationOf table.view) = (relationOf r.1.view, answerOf r.2.2) := by
  have hcoe := rewriteAll_coe re table.schema statement (table.heap.rows.map (·.values))
  unfold writeTo
  rcases h with ⟨hw, hisOk, hschema, hvalues⟩ | ⟨hnot, hsame, hfail⟩
  · obtain ⟨q, hq⟩ := isOk_iff.mp hisOk
    rw [show rewriteAll re (relationOf table.view).schema statement (relationOf table.view).tuples
      = _ from hcoe.1 hw, hq]
    refine Prod.ext ?_ ?_
    · refine congrArg₂ Relation.mk hschema.symm ?_
      rw [← hvalues]
      rfl
    · show some 0 = some (tuplesOf q.rows)
      rw [hmessage q hq]
      rfl
  · rw [show rewriteAll re (relationOf table.view).schema statement (relationOf table.view).tuples
      = _ from hcoe.2 hnot, hsame, answerOf_of_ne fun q hq => by simp [hq, Result.isOk] at hfail]

theorem replaceRows_message {v : VersionStore} {rows : List RowData} {message : Str}
    {q : QueryResult} (h : (replaceRows table v rows message).2.2 = .ok q) : q.rows = [] := by
  unfold replaceRows at h
  split at h
  · cases h
    rfl
  · cases h
  · cases h

theorem executeUpdate_rewrites (env : Env) (stmt : UpdateStatement) (h : TableOk d t table)
    (v : VersionStore) :
    Refines env.regexMatch (.update stmt) table (executeUpdate env stmt d table v) := by
  refine writeTo_of_leaves (executeUpdate_written env stmt h v) fun q hq => ?_
  unfold executeUpdate at hq
  dsimp only at hq
  split at hq
  · exact replaceRows_message hq
  · cases hq
  · cases hq

theorem executeDelete_rewrites (env : Env) (stmt : DeleteStatement) (h : TableOk d t table)
    (v : VersionStore) :
    Refines env.regexMatch (.delete stmt) table (executeDelete env stmt d table v) := by
  refine writeTo_of_leaves (executeDelete_written env stmt h v) fun q hq => ?_
  unfold executeDelete at hq
  dsimp only at hq
  split at hq
  · exact replaceRows_message hq
  · cases hq
  · cases hq

end Writes

/-! ## §4. SELECT. -/

section Select

variable {schema : TableSchema} {rows : List RowData} {i : Nat}

theorem mapM_okValue {α β : Type} (f : α → Result β) (l : List α) :
    l.mapM (fun a => okValue (f a)) = okValue (Result.mapList f l) := by
  induction l with
  | nil => rfl
  | cons a l ih =>
      rw [List.mapM_cons, ih, Result.mapList_cons]
      cases f a with
      | ok b =>
          cases Result.mapList f l with
          | ok bs => rfl
          | error e => rfl
          | fault => rfl
      | error e => rfl
      | fault => rfl

theorem numbersAt_tuplesOf : numbersAt i (tuplesOf rows) = (intsAt i rows : List Int) := by
  unfold numbersAt tuplesOf intsAt
  rw [Multiset.filterMap_coe, List.filterMap_map]
  rfl

theorem card_tuplesOf : (tuplesOf rows).card = rows.length := by
  unfold tuplesOf
  rw [Multiset.coe_card, List.length_map]

theorem countP_tuplesOf :
    (tuplesOf rows).countP (fun t => (t[i]?.any fun v => !isNull v) = true)
      = presentAt i rows := by
  unfold tuplesOf presentAt
  rw [Multiset.coe_countP, List.countP_map]
  refine List.countP_congr fun row _ => ?_
  simp

theorem numeric_iff : (∀ t ∈ tuplesOf rows, textAt i t = false) ↔ Numeric i rows := by
  unfold tuplesOf Numeric textAt
  simp only [Multiset.mem_coe, List.forall_mem_map]
  refine forall_congr' fun row => forall_congr' fun _ => ?_
  cases row.values[i]? with
  | none => simp
  | some v => cases v <;> simp

/-- **An aggregate over a column.** -/
theorem aggregateColumn_eq (h : Reaching i rows) (kind : AggregateKind) :
    aggregateColumn i (tuplesOf rows) kind = okValue (aggregateValue kind (some i) rows) := by
  cases kind with
  | count =>
      rw [aggregateValue_count h]
      unfold aggregateColumn
      rw [countP_tuplesOf]
      rfl
  | sum =>
      unfold aggregateColumn
      dsimp only
      rw [numbersAt_tuplesOf, Multiset.sum_coe]
      show _ = okValue (Result.foldList (sumStep i) (0, 0) rows >>= _)
      rcases sumStep_foldList h (0, 0) with ⟨hnum, hrun⟩ | ⟨hnot, e, herr⟩
      · rw [if_pos (numeric_iff.mpr hnum), hrun, Int64.zero_add]
        rfl
      · rw [if_neg fun hall => hnot (numeric_iff.mp hall), herr]
        rfl
  | avg =>
      unfold aggregateColumn
      dsimp only
      rw [numbersAt_tuplesOf, Multiset.sum_coe, Multiset.coe_card]
      show _ = okValue (Result.foldList (sumStep i) (0, 0) rows >>= _)
      rcases sumStep_foldList h (0, 0) with ⟨hnum, hrun⟩ | ⟨hnot, e, herr⟩
      · rw [if_pos (numeric_iff.mpr hnum), hrun, Int64.zero_add, Int64.zero_add]
        rfl
      · rw [if_neg fun hall => hnot (numeric_iff.mp hall), herr]
        rfl

theorem aggregateTuples_eq (hreach : ∀ i < schema.columns.length, Reaching i rows)
    (item : SelectItem) :
    aggregateTuples schema (tuplesOf rows) item = okValue (aggregateItem schema rows item) := by
  unfold aggregateTuples aggregateItem
  cases item.aggregate with
  | none => rfl
  | some kind =>
      dsimp only
      by_cases hstar : item.columnName = str "*"
      · rw [if_pos hstar, if_pos hstar]
        cases kind with
        | count =>
            rw [if_pos rfl, aggregateValue_count_star, card_tuplesOf]
            rfl
        | sum => rfl
        | avg => rfl
      · rw [if_neg hstar, if_neg hstar]
        unfold selectColumn
        cases hi : findColumnIndex schema item.columnName with
        | none => rfl
        | some i =>
            exact aggregateColumn_eq (hreach i (findColumnIndex_lt hi)) kind

/-- **What a select list makes of the selected rows.** -/
theorem answerTuples_eq (hreach : ∀ i < schema.columns.length, Reaching i rows)
    (items : List SelectItem) :
    answerTuples schema items (tuplesOf rows) = answerOf (selectRows schema items rows) := by
  unfold answerTuples
  cases hitems : isAggregate items with
  | true =>
      rw [if_pos rfl, selectRows_aggregate hitems,
        funext (aggregateTuples_eq hreach), mapM_okValue]
      cases Result.mapList (aggregateItem schema rows) items with
      | ok vs => rfl
      | error e => rfl
      | fault => rfl
  | false =>
      rw [if_neg (by decide)]
      obtain ⟨hisOk, hvalues⟩ := selectRows_projection schema rows hitems
      by_cases hall : ∀ t ∈ tuplesOf rows, (projectRow schema items (rowOf t)).isOk = true
      · obtain ⟨q, hq⟩ := isOk_iff.mp (hisOk.mpr hall)
        rw [if_pos hall, hq]
        show some _ = some (tuplesOf q.rows)
        unfold tuplesOf
        rw [(hvalues q hq).1, Multiset.map_coe]
      · rw [if_neg hall, answerOf_of_ne fun q hq => hall (hisOk.mp (by rw [hq]; rfl))]

theorem selectTuples_coe (re : RegexMatch) (schema : TableSchema)
    (clause : Option Expression) (vss : List Tuple) :
    (∀ select, selection re schema clause = .ok select → (∀ t ∈ vss, (select t).isOk = true) →
      selectTuples re schema clause (vss : Multiset Tuple)
        = some ((vss.filter (taken select) : List Tuple) : Multiset Tuple)) ∧
    ((¬ ∃ select, selection re schema clause = .ok select ∧ ∀ t ∈ vss, (select t).isOk = true) →
      selectTuples re schema clause (vss : Multiset Tuple) = none) := by
  unfold selectTuples
  constructor
  · intro select hselect hall
    rw [hselect]
    refine (if_pos hall).trans (congrArg some ?_)
    rw [Multiset.filter_coe]
    congr 2
    simp
  · intro hnot
    cases hselect : selection re schema clause with
    | ok select => exact if_neg fun hall => hnot ⟨select, hselect, hall⟩
    | error e => rfl
    | fault => rfl

/-- **What a SELECT answers.** -/
theorem executeSelect_answers {d t : Str} {table : TableRuntime} (h : TableOk d t table)
    (env : Env) (stmt : SelectStatement) :
    selectFrom env.regexMatch stmt (relationOf table.view)
      = answerOf (executeSelect env stmt table) := by
  obtain ⟨hisOk, hrows⟩ := filterRows_selection h env.regexMatch stmt.whereClause
  obtain ⟨hselects, hfails⟩ := selectTuples_coe env.regexMatch table.schema
    stmt.whereClause (table.heap.rows.map (·.values))
  unfold selectFrom executeSelect
  show (selectTuples env.regexMatch table.schema stmt.whereClause
    ((table.heap.rows.map (·.values) : List Tuple) : Multiset Tuple)).bind _ = _
  by_cases hfound : (filterRows env.regexMatch table.heap.scanAll stmt.whereClause table.schema
      table.indexes).isOk = true
  · obtain ⟨select, hselect, hall⟩ := hisOk.mp hfound
    obtain ⟨found, hfilter⟩ := isOk_iff.mp hfound
    have htuples : ((table.heap.rows.map (·.values)).filter (taken select) : Multiset Tuple)
        = tuplesOf found.1 :=
      Multiset.coe_eq_coe.mpr (hrows select found.1 found.2 hselect hfilter).symm
    rw [hselects select hselect hall, hfilter, Option.bind_some, Result.ok_bind, htuples]
    refine answerTuples_eq (fun i hi row hrow => ?_) stmt.items
    rw [h.shape row (filterRows_subset hfilter row hrow)]
    exact hi
  · rw [hfails fun hex => hfound (hisOk.mpr hex)]
    refine (answerOf_of_ne fun q hq => ?_).symm
    obtain ⟨found, hfilter, -⟩ := Result.bind_eq_ok.mp hq
    exact hfound (isOk_iff.mpr ⟨found, hfilter⟩)

end Select

/-! ## §5. One statement. -/

section Statements

variable {s : Store} {d : Str} {db : DatabaseRuntime}

/-- A database whose tables change in one name. -/
theorem relations_modify (hdb : s.runtime.databases.find? d = some db)
    {g : Dict Str TableRuntime → Dict Str TableRuntime} {t : Str} {r : Option Relation}
    (hg : ∀ t', ((g db.tables).find? t').map (fun table => relationOf table.view)
      = if t' = t then r else (db.tables.find? t').map fun table => relationOf table.view)
    (v : VersionStore) :
    relations ⟨⟨s.runtime.databases.modify d fun db => { db with tables := g db.tables }⟩, v⟩
      = (relations s).replace d t r := by
  funext d'
  rw [relations_eq, Relations.replace, relations_eq s d, hdb]
  dsimp only
  rw [Dict.find?_modify]
  by_cases hd : d' = d
  · subst hd
    rw [if_pos rfl, hdb, Function.update_self]
    refine congrArg some (funext fun t' => ?_)
    dsimp only
    rw [Function.update_apply]
    exact hg t'
  · rw [if_neg hd, Function.update_of_ne hd, relations_eq]

/-- **A statement on one table.** -/
theorem withTable_refines (hok : StoreOk s) (re : RegexMatch) (session : SessionContext)
    (name : QualifiedName) (statement : Statement)
    {f : Str → TableRuntime → VersionStore → TableRuntime × VersionStore × Result QueryResult}
    (hf : ∀ d table v, TableOk d name.objectName table →
      Refines re statement table (f d table v)) :
    (relations s).onTable re session name statement
      = (relations (withTable s session name f).1, answerOf (withTable s session name f).2) := by
  unfold Relations.onTable databaseOf withTable
  cases resolveDatabaseName session name.databaseName with
  | error e => rfl
  | fault => rfl
  | ok d =>
      dsimp only
      rw [relations_eq]
      cases hdb : s.runtime.databases.find? d with
      | none => rfl
      | some db =>
          dsimp only [Option.map_some, Option.bind_some]
          cases ht : db.tables.find? name.objectName with
          | none => rfl
          | some table =>
              have hrefines := hf d table s.versions ((hok.state d db hdb).tables _ table ht)
              unfold Refines at hrefines
              dsimp only [Option.map_some]
              rw [hrefines]
              refine Prod.ext (relations_modify hdb (g := fun tables =>
                tables.modify name.objectName fun _ => (f d table s.versions).1)
                (fun t' => ?_) _).symm rfl
              rw [Dict.find?_modify, ht]
              by_cases heq : t' = name.objectName
              · rw [if_pos heq, if_pos heq]
                rfl
              · rw [if_neg heq, if_neg heq]

theorem isSome_relations (s : Store) (d : Str) :
    (relations s d).isSome = s.runtime.databases.contains d := by
  rw [relations_eq, Option.isSome_map]
  rfl

theorem executeCreateDatabase_refines (env : Env) (s : Store) (session : SessionContext)
    (name : Str) : (relations s).execute env.regexMatch session (.createDatabase name)
      = (relations (executeCreateDatabase env s name).1, session,
        answerOf (executeCreateDatabase env s name).2) := by
  unfold Relations.execute executeCreateDatabase
  dsimp only
  rw [isSome_relations]
  by_cases hname : s.runtime.databases.contains name = true
  · rw [if_pos hname, if_pos hname]
    rfl
  · rw [if_neg hname, if_neg hname]
    refine Prod.ext (funext fun d => ?_) rfl
    have hnone : s.runtime.databases.find? name = none := by
      simpa [Dict.contains] using hname
    dsimp only
    rw [relations_eq]
    dsimp only
    rw [Dict.find?_emplace hnone, Function.update_apply]
    by_cases hd : d = name
    · rw [if_pos hd, if_pos hd]
      rfl
    · rw [if_neg hd, if_neg hd, relations_eq]

theorem executeUse_refines (re : RegexMatch) (s : Store) (session : SessionContext) (name : Str) :
    (relations s).execute re session (.useDatabase name)
      = (relations s, (executeUse s session name).1, answerOf (executeUse s session name).2) := by
  unfold Relations.execute executeUse
  dsimp only
  rw [isSome_relations]
  by_cases hname : s.runtime.databases.contains name = true
  · rw [if_pos hname, if_pos hname]
    rfl
  · rw [if_neg hname, if_neg hname]
    rfl

theorem executeDropDatabase_refines (env : Env) (s : Store) (session : SessionContext)
    (name : Str) : (relations s).execute env.regexMatch session (.dropDatabase name)
      = (relations (executeDropDatabase env s session name).1,
        (executeDropDatabase env s session name).2.1,
        answerOf (executeDropDatabase env s session name).2.2) := by
  unfold Relations.execute executeDropDatabase
  dsimp only
  rw [isSome_relations]
  by_cases hname : s.runtime.databases.contains name = true
  · rw [if_pos hname, if_pos hname]
    refine Prod.ext (funext fun d => ?_) rfl
    dsimp only
    rw [relations_eq]
    dsimp only
    rw [Dict.find?_erase, Function.update_apply]
    by_cases hd : d = name
    · rw [if_pos hd, if_pos hd]
      rfl
    · rw [if_neg hd, if_neg hd, relations_eq]
  · rw [if_neg hname, if_neg hname]
    rfl

theorem executeCreateTable_refines (env : Env) (s : Store) (session : SessionContext)
    (stmt : CreateTableStatement) :
    (relations s).execute env.regexMatch session (.createTable stmt)
      = (relations (executeCreateTable env s session stmt).1, session,
        answerOf (executeCreateTable env s session stmt).2) := by
  unfold Relations.execute databaseOf executeCreateTable
  dsimp only
  cases resolveDatabaseName session stmt.tableName.databaseName with
  | error e => rfl
  | fault => rfl
  | ok d =>
      dsimp only
      rw [relations_eq]
      cases hdb : s.runtime.databases.find? d with
      | none => rfl
      | some db =>
          dsimp only [Option.map_some]
          rw [Option.isSome_map,
            show (db.tables.find? stmt.tableName.objectName).isSome
              = db.tables.contains stmt.tableName.objectName from rfl]
          by_cases hcontains : db.tables.contains stmt.tableName.objectName = true
          · rw [if_pos hcontains, if_pos hcontains]
            rfl
          · rw [if_neg hcontains, if_neg hcontains]
            have hnone : db.tables.find? stmt.tableName.objectName = none := by
              simpa [Dict.contains] using hcontains
            refine Prod.ext (relations_modify hdb (g := fun tables =>
              tables.emplace (schemaOf d stmt).tableName (tableOf (schemaOf d stmt)))
              (fun t' => ?_) _).symm rfl
            rw [show (schemaOf d stmt).tableName = stmt.tableName.objectName from rfl,
              Dict.find?_emplace hnone]
            by_cases heq : t' = stmt.tableName.objectName
            · rw [if_pos heq, if_pos heq]
              rfl
            · rw [if_neg heq, if_neg heq]

theorem executeDropTable_refines (env : Env) (s : Store) (session : SessionContext)
    (name : QualifiedName) :
    (relations s).execute env.regexMatch session (.dropTable name)
      = (relations (executeDropTable env s session name).1, session,
        answerOf (executeDropTable env s session name).2) := by
  unfold Relations.execute databaseOf executeDropTable
  dsimp only
  cases resolveDatabaseName session name.databaseName with
  | error e => rfl
  | fault => rfl
  | ok d =>
      dsimp only
      rw [relations_eq]
      cases hdb : s.runtime.databases.find? d with
      | none => rfl
      | some db =>
          dsimp only [Option.map_some, Option.bind_some]
          cases ht : db.tables.find? name.objectName with
          | none => rfl
          | some table =>
              refine Prod.ext (relations_modify hdb
                (g := fun tables => tables.erase name.objectName) (fun t' => ?_) _).symm rfl
              rw [Dict.find?_erase]
              by_cases heq : t' = name.objectName
              · rw [if_pos heq, if_pos heq]
                rfl
              · rw [if_neg heq, if_neg heq]

/-- A text that asks for no REVERT. -/
def asksRevert : Statement → Bool
  | .revert _ => true
  | _ => false

/-- **One statement.**  Its answer and the relations it leaves are those of the
abstract database. -/
theorem runStatement_refines (env : Env) (hok : StoreOk s) (session : SessionContext)
    {statement : Statement} (hrevert : asksRevert statement = false) :
    (relations s).execute env.regexMatch session statement
      = (relations (runStatement env s session statement).1,
        (runStatement env s session statement).2.1,
        answerOf (runStatement env s session statement).2.2) := by
  have hon : ∀ name statement f, (∀ d table v, TableOk d name.objectName table →
      Refines env.regexMatch statement table (f d table v)) →
      (((relations s).onTable env.regexMatch session name statement).1, session,
        ((relations s).onTable env.regexMatch session name statement).2)
      = (relations (withTable s session name f).1, session,
        answerOf (withTable s session name f).2) := by
    intro name statement f hf
    rw [withTable_refines hok env.regexMatch session name statement hf]
  cases statement with
  | createDatabase name => exact executeCreateDatabase_refines env s session name
  | useDatabase name => exact executeUse_refines env.regexMatch s session name
  | dropDatabase name => exact executeDropDatabase_refines env s session name
  | createTable stmt => exact executeCreateTable_refines env s session stmt
  | dropTable name => exact executeDropTable_refines env s session name
  | insert stmt =>
      exact hon stmt.tableName (.insert stmt) (executeInsert env stmt)
        fun d table v h => executeInsert_enters env stmt h v
  | update stmt =>
      exact hon stmt.tableName (.update stmt) (executeUpdate env stmt)
        fun d table v h => executeUpdate_rewrites env stmt h v
  | delete stmt =>
      exact hon stmt.tableName (.delete stmt) (executeDelete env stmt)
        fun d table v h => executeDelete_rewrites env stmt h v
  | select stmt =>
      rw [runStatement_select]
      exact hon stmt.tableName (.select stmt)
        (fun _ table v => (table, v, executeSelect env stmt table))
        fun d table v h => Prod.ext rfl (executeSelect_answers h env stmt)
  | checkIndex =>
      show (relations s, session, some 0)
        = (relations s, session, answerOf (executeCheckIndex s))
      unfold executeCheckIndex
      rw [hok.state.validates]
      rfl
  | rebuildIndex =>
      obtain ⟨state, hrun, -, hview⟩ := rebuildRuntimeIndexes_ok hok.state
      show (relations s, session, some 0) = (relations (executeRebuildIndex s).1, session,
        answerOf (executeRebuildIndex s).2)
      unfold executeRebuildIndex
      rw [hrun]
      exact Prod.ext (relations_of_view hview).symm rfl
  | revert stmt => cases hrevert
  | unknown raw => rfl
  | beginTransaction => rfl
  | commitTransaction => rfl
  | rollbackTransaction => rfl

end Statements

/-! ## §6. One request. -/

/-- The copies of the clients in transactions. -/
def copies (e : DbmsEngine) : Str → Option Relations := fun client =>
  (e.transactions.find? client).map fun tx => relations tx.store

/-- What the abstract database has of a system of clients. -/
def abstraction (sys : System) : RelSystem :=
  ⟨relations sys.engine.store, copies sys.engine, sys.sessions⟩

theorem copies_eq_update {e e' : DbmsEngine} {client : Str} {o : Option Relations}
    (hat : copies e' client = o)
    (helse : ∀ x, x ≠ client → e'.transactions.find? x = e.transactions.find? x) :
    copies e' = Function.update (copies e) client o := by
  funext x
  rw [Function.update_apply]
  by_cases hx : x = client
  · rw [if_pos hx, hx, hat]
  · rw [if_neg hx, copies, helse x hx]
    rfl

/-- A text that asks for no REVERT. -/
def noRevert (sql : Str) : Bool :=
  match parse sql with
  | .ok statement => !asksRevert statement
  | _ => true

theorem asksRevert_of_noRevert {sql : Str} (h : noRevert sql = true) {statement : Statement}
    (hparse : parse sql = .ok statement) : asksRevert statement = false := by
  unfold noRevert at h
  rw [hparse] at h
  simpa using h

section Transactions

variable {e : DbmsEngine} {key : Str}

/-- BEGIN copies the committed relations. -/
theorem executeBegin_copies (hok : EngineOk e) (hnone : e.transactions.find? key = none) :
    ∃ e', executeBegin e key = (e', .ok (.ofMessage (str "transaction started"))) ∧
      e'.store = e.store ∧
      copies e' = Function.update (copies e) key (some (relations e.store)) := by
  obtain ⟨state, hclone, -, hview⟩ := cloneRuntimeState_ok hok.committed.state
  refine ⟨{ e with transactions := e.transactions.emplace key ⟨state, e.versionStore, []⟩ },
    ?_, rfl, copies_eq_update ?_ fun x hx => ?_⟩
  · unfold executeBegin Dict.contains
    rw [hnone, if_neg (by decide), show cloneRuntimeState e.runtimeState = .ok state from hclone]
  · unfold copies
    rw [Dict.find?_emplace hnone, if_pos rfl]
    exact congrArg some (relations_of_view (s := e.store) hview)
  · dsimp only
    rw [Dict.find?_emplace hnone, if_neg hx]

theorem find?_endTransaction (e : DbmsEngine) (key x : Str) :
    (e.endTransaction key).transactions.find? x
      = if x = key then none else e.transactions.find? x := Dict.find?_erase

theorem copies_endTransaction (e : DbmsEngine) (key : Str) :
    copies (e.endTransaction key) = Function.update (copies e) key none := by
  refine copies_eq_update ?_ fun x hx => ?_
  · unfold copies
    rw [find?_endTransaction, if_pos rfl]
    rfl
  · rw [find?_endTransaction, if_neg hx]

/-- Where the files can be written, COMMIT publishes the copy and ends. -/
theorem executeCommit_copies {tx : TransactionContext}
    (htx : e.transactions.find? key = some tx) :
    ∃ e', executeCommit e Io.good true key
        = (e', .ok (.ofMessage (str "transaction committed"))) ∧
      e'.store = tx.store ∧ copies e' = Function.update (copies e) key none := by
  obtain ⟨d, hcommit⟩ : ∃ d, commitTransaction e Io.good true key tx
      = (((e.publish key tx).endTransaction key).withDisk d,
        .ok (.ofMessage (str "transaction committed"))) := by
    unfold commitTransaction
    split
    · exact ⟨_, rfl⟩
    · exact ⟨_, rfl⟩
  refine ⟨((e.publish key tx).endTransaction key).withDisk d, ?_, rfl,
    copies_eq_update ?_ fun x hx => ?_⟩
  · unfold executeCommit
    rw [htx]
    exact hcommit
  · show copies ((e.publish key tx).endTransaction key) key = none
    rw [copies_endTransaction, Function.update_self]
  · show ((e.publish key tx).endTransaction key).transactions.find? x = _
    rw [find?_endTransaction, if_neg hx]
    show (e.transactions.modify key _).find? x = _
    rw [Dict.find?_modify, if_neg hx]

/-- ROLLBACK forgets the copy. -/
theorem executeRollback_copies {tx : TransactionContext}
    (htx : e.transactions.find? key = some tx) :
    executeRollback e key
      = (e.endTransaction key, .ok (.ofMessage (str "transaction rolled back"))) := by
  unfold executeRollback Dict.contains
  rw [htx]
  rfl

end Transactions

/-- A transaction refuses DDL and the index commands, and runs the rest. -/
theorem executeInTransaction_cases (env : Env) (e : DbmsEngine) (session : SessionContext)
    (key : Str) (tx : TransactionContext) (sql : Str) {statement : Statement}
    (hb : statement ≠ .beginTransaction) (hc : statement ≠ .commitTransaction)
    (hr : statement ≠ .rollbackTransaction) :
    (runsInTransaction statement = true ∧
      executeInTransaction env e session key tx sql statement true
        = ({ e with
              transactions := e.transactions.modify key fun tx' =>
                tx'.after (runStatement env tx.store session statement).1 statement sql true
                  (runStatement env tx.store session statement).2.2 },
          (runStatement env tx.store session statement).2)) ∨
    (runsInTransaction statement = false ∧ ∃ err,
      executeInTransaction env e session key tx sql statement true = (e, session, .error err)) := by
  cases statement with
  | beginTransaction => exact absurd rfl hb
  | commitTransaction => exact absurd rfl hc
  | rollbackTransaction => exact absurd rfl hr
  | createDatabase _ | dropDatabase _ | createTable _ | dropTable _ | checkIndex | rebuildIndex =>
      exact .inr ⟨rfl, _, rfl⟩
  | _ => exact .inl ⟨rfl, rfl⟩

section Requests

variable {sys : System} {c : Request}

/-- A request that leaves its client's database. -/
theorem sessions_kept : Function.update sys.sessions c.client
    (sys.session c.client).currentDatabase = sys.sessions :=
  Function.update_eq_self c.client sys.sessions

theorem abstraction_begin (hok : EngineOk sys.engine) (hc : c.client ≠ [])
    (hparse : parse c.sql = .ok .beginTransaction) :
    (abstraction sys).step c = (abstraction (sys.step c).1, answerOf (sys.step c).2) := by
  have hkey : transactionKey (sys.session c.client) = c.client := transactionKey_session hc
  simp only [System.step, executeSql, executeSqlImpl, hparse, hkey, sessions_kept,
    RelSystem.step, abstraction]
  rcases htx : sys.engine.transactions.find? c.client with _ | tx
  · obtain ⟨e', hbegin, hstore, hcopies⟩ := executeBegin_copies hok htx
    rw [hbegin, hstore, hcopies]
    simp only [copies, htx, Option.map_none]
    rfl
  · have hbegin : executeBegin sys.engine c.client = (sys.engine, .makeError .validationError
        (str "transaction already active for session")) := by
      unfold executeBegin Dict.contains
      rw [htx]
      rfl
    rw [hbegin]
    simp only [copies, htx, Option.map_some]
    rfl

theorem abstraction_commit (hc : c.client ≠ []) (hio : c.io = Io.good)
    (hparse : parse c.sql = .ok .commitTransaction) :
    (abstraction sys).step c = (abstraction (sys.step c).1, answerOf (sys.step c).2) := by
  have hkey : transactionKey (sys.session c.client) = c.client := transactionKey_session hc
  simp only [System.step, executeSql, executeSqlImpl, hparse, hkey, hio, sessions_kept,
    RelSystem.step, RelSystem.close, abstraction]
  rcases htx : sys.engine.transactions.find? c.client with _ | tx
  · have hcommit : executeCommit sys.engine Io.good true c.client = (sys.engine,
        .makeError .validationError (str "no active transaction for session")) := by
      unfold executeCommit
      rw [htx]
    rw [hcommit]
    simp only [copies, htx, Option.map_none]
    rfl
  · obtain ⟨e', hcommit, hstore, hcopies⟩ := executeCommit_copies htx
    rw [hcommit, hstore, hcopies]
    simp only [copies, htx, Option.map_some]
    rfl

theorem abstraction_rollback (hc : c.client ≠ [])
    (hparse : parse c.sql = .ok .rollbackTransaction) :
    (abstraction sys).step c = (abstraction (sys.step c).1, answerOf (sys.step c).2) := by
  have hkey : transactionKey (sys.session c.client) = c.client := transactionKey_session hc
  simp only [System.step, executeSql, executeSqlImpl, hparse, hkey, sessions_kept,
    RelSystem.step, RelSystem.close, abstraction]
  rcases htx : sys.engine.transactions.find? c.client with _ | tx
  · have hrollback : executeRollback sys.engine c.client = (sys.engine,
        .makeError .validationError (str "no active transaction for session")) := by
      unfold executeRollback Dict.contains
      rw [htx]
      rfl
    rw [hrollback]
    simp only [copies, htx, Option.map_none]
    rfl
  · rw [executeRollback_copies htx, copies_endTransaction]
    simp only [copies, htx, Option.map_some]
    rfl

/-- A request that is not about transactions. -/
theorem abstraction_statement (hok : EngineOk sys.engine) (hc : c.client ≠ [])
    (hio : c.io = Io.good) {statement : Statement} (hparse : parse c.sql = .ok statement)
    (hrevert : asksRevert statement = false) (hb : statement ≠ .beginTransaction)
    (hcommit : statement ≠ .commitTransaction) (hr : statement ≠ .rollbackTransaction) :
    (abstraction sys).execute c statement
      = (abstraction (sys.step c).1, answerOf (sys.step c).2) := by
  have hkey : transactionKey (sys.session c.client) = c.client := transactionKey_session hc
  have hsession : (⟨c.client, sys.sessions c.client⟩ : SessionContext) = sys.session c.client := rfl
  rcases htx : sys.engine.transactions.find? c.client with _ | tx
  · -- on the committed state, which the log and the files leave alone
    have hrefines := runStatement_refines c.env hok.committed (sys.session c.client) hrevert
    have hstep : executeSql c.env c.io sys.engine (sys.session c.client) c.sql
        = executeAutocommit c.env Io.good sys.engine (sys.session c.client) c.sql statement true := by
      rw [executeSql, executeSqlImpl_statement hparse hb hcommit hr, hkey, htx, hio]
    obtain ⟨d, hmemory⟩ := executeAutocommit_memory c.env Io.good sys.engine
      (sys.session c.client) c.sql statement true
    simp only [System.step, hstep, RelSystem.execute, abstraction, copies, htx, Option.map_none,
      hsession]
    rw [hrefines, hmemory, executeAutocommit_session, executeAutocommit_good]
    rfl
  · -- on the copy, or refused
    have hrefines := runStatement_refines c.env (hok.working c.client tx htx)
      (sys.session c.client) hrevert
    have hstep : executeSql c.env c.io sys.engine (sys.session c.client) c.sql
        = executeInTransaction c.env sys.engine (sys.session c.client) c.client tx c.sql
          statement true := by
      rw [executeSql, executeSqlImpl_statement hparse hb hcommit hr, hkey, htx]
    have hcopy : copies sys.engine c.client = some (relations tx.store) := by
      rw [copies, htx]
      rfl
    simp only [System.step, hstep, RelSystem.execute, abstraction, hcopy, hsession]
    rcases executeInTransaction_cases c.env sys.engine (sys.session c.client) c.client tx c.sql
      hb hcommit hr with ⟨hruns, heq⟩ | ⟨hruns, err, heq⟩
    · rw [if_pos hruns, heq, hrefines]
      dsimp only
      refine Prod.ext (congrArg₂ (RelSystem.mk _) ?_ rfl) rfl
      refine (copies_eq_update ?_ fun x hx => ?_).symm
      · unfold copies
        rw [Dict.find?_modify, if_pos rfl, htx]
        rfl
      · dsimp only
        rw [Dict.find?_modify, if_neg hx]
    · rw [hruns, if_neg (by decide), heq]
      dsimp only
      rw [sessions_kept]
      rfl

/-- **One request**: the engine's step is the abstract step. -/
theorem step_refines (hok : EngineOk sys.engine) (hc : c.client ≠ []) (hio : c.io = Io.good)
    (hrevert : noRevert c.sql = true) :
    (abstraction sys).step c = (abstraction (sys.step c).1, answerOf (sys.step c).2) := by
  cases hparse : parse c.sql with
  | error err =>
      simp only [System.step, executeSql, executeSqlImpl, hparse, RelSystem.step]
      rw [sessions_kept]
      rfl
  | fault =>
      simp only [System.step, executeSql, executeSqlImpl, hparse, RelSystem.step]
      rw [sessions_kept]
      rfl
  | ok statement =>
      have hasks := asksRevert_of_noRevert hrevert hparse
      cases statement with
      | beginTransaction => exact abstraction_begin hok hc hparse
      | commitTransaction => exact abstraction_commit hc hio hparse
      | rollbackTransaction => exact abstraction_rollback hc hparse
      | _ =>
          rw [← abstraction_statement hok hc hio hparse hasks (by simp) (by simp) (by simp)]
          simp only [RelSystem.step, hparse]

end Requests

/-! ## §7. Runs. -/

/-- **The engine is the abstract database.**  From every engine of every run,
for any requests of any clients in any order whose files can be written and
that ask for no REVERT: the answers are those of the abstract database, and so
are the committed relations, the clients' current databases and the copies in
their open transactions afterwards. -/
theorem engine_refines_relations {sys : System} (h : Reachable sys.engine) {cs : List Request}
    (hne : ∀ c ∈ cs, c.client ≠ []) (hgood : ∀ c ∈ cs, c.io = Io.good)
    (hrevert : ∀ c ∈ cs, noRevert c.sql = true) :
    (abstraction sys).run cs
      = (abstraction (sys.run cs).1, (sys.run cs).2.map fun p => answerOf p.2) := by
  induction cs generalizing sys with
  | nil => rfl
  | cons c cs ih =>
      have hstep := step_refines (reachable_ok h) (hne c (List.mem_cons_self ..))
        (hgood c (List.mem_cons_self ..)) (hrevert c (List.mem_cons_self ..))
      have hnext : Reachable (sys.step c).1.engine := h.call c.env c.io (sys.session c.client) c.sql
      have hrest := ih hnext (fun x hx => hne x (List.mem_cons_of_mem _ hx))
        (fun x hx => hgood x (List.mem_cons_of_mem _ hx))
        (fun x hx => hrevert x (List.mem_cons_of_mem _ hx))
      simp only [RelSystem.run, System.run, List.map_cons]
      rw [hstep]
      dsimp only
      rw [hrest]

set_option maxRecDepth 4000 in
/-- The first client deletes a row in a transaction and looks, while the second
one looks too. -/
theorem engine_refines_relations_sampleRequests :
    (abstraction sampleSystem).run (sampleBegin :: sampleRequests)
      = (abstraction (sampleSystem.run (sampleBegin :: sampleRequests)).1,
        (sampleSystem.run (sampleBegin :: sampleRequests)).2.map fun p => answerOf p.2) := by
  refine engine_refines_relations reachable_sampleSystem (by decide +kernel) ?_
    (by decide +kernel)
  intro c hc
  simp only [sampleRequests, List.mem_cons, List.not_mem_nil, or_false] at hc
  rcases hc with rfl | rfl | rfl | rfl <;> rfl

end CustomDbms.Core
