/-
  CustomDbms.Core.RelationalModel
  ───────────────────────────────
  **WHAT THE ENGINE IS FOR: RELATIONS AND SNAPSHOTS.**

  An abstract database.  A table is a relation, a schema with a bag of tuples;
  it has no row ids, no heap and no trees, and there is no plan, no log and no
  disk.  A statement on one table is a function of its relation
  (`onRelation`), the others add and remove names (`Relations.execute`).  A
  transaction works on a copy of all relations, which its COMMIT puts in place
  of the committed ones (`RelSystem.step`).

  The engine's own functions evaluate clauses and assignments, on one tuple at
  a time.  REVERT, which reads the log, has no meaning here.
-/
import CustomDbms.Core.SerialCommits
import CustomDbms.Execution.ExactAggregates
import Mathlib

namespace CustomDbms.Core

open CustomDbms.Common CustomDbms.Catalog CustomDbms.Execution CustomDbms.Lib CustomDbms.Parser

/-! ## §1. Relations. -/

/-- A row without its id. -/
abbrev Tuple := List Value

/-- A table: its schema and a bag of tuples. -/
structure Relation where
  schema : TableSchema
  tuples : Multiset Tuple

/-- The databases that exist, each with the relations that exist in it. -/
abbrev Relations := Str → Option (Str → Option Relation)

/-- The tuples of an answer; `none` where the statement is refused. -/
abbrev Answer := Option (Multiset Tuple)

/-- A relation put in place of a table, or a table taken away. -/
def Relations.replace (R : Relations) (d t : Str) (r : Option Relation) : Relations :=
  Function.update R d ((R d).map fun tables => Function.update tables t r)

/-- The key of a tuple in an INDEXED column. -/
def tupleKey (schema : TableSchema) (n : Str) (t : Tuple) : Option Str :=
  indexKey schema n (rowOf t)

/-- **What INDEXED asks of a bag**: in each such column every tuple has a key,
and no two have the same. -/
def Keyed (schema : TableSchema) (B : Multiset Tuple) : Prop :=
  ∀ n ∈ indexedColumns schema,
    (∀ t ∈ B, (tupleKey schema n t).isSome = true) ∧ (B.map (tupleKey schema n)).Nodup

instance (schema : TableSchema) (B : Multiset Tuple) : Decidable (Keyed schema B) := by
  unfold Keyed
  infer_instance

/-! ## §2. Statements on one relation. -/

/-- The tuple that one input row of an INSERT stands for. -/
def inputTuple (schema : TableSchema) (map : List Nat) (input : List Expression) : Option Tuple :=
  match buildInsertRow schema map input with
  | .ok row => some row.values
  | _ => none

/-- Input rows enter one by one, up to the first that is none or is refused. -/
def enter (schema : TableSchema) (map : List Nat) :
    List (List Expression) → Multiset Tuple → Multiset Tuple × Bool
  | [], B => (B, true)
  | input :: inputs, B =>
      match inputTuple schema map input with
      | none => (B, false)
      | some t => if Keyed schema (t ::ₘ B) then enter schema map inputs (t ::ₘ B) else (B, false)

/-- All tuples are rewritten at once, or none. -/
def rewriteAll (re : RegexMatch) (schema : TableSchema) (statement : Statement)
    (B : Multiset Tuple) : Option (Multiset Tuple) :=
  if (∀ t ∈ B, (writtenValues re schema statement t).isOk = true) ∧
      Keyed schema (B.filterMap (written re schema statement)) then
    some (B.filterMap (written re schema statement))
  else none

/-- The tuples a clause selects. -/
def selectTuples (re : RegexMatch) (schema : TableSchema) (clause : Option Expression)
    (B : Multiset Tuple) : Option (Multiset Tuple) :=
  match selection re schema clause with
  | .ok select =>
      if ∀ t ∈ B, (select t).isOk = true then some (B.filter fun t => taken select t = true)
      else none
  | _ => none

/-- The numbers of a column, NULLs left out. -/
def numbersAt (i : Nat) (B : Multiset Tuple) : Multiset Int := B.filterMap fun t => t[i]?.bind intOf

/-- A text in a column. -/
def textAt (i : Nat) (t : Tuple) : Bool :=
  t[i]?.any fun v => match v with
    | .string _ => true
    | _ => false

/-- An aggregate over a column, in 64 bits. -/
def aggregateColumn (i : Nat) (B : Multiset Tuple) : AggregateKind → Option Value
  | .count => some (.int (Int64.ofNat (B.countP fun t => (t[i]?.any fun v => !isNull v) = true)))
  | .sum =>
      if ∀ t ∈ B, textAt i t = false then some (.int (Int64.ofInt (numbersAt i B).sum)) else none
  | .avg =>
      if ∀ t ∈ B, textAt i t = false then
        some (if Int64.ofNat (numbersAt i B).card = 0 then .null
          else .int (Int64.ofInt (numbersAt i B).sum / Int64.ofNat (numbersAt i B).card))
      else none

/-- One item of an aggregate query. -/
def aggregateTuples (schema : TableSchema) (B : Multiset Tuple) (item : SelectItem) :
    Option Value :=
  match item.aggregate with
  | none => none
  | some kind =>
      if item.columnName = str "*" then
        if kind = .count then some (.int (Int64.ofNat B.card)) else none
      else (findColumnIndex schema item.columnName).bind fun i => aggregateColumn i B kind

/-- The tuples a select list makes of those that are selected: one of
aggregates, or the projection of each. -/
def answerTuples (schema : TableSchema) (items : List SelectItem) (B : Multiset Tuple) : Answer :=
  if isAggregate items then (items.mapM (aggregateTuples schema B)).map fun t => {t}
  else if ∀ t ∈ B, (projectRow schema items (rowOf t)).isOk = true then
    some (B.map (projection schema items))
  else none

/-- INSERT: what has entered stays, also where a later row is refused. -/
def insertInto (stmt : InsertStatement) (r : Relation) : Relation × Answer :=
  match insertColumnMap r.schema stmt.columnNames with
  | .ok map =>
      let e := enter r.schema map stmt.rows r.tuples
      (⟨r.schema, e.1⟩, if e.2 then some 0 else none)
  | _ => (r, none)

/-- UPDATE and DELETE. -/
def writeTo (re : RegexMatch) (statement : Statement) (r : Relation) : Relation × Answer :=
  match rewriteAll re r.schema statement r.tuples with
  | some B => (⟨r.schema, B⟩, some 0)
  | none => (r, none)

/-- SELECT. -/
def selectFrom (re : RegexMatch) (stmt : SelectStatement) (r : Relation) : Answer :=
  (selectTuples re r.schema stmt.whereClause r.tuples).bind (answerTuples r.schema stmt.items)

/-- A statement on the relation it names. -/
def onRelation (re : RegexMatch) (statement : Statement) (r : Relation) : Relation × Answer :=
  match statement with
  | .insert stmt => insertInto stmt r
  | .update _ | .delete _ => writeTo re statement r
  | .select stmt => (r, selectFrom re stmt r)
  | _ => (r, none)

/-! ## §3. Statements on the databases. -/

/-- The database a name is looked up in. -/
def databaseOf (session : SessionContext) (name : QualifiedName) : Option Str :=
  match resolveDatabaseName session name.databaseName with
  | .ok d => some d
  | _ => none

/-- A statement on the table `name`, where there is one. -/
def Relations.onTable (re : RegexMatch) (R : Relations) (session : SessionContext)
    (name : QualifiedName) (statement : Statement) : Relations × Answer :=
  match databaseOf session name with
  | none => (R, none)
  | some d =>
      match (R d).bind fun tables => tables name.objectName with
      | none => (R, none)
      | some r =>
          let r' := onRelation re statement r
          (R.replace d name.objectName (some r'.1), r'.2)

/-- **One statement.** -/
def Relations.execute (re : RegexMatch) (R : Relations) (session : SessionContext)
    (statement : Statement) : Relations × SessionContext × Answer :=
  match statement with
  | .createDatabase name =>
      if (R name).isSome then (R, session, none)
      else (Function.update R name (some fun _ => none), session, some 0)
  | .useDatabase name =>
      if (R name).isSome then (R, { session with currentDatabase := name }, some 0)
      else (R, session, none)
  | .dropDatabase name =>
      if (R name).isSome then
        (Function.update R name none,
          if session.currentDatabase = name then { session with currentDatabase := [] }
          else session, some 0)
      else (R, session, none)
  | .createTable stmt =>
      match databaseOf session stmt.tableName with
      | none => (R, session, none)
      | some d =>
          match R d with
          | none => (R, session, none)
          | some tables =>
              if (tables stmt.tableName.objectName).isSome then (R, session, none)
              else (R.replace d stmt.tableName.objectName (some ⟨schemaOf d stmt, 0⟩), session,
                some 0)
  | .dropTable name =>
      match databaseOf session name with
      | none => (R, session, none)
      | some d =>
          match (R d).bind fun tables => tables name.objectName with
          | none => (R, session, none)
          | some _ => (R.replace d name.objectName none, session, some 0)
  | .insert stmt =>
      let r := R.onTable re session stmt.tableName statement
      (r.1, session, r.2)
  | .update stmt =>
      let r := R.onTable re session stmt.tableName statement
      (r.1, session, r.2)
  | .delete stmt =>
      let r := R.onTable re session stmt.tableName statement
      (r.1, session, r.2)
  | .select stmt =>
      let r := R.onTable re session stmt.tableName statement
      (r.1, session, r.2)
  | .checkIndex | .rebuildIndex => (R, session, some 0)
  | _ => (R, session, none)

/-! ## §4. Clients and transactions. -/

/-- The committed relations; for each client its current database and, inside a
transaction, its copy. -/
structure RelSystem where
  committed : Relations
  working : Str → Option Relations
  current : Str → Str

namespace RelSystem

/-- The end of a client's transaction. -/
def close (S : RelSystem) (client : Str) : RelSystem :=
  { S with working := Function.update S.working client none }

/-- A statement that is not about transactions. -/
def execute (S : RelSystem) (c : Request) (statement : Statement) : RelSystem × Answer :=
  match S.working c.client with
  | none =>
      let r := S.committed.execute c.env.regexMatch ⟨c.client, S.current c.client⟩ statement
      ({ S with
          committed := r.1
          current := Function.update S.current c.client r.2.1.currentDatabase }, r.2.2)
  | some R =>
      if runsInTransaction statement then
        let r := R.execute c.env.regexMatch ⟨c.client, S.current c.client⟩ statement
        ({ S with
            working := Function.update S.working c.client (some r.1)
            current := Function.update S.current c.client r.2.1.currentDatabase }, r.2.2)
      else (S, none)

/-- **One request.** -/
def step (S : RelSystem) (c : Request) : RelSystem × Answer :=
  match parse c.sql with
  | .ok .beginTransaction =>
      match S.working c.client with
      | some _ => (S, none)
      | none => ({ S with working := Function.update S.working c.client (some S.committed) }, some 0)
  | .ok .commitTransaction =>
      match S.working c.client with
      | some R => ({ S.close c.client with committed := R }, some 0)
      | none => (S, none)
  | .ok .rollbackTransaction =>
      match S.working c.client with
      | some _ => (S.close c.client, some 0)
      | none => (S, none)
  | .ok statement => S.execute c statement
  | _ => (S, none)

/-- A run: the requests in their order, with their answers. -/
def run : RelSystem → List Request → RelSystem × List Answer
  | S, [] => (S, [])
  | S, c :: cs =>
      let r := S.step c
      let rs := run r.1 cs
      (rs.1, r.2 :: rs.2)

end RelSystem

end CustomDbms.Core
