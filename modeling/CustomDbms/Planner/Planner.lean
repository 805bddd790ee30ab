/-
  CustomDbms.Planner.Planner
  ──────────────────────────
  **PLANS** (`src/planner/{plan.hpp,planner.cpp}`).

  A plan carries its statement along; the executor reads the statement and,
  for one message, the detail text of the root.
-/
import CustomDbms.Core.RuntimeState
import CustomDbms.Parser.Ast

namespace CustomDbms.Planner

open CustomDbms.Common CustomDbms.Core CustomDbms.Lib CustomDbms.Parser

/-- `PlanNodeKind`. -/
inductive PlanNodeKind where
  | createDatabase | dropDatabase | useDatabase | createTable | dropTable | seqScan | indexScan
  | filter | project | aggregate | insert | update | delete | revert | beginTransaction
  | commitTransaction | rollbackTransaction | checkIndex | rebuildIndex | remoteShardDispatch
  deriving Repr, DecidableEq

/-- `PlanNode`. -/
inductive PlanNode where
  | mk (kind : PlanNodeKind) (detail : Str) (statement : Statement) (children : List PlanNode)

namespace PlanNode

/-- The kind of the root. -/
def kind : PlanNode → PlanNodeKind
  | mk k _ _ _ => k

/-- The text of the root. -/
def detail : PlanNode → Str
  | mk _ d _ _ => d

/-- The statement of the root. -/
def statement : PlanNode → Statement
  | mk _ _ s _ => s

end PlanNode

/-- `QualifiedNameToString`. -/
def qualifiedNameToString (name : QualifiedName) : Str :=
  match name.databaseName with
  | some d => d ++ str "." ++ name.objectName
  | none => name.objectName

/-- One item of `SelectItemsSummary`. -/
def selectItemSummary (item : SelectItem) : Str :=
  (match item.aggregate with
    | some .sum => str "SUM(" ++ item.columnName ++ str ")"
    | some .count => str "COUNT(" ++ item.columnName ++ str ")"
    | some .avg => str "AVG(" ++ item.columnName ++ str ")"
    | none => item.columnName)
    ++ (match item.aliasName with
      | some a => str " AS " ++ a
      | none => [])

/-- `SelectItemsSummary`. -/
def selectItemsSummary (items : List SelectItem) : Str :=
  match items with
  | [item] => if item.isWildcard then str "*" else selectItemSummary item
  | _ => (str ", ").intercalate (items.map selectItemSummary)

/-- `ExtractIndexedCandidateColumn`. -/
def extractIndexedCandidateColumn : Expression → Option Str
  | .binaryComparison op (.columnReference _ _ column) (.literal _) =>
      if op = .notEqual then none else some column
  | .between (.columnReference _ _ column) (.literal _) (.literal _) => some column
  | _ => none

/-- `TableHasIndexOnColumn`. -/
def tableHasIndexOnColumn (state : RuntimeState) (name : QualifiedName) (column : Str) : Bool :=
  match name.databaseName with
  | none => false
  | some db =>
      match state.databases.find? db with
      | none => false
      | some d =>
          match d.tables.find? name.objectName with
          | none => false
          | some table => table.indexes.contains column

/-- The scan node of a `SELECT`. -/
def scanNode (state : RuntimeState) (stmt : SelectStatement) : PlanNode :=
  let name := qualifiedNameToString stmt.tableName
  let seq := PlanNode.mk .seqScan (str "scan " ++ name) (.select stmt) []
  match stmt.whereClause.bind extractIndexedCandidateColumn with
  | none => seq
  | some column =>
      if tableHasIndexOnColumn state stmt.tableName column then
        .mk .indexScan (str "index scan " ++ name ++ str " on " ++ column) (.select stmt) []
      else seq

/-- The plan of a `SELECT`. -/
def selectPlan (state : RuntimeState) (stmt : SelectStatement) : PlanNode :=
  let scan := scanNode state stmt
  let child := if stmt.whereClause.isSome
    then PlanNode.mk .filter (str "filter") (.select stmt) [scan] else scan
  let project := PlanNode.mk .project (str "select " ++ selectItemsSummary stmt.items
    ++ str " from " ++ qualifiedNameToString stmt.tableName) (.select stmt) [child]
  if stmt.items.head?.any (·.aggregate.isSome) then
    .mk .aggregate (str "aggregate") (.select stmt) [project]
  else project

/-- `Planner::BuildPlan`. -/
def buildPlan (state : RuntimeState) (statement : Statement) : Result PlanNode :=
  match statement with
  | .createDatabase d => .ok (.mk .createDatabase (str "create database " ++ d) statement [])
  | .dropDatabase d => .ok (.mk .dropDatabase (str "drop database " ++ d) statement [])
  | .useDatabase d => .ok (.mk .useDatabase (str "use database " ++ d) statement [])
  | .createTable stmt => .ok (.mk .createTable
      (str "create table " ++ qualifiedNameToString stmt.tableName) statement [])
  | .dropTable name => .ok (.mk .dropTable
      (str "drop table " ++ qualifiedNameToString name) statement [])
  | .insert stmt => .ok (.mk .insert (str "insert into " ++ qualifiedNameToString stmt.tableName
      ++ str " rows=" ++ natToString stmt.rows.length) statement [])
  | .update stmt => .ok (.mk .update (str "update " ++ qualifiedNameToString stmt.tableName
      ++ str " assignments=" ++ natToString stmt.assignments.length) statement [])
  | .delete stmt => .ok (.mk .delete
      (str "delete from " ++ qualifiedNameToString stmt.tableName) statement [])
  | .select stmt => .ok (selectPlan state stmt)
  | .revert stmt => .ok (.mk .revert (str "revert " ++ qualifiedNameToString stmt.tableName
      ++ str " to " ++ stmt.timestamp) statement [])
  | .beginTransaction => .ok (.mk .beginTransaction (str "begin transaction") statement [])
  | .commitTransaction => .ok (.mk .commitTransaction (str "commit transaction") statement [])
  | .rollbackTransaction =>
      .ok (.mk .rollbackTransaction (str "rollback transaction") statement [])
  | .checkIndex => .ok (.mk .checkIndex (str "check index") statement [])
  | .rebuildIndex => .ok (.mk .rebuildIndex (str "rebuild index") statement [])
  | .unknown _ => .makeError .parseError (str "cannot build plan for unknown statement")

/-- **A plan carries the statement it was built for.** -/
theorem buildPlan_statement {state : RuntimeState} {statement : Statement} {plan : PlanNode}
    (h : buildPlan state statement = .ok plan) : plan.statement = statement := by
  cases statement with
  | unknown raw => cases h
  | select stmt =>
      cases h
      simp only [selectPlan]
      by_cases ha : stmt.items.head?.any (·.aggregate.isSome) = true
      · rw [if_pos ha]; rfl
      · rw [if_neg ha]; rfl
  | _ => cases h; rfl

/-- Planning fails, without a fault, on an unknown statement only. -/
theorem buildPlan_ok {state : RuntimeState} {statement : Statement}
    (h : ∀ raw, statement ≠ .unknown raw) : ∃ plan, buildPlan state statement = .ok plan := by
  cases statement with
  | unknown raw => exact absurd rfl (h raw)
  | _ => exact ⟨_, rfl⟩

end CustomDbms.Planner
