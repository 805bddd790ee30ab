/-
  CustomDbms.Core.RowIdReuse
  ──────────────────────────
  **WHICH INSERT USES A ROW ID AGAIN.**

  As long as no REVERT goes back behind the CREATE TABLE of its table, table
  and log bear no ids but those `Insert` has assigned, and these have no gaps:
  the counter follows a stored id.  An INSERT that finds the greatest recorded
  id gone therefore starts with an id that was assigned before.

    • `Numbers.reuses` — the step;
    • `assigned_once_iff` — the condition of `rowIds_assigned_once` is exact.
-/
import CustomDbms.Core.RowIds

namespace CustomDbms.Core

open CustomDbms.Common CustomDbms.Catalog CustomDbms.Execution CustomDbms.Index CustomDbms.Lib
open CustomDbms.Parser CustomDbms.Planner CustomDbms.Storage CustomDbms.Versioning

variable {env : Env} {d t : Str} {s : Store} {ids : List Nat}

/-! ## §1. No gaps, and no other ids. -/

/-- What a run keeps in which no REVERT goes back behind the CREATE TABLE: the
assigned ids have no gaps, and table and log bear no others. -/
structure IdsExact (d t : Str) (s : Store) (ids : List Nat) : Prop where
  closed : ∀ i ∈ ids, ∀ j < i, j ∈ ids
  bears : ∀ rows, storeRows s d t = some rows → BearsIds ids s.versions d t rows

theorem bearsOnly_iff : EachTable (BearsOnly ids d t) s ↔
    ∀ rows, storeRows s d t = some rows → BearsIds ids s.versions d t rows := by
  constructor
  · intro h rows hrows
    rw [storeRows_eq, Option.map_eq_some_iff] at hrows
    obtain ⟨table, htable, rfl⟩ := hrows
    obtain ⟨db, hdb, ht⟩ := storeTable_eq_some.mp htable
    exact h d db t table hdb ht rfl rfl
  · intro h d' db t' table hdb ht hd ht'
    subst hd ht'
    exact h _ (storeRows_of_some (storeTable_eq_some.mpr ⟨db, hdb, ht⟩))

theorem IdsExact.stored (h : IdsExact d t s ids) : ∀ i ∈ storedIds s d t, i ∈ ids := by
  intro i hi
  unfold storedIds at hi
  cases hrows : storeRows s d t with
  | none =>
      rw [hrows] at hi
      cases hi
  | some rows =>
      rw [hrows] at hi
      obtain ⟨row, hrow, hid⟩ := List.mem_filterMap.mp hi
      exact (h.bears rows hrows).rows row hrow i hid

theorem idsExact_after (hclosed : ∀ i ∈ ids, ∀ j < i, j ∈ ids)
    (hbears : EachTable (BearsOnly ids d t) s) : IdsExact d t s (idsAfter d t s ids) := by
  unfold idsAfter
  cases hrows : storeRows s d t with
  | none => exact ⟨by simp, by simp [hrows]⟩
  | some rows => exact ⟨hclosed, bearsOnly_iff.mp hbears⟩

theorem IdsExact.after (h : IdsExact d t s ids) : IdsExact d t s (idsAfter d t s ids) :=
  idsExact_after h.closed (bearsOnly_iff.mpr h.bears)

theorem IdsExact.copy {s' : Store} (h : IdsExact d t s ids) (hcopy : CopyOf d t s s') :
    IdsExact d t s' ids := by
  refine ⟨h.closed, fun rows hrows => ?_⟩
  rw [hcopy.rows] at hrows
  rw [← bearsIds_bare, hcopy.versions, bearsIds_bare]
  exact h.bears rows hrows

/-! ## §2. One statement. -/

/-- Numbers from the counter on leave no gap. -/
theorem Numbers.closed {s' : Store} {next count : Nat} (h : Numbers d t s s' next count)
    (hexact : IdsExact d t s ids) :
    ∀ i ∈ ids ++ List.range' next (count + 1),
      ∀ j < i, j ∈ ids ++ List.range' next (count + 1) := by
  have hbelow : ∀ j < next, j ∈ ids := by
    intro j hj
    rcases h.follows with hzero | hlast
    · omega
    · have hmem := hexact.stored _ hlast
      by_cases heq : j = next - 1
      · exact heq ▸ hmem
      · exact hexact.closed _ hmem j (by omega)
  intro i hi j hj
  rw [List.mem_append, List.mem_range'_1] at hi ⊢
  rcases hi with hi | hi
  · exact .inl (hexact.closed i hi j hj)
  · by_cases hlt : j < next
    · exact .inl (hbelow j hlt)
    · right
      omega

/-- **Where the condition fails, the first id is one that was assigned before.** -/
theorem Numbers.reuses {s' : Store} {next count : Nat} (h : Numbers d t s s' next count)
    (hexact : IdsExact d t s ids) (hnot : ¬ GreatestKept d t s)
    (hrecorded : ∀ i ∈ recordedIds s.versions d t, i ∈ ids) : next ∈ ids := by
  unfold GreatestKept at hnot
  push Not at hnot
  obtain ⟨i, hi, habove⟩ := hnot
  have hle : next ≤ i := by
    rcases h.follows with hzero | hlast
    · omega
    · have := habove _ hlast
      omega
  rcases Nat.lt_or_eq_of_le hle with hlt | heq
  · exact hexact.closed i (hrecorded i hi) next hlt
  · exact heq ▸ hrecorded i hi

/-- The ids a table bears after an INSERT. -/
theorem stored_after_insert (hok : StateOk s.runtime) {session : SessionContext}
    {stmt : InsertStatement} :
    ∀ i ∈ storedIds (withTable s session stmt.tableName (executeInsert env stmt)).1 d t,
      i ∈ storedIds s d t ∨ i ∈ assignedIds d t s
        (withTable s session stmt.tableName (executeInsert env stmt)).1 (.insert stmt) := by
  intro i hi
  rcases insert_cases env hok session stmt d t with ⟨-, hsame⟩ | ⟨-, next, count, hnum⟩
  · exact .inl (hsame ▸ hi)
  · rw [hnum.assigned]
    rw [hnum.stored] at hi
    exact List.mem_append.mp hi

/-- **Table and log bear assigned ids only**, after a statement as before. -/
theorem IdsExact.execute (h : IdsExact d t s ids) (hok : StateOk s.runtime)
    {session : SessionContext} {statement : Statement} (detail : Str)
    (hno : revertsPastCreation s session statement = false) :
    EachTable (BearsOnly (ids ++ assignedIds d t s
        (execute env s session statement detail).1 statement) d t)
      (execute env s session statement detail).1 := by
  have hbefore := bearsOnly_iff.mpr fun rows hrows =>
    (h.bears rows hrows).mono (List.subset_append_left ids
      (assignedIds d t s (Execution.execute env s session statement detail).1 statement))
  apply execute_bears env hok hbefore session detail hno
  rintro stmt db table rfl rfl hon row hrow i hid
  have hstore := storeTable_withTable hon (executeInsert env stmt) d stmt.tableName.objectName
  rw [if_pos ⟨rfl, rfl⟩] at hstore
  have hmem : i ∈ storedIds (withTable s session stmt.tableName (executeInsert env stmt)).1 d
      stmt.tableName.objectName := by
    rw [storedIds_of_some hstore]
    exact List.mem_filterMap.mpr ⟨row, hrow, hid⟩
  rcases stored_after_insert hok i hmem with hi | hi
  · exact List.mem_append_left _ (h.stored i hi)
  · exact List.mem_append_right _ hi

/-- What a statement assigns leaves no gap. -/
theorem IdsExact.closed_assigned (h : IdsExact d t s ids) (hok : StateOk s.runtime)
    (session : SessionContext) (statement : Statement) (detail : Str) :
    ∀ i ∈ ids ++ assignedIds d t s (Execution.execute env s session statement detail).1 statement,
      ∀ j < i, j ∈ ids ++ assignedIds d t s
        (Execution.execute env s session statement detail).1 statement := by
  cases statement with
  | insert stmt =>
      change ∀ i ∈ ids ++ assignedIds d t s (withTable s session stmt.tableName
        (executeInsert env stmt)).1 _, ∀ j < i, j ∈ ids ++ assignedIds d t s (withTable s session
          stmt.tableName (executeInsert env stmt)).1 _
      rcases insert_cases env hok session stmt d t with ⟨-, hsame⟩ | ⟨-, next, count, hnum⟩
      · rw [assignedIds_of_stored hsame, List.append_nil]
        exact h.closed
      · rw [hnum.assigned]
        exact hnum.closed h
  | _ =>
      simp only [assignedIds, List.append_nil]
      exact h.closed

/-! ## §3. Runs. -/

/-- The statement is no REVERT behind the CREATE TABLE of its table. -/
def RevertsWithin (s : Store) (session : SessionContext) (statement : Statement) : Prop :=
  revertsPastCreation s session statement = false

theorem TableRun.idsExact (h : TableRun RevertsWithin Restorable d t s ids) :
    IdsExact d t s ids := by
  induction h with
  | start =>
      have hnone : storeRows Store.empty d t = none := rfl
      exact ⟨by simp, by simp [hnone]⟩
  | @statement s ids statement h env session sql hparse hstays ih =>
      rcases runStatement_store env s session statement with hsame | ⟨detail, hrun⟩
      · rw [hsame, assignedIds_of_stored rfl, List.append_nil]
        exact ih.after
      · rw [hrun]
        exact idsExact_after (ih.closed_assigned h.idsOk.state session statement detail)
          (ih.execute h.idsOk.state detail hstays)
  | copied h hclone ih => exact ih.copy (copyOf_clone h.idsOk.state hclone)
  | restarted h hrestart directory ih =>
      exact (ih.copy (copyOf_loaded h.idsOk.state hrestart directory)).after

/-- **No weaker condition will do**: as long as no id has been assigned twice,
and no REVERT has gone back behind the CREATE TABLE, the next statement assigns
none twice exactly when it meets the condition. -/
theorem assigned_once_iff (h : TableRun RevertsWithin Restorable d t s ids) (hnodup : ids.Nodup)
    (env : Env) (session : SessionContext) (statement : Statement) :
    (ids ++ assignedIds d t s (runStatement env s session statement).1 statement).Nodup ↔
      InsertsOnTop d t s session statement := by
  constructor
  · intro hnext hstores
    by_contra hnot
    cases statement with
    | insert stmt =>
        rcases insert_cases env h.idsOk.state session stmt d t with
          ⟨hno, -⟩ | ⟨-, next, count, hnum⟩
        · exact hno hstores
        · have hassigned : assignedIds d t s (runStatement env s session (.insert stmt)).1
              (.insert stmt) = List.range' next (count + 1) := hnum.assigned stmt
          rw [hassigned, List.nodup_append] at hnext
          obtain ⟨db, table, ht, hon, -⟩ := hstores
          have hrows : storeRows s d t = some table.heap.rows :=
            storeRows_of_some (ht ▸ storeTable_of_onTable hon)
          have hreused := hnum.reuses h.idsExact hnot (h.idsExact.bears _ hrows).recorded
          exact hnext.2.2 next hreused next (by simp) rfl
    | _ => exact hstores
  · exact h.idsOk.nodup_assigned hnodup env

end CustomDbms.Core
