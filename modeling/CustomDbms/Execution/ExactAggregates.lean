/-
  CustomDbms.Execution.ExactAggregates
  ────────────────────────────────────
  **WHAT COUNT, SUM AND AVG RETURN.**

  The loops of an aggregate SELECT count and add in `std::int64_t`.  Whatever
  overflows on the way, the accumulators end at the exact numbers modulo 2^64,
  so a result is exact where the exact number fits and wrapped where it does
  not.

    • `intsAt`, `presentAt` — the numbers of a column, and how many of its
      values are not NULL;
    • `sumStep_foldList`, `countStep_foldList` — where the loops end;
    • `aggregates_exact_iff` — every aggregate of a selection is exact or
      refused just where its sums fit in 64 bits.
-/
import CustomDbms.Core.TableStatements
import CustomDbms.Execution.SelectedRows
import CustomDbms.Execution.WhereErrors
import Mathlib.Algebra.Ring.Int.Defs

namespace CustomDbms.Execution

open CustomDbms.Common CustomDbms.Catalog CustomDbms.Core CustomDbms.Lib CustomDbms.Parser
open CustomDbms.Storage

/-! ## §1. The numbers of a column. -/

/-- The number of a value. -/
def intOf : Value → Option Int
  | .int n => some n.toInt
  | _ => none

/-- The numbers that rows hold at a position. -/
def intsAt (i : Nat) (rows : List RowData) : List Int :=
  rows.filterMap fun row => row.values[i]?.bind intOf

/-- How many rows hold a value other than NULL there. -/
def presentAt (i : Nat) (rows : List RowData) : Nat :=
  rows.countP fun row => row.values[i]?.any fun v => !isNull v

/-- No row holds a text there. -/
def Numeric (i : Nat) (rows : List RowData) : Prop :=
  ∀ row ∈ rows, ∀ s, row.values[i]? ≠ some (.string s)

/-- Every row reaches that far. -/
def Reaching (i : Nat) (rows : List RowData) : Prop := ∀ row ∈ rows, i < row.values.length

/-- The numbers an `std::int64_t` has. -/
def Fits64 (n : Int) : Prop := -(2 ^ 63 : Int) ≤ n ∧ n < 2 ^ 63

section Loops

variable {i : Nat} {row : RowData} {rows : List RowData}

theorem Numeric.tail (h : Numeric i (row :: rows)) : Numeric i rows :=
  fun r hr => h r (List.mem_cons_of_mem row hr)

theorem Reaching.tail (h : Reaching i (row :: rows)) : Reaching i rows :=
  fun r hr => h r (List.mem_cons_of_mem row hr)

theorem Reaching.head (h : Reaching i (row :: rows)) : ∃ v, row.values[i]? = some v :=
  ⟨_, List.getElem?_eq_getElem (h row (by simp))⟩

/-- **The loop of COUNT.** -/
theorem countStep_foldList (h : Reaching i rows) (count : Int64) :
    Result.foldList (countStep (some i)) count rows
      = .ok (count + Int64.ofNat (presentAt i rows)) := by
  induction rows generalizing count with
  | nil =>
      show Result.ok count = .ok (count + 0)
      rw [Int64.add_zero]
  | cons row rows ih =>
      obtain ⟨v, hat⟩ := h.head
      have hstep : countStep (some i) count row
          = .ok (if isNull v then count else count + 1) := by
        unfold countStep
        dsimp only
        rw [hat]
        rfl
      have hpresent : presentAt i (row :: rows)
          = presentAt i rows + if isNull v then 0 else 1 := by
        unfold presentAt
        rw [List.countP_cons, hat, Option.any_some]
        cases isNull v with
        | true => rfl
        | false => rfl
      rw [Result.foldList_cons, hstep, Result.ok_bind, ih h.tail, hpresent]
      cases isNull v with
      | true => rfl
      | false =>
          rw [if_neg (by decide), if_neg (by decide), Int64.ofNat_add, Int64.add_assoc]
          congr 2
          exact Int64.add_comm _ _

/-- The loop of COUNT(*). -/
theorem countStep_foldList_star (count : Int64) (rows : List RowData) :
    Result.foldList (countStep none) count rows = .ok (count + Int64.ofNat rows.length) := by
  induction rows generalizing count with
  | nil =>
      show Result.ok count = .ok (count + 0)
      rw [Int64.add_zero]
  | cons row rows ih =>
      rw [Result.foldList_cons]
      show Result.foldList (countStep none) (count + 1) rows = _
      rw [ih (count + 1), List.length_cons, Int64.ofNat_add, Int64.add_assoc]
      congr 2
      exact Int64.add_comm _ _

/-- **The loop of SUM and AVG.**  It ends at the sum modulo 2^64, or refuses a
text. -/
theorem sumStep_foldList (h : Reaching i rows) (acc : Int64 × Int64) :
    (Numeric i rows ∧ Result.foldList (sumStep i) acc rows
      = .ok (acc.1 + Int64.ofInt (intsAt i rows).sum,
          acc.2 + Int64.ofNat (intsAt i rows).length)) ∨
    (¬ Numeric i rows ∧ ∃ e, Result.foldList (sumStep i) acc rows = .error e) := by
  induction rows generalizing acc with
  | nil =>
      refine .inl ⟨fun r hr => absurd hr List.not_mem_nil, ?_⟩
      show Result.ok acc = .ok (acc.1 + 0, acc.2 + 0)
      rw [Int64.add_zero, Int64.add_zero]
  | cons row rows ih =>
      obtain ⟨v, hat⟩ := h.head
      have hints : intsAt i (row :: rows) = (intOf v).toList ++ intsAt i rows := by
        unfold intsAt
        rw [List.filterMap_cons, hat, Option.bind_some]
        cases intOf v with
        | none => rfl
        | some n => rfl
      have hnumeric : (∀ s, v ≠ .string s) → (Numeric i (row :: rows) ↔ Numeric i rows) := by
        intro hv
        refine ⟨Numeric.tail, fun hnum r hr s hs => ?_⟩
        rcases List.mem_cons.mp hr with rfl | hr
        · exact hv s (Option.some.inj (hat.symm.trans hs))
        · exact hnum r hr s hs
      rw [Result.foldList_cons, hints]
      unfold sumStep
      rw [hat]
      cases v with
      | null =>
          rw [hnumeric (fun s hs => by cases hs)]
          exact ih h.tail acc
      | int n =>
          rw [hnumeric (fun s hs => by cases hs)]
          refine (ih h.tail (acc.1 + n, acc.2 + 1)).imp (fun hrun => ⟨hrun.1, ?_⟩) id
          refine hrun.2.trans ?_
          show Result.ok _ = Result.ok (acc.1 + Int64.ofInt (n.toInt + (intsAt i rows).sum),
            acc.2 + Int64.ofNat ((intsAt i rows).length + 1))
          rw [Int64.ofInt_add, Int64.ofInt_toInt, Int64.ofNat_add, Int64.add_assoc,
            Int64.add_assoc]
          congr 3
          exact Int64.add_comm _ _
      | string s =>
          exact .inr ⟨fun hnum => hnum row (by simp) s hat, _, rfl⟩

/-- COUNT over a column. -/
theorem aggregateValue_count (h : Reaching i rows) :
    aggregateValue .count (some i) rows = .ok (.int (Int64.ofNat (presentAt i rows))) := by
  show (Result.foldList (countStep (some i)) 0 rows >>= _) = _
  rw [countStep_foldList h, Int64.zero_add]
  rfl

theorem aggregateValue_count_star (rows : List RowData) :
    aggregateValue .count none rows = .ok (.int (Int64.ofNat rows.length)) := by
  show (Result.foldList (countStep none) 0 rows >>= _) = _
  rw [countStep_foldList_star, Int64.zero_add]
  rfl

/-- SUM over a column. -/
theorem aggregateValue_sum (h : Reaching i rows) :
    (Numeric i rows ∧
      aggregateValue .sum (some i) rows = .ok (.int (Int64.ofInt (intsAt i rows).sum))) ∨
    ∃ e, aggregateValue .sum (some i) rows = .error e := by
  show (_ ∧ (Result.foldList (sumStep i) (0, 0) rows >>= _) = _) ∨
    ∃ e, (Result.foldList (sumStep i) (0, 0) rows >>= _) = _
  rcases sumStep_foldList h (0, 0) with ⟨hnum, hrun⟩ | ⟨-, e, herr⟩
  · refine .inl ⟨hnum, ?_⟩
    rw [hrun, Int64.zero_add]
    rfl
  · refine .inr ⟨e, ?_⟩
    rw [herr]
    rfl

/-- AVG over a column. -/
theorem aggregateValue_avg (h : Reaching i rows) :
    (Numeric i rows ∧ aggregateValue .avg (some i) rows
      = .ok (if Int64.ofNat (intsAt i rows).length = 0 then .null
          else .int (Int64.ofInt (intsAt i rows).sum / Int64.ofNat (intsAt i rows).length))) ∨
    ∃ e, aggregateValue .avg (some i) rows = .error e := by
  show (_ ∧ (Result.foldList (sumStep i) (0, 0) rows >>= _) = _) ∨
    ∃ e, (Result.foldList (sumStep i) (0, 0) rows >>= _) = _
  rcases sumStep_foldList h (0, 0) with ⟨hnum, hrun⟩ | ⟨-, e, herr⟩
  · refine .inl ⟨hnum, ?_⟩
    rw [hrun, Int64.zero_add, Int64.zero_add]
    rfl
  · refine .inr ⟨e, ?_⟩
    rw [herr]
    rfl

end Loops

/-! ## §2. Exact answers. -/

/-- The value is the number `n`. -/
def IsInt (v : Value) (n : Int) : Prop := ∃ k : Int64, v = .int k ∧ k.toInt = n

/-- What an aggregate of a column is to return; SUM and AVG are asked of INT
columns. -/
def ColumnExact (type : ValueType) (i : Nat) (rows : List RowData) (v : Value) :
    AggregateKind → Prop
  | .count => IsInt v (presentAt i rows)
  | .sum => type = .int64 → IsInt v (intsAt i rows).sum
  | .avg => type = .int64 →
      if intsAt i rows = [] then v = .null
      else IsInt v ((intsAt i rows).sum.tdiv (intsAt i rows).length)

/-- What an item is to return for the selected rows. -/
def ItemExact (schema : TableSchema) (rows : List RowData) (item : SelectItem) (v : Value) :
    Prop :=
  ∀ kind, item.aggregate = some kind →
    if item.columnName = str "*" then kind = .count → IsInt v rows.length
    else ∀ i c, findColumnIndex schema item.columnName = some i → schema.columns[i]? = some c →
      ColumnExact c.type i rows v kind

/-- One row of exact values, or an error. -/
def AnswersExactly (schema : TableSchema) (rows : List RowData) (items : List SelectItem)
    (answer : Result QueryResult) : Prop :=
  (∃ e, answer = .error e) ∨
    ∃ q row, answer = .ok q ∧ q.rows = [row] ∧
      List.Forall₂ (ItemExact schema rows) items row.values

/-- The sums of the INT columns fit in 64 bits, and so does the number of
rows. -/
def SumsFit (schema : TableSchema) (rows : List RowData) : Prop :=
  Fits64 rows.length ∧
    ∀ n i c, n ≠ str "*" → findColumnIndex schema n = some i → schema.columns[i]? = some c →
      c.type = .int64 → Numeric i rows → Fits64 (intsAt i rows).sum

section Exact

variable {schema : TableSchema} {rows : List RowData}

theorem toInt_ofInt_iff {n : Int} : (Int64.ofInt n).toInt = n ↔ Fits64 n := by
  constructor
  · intro h
    exact ⟨h ▸ Int64.le_toInt _, h ▸ Int64.toInt_lt _⟩
  · rintro ⟨hlo, hhi⟩
    exact Int64.toInt_ofInt_of_le hlo hhi

theorem toInt_ofNat_iff {n : Nat} : (Int64.ofNat n).toInt = n ↔ Fits64 n := by
  rw [← toInt_ofInt_iff]
  rfl

theorem presentAt_le (i : Nat) (rows : List RowData) : presentAt i rows ≤ rows.length :=
  List.countP_le_length

theorem length_intsAt_le (i : Nat) (rows : List RowData) :
    (intsAt i rows).length ≤ rows.length :=
  List.length_filterMap_le _ _

theorem Fits64.of_le {m n : Nat} (h : Fits64 n) (hle : m ≤ n) : Fits64 m := by
  unfold Fits64 at h ⊢
  omega

/-- An average that fits is the quotient, truncated toward zero. -/
theorem toInt_average {sum : Int} {count : Nat} (hsum : Fits64 sum) (hcount : Fits64 count)
    (hpos : 0 < count) :
    (Int64.ofInt sum / Int64.ofNat count).toInt = sum.tdiv count := by
  have hne : Int64.ofNat count ≠ -1 := by
    intro heq
    have hvalue := toInt_ofNat_iff.mpr hcount
    rw [heq] at hvalue
    have hminus : (-1 : Int64).toInt = -1 := rfl
    omega
  rw [Int64.toInt_div_of_ne_right _ _ hne, toInt_ofInt_iff.mpr hsum,
    toInt_ofNat_iff.mpr hcount]

/-- An aggregate of a column, where the numbers fit. -/
theorem aggregateValue_exact {i : Nat} {type : ValueType} (hreach : Reaching i rows)
    (hcount : Fits64 rows.length)
    (hsum : type = .int64 → Numeric i rows → Fits64 (intsAt i rows).sum) (kind : AggregateKind) :
    (∃ e, aggregateValue kind (some i) rows = .error e) ∨
      ∃ v, aggregateValue kind (some i) rows = .ok v ∧ ColumnExact type i rows v kind := by
  cases kind with
  | count =>
      refine .inr ⟨_, aggregateValue_count hreach, _, rfl, ?_⟩
      exact toInt_ofNat_iff.mpr (hcount.of_le (presentAt_le i rows))
  | sum =>
      rcases aggregateValue_sum hreach with ⟨hnum, hrun⟩ | herr
      · refine .inr ⟨_, hrun, fun htype => ⟨_, rfl, ?_⟩⟩
        exact toInt_ofInt_iff.mpr (hsum htype hnum)
      · exact .inl herr
  | avg =>
      rcases aggregateValue_avg hreach with ⟨hnum, hrun⟩ | herr
      · refine .inr ⟨_, hrun, fun htype => ?_⟩
        have hlen := hcount.of_le (length_intsAt_le i rows)
        by_cases hnil : intsAt i rows = []
        · rw [if_pos hnil, hnil]
          rfl
        · have hpos : 0 < (intsAt i rows).length := List.length_pos_iff.mpr hnil
          have hne : ¬ Int64.ofNat (intsAt i rows).length = 0 := by
            intro heq
            have hvalue := toInt_ofNat_iff.mpr hlen
            rw [heq] at hvalue
            have hzero : (0 : Int64).toInt = 0 := rfl
            omega
          rw [if_neg hnil, if_neg hne]
          exact ⟨_, rfl, toInt_average (hsum htype hnum) hlen hpos⟩
      · exact .inl herr

/-- **One item, where the numbers fit.** -/
theorem aggregateItem_exact (hfit : SumsFit schema rows)
    (hreach : ∀ i < schema.columns.length, Reaching i rows) (item : SelectItem) :
    (∃ e, aggregateItem schema rows item = .error e) ∨
      ∃ v, aggregateItem schema rows item = .ok v ∧ ItemExact schema rows item v := by
  unfold aggregateItem ItemExact
  cases hkind : item.aggregate with
  | none => exact .inl ⟨_, rfl⟩
  | some kind =>
      dsimp only
      by_cases hstar : item.columnName = str "*"
      · rw [if_pos hstar]
        cases kind with
        | count =>
            refine .inr ⟨_, aggregateValue_count_star rows, ?_⟩
            intro kind _
            rw [if_pos hstar]
            exact fun _ => ⟨_, rfl, toInt_ofNat_iff.mpr hfit.1⟩
        | sum => exact .inl ⟨_, rfl⟩
        | avg => exact .inl ⟨_, rfl⟩
      · rw [if_neg hstar]
        unfold selectColumn
        cases hi : findColumnIndex schema item.columnName with
        | none => exact .inl ⟨_, rfl⟩
        | some i =>
            have hlt := findColumnIndex_lt hi
            have hc := List.getElem?_eq_getElem hlt
            rcases aggregateValue_exact (hreach i hlt) hfit.1
                (hfit.2 _ i _ hstar hi hc) kind with herr | ⟨v, hrun, hexact⟩
            · exact .inl herr
            · refine .inr ⟨v, hrun, ?_⟩
              intro kind' hkind'
              cases hkind'
              rw [if_neg hstar]
              intro j c hj hcj
              cases hj
              obtain rfl := Option.some.inj (hc.symm.trans hcj)
              exact hexact

end Exact

/-! ## §3. The statement. -/

section Statement

variable {schema : TableSchema} {rows : List RowData}

/-- `*`, as the parser leaves it. -/
def starItem : SelectItem := ⟨true, [], none, none⟩

/-- `SELECT *` returns the selected rows. -/
theorem selectRows_star (schema : TableSchema) (rows : List RowData) :
    ∃ q, selectRows schema [starItem] rows = .ok q ∧ q.rows = rows := by
  have hrows : Result.mapList (projectRow schema [starItem]) rows = .ok rows := by
    induction rows with
    | nil => rfl
    | cons row rows ih =>
        rw [Result.mapList_cons, ih]
        rfl
  refine ⟨⟨rows, headings schema [starItem] rows, selectedMessage rows.length⟩, ?_, rfl⟩
  show (Result.mapList (projectRow schema [starItem]) rows >>= _) = _
  rw [hrows]
  rfl

theorem selectRows_aggregate {items : List SelectItem} (hitems : isAggregate items = true) :
    selectRows schema items rows = Result.mapList (aggregateItem schema rows) items >>= fun vs =>
      .ok ⟨[{ values := vs }], items.map aggregateName, selectedMessage 1⟩ := by
  unfold selectRows
  rw [show items.head?.any (·.aggregate.isSome) = true from hitems, if_pos rfl]
  rfl

/-- A loop whose steps refuse or do well does so itself. -/
theorem mapList_answers {α β : Type} {f : α → Result β} {P : α → β → Prop} {l : List α}
    (h : ∀ a ∈ l, (∃ e, f a = .error e) ∨ ∃ b, f a = .ok b ∧ P a b) :
    (∃ e, Result.mapList f l = .error e) ∨
      ∃ bs, Result.mapList f l = .ok bs ∧ List.Forall₂ P l bs := by
  induction l with
  | nil => exact .inr ⟨[], rfl, .nil⟩
  | cons a l ih =>
      rw [Result.mapList_cons]
      rcases h a (by simp) with ⟨e, he⟩ | ⟨b, hb, hP⟩
      · rw [he]
        exact .inl ⟨e, rfl⟩
      · rw [hb, Result.ok_bind]
        rcases ih fun a' ha' => h a' (List.mem_cons_of_mem a ha') with ⟨e, he⟩ | ⟨bs, hbs, hall⟩
        · rw [he]
          exact .inl ⟨e, rfl⟩
        · rw [hbs]
          exact .inr ⟨b :: bs, rfl, .cons hP hall⟩

/-- What an exact answer says of a query with one item. -/
theorem itemExact_of_answer {item : SelectItem} {v : Value} (hitem : item.aggregate ≠ none)
    (hv : aggregateItem schema rows item = .ok v)
    (h : AnswersExactly schema rows [item] (selectRows schema [item] rows)) :
    ItemExact schema rows item v := by
  have haggregate : isAggregate [item] = true := by
    simpa [isAggregate] using Option.isSome_iff_ne_none.mpr hitem
  rw [selectRows_aggregate haggregate, Result.mapList_cons, hv] at h
  rcases h with ⟨e, he⟩ | ⟨q, row, hq, hrow, hexact⟩
  · cases he
  · cases hq
    obtain rfl := List.singleton_inj.mp hrow
    cases hexact with
    | cons hfirst _ => exact hfirst

/-- **Exact answers are those whose sums fit.** -/
theorem answersExactly_iff (hreach : ∀ i < schema.columns.length, Reaching i rows) :
    (∀ items, isAggregate items = true →
      AnswersExactly schema rows items (selectRows schema items rows)) ↔ SumsFit schema rows := by
  constructor
  · intro h
    refine ⟨?_, fun n i c hstar hi hc htype hnum => ?_⟩
    · have hv : aggregateItem schema rows ⟨false, str "*", none, some .count⟩
          = .ok (.int (Int64.ofNat rows.length)) := aggregateValue_count_star rows
      have hexact := itemExact_of_answer (by decide) hv (h _ rfl) .count rfl
      rw [if_pos rfl] at hexact
      obtain ⟨k, hk, hvalue⟩ := hexact rfl
      cases hk
      exact toInt_ofNat_iff.mp hvalue
    · have hin := hreach i (findColumnIndex_lt hi)
      have hv : aggregateItem schema rows ⟨false, n, none, some .sum⟩
          = aggregateValue .sum (some i) rows := by
        unfold aggregateItem selectColumn
        dsimp only
        rw [if_neg hstar, hi]
        rfl
      rcases aggregateValue_sum hin with ⟨-, hsum⟩ | ⟨e, herr⟩
      · have hexact := itemExact_of_answer (Option.some_ne_none _) (hv.trans hsum) (h _ rfl)
          .sum rfl
        rw [if_neg hstar] at hexact
        obtain ⟨k, hk, hvalue⟩ := hexact i c hi hc htype
        cases hk
        exact toInt_ofInt_iff.mp hvalue
      · -- a column of numbers is not refused
        rcases sumStep_foldList hin (0, 0) with ⟨-, hrun⟩ | ⟨hno, -⟩
        · rw [show aggregateValue .sum (some i) rows
            = (Result.foldList (sumStep i) (0, 0) rows >>= fun acc => .ok (.int acc.1)) from rfl,
            hrun] at herr
          cases herr
        · exact absurd hnum hno
  · intro hfit items hitems
    rw [selectRows_aggregate hitems]
    rcases mapList_answers fun item _ => aggregateItem_exact hfit hreach item with
      ⟨e, he⟩ | ⟨vs, hvs, hall⟩
    · rw [he]
      exact .inl ⟨e, rfl⟩
    · rw [hvs]
      exact .inr ⟨_, { values := vs }, rfl, rfl, hall⟩

end Statement

/-- **Aggregates are exact exactly where the sums fit.**  On a table of any run
and a clause on which `SELECT *` succeeds with rows `q.rows`: every aggregate
query with this clause returns exact numbers or an error, if and only if the
number of the rows and the sum of every INT column over them fit in 64 bits. -/
theorem aggregates_exact_iff {e : DbmsEngine} (h : Reachable e) {s : Store} (hs : StoreOf e s)
    {d t : Str} {table : TableRuntime} (htable : storeTable s d t = some table) (env : Env)
    (name : QualifiedName) (clause : Option Expression) {q : QueryResult}
    (hstar : executeSelect env ⟨name, [starItem], clause⟩ table = .ok q) :
    (∀ items, isAggregate items = true →
      AnswersExactly table.schema q.rows items (executeSelect env ⟨name, items, clause⟩ table)) ↔
      SumsFit table.schema q.rows := by
  obtain ⟨db, hdb, htab⟩ := storeTable_eq_some.mp htable
  have hok := (((reachable_ok h).of hs).state d db hdb).tables t table htab
  obtain ⟨r, hfilter, hselect⟩ := Result.bind_eq_ok.mp hstar
  obtain ⟨q', hq', hrows⟩ := selectRows_star table.schema r.1
  obtain rfl : q' = q := Result.ok.inj (hq'.symm.trans hselect)
  rw [hrows]
  have hquery : ∀ items, executeSelect env ⟨name, items, clause⟩ table
      = selectRows table.schema items r.1 := by
    intro items
    show (filterRows env.regexMatch table.heap.scanAll clause table.schema table.indexes >>= _) = _
    rw [hfilter]
    rfl
  simp only [hquery]
  apply answersExactly_iff
  intro i hi row hrow
  rw [hok.shape row (filterRows_subset hfilter row hrow)]
  exact hi

/-! ## §4. A sum of 2^63. -/

/-- Two rows, whose numbers `v` add to 2^63. -/
@[irreducible] def overflowRun : DbmsEngine × SessionContext :=
  runTexts sampleEnv Io.good freshEngine ⟨str "a", []⟩
    [str "CREATE DATABASE d;", str "USE d;", str "CREATE TABLE t (k INT INDEXED, v INT);",
      str "INSERT INTO t (k, v) VALUES (1, 9223372036854775807), (2, 1);"]

theorem reachable_overflowRun : Reachable overflowRun.1 := by
  unfold overflowRun
  exact reachable_runTexts sampleEnv Io.good reachable_freshEngine _ _

/-- The schema of its table. -/
def overflowSchema : TableSchema :=
  ⟨str "d", str "t", [⟨str "k", .int64, .indexed, none⟩, ⟨str "v", .int64, .none, none⟩],
    [indexDefinitionFor (str "t") (str "k")]⟩

/-- `SELECT … FROM t WHERE …`. -/
def overflowQuery (item : SelectItem) (clause : Option Expression) : SelectStatement :=
  ⟨⟨none, str "t"⟩, [item], clause⟩

/-- `k <= 1`. -/
def firstOnly : Expression :=
  .binaryComparison .lessEqual (.columnReference none none (str "k")) (.literal (.int 1))

/-- `SUM(v)`. -/
def sumItem : SelectItem := ⟨false, str "v", none, some .sum⟩

/-- What three queries return: the first row, both rows, and the sum. -/
def Overflows (table : TableRuntime) : Prop :=
  table.schema = overflowSchema ∧
    (executeSelect sampleEnv (overflowQuery starItem (some firstOnly)) table).map (·.rows)
      = .ok [⟨some 0, [.int 1, .int 9223372036854775807]⟩] ∧
    (executeSelect sampleEnv (overflowQuery starItem none) table).map (·.rows)
      = .ok [⟨some 0, [.int 1, .int 9223372036854775807]⟩, ⟨some 1, [.int 2, .int 1]⟩] ∧
    (executeSelect sampleEnv (overflowQuery sumItem none) table).map
      (fun q => q.rows.map (·.values)) = .ok [[.int (-9223372036854775808)]]

instance (table : TableRuntime) : Decidable (Overflows table) :=
  inferInstanceAs (Decidable (_ ∧ _ ∧ _ ∧ _))

set_option maxRecDepth 4000 in
theorem overflowRun_table : ∃ table,
    storeTable overflowRun.1.store (str "d") (str "t") = some table ∧ Overflows table := by
  have hsome : (storeTable overflowRun.1.store (str "d") (str "t")).isSome = true ∧
      ∀ table ∈ storeTable overflowRun.1.store (str "d") (str "t"), Overflows table := by
    decide +kernel
  obtain ⟨table, htable⟩ := Option.isSome_iff_exists.mp hsome.1
  exact ⟨table, htable, hsome.2 table htable⟩

/-- Over the first row alone every aggregate is exact. -/
theorem aggregates_exact_iff_first : ∃ table q,
    storeTable overflowRun.1.store (str "d") (str "t") = some table ∧
      executeSelect sampleEnv (overflowQuery starItem (some firstOnly)) table = .ok q ∧
      ∀ items, isAggregate items = true → AnswersExactly table.schema q.rows items
        (executeSelect sampleEnv ⟨⟨none, str "t"⟩, items, some firstOnly⟩ table) := by
  obtain ⟨table, htable, hschema, hfirst, -⟩ := overflowRun_table
  obtain ⟨q, hq, hrows⟩ := Result.map_eq_ok.mp hfirst
  refine ⟨table, q, htable, hq, ?_⟩
  apply (aggregates_exact_iff reachable_overflowRun .committed htable sampleEnv ⟨none, str "t"⟩
    (some firstOnly) hq).mpr
  rw [hschema, hrows]
  refine ⟨⟨by decide, by decide⟩, fun n i c _ _ hc _ _ => ?_⟩
  rcases i with _ | _ | i
  · exact ⟨by decide, by decide⟩
  · exact ⟨by decide, by decide⟩
  · cases hc

/-- **A sum wraps.**  Both numbers are positive, and the sum returned is the
least of all numbers. -/
theorem sum_wraps : ∃ table q,
    storeTable overflowRun.1.store (str "d") (str "t") = some table ∧
      executeSelect sampleEnv (overflowQuery starItem none) table = .ok q ∧
      intsAt 1 q.rows = [9223372036854775807, 1] ∧
      (executeSelect sampleEnv (overflowQuery sumItem none) table).map
        (fun q => q.rows.map (·.values)) = .ok [[.int (-9223372036854775808)]] ∧
      ¬ AnswersExactly table.schema q.rows [sumItem]
        (executeSelect sampleEnv (overflowQuery sumItem none) table) := by
  obtain ⟨table, htable, hschema, -, hboth, hsum⟩ := overflowRun_table
  obtain ⟨q, hq, hrows⟩ := Result.map_eq_ok.mp hboth
  refine ⟨table, q, htable, hq, ?_, hsum, ?_⟩
  · rw [hrows]
    decide
  · obtain ⟨q', hq', hvalues⟩ := Result.map_eq_ok.mp hsum
    rw [hschema, hq', hrows]
    rintro (⟨e, he⟩ | ⟨q'', row, heq, hrow, hexact⟩)
    · cases he
    · cases heq
      rw [hrow] at hvalues
      have hv : row.values = [.int (-9223372036854775808)] := List.singleton_inj.mp hvalues
      rw [hv] at hexact
      cases hexact with
      | cons hfirst _ =>
          have hexact := hfirst .sum rfl
          rw [if_neg (by decide)] at hexact
          obtain ⟨k, hk, hvalue⟩ := hexact 1 _ (by decide) rfl rfl
          cases hk
          exact absurd hvalue (by decide)

end CustomDbms.Execution
