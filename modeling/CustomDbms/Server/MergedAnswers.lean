/-
  CustomDbms.Server.MergedAnswers
  ───────────────────────────────
  **THE FAN-OUT PUTS ANSWERS TOGETHER** (`QueryResultToJson`,
  `BroadcastToStorageNodes`).

  The answers of the nodes are texts.  The coordinator cuts the white space and
  the brackets off each, leaves out those with nothing in between, and puts
  commas between the rest.  Every row is a text of its own, never empty, so
  what comes out is the text of all rows in the order of the nodes.

    • `mergeJson_jsonText` — the merge on the texts of rows;
    • `broadcast_concatenates` — the fan-out on the results of the nodes.
-/
import CustomDbms.Server.Broadcast

namespace CustomDbms.Server

open CustomDbms.Common CustomDbms.Lib CustomDbms.Parser CustomDbms.Catalog CustomDbms.Network
open CustomDbms.Execution CustomDbms.Core CustomDbms.Runtime

/-! ## §1. Texts of answers. -/

/-- The answer with the rows of a list. -/
def jsonText (rows : List Str) : Str := str "[" ++ (str ", ").intercalate rows ++ str "]"

/-- The rows of a result, as texts. -/
def jsonRows (q : QueryResult) : List Str :=
  q.rows.map fun row => rowToJson q.columnNames row.values

theorem rowToJson_ne_nil (names : List Str) (vs : List Value) : rowToJson names vs ≠ [] := by
  unfold rowToJson
  simp [str]

theorem intercalate_eq_nil {sep : Str} {rows : List Str} (hne : ∀ row ∈ rows, row ≠ []) :
    sep.intercalate rows = [] ↔ rows = [] := by
  cases rows with
  | nil => simp
  | cons row rows =>
      refine iff_of_false ?_ (by simp)
      have hrow : row ≠ [] := hne row (by simp)
      cases rows with
      | nil => simpa using hrow
      | cons row' rows =>
          rw [List.intercalate_cons_cons]
          simp [hrow]

theorem intercalate_append {sep : Str} {l l' : List Str} (h : l ≠ []) (h' : l' ≠ []) :
    sep.intercalate (l ++ l') = sep.intercalate l ++ sep ++ sep.intercalate l' := by
  induction l with
  | nil => exact absurd rfl h
  | cons row l ih =>
      cases l with
      | nil =>
          rw [List.singleton_append, List.intercalate_cons_of_ne_nil h', List.intercalate_singleton]
      | cons row' l =>
          rw [List.cons_append, List.intercalate_cons_of_ne_nil (by simp), ih (by simp),
            List.intercalate_cons_cons]
          simp only [List.append_assoc]

theorem jsonText_eq (rows : List Str) :
    jsonText rows = byte '[' :: ((str ", ").intercalate rows ++ [byte ']']) := rfl

theorem trim_jsonText (rows : List Str) : trim (jsonText rows) = jsonText rows := by
  have hopen : isTrimByte (byte '[') = false := by decide
  have hclose : isTrimByte (byte ']') = false := by decide
  have hreverse : (jsonText rows).reverse
      = byte ']' :: (byte '[' :: (str ", ").intercalate rows).reverse := by
    rw [jsonText_eq]
    simp
  unfold trim
  rw [jsonText_eq, List.dropWhile_cons, hopen, if_neg (by decide), ← jsonText_eq, hreverse,
    List.dropWhile_cons, hclose, if_neg (by decide), ← hreverse, List.reverse_reverse]

/-- What is inside an answer. -/
theorem innerJson_jsonText {rows : List Str} (hne : ∀ row ∈ rows, row ≠ []) :
    innerJson (jsonText rows) = if rows = [] then none else some ((str ", ").intercalate rows) := by
  unfold innerJson
  dsimp only
  rw [trim_jsonText]
  have hinner : ((jsonText rows).drop 1).dropLast = (str ", ").intercalate rows := by
    rw [jsonText_eq, List.drop_one, List.tail_cons, List.dropLast_concat]
  have hshape : ¬ ((jsonText rows).length < 2 ∨ (jsonText rows).head? ≠ some (byte '[') ∨
      (jsonText rows).getLast? ≠ some (byte ']')) := by
    have hlast : (jsonText rows).getLast? = some (byte ']') := by
      rw [jsonText_eq, ← List.cons_append, List.getLast?_concat]
    rw [hlast, jsonText_eq]
    simp
  rw [if_neg hshape, hinner]
  by_cases hrows : rows = []
  · rw [if_pos hrows, hrows]
    rfl
  · have hinner : (str ", ").intercalate rows ≠ [] := fun h =>
      hrows ((intercalate_eq_nil hne).mp h)
    have hbrackets : ¬ (jsonText rows = [] ∨ jsonText rows = str "[]") := by
      rintro (h | h)
      · cases h
      · have hempty : jsonText rows = byte '[' :: ([] ++ [byte ']']) := h
        rw [jsonText_eq, List.cons.injEq, List.append_left_inj] at hempty
        exact hinner hempty.2
    rw [if_neg hrows, if_neg hbrackets, if_neg hinner]

/-- **The merged answers are the answer with the rows of all.** -/
theorem mergeJson_jsonText {parts : List (List Str)} (hne : ∀ rows ∈ parts, ∀ row ∈ rows, row ≠ []) :
    mergeJson (parts.map jsonText) = jsonText parts.flatten := by
  have hinner : ∀ parts : List (List Str), (∀ rows ∈ parts, ∀ row ∈ rows, row ≠ []) →
      (str ", ").intercalate ((parts.map jsonText).filterMap innerJson)
        = (str ", ").intercalate parts.flatten ∧
      ((parts.map jsonText).filterMap innerJson = [] ↔ parts.flatten = []) := by
    intro parts hne
    induction parts with
    | nil => exact ⟨rfl, Iff.rfl⟩
    | cons rows parts ih =>
        obtain ⟨htext, hnil⟩ := ih fun rows hrows => hne rows (by simp [hrows])
        rw [List.map_cons, List.filterMap_cons, innerJson_jsonText (hne rows (by simp)),
          List.flatten_cons]
        by_cases hrows : rows = []
        · rw [if_pos hrows, hrows]
          exact ⟨htext, hnil⟩
        · rw [if_neg hrows]
          dsimp only
          refine ⟨?_, by simp [hrows]⟩
          by_cases hrest : parts.flatten = []
          · rw [hnil.mpr hrest, hrest, List.append_nil, List.intercalate_singleton]
          · rw [List.intercalate_cons_of_ne_nil (fun h => hrest (hnil.mp h)), htext,
              intercalate_append hrows hrest]
  unfold mergeJson
  rw [(hinner parts hne).1]
  rfl

/-! ## §2. All nodes answer. -/

section FanOut

variable {ν : Type} (w : World ν) {request : RequestEnvelope}

theorem broadcastLoop_cons {net net' : ν} {node : StorageNodeEndpoint}
    {rest : List StorageNodeEndpoint} {payload : Str} {payloads : List Str}
    (hanswer : (w.forward net node request).2 = some ⟨200, payload⟩)
    (hrest : broadcastLoop w request rest (w.forward net node request).1
      = (net', .ok (.inr payloads))) :
    broadcastLoop w request (node :: rest) net = (net', .ok (.inr (payload :: payloads))) := by
  unfold broadcastLoop
  rw [Net.forward_bind, hanswer]
  dsimp only
  rw [if_neg (by decide), Net.bind_of_ok hrest]
  rfl

/-- Asked one after the other, every node answers with its result. -/
inductive AnswersWith (request : RequestEnvelope) :
    List StorageNodeEndpoint → List QueryResult → ν → ν → Prop
  | nil (net : ν) : AnswersWith request [] [] net net
  | cons {node : StorageNodeEndpoint} {nodes : List StorageNodeEndpoint} {q : QueryResult}
      {results : List QueryResult} {net net' : ν}
      (answer : (w.forward net node request).2 = some ⟨200, queryResultToJson q⟩)
      (rest : AnswersWith request nodes results (w.forward net node request).1 net') :
      AnswersWith request (node :: nodes) (q :: results) net net'

variable {w} {nodes : List StorageNodeEndpoint} {results : List QueryResult} {net net' : ν}

/-- The fan-out collects the texts. -/
theorem AnswersWith.loop (h : AnswersWith w request nodes results net net') :
    broadcastLoop w request nodes net = (net', .ok (.inr (results.map queryResultToJson))) := by
  induction h with
  | nil net => rfl
  | cons answer rest ih => exact broadcastLoop_cons w answer ih

/-- **The fan-out is concatenation**: its answer is the text of the rows of all
results, in the order of the nodes. -/
theorem broadcast_concatenates {names : List Str} (hnames : ∀ q ∈ results, q.columnNames = names)
    (h : AnswersWith w request nodes results net net') (message : Str) :
    broadcastToStorageNodes w nodes request true net
      = (net', .ok (some ⟨200,
          queryResultToJson ⟨results.flatMap (·.rows), names, message⟩⟩)) := by
  have htexts : results.map queryResultToJson = (results.map jsonRows).map jsonText := by
    rw [List.map_map]
    rfl
  have hne : ∀ rows ∈ results.map jsonRows, ∀ row ∈ rows, row ≠ [] := by
    intro rows hrows row hrow
    obtain ⟨q, -, rfl⟩ := List.mem_map.mp hrows
    obtain ⟨values, -, rfl⟩ := List.mem_map.mp hrow
    exact rowToJson_ne_nil _ _
  have hrows : (results.map jsonRows).flatten
      = jsonRows ⟨results.flatMap (·.rows), names, message⟩ := by
    unfold jsonRows
    rw [List.map_flatMap, ← List.flatMap_def]
    refine List.flatMap_congr fun q hq => ?_
    rw [hnames q hq]
  unfold broadcastToStorageNodes
  rw [Net.bind_of_ok h.loop, htexts]
  show (_, Result.ok (some (ResponseEnvelope.mk 200 (mergeJson _)))) = _
  rw [mergeJson_jsonText hne, hrows]
  rfl

end FanOut

/-! ## §3. Three nodes. -/

/-- A third node. -/
def threeNodes : List StorageNodeEndpoint := twoNodes ++ [⟨str "127.0.0.1", 4558, false, 0⟩]

/-- The result of a node: the second has no rows. -/
def resultOf (node : StorageNodeEndpoint) : QueryResult :=
  ⟨if node.port = 4556 then [⟨some 0, [.string (str "]\", [\\ ")]⟩, ⟨some 1, [.null]⟩]
    else if node.port = 4557 then [] else [⟨some 0, [.int (-7)]⟩], [str "v"], []⟩

/-- Nodes that answer with their results. -/
def answeringWorld : World Unit where
  forward := fun _ node _ => ((), some ⟨200, queryResultToJson (resultOf node)⟩)
  newGuid := nodelessWorld.newGuid
  hashes := nodelessWorld.hashes
  hmac := nodelessWorld.hmac

theorem broadcast_concatenates_three :
    broadcastToStorageNodes answeringWorld threeNodes selectAll true ()
      = ((), .ok (some ⟨200, str "[\x7b\"v\": \"]\\\", [\\\\ \"\x7d, \x7b\"v\": null\x7d, "
          ++ str "\x7b\"v\": -7\x7d]"⟩)) := by
  have hnames : ∀ q ∈ threeNodes.map resultOf, q.columnNames = [str "v"] := by decide
  have hanswers : AnswersWith answeringWorld selectAll threeNodes (threeNodes.map resultOf) () () :=
    .cons rfl (.cons rfl (.cons rfl (.nil ())))
  rw [broadcast_concatenates hnames hanswers []]
  decide +kernel

end CustomDbms.Server
