/-
  CustomDbms.Server.JsonAnswers
  ─────────────────────────────
  **THE ANSWER OF A `SELECT` AS A JSON TEXT** (`QueryResultToJson`,
  `EscapeJsonText`).

  A row becomes an object with one member for each column, and the result an
  array of these.  `EscapeJsonText` puts a backslash in front of quotation marks
  and backslashes AND NOWHERE ELSE: a control character goes into the text as
  it is, which the grammar of JSON does not allow in a string, and so does an
  octet that is not UTF-8.

    • `queryResultToJson_reads_iff` — the text reads as the result exactly where
      every string shown is free of both.
-/
import CustomDbms.Lib.Json
import CustomDbms.Parser.Lexer
import CustomDbms.Server.Statements

namespace CustomDbms.Server

open CustomDbms.Common CustomDbms.Execution CustomDbms.Lib CustomDbms.Parser

/-! ## §1. What the text should say. -/

/-- A value as JSON. -/
def jsonValue : Value → Json
  | .null => .null
  | .int i => .number i.toInt 0
  | .string s => .string s

/-- The columns and values of a row that the answer shows. -/
def shownCells (columnNames : List Str) (row : RowData) : List (Str × Value) :=
  columnNames.zip row.values

/-- The result as JSON: one object for each row, one member for each column. -/
def jsonResult (q : QueryResult) : Json :=
  .array (q.rows.map fun row =>
    .object ((shownCells q.columnNames row).map fun p => (p.1, jsonValue p.2)))

/-- No control character. -/
def controlFree (s : Str) : Bool := s.all fun c => decide (0x20 ≤ c)

/-- The strings of a member: the name, and the value where it is a string. -/
def cellStrings (p : Str × Value) : List Str :=
  match p.2 with
  | .string s => [p.1, s]
  | _ => [p.1]

/-- Every string the answer shows is UTF-8 without control characters. -/
def Showable (q : QueryResult) : Prop :=
  ∀ row ∈ q.rows, ∀ p ∈ shownCells q.columnNames row, ∀ s ∈ cellStrings p,
    controlFree s = true ∧ isUtf8 s = true

/-! ## §2. Escaped strings. -/

theorem readChars_escapeJsonText (s rest : Str) :
    Json.readChars (escapeJsonText s ++ Json.quote :: rest)
      = if controlFree s = true then some (s.map .octet, rest) else none := by
  induction s with
  | nil => exact Json.readChars_quote rest
  | cons c s ih =>
      unfold escapeJsonText
      by_cases hc : c = byte '"' ∨ c = byte '\\'
      · have hcontrol : decide (0x20 ≤ c) = true := by
          rcases hc with rfl | rfl <;> decide
        rw [if_pos hc]
        show Json.readChars (Json.reverseSolidus :: c :: (escapeJsonText s ++ Json.quote :: rest)) = _
        rw [Json.readChars_escaped hc, ih]
        by_cases hs : controlFree s = true <;> simp_all [controlFree]
      · obtain ⟨hquote, hsolidus⟩ := not_or.mp hc
        rw [if_neg hc, List.cons_append]
        by_cases hcontrol : c < 0x20
        · rw [Json.readChars_control hquote hsolidus hcontrol, if_neg]
          simp [controlFree, hcontrol]
        · rw [Json.readChars_unescaped hquote hsolidus hcontrol, ih]
          by_cases hs : controlFree s = true <;> simp_all [controlFree]

/-- **An escaped string reads back**, if it has no control character. -/
theorem readString_escapeJsonText (s rest : Str) :
    Json.readString (escapeJsonText s ++ Json.quote :: rest)
      = if controlFree s = true then some (s, rest) else none := by
  unfold Json.readString
  rw [readChars_escapeJsonText]
  by_cases hs : controlFree s = true
  · simp [hs, Json.decodeItems_octets]
  · simp [hs]

theorem utf8Scan_escapeJsonText {asked : List (Octet × Octet)} (h : Asked asked) (s : Str) :
    utf8Scan asked (escapeJsonText s) = utf8Scan asked s := by
  induction s generalizing asked with
  | nil => rfl
  | cons c s ih =>
      have hstep : (utf8Step c asked).bind (fun next => utf8Scan next (escapeJsonText s))
          = utf8Scan asked (c :: s) := by
        rw [utf8Scan]
        cases hnext : utf8Step c asked with
        | none => rfl
        | some next => exact ih (h.step hnext)
      unfold escapeJsonText
      by_cases hc : c = byte '"' ∨ c = byte '\\'
      · have hascii : c ≤ 0x7F := by
          rcases hc with rfl | rfl <;> decide
        rw [if_pos hc, ← hstep, utf8Scan, utf8Step_ascii h (by decide),
          utf8Step_ascii h hascii]
        by_cases hasked : asked = []
        · rw [if_pos hasked, Option.bind_some, utf8Scan, utf8Step_ascii (by simp [Asked]) hascii,
            if_pos rfl]
        · rw [if_neg hasked]
          rfl
      · rw [if_neg hc, ← hstep]
        rfl

/-- Escaping keeps UTF-8, and what is not. -/
theorem isUtf8_escapeJsonText (s : Str) : isUtf8 (escapeJsonText s) = isUtf8 s := by
  unfold isUtf8
  rw [utf8Scan_escapeJsonText (by simp [Asked])]

/-! ## §3. Values. -/

theorem head_decimalDigits {fuel n : Nat} (acc : Str) (h : n < fuel) (hn : n ≠ 0) :
    (decimalDigits fuel n acc).head? ≠ some 0x30 := by
  induction fuel generalizing n acc with
  | zero => omega
  | succ fuel ih =>
      rw [decimalDigits]
      by_cases hten : n / 10 = 0
      · rw [if_pos hten, List.head?_cons]
        intro hzero
        have hval := congrArg Fin.val (Option.some.inj hzero)
        have hdigit : (n % 10 + 48) % 256 = 48 := hval
        omega
      · rw [if_neg hten]
        exact ih _ (by omega) hten

/-- The digits of a number have no zero in front. -/
theorem natToString_zero {n : Nat} (h : (natToString n).head? = some 0x30) :
    natToString n = [0x30] := by
  by_cases hn : n = 0
  · subst hn
    rfl
  · exact absurd h (head_decimalDigits [] (Nat.lt_succ_self n) hn)

theorem readUnsigned_natToString (n : Nat) {c : Byte} (hc : Json.EndsNumber c) (rest : Str) :
    Json.readUnsigned (natToString n ++ c :: rest) = some (n, 0, c :: rest) := by
  obtain ⟨hne, hdigits, hvalue⟩ := natToString_digits n
  have h := Json.readUnsigned_digits hne hdigits natToString_zero hc rest
  rw [show Json.digitsValue (natToString n) = n from hvalue] at h
  exact h

/-- **A printed integer** is a number of JSON. -/
theorem readNumber_intToString (i : Int) {c : Byte} (hc : Json.EndsNumber c) (rest : Str) :
    Json.readNumber (intToString i ++ c :: rest) = some (.number i 0, c :: rest) := by
  unfold intToString
  by_cases hneg : i < 0
  · have habs : -(i.natAbs : Int) = i := by omega
    rw [if_pos hneg, List.cons_append, Json.readNumber, if_pos (by decide),
      readUnsigned_natToString _ hc, Option.map_some, habs]
  · have habs : (i.natAbs : Int) = i := by omega
    have hread := readUnsigned_natToString i.natAbs hc rest
    obtain ⟨hne, hdigits, -⟩ := natToString_digits i.natAbs
    rw [if_neg hneg]
    cases htext : natToString i.natAbs with
    | nil => exact absurd htext hne
    | cons d ds =>
        have hd : d ≠ 0x2D := by
          rintro rfl
          exact absurd (hdigits 0x2D (by rw [htext]; simp)) (by decide)
        rw [htext] at hread
        rw [List.cons_append, Json.readNumber, if_neg hd, ← List.cons_append, hread,
          Option.map_some, habs]

theorem intToString_head (i : Int) :
    ∃ d ds, intToString i = d :: ds ∧ (d = 0x2D ∨ Json.isDigit d = true) := by
  obtain ⟨hne, hdigits, -⟩ := natToString_digits i.natAbs
  unfold intToString
  by_cases hneg : i < 0
  · exact ⟨_, _, if_pos hneg, .inl rfl⟩
  · rw [if_neg hneg]
    cases htext : natToString i.natAbs with
    | nil => exact absurd htext hne
    | cons d ds => exact ⟨d, ds, rfl, .inr (hdigits d (by rw [htext]; simp))⟩

/-- What the reader makes of a string: it is refused if it has a control
character. -/
def readable (s : Str) : Option Str := if controlFree s = true then some s else none

/-- What the reader makes of a value. -/
def readableValue : Value → Option Json
  | .null => some .null
  | .int i => some (.number i.toInt 0)
  | .string s => (readable s).map .string

/-- The bytes that follow a value. -/
def Follows (c : Byte) : Prop := c = Json.comma ∨ c = Json.endObject

theorem readValue_valueToJson (depth : Nat) (v : Value) {c : Byte} (hc : Follows c)
    (rest : Str) :
    Json.readValue (depth + 1) (valueToJson v ++ c :: rest)
      = (readableValue v).map fun j => (j, c :: rest) := by
  have hends : Json.EndsNumber c := by
    rcases hc with rfl | rfl <;> exact ⟨by decide, by decide, by decide, by decide⟩
  cases v with
  | null => rfl
  | int i =>
      show Json.readValue (depth + 1) (intToString i.toInt ++ c :: rest)
        = some (.number i.toInt 0, c :: rest)
      rw [← readNumber_intToString i.toInt hends rest]
      obtain ⟨d, ds, htext, hd⟩ := intToString_head i.toInt
      have hother : ∀ d : Byte, d = 0x2D ∨ Json.isDigit d = true →
          d ≠ Json.quote ∧ d ≠ Json.beginArray ∧ d ≠ Json.beginObject := by
        decide +kernel
      obtain ⟨hquote, harray, hobject⟩ := hother d hd
      rw [htext, List.cons_append, Json.readValue, if_neg hquote, if_neg harray, if_neg hobject,
        if_pos hd]
  | string s =>
      show Json.readValue (depth + 1)
          (Json.quote :: (escapeJsonText s ++ str "\"" ++ c :: rest)) = _
      rw [Json.readValue, if_pos rfl, List.append_assoc]
      show ((Json.readString (escapeJsonText s ++ Json.quote :: (c :: rest))).map _) = _
      rw [readString_escapeJsonText, readableValue, readable]
      by_cases hs : controlFree s = true
      · rw [if_pos hs, if_pos hs]
        rfl
      · rw [if_neg hs, if_neg hs]
        rfl

/-! ## §4. Members, rows, results. -/

/-- The text of a member. -/
def cellText (p : Str × Value) : Str :=
  str "\"" ++ escapeJsonText p.1 ++ str "\": " ++ valueToJson p.2

/-- What the reader makes of a member. -/
def readableCell (p : Str × Value) : Option (Str × Json) :=
  (readable p.1).bind fun name => (readableValue p.2).map fun j => (name, j)

/-- What the reader makes of a row. -/
def readableRow (columnNames : List Str) (row : RowData) : Option Json :=
  ((shownCells columnNames row).mapM readableCell).map .object

theorem rowToJson_eq (columnNames : List Str) (values : List Value) :
    rowToJson columnNames values = Json.beginObject ::
      (([Json.comma, 0x20] : Str).intercalate ((columnNames.zip values).map cellText)
        ++ [Json.endObject]) := by
  have hcells : (columnNames.zip values).map cellText
      = columnNames.zipWith (fun name value =>
        str "\"" ++ escapeJsonText name ++ str "\": " ++ valueToJson value) values :=
    List.map_zip_eq_zipWith
  rw [hcells]
  rfl

theorem queryResultToJson_text (q : QueryResult) :
    queryResultToJson q = Json.beginArray ::
      (([Json.comma, 0x20] : Str).intercalate
        (q.rows.map fun row => rowToJson q.columnNames row.values) ++ [Json.endArray]) := rfl

/-- A value begins with neither white space nor a bracket. -/
theorem skipWs_valueToJson (v : Value) (rest : Str) :
    Json.skipWs (valueToJson v ++ rest) = valueToJson v ++ rest := by
  cases v with
  | null => rfl
  | string s => rfl
  | int i =>
      obtain ⟨d, ds, htext, hd⟩ := intToString_head i.toInt
      have hws : ∀ d : Byte, d = 0x2D ∨ Json.isDigit d = true → Json.isWs d = false := by
        decide +kernel
      rw [valueToJson, htext, List.cons_append, Json.skipWs_cons (hws d hd)]

theorem readMember_cellText (depth : Nat) (p : Str × Value) {c : Byte} (hc : Follows c)
    (rest : Str) :
    Json.readMember (Json.readValue (depth + 1)) (cellText p ++ c :: rest)
      = (readableCell p).map fun m => (m, c :: rest) := by
  have htext : cellText p ++ c :: rest = Json.quote :: (escapeJsonText p.1 ++ Json.quote ::
      Json.colon :: 0x20 :: (valueToJson p.2 ++ c :: rest)) := by
    simp only [cellText, List.append_assoc]
    rfl
  rw [htext, Json.readMember, if_pos rfl, readString_escapeJsonText, readableCell, readable]
  by_cases hname : controlFree p.1 = true
  · rw [if_pos hname, if_pos hname, Option.bind_some, Option.bind_some]
    rw [Json.skipWs_cons (by decide)]
    dsimp only
    rw [if_pos rfl, Json.skipWs_space, skipWs_valueToJson, readValue_valueToJson depth _ hc,
      Option.map_map, Option.map_map]
    rfl
  · rw [if_neg hname, if_neg hname]
    rfl

theorem readValue_rowToJson (depth : Nat) (columnNames : List Str) (row : RowData) (rest : Str) :
    Json.readValue (depth + 2) (rowToJson columnNames row.values ++ rest)
      = (readableRow columnNames row).map fun j => (j, rest) := by
  have hlist := Json.readList_intercalate (Json.readMember (Json.readValue (depth + 1)))
    Json.endObject cellText readableCell
    (shownCells columnNames row) rest (by decide)
    (fun p _ => ⟨Json.quote, _, rfl, by decide, by decide⟩)
    (fun p _ c s hc => readMember_cellText depth p hc s)
  rw [rowToJson_eq, List.cons_append, List.append_assoc, Json.readValue, if_neg (by decide),
    if_neg (by decide), if_pos rfl]
  show (Json.readList _ _ (([Json.comma, 0x20] : Str).intercalate
    ((shownCells columnNames row).map cellText) ++ Json.endObject :: rest)).map _ = _
  rw [hlist, readableRow, Option.map_map, Option.map_map]
  rfl

theorem readText_queryResultToJson (depth : Nat) (q : QueryResult) :
    Json.readText (depth + 3) (queryResultToJson q)
      = (q.rows.mapM (readableRow q.columnNames)).map .array := by
  have hlist := Json.readList_intercalate (Json.readValue (depth + 2)) Json.endArray
    (fun row => rowToJson q.columnNames row.values) (readableRow q.columnNames) q.rows [] (by decide)
    (fun row _ => ⟨Json.beginObject, _, rowToJson_eq _ _, by decide, by decide⟩)
    (fun row _ c s _ => readValue_rowToJson depth q.columnNames row (c :: s))
  rw [queryResultToJson_text, Json.readText, Json.skipWs_cons (by decide), Json.readValue,
    if_neg (by decide), if_pos rfl, hlist]
  cases q.rows.mapM (readableRow q.columnNames) <;> rfl

/-! ## §5. Which results are shown. -/

theorem mapM_eq_map {α β : Type} {f : α → Option β} {g : α → β} {l : List α}
    (h : ∀ x ∈ l, f x = some (g x)) : l.mapM f = some (l.map g) := by
  induction l with
  | nil => rfl
  | cons x l ih =>
      rw [List.mapM_cons, h x (by simp), ih fun y hy => h y (by simp [hy])]
      rfl

theorem isSome_of_mapM {α β : Type} {f : α → Option β} {l : List α} {r : List β}
    (h : l.mapM f = some r) : ∀ x ∈ l, ∃ b, f x = some b := by
  induction l generalizing r with
  | nil => simp
  | cons x l ih =>
      rw [List.mapM_cons] at h
      obtain ⟨b, hb, hrest⟩ := Option.bind_eq_some_iff.mp h
      obtain ⟨bs, hbs, -⟩ := Option.bind_eq_some_iff.mp hrest
      intro y hy
      rcases List.mem_cons.mp hy with rfl | hy
      · exact ⟨b, hb⟩
      · exact ih hbs y hy

theorem readable_of_controlFree {s : Str} (h : controlFree s = true) : readable s = some s :=
  if_pos h

theorem controlFree_of_readable {s t : Str} (h : readable s = some t) : controlFree s = true := by
  by_contra hs
  rw [readable, if_neg hs] at h
  cases h

theorem readableCell_of_controlFree {p : Str × Value}
    (h : ∀ s ∈ cellStrings p, controlFree s = true) :
    readableCell p = some (p.1, jsonValue p.2) := by
  obtain ⟨name, v⟩ := p
  cases v with
  | null => rw [readableCell, readable_of_controlFree (h name (by simp [cellStrings]))]; rfl
  | int i => rw [readableCell, readable_of_controlFree (h name (by simp [cellStrings]))]; rfl
  | string s =>
      rw [readableCell, readable_of_controlFree (h name (by simp [cellStrings])), readableValue,
        readable_of_controlFree (h s (by simp [cellStrings]))]
      rfl

theorem controlFree_of_readableCell {p : Str × Value} {m : Str × Json}
    (h : readableCell p = some m) : ∀ s ∈ cellStrings p, controlFree s = true := by
  obtain ⟨name, v⟩ := p
  obtain ⟨name', hname, hrest⟩ := Option.bind_eq_some_iff.mp h
  obtain ⟨j, hj, -⟩ := Option.map_eq_some_iff.mp hrest
  have hfree := controlFree_of_readable hname
  cases v with
  | null => simpa [cellStrings] using hfree
  | int i => simpa [cellStrings] using hfree
  | string s =>
      obtain ⟨t, ht, -⟩ := Option.map_eq_some_iff.mp hj
      simpa [cellStrings] using ⟨hfree, controlFree_of_readable ht⟩

theorem isUtf8_valueToJson (v : Value) (h : ∀ s, v ≠ .string s) :
    isUtf8 (valueToJson v) = true := by
  cases v with
  | null => decide
  | string s => exact absurd rfl (h s)
  | int i =>
      have hdigit : ∀ c : Byte, isDigit c = true → c ≤ 0x7F := by decide +kernel
      obtain ⟨-, hdigits, -⟩ := natToString_digits i.toInt.natAbs
      have hascii : isUtf8 (natToString i.toInt.natAbs) = true :=
        isUtf8_ascii fun c hc => hdigit c (hdigits c hc)
      show isUtf8 (intToString i.toInt) = true
      unfold intToString
      by_cases hneg : i.toInt < 0
      · rw [if_pos hneg, isUtf8_cons (by decide), hascii]
      · rw [if_neg hneg, hascii]

theorem isUtf8_cellText (p : Str × Value) :
    isUtf8 (cellText p) = true ↔ ∀ s ∈ cellStrings p, isUtf8 s = true := by
  obtain ⟨name, v⟩ := p
  have htext : cellText (name, v) = Json.quote :: (escapeJsonText name ++
      Json.quote :: Json.colon :: 0x20 :: valueToJson v) := by
    simp only [cellText, List.append_assoc]
    rfl
  rw [htext, isUtf8_cons (by decide), isUtf8_split (by decide), isUtf8_cons (by decide),
    isUtf8_cons (by decide), isUtf8_escapeJsonText, Bool.and_eq_true]
  cases v with
  | null => simp [cellStrings, isUtf8_valueToJson]
  | int i => simp [cellStrings, isUtf8_valueToJson]
  | string s =>
      have hvalue : isUtf8 (valueToJson (.string s)) = isUtf8 s := by
        show isUtf8 (Json.quote :: (escapeJsonText s ++ [Json.quote])) = _
        rw [isUtf8_cons (by decide), isUtf8_concat (by decide), isUtf8_escapeJsonText]
      rw [hvalue]
      simp [cellStrings]

theorem isUtf8_separated (texts : List Str) :
    isUtf8 (([Json.comma, 0x20] : Str).intercalate texts) = texts.all isUtf8 := by
  refine isUtf8_intercalate (by decide) ?_ texts
  intro d hd
  rw [List.mem_singleton.mp hd]
  decide

theorem isUtf8_queryResultToJson (q : QueryResult) :
    isUtf8 (queryResultToJson q) = true ↔
      ∀ row ∈ q.rows, ∀ p ∈ shownCells q.columnNames row, ∀ s ∈ cellStrings p,
        isUtf8 s = true := by
  have hrow : ∀ row : RowData, isUtf8 (rowToJson q.columnNames row.values) = true ↔
      ∀ p ∈ shownCells q.columnNames row, ∀ s ∈ cellStrings p, isUtf8 s = true := by
    intro row
    rw [rowToJson_eq, isUtf8_cons (by decide), isUtf8_concat (by decide),
      isUtf8_separated, List.all_map, List.all_eq_true]
    exact forall₂_congr fun p _ => isUtf8_cellText p
  rw [queryResultToJson_text, isUtf8_cons (by decide), isUtf8_concat (by decide),
    isUtf8_separated, List.all_map, List.all_eq_true]
  exact forall₂_congr fun row _ => hrow row

/-- A text that reads at all has no control character in a string it shows. -/
theorem controlFree_of_readText {q : QueryResult} {depth : Nat} {v : Json}
    (h : Json.readText depth (queryResultToJson q) = some v) :
    ∀ row ∈ q.rows, ∀ p ∈ shownCells q.columnNames row, ∀ s ∈ cellStrings p,
      controlFree s = true := by
  have hdeep := Json.readText_mono h 3
  rw [readText_queryResultToJson] at hdeep
  obtain ⟨rows, hrows, -⟩ := Option.map_eq_some_iff.mp hdeep
  intro row hrow p hp
  obtain ⟨j, hj⟩ := isSome_of_mapM hrows row hrow
  obtain ⟨cells, hcells, -⟩ := Option.map_eq_some_iff.mp hj
  obtain ⟨m, hm⟩ := isSome_of_mapM hcells p hp
  exact controlFree_of_readableCell hm

theorem showable_of_reads {q : QueryResult} {v : Json}
    (h : Json.Reads (queryResultToJson q) v) : Showable q := by
  obtain ⟨hutf8, depth, hread⟩ := h
  intro row hrow p hp s hs
  exact ⟨controlFree_of_readText hread row hrow p hp s hs,
    (isUtf8_queryResultToJson q).mp hutf8 row hrow p hp s hs⟩

theorem reads_of_showable {q : QueryResult} (h : Showable q) :
    Json.Reads (queryResultToJson q) (jsonResult q) := by
  refine ⟨(isUtf8_queryResultToJson q).mpr fun row hrow p hp s hs => (h row hrow p hp s hs).2,
    3, ?_⟩
  have hrows : q.rows.mapM (readableRow q.columnNames) = some (q.rows.map fun row =>
      .object ((shownCells q.columnNames row).map fun p => (p.1, jsonValue p.2))) := by
    refine mapM_eq_map ?_
    intro row hrow
    have hcells := mapM_eq_map (f := readableCell) (l := shownCells q.columnNames row)
      (g := fun p => (p.1, jsonValue p.2))
      fun p hp => readableCell_of_controlFree fun s hs => (h row hrow p hp s hs).1
    rw [readableRow, hcells]
    rfl
  rw [readText_queryResultToJson 0 q, hrows]
  rfl

/-- The text of any other result is no JSON text at all. -/
theorem queryResultToJson_accepted_iff (q : QueryResult) :
    (∃ v, Json.Reads (queryResultToJson q) v) ↔ Showable q :=
  ⟨fun ⟨_, h⟩ => showable_of_reads h, fun h => ⟨_, reads_of_showable h⟩⟩

end CustomDbms.Server
