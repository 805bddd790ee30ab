/-
  CustomDbms.Server.RenderedSql
  ─────────────────────────────
  **THE TEXTS THE COORDINATOR WRITES** (`RenderInsertSql`, `RenderLiteralSql`).

  A storage node gets its part of an INSERT as text and parses it again.  The
  names and the numbers come back as they were; a text comes back with a
  backslash in front of every quote and backslash, since the parser does not
  take out what `EscapeJson` puts in.

    • `parse_renderInsertSql` — the statement the node reads.
-/
import CustomDbms.Parser.InsertText
import CustomDbms.Server.Statements

namespace CustomDbms.Server

open CustomDbms.Common CustomDbms.Lib CustomDbms.Parser

/-! ## §1. Tokens of a text. -/

/-- The text is read as these tokens in front of anything but a word. -/
def LexesTo (text : Str) (tokens : List Str) : Prop :=
  ∀ rest, (∀ c ∈ rest.head?, isWordByte c = false) → tokenize (text ++ rest) = tokens ++ tokenize rest

/-- A byte at the front that is no part of a word. -/
theorem head_not_word {c : Byte} (h : isWordByte c = false) (rest : Str) :
    ∀ d ∈ (c :: rest).head?, isWordByte d = false := by
  intro d hd
  cases hd
  exact h

theorem lexesTo_word {w : Str} (hne : w ≠ []) (hw : ∀ c ∈ w, isWordByte c = true) :
    LexesTo w [w] := fun _ hrest => tokenize_word hne hw hrest

theorem lexesTo_identifier {name : Str} (h : isIdentifier name = true) : LexesTo name [name] := by
  cases name with
  | nil => cases h
  | cons c name =>
      refine lexesTo_word (by simp) fun d hd => ?_
      exact List.all_eq_true.mp (Bool.and_eq_true_iff.mp h).2 d hd

theorem isWordByte_of_isDigit {c : Byte} (h : isDigit c = true) : isWordByte c = true := by
  simp [isWordByte, isAlnum, h]

/-- **A rendered value has the tokens of a literal.** -/
theorem lexesTo_renderLiteralSql {v : Value} (hv : ClosedValue v) :
    LexesTo (renderLiteralSql v) (literalTokens v) := by
  intro rest hrest
  cases v with
  | null =>
      refine lexesTo_word (by decide) ?_ rest hrest
      have hword : (str "NULL").all isWordByte = true := by decide
      exact List.all_eq_true.mp hword
  | int i =>
      obtain ⟨hne, hdigits, -⟩ := natToString_digits i.toInt.natAbs
      have hnumber : tokenize (natToString i.toInt.natAbs ++ rest)
          = natToString i.toInt.natAbs :: tokenize rest :=
        tokenize_word hne (fun c hc => isWordByte_of_isDigit (hdigits c hc)) hrest
      show tokenize (intToString i.toInt ++ rest) = literalTokens (.int i) ++ _
      unfold intToString literalTokens
      dsimp only
      by_cases hneg : i.toInt < 0
      · rw [if_pos hneg, if_pos hneg, List.cons_append, tokenize_mark (by decide), hnumber]
        rfl
      · rw [if_neg hneg, if_neg hneg, hnumber]
        rfl
  | string s =>
      have htext : renderLiteralSql (.string s) ++ rest
          = byte '"' :: (escapeJsonText s ++ byte '"' :: rest) := by
        show str "\"" ++ escapeJsonText s ++ str "\"" ++ rest = _
        rw [List.append_assoc, List.append_assoc]
        rfl
      rw [htext, tokenize_literal (hv s rfl)]
      rfl

/-- **The tokens of a list with commas.** -/
theorem lexesTo_commas {α : Type} {text : α → Str} {tokens : α → List Str} {items : List α}
    (h : ∀ a ∈ items, LexesTo (text a) (tokens a)) :
    LexesTo ((str ", ").intercalate (items.map text)) (commaTokens (items.map tokens)) := by
  induction items with
  | nil => exact fun rest _ => rfl
  | cons a items ih =>
      intro rest hrest
      have ha := h a (by simp)
      cases items with
      | nil =>
          rw [List.map_singleton, List.intercalate_singleton]
          exact ha rest hrest
      | cons a' items =>
          have hlater := ih (fun b hb => h b (List.mem_cons_of_mem _ hb)) rest hrest
          rw [List.map_cons, List.map_cons, List.intercalate_cons_cons, List.append_assoc,
            List.append_assoc]
          show tokenize (text a ++ byte ',' :: byte ' ' ::
            ((str ", ").intercalate ((a' :: items).map text) ++ rest)) = _
          rw [ha _ (head_not_word (by decide) _), tokenize_mark (by decide),
            tokenize_space (by decide), hlater]
          show _ = tokens a ++ str "," :: commaTokens ((a' :: items).map tokens) ++ tokenize rest
          rw [List.append_assoc]
          rfl

/-! ## §2. INSERT. -/

/-- One row of `RenderInsertSql`. -/
theorem lexesTo_row {row : List Value} (h : ∀ v ∈ row, ClosedValue v) :
    LexesTo (str "(" ++ (str ", ").intercalate (row.map renderLiteralSql) ++ str ")")
      (rowTokens row) := by
  intro rest _
  have hvalues := lexesTo_commas (fun v hv => lexesTo_renderLiteralSql (h v hv))
    (byte ')' :: rest) (head_not_word (by decide) _)
  rw [List.append_assoc, List.append_assoc]
  show tokenize (byte '(' :: ((str ", ").intercalate (row.map renderLiteralSql)
    ++ byte ')' :: rest)) = _
  rw [tokenize_mark (by decide), hvalues, tokenize_mark (by decide)]
  unfold rowTokens
  rw [List.cons_append, List.append_assoc]
  rfl

theorem tokenize_renderInsertSql {d t : Str} {columns : List Str} {rows : List (List Value)}
    (hd : isIdentifier d = true) (ht : isIdentifier t = true)
    (hnames : ∀ n ∈ columns, isIdentifier n = true)
    (hclosed : ∀ row ∈ rows, ∀ v ∈ row, ClosedValue v) :
    tokenize (renderInsertSql ⟨some d, t⟩ columns rows) = insertTokens d t columns rows := by
  have hcolumns : LexesTo ((str ", ").intercalate (columns.map fun n => n))
      (commaTokens (columns.map fun n => [n])) :=
    lexesTo_commas fun n hn => lexesTo_identifier (hnames n hn)
  rw [List.map_id'] at hcolumns
  have hrows := lexesTo_commas fun row hrow => lexesTo_row (hclosed row hrow)
  generalize htail : (str ", ").intercalate (rows.map fun row =>
    str "(" ++ (str ", ").intercalate (row.map renderLiteralSql) ++ str ")") = tail at hrows
  have htext : renderInsertSql ⟨some d, t⟩ columns rows = str "INSERT" ++ byte ' ' ::
      (str "INTO" ++ byte ' ' :: (d ++ byte '.' :: (t ++ byte ' ' :: byte '(' ::
        ((str ", ").intercalate columns ++ byte ')' :: byte ' ' :: (str "VALUES" ++ byte ' ' ::
          (tail ++ byte ';' :: [])))))) := by
    unfold renderInsertSql
    rw [htail]
    simp only [List.append_assoc]
    rfl
  have hword : ∀ w ∈ [str "INSERT", str "INTO", str "VALUES"], LexesTo w [w] := by
    intro w hw
    refine lexesTo_identifier ?_
    revert w
    decide
  rw [htext, hword _ (by simp) _ (head_not_word (by decide) _), tokenize_space (by decide),
    hword _ (by simp) _ (head_not_word (by decide) _), tokenize_space (by decide),
    lexesTo_identifier hd _ (head_not_word (by decide) _), tokenize_mark (by decide),
    lexesTo_identifier ht _ (head_not_word (by decide) _), tokenize_space (by decide),
    tokenize_mark (by decide), hcolumns _ (head_not_word (by decide) _), tokenize_mark (by decide),
    tokenize_space (by decide), hword _ (by simp) _ (head_not_word (by decide) _),
    tokenize_space (by decide), hrows _ (head_not_word (by decide) _), tokenize_mark (by decide)]
  unfold insertTokens
  simp only [List.cons_append, List.nil_append, List.append_assoc]
  rfl

/-- **The statement a node reads.** -/
theorem parse_renderInsertSql {d t : Str} {columns : List Str} {rows : List (List Value)}
    (hd : isIdentifier d = true) (ht : isIdentifier t = true)
    (hnames : ∀ n ∈ columns, isIdentifier n = true) (hcolumns : columns ≠ [])
    (hnodup : columns.Nodup) (hrows : rows ≠ [])
    (hlengths : ∀ row ∈ rows, row.length = columns.length)
    (hclosed : ∀ row ∈ rows, ∀ v ∈ row, ClosedValue v) :
    parse (renderInsertSql ⟨some d, t⟩ columns rows)
      = .ok (.insert ⟨⟨some d, t⟩, columns, rows.map rereadRow⟩) := by
  rw [parse, tokenize_renderInsertSql hd ht hnames hclosed]
  exact parseTokens_insert hd ht hnames hcolumns hnodup hrows hlengths

end CustomDbms.Server
