/-
  CustomDbms.Parser.CreateTableText
  ─────────────────────────────────
  **CREATE TABLE AS TEXT.**

  What the parser lets through as a CREATE: names that are identifiers, and
  defaults whose texts are closed, since a parenthesis follows them.  And what
  it makes of the tokens of a CREATE TABLE: the statement again, as long as no
  column says NOT NULL in two words.  The keyword of the grammar is NOT_NULL,
  so at the word NOT the column ends, and a comma is missing.

    • `parse_create` — every accepted CREATE is well formed;
    • `parseTokens_createTable` — tokens without NOT NULL are read back;
    • `parseTokens_notNull` — tokens with NOT NULL are refused.
-/
import CustomDbms.Parser.InsertText

namespace CustomDbms.Parser

open CustomDbms.Common Cursor

/-! ## §1. Where a CREATE comes from. -/

/-- `CREATE DATABASE` or `CREATE TABLE`. -/
def Statement.isCreate : Statement → Bool
  | .createDatabase _ | .createTable _ => true
  | _ => false

/-- The parsers of the other statements. -/
theorem parseNotCreate_yields (p : ParseM Statement)
    (hp : p ∈ [parseDrop, parseUse, parseInsert, parseUpdate, parseDelete, parseSelect,
      parseRevert, parseTransactionWord .beginTransaction, parseTransactionWord .commitTransaction,
      parseTransactionWord .rollbackTransaction, parseIndexWord .checkIndex,
      parseIndexWord .rebuildIndex]) :
    Yields (fun statement => statement.isCreate = false) p := by
  have hlast : ∀ statement : Statement, statement.isCreate = false →
      Yields (fun statement => statement.isCreate = false) (pure statement) :=
    fun statement h => yields_pure h
  simp only [List.mem_cons, List.not_mem_nil, or_false] at hp
  rcases hp with rfl | rfl | rfl | rfl | rfl | rfl | rfl | rfl | rfl | rfl | rfl | rfl
  · exact yields_bind fun _ => yields_ite (yields_bind fun _ => hlast _ rfl)
      (yields_bind fun _ => yields_bind fun _ => hlast _ rfl)
  · exact yields_bind fun _ => hlast _ rfl
  · exact parseInsert_yields fun _ => rfl
  · exact yields_bind fun _ => yields_bind fun _ => yields_bind fun _ => yields_bind fun _ =>
      yields_bind fun _ => hlast _ rfl
  · exact yields_bind fun _ => yields_bind fun _ => yields_bind fun _ => hlast _ rfl
  · refine yields_bind fun star => ?_
    extract_lets afterItems
    have hrest : ∀ items, Yields (fun statement => statement.isCreate = false)
        (afterItems items) := fun items =>
      yields_bind fun _ => yields_bind fun _ => yields_bind fun _ => hlast _ rfl
    exact yields_ite (yields_bind hrest) (yields_bind fun _ => yields_bind hrest)
  · refine yields_bind fun _ => yields_bind fun _ => yields_ite (hlast _ rfl) ?_
    refine yields_bind fun _ => ?_
    extract_lets mode
    have hmode : ∀ m, Yields (fun statement => statement.isCreate = false) (mode m) :=
      fun _ => yields_bind fun _ => hlast _ rfl
    exact yields_ite (yields_bind hmode) (yields_bind fun _ => yields_bind hmode)
  all_goals exact yields_bind fun _ => hlast _ rfl

/-- **A CREATE comes from `ParseCreate`.** -/
theorem parseStatement_create {tokens rest : List Str} {statement : Statement}
    (hcreate : statement.isCreate = true)
    (h : parseStatement tokens = .ok (some statement, rest)) :
    ∃ t toks, tokens = t :: toks ∧ parseCreate toks = .ok (statement, rest) := by
  have hskip : ∀ p ∈ [parseDrop, parseUse, parseInsert, parseUpdate, parseDelete, parseSelect,
      parseRevert, parseTransactionWord .beginTransaction, parseTransactionWord .commitTransaction,
      parseTransactionWord .rollbackTransaction, parseIndexWord .checkIndex,
      parseIndexWord .rebuildIndex],
      ¬ ∃ t toks, tokens = t :: toks ∧ p toks = .ok (statement, rest) := by
    rintro p hp ⟨t, toks, -, hrun⟩
    have hother : statement.isCreate = false := parseNotCreate_yields p hp _ _ _ hrun
    rw [hcreate] at hother
    cases hother
  unfold parseStatement at h
  refine (keyword_branch h).resolve_right fun hlater => ?_
  iterate 12 replace hlater := (keyword_branch hlater).resolve_left (hskip _ (by simp))
  cases hlater

/-! ## §2. What a CREATE holds. -/

/-- A column as the parser builds it. -/
structure ColumnOk (col : ColumnDefinition) : Prop where
  name : isIdentifier col.name = true
  type : col.type ≠ .null
  default : ∀ v, col.defaultValue = some v → ClosedValue v
  indexed : col.indexed = true → col.notNull = true

/-- **A well-formed CREATE.** -/
def CreateOk : Statement → Prop
  | .createDatabase name => isIdentifier name = true
  | .createTable stmt => NameOk stmt.tableName ∧ ∀ col ∈ stmt.columns, ColumnOk col
  | _ => True

/-- What has been read of a column is well formed if a token follows; each
option keeps that. -/
theorem keeps_parseColumnOptions {fuel : Nat} {col out : ColumnDefinition}
    {tokens rest : List Str} (htokens : ClosedTokens tokens) (hcol : tokens ≠ [] → ColumnOk col)
    (h : parseColumnOptions fuel col tokens = .ok (out, rest)) :
    (rest ≠ [] → ColumnOk out) ∧ ClosedTokens rest := by
  induction fuel generalizing col tokens with
  | zero =>
      cases h
      exact ⟨hcol, htokens⟩
  | succ fuel ih =>
      cases tokens with
      | nil =>
          cases h
          exact ⟨fun hne => absurd rfl hne, htokens⟩
      | cons t tokens =>
          have hok : ColumnOk col := hcol (List.cons_ne_nil _ _)
          rw [parseColumnOptions] at h
          obtain ⟨notNull, mid, hnotNull, h⟩ := bind_eq_ok h
          have hmid := (keeps_matchKeyword _ _ _ _ htokens hnotNull).2
          cases notNull with
          | true =>
              rw [if_pos rfl] at h
              refine ih hmid ?_ h
              exact fun _ => ⟨hok.name, hok.type, hok.default, fun _ => rfl⟩
          | false =>
              rw [if_neg (by decide)] at h
              obtain ⟨indexed, mid, hindexed, h⟩ := bind_eq_ok h
              have hmid := (keeps_matchKeyword _ _ _ _ hmid hindexed).2
              cases indexed with
              | true =>
                  rw [if_pos rfl] at h
                  refine ih hmid ?_ h
                  exact fun _ => ⟨hok.name, hok.type, hok.default, fun _ => rfl⟩
              | false =>
                  rw [if_neg (by decide)] at h
                  obtain ⟨default, mid, hdefault, h⟩ := bind_eq_ok h
                  have hmid := (keeps_matchKeyword _ _ _ _ hmid hdefault).2
                  cases default with
                  | true =>
                      rw [if_pos rfl] at h
                      obtain ⟨v, mid, hv, h⟩ := bind_eq_ok h
                      obtain ⟨hclosed, hmid⟩ := keepsBefore_parseLiteralToken _ _ _ hmid hv
                      refine ih hmid ?_ h
                      refine fun hne => ⟨hok.name, hok.type, fun v' hv' => ?_, hok.indexed⟩
                      obtain rfl := Option.some.inj hv'
                      exact hclosed hne
                  | false =>
                      rw [if_neg (by decide)] at h
                      cases h
                      exact ⟨fun _ => hok, hmid⟩

theorem keepsBefore_parseColumn : KeepsBefore ColumnOk parseColumn := by
  intro tokens col rest htokens h
  obtain ⟨name, mid, hname, h⟩ := bind_eq_ok h
  obtain ⟨hidentifier, hmid⟩ := keeps_takeIdentifier _ _ _ htokens hname
  obtain ⟨typeName, mid, htype, h⟩ := bind_eq_ok h
  have hmid := (keeps_take _ _ _ hmid htype).2
  have hoptions : ∀ (type : ValueType) (toks : List Str), type ≠ .null → ClosedTokens toks →
      (do parseColumnOptions ((← get).length + 1) ⟨name, type, false, false, none⟩ :
        ParseM ColumnDefinition) toks = .ok (col, rest) →
      (rest ≠ [] → ColumnOk col) ∧ ClosedTokens rest := by
    intro type toks hnull htoks hrun
    refine keeps_parseColumnOptions htoks (fun _ => ⟨hidentifier, hnull, ?_, ?_⟩) hrun
    · exact fun v hv => by cases hv
    · exact fun hindexed => by cases hindexed
  dsimp only at h
  by_cases hint : toUpper typeName = str "INT"
  · rw [if_pos hint] at h
    exact hoptions _ _ (by decide) hmid h
  · rw [if_neg hint] at h
    by_cases hstring : toUpper typeName = str "STRING"
    · rw [if_pos hstring] at h
      exact hoptions _ _ (by decide) hmid h
    · rw [if_neg hstring] at h
      cases h

theorem keeps_parseCreate : Keeps CreateOk parseCreate := by
  refine (keeps_matchKeyword _).bind fun database _ => ?_
  refine keeps_ite (keeps_takeIdentifier.bind fun name hname => keeps_pure hname) ?_
  refine (keeps_expectKeyword _).bind fun _ _ => ?_
  refine keeps_parseQualifiedName.bind fun name hname => (keeps_expect _).bind fun _ _ => ?_
  refine keeps_get.bind fun tokens _ => ?_
  exact (keeps_parseUntilParen keepsBefore_parseColumn _).bind fun columns hcolumns =>
    keeps_pure ⟨hname, hcolumns⟩

/-- **Every accepted CREATE is well formed.** -/
theorem parse_create {sql : Str} {statement : Statement} (hcreate : statement.isCreate = true)
    (h : parse sql = .ok statement) :
    CreateOk statement ∧ validateStatement statement = .ok () := by
  obtain ⟨⟨rest, hrun⟩, hvalid⟩ := parse_eq_ok h
  obtain ⟨t, toks, htokens, hparse⟩ := parseStatement_create hcreate hrun
  have hclosed := closed_tokens sql
  rw [htokens] at hclosed
  exact ⟨(keeps_parseCreate toks _ rest (closedTokens_tail hclosed) hparse).1, hvalid⟩

/-! ## §3. Columns read back. -/

/-- The word for a type. -/
def typeWord (type : ValueType) : Str := if type = .int64 then str "INT" else str "STRING"

/-- The tokens of a default. -/
def defaultTokens : Option Value → List Str
  | some v => str "DEFAULT" :: literalTokens v
  | none => []

/-- The words of a constraint. -/
def constraintTokens (col : ColumnDefinition) : List Str :=
  if col.indexed then [str "INDEXED"]
  else if col.notNull then [str "NOT", str "NULL"]
  else []

/-- The tokens of a column. -/
def columnTokens (col : ColumnDefinition) : List Str :=
  col.name :: typeWord col.type :: (constraintTokens col ++ defaultTokens col.defaultValue)

/-- A column that has been written and read again. -/
def rereadColumn (col : ColumnDefinition) : ColumnDefinition :=
  { col with defaultValue := col.defaultValue.map reread }

/-- A column that says NOT NULL, and in two words. -/
def SaysNotNull (col : ColumnDefinition) : Prop := col.notNull = true ∧ col.indexed = false

instance (col : ColumnDefinition) : Decidable (SaysNotNull col) :=
  inferInstanceAs (Decidable (col.notNull = true ∧ col.indexed = false))

/-- The options end at any other token. -/
theorem parseColumnOptions_end {t : Str} (ht : t ∈ [str ",", str ")", str "NOT"]) (fuel : Nat)
    (col : ColumnDefinition) (rest : List Str) :
    parseColumnOptions fuel col (t :: rest) = .ok (col, t :: rest) := by
  have hother : ∀ kw ∈ [str "NOT_NULL", str "INDEXED", str "DEFAULT"], toUpper t ≠ kw := by
    revert t
    decide
  cases fuel with
  | zero => rfl
  | succ fuel =>
      rw [parseColumnOptions, bind_of_ok (matchKeyword_other (hother _ (by simp)) _),
        if_neg (by decide), bind_of_ok (matchKeyword_other (hother _ (by simp)) _),
        if_neg (by decide), bind_of_ok (matchKeyword_other (hother _ (by simp)) _),
        if_neg (by decide)]
      rfl

theorem parseColumnOptions_indexed (fuel : Nat) (col : ColumnDefinition) (tokens : List Str) :
    parseColumnOptions (fuel + 1) col (str "INDEXED" :: tokens)
      = parseColumnOptions fuel { col with indexed := true, notNull := true } tokens := by
  rw [parseColumnOptions, bind_of_ok (matchKeyword_other (by decide) _), if_neg (by decide),
    bind_of_ok (matchKeyword_keyword ⟨by decide, by decide⟩ _), if_pos rfl]

theorem parseColumnOptions_default {col : ColumnDefinition} (hcol : col.defaultValue = none)
    {t : Str} (ht : t ∈ [str ",", str ")", str "NOT"]) (fuel : Nat) (default : Option Value)
    (rest : List Str) :
    parseColumnOptions (fuel + 1) col (defaultTokens default ++ t :: rest)
      = .ok ({ col with defaultValue := default.map reread }, t :: rest) := by
  cases default with
  | none =>
      have hsame : { col with defaultValue := none } = col := by rw [← hcol]
      rw [Option.map_none, hsame]
      exact parseColumnOptions_end ht _ _ _
  | some v =>
      rw [defaultTokens, List.cons_append, parseColumnOptions,
        bind_of_ok (matchKeyword_other (by decide) _), if_neg (by decide),
        bind_of_ok (matchKeyword_other (by decide) _), if_neg (by decide),
        bind_of_ok (matchKeyword_keyword ⟨by decide, by decide⟩ _), if_pos rfl,
        bind_of_ok (reads_parseLiteralToken v _)]
      exact parseColumnOptions_end ht _ _ _

/-- Name and type, and then the options. -/
theorem parseColumn_start {name : Str} (h : isIdentifier name = true) {type : ValueType}
    (htype : type ≠ .null) (rest : List Str) :
    parseColumn (name :: typeWord type :: rest)
      = parseColumnOptions (rest.length + 1) ⟨name, type, false, false, none⟩ rest := by
  refine (bind_of_ok (reads_takeIdentifier h _) _).trans ?_
  cases type with
  | null => exact absurd rfl htype
  | int64 => rfl
  | string => rfl

/-- **A column without NOT NULL is read back.** -/
theorem reads_parseColumn {col : ColumnDefinition} (h : ColumnOk col) (hwords : ¬SaysNotNull col) :
    ReadsItem parseColumn (columnTokens col) (rereadColumn col) := by
  intro t rest ht
  have hend : t ∈ [str ",", str ")", str "NOT"] := by
    rcases ht with rfl | rfl
    · exact List.mem_cons_self
    · exact List.mem_cons_of_mem _ List.mem_cons_self
  obtain ⟨name, type, notNull, indexed, default⟩ := col
  unfold columnTokens rereadColumn
  dsimp only
  rw [List.cons_append, List.cons_append, parseColumn_start h.name h.type, List.append_assoc]
  cases indexed with
  | true =>
      obtain rfl : notNull = true := h.indexed rfl
      show parseColumnOptions ((defaultTokens default ++ t :: rest).length + 1 + 1) _
        (str "INDEXED" :: (defaultTokens default ++ t :: rest)) = _
      rw [parseColumnOptions_indexed]
      exact parseColumnOptions_default rfl hend _ _ _
  | false =>
      obtain rfl : notNull = false := by
        cases notNull with
        | false => rfl
        | true => exact absurd ⟨rfl, rfl⟩ hwords
      exact parseColumnOptions_default rfl hend _ _ _

/-- **A column with NOT NULL is read up to the word NOT.** -/
theorem parseColumn_notNull {col : ColumnDefinition} (h : ColumnOk col) (hwords : SaysNotNull col)
    (rest : List Str) :
    ∃ read tail, parseColumn (columnTokens col ++ rest) = .ok (read, str "NOT" :: tail) := by
  obtain ⟨name, type, notNull, indexed, default⟩ := col
  obtain ⟨rfl, rfl⟩ : notNull = true ∧ indexed = false := hwords
  refine ⟨⟨name, type, false, false, none⟩, str "NULL" :: (defaultTokens default ++ rest), ?_⟩
  refine (parseColumn_start h.name h.type _).trans ?_
  exact parseColumnOptions_end (by simp) _ _ _

/-! ## §4. The statement read back. -/

theorem bind_of_error {α β : Type} {p : ParseM α} {tokens : List Str} {message : Str}
    (h : p tokens = .error message) (f : α → ParseM β) : (p >>= f) tokens = .error message := by
  show (p tokens >>= fun r => f r.1 r.2) = _
  rw [h]
  rfl

/-- The tokens of a list with commas, one item of it in front. -/
theorem commaTokens_cons {item : List Str} {items : List (List Str)} (h : items ≠ []) :
    commaTokens (item :: items) = item ++ str "," :: commaTokens items := by
  cases items with
  | nil => exact absurd rfl h
  | cons item' items => rfl

/-- **A list is refused at the first item that is not read to its end.** -/
theorem parseUntilParen_stuck {α β : Type} {body : ParseM β} {tokens : α → List Str}
    {value : α → β} {A B : List α} {a : α}
    (hA : ∀ b ∈ A, ReadsItem body (tokens b) (value b))
    (ha : ∀ rest, ∃ b tail, body (tokens a ++ rest) = .ok (b, str "NOT" :: tail)) {fuel : Nat}
    (hfuel : A.length < fuel) (rest : List Str) :
    parseUntilParen body fuel (commaTokens ((A ++ a :: B).map tokens) ++ rest)
      = .error (str "expected token: ,") := by
  induction A generalizing fuel with
  | nil =>
      cases fuel with
      | zero => simp at hfuel
      | succ fuel =>
          obtain ⟨more, hmore⟩ : ∃ more, commaTokens (([] ++ a :: B).map tokens) ++ rest
              = tokens a ++ more := by
            cases B with
            | nil => exact ⟨rest, rfl⟩
            | cons b B =>
                rw [List.nil_append, List.map_cons, commaTokens_cons (by simp), List.append_assoc]
                exact ⟨_, rfl⟩
          obtain ⟨b, tail, hb⟩ := ha more
          rw [hmore, parseUntilParen, bind_of_ok hb, bind_of_ok (matchToken_other (by decide) _),
            if_neg (by decide)]
          refine bind_of_error ?_ _
          exact (bind_of_ok (matchToken_other (by decide) _) _).trans rfl
  | cons b A ih =>
      cases fuel with
      | zero => simp at hfuel
      | succ fuel =>
          have hrest := ih (fun c hc => hA c (by simp [hc])) (by simpa using hfuel)
          rw [List.cons_append, List.map_cons, commaTokens_cons (by simp), List.append_assoc,
            List.cons_append, parseUntilParen, bind_of_ok (hA b (by simp) _ _ (.inl rfl)),
            bind_of_ok (matchToken_other (by decide) _), if_neg (by decide)]
          refine (bind_of_ok (reads_expect (str ",") _) _).trans ?_
          exact bind_of_error hrest _

/-- The tokens of a CREATE TABLE. -/
def createTableTokens (t : Str) (columns : List ColumnDefinition) : List Str :=
  [str "CREATE", str "TABLE", t, str "("] ++ (commaTokens (columns.map columnTokens) ++ [str ")"])
    ++ [str ";"]

/-- Validation sees of a default its type only. -/
theorem validateColumns_reread (seen : List Str) (columns : List ColumnDefinition) :
    validateColumns seen (columns.map rereadColumn) = validateColumns seen columns := by
  have hassign : ∀ (v : Value) (type : ValueType) (nullable : Bool),
      canAssignToType (reread v) type nullable = canAssignToType v type nullable := by
    intro v type nullable
    cases v with
    | null => rfl
    | int i => rfl
    | string s => rfl
  induction columns generalizing seen with
  | nil => rfl
  | cons col columns ih =>
      obtain ⟨name, type, notNull, indexed, default⟩ := col
      rw [List.map_cons, validateColumns, validateColumns]
      cases default with
      | none => simp only [rereadColumn, Option.map_none, ih]
      | some v => simp only [rereadColumn, Option.map_some, hassign, ih]

theorem validateCreateTable_reread (name name' : QualifiedName) (columns : List ColumnDefinition) :
    validateCreateTable ⟨name, columns.map rereadColumn⟩
      = validateCreateTable ⟨name', columns⟩ := by
  unfold validateCreateTable
  dsimp only
  cases columns with
  | nil => rfl
  | cons col columns => rw [if_neg (by simp), if_neg (by simp), validateColumns_reread]

/-- A name without a database in front of something else than a point. -/
theorem parseQualifiedName_plain {t : Str} (h : isIdentifier t = true) (rest : List Str) :
    parseQualifiedName (t :: str "(" :: rest) = .ok (⟨none, t⟩, str "(" :: rest) := by
  refine (bind_of_ok (reads_takeIdentifier h _) _).trans ?_
  exact (bind_of_ok (matchToken_other (by decide) _) _).trans rfl

/-- What stands behind the word CREATE, up to the columns. -/
theorem parseCreate_table {t : Str} (ht : isIdentifier t = true) (tail : List Str) :
    parseCreate (str "TABLE" :: t :: str "(" :: tail)
      = (parseUntilParen parseColumn (tail.length + 1) >>= fun columns =>
          pure (Statement.createTable ⟨⟨none, t⟩, columns⟩)) tail := by
  refine (bind_of_ok (matchKeyword_other (by decide) _) _).trans ?_
  refine (bind_of_ok rfl _).trans ?_
  refine (bind_of_ok (parseQualifiedName_plain ht _) _).trans ?_
  exact (bind_of_ok (reads_expect (str "(") _) _).trans rfl

/-- The columns and what follows them. -/
theorem createTableTokens_eq (t : Str) (columns : List ColumnDefinition) :
    createTableTokens t columns = str "CREATE" :: str "TABLE" :: t :: str "(" ::
      (commaTokens (columns.map columnTokens) ++ [str ")", str ";"]) := by
  unfold createTableTokens
  simp

section Statements

variable {t : Str} (ht : isIdentifier t = true) {columns : List ColumnDefinition}
  (hcolumns : ∀ col ∈ columns, ColumnOk col)

include ht hcolumns

/-- **The tokens of a CREATE TABLE without NOT NULL are read back.** -/
theorem parseTokens_createTable (hwords : ∀ col ∈ columns, ¬SaysNotNull col) {name : QualifiedName}
    (hvalid : validateCreateTable ⟨name, columns⟩ = .ok ()) :
    parseTokens (createTableTokens t columns)
      = .ok (.createTable ⟨⟨none, t⟩, columns.map rereadColumn⟩) := by
  have hne : columns ≠ [] := by
    rintro rfl
    cases hvalid
  have hlength : columns.length ≤ (commaTokens (columns.map columnTokens)).length :=
    length_commaTokens fun col _ => List.cons_ne_nil _ _
  have hread : parseCreate (createTableTokens t columns).tail
      = .ok (.createTable ⟨⟨none, t⟩, columns.map rereadColumn⟩, [str ";"]) := by
    rw [createTableTokens_eq]
    refine (parseCreate_table ht _).trans ?_
    have hfuel : columns.length
        ≤ (commaTokens (columns.map columnTokens) ++ [str ")", str ";"]).length + 1 := by
      rw [List.length_append]
      omega
    have hlist := reads_parseUntilParen hne
      (fun col hcol => reads_parseColumn (hcolumns col hcol) (hwords col hcol)) hfuel [str ";"]
    rw [List.append_assoc] at hlist
    exact bind_of_ok hlist _
  have hstatement : parseStatement (createTableTokens t columns)
      = .ok (some (.createTable ⟨⟨none, t⟩, columns.map rereadColumn⟩), [str ";"]) := by
    show (parseCreate >>= fun statement => pure (some statement))
      (createTableTokens t columns).tail = _
    rw [bind_of_ok hread]
    rfl
  have hfinish : finishParse (.createTable ⟨⟨none, t⟩, columns.map rereadColumn⟩) [str ";"]
      = .ok (.createTable ⟨⟨none, t⟩, columns.map rereadColumn⟩) := by
    show (do validateCreateTable ⟨⟨none, t⟩, columns.map rereadColumn⟩; return _) = _
    rw [validateCreateTable_reread _ name, hvalid]
    rfl
  unfold parseTokens
  rw [if_neg (by simp [createTableTokens]), hstatement]
  dsimp only
  rw [hfinish]

/-- **The tokens of a CREATE TABLE with NOT NULL are refused.** -/
theorem parseTokens_notNull (hwords : ∃ col ∈ columns, SaysNotNull col) :
    parseTokens (createTableTokens t columns)
      = .makeError .parseError (str "expected token: ,") := by
  obtain ⟨said, hmem, hsome⟩ := hwords
  have hlength : columns.length ≤ (commaTokens (columns.map columnTokens)).length :=
    length_commaTokens fun col _ => List.cons_ne_nil _ _
  -- the first column that says so
  obtain ⟨col, hfind⟩ := Option.isSome_iff_exists.mp
    (List.find?_isSome (p := fun col => decide (SaysNotNull col)) |>.mpr
      ⟨said, hmem, decide_eq_true hsome⟩)
  obtain ⟨hcol, A, B, hsplit, hA⟩ := List.find?_eq_some_iff_append.mp hfind
  have hbefore : ∀ b ∈ A, ReadsItem parseColumn (columnTokens b) (rereadColumn b) := by
    intro b hb
    refine reads_parseColumn (hcolumns b (by simp [hsplit, hb])) ?_
    simpa using hA b hb
  have hstop := parseColumn_notNull (hcolumns col (by simp [hsplit])) (of_decide_eq_true hcol)
  have hfuel : A.length
      < (commaTokens (columns.map columnTokens) ++ [str ")", str ";"]).length + 1 := by
    rw [List.length_append]
    rw [hsplit, List.length_append] at hlength
    rw [hsplit]
    omega
  have hstuck := parseUntilParen_stuck (B := B) hbefore hstop hfuel [str ")", str ";"]
  rw [← hsplit] at hstuck
  have hread : parseCreate (createTableTokens t columns).tail
      = .error (str "expected token: ,") := by
    rw [createTableTokens_eq]
    exact (parseCreate_table ht _).trans (bind_of_error hstuck _)
  have hstatement : parseStatement (createTableTokens t columns)
      = .error (str "expected token: ,") := by
    show (parseCreate >>= fun statement => pure (some statement))
      (createTableTokens t columns).tail = _
    exact bind_of_error hread _
  unfold parseTokens
  rw [if_neg (by simp [createTableTokens]), hstatement]

end Statements

end CustomDbms.Parser
