/-
  CustomDbms.Parser.StatementPrinting
  ───────────────────────────────────
  **STATEMENTS AS TOKENS.**

  Every statement of the grammar that passes `ValidateStatement` has a list of
  tokens that `Parse` reads back to it.  So two statements with the same tokens
  are equal, and nothing of a statement is lost in its text.

    • `printStatement` — the tokens of a statement;
    • `InLanguage` — the grammar;
    • `parseTokens_printStatement` — the tokens are read back.
-/
import CustomDbms.Parser.CreateTableText
import CustomDbms.Parser.WherePrinting

namespace CustomDbms.Parser

open CustomDbms.Common Cursor

/-! ## §1. Printing. -/

/-- The tokens of a literal. -/
def printValue : Value → List Str
  | .string s => [quoted s]
  | v => literalTokens v

/-- The tokens of a name. -/
def printName (name : QualifiedName) : List Str :=
  match name.databaseName with
  | some d => [d, str ".", name.objectName]
  | none => [name.objectName]

/-- The constraint of a column. -/
def printConstraint (col : ColumnDefinition) : List Str :=
  if col.indexed then [str "INDEXED"] else if col.notNull then [str "NOT_NULL"] else []

/-- The default of a column. -/
def printDefault : Option Value → List Str
  | some v => str "DEFAULT" :: printValue v
  | none => []

/-- The tokens of a column definition. -/
def printColumn (col : ColumnDefinition) : List Str :=
  col.name :: typeWord col.type :: (printConstraint col ++ printDefault col.defaultValue)

/-- A row of VALUES. -/
def printRow (row : List Expression) : List Str :=
  str "(" :: (commaTokens (row.map printExpression) ++ [str ")"])

/-- The WHERE clause, if there is one. -/
def printWhere : Option Expression → List Str
  | some clause => str "WHERE" :: printExpression clause
  | none => []

/-- An assignment of UPDATE. -/
def printAssignment (a : Assignment) : List Str :=
  a.columnName :: str "=" :: wrapped (!isPrimary a.value) (printExpression a.value)

/-- The word of an aggregate. -/
def aggregateWord : AggregateKind → Str
  | .sum => str "SUM"
  | .count => str "COUNT"
  | .avg => str "AVG"

/-- A column or an aggregate. -/
def printSubject (item : SelectItem) : List Str :=
  match item.aggregate with
  | some kind => [aggregateWord kind, str "(", item.columnName, str ")"]
  | none => [item.columnName]

/-- The name given to an item. -/
def printAlias : Option Str → List Str
  | some name => [str "AS", name]
  | none => []

/-- An item of SELECT. -/
def printItem (item : SelectItem) : List Str := printSubject item ++ printAlias item.aliasName

/-- The item of `SELECT *`. -/
def wildcard : SelectItem := ⟨true, [], none, none⟩

/-- The items of SELECT. -/
def printItems (items : List SelectItem) : List Str :=
  if items = [wildcard] then [str "*"] else commaTokens (items.map printItem)

/-- The mode and the timestamp of REVERT. -/
def printTimestamp (stmt : RevertStatement) : List Str :=
  match stmt.mode with
  | .latest => [str "LATEST"]
  | .exact => [str "EXACT", quoted stmt.timestamp]
  | .atOrBefore => [str "AT_OR_BEFORE", quoted stmt.timestamp]

/-- What follows the first word of a statement. -/
def printBody : Statement → List Str
  | .createDatabase name => [str "DATABASE", name]
  | .dropDatabase name => [str "DATABASE", name]
  | .useDatabase name => [name]
  | .createTable stmt => str "TABLE" :: (printName stmt.tableName ++
      str "(" :: (commaTokens (stmt.columns.map printColumn) ++ [str ")"]))
  | .dropTable name => str "TABLE" :: printName name
  | .insert stmt => str "INTO" :: (printName stmt.tableName ++
      str "(" :: (commaTokens (stmt.columnNames.map fun n => [n]) ++
        str ")" :: str "VALUES" :: commaTokens (stmt.rows.map printRow)))
  | .update stmt => printName stmt.tableName ++
      str "SET" :: (commaTokens (stmt.assignments.map printAssignment) ++
        printWhere stmt.whereClause)
  | .delete stmt => str "FROM" :: (printName stmt.tableName ++ printWhere stmt.whereClause)
  | .select stmt => printItems stmt.items ++
      str "FROM" :: (printName stmt.tableName ++ printWhere stmt.whereClause)
  | .revert stmt => printName stmt.tableName ++ printTimestamp stmt
  | .checkIndex | .rebuildIndex => [str "INDEX"]
  | _ => []

/-- The first word of a statement. -/
def firstWord : Statement → Str
  | .createDatabase _ | .createTable _ => str "CREATE"
  | .dropDatabase _ | .dropTable _ => str "DROP"
  | .useDatabase _ => str "USE"
  | .insert _ => str "INSERT"
  | .update _ => str "UPDATE"
  | .delete _ => str "DELETE"
  | .select _ => str "SELECT"
  | .revert _ => str "REVERT"
  | .beginTransaction => str "BEGIN"
  | .commitTransaction => str "COMMIT"
  | .rollbackTransaction => str "ROLLBACK"
  | .checkIndex => str "CHECK"
  | .rebuildIndex => str "REBUILD"
  | .unknown raw => raw

/-- **The tokens of a statement.** -/
def printStatement (statement : Statement) : List Str :=
  firstWord statement :: (printBody statement ++ [str ";"])

/-! ## §2. The grammar. -/

/-- A column definition of the grammar. -/
structure ColumnIn (col : ColumnDefinition) : Prop where
  name : isIdentifier col.name = true
  type : col.type ≠ .null
  indexed : col.indexed = true → col.notNull = true

/-- An item of SELECT other than `*`: a column whose name is no aggregate, or
an aggregate of a column or of all. -/
structure ItemIn (item : SelectItem) : Prop where
  wildcard : item.isWildcard = false
  subject : (item.aggregate = none ∧ isIdentifier item.columnName = true ∧
      parseAgg item.columnName = none) ∨
    (item.aggregate.isSome = true ∧
      (item.columnName = str "*" ∨ isIdentifier item.columnName = true))
  name : ∀ name ∈ item.aliasName, isIdentifier name = true

/-- The WHERE clause is one of the grammar. -/
def WhereIn (w : Option Expression) : Prop := ∀ clause ∈ w, InGrammar clause

/-- **The statements of the grammar.** -/
def InLanguage : Statement → Prop
  | .unknown _ => False
  | .createDatabase name | .dropDatabase name | .useDatabase name => isIdentifier name = true
  | .createTable stmt => NameOk stmt.tableName ∧ ∀ col ∈ stmt.columns, ColumnIn col
  | .dropTable name => NameOk name
  | .insert stmt => NameOk stmt.tableName ∧ (∀ n ∈ stmt.columnNames, isIdentifier n = true) ∧
      ∀ row ∈ stmt.rows, ∀ e ∈ row, ∃ v, e = .literal v
  | .update stmt => NameOk stmt.tableName ∧
      (∀ a ∈ stmt.assignments, isIdentifier a.columnName = true ∧ InGrammar a.value) ∧
      WhereIn stmt.whereClause
  | .delete stmt => NameOk stmt.tableName ∧ WhereIn stmt.whereClause
  | .select stmt => NameOk stmt.tableName ∧
      (stmt.items = [wildcard] ∨ ∀ item ∈ stmt.items, ItemIn item) ∧ WhereIn stmt.whereClause
  | .revert stmt => NameOk stmt.tableName ∧ (stmt.mode = .latest → stmt.timestamp = str "LATEST")
  | .beginTransaction | .commitTransaction | .rollbackTransaction => True
  | .checkIndex | .rebuildIndex => True

/-- The statements that `Parse` can return. -/
def Acceptable (statement : Statement) : Prop :=
  InLanguage statement ∧ validateStatement statement = .ok ()

/-! ## §3. Reading the parts. -/

section Parts

variable {t : Str} {rest : List Str}

theorem parseQualifiedName_print {name : QualifiedName} (h : NameOk name) (ht : t ≠ str ".") :
    parseQualifiedName (printName name ++ t :: rest) = .ok (name, t :: rest) := by
  obtain ⟨database, object⟩ := name
  cases database with
  | some d => exact reads_parseQualifiedName (h.2 d rfl) h.1 (t :: rest)
  | none =>
      refine (bind_of_ok (reads_takeIdentifier h.1 _) _).trans ?_
      exact (bind_of_ok (matchToken_other ht _) _).trans rfl

theorem reads_printValue (v : Value) : Reads parseLiteralToken (printValue v) v := by
  cases v with
  | null => exact fun rest => rfl
  | int i => exact reads_number i
  | string s => exact reads_quoted s

theorem parseWhere_print {w : Option Expression} (h : WhereIn w) :
    parseWhere (printWhere w ++ str ";" :: rest) = .ok (w, str ";" :: rest) := by
  cases w with
  | none => rfl
  | some clause =>
      refine (bind_of_ok (matchKeyword_keyword ⟨by decide, by decide⟩ _) _).trans ?_
      refine (bind_of_ok (parseExpression_printExpression (h clause rfl) ?_) _).trans rfl
      exact ends_cons (by simp [clauseEnds])

/-- The value of an assignment, in front of anything but a dot. -/
theorem parsePrimary_print {e : Expression} (h : InGrammar e) :
    ReadsPrimary parseExpression (wrapped (!isPrimary e) (printExpression e)) e := by
  cases hprimary : isPrimary e with
  | true => exact readsPrimary_print hprimary h
  | false => exact readsPrimary_paren fun rest hrest => parseExpression_printExpression h hrest

theorem parseAssignment_print {a : Assignment} (hname : isIdentifier a.columnName = true)
    (hvalue : InGrammar a.value) (ht : t ≠ str ".") :
    parseAssignment (printAssignment a ++ t :: rest) = .ok (a, t :: rest) := by
  refine (bind_of_ok (reads_takeIdentifier hname _) _).trans ?_
  refine (bind_of_ok (reads_expect (str "=") _) _).trans ?_
  exact (bind_of_ok (parsePrimary_print hvalue (t :: rest) (noDot_cons ht _)) _).trans rfl

/-- The name given to an item, and what goes on with it. -/
theorem parseAlias_print {β : Type} {named : Option Str}
    (h : ∀ name ∈ named, isIdentifier name = true) (ht : toUpper t ≠ str "AS")
    (k : Option Str → ParseM β) :
    (matchKeyword (str "AS") >>= fun found =>
        if found = true then some <$> takeIdentifier >>= k else pure none >>= k)
      (printAlias named ++ t :: rest) = k named (t :: rest) := by
  cases named with
  | none => exact (bind_of_ok (matchKeyword_other ht _) _).trans rfl
  | some name =>
      refine (bind_of_ok (matchKeyword_keyword ⟨by decide, by decide⟩ _) _).trans ?_
      rw [if_pos rfl]
      exact bind_of_ok ((reads_takeIdentifier (h name rfl)).map some (t :: rest)) k

theorem parseAgg_aggregateWord (kind : AggregateKind) :
    parseAgg (aggregateWord kind) = some kind := by
  cases kind <;> rfl

theorem parseSelectItem_print {item : SelectItem} (h : ItemIn item)
    (ht : toUpper t ≠ str "AS") :
    parseSelectItem (printItem item ++ t :: rest) = .ok (item, t :: rest) := by
  obtain ⟨isWildcard, column, named, aggregate⟩ := item
  obtain rfl : isWildcard = false := h.wildcard
  rw [printItem, List.append_assoc]
  rcases h.subject with ⟨hnone, hcolumn, hagg⟩ | ⟨hsome, hcolumn⟩
  · -- a column
    obtain rfl : aggregate = none := hnone
    unfold parseSelectItem
    refine (bind_of_ok (a := column) rfl _).trans ?_
    dsimp only at hagg ⊢
    rw [hagg, if_neg (by decide)]
    refine (bind_of_ok (reads_takeIdentifier hcolumn _) _).trans ?_
    exact (parseAlias_print h.name ht _).trans rfl
  · -- an aggregate
    obtain ⟨kind, rfl⟩ : ∃ kind, aggregate = some kind := Option.isSome_iff_exists.mp hsome
    unfold parseSelectItem
    refine (bind_of_ok (a := aggregateWord kind) rfl _).trans ?_
    dsimp only
    rw [parseAgg_aggregateWord, if_pos (show (some kind).isSome = true from rfl)]
    refine (bind_of_ok (a := aggregateWord kind) rfl _).trans ?_
    refine (bind_of_ok (reads_expect (str "(") _) _).trans ?_
    have hclose : ∀ k : ParseM SelectItem, ((do expect (str ")"); k) : ParseM SelectItem)
        (str ")" :: (printAlias named ++ t :: rest)) = k (printAlias named ++ t :: rest) :=
      fun k => bind_of_ok (reads_expect (str ")") _) _
    rcases hcolumn with hall | hname
    · obtain rfl : column = str "*" := hall
      refine (bind_of_ok (matchToken_self (str "*") _) _).trans ?_
      rw [if_pos rfl]
      refine (bind_of_ok (a := str "*") rfl _).trans ?_
      refine (hclose _).trans ?_
      exact (parseAlias_print h.name ht _).trans rfl
    · have hstar : column ≠ str "*" := by
        rintro rfl
        have hword : isIdentifier (str "*") = true := hname
        exact absurd hword (by decide)
      refine (bind_of_ok (matchToken_other hstar _) _).trans ?_
      rw [if_neg (by decide)]
      refine (bind_of_ok (reads_takeIdentifier hname _) _).trans ?_
      refine (hclose _).trans ?_
      exact (parseAlias_print h.name ht _).trans rfl

/-- **A list with commas** in front of another token: each item is read in front
of a comma and of this token. -/
theorem parseCommaLoop_print {α : Type} {body : ParseM α} {tokens : α → List Str} {items : List α}
    (hne : items ≠ []) (ht : t ≠ str ",")
    (hbody : ∀ a ∈ items, ∀ next more, next = str "," ∨ next = t →
      body (tokens a ++ next :: more) = .ok (a, next :: more)) {fuel : Nat}
    (hfuel : items.length ≤ fuel) :
    parseCommaLoop body fuel (commaTokens (items.map tokens) ++ t :: rest)
      = .ok (items, t :: rest) := by
  induction items generalizing fuel with
  | nil => exact absurd rfl hne
  | cons a items ih =>
      obtain ⟨fuel, rfl⟩ : ∃ n, fuel = n + 1 := ⟨fuel - 1, by simp at hfuel; omega⟩
      rw [List.map_cons, parseCommaLoop]
      by_cases hlast : items = []
      · subst hlast
        refine (bind_of_ok (hbody a (by simp) t rest (.inr rfl)) _).trans ?_
        exact (bind_of_ok (matchToken_other ht _) _).trans rfl
      · rw [commaTokens_cons (by simpa using hlast), List.append_assoc, List.cons_append]
        refine (bind_of_ok (hbody a (by simp) _ _ (.inl rfl)) _).trans ?_
        refine (bind_of_ok (matchToken_self _ _) _).trans ?_
        have hrest := ih hlast (fun b hb => hbody b (by simp [hb])) (by simpa using hfuel)
        exact (bind_of_ok hrest _).trans rfl

/-- The options of a column end with its list. -/
theorem parseColumnOptions_print {col : ColumnDefinition} (hcol : col.defaultValue = none)
    (ht : t = str "," ∨ t = str ")") (fuel : Nat) (default : Option Value) :
    parseColumnOptions (fuel + 1) col (printDefault default ++ t :: rest)
      = .ok ({ col with defaultValue := default }, t :: rest) := by
  have hend : t ∈ [str ",", str ")", str "NOT"] := by
    rcases ht with rfl | rfl <;> simp
  cases default with
  | none =>
      have hsame : { col with defaultValue := none } = col := by rw [← hcol]
      rw [hsame]
      exact parseColumnOptions_end hend _ _ _
  | some v =>
      rw [printDefault, List.cons_append, parseColumnOptions,
        bind_of_ok (matchKeyword_other (by decide) _), if_neg (by decide),
        bind_of_ok (matchKeyword_other (by decide) _), if_neg (by decide),
        bind_of_ok (matchKeyword_keyword ⟨by decide, by decide⟩ _), if_pos rfl,
        bind_of_ok (reads_printValue v _)]
      exact parseColumnOptions_end hend _ _ _

theorem parseColumnOptions_notNull (fuel : Nat) (col : ColumnDefinition) (tokens : List Str) :
    parseColumnOptions (fuel + 1) col (str "NOT_NULL" :: tokens)
      = parseColumnOptions fuel { col with notNull := true } tokens := by
  rw [parseColumnOptions, bind_of_ok (matchKeyword_keyword ⟨by decide, by decide⟩ _), if_pos rfl]

theorem readsItem_printColumn {col : ColumnDefinition} (h : ColumnIn col) :
    ReadsItem parseColumn (printColumn col) col := by
  intro t rest ht
  obtain ⟨name, type, notNull, indexed, default⟩ := col
  unfold printColumn printConstraint
  dsimp only
  rw [List.cons_append, List.cons_append, parseColumn_start h.name h.type, List.append_assoc]
  cases indexed with
  | true =>
      obtain rfl : notNull = true := h.indexed rfl
      show parseColumnOptions ((printDefault default ++ t :: rest).length + 1 + 1) _
        (str "INDEXED" :: (printDefault default ++ t :: rest)) = _
      rw [parseColumnOptions_indexed]
      exact parseColumnOptions_print rfl ht _ _
  | false =>
      cases notNull with
      | true =>
          show parseColumnOptions ((printDefault default ++ t :: rest).length + 1 + 1) _
            (str "NOT_NULL" :: (printDefault default ++ t :: rest)) = _
          rw [parseColumnOptions_notNull]
          exact parseColumnOptions_print rfl ht _ _
      | false => exact parseColumnOptions_print rfl ht _ _

theorem reads_printRow {row : List Expression} (hne : row ≠ [])
    (h : ∀ e ∈ row, ∃ v, e = .literal v) : Reads parseInsertRow (printRow row) row := by
  intro rest
  have hbody : ∀ e ∈ row, Reads (Expression.literal <$> parseLiteralToken) (printExpression e) e := by
    intro e he
    obtain ⟨v, rfl⟩ := h e he
    cases v with
    | null => exact (reads_printValue .null).map _
    | int i => exact (reads_printValue (.int i)).map _
    | string s => exact (reads_printValue (.string s)).map _
  have hlength : row.length ≤ (commaTokens (row.map printExpression)).length := by
    refine length_commaTokens fun e he => ?_
    obtain ⟨v, rfl⟩ := h e he
    cases v with
    | string s => exact List.cons_ne_nil _ _
    | null => exact literalTokens_ne_nil _
    | int i => exact literalTokens_ne_nil _
  have hfuel : row.length
      ≤ (commaTokens (row.map printExpression) ++ str ")" :: rest).length + 1 := by
    rw [List.length_append]
    omega
  have hlist := reads_parseUntilParen hne (fun e he => (hbody e he).item) hfuel rest
  rw [List.map_id', List.append_assoc] at hlist
  refine (bind_of_ok (reads_expect (str "(") _) _).trans ?_
  show parseUntilParen _ ((commaTokens (row.map printExpression) ++ [str ")"] ++ rest).length + 1)
    (commaTokens (row.map printExpression) ++ [str ")"] ++ rest) = _
  rw [List.append_assoc]
  exact hlist

end Parts

/-! ## §4. Reading the statements. -/

/-- A step that looks at all remaining tokens. -/
theorem bind_get {α : Type} (k : List Str → ParseM α) (tokens : List Str) :
    (get >>= k) tokens = k tokens tokens := rfl

/-- A list with commas begins with its first item. -/
theorem commaTokens_first (item : List Str) (items : List (List Str)) :
    ∃ more, commaTokens (item :: items) = item ++ more := by
  cases items with
  | nil => exact ⟨[], (List.append_nil item).symm⟩
  | cons item' items => exact ⟨_, rfl⟩

/-- An item of the grammar does not begin with a star. -/
theorem printItem_first {item : SelectItem} (h : ItemIn item) :
    ∃ first tail, printItem item = first :: tail ∧ first ≠ str "*" := by
  obtain ⟨isWildcard, column, named, aggregate⟩ := item
  cases aggregate with
  | some kind => exact ⟨aggregateWord kind, _, rfl, by cases kind <;> decide⟩
  | none =>
      refine ⟨column, _, rfl, ?_⟩
      rintro rfl
      rcases h.subject with ⟨-, hname, -⟩ | ⟨hsome, -⟩
      · exact absurd (show isIdentifier (str "*") = true from hname) (by decide)
      · cases hsome

/-- The items of SELECT, and what goes on with them. -/
theorem parseItems_print {items : List SelectItem}
    (h : items = [wildcard] ∨ ∀ item ∈ items, ItemIn item) (hne : items ≠ [])
    (k : List SelectItem → ParseM Statement) (rest : List Str) :
    (matchToken (str "*") >>= fun star =>
        if star = true then pure [wildcard] >>= k
        else get >>= fun tokens => parseCommaLoop parseSelectItem (tokens.length + 1) >>= k)
      (printItems items ++ str "FROM" :: rest) = k items (str "FROM" :: rest) := by
  by_cases hwild : items = [wildcard]
  · rw [printItems, if_pos hwild, hwild]
    rfl
  · have hitems := h.resolve_left hwild
    rw [printItems, if_neg hwild]
    have hprint : ∀ item ∈ items, ∀ next more, next = str "," ∨ next = str "FROM" →
        parseSelectItem (printItem item ++ next :: more) = .ok (item, next :: more) := by
      intro item hitem next more hnext
      refine parseSelectItem_print (hitems item hitem) ?_
      rcases hnext with rfl | rfl <;> decide
    have hlength : items.length ≤ (commaTokens (items.map printItem)).length := by
      refine length_commaTokens fun item hitem => ?_
      obtain ⟨first, tail, hfirst, -⟩ := printItem_first (hitems item hitem)
      rw [hfirst]
      exact List.cons_ne_nil _ _
    -- the first token is no star
    obtain ⟨first, tail, hfirst, hstar⟩ : ∃ first tail,
        commaTokens (items.map printItem) ++ str "FROM" :: rest = first :: tail ∧
          first ≠ str "*" := by
      obtain ⟨item, items, rfl⟩ := List.exists_cons_of_ne_nil hne
      obtain ⟨first, tail, hfirst, hstar⟩ := printItem_first (hitems item (by simp))
      obtain ⟨more, hmore⟩ := commaTokens_first (printItem item) (items.map printItem)
      rw [List.map_cons, hmore, hfirst]
      exact ⟨first, _, rfl, hstar⟩
    rw [hfirst]
    refine (bind_of_ok (matchToken_other hstar _) _).trans ?_
    rw [if_neg (by decide), ← hfirst]
    exact bind_of_ok (parseCommaLoop_print hne (by decide) hprint
      (by rw [List.length_append]; omega)) k

/-- What follows a name begins with no dot. -/
theorem printWhere_first (w : Option Expression) (rest : List Str) :
    ∃ t more, printWhere w ++ str ";" :: rest = t :: more ∧ t ≠ str "." ∧ t ≠ str "," := by
  cases w with
  | none => exact ⟨str ";", rest, rfl, by decide, by decide⟩
  | some clause => exact ⟨str "WHERE", _, rfl, by decide, by decide⟩

/-- A name and a WHERE clause at the end of a statement. -/
theorem parseTarget_print {name : QualifiedName} (hname : NameOk name) {w : Option Expression}
    (hw : WhereIn w) (k : QualifiedName → Option Expression → ParseM Statement) :
    (parseQualifiedName >>= fun name => parseWhere >>= fun w => k name w)
      (printName name ++ (printWhere w ++ [str ";"])) = k name w [str ";"] := by
  obtain ⟨t, more, htail, hdot, -⟩ := printWhere_first w []
  rw [htail]
  refine (bind_of_ok (parseQualifiedName_print hname hdot) _).trans ?_
  rw [← htail]
  exact bind_of_ok (parseWhere_print hw) _

section Statements

theorem parseSelect_print {stmt : SelectStatement} (h : InLanguage (.select stmt))
    (hvalid : validateStatement (.select stmt) = .ok ()) :
    parseSelect (printBody (.select stmt) ++ [str ";"]) = .ok (.select stmt, [str ";"]) := by
  obtain ⟨hname, hitems, hwhere⟩ := h
  have hne : stmt.items ≠ [] := by
    intro hnil
    change validateSelect stmt = .ok () at hvalid
    rw [validateSelect, if_pos hnil] at hvalid
    cases hvalid
  unfold parseSelect printBody
  rw [List.append_assoc, List.cons_append, List.append_assoc]
  refine (parseItems_print hitems hne _ _).trans ?_
  refine (bind_of_ok (a := ()) rfl _).trans ?_
  exact (parseTarget_print hname hwhere _).trans rfl

theorem parseDelete_print {stmt : DeleteStatement} (h : InLanguage (.delete stmt)) :
    parseDelete (printBody (.delete stmt) ++ [str ";"]) = .ok (.delete stmt, [str ";"]) := by
  unfold parseDelete printBody
  rw [List.cons_append, List.append_assoc]
  refine (bind_of_ok (a := ()) rfl _).trans ?_
  exact (parseTarget_print h.1 h.2 _).trans rfl

theorem parseUpdate_print {stmt : UpdateStatement} (h : InLanguage (.update stmt))
    (hvalid : validateStatement (.update stmt) = .ok ()) :
    parseUpdate (printBody (.update stmt) ++ [str ";"]) = .ok (.update stmt, [str ";"]) := by
  obtain ⟨hname, hassignments, hwhere⟩ := h
  have hne : stmt.assignments ≠ [] := by
    intro hnil
    change validateUpdate stmt = .ok () at hvalid
    rw [validateUpdate, if_pos hnil] at hvalid
    cases hvalid
  obtain ⟨t, more, htail, hdot, hcomma⟩ := printWhere_first stmt.whereClause []
  have hprint : ∀ a ∈ stmt.assignments, ∀ next rest, next = str "," ∨ next = t →
      parseAssignment (printAssignment a ++ next :: rest) = .ok (a, next :: rest) := by
    intro a ha next rest hnext
    obtain ⟨hcolumn, hvalue⟩ := hassignments a ha
    refine parseAssignment_print hcolumn hvalue ?_
    rcases hnext with rfl | rfl
    · decide
    · exact hdot
  have hlength : stmt.assignments.length
      ≤ (commaTokens (stmt.assignments.map printAssignment)).length :=
    length_commaTokens fun a _ => List.cons_ne_nil _ _
  unfold parseUpdate printBody
  rw [List.append_assoc, List.cons_append, List.append_assoc]
  refine (bind_of_ok (parseQualifiedName_print hname (by decide)) _).trans ?_
  refine (bind_of_ok (a := ()) rfl _).trans ?_
  refine (bind_get _ _).trans ?_
  rw [htail]
  refine (bind_of_ok (parseCommaLoop_print hne hcomma hprint
    (by rw [List.length_append]; omega)) _).trans ?_
  rw [← htail]
  exact (bind_of_ok (parseWhere_print hwhere) _).trans rfl

theorem parseInsert_print {stmt : InsertStatement} (h : InLanguage (.insert stmt))
    (hvalid : validateStatement (.insert stmt) = .ok ()) :
    parseInsert (printBody (.insert stmt) ++ [str ";"]) = .ok (.insert stmt, [str ";"]) := by
  obtain ⟨hname, hcolumns, hrows⟩ := h
  obtain ⟨hcolumnsNe, hrowsNe, -, hlengths⟩ := validateInsert_eq_ok.mp hvalid
  have hrowNe : ∀ row ∈ stmt.rows, row ≠ [] := by
    rintro row hrow rfl
    exact hcolumnsNe (List.length_eq_zero_iff.mp (hlengths [] hrow).symm)
  have hnames : ∀ n ∈ stmt.columnNames, ReadsItem takeIdentifier [n] n :=
    fun n hn => (reads_takeIdentifier (hcolumns n hn)).item
  have hlength : stmt.columnNames.length
      ≤ (commaTokens (stmt.columnNames.map fun n => [n])).length :=
    length_commaTokens fun n _ => List.cons_ne_nil _ _
  have hprint : ∀ row ∈ stmt.rows, ∀ next rest, next = str "," ∨ next = str ";" →
      parseInsertRow (printRow row ++ next :: rest) = .ok (row, next :: rest) :=
    fun row hrow next rest _ => reads_printRow (hrowNe row hrow) (hrows row hrow) _
  have hlength' : stmt.rows.length ≤ (commaTokens (stmt.rows.map printRow)).length :=
    length_commaTokens fun row _ => List.cons_ne_nil _ _
  unfold parseInsert printBody
  simp only [List.cons_append, List.append_assoc]
  refine (bind_of_ok (a := ()) rfl _).trans ?_
  refine (bind_of_ok (parseQualifiedName_print hname (by decide)) _).trans ?_
  refine (bind_of_ok (reads_expect (str "(") _) _).trans ?_
  have hfuel : stmt.columnNames.length
      ≤ (commaTokens (stmt.columnNames.map fun n => [n]) ++ str ")" :: str "VALUES" ::
        (commaTokens (stmt.rows.map printRow) ++ [str ";"])).length + 1 := by
    rw [List.length_append]
    omega
  have hlist := reads_parseUntilParen hcolumnsNe hnames hfuel
    (str "VALUES" :: (commaTokens (stmt.rows.map printRow) ++ [str ";"]))
  rw [List.append_assoc, List.map_id'] at hlist
  refine (bind_get _ _).trans ?_
  refine (bind_of_ok (a := stmt.columnNames) hlist _).trans ?_
  refine (bind_of_ok (a := false) rfl _).trans ?_
  refine (bind_of_ok (a := ()) rfl _).trans ?_
  refine (bind_get _ _).trans ?_
  exact (bind_of_ok (parseCommaLoop_print hrowsNe (by decide) hprint
    (by rw [List.length_append]; omega)) _).trans rfl

theorem parseRevert_print {stmt : RevertStatement} (h : InLanguage (.revert stmt)) :
    parseRevert (printBody (.revert stmt) ++ [str ";"]) = .ok (.revert stmt, [str ";"]) := by
  obtain ⟨hname, hlatest⟩ := h
  obtain ⟨name, timestamp, mode⟩ := stmt
  have hunquote : (unquote (quoted timestamp)).getD (quoted timestamp) = timestamp := by
    rw [unquote_quoted]
    rfl
  unfold parseRevert printBody printTimestamp
  rw [List.append_assoc]
  cases mode with
  | latest =>
      obtain rfl : timestamp = str "LATEST" := hlatest rfl
      exact (bind_of_ok (parseQualifiedName_print hname (by decide)) _).trans rfl
  | exact =>
      refine (bind_of_ok (parseQualifiedName_print hname (by decide)) _).trans ?_
      show Except.ok (Statement.revert ⟨name, _, _⟩, _) = _
      rw [hunquote]
      rfl
  | atOrBefore =>
      refine (bind_of_ok (parseQualifiedName_print hname (by decide)) _).trans ?_
      show Except.ok (Statement.revert ⟨name, _, _⟩, _) = _
      rw [hunquote]
      rfl

theorem parseCreate_print {stmt : CreateTableStatement} (h : InLanguage (.createTable stmt))
    (hvalid : validateStatement (.createTable stmt) = .ok ()) :
    parseCreate (printBody (.createTable stmt) ++ [str ";"])
      = .ok (.createTable stmt, [str ";"]) := by
  obtain ⟨hname, hcolumns⟩ := h
  have hne : stmt.columns ≠ [] := by
    intro hnil
    change validateCreateTable stmt = .ok () at hvalid
    rw [validateCreateTable, if_pos hnil] at hvalid
    cases hvalid
  have hprint : ∀ col ∈ stmt.columns, ReadsItem parseColumn (printColumn col) col :=
    fun col hcol => readsItem_printColumn (hcolumns col hcol)
  have hlength : stmt.columns.length ≤ (commaTokens (stmt.columns.map printColumn)).length :=
    length_commaTokens fun col _ => List.cons_ne_nil _ _
  have hfuel : stmt.columns.length
      ≤ (commaTokens (stmt.columns.map printColumn) ++ [str ")", str ";"]).length + 1 := by
    rw [List.length_append]
    omega
  have hlist := reads_parseUntilParen hne hprint hfuel [str ";"]
  rw [List.append_assoc, List.map_id'] at hlist
  unfold parseCreate printBody
  simp only [List.cons_append, List.append_assoc]
  refine (bind_of_ok (matchKeyword_other (by decide) _) _).trans ?_
  refine (bind_of_ok (a := ()) rfl _).trans ?_
  refine (bind_of_ok (parseQualifiedName_print hname (by decide)) _).trans ?_
  refine (bind_of_ok (reads_expect (str "(") _) _).trans ?_
  refine (bind_get _ _).trans ?_
  exact (bind_of_ok (a := stmt.columns) hlist _).trans rfl

theorem parseDrop_print {name : QualifiedName} (h : NameOk name) :
    parseDrop (printBody (.dropTable name) ++ [str ";"]) = .ok (.dropTable name, [str ";"]) := by
  unfold parseDrop printBody
  rw [List.cons_append]
  refine (bind_of_ok (matchKeyword_other (by decide) _) _).trans ?_
  refine (bind_of_ok (a := ()) rfl _).trans ?_
  exact (bind_of_ok (parseQualifiedName_print h (by decide)) _).trans rfl

/-- A parser behind its first word. -/
theorem some_of_ok {p : ParseM Statement} {tokens rest : List Str} {statement : Statement}
    (h : p tokens = .ok (statement, rest)) :
    (some <$> p : ParseM (Option Statement)) tokens = .ok (some statement, rest) := by
  show (p >>= fun statement => pure (some statement)) tokens = _
  rw [bind_of_ok h]
  rfl

/-- **`Parse` finds the parser by the first word**, which reads the rest. -/
theorem parseStatement_print {statement : Statement} (h : Acceptable statement) :
    parseStatement (printStatement statement) = .ok (some statement, [str ";"]) := by
  obtain ⟨hin, hvalid⟩ := h
  have hdatabase : ∀ {name : Str}, isIdentifier name = true → ∀ (f : Str → Statement),
      (f <$> takeIdentifier : ParseM Statement) [name, str ";"] = .ok (f name, [str ";"]) :=
    fun hname f => (reads_takeIdentifier hname).map f [str ";"]
  cases statement with
  | unknown raw => exact hin.elim
  | createTable stmt => exact some_of_ok (parseCreate_print hin hvalid)
  | insert stmt => exact some_of_ok (parseInsert_print hin hvalid)
  | update stmt => exact some_of_ok (parseUpdate_print hin hvalid)
  | delete stmt => exact some_of_ok (parseDelete_print hin)
  | select stmt => exact some_of_ok (parseSelect_print hin hvalid)
  | revert stmt => exact some_of_ok (parseRevert_print hin)
  | dropTable name => exact some_of_ok (parseDrop_print hin)
  | createDatabase name => exact some_of_ok (p := parseCreate) (hdatabase hin .createDatabase)
  | dropDatabase name => exact some_of_ok (p := parseDrop) (hdatabase hin .dropDatabase)
  | useDatabase name => exact some_of_ok (p := parseUse) (hdatabase hin .useDatabase)
  | beginTransaction => rfl
  | commitTransaction => rfl
  | rollbackTransaction => rfl
  | checkIndex => rfl
  | rebuildIndex => rfl

end Statements

/-- **Every statement is read back from its tokens.** -/
theorem parseTokens_printStatement {statement : Statement} (h : Acceptable statement) :
    parseTokens (printStatement statement) = .ok statement := by
  have hfinish : finishParse statement [str ";"] = .ok statement := by
    show (do validateStatement statement; return statement) = _
    rw [h.2]
    rfl
  unfold parseTokens
  rw [if_neg (by simp [printStatement]), parseStatement_print h]
  dsimp only
  rw [hfinish]

end CustomDbms.Parser
