/-
  CustomDbms.Parser.WhereLiterals
  ───────────────────────────────
  **NO LITERAL OF A WHERE CLAUSE IS NULL.**

  `ParsePrimary` asks for an identifier before it asks for a literal, and the
  word NULL is one: in an expression it is the name of a column.  A sign in
  front does not help, `-NULL` is no number.

    • `Yields` — a postcondition of a parsing step, with its rule for `>>=`;
    • `parse_where_notNull` — the postcondition of `Parse`;
    • `parsePrimary_literal_iff` — the literals that INSERT and an expression
      read alike: all but the two words for NULL.
-/
import CustomDbms.Parser.Parser

namespace CustomDbms.Parser

open CustomDbms.Common Cursor

/-! ## §1. Postconditions of parsing steps. -/

/-- Every value a parsing step returns has a property. -/
def Yields {α : Type} (P : α → Prop) (p : ParseM α) : Prop :=
  ∀ tokens a rest, p tokens = .ok (a, rest) → P a

section Rules

variable {α β : Type} {P : α → Prop} {Q : β → Prop}

theorem yields_trivial (p : ParseM α) : Yields (fun _ => True) p := by
  intro tokens a rest _
  trivial

theorem yields_pure {a : α} (h : P a) : Yields P (pure a) := by
  intro tokens b rest hb
  cases hb
  exact h

theorem yields_fail (message : Str) : Yields P (fail message) := by
  intro tokens a rest h
  cases h

/-- A sequence that returns has returned from both parts. -/
theorem bind_eq_ok {p : ParseM α} {f : α → ParseM β} {tokens rest : List Str} {b : β}
    (h : (p >>= f) tokens = .ok (b, rest)) :
    ∃ a mid, p tokens = .ok (a, mid) ∧ f a mid = .ok (b, rest) := by
  change (p tokens >>= fun r => f r.1 r.2) = _ at h
  cases hrun : p tokens with
  | error message =>
      rw [hrun] at h
      cases h
  | ok r =>
      rw [hrun] at h
      exact ⟨r.1, r.2, rfl, h⟩

/-- **The rule of sequence.** -/
theorem Yields.bind {p : ParseM α} {f : α → ParseM β} (hp : Yields P p)
    (hf : ∀ a, P a → Yields Q (f a)) : Yields Q (p >>= f) := by
  intro tokens b rest h
  obtain ⟨a, mid, ha, hb⟩ := bind_eq_ok h
  exact hf a (hp tokens a mid ha) mid b rest hb

/-- A step whose value does not matter. -/
theorem yields_bind {p : ParseM α} {f : α → ParseM β} (hf : ∀ a, Yields Q (f a)) :
    Yields Q (p >>= f) :=
  (yields_trivial p).bind fun a _ => hf a

theorem yields_ite {c : Prop} [Decidable c] {p q : ParseM α} (hp : Yields P p)
    (hq : Yields P q) : Yields P (if c then p else q) := by
  split
  · exact hp
  · exact hq

theorem Yields.map {p : ParseM α} {f : α → β} (hp : Yields P p) (hf : ∀ a, P a → Q (f a)) :
    Yields Q (f <$> p) := by
  show Yields Q (p >>= fun a => pure (f a))
  exact hp.bind fun a ha => yields_pure (hf a ha)

end Rules

/-! ## §2. Expressions. -/

/-- No literal of an expression is NULL. -/
def NotNull : Expression → Prop
  | .literal v => isNull v = false
  | .columnReference _ _ _ => True
  | .binaryComparison _ left right => NotNull left ∧ NotNull right
  | .logical _ left right => NotNull left ∧ NotNull right
  | .between value lower upper => NotNull value ∧ NotNull lower ∧ NotNull upper
  | .like value pattern => NotNull value ∧ NotNull pattern
  | .aggregateCall _ _ => True

theorem parseLiteral_notNull {token : Str} (h : token ≠ str "NULL" ∧ token ≠ str "null") :
    Yields (fun v => isNull v = false) (parseLiteral token) := by
  unfold parseLiteral
  rw [if_neg (by tauto)]
  split
  · exact yields_pure rfl
  · split
    · exact yields_fail _
    · exact yields_ite (yields_fail _) (yields_pure rfl)

/-- A literal that is not the word NULL. -/
theorem parseLiteralToken_notNull {tokens rest : List Str} {v : Value}
    (hword : isIdentifier (tokens.headD []) = false)
    (h : parseLiteralToken tokens = .ok (v, rest)) : isNull v = false := by
  cases tokens with
  | nil => cases h
  | cons token tokens =>
      have hhead : isIdentifier token = false := hword
      obtain ⟨sign, mid, hsign, h⟩ := bind_eq_ok h
      by_cases hminus : token = str "-"
      · -- a sign, and whatever follows it
        subst hminus
        cases hsign
        obtain ⟨next, mid, hnext, h⟩ := bind_eq_ok h
        refine parseLiteral_notNull ⟨?_, ?_⟩ _ _ _ h
        · intro heq
          exact absurd (List.cons.inj heq).1 (by decide)
        · intro heq
          exact absurd (List.cons.inj heq).1 (by decide)
      · change (if token = str "-" then _ else _ : ParseM Bool) (token :: tokens) = _ at hsign
        rw [if_neg hminus] at hsign
        cases hsign
        obtain ⟨next, mid, hnext, h⟩ := bind_eq_ok h
        cases hnext
        refine parseLiteral_notNull ⟨?_, ?_⟩ _ _ _ h
        · rintro rfl
          exact absurd hhead (by decide)
        · rintro rfl
          exact absurd hhead (by decide)

section Clauses

variable {inner operand : ParseM Expression}

theorem parsePrimary_notNull (hinner : Yields NotNull inner) :
    Yields NotNull (parsePrimary inner) := by
  unfold parsePrimary
  apply yields_bind
  intro paren
  refine yields_ite (hinner.bind fun e he => yields_bind fun _ => yields_pure he) ?_
  -- the token looked at is the token taken
  intro tokens e rest h
  obtain ⟨token, mid, hpeek, h⟩ := bind_eq_ok h
  cases hpeek
  by_cases hword : isIdentifier (tokens.headD []) = true
  · rw [if_pos hword] at h
    obtain ⟨q, mid, -, h⟩ := bind_eq_ok h
    cases h
    trivial
  · rw [if_neg hword] at h
    obtain ⟨v, mid, hv, h⟩ := bind_eq_ok h
    cases h
    exact parseLiteralToken_notNull (Bool.eq_false_iff.mpr hword) hv

theorem parsePredicate_notNull (hinner : Yields NotNull inner) :
    Yields NotNull (parsePredicate inner) := by
  have hprimary := parsePrimary_notNull hinner
  unfold parsePredicate
  refine hprimary.bind fun left hleft => yields_bind fun between => yields_ite ?_ ?_
  · exact hprimary.bind fun lower hlower => yields_bind fun _ =>
      hprimary.bind fun upper hupper => yields_pure ⟨hleft, hlower, hupper⟩
  · refine yields_bind fun like => yields_ite ?_ ?_
    · exact hprimary.bind fun pattern hpattern => yields_pure ⟨hleft, hpattern⟩
    · refine yields_bind fun next => yields_bind fun more => yields_ite (yields_pure hleft) ?_
      exact yields_bind fun _ => hprimary.bind fun right hright =>
        yields_bind fun op => yields_pure ⟨hleft, hright⟩

/-- The loop over AND or OR, by induction on its fuel. -/
theorem parseLogicalLoop_notNull (op : LogicalOperator) (kw : Str)
    (hoperand : Yields NotNull operand) (fuel : Nat) {left : Expression} (hleft : NotNull left) :
    Yields NotNull (parseLogicalLoop op kw operand fuel left) := by
  induction fuel generalizing left with
  | zero => exact yields_pure hleft
  | succ fuel ih =>
      unfold parseLogicalLoop
      apply yields_bind
      intro found
      exact yields_ite (hoperand.bind fun right hright => ih ⟨hleft, hright⟩) (yields_pure hleft)

theorem parseAnd_notNull (hinner : Yields NotNull inner) : Yields NotNull (parseAnd inner) := by
  have hpredicate := parsePredicate_notNull hinner
  unfold parseAnd
  exact hpredicate.bind fun left hleft => yields_bind fun tokens =>
    parseLogicalLoop_notNull .and _ hpredicate _ hleft

end Clauses

/-- **No literal of an expression is NULL.** -/
theorem parseExpressionAt_notNull (fuel : Nat) : Yields NotNull (parseExpressionAt fuel) := by
  induction fuel with
  | zero => exact yields_fail []
  | succ fuel ih =>
      have hand := parseAnd_notNull ih
      unfold parseExpressionAt
      exact hand.bind fun left hleft => yields_bind fun tokens =>
        parseLogicalLoop_notNull .or _ hand _ hleft

/-! ## §3. Statements. -/

/-- The clause of a statement that has one, with the name of its table. -/
def Statement.whereOn : Statement → Option (QualifiedName × Expression)
  | .select stmt => stmt.whereClause.map fun clause => (stmt.tableName, clause)
  | .update stmt => stmt.whereClause.map fun clause => (stmt.tableName, clause)
  | .delete stmt => stmt.whereClause.map fun clause => (stmt.tableName, clause)
  | _ => none

/-- A statement whose clause has no NULL literal. -/
def WhereNotNull (statement : Statement) : Prop :=
  ∀ name clause, statement.whereOn = some (name, clause) → NotNull clause

theorem parseWhere_notNull : Yields (fun w => ∀ clause ∈ w, NotNull clause) parseWhere := by
  unfold parseWhere
  apply yields_bind
  intro found
  apply yields_ite
  · have hexpr : Yields NotNull parseExpression := by
      unfold parseExpression
      exact yields_bind fun tokens => parseExpressionAt_notNull _
    exact hexpr.bind fun clause hclause => yields_pure (by simpa using hclause)
  · exact yields_pure (by simp)

theorem whereNotNull_of_none {statement : Statement} (h : statement.whereOn = none) :
    WhereNotNull statement := by
  intro name clause hwhere
  rw [h] at hwhere
  cases hwhere

theorem parseUpdate_notNull : Yields WhereNotNull parseUpdate := by
  unfold parseUpdate
  refine yields_bind fun tableName => yields_bind fun _ => yields_bind fun tokens =>
    yields_bind fun assignments => parseWhere_notNull.bind fun w hw => yields_pure ?_
  intro name clause h
  obtain ⟨_, hclause, heq⟩ := Option.map_eq_some_iff.mp h
  cases heq
  exact hw clause hclause

theorem parseDelete_notNull : Yields WhereNotNull parseDelete := by
  unfold parseDelete
  refine yields_bind fun _ => yields_bind fun tableName =>
    parseWhere_notNull.bind fun w hw => yields_pure ?_
  intro name clause h
  obtain ⟨_, hclause, heq⟩ := Option.map_eq_some_iff.mp h
  cases heq
  exact hw clause hclause

theorem parseSelect_notNull : Yields WhereNotNull parseSelect := by
  unfold parseSelect
  refine yields_bind fun star => ?_
  extract_lets afterItems
  have hrest : ∀ items, Yields WhereNotNull (afterItems items) := by
    intro items
    refine yields_bind fun _ => yields_bind fun tableName =>
      parseWhere_notNull.bind fun w hw => yields_pure ?_
    intro name clause h
    obtain ⟨_, hclause, heq⟩ := Option.map_eq_some_iff.mp h
    cases heq
    exact hw clause hclause
  exact yields_ite (yields_bind hrest) (yields_bind fun tokens => yields_bind hrest)

/-- A statement that is no INSERT, UPDATE, DELETE or SELECT. -/
def Statement.isPlain : Statement → Bool
  | .insert _ | .update _ | .delete _ | .select _ => false
  | _ => true

/-- The parsers of the statements that are not about rows. -/
theorem parsePlain_yields {P : Statement → Prop}
    (hP : ∀ statement : Statement, statement.isPlain = true → P statement) (p : ParseM Statement)
    (hp : p ∈ [parseCreate, parseDrop, parseUse, parseRevert,
      parseTransactionWord .beginTransaction, parseTransactionWord .commitTransaction,
      parseTransactionWord .rollbackTransaction, parseIndexWord .checkIndex,
      parseIndexWord .rebuildIndex]) : Yields P p := by
  have hlast : ∀ statement : Statement, statement.isPlain = true → Yields P (pure statement) :=
    fun statement h => yields_pure (hP statement h)
  simp only [List.mem_cons, List.not_mem_nil, or_false] at hp
  rcases hp with rfl | rfl | rfl | rfl | rfl | rfl | rfl | rfl | rfl
  · exact yields_bind fun _ => yields_ite (yields_bind fun _ => hlast _ rfl)
      (yields_bind fun _ => yields_bind fun _ => yields_bind fun _ => yields_bind fun _ =>
        yields_bind fun _ => hlast _ rfl)
  · exact yields_bind fun _ => yields_ite (yields_bind fun _ => hlast _ rfl)
      (yields_bind fun _ => yields_bind fun _ => hlast _ rfl)
  · exact yields_bind fun _ => hlast _ rfl
  · refine yields_bind fun _ => yields_bind fun _ => yields_ite (hlast _ rfl) ?_
    refine yields_bind fun _ => ?_
    extract_lets mode
    have hmode : ∀ m, Yields P (mode m) := fun _ => yields_bind fun _ => hlast _ rfl
    exact yields_ite (yields_bind hmode) (yields_bind fun _ => yields_bind hmode)
  all_goals exact yields_bind fun _ => hlast _ rfl

theorem parseInsert_yields {P : Statement → Prop} (hP : ∀ stmt, P (.insert stmt)) :
    Yields P parseInsert := by
  refine yields_bind fun _ => yields_bind fun _ => yields_bind fun _ => yields_bind fun _ =>
    yields_bind fun _ => yields_bind fun _ => ?_
  extract_lets rows
  have hrows : ∀ u, Yields P (rows u) := fun _ =>
    yields_bind fun _ => yields_bind fun _ => yields_pure (hP _)
  exact yields_ite (yields_bind hrows) (hrows ())

theorem parseOther_notNull (p : ParseM Statement)
    (hp : p ∈ [parseCreate, parseDrop, parseUse, parseRevert,
      parseTransactionWord .beginTransaction, parseTransactionWord .commitTransaction,
      parseTransactionWord .rollbackTransaction, parseIndexWord .checkIndex,
      parseIndexWord .rebuildIndex]) : Yields WhereNotNull p := by
  refine parsePlain_yields (fun statement h => whereNotNull_of_none ?_) p hp
  cases statement with
  | insert stmt => cases h
  | update stmt => cases h
  | delete stmt => cases h
  | select stmt => cases h
  | _ => rfl

theorem parseStatement_notNull :
    Yields (fun o => ∀ statement ∈ o, WhereNotNull statement) parseStatement := by
  have hsome : ∀ {p : ParseM Statement}, Yields WhereNotNull p →
      Yields (fun o => ∀ statement ∈ o, WhereNotNull statement) (some <$> p) := by
    intro p hp
    exact hp.map fun statement h => by simpa using h
  unfold parseStatement
  refine yields_bind fun _ => yields_ite (hsome (parseOther_notNull _ (by simp))) ?_
  refine yields_bind fun _ => yields_ite (hsome (parseOther_notNull _ (by simp))) ?_
  refine yields_bind fun _ => yields_ite (hsome (parseOther_notNull _ (by simp))) ?_
  refine yields_bind fun _ => yields_ite (hsome
    (parseInsert_yields fun _ => whereNotNull_of_none rfl)) ?_
  refine yields_bind fun _ => yields_ite (hsome parseUpdate_notNull) ?_
  refine yields_bind fun _ => yields_ite (hsome parseDelete_notNull) ?_
  refine yields_bind fun _ => yields_ite (hsome parseSelect_notNull) ?_
  refine yields_bind fun _ => yields_ite (hsome (parseOther_notNull _ (by simp))) ?_
  refine yields_bind fun _ => yields_ite (hsome (parseOther_notNull _ (by simp))) ?_
  refine yields_bind fun _ => yields_ite (hsome (parseOther_notNull _ (by simp))) ?_
  refine yields_bind fun _ => yields_ite (hsome (parseOther_notNull _ (by simp))) ?_
  refine yields_bind fun _ => yields_ite (hsome (parseOther_notNull _ (by simp))) ?_
  refine yields_bind fun _ => yields_ite (hsome (parseOther_notNull _ (by simp))) ?_
  exact yields_pure (by simp)

/-- **No literal in the WHERE clause of an accepted statement is NULL.** -/
theorem parse_where_notNull {sql : Str} {statement : Statement}
    (h : parse sql = .ok statement) : WhereNotNull statement := by
  obtain ⟨⟨rest, hrun⟩, -⟩ := parse_eq_ok h
  exact parseStatement_notNull _ _ _ hrun statement rfl

/-! ## §4. The two readers of a literal. -/

/-- The words `ParseLiteral` takes for NULL. -/
def isNullWord (token : Str) : Bool := token = str "NULL" ∨ token = str "null"

/-- A letter or an underscore starts no number. -/
theorem stoll_identifier {token : Str} (h : isIdentifier token = true) : stoll token = none := by
  cases token with
  | nil => cases h
  | cons c cs =>
      have hhead : (isAlpha c || c = byte '_') = true := (Bool.and_eq_true_iff.mp h).1
      have hclass : ∀ b : Byte, (isAlpha b || b = byte '_') = true →
          isSpace b = false ∧ isDigit b = false ∧ b ≠ byte '-' ∧ b ≠ byte '+' := by
        grind [isAlpha, isUpper, isLower, isSpace, isDigit, byte]
      obtain ⟨hspace, hdigit, hminus, hplus⟩ := hclass c hhead
      have hscan : scanNumber (c :: cs) = none := by
        simp [scanNumber, hspace, hdigit, hminus, hplus]
      rw [stoll, hscan]

theorem unquote_identifier {token : Str} (h : isIdentifier token = true) :
    unquote token = none := by
  cases token with
  | nil => cases h
  | cons c cs =>
      have hhead : (isAlpha c || c = byte '_') = true := (Bool.and_eq_true_iff.mp h).1
      have hne : c ≠ byte '"' := by
        rintro rfl
        exact absurd hhead (by decide)
      unfold unquote
      rw [if_neg]
      intro hquoted
      exact hne (Option.some.inj hquoted.2.1)

/-- The only identifiers that `ParseLiteral` reads are the two words for
NULL. -/
theorem parseLiteral_identifier {token : Str} {tokens rest : List Str} {v : Value}
    (hword : isIdentifier token = true) (h : parseLiteral token tokens = .ok (v, rest)) :
    isNullWord token = true := by
  by_contra hnull
  have hnot : ¬(token = str "NULL" ∨ token = str "null") := by
    simpa [isNullWord] using hnull
  unfold parseLiteral at h
  rw [if_neg hnot, unquote_identifier hword, stoll_identifier hword] at h
  cases h

theorem isIdentifier_nullWord {token : Str} (h : isNullWord token = true) :
    isIdentifier token = true := by
  have hcases : token = str "NULL" ∨ token = str "null" := by simpa [isNullWord] using h
  rcases hcases with rfl | rfl
  · decide
  · decide

/-- A literal that `ParseLiteralToken` reads is no opening parenthesis. -/
theorem parseLiteralToken_not_paren {token : Str} {tokens rest : List Str} {v : Value}
    (h : parseLiteralToken (token :: tokens) = .ok (v, rest)) : token ≠ str "(" := by
  rintro rfl
  cases h

/-- `ParseLiteralToken` reads a word only where the word is NULL. -/
theorem parseLiteralToken_word {token : Str} {tokens rest : List Str} {v : Value}
    (hword : isIdentifier token = true)
    (h : parseLiteralToken (token :: tokens) = .ok (v, rest)) : isNullWord token = true := by
  have hminus : token ≠ str "-" := by
    rintro rfl
    exact absurd hword (by decide)
  obtain ⟨sign, mid, hsign, h⟩ := bind_eq_ok h
  change (if token = str "-" then _ else _ : ParseM Bool) (token :: tokens) = _ at hsign
  rw [if_neg hminus] at hsign
  cases hsign
  obtain ⟨next, mid, hnext, h⟩ := bind_eq_ok h
  cases hnext
  exact parseLiteral_identifier hword h

/-- What `ParsePrimary` does where no parenthesis opens. -/
theorem parsePrimary_cons (inner : ParseM Expression) {token : Str} (tokens : List Str)
    (hparen : token ≠ str "(") :
    parsePrimary inner (token :: tokens) =
      (if isIdentifier token then
        (do
          let q ← parseQualifiedName
          return Expression.columnReference q.databaseName none q.objectName : ParseM Expression)
          (token :: tokens)
      else (do return Expression.literal (← parseLiteralToken) : ParseM Expression)
        (token :: tokens)) := by
  have hmatch : matchToken (str "(") (token :: tokens) = .ok (false, token :: tokens) := by
    show (if token = str "(" then _ else _ : ParseM Bool) (token :: tokens) = _
    rw [if_neg hparen]
    rfl
  show (matchToken (str "(") (token :: tokens) >>= _) = _
  rw [hmatch]
  by_cases hword : isIdentifier token = true
  · rw [if_pos hword]
    show (if isIdentifier token then _ else _ : ParseM Expression) (token :: tokens) = _
    rw [if_pos hword]
  · rw [if_neg hword]
    show (if isIdentifier token then _ else _ : ParseM Expression) (token :: tokens) = _
    rw [if_neg hword]

/-- **`ParsePrimary` reads a literal as `ParseLiteralToken` does exactly where
the literal is not one of the words for NULL.** -/
theorem parsePrimary_literal_iff (inner : ParseM Expression) (tokens rest : List Str) (v : Value)
    (h : parseLiteralToken tokens = .ok (v, rest)) :
    parsePrimary inner tokens = .ok (.literal v, rest) ↔
      isNullWord (tokens.headD []) = false := by
  cases tokens with
  | nil => cases h
  | cons token tokens =>
      have hparen := parseLiteralToken_not_paren h
      show _ ↔ isNullWord token = false
      rw [parsePrimary_cons inner tokens hparen]
      by_cases hword : isIdentifier token = true
      · -- the name of a column, and only NULL is a word that is read as a literal
        have hnull := parseLiteralToken_word hword h
        rw [if_pos hword, hnull]
        refine iff_of_false ?_ (by decide)
        intro hread
        obtain ⟨q, mid, -, hread⟩ := bind_eq_ok hread
        cases hread
      · have hnull : isNullWord token = false := by
          by_contra hnull
          exact hword (isIdentifier_nullWord (Bool.not_eq_false _ ▸ hnull))
        rw [if_neg hword]
        refine iff_of_true ?_ hnull
        show (parseLiteralToken (token :: tokens) >>= _) = _
        rw [h]
        rfl

/-- A string and NULL. -/
theorem parsePrimary_literal_iff_string :
    parsePrimary parseExpression [str "\"a\"", str ";"]
      = .ok (.literal (.string (str "a")), [str ";"]) :=
  (parsePrimary_literal_iff parseExpression [str "\"a\"", str ";"] [str ";"]
    (.string (str "a")) rfl).mpr (by decide)

/-- `UPDATE t SET a = NULL;` assigns a column of the name NULL. -/
theorem update_null_is_column :
    parseLiteralToken [str "NULL", str ";"] = .ok (.null, [str ";"]) ∧
      parsePrimary parseExpression [str "NULL", str ";"]
        = .ok (.columnReference none none (str "NULL"), [str ";"]) ∧
      parse (str "UPDATE t SET a = NULL;") = .ok (.update ⟨⟨none, str "t"⟩,
        [⟨str "a", .columnReference none none (str "NULL")⟩], none⟩) := by
  exact ⟨rfl, rfl, by decide +kernel⟩

end CustomDbms.Parser
