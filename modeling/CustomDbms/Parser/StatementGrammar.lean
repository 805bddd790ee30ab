/-
  CustomDbms.Parser.StatementGrammar
  ──────────────────────────────────
  **WHAT THE PARSER RETURNS.**

  Every parser returns a value of the grammar, whatever the tokens.  With the
  tokens of `Parser.StatementPrinting` this is the range of `Parse`: a
  statement is returned for some tokens exactly if it is one of the grammar
  and passes `ValidateStatement`.

    • `parseStatement_inLanguage` — no statement outside the grammar;
    • `statement_grammar` — the range, and a right inverse on it.
-/
import CustomDbms.Parser.StatementPrinting

namespace CustomDbms.Parser

open CustomDbms.Common Cursor

/-! ## §1. Names and lists. -/

theorem takeIdentifier_yields : Yields (fun n => isIdentifier n = true) takeIdentifier := by
  refine yields_bind fun token => ?_
  intro tokens a rest h
  by_cases htoken : isIdentifier token = true
  · rw [if_pos htoken] at h
    cases h
    exact htoken
  · rw [if_neg htoken] at h
    cases h

theorem parseQualifiedName_yields : Yields NameOk parseQualifiedName := by
  refine takeIdentifier_yields.bind fun first hfirst => yields_bind fun dot => ?_
  refine yields_ite (takeIdentifier_yields.bind fun second hsecond => yields_pure ?_)
    (yields_pure ?_)
  · exact ⟨hsecond, by simpa using hfirst⟩
  · exact ⟨hfirst, by simp⟩

section Lists

variable {α : Type} {P : α → Prop} {body : ParseM α}

theorem parseCommaLoop_yields (hbody : Yields P body) (fuel : Nat) :
    Yields (fun as => ∀ a ∈ as, P a) (parseCommaLoop body fuel) := by
  induction fuel with
  | zero => exact yields_pure (by simp)
  | succ fuel ih =>
      refine hbody.bind fun a ha => yields_bind fun comma => ?_
      refine yields_ite (ih.bind fun as has => yields_pure ?_) (yields_pure (by simpa using ha))
      exact List.forall_mem_cons.mpr ⟨ha, has⟩

theorem parseUntilParen_yields (hbody : Yields P body) (fuel : Nat) :
    Yields (fun as => ∀ a ∈ as, P a) (parseUntilParen body fuel) := by
  induction fuel with
  | zero => exact yields_pure (by simp)
  | succ fuel ih =>
      refine hbody.bind fun a ha => yields_bind fun paren => ?_
      refine yields_ite (yields_pure (by simpa using ha)) (yields_bind fun _ => ?_)
      exact ih.bind fun as has => yields_pure (List.forall_mem_cons.mpr ⟨ha, has⟩)

end Lists

/-! ## §2. Expressions. -/

section Clauses

variable {inner operand : ParseM Expression}

theorem parsePrimary_inGrammar (hinner : Yields InGrammar inner) :
    Yields InGrammar (parsePrimary inner) := by
  unfold parsePrimary
  refine yields_bind fun paren => ?_
  refine yields_ite (hinner.bind fun e he => yields_bind fun _ => yields_pure he) ?_
  -- the token looked at is the token taken
  intro tokens e rest h
  obtain ⟨token, mid, hpeek, h⟩ := bind_eq_ok h
  cases hpeek
  by_cases hword : isIdentifier (tokens.headD []) = true
  · rw [if_pos hword] at h
    obtain ⟨q, mid, hq, h⟩ := bind_eq_ok h
    obtain ⟨hobject, hdatabase⟩ := parseQualifiedName_yields _ _ _ hq
    cases h
    exact ⟨rfl, hobject, hdatabase⟩
  · rw [if_neg hword] at h
    obtain ⟨v, mid, hv, h⟩ := bind_eq_ok h
    cases h
    exact parseLiteralToken_notNull (Bool.eq_false_iff.mpr hword) hv

theorem parsePredicate_inGrammar (hinner : Yields InGrammar inner) :
    Yields InGrammar (parsePredicate inner) := by
  have hprimary := parsePrimary_inGrammar hinner
  unfold parsePredicate
  refine hprimary.bind fun left hleft => yields_bind fun between => yields_ite ?_ ?_
  · exact hprimary.bind fun lower hlower => yields_bind fun _ =>
      hprimary.bind fun upper hupper => yields_pure ⟨hleft, hlower, hupper⟩
  · refine yields_bind fun like => yields_ite ?_ ?_
    · exact hprimary.bind fun pattern hpattern => yields_pure ⟨hleft, hpattern⟩
    · refine yields_bind fun next => yields_bind fun more => yields_ite (yields_pure hleft) ?_
      exact yields_bind fun _ => hprimary.bind fun right hright =>
        yields_bind fun op => yields_pure ⟨hleft, hright⟩

/-- The loop over AND or OR, by induction on its fuel. -/
theorem parseLogicalLoop_inGrammar (op : LogicalOperator) (kw : Str)
    (hoperand : Yields InGrammar operand) (fuel : Nat) {left : Expression}
    (hleft : InGrammar left) : Yields InGrammar (parseLogicalLoop op kw operand fuel left) := by
  induction fuel generalizing left with
  | zero => exact yields_pure hleft
  | succ fuel ih =>
      refine yields_bind fun found => ?_
      exact yields_ite (hoperand.bind fun right hright => ih ⟨hleft, hright⟩) (yields_pure hleft)

theorem parseAnd_inGrammar (hinner : Yields InGrammar inner) :
    Yields InGrammar (parseAnd inner) := by
  have hpredicate := parsePredicate_inGrammar hinner
  exact hpredicate.bind fun left hleft => yields_bind fun _ =>
    parseLogicalLoop_inGrammar .and _ hpredicate _ hleft

end Clauses

/-- By induction on the depth of parentheses. -/
theorem parseExpressionAt_inGrammar (fuel : Nat) : Yields InGrammar (parseExpressionAt fuel) := by
  induction fuel with
  | zero => exact yields_fail []
  | succ fuel ih =>
      have hand := parseAnd_inGrammar ih
      exact hand.bind fun left hleft => yields_bind fun _ =>
        parseLogicalLoop_inGrammar .or _ hand _ hleft

theorem parseExpression_inGrammar : Yields InGrammar parseExpression :=
  yields_bind fun _ => parseExpressionAt_inGrammar _

theorem parseWhere_yields : Yields WhereIn parseWhere := by
  refine yields_bind fun found => yields_ite ?_ (yields_pure (by simp [WhereIn]))
  exact parseExpression_inGrammar.bind fun clause hclause =>
    yields_pure (by simpa [WhereIn] using hclause)

/-! ## §3. The parts of a statement. -/

/-- Each option keeps a column of the grammar. -/
theorem parseColumnOptions_yields (fuel : Nat) {col : ColumnDefinition} (h : ColumnIn col) :
    Yields ColumnIn (parseColumnOptions fuel col) := by
  induction fuel generalizing col with
  | zero => exact yields_pure h
  | succ fuel ih =>
      refine yields_bind fun notNull => yields_ite (ih ⟨h.name, h.type, fun _ => rfl⟩) ?_
      refine yields_bind fun indexed => yields_ite (ih ⟨h.name, h.type, fun _ => rfl⟩) ?_
      refine yields_bind fun default => yields_ite ?_ (yields_pure h)
      exact yields_bind fun v => ih ⟨h.name, h.type, h.indexed⟩

theorem parseColumn_yields : Yields ColumnIn parseColumn := by
  refine takeIdentifier_yields.bind fun name hname => yields_bind fun token => ?_
  extract_lets typeName options
  have hoptions : ∀ type, type ≠ ValueType.null → Yields ColumnIn (options type) :=
    fun type htype => yields_bind fun tokens =>
      parseColumnOptions_yields _ ⟨hname, htype, fun h => nomatch h⟩
  have hpure : ∀ type, type ≠ ValueType.null →
      Yields (fun t => t ≠ ValueType.null) (pure type) := fun type htype => yields_pure htype
  refine yields_ite ((hpure .int64 (by decide)).bind hoptions) ?_
  refine yields_ite ((hpure .string (by decide)).bind hoptions) ?_
  exact (yields_fail (P := fun t => t ≠ ValueType.null) _).bind hoptions

theorem parseAssignment_yields :
    Yields (fun a => isIdentifier a.columnName = true ∧ InGrammar a.value) parseAssignment := by
  refine takeIdentifier_yields.bind fun name hname => yields_bind fun _ => ?_
  exact (parsePrimary_inGrammar parseExpression_inGrammar).bind fun value hvalue =>
    yields_pure ⟨hname, hvalue⟩

theorem parseInsertRow_yields :
    Yields (fun row => ∀ e ∈ row, ∃ v, e = Expression.literal v) parseInsertRow := by
  refine yields_bind fun _ => yields_bind fun tokens => parseUntilParen_yields ?_ _
  exact (yields_trivial parseLiteralToken).map fun v _ => ⟨v, rfl⟩

/-- `TakeIdentifier` takes the first token. -/
theorem takeIdentifier_first {tokens rest : List Str} {name : Str}
    (h : takeIdentifier tokens = .ok (name, rest)) : tokens.headD [] = name := by
  cases tokens with
  | nil => cases h
  | cons token tokens =>
      change (if isIdentifier token then pure token else _ : ParseM Str) tokens = _ at h
      by_cases htoken : isIdentifier token = true
      · rw [if_pos htoken] at h
        cases h
        rfl
      · rw [if_neg htoken] at h
        cases h

/-- The first token of an item is looked at before it is taken. -/
theorem parseSelectItem_yields : Yields ItemIn parseSelectItem := by
  intro tokens item rest h
  obtain ⟨token, mid, hpeek, h⟩ := bind_eq_ok h
  cases hpeek
  extract_lets aggregate afterColumn afterName at h
  have hcolumn : ∀ column, ((aggregate = none ∧ isIdentifier column = true ∧
        parseAgg column = none) ∨
      (aggregate.isSome = true ∧ (column = str "*" ∨ isIdentifier column = true))) →
      Yields ItemIn (afterColumn column) := by
    intro column hsubject
    refine yields_bind fun found => ?_
    extract_lets named
    have hnamed : ∀ name : Option Str, (∀ n ∈ name, isIdentifier n = true) →
        Yields ItemIn (named name) := fun _ hname => yields_pure ⟨rfl, hsubject, hname⟩
    refine yields_ite ((takeIdentifier_yields.map fun n hn => ?_).bind hnamed)
      ((yields_pure ?_).bind hnamed)
    · simpa using hn
    · simp
  by_cases hsome : aggregate.isSome = true
  · -- an aggregate of a column or of all
    have hname : ∀ name, (name = str "*" ∨ isIdentifier name = true) →
        Yields ItemIn (afterName name) := fun name hname => yields_bind fun _ =>
      (yields_pure (P := fun n => n = str "*" ∨ isIdentifier n = true) hname).bind
        fun n hn => hcolumn n (.inr ⟨hsome, hn⟩)
    rw [if_pos hsome] at h
    refine (yields_bind fun _ => yields_bind fun _ => yields_bind fun star => ?_) _ _ _ h
    refine yields_ite ((yields_pure (.inl rfl)).bind hname) ?_
    exact takeIdentifier_yields.bind fun n hn => hname n (.inr hn)
  · -- a column, by the token that was looked at
    rw [if_neg hsome] at h
    obtain ⟨column, mid, hrun, h⟩ := bind_eq_ok h
    have hnone : aggregate = none := Option.not_isSome_iff_eq_none.mp hsome
    have hagg : parseAgg column = none := by rw [← takeIdentifier_first hrun]; exact hnone
    exact hcolumn column (.inl ⟨hnone, takeIdentifier_yields _ _ _ hrun, hagg⟩) _ _ _ h

/-! ## §4. Statements. -/

theorem parseCreate_yields : Yields InLanguage parseCreate := by
  refine yields_bind fun database => yields_ite ?_ (yields_bind fun _ => ?_)
  · exact takeIdentifier_yields.bind fun _ hname => yields_pure hname
  · refine parseQualifiedName_yields.bind fun name hname => yields_bind fun _ => ?_
    exact yields_bind fun _ => (parseUntilParen_yields parseColumn_yields _).bind
      fun columns hcolumns => yields_pure ⟨hname, hcolumns⟩

theorem parseDrop_yields : Yields InLanguage parseDrop := by
  refine yields_bind fun database => yields_ite ?_ (yields_bind fun _ => ?_)
  · exact takeIdentifier_yields.bind fun _ hname => yields_pure hname
  · exact parseQualifiedName_yields.bind fun name hname => yields_pure hname

theorem parseUse_yields : Yields InLanguage parseUse :=
  takeIdentifier_yields.bind fun _ hname => yields_pure hname

theorem parseInsert_inLanguage : Yields InLanguage parseInsert := by
  refine yields_bind fun _ => parseQualifiedName_yields.bind fun name hname =>
    yields_bind fun _ => yields_bind fun _ => ?_
  refine (parseUntilParen_yields takeIdentifier_yields _).bind fun names hnames => ?_
  refine yields_bind fun _ => ?_
  extract_lets rows
  have hrows : ∀ u, Yields InLanguage (rows u) := fun _ => yields_bind fun _ =>
    (parseCommaLoop_yields parseInsertRow_yields _).bind fun rows hrows =>
      yields_pure ⟨hname, hnames, hrows⟩
  exact yields_ite (yields_bind hrows) (hrows ())

theorem parseUpdate_yields : Yields InLanguage parseUpdate := by
  refine parseQualifiedName_yields.bind fun name hname => yields_bind fun _ =>
    yields_bind fun _ => ?_
  refine (parseCommaLoop_yields parseAssignment_yields _).bind fun assignments hassignments => ?_
  exact parseWhere_yields.bind fun w hw => yields_pure ⟨hname, hassignments, hw⟩

theorem parseDelete_yields : Yields InLanguage parseDelete := by
  refine yields_bind fun _ => parseQualifiedName_yields.bind fun name hname => ?_
  exact parseWhere_yields.bind fun w hw => yields_pure ⟨hname, hw⟩

theorem parseSelect_yields : Yields InLanguage parseSelect := by
  refine yields_bind fun star => ?_
  extract_lets afterItems
  have hitems : ∀ items, (items = [wildcard] ∨ ∀ item ∈ items, ItemIn item) →
      Yields InLanguage (afterItems items) := fun items hitems =>
    yields_bind fun _ => parseQualifiedName_yields.bind fun name hname =>
      parseWhere_yields.bind fun w hw => yields_pure ⟨hname, hitems, hw⟩
  refine yields_ite ((yields_pure (.inl rfl)).bind hitems) (yields_bind fun _ => ?_)
  exact (parseCommaLoop_yields parseSelectItem_yields _).bind fun items h =>
    hitems items (.inr h)

theorem parseRevert_yields : Yields InLanguage parseRevert := by
  refine parseQualifiedName_yields.bind fun name hname => yields_bind fun latest => ?_
  refine yields_ite (yields_pure ⟨hname, fun _ => rfl⟩) (yields_bind fun exact => ?_)
  extract_lets afterMode
  have hmode : ∀ mode, mode ≠ RevertMode.latest → Yields InLanguage (afterMode mode) :=
    fun mode hmode => yields_bind fun _ => yields_pure ⟨hname, fun h => absurd h hmode⟩
  refine yields_ite ((yields_pure ?_).bind hmode)
    (yields_bind fun _ => (yields_pure ?_).bind hmode)
  · decide
  · decide

/-- **No parser returns a statement outside the grammar.** -/
theorem parseStatement_inLanguage :
    Yields (fun o => ∀ statement ∈ o, InLanguage statement) parseStatement := by
  have hsome : ∀ {p : ParseM Statement}, Yields InLanguage p →
      Yields (fun o => ∀ statement ∈ o, InLanguage statement) (some <$> p) := by
    intro p hp
    exact hp.map fun statement h => by simpa using h
  have hword : ∀ statement, InLanguage statement →
      Yields InLanguage (parseTransactionWord statement) ∧
        Yields InLanguage (parseIndexWord statement) := fun statement h =>
    ⟨yields_bind fun _ => yields_pure h, yields_bind fun _ => yields_pure h⟩
  refine yields_bind fun _ => yields_ite (hsome parseCreate_yields) ?_
  refine yields_bind fun _ => yields_ite (hsome parseDrop_yields) ?_
  refine yields_bind fun _ => yields_ite (hsome parseUse_yields) ?_
  refine yields_bind fun _ => yields_ite (hsome parseInsert_inLanguage) ?_
  refine yields_bind fun _ => yields_ite (hsome parseUpdate_yields) ?_
  refine yields_bind fun _ => yields_ite (hsome parseDelete_yields) ?_
  refine yields_bind fun _ => yields_ite (hsome parseSelect_yields) ?_
  refine yields_bind fun _ => yields_ite (hsome parseRevert_yields) ?_
  refine yields_bind fun _ => yields_ite (hsome (hword .beginTransaction trivial).1) ?_
  refine yields_bind fun _ => yields_ite (hsome (hword .commitTransaction trivial).1) ?_
  refine yields_bind fun _ => yields_ite (hsome (hword .rollbackTransaction trivial).1) ?_
  refine yields_bind fun _ => yields_ite (hsome (hword .checkIndex trivial).2) ?_
  refine yields_bind fun _ => yields_ite (hsome (hword .rebuildIndex trivial).2) ?_
  exact yields_pure (by simp)

/-! ## §5. The range of `Parse`. -/

theorem acceptable_of_parseTokens {tokens : List Str} {statement : Statement}
    (h : parseTokens tokens = .ok statement) : Acceptable statement := by
  unfold parseTokens at h
  split at h
  · cases h
  split at h
  · cases h
  · cases h
  · rename_i parsed rest hrun
    split at h
    · cases h
    · rename_i s hfinish
      cases h
      obtain ⟨rfl, hvalid⟩ := finishParse_eq_ok hfinish
      exact ⟨parseStatement_inLanguage _ _ _ hrun statement rfl, hvalid⟩

/-- **The parser returns the statements of the grammar that pass
`ValidateStatement`, and no others.**  Each of them is read back from its
tokens, and so whatever tokens gave a statement, the printed ones give it
again. -/
theorem statement_grammar (statement : Statement) :
    ((∃ tokens, parseTokens tokens = .ok statement) ↔ Acceptable statement) ∧
      ∀ tokens, parseTokens tokens = .ok statement →
        parseTokens (printStatement statement) = .ok statement := by
  refine ⟨⟨fun h => ?_, fun h => ⟨_, parseTokens_printStatement h⟩⟩, fun tokens h => ?_⟩
  · obtain ⟨tokens, h⟩ := h
    exact acceptable_of_parseTokens h
  · exact parseTokens_printStatement (acceptable_of_parseTokens h)

end CustomDbms.Parser
