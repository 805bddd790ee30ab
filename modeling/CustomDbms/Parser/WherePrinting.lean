/-
  CustomDbms.Parser.WherePrinting
  ───────────────────────────────
  **THE GRAMMAR OF WHERE CLAUSES.**

  An expression is printed to tokens with no more parentheses than the grammar
  asks for: around an OR below an AND, around a right operand with the operator
  of its parent, and around what is no primary in a comparison, BETWEEN or
  LIKE.  `ParseExpression` reads the tokens back to the expression.

  Each of the four functions has its own ends, the tokens at which it leaves
  off.  The two loops are one argument (`Spine`): what has been read so far is
  the left operand of what follows.

    • `Levels` — the four functions on the tokens of one expression;
    • `parseExpression_printExpression` — the round trip.
-/
import CustomDbms.Parser.InsertText

namespace CustomDbms.Parser

open CustomDbms.Common Cursor

/-! ## §1. Printing. -/

/-- A literal or a column. -/
def isPrimary : Expression → Bool
  | .literal _ | .columnReference .. => true
  | _ => false

/-- A logical expression with this operator. -/
def isLogicalWith (op : LogicalOperator) : Expression → Bool
  | .logical op' _ _ => decide (op' = op)
  | _ => false

/-- Any logical expression. -/
def isLogical : Expression → Bool
  | .logical .. => true
  | _ => false

/-- The token of an operator. -/
def cmpToken : ComparisonOperator → Str
  | .equal => str "=="
  | .notEqual => str "!="
  | .less => str "<"
  | .greater => str ">"
  | .lessEqual => str "<="
  | .greaterEqual => str ">="

/-- Tokens in parentheses, where they are needed. -/
def wrapped (needed : Bool) (tokens : List Str) : List Str :=
  if needed then str "(" :: (tokens ++ [str ")"]) else tokens

/-- The tokens of an expression. -/
def printExpression : Expression → List Str
  | .literal (.string s) => [quoted s]
  | .literal v => literalTokens v
  | .columnReference (some databaseName) _ columnName => [databaseName, str ".", columnName]
  | .columnReference none _ columnName => [columnName]
  | .binaryComparison op left right =>
      wrapped (!isPrimary left) (printExpression left) ++
        cmpToken op :: wrapped (!isPrimary right) (printExpression right)
  | .between value lower upper =>
      wrapped (!isPrimary value) (printExpression value) ++
        str "BETWEEN" :: (wrapped (!isPrimary lower) (printExpression lower) ++
          str "AND" :: wrapped (!isPrimary upper) (printExpression upper))
  | .like value pattern =>
      wrapped (!isPrimary value) (printExpression value) ++
        str "LIKE" :: wrapped (!isPrimary pattern) (printExpression pattern)
  | .logical .and left right =>
      wrapped (isLogicalWith .or left) (printExpression left) ++
        str "AND" :: wrapped (isLogical right) (printExpression right)
  | .logical .or left right =>
      printExpression left ++
        str "OR" :: wrapped (isLogicalWith .or right) (printExpression right)
  | .aggregateCall _ columnName => [columnName]

/-- **The expressions of the grammar**: columns by name or with a database,
numbers and texts, and what is built of them. -/
def InGrammar : Expression → Prop
  | .literal v => isNull v = false
  | .columnReference databaseName tableName columnName =>
      tableName = none ∧ isIdentifier columnName = true ∧
        ∀ d ∈ databaseName, isIdentifier d = true
  | .binaryComparison _ left right => InGrammar left ∧ InGrammar right
  | .between value lower upper => InGrammar value ∧ InGrammar lower ∧ InGrammar upper
  | .like value pattern => InGrammar value ∧ InGrammar pattern
  | .logical _ left right => InGrammar left ∧ InGrammar right
  | .aggregateCall _ _ => False

/-! ## §2. Ends and keywords. -/

/-- The next token, if there is one, is one of these. -/
def Ends (marks rest : List Str) : Prop := ∀ t ∈ rest.head?, t ∈ marks

/-- Where an expression ends. -/
def clauseEnds : List Str := [str ")", str ";"]

/-- Where the operands of an OR end. -/
def andEnds : List Str := str "OR" :: clauseEnds

/-- Where the operands of an AND end. -/
def predicateEnds : List Str := str "AND" :: andEnds

theorem Ends.mono {marks marks' rest : List Str} (h : Ends marks rest)
    (hsub : ∀ t ∈ marks, t ∈ marks') : Ends marks' rest := fun t ht => hsub t (h t ht)

theorem ends_cons {marks rest : List Str} {t : Str} (h : t ∈ marks) : Ends marks (t :: rest) := by
  intro t' ht'
  cases ht'
  exact h

theorem ends_nil (marks : List Str) : Ends marks [] := by
  intro t ht
  cases ht

theorem matchKeyword_ends {marks rest : List Str} {kw : Str} (hrest : Ends marks rest)
    (hmarks : ∀ t ∈ marks, toUpper t ≠ kw) : matchKeyword kw rest = .ok (false, rest) := by
  cases rest with
  | nil => rfl
  | cons t rest => exact matchKeyword_other (hmarks t (hrest t rfl)) rest

/-! ## §3. The loops. -/

section Loops

variable {op : LogicalOperator} {kw : Str} {operand : ParseM Expression} {marks : List Str}
variable {tokens tokens' : List Str} {e l r : Expression}

/-- A step reads the tokens in front of an end. -/
def ReadsBefore (marks : List Str) (p : ParseM Expression) (tokens : List Str) (e : Expression) :
    Prop :=
  ∀ rest, Ends marks rest → p (tokens ++ rest) = .ok (e, rest)

/-- **The tokens are a chain of operands**: after the first of them the loop
comes to the end of the tokens with the expression as its left operand. -/
def Spine (op : LogicalOperator) (kw : Str) (operand : ParseM Expression) (marks : List Str)
    (tokens : List Str) (e : Expression) : Prop :=
  ∀ rest, Ends (kw :: marks) rest → ∃ left mid, operand (tokens ++ rest) = .ok (left, mid) ∧
    ∀ fuel, mid.length ≤ fuel → ∃ fuel', rest.length ≤ fuel' ∧
      parseLogicalLoop op kw operand fuel left mid
        = parseLogicalLoop op kw operand fuel' e rest

theorem spine_of_reads (h : ReadsBefore (kw :: marks) operand tokens e) :
    Spine op kw operand marks tokens e :=
  fun rest hrest => ⟨e, rest, h rest hrest, fun fuel hfuel => ⟨fuel, hfuel, rfl⟩⟩

/-- **One more operand.** -/
theorem Spine.step (hkw : IsKeyword kw) (hl : Spine op kw operand marks tokens l)
    (hr : ReadsBefore (kw :: marks) operand tokens' r) :
    Spine op kw operand marks (tokens ++ kw :: tokens') (.logical op l r) := by
  intro rest hrest
  have hnext : Ends (kw :: marks) (kw :: (tokens' ++ rest)) := ends_cons List.mem_cons_self
  obtain ⟨left, mid, hfirst, hloop⟩ := hl _ hnext
  refine ⟨left, mid, ?_, ?_⟩
  · rw [List.append_assoc]
    exact hfirst
  · intro fuel hfuel
    obtain ⟨fuel', hfuel', heq⟩ := hloop fuel hfuel
    cases fuel' with
    | zero => simp at hfuel'
    | succ fuel' =>
        refine ⟨fuel', ?_, ?_⟩
        · simp only [List.length_cons, List.length_append] at hfuel'
          omega
        · rw [heq, parseLogicalLoop, bind_of_ok (matchKeyword_keyword hkw _), if_pos rfl,
            bind_of_ok (hr rest hrest)]

/-- **The loop leaves off at an end.** -/
theorem Spine.readsBefore (h : Spine op kw operand marks tokens e)
    (hmarks : ∀ t ∈ marks, toUpper t ≠ kw) :
    ReadsBefore marks (do
      let left ← operand
      parseLogicalLoop op kw operand (← get).length left) tokens e := by
  intro rest hrest
  obtain ⟨left, mid, hfirst, hloop⟩ :=
    h rest (hrest.mono fun t ht => List.mem_cons_of_mem _ ht)
  rw [bind_of_ok hfirst]
  show parseLogicalLoop op kw operand mid.length left mid = _
  obtain ⟨fuel, -, heq⟩ := hloop mid.length (Nat.le_refl _)
  rw [heq]
  cases fuel with
  | zero => rfl
  | succ fuel =>
      rw [parseLogicalLoop, bind_of_ok (matchKeyword_ends hrest hmarks), if_neg (by decide)]
      rfl

end Loops

/-! ## §4. Primaries. -/

/-- The next token is no dot, so a name is complete. -/
def NoDot (rest : List Str) : Prop := ∀ t ∈ rest.head?, t ≠ str "."

theorem Ends.noDot {marks rest : List Str} (h : Ends marks rest) (hmarks : str "." ∉ marks) :
    NoDot rest := fun t ht heq => hmarks (heq ▸ h t ht)

theorem noDot_cons {t : Str} (h : t ≠ str ".") (rest : List Str) : NoDot (t :: rest) := by
  intro t' ht'
  cases ht'
  exact h

/-- `ParsePrimary` reads the tokens in front of anything but a dot. -/
def ReadsPrimary (inner : ParseM Expression) (tokens : List Str) (e : Expression) : Prop :=
  ∀ rest, NoDot rest → parsePrimary inner (tokens ++ rest) = .ok (e, rest)

section Primaries

variable {inner : ParseM Expression} {tokens : List Str} {e : Expression}

/-- An identifier is no parenthesis. -/
theorem ne_paren_of_isIdentifier {name : Str} (h : isIdentifier name = true) :
    name ≠ str "(" := by
  rintro rfl
  exact absurd h (by decide)

/-- What stands in parentheses. -/
theorem readsPrimary_paren (h : ReadsBefore clauseEnds inner tokens e) :
    ReadsPrimary inner (wrapped true tokens) e := by
  intro rest _
  have htext : wrapped true tokens ++ rest = str "(" :: (tokens ++ str ")" :: rest) := by
    simp [wrapped]
  rw [htext]
  refine (bind_of_ok (matchToken_self _ _) _).trans ?_
  have hinner := h (str ")" :: rest) (ends_cons (by simp [clauseEnds]))
  show (inner >>= fun e => expect (str ")") >>= fun _ => pure e) _ = _
  rw [bind_of_ok hinner]
  exact (reads_expect (str ")")).map (fun _ => e) rest

/-- A token that begins neither parentheses nor a name begins a literal. -/
theorem readsPrimary_literal {t : Str} {v : Value} (hparen : t ≠ str "(")
    (hname : isIdentifier t = false) (h : Reads parseLiteralToken (t :: tokens) v) :
    ReadsPrimary inner (t :: tokens) (.literal v) := by
  intro rest _
  show parsePrimary inner (t :: (tokens ++ rest)) = _
  refine (bind_of_ok (matchToken_other hparen _) _).trans ?_
  show (if isIdentifier t = true then _ else _ : ParseM Expression) (t :: (tokens ++ rest)) = _
  rw [hname]
  exact h.map Expression.literal rest

theorem readsPrimary_name {columnName : Str} (h : isIdentifier columnName = true) :
    ReadsPrimary inner [columnName] (.columnReference none none columnName) := by
  intro rest hrest
  show parsePrimary inner (columnName :: rest) = _
  refine (bind_of_ok (matchToken_other (ne_paren_of_isIdentifier h) _) _).trans ?_
  show (if isIdentifier columnName = true then (parseQualifiedName >>= fun q =>
    pure (.columnReference q.databaseName none q.objectName)) else _ : ParseM Expression)
      (columnName :: rest) = _
  rw [if_pos h]
  have hdot : matchToken (str ".") rest = .ok (false, rest) := by
    cases rest with
    | nil => rfl
    | cons t rest => exact matchToken_other (hrest t rfl) rest
  have hname : parseQualifiedName (columnName :: rest) = .ok (⟨none, columnName⟩, rest) := by
    refine (bind_of_ok (reads_takeIdentifier h rest) _).trans ?_
    exact (bind_of_ok hdot _).trans rfl
  rw [bind_of_ok hname]
  rfl

theorem readsPrimary_qualified {databaseName columnName : Str}
    (hd : isIdentifier databaseName = true) (hc : isIdentifier columnName = true) :
    ReadsPrimary inner [databaseName, str ".", columnName]
      (.columnReference (some databaseName) none columnName) := by
  intro rest _
  show parsePrimary inner (databaseName :: str "." :: columnName :: rest) = _
  refine (bind_of_ok (matchToken_other (ne_paren_of_isIdentifier hd) _) _).trans ?_
  show (if isIdentifier databaseName = true then (parseQualifiedName >>= fun q =>
    pure (.columnReference q.databaseName none q.objectName)) else _ : ParseM Expression)
      (databaseName :: str "." :: columnName :: rest) = _
  rw [if_pos hd]
  exact (reads_parseQualifiedName hd hc).map
    (fun q => Expression.columnReference q.databaseName none q.objectName) rest

/-- The first byte of a number. -/
theorem not_identifier_of_head {t : Str} (h : ∀ c ∈ t.head?, isAlpha c = false ∧ c ≠ byte '_') :
    isIdentifier t = false := by
  cases t with
  | nil => rfl
  | cons c t =>
      obtain ⟨halpha, hunder⟩ := h c rfl
      simp [isIdentifier, halpha, hunder]

/-- **A primary is read.** -/
theorem readsPrimary_print (hprimary : isPrimary e = true) (h : InGrammar e) :
    ReadsPrimary inner (printExpression e) e := by
  cases e with
  | literal v =>
      cases v with
      | null => cases h
      | string s =>
          exact readsPrimary_literal (fun heq => absurd (List.cons.inj heq).1 (by decide)) rfl
            (reads_quoted s)
      | int i =>
          have hread := reads_number i
          show ReadsPrimary inner (literalTokens (.int i)) _
          unfold literalTokens at hread ⊢
          dsimp only at hread ⊢
          by_cases hneg : i.toInt < 0
          · rw [if_pos hneg] at hread ⊢
            exact readsPrimary_literal (by decide) (by decide) hread
          · rw [if_neg hneg] at hread ⊢
            obtain ⟨hne, hdigits, -⟩ := natToString_digits i.toInt.natAbs
            have hdigit : ∀ c : Byte, isDigit c = true →
                (isAlpha c = false ∧ c ≠ byte '_') ∧ c ≠ byte '(' := by
              grind [isDigit, isAlpha, isUpper, isLower, byte]
            refine readsPrimary_literal ?_ ?_ hread
            · intro heq
              have hparen := hdigits (byte '(') (by rw [heq]; decide)
              exact (hdigit _ hparen).2 rfl
            · apply not_identifier_of_head
              intro c hc
              exact (hdigit c (hdigits c (List.mem_of_mem_head? hc))).1
  | columnReference databaseName tableName columnName =>
      obtain ⟨rfl, hcolumn, hdatabase⟩ := h
      cases databaseName with
      | none => exact readsPrimary_name hcolumn
      | some d => exact readsPrimary_qualified (hdatabase d rfl) hcolumn
  | _ => cases hprimary

end Primaries

/-! ## §5. Predicates. -/

section Predicates

variable {inner : ParseM Expression} {tl tr tu : List Str} {l r u : Expression}

theorem predicateEnds_noDot {rest : List Str} (h : Ends predicateEnds rest) : NoDot rest :=
  h.noDot (by decide)

/-- **A primary alone is a predicate.** -/
theorem readsPredicate_primary (h : ReadsPrimary inner tl l) :
    ReadsBefore predicateEnds (parsePredicate inner) tl l := by
  intro rest hrest
  have hkeyword : ∀ kw, kw = str "BETWEEN" ∨ kw = str "LIKE" →
      ∀ t ∈ predicateEnds, toUpper t ≠ kw := by
    rintro kw (rfl | rfl) <;> decide
  refine (bind_of_ok (h rest (predicateEnds_noDot hrest)) _).trans ?_
  refine (bind_of_ok (matchKeyword_ends hrest (hkeyword _ (.inl rfl))) _).trans ?_
  refine (bind_of_ok (matchKeyword_ends hrest (hkeyword _ (.inr rfl))) _).trans ?_
  cases rest with
  | nil => rfl
  | cons t rest =>
      have hend : ∀ t ∈ predicateEnds, (false || decide (t = str ")") || decide (t = str ";") ||
          decide (toUpper t = str "AND") || decide (toUpper t = str "OR")) = true := by
        decide
      show (if (false || decide (t = str ")") || decide (t = str ";") ||
        decide (toUpper t = str "AND") || decide (toUpper t = str "OR")) = true
          then pure l else _ : ParseM Expression) (t :: rest) = _
      rw [if_pos (hend t (hrest t rfl))]
      rfl

/-- What the operator of a comparison is not. -/
theorem cmpToken_spec (op : ComparisonOperator) :
    cmpToken op ≠ str "." ∧ toUpper (cmpToken op) ≠ str "BETWEEN" ∧
      toUpper (cmpToken op) ≠ str "LIKE" ∧
      (false || decide (cmpToken op = str ")") || decide (cmpToken op = str ";") ||
        decide (toUpper (cmpToken op) = str "AND") || decide (toUpper (cmpToken op) = str "OR"))
        = false ∧
      ∀ rest, parseCmpOp (cmpToken op) rest = .ok (op, rest) := by
  cases op <;> refine ⟨by decide, by decide, by decide, by decide,
    fun rest => rfl⟩

theorem readsPredicate_comparison (op : ComparisonOperator) (hl : ReadsPrimary inner tl l)
    (hr : ReadsPrimary inner tr r) :
    ReadsBefore predicateEnds (parsePredicate inner) (tl ++ cmpToken op :: tr)
      (.binaryComparison op l r) := by
  intro rest hrest
  obtain ⟨hdot, hbetween, hlike, hend, hop⟩ := cmpToken_spec op
  rw [List.append_assoc]
  refine (bind_of_ok (hl (cmpToken op :: (tr ++ rest)) (noDot_cons hdot _)) _).trans ?_
  refine (bind_of_ok (matchKeyword_other hbetween _) _).trans ?_
  refine (bind_of_ok (matchKeyword_other hlike _) _).trans ?_
  show (if (false || decide (cmpToken op = str ")") || decide (cmpToken op = str ";") ||
    decide (toUpper (cmpToken op) = str "AND") || decide (toUpper (cmpToken op) = str "OR")) = true
      then pure l else (take >>= fun token => parsePrimary inner >>= fun right =>
        parseCmpOp token >>= fun op => pure (.binaryComparison op l right)) : ParseM Expression)
      (cmpToken op :: (tr ++ rest)) = _
  rw [hend, if_neg (by decide)]
  show (parsePrimary inner >>= fun right =>
    parseCmpOp (cmpToken op) >>= fun op => pure (Expression.binaryComparison op l right))
      (tr ++ rest) = _
  rw [bind_of_ok (hr rest (predicateEnds_noDot hrest)), bind_of_ok (hop rest)]
  rfl

theorem isKeyword_between : IsKeyword (str "BETWEEN") := ⟨by decide, by decide⟩

theorem isKeyword_like : IsKeyword (str "LIKE") := ⟨by decide, by decide⟩

theorem isKeyword_and : IsKeyword (str "AND") := ⟨by decide, by decide⟩

theorem isKeyword_or : IsKeyword (str "OR") := ⟨by decide, by decide⟩

/-- **The AND of a BETWEEN is its own.** -/
theorem readsPredicate_between (hl : ReadsPrimary inner tl l) (hr : ReadsPrimary inner tr r)
    (hu : ReadsPrimary inner tu u) :
    ReadsBefore predicateEnds (parsePredicate inner)
      (tl ++ str "BETWEEN" :: (tr ++ str "AND" :: tu)) (.between l r u) := by
  intro rest hrest
  have htext : tl ++ str "BETWEEN" :: (tr ++ str "AND" :: tu) ++ rest
      = tl ++ str "BETWEEN" :: (tr ++ str "AND" :: (tu ++ rest)) := by simp
  rw [htext]
  refine (bind_of_ok (hl _ (noDot_cons (by decide) _)) _).trans ?_
  refine (bind_of_ok (matchKeyword_keyword isKeyword_between _) _).trans ?_
  show (parsePrimary inner >>= fun lower => expectKeyword (str "AND") >>= fun _ =>
    parsePrimary inner >>= fun upper => pure (Expression.between l lower upper)) _ = _
  have hand : expectKeyword (str "AND") (str "AND" :: (tu ++ rest)) = .ok ((), tu ++ rest) :=
    (bind_of_ok (matchKeyword_keyword isKeyword_and _) _).trans rfl
  rw [bind_of_ok (hr _ (noDot_cons (by decide) _)), bind_of_ok hand,
    bind_of_ok (hu rest (predicateEnds_noDot hrest))]
  rfl

theorem readsPredicate_like (hl : ReadsPrimary inner tl l) (hr : ReadsPrimary inner tr r) :
    ReadsBefore predicateEnds (parsePredicate inner) (tl ++ str "LIKE" :: tr) (.like l r) := by
  intro rest hrest
  rw [List.append_assoc]
  refine (bind_of_ok (hl (str "LIKE" :: (tr ++ rest)) (noDot_cons (by decide) _)) _).trans ?_
  refine (bind_of_ok (matchKeyword_other (by decide) _) _).trans ?_
  refine (bind_of_ok (matchKeyword_keyword isKeyword_like _) _).trans ?_
  show (parsePrimary inner >>= fun pattern => pure (Expression.like l pattern)) (tr ++ rest) = _
  rw [bind_of_ok (hr rest (predicateEnds_noDot hrest))]
  rfl

end Predicates

/-! ## §6. The four levels. -/

/-- **The functions of the parser on the tokens of an expression.**  The fuel
bounds the parentheses, of which there are less than tokens. -/
structure Levels (e : Expression) : Prop where
  predicate : isLogical e = false → ∀ fuel, (printExpression e).length ≤ fuel →
    ReadsBefore predicateEnds (parsePredicate (parseExpressionAt fuel)) (printExpression e) e
  chainAnd : isLogicalWith .or e = false → ∀ fuel, (printExpression e).length ≤ fuel →
    Spine .and (str "AND") (parsePredicate (parseExpressionAt fuel)) andEnds (printExpression e) e
  chainOr : ∀ fuel, (printExpression e).length ≤ fuel →
    Spine .or (str "OR") (parseAnd (parseExpressionAt fuel)) clauseEnds (printExpression e) e

theorem andEnds_not_and : ∀ t ∈ andEnds, toUpper t ≠ str "AND" := by decide

theorem clauseEnds_not_or : ∀ t ∈ clauseEnds, toUpper t ≠ str "OR" := by decide

theorem length_wrapped_true (tokens : List Str) :
    (wrapped true tokens).length = tokens.length + 2 := by
  simp [wrapped]

namespace Levels

variable {e : Expression} {fuel : Nat}

/-- An expression without an OR on top is an operand of OR. -/
theorem readsAnd (h : Levels e) (hor : isLogicalWith .or e = false)
    (hfuel : (printExpression e).length ≤ fuel) :
    ReadsBefore andEnds (parseAnd (parseExpressionAt fuel)) (printExpression e) e :=
  (h.chainAnd hor fuel hfuel).readsBefore andEnds_not_and

/-- **`ParseExpression` reads any expression.** -/
theorem readsExpression (h : Levels e) (hfuel : (printExpression e).length < fuel) :
    ReadsBefore clauseEnds (parseExpressionAt fuel) (printExpression e) e := by
  cases fuel with
  | zero => exact absurd hfuel (Nat.not_lt_zero _)
  | succ fuel => exact (h.chainOr fuel (Nat.le_of_lt_succ hfuel)).readsBefore clauseEnds_not_or

theorem readsParen (h : Levels e) (hfuel : (wrapped true (printExpression e)).length ≤ fuel) :
    ReadsPrimary (parseExpressionAt fuel) (wrapped true (printExpression e)) e := by
  rw [length_wrapped_true] at hfuel
  exact readsPrimary_paren (h.readsExpression (by omega))

/-- An operand of a comparison, BETWEEN or LIKE. -/
theorem readsOperand (h : Levels e) (hgrammar : InGrammar e)
    (hfuel : (wrapped (!isPrimary e) (printExpression e)).length ≤ fuel) :
    ReadsPrimary (parseExpressionAt fuel) (wrapped (!isPrimary e) (printExpression e)) e := by
  cases hprimary : isPrimary e with
  | true => exact readsPrimary_print hprimary hgrammar
  | false =>
      rw [hprimary] at hfuel
      exact h.readsParen hfuel

/-- A left operand of AND. -/
theorem chainOfAnd (h : Levels e)
    (hfuel : (wrapped (isLogicalWith .or e) (printExpression e)).length ≤ fuel) :
    Spine .and (str "AND") (parsePredicate (parseExpressionAt fuel)) andEnds
      (wrapped (isLogicalWith .or e) (printExpression e)) e := by
  cases hor : isLogicalWith .or e with
  | false =>
      rw [hor] at hfuel
      exact h.chainAnd hor fuel hfuel
  | true =>
      rw [hor] at hfuel
      exact spine_of_reads (readsPredicate_primary (h.readsParen hfuel))

/-- A right operand of AND. -/
theorem readsRightOfAnd (h : Levels e)
    (hfuel : (wrapped (isLogical e) (printExpression e)).length ≤ fuel) :
    ReadsBefore predicateEnds (parsePredicate (parseExpressionAt fuel))
      (wrapped (isLogical e) (printExpression e)) e := by
  cases hlogical : isLogical e with
  | false =>
      rw [hlogical] at hfuel
      exact h.predicate hlogical fuel hfuel
  | true =>
      rw [hlogical] at hfuel
      exact readsPredicate_primary (h.readsParen hfuel)

/-- A right operand of OR. -/
theorem readsRightOfOr (h : Levels e)
    (hfuel : (wrapped (isLogicalWith .or e) (printExpression e)).length ≤ fuel) :
    ReadsBefore andEnds (parseAnd (parseExpressionAt fuel))
      (wrapped (isLogicalWith .or e) (printExpression e)) e := by
  cases hor : isLogicalWith .or e with
  | false =>
      rw [hor] at hfuel
      exact h.readsAnd hor hfuel
  | true =>
      rw [hor] at hfuel
      have hchain : Spine .and (str "AND") (parsePredicate (parseExpressionAt fuel)) andEnds
          (wrapped true (printExpression e)) e :=
        spine_of_reads (readsPredicate_primary (h.readsParen hfuel))
      exact hchain.readsBefore andEnds_not_and

/-- An expression that `ParsePredicate` reads. -/
theorem of_predicate
    (h : ∀ fuel, (printExpression e).length ≤ fuel →
      ReadsBefore predicateEnds (parsePredicate (parseExpressionAt fuel)) (printExpression e) e) :
    Levels e where
  predicate := fun _ => h
  chainAnd := fun _ fuel hfuel => spine_of_reads (h fuel hfuel)
  chainOr := by
    intro fuel hfuel
    have hchain : Spine .and (str "AND") (parsePredicate (parseExpressionAt fuel)) andEnds
        (printExpression e) e := spine_of_reads (h fuel hfuel)
    exact spine_of_reads (hchain.readsBefore andEnds_not_and)

theorem and {l r : Expression} (hl : Levels l) (hr : Levels r) : Levels (.logical .and l r) := by
  have hchain : ∀ fuel, (printExpression (.logical .and l r)).length ≤ fuel →
      Spine .and (str "AND") (parsePredicate (parseExpressionAt fuel)) andEnds
        (printExpression (.logical .and l r)) (.logical .and l r) := by
    intro fuel hfuel
    simp only [printExpression, List.length_append, List.length_cons] at hfuel
    exact (hl.chainOfAnd (by omega)).step isKeyword_and (hr.readsRightOfAnd (by omega))
  refine ⟨fun h => (by cases h), fun _ => hchain, ?_⟩
  intro fuel hfuel
  exact spine_of_reads ((hchain fuel hfuel).readsBefore andEnds_not_and)

theorem or {l r : Expression} (hl : Levels l) (hr : Levels r) : Levels (.logical .or l r) := by
  refine ⟨fun h => (by cases h), fun h => (by cases h), ?_⟩
  intro fuel hfuel
  simp only [printExpression, List.length_append, List.length_cons] at hfuel
  exact (hl.chainOr fuel (by omega)).step isKeyword_or (hr.readsRightOfOr (by omega))

end Levels

/-- **Every expression of the grammar is read on every level.** -/
theorem levels_of_inGrammar {e : Expression} (h : InGrammar e) : Levels e := by
  induction e with
  | literal v =>
      refine .of_predicate fun fuel _ => ?_
      exact readsPredicate_primary (readsPrimary_print rfl h)
  | columnReference databaseName tableName columnName =>
      refine .of_predicate fun fuel _ => ?_
      exact readsPredicate_primary (readsPrimary_print rfl h)
  | binaryComparison op l r ihl ihr =>
      refine .of_predicate fun fuel hfuel => ?_
      simp only [printExpression, List.length_append, List.length_cons] at hfuel
      exact readsPredicate_comparison op ((ihl h.1).readsOperand h.1 (by omega))
        ((ihr h.2).readsOperand h.2 (by omega))
  | between v lower upper ihv ihl ihu =>
      refine .of_predicate fun fuel hfuel => ?_
      simp only [printExpression, List.length_append, List.length_cons] at hfuel
      exact readsPredicate_between ((ihv h.1).readsOperand h.1 (by omega))
        ((ihl h.2.1).readsOperand h.2.1 (by omega)) ((ihu h.2.2).readsOperand h.2.2 (by omega))
  | like v pattern ihv ihp =>
      refine .of_predicate fun fuel hfuel => ?_
      simp only [printExpression, List.length_append, List.length_cons] at hfuel
      exact readsPredicate_like ((ihv h.1).readsOperand h.1 (by omega))
        ((ihp h.2).readsOperand h.2 (by omega))
  | logical op l r ihl ihr =>
      cases op with
      | and => exact (ihl h.1).and (ihr h.2)
      | or => exact (ihl h.1).or (ihr h.2)
  | aggregateCall kind columnName => exact h.elim

/-- **The round trip**: `ParseExpression` consumes the tokens of an expression
and returns it, at the end of the tokens and in front of a parenthesis or a
semicolon. -/
theorem parseExpression_printExpression {e : Expression} (h : InGrammar e) {rest : List Str}
    (hrest : Ends clauseEnds rest) :
    parseExpression (printExpression e ++ rest) = .ok (e, rest) := by
  have hfuel : (printExpression e).length < (printExpression e ++ rest).length + 1 := by
    rw [List.length_append]
    omega
  exact (levels_of_inGrammar h).readsExpression hfuel rest hrest

/-- An expression that stands without parentheses on either side of AND and OR. -/
def Operand (e : Expression) : Prop := InGrammar e ∧ isLogical e = false

theorem Operand.not_or {e : Expression} (h : Operand e) : isLogicalWith .or e = false := by
  cases e with
  | logical op l r => cases h.2
  | _ => rfl

theorem printExpression_and {a b : Expression} (ha : isLogicalWith .or a = false)
    (hb : isLogical b = false) : printExpression (.logical .and a b)
      = printExpression a ++ str "AND" :: printExpression b := by
  rw [printExpression, ha, hb]
  rfl

theorem printExpression_or (a : Expression) {b : Expression} (hb : isLogicalWith .or b = false) :
    printExpression (.logical .or a b) = printExpression a ++ str "OR" :: printExpression b := by
  rw [printExpression, hb]
  rfl

/-- **The grammar of WHERE clauses**: every expression is read back from its
tokens; AND binds tighter than OR, both associate to the left, and the AND of a
BETWEEN is no conjunction. -/
theorem where_grammar :
    (∀ e, InGrammar e → parseExpression (printExpression e) = .ok (e, [])) ∧
    ∀ a b c, Operand a → Operand b → Operand c →
      parseExpression (printExpression a ++ str "OR" ::
          (printExpression b ++ str "AND" :: printExpression c))
        = .ok (.logical .or a (.logical .and b c), []) ∧
      parseExpression (printExpression a ++ str "AND" :: printExpression b ++
          str "OR" :: printExpression c)
        = .ok (.logical .or (.logical .and a b) c, []) ∧
      parseExpression (printExpression a ++ str "AND" :: printExpression b ++
          str "AND" :: printExpression c)
        = .ok (.logical .and (.logical .and a b) c, []) ∧
      parseExpression (printExpression a ++ str "OR" :: printExpression b ++
          str "OR" :: printExpression c)
        = .ok (.logical .or (.logical .or a b) c, []) ∧
      ∀ x lower upper, InGrammar x → InGrammar lower → InGrammar upper → isPrimary x = true →
        isPrimary lower = true → isPrimary upper = true →
        parseExpression (printExpression x ++ str "BETWEEN" :: (printExpression lower ++
            str "AND" :: printExpression upper) ++ str "AND" :: printExpression c)
          = .ok (.logical .and (.between x lower upper) c, []) := by
  have hround : ∀ e, InGrammar e → parseExpression (printExpression e) = .ok (e, []) := by
    intro e he
    have h := parseExpression_printExpression he (ends_nil clauseEnds)
    rwa [List.append_nil] at h
  refine ⟨hround, fun a b c ha hb hc => ⟨?_, ?_, ?_, ?_, ?_⟩⟩
  · have h := hround (.logical .or a (.logical .and b c)) ⟨ha.1, hb.1, hc.1⟩
    rwa [printExpression_or a rfl, printExpression_and hb.not_or hc.2] at h
  · have h := hround (.logical .or (.logical .and a b) c) ⟨⟨ha.1, hb.1⟩, hc.1⟩
    rwa [printExpression_or _ hc.not_or, printExpression_and ha.not_or hb.2] at h
  · have h := hround (.logical .and (.logical .and a b) c) ⟨⟨ha.1, hb.1⟩, hc.1⟩
    rwa [printExpression_and rfl hc.2, printExpression_and ha.not_or hb.2] at h
  · have h := hround (.logical .or (.logical .or a b) c) ⟨⟨ha.1, hb.1⟩, hc.1⟩
    rwa [printExpression_or _ hc.not_or, printExpression_or _ hb.not_or] at h
  · intro x lower upper hx hlower hupper hpx hpl hpu
    have hbetween : printExpression (.between x lower upper) = printExpression x ++
        str "BETWEEN" :: (printExpression lower ++ str "AND" :: printExpression upper) := by
      rw [printExpression, hpx, hpl, hpu]
      rfl
    have h := hround (.logical .and (.between x lower upper) c) ⟨⟨hx, hlower, hupper⟩, hc.1⟩
    rwa [printExpression_and rfl hc.2, hbetween] at h

/-- `d.x BETWEEN -1 AND (y OR z)`. -/
def sampleClause : Expression :=
  .between (.columnReference (some (str "d")) none (str "x")) (.literal (.int (-1)))
    (.logical .or (.columnReference none none (str "y")) (.columnReference none none (str "z")))

/-- **A bound in parentheses.** -/
theorem parse_sampleClause :
    printExpression sampleClause = [str "d", str ".", str "x", str "BETWEEN", str "-", str "1",
      str "AND", str "(", str "y", str "OR", str "z", str ")"] ∧
    parseExpression (printExpression sampleClause) = .ok (sampleClause, []) := by
  have hgrammar : InGrammar sampleClause :=
    ⟨⟨rfl, by decide, fun d hd => by cases hd; decide⟩, rfl,
      ⟨rfl, by decide, fun d hd => by cases hd⟩,
      ⟨rfl, by decide, fun d hd => by cases hd⟩⟩
  exact ⟨by decide, where_grammar.1 sampleClause hgrammar⟩

end CustomDbms.Parser
