/-
  CustomDbms.Parser.InsertText
  ────────────────────────────
  **INSERT AS TEXT.**

  What the parser lets through as an INSERT: names that are identifiers, and
  rows of literals whose texts are closed, since a literal inside the
  parentheses of a row is never the last token.  And what it makes of the
  tokens of an INSERT: the statement again.

    • `parse_insert` — every accepted INSERT is well formed;
    • `parseTokens_insert` — the tokens of an INSERT are read back.
-/
import CustomDbms.Parser.TokenTexts
import CustomDbms.Parser.WhereLiterals

namespace CustomDbms.Parser

open CustomDbms.Common Cursor

/-! ## §1. Where an INSERT comes from. -/

/-- A statement other than an INSERT. -/
def NotInsert (statement : Statement) : Prop := ∀ stmt, statement ≠ .insert stmt

/-- One test of the chain of keywords. -/
theorem keyword_branch {kw : Str} {p : ParseM Statement} {q : ParseM (Option Statement)}
    {tokens rest : List Str} {statement : Statement}
    (h : (do if ← matchKeyword kw then some <$> p else q : ParseM (Option Statement)) tokens
      = .ok (some statement, rest)) :
    (∃ t toks, tokens = t :: toks ∧ p toks = .ok (statement, rest)) ∨
      q tokens = .ok (some statement, rest) := by
  obtain ⟨found, mid, hfound, hrun⟩ := bind_eq_ok h
  cases tokens with
  | nil =>
      cases hfound
      exact .inr hrun
  | cons t toks =>
      change (if toUpper t ≠ kw then pure false
        else if hasMixedLetterCase t then fail _ else _ : ParseM Bool) (t :: toks) = _ at hfound
      by_cases hkw : toUpper t ≠ kw
      · rw [if_pos hkw] at hfound
        cases hfound
        exact .inr hrun
      · rw [if_neg hkw] at hfound
        by_cases hmixed : hasMixedLetterCase t = true
        · rw [if_pos hmixed] at hfound
          cases hfound
        · rw [if_neg hmixed] at hfound
          cases hfound
          change (p >>= fun s => pure (some s)) _ = _ at hrun
          obtain ⟨s, after, hs, heq⟩ := bind_eq_ok hrun
          cases heq
          exact .inl ⟨t, _, rfl, hs⟩

/-- **An INSERT comes from `ParseInsert`.** -/
theorem parseStatement_insert {tokens rest : List Str} {stmt : InsertStatement}
    (h : parseStatement tokens = .ok (some (.insert stmt), rest)) :
    ∃ t toks, tokens = t :: toks ∧ parseInsert toks = .ok (.insert stmt, rest) := by
  have hother : ∀ {p : ParseM Statement}, Yields NotInsert p →
      ¬ ∃ t toks, tokens = t :: toks ∧ p toks = .ok (.insert stmt, rest) := by
    rintro p hp ⟨t, toks, -, hrun⟩
    exact hp _ _ _ hrun stmt rfl
  have hplain : ∀ s : Statement, s.isPlain = true → NotInsert s := by
    rintro s hs stmt rfl
    cases hs
  have hupdate : Yields NotInsert parseUpdate :=
    yields_bind fun _ => yields_bind fun _ => yields_bind fun _ => yields_bind fun _ =>
      yields_bind fun _ => yields_pure fun _ heq => by cases heq
  have hdelete : Yields NotInsert parseDelete :=
    yields_bind fun _ => yields_bind fun _ => yields_bind fun _ =>
      yields_pure fun _ heq => by cases heq
  have hselect : Yields NotInsert parseSelect := by
    refine yields_bind fun star => ?_
    extract_lets afterItems
    have hrest : ∀ items, Yields NotInsert (afterItems items) := fun items =>
      yields_bind fun _ => yields_bind fun _ => yields_bind fun _ =>
        yields_pure fun _ heq => by cases heq
    exact yields_ite (yields_bind hrest) (yields_bind fun _ => yields_bind hrest)
  have hskip := fun p hp => hother (parsePlain_yields hplain p hp)
  unfold parseStatement at h
  replace h := (keyword_branch h).resolve_left (hskip _ (by simp))
  replace h := (keyword_branch h).resolve_left (hskip _ (by simp))
  replace h := (keyword_branch h).resolve_left (hskip _ (by simp))
  refine (keyword_branch h).resolve_right fun hlater => ?_
  replace hlater := (keyword_branch hlater).resolve_left (hother hupdate)
  replace hlater := (keyword_branch hlater).resolve_left (hother hdelete)
  replace hlater := (keyword_branch hlater).resolve_left (hother hselect)
  replace hlater := (keyword_branch hlater).resolve_left (hskip _ (by simp))
  replace hlater := (keyword_branch hlater).resolve_left (hskip _ (by simp))
  replace hlater := (keyword_branch hlater).resolve_left (hskip _ (by simp))
  replace hlater := (keyword_branch hlater).resolve_left (hskip _ (by simp))
  replace hlater := (keyword_branch hlater).resolve_left (hskip _ (by simp))
  replace hlater := (keyword_branch hlater).resolve_left (hskip _ (by simp))
  cases hlater

/-! ## §2. What an INSERT holds. -/

/-- A string literal whose text is closed. -/
def ClosedValue (v : Value) : Prop := ∀ s, v = .string s → Closed s

/-- A parsing step that starts before closed tokens ends before closed tokens,
with a value that has a property. -/
def Keeps {α : Type} (P : α → Prop) (p : ParseM α) : Prop :=
  ∀ tokens a rest, ClosedTokens tokens → p tokens = .ok (a, rest) → P a ∧ ClosedTokens rest

theorem closedTokens_tail {t : Str} {tokens : List Str} (h : ClosedTokens (t :: tokens)) :
    ClosedTokens tokens := by
  intro token htoken
  cases tokens with
  | nil => cases htoken
  | cons t' tokens =>
      refine h token ?_
      rw [List.dropLast_cons_of_ne_nil (by simp)]
      exact List.mem_cons_of_mem _ htoken

section Rules

variable {α β : Type} {P : α → Prop} {Q : β → Prop}

theorem keeps_pure {a : α} (h : P a) : Keeps P (pure a) := by
  intro tokens b rest htokens hb
  cases hb
  exact ⟨h, htokens⟩

theorem keeps_fail (message : Str) : Keeps P (fail message) := by
  intro tokens a rest _ h
  cases h

/-- **The rule of sequence.** -/
theorem Keeps.bind {p : ParseM α} {f : α → ParseM β} (hp : Keeps P p)
    (hf : ∀ a, P a → Keeps Q (f a)) : Keeps Q (p >>= f) := by
  intro tokens b rest htokens h
  obtain ⟨a, mid, ha, hb⟩ := bind_eq_ok h
  obtain ⟨hPa, hmid⟩ := hp tokens a mid htokens ha
  exact hf a hPa mid b rest hmid hb

theorem keeps_ite {c : Prop} [Decidable c] {p q : ParseM α} (hp : Keeps P p) (hq : Keeps P q) :
    Keeps P (if c then p else q) := by
  split
  · exact hp
  · exact hq

theorem keeps_get : Keeps (fun _ => True) (get : ParseM (List Str)) := by
  intro tokens a rest htokens h
  cases h
  exact ⟨trivial, htokens⟩

theorem keeps_take : Keeps (fun _ => True) take := by
  intro tokens a rest htokens h
  cases tokens with
  | nil => cases h
  | cons t tokens =>
      cases h
      exact ⟨trivial, closedTokens_tail htokens⟩

theorem keeps_matchToken (token : Str) : Keeps (fun _ => True) (matchToken token) := by
  intro tokens a rest htokens h
  cases tokens with
  | nil =>
      cases h
      exact ⟨trivial, htokens⟩
  | cons t tokens =>
      change (if t = token then _ else pure false : ParseM Bool) (t :: tokens) = _ at h
      by_cases ht : t = token
      · rw [if_pos ht] at h
        cases h
        exact ⟨trivial, closedTokens_tail htokens⟩
      · rw [if_neg ht] at h
        cases h
        exact ⟨trivial, htokens⟩

theorem keeps_matchKeyword (kw : Str) : Keeps (fun _ => True) (matchKeyword kw) := by
  intro tokens a rest htokens h
  cases tokens with
  | nil =>
      cases h
      exact ⟨trivial, htokens⟩
  | cons t tokens =>
      change (if toUpper t ≠ kw then pure false
        else if hasMixedLetterCase t then fail _ else _ : ParseM Bool) (t :: tokens) = _ at h
      by_cases hkw : toUpper t ≠ kw
      · rw [if_pos hkw] at h
        cases h
        exact ⟨trivial, htokens⟩
      · rw [if_neg hkw] at h
        by_cases hmixed : hasMixedLetterCase t = true
        · rw [if_pos hmixed] at h
          cases h
        · rw [if_neg hmixed] at h
          cases h
          exact ⟨trivial, closedTokens_tail htokens⟩

theorem keeps_expect (token : Str) : Keeps (fun _ => True) (expect token) := by
  refine (keeps_matchToken token).bind fun found _ => ?_
  exact keeps_ite (keeps_fail _) (keeps_pure trivial)

theorem keeps_expectKeyword (kw : Str) : Keeps (fun _ => True) (expectKeyword kw) := by
  refine (keeps_matchKeyword kw).bind fun found _ => ?_
  exact keeps_ite (keeps_fail _) (keeps_pure trivial)

theorem keeps_takeIdentifier : Keeps (fun n => isIdentifier n = true) takeIdentifier := by
  refine keeps_take.bind fun token _ => ?_
  intro tokens a rest htokens h
  by_cases htoken : isIdentifier token = true
  · rw [if_pos htoken] at h
    cases h
    exact ⟨htoken, htokens⟩
  · rw [if_neg htoken] at h
    cases h

end Rules

/-- A name of identifiers. -/
def NameOk (name : QualifiedName) : Prop :=
  isIdentifier name.objectName = true ∧ ∀ d ∈ name.databaseName, isIdentifier d = true

theorem keeps_parseQualifiedName : Keeps NameOk parseQualifiedName := by
  refine keeps_takeIdentifier.bind fun first hfirst => ?_
  refine (keeps_matchToken _).bind fun dot _ => ?_
  refine keeps_ite (keeps_takeIdentifier.bind fun second hsecond => keeps_pure ?_) (keeps_pure ?_)
  · exact ⟨hsecond, by simpa using hfirst⟩
  · exact ⟨hfirst, by simp⟩

/-- A step whose value has a property if a token follows. -/
def KeepsBefore {α : Type} (P : α → Prop) (p : ParseM α) : Prop :=
  ∀ tokens a rest, ClosedTokens tokens → p tokens = .ok (a, rest) →
    (rest ≠ [] → P a) ∧ ClosedTokens rest

theorem Keeps.before {α : Type} {P : α → Prop} {p : ParseM α} (h : Keeps P p) :
    KeepsBefore P p := by
  intro tokens a rest htokens hrun
  obtain ⟨ha, hrest⟩ := h tokens a rest htokens hrun
  exact ⟨fun _ => ha, hrest⟩

theorem matchToken_nil (token : Str) : matchToken token [] = .ok (false, []) := rfl

theorem expect_nil (token : Str) (u : Unit) (rest : List Str) :
    expect token [] ≠ .ok (u, rest) := by
  intro h
  cases h

/-- The items of a list in parentheses: a token follows each. -/
theorem keeps_parseUntilParen {α : Type} {P : α → Prop} {body : ParseM α}
    (hbody : KeepsBefore P body) (fuel : Nat) :
    Keeps (fun as => ∀ a ∈ as, P a) (parseUntilParen body fuel) := by
  induction fuel with
  | zero => exact keeps_pure (by simp)
  | succ fuel ih =>
      intro tokens as rest htokens h
      obtain ⟨a, mid, ha, h⟩ := bind_eq_ok h
      obtain ⟨hPa, hmid⟩ := hbody tokens a mid htokens ha
      obtain ⟨paren, mid', hparen, h⟩ := bind_eq_ok h
      have hmid' := (keeps_matchToken _ mid paren mid' hmid hparen).2
      have hne : mid ≠ [] := by
        rintro rfl
        rw [matchToken_nil] at hparen
        cases hparen
        obtain ⟨u, mid'', hcomma, -⟩ := bind_eq_ok h
        exact expect_nil _ _ _ hcomma
      refine keeps_ite (P := fun as => ∀ a ∈ as, P a) (keeps_pure (by simpa using hPa hne)) ?_
        mid' as rest hmid' h
      refine (keeps_expect _).bind fun _ _ => ih.bind fun as has => keeps_pure ?_
      intro x hx
      rcases List.mem_cons.mp hx with rfl | hx
      · exact hPa hne
      · exact has x hx

theorem keeps_parseCommaLoop {α : Type} {P : α → Prop} {body : ParseM α} (hbody : Keeps P body)
    (fuel : Nat) : Keeps (fun as => ∀ a ∈ as, P a) (parseCommaLoop body fuel) := by
  induction fuel with
  | zero => exact keeps_pure (by simp)
  | succ fuel ih =>
      refine hbody.bind fun a ha => (keeps_matchToken _).bind fun comma _ => ?_
      refine keeps_ite (ih.bind fun as has => keeps_pure ?_) (keeps_pure (by simpa using ha))
      intro x hx
      rcases List.mem_cons.mp hx with rfl | hx
      · exact ha
      · exact has x hx

/-- A value read from a token that is not the last. -/
theorem parseLiteral_closed {token : Str} (htoken : ClosedToken token) :
    Yields ClosedValue (parseLiteral token) := by
  unfold parseLiteral
  refine yields_ite (yields_pure fun s h => by cases h) ?_
  split
  · rename_i s hs
    refine yields_pure fun s' h => ?_
    cases h
    exact htoken s hs
  · split
    · exact yields_fail _
    · exact yields_ite (yields_fail _) (yields_pure fun s h => by cases h)

theorem parseLiteral_rest (token : Str) {tokens rest : List Str} {v : Value}
    (h : parseLiteral token tokens = .ok (v, rest)) : rest = tokens := by
  unfold parseLiteral at h
  by_cases hnull : token = str "NULL" ∨ token = str "null"
  · rw [if_pos hnull] at h
    cases h
    rfl
  · rw [if_neg hnull] at h
    cases hs : unquote token with
    | some s =>
        rw [hs] at h
        cases h
        rfl
    | none =>
        rw [hs] at h
        cases hi : stoll token with
        | none =>
            rw [hi] at h
            cases h
        | some r =>
            rw [hi] at h
            dsimp only at h
            by_cases hused : r.2 ≠ token.length
            · rw [if_pos hused] at h
              cases h
            · rw [if_neg hused] at h
              cases h
              rfl

theorem closedToken_of_first {token : Str} {tokens : List Str}
    (h : ClosedTokens (token :: tokens)) (hne : tokens ≠ []) : ClosedToken token :=
  h token (by rw [List.dropLast_cons_of_ne_nil hne]; simp)

theorem keepsBefore_parseLiteralToken : KeepsBefore ClosedValue parseLiteralToken := by
  intro tokens v rest htokens h
  obtain ⟨minus, mid, hminus, h⟩ := bind_eq_ok h
  have hmid := (keeps_matchToken _ tokens minus mid htokens hminus).2
  cases minus with
  | true =>
      obtain ⟨next, mid', hnext, h⟩ := bind_eq_ok h
      have hmid' := (keeps_take mid next mid' hmid hnext).2
      rw [parseLiteral_rest _ h]
      have hhead : (byte '-' :: next).head? ≠ some (byte '"') :=
        fun hsome => absurd (Option.some.inj hsome) (by decide)
      exact ⟨fun _ => parseLiteral_closed (closedToken_of_head hhead) _ _ _ h, hmid'⟩
  | false =>
      obtain ⟨next, mid', hnext, h⟩ := bind_eq_ok h
      cases mid with
      | nil => cases hnext
      | cons t mid =>
          cases hnext
          rw [parseLiteral_rest _ h]
          exact ⟨fun hne => parseLiteral_closed (closedToken_of_first hmid hne) _ _ _ h,
            closedTokens_tail hmid⟩

/-- Literals with closed texts. -/
def LiteralsOk (row : List Expression) : Prop := ∀ e ∈ row, ∃ v, e = .literal v ∧ ClosedValue v

theorem keeps_parseInsertRow : Keeps LiteralsOk parseInsertRow := by
  refine (keeps_expect _).bind fun _ _ => keeps_get.bind fun tokens _ => ?_
  refine keeps_parseUntilParen ?_ _
  intro tokens e rest htokens h
  change (parseLiteralToken >>= fun v => pure (Expression.literal v)) tokens = _ at h
  obtain ⟨v, mid, hv, h⟩ := bind_eq_ok h
  cases h
  obtain ⟨hclosed, hrest⟩ := keepsBefore_parseLiteralToken tokens v _ htokens hv
  exact ⟨fun hne => ⟨v, rfl, hclosed hne⟩, hrest⟩

/-- **A well-formed INSERT.** -/
structure InsertOk (stmt : InsertStatement) : Prop where
  name : NameOk stmt.tableName
  columns : ∀ n ∈ stmt.columnNames, isIdentifier n = true
  rows : ∀ row ∈ stmt.rows, LiteralsOk row

theorem keeps_parseInsert :
    Keeps (fun statement => ∀ stmt, statement = .insert stmt → InsertOk stmt) parseInsert := by
  refine (keeps_expectKeyword _).bind fun _ _ => keeps_parseQualifiedName.bind fun name hname => ?_
  refine (keeps_expect _).bind fun _ _ => keeps_get.bind fun tokens _ => ?_
  refine (keeps_parseUntilParen keeps_takeIdentifier.before _).bind fun columns hcolumns => ?_
  refine (keeps_matchKeyword _).bind fun found _ => ?_
  extract_lets rows
  have hrows : ∀ u, Keeps (fun statement => ∀ stmt, statement = .insert stmt → InsertOk stmt)
      (rows u) := by
    intro u
    refine keeps_get.bind fun tokens _ =>
      (keeps_parseCommaLoop keeps_parseInsertRow _).bind fun rows hrows => keeps_pure ?_
    intro stmt heq
    cases heq
    exact ⟨hname, hcolumns, hrows⟩
  exact keeps_ite ((keeps_expectKeyword _).bind fun u _ => hrows u) (hrows ())

/-- **Every accepted INSERT is well formed.** -/
theorem parse_insert {sql : Str} {stmt : InsertStatement}
    (h : parse sql = .ok (.insert stmt)) : InsertOk stmt ∧ validateInsert stmt = .ok () := by
  obtain ⟨⟨rest, hrun⟩, hvalid⟩ := parse_eq_ok h
  obtain ⟨t, toks, htokens, hinsert⟩ := parseStatement_insert hrun
  have hclosed := closed_tokens sql
  rw [htokens] at hclosed
  exact ⟨(keeps_parseInsert toks _ rest (closedTokens_tail hclosed) hinsert).1 stmt rfl, hvalid⟩


/-! ## §3. An INSERT read back. -/

theorem bind_of_ok {α β : Type} {p : ParseM α} {tokens rest : List Str} {a : α}
    (h : p tokens = .ok (a, rest)) (f : α → ParseM β) : (p >>= f) tokens = f a rest := by
  show (p tokens >>= fun r => f r.1 r.2) = _
  rw [h]
  rfl

/-- A parsing step reads these tokens, whatever follows. -/
def Reads {α : Type} (p : ParseM α) (tokens : List Str) (a : α) : Prop :=
  ∀ rest, p (tokens ++ rest) = .ok (a, rest)

/-- A step reads these tokens in front of a comma or a closing parenthesis. -/
def ReadsItem {α : Type} (p : ParseM α) (tokens : List Str) (a : α) : Prop :=
  ∀ t rest, t = str "," ∨ t = str ")" → p (tokens ++ t :: rest) = .ok (a, t :: rest)

theorem Reads.item {α : Type} {p : ParseM α} {tokens : List Str} {a : α} (h : Reads p tokens a) :
    ReadsItem p tokens a := fun t rest _ => h (t :: rest)

theorem Reads.bind {α β : Type} {p : ParseM α} {f : α → ParseM β} {tokens tokens' : List Str}
    {a : α} {b : β} (hp : Reads p tokens a) (hf : Reads (f a) tokens' b) :
    Reads (p >>= f) (tokens ++ tokens') b := by
  intro rest
  rw [List.append_assoc, bind_of_ok (hp _)]
  exact hf rest

theorem Reads.map {α β : Type} {p : ParseM α} {tokens : List Str} {a : α} (hp : Reads p tokens a)
    (f : α → β) : Reads (p >>= fun a => pure (f a)) tokens (f a) := by
  intro rest
  rw [bind_of_ok (hp rest)]
  rfl

theorem matchToken_self (token : Str) (rest : List Str) :
    matchToken token (token :: rest) = .ok (true, rest) := by
  show (if token = token then _ else pure false : ParseM Bool) (token :: rest) = _
  rw [if_pos rfl]
  rfl

theorem matchToken_other {t token : Str} (h : t ≠ token) (rest : List Str) :
    matchToken token (t :: rest) = .ok (false, t :: rest) := by
  show (if t = token then _ else pure false : ParseM Bool) (t :: rest) = _
  rw [if_neg h]
  rfl

theorem matchKeyword_other {t kw : Str} (h : toUpper t ≠ kw) (rest : List Str) :
    matchKeyword kw (t :: rest) = .ok (false, t :: rest) := by
  show (if toUpper t ≠ kw then pure false else _ : ParseM Bool) (t :: rest) = _
  rw [if_pos h]
  rfl

/-- A keyword in upper case. -/
def IsKeyword (kw : Str) : Prop := toUpper kw = kw ∧ hasMixedLetterCase kw = false

theorem matchKeyword_keyword {kw : Str} (h : IsKeyword kw) (rest : List Str) :
    matchKeyword kw (kw :: rest) = .ok (true, rest) := by
  show (if toUpper kw ≠ kw then pure false else
    if hasMixedLetterCase kw then fail _ else (do set rest; return true) : ParseM Bool)
      (kw :: rest) = _
  rw [if_neg (not_not_intro h.1), h.2]
  rfl

theorem reads_expect (token : Str) : Reads (expect token) [token] () := by
  intro rest
  refine (bind_of_ok (matchToken_self token rest) _).trans ?_
  rfl

theorem reads_takeIdentifier {name : Str} (h : isIdentifier name = true) :
    Reads takeIdentifier [name] name := by
  intro rest
  show (if isIdentifier name = true then pure name else fail _ : ParseM Str) rest = _
  rw [if_pos h]
  rfl

theorem reads_parseQualifiedName {d t : Str} (hd : isIdentifier d = true)
    (ht : isIdentifier t = true) :
    Reads parseQualifiedName [d, str ".", t] ⟨some d, t⟩ := by
  have hdot : Reads (do
      if ← matchToken (str ".") then return ⟨some d, ← takeIdentifier⟩ else return ⟨none, d⟩ :
        ParseM QualifiedName) [str ".", t] ⟨some d, t⟩ := by
    intro rest
    refine (bind_of_ok (matchToken_self _ _) _).trans ?_
    exact (reads_takeIdentifier ht).map (fun second => (⟨some d, second⟩ : QualifiedName)) rest
  exact (reads_takeIdentifier hd).bind hdot

/-- The tokens of a list with commas. -/
def commaTokens : List (List Str) → List Str
  | [] => []
  | [item] => item
  | item :: items => item ++ str "," :: commaTokens items

section Lists

variable {α β : Type} {body : ParseM β} {tokens : α → List Str} {value : α → β}

/-- **A list in parentheses is read up to the parenthesis.** -/
theorem reads_parseUntilParen {items : List α} (hne : items ≠ [])
    (hbody : ∀ a ∈ items, ReadsItem body (tokens a) (value a)) {fuel : Nat}
    (hfuel : items.length ≤ fuel) :
    Reads (parseUntilParen body fuel) (commaTokens (items.map tokens) ++ [str ")"])
      (items.map value) := by
  induction items generalizing fuel with
  | nil => exact absurd rfl hne
  | cons a items ih =>
      cases fuel with
      | zero => simp at hfuel
      | succ fuel =>
          have ha := hbody a (by simp)
          cases items with
          | nil =>
              intro rest
              show parseUntilParen body (fuel + 1) (tokens a ++ [str ")"] ++ rest) = _
              rw [List.append_assoc, parseUntilParen]
              refine (bind_of_ok (ha _ _ (.inr rfl)) _).trans ?_
              exact bind_of_ok (matchToken_self _ _) _
          | cons a' items =>
              have hlength : (a' :: items).length ≤ fuel := by simpa using hfuel
              have hrest := ih (by simp) (fun b hb => hbody b (by simp [hb])) hlength
              intro rest
              show parseUntilParen body (fuel + 1) (tokens a ++
                str "," :: commaTokens ((a' :: items).map tokens) ++ [str ")"] ++ rest) = _
              rw [List.append_assoc, List.append_assoc, parseUntilParen, List.cons_append,
                bind_of_ok (ha _ _ (.inl rfl)), bind_of_ok (matchToken_other (by decide) _),
                if_neg (by decide), ← List.append_assoc]
              exact ((reads_expect (str ",")).bind (hrest.map fun as => value a :: as)) rest

/-- **A list with commas is read up to something else.** -/
theorem parseCommaLoop_reads {items : List α} (hne : items ≠ [])
    (hbody : ∀ a ∈ items, Reads body (tokens a) (value a)) {fuel : Nat}
    (hfuel : items.length ≤ fuel) {t : Str} (ht : t ≠ str ",") (rest : List Str) :
    parseCommaLoop body fuel (commaTokens (items.map tokens) ++ t :: rest)
      = .ok (items.map value, t :: rest) := by
  induction items generalizing fuel with
  | nil => exact absurd rfl hne
  | cons a items ih =>
      cases fuel with
      | zero => simp at hfuel
      | succ fuel =>
          have ha := hbody a (by simp)
          cases items with
          | nil =>
              show parseCommaLoop body (fuel + 1) (tokens a ++ t :: rest) = _
              rw [parseCommaLoop, bind_of_ok (ha _)]
              exact bind_of_ok (matchToken_other ht _) _
          | cons a' items =>
              have hlength : (a' :: items).length ≤ fuel := by simpa using hfuel
              have hrest := ih (by simp) (fun b hb => hbody b (by simp [hb])) hlength
              show parseCommaLoop body (fuel + 1) (tokens a ++
                str "," :: commaTokens ((a' :: items).map tokens) ++ t :: rest) = _
              rw [List.append_assoc, parseCommaLoop, bind_of_ok (ha _), List.cons_append,
                bind_of_ok (matchToken_self _ _), if_pos rfl, bind_of_ok hrest]
              rfl

end Lists

/-- The tokens of a value. -/
def literalTokens : Value → List Str
  | .null => [str "NULL"]
  | .int i =>
      if i.toInt < 0 then [str "-", natToString i.toInt.natAbs] else [natToString i.toInt.natAbs]
  | .string s => [byte '"' :: (escapeJsonText s ++ [byte '"'])]

/-- A value that has been written as a literal and read again: the parser
leaves the escapes in. -/
def reread : Value → Value
  | .string s => .string (escapeJsonText s)
  | v => v

/-- A word of digits, with a sign or not, is a number. -/
theorem parseLiteral_number {token : Str} {c : Byte} {tail : Str} (htoken : token = c :: tail)
    (hc : isDigit c = true ∨ c = byte '-') {i : Int64} (h : stoll token = some (i, token.length))
    (rest : List Str) : parseLiteral token rest = .ok (.int i, rest) := by
  have hfirst : ∀ c : Byte, isDigit c = true ∨ c = byte '-' →
      c ≠ byte 'N' ∧ c ≠ byte 'n' ∧ c ≠ byte '"' := by
    grind [isDigit, byte]
  obtain ⟨hN, hn, hquote⟩ := hfirst c hc
  have hnull : ¬ (token = str "NULL" ∨ token = str "null") := by
    rw [htoken]
    rintro (heq | heq)
    · exact hN (List.cons.inj heq).1
    · exact hn (List.cons.inj heq).1
  have hunquote : unquote token = none := by
    unfold unquote
    rw [htoken, if_neg fun hq => hquote (Option.some.inj hq.2.1)]
  unfold parseLiteral
  rw [if_neg hnull, hunquote, h]
  dsimp only
  rw [if_neg (not_not_intro rfl)]
  rfl

/-- The token of a text. -/
def quoted (s : Str) : Str := byte '"' :: (s ++ [byte '"'])

theorem unquote_quoted (s : Str) : unquote (quoted s) = some s := by
  have hlast : (quoted s).getLast? = some (byte '"') := by
    unfold quoted
    rw [← List.cons_append, List.getLast?_concat]
  have hlength : 2 ≤ (quoted s).length := by
    unfold quoted
    rw [List.length_cons, List.length_append, List.length_singleton]
    omega
  unfold unquote
  rw [if_pos ⟨hlength, rfl, hlast⟩, quoted, List.drop_one, List.tail_cons, List.dropLast_concat]

/-- A text in quotes is read as it stands. -/
theorem reads_quoted (s : Str) : Reads parseLiteralToken [quoted s] (.string s) := by
  intro rest
  have hminus : quoted s ≠ str "-" := by
    intro heq
    exact absurd (List.cons.inj heq).1 (by decide)
  refine (bind_of_ok (matchToken_other hminus _) _).trans ?_
  show parseLiteral (quoted s) rest = _
  unfold parseLiteral
  rw [if_neg (by rintro (heq | heq) <;> exact absurd (List.cons.inj heq).1 (by decide)),
    unquote_quoted]
  rfl

/-- A number is read with its sign. -/
theorem reads_number (i : Int64) :
    Reads parseLiteralToken (literalTokens (.int i)) (.int i) := by
  intro rest
  obtain ⟨hne, hdigits, -⟩ := natToString_digits i.toInt.natAbs
  obtain ⟨c, tail, htext⟩ := List.exists_cons_of_ne_nil hne
  have hc : isDigit c = true := hdigits c (by rw [htext]; simp)
  have hread := stoll_intToString i
  unfold intToString at hread
  show parseLiteralToken ((if i.toInt < 0 then [str "-", natToString i.toInt.natAbs]
    else [natToString i.toInt.natAbs]) ++ rest) = _
  by_cases hneg : i.toInt < 0
  · rw [if_pos hneg] at hread ⊢
    refine (bind_of_ok (matchToken_self _ _) _).trans ?_
    exact parseLiteral_number rfl (.inr rfl) hread rest
  · rw [if_neg hneg] at hread ⊢
    have hminus : natToString i.toInt.natAbs ≠ str "-" := by
      rw [htext]
      intro heq
      rw [(List.cons.inj heq).1] at hc
      exact absurd hc (by decide)
    refine (bind_of_ok (matchToken_other hminus _) _).trans ?_
    exact parseLiteral_number htext (.inl hc) hread rest

/-- **A written literal is read.** -/
theorem reads_parseLiteralToken (v : Value) :
    Reads parseLiteralToken (literalTokens v) (reread v) := by
  cases v with
  | null => exact fun rest => rfl
  | int i => exact reads_number i
  | string s => exact reads_quoted (escapeJsonText s)

/-- The tokens of a row. -/
def rowTokens (row : List Value) : List Str :=
  str "(" :: (commaTokens (row.map literalTokens) ++ [str ")"])

/-- A row that has been written and read again. -/
def rereadRow (row : List Value) : List Expression := row.map fun v => .literal (reread v)

theorem length_commaTokens {α : Type} {tokens : α → List Str} {items : List α}
    (h : ∀ a ∈ items, tokens a ≠ []) : items.length ≤ (commaTokens (items.map tokens)).length := by
  induction items with
  | nil => exact Nat.zero_le _
  | cons a items ih =>
      have ha : 1 ≤ (tokens a).length := List.length_pos_iff.mpr (h a (by simp))
      cases items with
      | nil => exact ha
      | cons a' items =>
          have hrest := ih fun b hb => h b (List.mem_cons_of_mem _ hb)
          show (a' :: items).length + 1
            ≤ (tokens a ++ str "," :: commaTokens ((a' :: items).map tokens)).length
          rw [List.length_append, List.length_cons (a := str ",")]
          omega

theorem literalTokens_ne_nil (v : Value) : literalTokens v ≠ [] := by
  unfold literalTokens
  split
  · simp
  · split
    · simp
    · simp
  · simp

theorem reads_parseInsertRow {row : List Value} (hne : row ≠ []) :
    Reads parseInsertRow (rowTokens row) (rereadRow row) := by
  intro rest
  have hbody : ∀ v ∈ row, Reads (Expression.literal <$> parseLiteralToken) (literalTokens v)
      (.literal (reread v)) := fun v _ => (reads_parseLiteralToken v).map _
  have hlength : row.length ≤ (commaTokens (row.map literalTokens)).length :=
    length_commaTokens fun v _ => literalTokens_ne_nil v
  have hfuel : row.length
      ≤ (commaTokens (row.map literalTokens) ++ [str ")"] ++ rest).length + 1 := by
    rw [List.length_append, List.length_append]
    omega
  refine (bind_of_ok (reads_expect (str "(") _) _).trans ?_
  exact reads_parseUntilParen hne (fun v hv => (hbody v hv).item) hfuel rest

/-- The tokens of an INSERT. -/
def insertTokens (d t : Str) (columns : List Str) (rows : List (List Value)) : List Str :=
  [str "INSERT", str "INTO", d, str ".", t, str "("]
    ++ (commaTokens (columns.map fun n => [n]) ++ [str ")"])
    ++ str "VALUES" :: (commaTokens (rows.map rowTokens) ++ [str ";"])

theorem firstRepeated_eq_none {seen names : List Str} :
    firstRepeated seen names = none ↔ names.Nodup ∧ ∀ n ∈ names, n ∉ seen := by
  induction names generalizing seen with
  | nil => simp [firstRepeated]
  | cons n names ih =>
      rw [firstRepeated]
      by_cases h : n ∈ seen
      · simp [h]
      · rw [if_neg h, ih, List.nodup_cons]
        constructor
        · rintro ⟨hnodup, hnames⟩
          refine ⟨⟨fun hn => hnames n hn (by simp), hnodup⟩, fun m hm => ?_⟩
          rcases List.mem_cons.mp hm with rfl | hm
          · exact h
          · exact fun hs => hnames m hm (by simp [hs])
        · rintro ⟨⟨hn, hnodup⟩, hnames⟩
          refine ⟨hnodup, fun m hm hs => ?_⟩
          rcases List.mem_cons.mp hs with rfl | hs
          · exact hn hm
          · exact hnames m (by simp [hm]) hs

/-- What an INSERT of a list of rows must be for `ValidateInsert`. -/
theorem validateInsert_eq_ok {stmt : InsertStatement} :
    validateInsert stmt = .ok () ↔ stmt.columnNames ≠ [] ∧ stmt.rows ≠ [] ∧
      stmt.columnNames.Nodup ∧ ∀ row ∈ stmt.rows, row.length = stmt.columnNames.length := by
  unfold validateInsert
  by_cases hcolumns : stmt.columnNames = []
  · rw [if_pos hcolumns]
    exact ⟨fun h => (by cases h), fun h => absurd hcolumns h.1⟩
  rw [if_neg hcolumns]
  by_cases hrows : stmt.rows = []
  · rw [if_pos hrows]
    exact ⟨fun h => (by cases h), fun h => absurd hrows h.2.1⟩
  rw [if_neg hrows]
  have hnodup : firstRepeated [] stmt.columnNames = none ↔ stmt.columnNames.Nodup := by
    simp [firstRepeated_eq_none]
  cases hrepeated : firstRepeated [] stmt.columnNames with
  | some n =>
      refine ⟨fun h => (by cases h), fun h => ?_⟩
      rw [hnodup.mpr h.2.2.1] at hrepeated
      cases hrepeated
  | none =>
      dsimp only
      by_cases hlengths : stmt.rows.all
          (fun row => decide (row.length = stmt.columnNames.length)) = true
      · rw [if_pos hlengths]
        refine ⟨fun _ => ⟨hcolumns, hrows, hnodup.mp hrepeated, ?_⟩, fun _ => rfl⟩
        simpa using hlengths
      · rw [if_neg hlengths]
        refine ⟨fun h => (by cases h), fun h => absurd ?_ hlengths⟩
        simpa using h.2.2.2

/-- What stands behind the word INSERT. -/
theorem parseInsert_reads {d t : Str} {columns : List Str} {rows : List (List Value)}
    (hd : isIdentifier d = true) (ht : isIdentifier t = true)
    (hnames : ∀ n ∈ columns, isIdentifier n = true) (hcolumns : columns ≠ []) (hrows : rows ≠ [])
    (hne : ∀ row ∈ rows, row ≠ []) :
    parseInsert ((insertTokens d t columns rows).tail)
      = .ok (.insert ⟨⟨some d, t⟩, columns, rows.map rereadRow⟩, [str ";"]) := by
  have hcolumnsLength : columns.length ≤ (commaTokens (columns.map fun n => [n])).length :=
    length_commaTokens fun _ _ => by simp
  have hrowsLength : rows.length ≤ (commaTokens (rows.map rowTokens)).length :=
    length_commaTokens fun _ _ => by simp [rowTokens]
  generalize htail : commaTokens (rows.map rowTokens) ++ [str ";"] = tail
  have htokens : (insertTokens d t columns rows).tail = str "INTO" :: ([d, str ".", t] ++
      ([str "("] ++ ((commaTokens (columns.map fun n => [n]) ++ [str ")"])
        ++ str "VALUES" :: tail))) := by
    rw [← htail]
    simp [insertTokens]
  have hfuel : columns.length ≤ ((commaTokens (columns.map fun n => [n]) ++ [str ")"])
      ++ str "VALUES" :: tail).length + 1 := by
    rw [List.length_append, List.length_append]
    omega
  have hlist := reads_parseUntilParen hcolumns
    (fun n hn => (reads_takeIdentifier (hnames n hn)).item) hfuel (str "VALUES" :: tail)
  rw [List.map_id'] at hlist
  have hrest : parseCommaLoop parseInsertRow (tail.length + 1) tail
      = .ok (rows.map rereadRow, [str ";"]) := by
    rw [← htail]
    refine parseCommaLoop_reads hrows (fun row hrow => reads_parseInsertRow (hne row hrow)) ?_
      (by decide) []
    rw [List.length_append]
    omega
  rw [htokens]
  refine (bind_of_ok rfl _).trans ?_
  refine (bind_of_ok (reads_parseQualifiedName hd ht _) _).trans ?_
  refine (bind_of_ok (reads_expect (str "(") _) _).trans ?_
  refine (bind_of_ok rfl _).trans ?_
  refine (bind_of_ok hlist _).trans ?_
  refine (bind_of_ok rfl _).trans ?_
  show (parseCommaLoop parseInsertRow (tail.length + 1) >>= fun rows =>
    pure (Statement.insert ⟨⟨some d, t⟩, columns, rows⟩)) tail = _
  rw [bind_of_ok hrest]
  rfl

/-- **The tokens of an INSERT are read back.** -/
theorem parseTokens_insert {d t : Str} {columns : List Str} {rows : List (List Value)}
    (hd : isIdentifier d = true) (ht : isIdentifier t = true)
    (hnames : ∀ n ∈ columns, isIdentifier n = true) (hcolumns : columns ≠ [])
    (hnodup : columns.Nodup) (hrows : rows ≠ [])
    (hlengths : ∀ row ∈ rows, row.length = columns.length) :
    parseTokens (insertTokens d t columns rows)
      = .ok (.insert ⟨⟨some d, t⟩, columns, rows.map rereadRow⟩) := by
  have hstatement : parseStatement (insertTokens d t columns rows)
      = .ok (some (.insert ⟨⟨some d, t⟩, columns, rows.map rereadRow⟩), [str ";"]) := by
    have hne : ∀ row ∈ rows, row ≠ [] := by
      rintro row hrow rfl
      exact hcolumns (List.length_eq_zero_iff.mp (hlengths [] hrow).symm)
    have hread := parseInsert_reads hd ht hnames hcolumns hrows hne
    show (parseInsert >>= fun statement => pure (some statement))
      (insertTokens d t columns rows).tail = _
    rw [bind_of_ok hread]
    rfl
  unfold parseTokens
  rw [if_neg (by simp [insertTokens]), hstatement]
  dsimp only
  have hvalid : validateInsert ⟨⟨some d, t⟩, columns, rows.map rereadRow⟩ = .ok () := by
    refine validateInsert_eq_ok.mpr ⟨hcolumns, by simpa using hrows, hnodup, ?_⟩
    intro row hrow
    obtain ⟨values, hvalues, rfl⟩ := List.mem_map.mp hrow
    rw [rereadRow, List.length_map]
    exact hlengths values hvalues
  have hfinish : finishParse (.insert ⟨⟨some d, t⟩, columns, rows.map rereadRow⟩) [str ";"]
      = .ok (.insert ⟨⟨some d, t⟩, columns, rows.map rereadRow⟩) := by
    show (do validateInsert ⟨⟨some d, t⟩, columns, rows.map rereadRow⟩; return _) = _
    rw [hvalid]
    rfl
  rw [hfinish]

end CustomDbms.Parser
