/-
  CustomDbms.Server.SqlRequests
  ─────────────────────────────
  **REQUESTS THAT ARE STATEMENTS.**

  A payload the parser accepts starts with a word of SQL, so it is none of the
  commands the server looks for first.  A storage node executes a statement on
  its own engine; a coordinator hands it to its nodes.
-/
import CustomDbms.Core.TableStatements
import CustomDbms.Parser.InsertText
import CustomDbms.Server.AtomicCommit

namespace CustomDbms.Server

open CustomDbms.Common CustomDbms.Lib CustomDbms.Parser CustomDbms.Catalog CustomDbms.Network
open CustomDbms.Execution CustomDbms.Core CustomDbms.Runtime

/-! ## §1. A statement is no command. -/

/-- A word under way ends at the next white space. -/
theorem splitWhitespaceFrom_word (current s : Str) (hne : current ≠ []) :
    ∃ rest, splitWhitespaceFrom current s
      = (current ++ s.takeWhile fun c => !isSpace c) :: rest := by
  induction s generalizing current with
  | nil =>
      refine ⟨[], ?_⟩
      rw [splitWhitespaceFrom, if_neg hne, List.takeWhile_nil, List.append_nil]
  | cons c s ih =>
      rw [splitWhitespaceFrom]
      by_cases hc : isSpace c = true
      · refine ⟨splitWhitespaceFrom [] s, ?_⟩
        rw [if_pos hc, if_neg hne, List.takeWhile_cons, hc]
        simp
      · obtain ⟨rest, hrest⟩ := ih (current ++ [c]) (by simp)
        refine ⟨rest, ?_⟩
        rw [if_neg hc, hrest, List.takeWhile_cons]
        simp [hc]

theorem takeWhile_isWordByte {s : Str}
    (h : ∀ c ∈ s.takeWhile (fun c => !isSpace c), isAlpha c = true) :
    s.takeWhile isWordByte = s.takeWhile fun c => !isSpace c := by
  have hspace : ∀ c : Byte, isSpace c = true → isWordByte c = false := by
    grind [isSpace, isWordByte, isAlnum, isAlpha, isUpper, isLower, isDigit, byte]
  induction s with
  | nil => rfl
  | cons c s ih =>
      rw [List.takeWhile_cons, List.takeWhile_cons]
      by_cases hc : isSpace c = true
      · simp [hc, hspace c hc]
      · rw [List.takeWhile_cons] at h
        simp only [hc, Bool.not_false, if_true, List.mem_cons, forall_eq_or_imp] at h
        have hword : isWordByte c = true := by simp [isWordByte, isAlnum, h.1]
        simp [hc, hword, ih h.2]

/-- **The first word of a payload, where it has letters only, is its first
token.** -/
theorem tokenizeLoop_word {fuel : Nat} {s word : Str} {words : List Str} (hfuel : s.length ≤ fuel)
    (hsplit : splitWhitespaceFrom [] s = word :: words) (hword : ∀ c ∈ word, isAlpha c = true) :
    ∃ tokens, tokenizeLoop fuel s = word :: tokens := by
  have hletter : ∀ c : Byte, isAlpha c = true → isWordByte c = true ∧ c ≠ byte '"' ∧
      ∀ d, isTwoByteOperator c d = false := by
    intro c hc
    have hall : ∀ c : Byte, isAlpha c = true → c ≠ byte '"' ∧ c ≠ byte '=' ∧ c ≠ byte '!' ∧
        c ≠ byte '<' ∧ c ≠ byte '>' := by
      grind [isAlpha, isUpper, isLower, byte]
    obtain ⟨h1, h2, h3, h4, h5⟩ := hall c hc
    exact ⟨by simp [isWordByte, isAlnum, hc], h1, fun d => by
      simp [isTwoByteOperator, h2, h3, h4, h5]⟩
  induction s generalizing fuel with
  | nil => cases hsplit
  | cons c s ih =>
      cases fuel with
      | zero => simp at hfuel
      | succ fuel =>
          rw [splitWhitespaceFrom] at hsplit
          rw [tokenizeLoop]
          by_cases hc : isSpace c = true
          · rw [if_pos hc, if_pos rfl] at hsplit
            rw [if_pos hc]
            exact ih (by simpa using hfuel) hsplit
          · rw [if_neg hc] at hsplit ⊢
            obtain ⟨rest, hrest⟩ := splitWhitespaceFrom_word ([] ++ [c]) s (by simp)
            rw [hrest] at hsplit
            obtain ⟨rfl, -⟩ := List.cons.inj hsplit
            obtain ⟨hwordByte, hquote, hoperator⟩ := hletter c (hword c (by simp))
            have hno : (s.head?.map (isTwoByteOperator c)).getD false = false := by
              cases s with
              | nil => rfl
              | cons d s => exact hoperator d
            rw [hno, if_neg (by decide), if_neg hquote, if_pos hwordByte,
              takeWhile_isWordByte fun d hd => hword d (by simp [hd])]
            exact ⟨_, rfl⟩

/-- The words with which a statement can start. -/
def sqlWords : List Str :=
  [str "CREATE", str "DROP", str "USE", str "INSERT", str "UPDATE", str "DELETE", str "SELECT",
    str "REVERT", str "BEGIN", str "COMMIT", str "ROLLBACK", str "CHECK", str "REBUILD"]

/-- A statement starts with a word of SQL. -/
theorem parseTokens_other {t : Str} (h : toUpper t ∉ sqlWords) (rest : List Str)
    (statement : Statement) : parseTokens (t :: rest) ≠ .ok statement := by
  have hskip : ∀ kw ∈ sqlWords, ∀ {α : Type} (p : Bool → ParseM α),
      (Cursor.matchKeyword kw >>= p) (t :: rest) = p false (t :: rest) := by
    intro kw hkw α p
    have hne : toUpper t ≠ kw := by
      rintro rfl
      exact h hkw
    show (Cursor.matchKeyword kw (t :: rest) >>= fun r => p r.1 r.2) = _
    rw [matchKeyword_other hne]
    rfl
  have hnone : parseStatement (t :: rest) = .ok (none, t :: rest) := by
    unfold parseStatement
    iterate 13
      rw [hskip _ (by decide)]
      rw [if_neg (by decide)]
    rfl
  unfold parseTokens
  rw [if_neg (by simp), hnone]
  intro heq
  cases heq

/-- What is a capital letter in upper case was a letter. -/
theorem isAlpha_of_toUpperByte {c : Byte} (h : isUpper (toUpperByte c) = true) :
    isAlpha c = true := by
  unfold toUpperByte at h
  split at h
  · rename_i hlower
    simp [isAlpha, hlower]
  · simp [isAlpha, h]

/-- **A payload that is a statement is no command of a family.** -/
theorem commandOf_of_parse {payload family : Str} {statement : Statement}
    (hparse : parse payload = .ok statement) (hfamily : family ∉ sqlWords)
    (hletters : family.all isUpper = true) :
    commandOf family payload = none := by
  unfold commandOf
  split
  · rename_i word command args hwords
    split
    · rename_i hupper
      have hword : ∀ c ∈ word, isAlpha c = true := by
        intro c hc
        refine isAlpha_of_toUpperByte (List.all_eq_true.mp hletters _ ?_)
        rw [← hupper]
        exact List.mem_map_of_mem hc
      obtain ⟨tokens, htokens⟩ := tokenizeLoop_word (le_refl payload.length) hwords hword
      rw [parse, tokenize, htokens] at hparse
      exact absurd hparse (parseTokens_other (by rw [hupper]; exact hfamily) tokens statement)
    · rfl
  · rfl

section Requests

variable {ν : Type} (w : World ν) (ctx : RequestContext) (s : System ν)
  {request : RequestEnvelope} {statement : Statement}

/-- **A statement gets to `HandleRequest`'s last part.** -/
theorem handleRequest_of_parse (hparse : parse request.payload = .ok statement) :
    handleRequest w ctx s request = handleSql w ctx s request := by
  have hcluster : commandOf (str "CLUSTER") request.payload = none :=
    commandOf_of_parse hparse (by decide) (by decide)
  have hasync : commandOf (str "ASYNC") request.payload = none :=
    commandOf_of_parse hparse (by decide) (by decide)
  have htelemetry : commandOf (str "TELEMETRY") request.payload = none :=
    commandOf_of_parse hparse (by decide) (by decide)
  have hauth : commandOf (str "AUTH") request.payload = none :=
    commandOf_of_parse hparse (by decide) (by decide)
  have hprepare : stripStart (str "CLUSTER PREPARE_TX ") request.payload = none := by
    rw [← Option.not_isSome_iff_eq_none, Option.isSome_iff_exists]
    rintro ⟨rest, hrest⟩
    rw [stripStart_eq_some.mp hrest] at hcluster
    cases hcluster
  have hcommit : stripStart (str "CLUSTER COMMIT_TX ") request.payload = none := by
    rw [← Option.not_isSome_iff_eq_none, Option.isSome_iff_exists]
    rintro ⟨rest, hrest⟩
    rw [stripStart_eq_some.mp hrest] at hcluster
    cases hcluster
  have habort : stripStart (str "CLUSTER ABORT_TX ") request.payload = none := by
    rw [← Option.not_isSome_iff_eq_none, Option.isSome_iff_exists]
    rintro ⟨rest, hrest⟩
    rw [stripStart_eq_some.mp hrest] at hcluster
    cases hcluster
  unfold handleRequest parseClusterCommand parseAsyncCommand parseTelemetryCommand parseAuthCommand
  rw [hprepare, hcommit, habort, hcluster, hasync, htelemetry, hauth]
  rfl

/-- A statement that is authorized is executed. -/
theorem handleRequest_authorized (hparse : parse request.payload = .ok statement)
    (hauth : authorizeRequest w ctx (s.server.withSession request.clientId) request statement
      = none) :
    handleRequest w ctx s request
      = executeStatement w ctx (s.entered request) request statement := by
  rw [handleRequest_of_parse w ctx s hparse]
  unfold handleSql
  rw [hparse]
  dsimp only
  rw [hauth]
  rfl

end Requests

/-! ## §2. A storage node. -/

section Node

variable (c : Conditions) (moment : Moment) {server : EntrypointServer}
  {request : RequestEnvelope} {statement : Statement}

/-- A storage node executes a statement for the session of the client. -/
theorem handleAt_local (hparse : parse request.payload = .ok statement)
    (hleaf : server.storageNodes = [])
    (hauth : authorizeRequest (nodeWorld c moment.drawn) moment.context
      (server.withSession request.clientId) request statement = none) :
    handleAt c moment server request
      = (((server.withSession request.clientId).executeAs moment.context.env moment.context.files
          request.clientId (server.session request.clientId) request.payload).1,
        answerResult (nodeRun moment server request.clientId request.payload).2.2
          request.payload (renderResult statement)) := by
  have hlocal : ((⟨server, ()⟩ : System Unit).entered request).server.storageNodes = [] := hleaf
  unfold handleAt nodeRun
  rw [handleRequest_authorized _ _ ⟨server, ()⟩ hparse hauth, executeStatement,
    if_neg (by rw [hlocal]; exact fun h => h rfl)]
  unfold EntrypointServer.executeAs System.entered
  dsimp only
  rw [session_withSession]
  rfl

/-- **A storage node runs a statement on its engine.** -/
theorem handleAt_statement (hparse : parse request.payload = .ok statement)
    (hleaf : server.storageNodes = [])
    (hauth : authorizeRequest (nodeWorld c moment.drawn) moment.context
      (server.withSession request.clientId) request statement = none) :
    (handleAt c moment server request).1.engine
        = (nodeRun moment server request.clientId request.payload).1 ∧
      (handleAt c moment server request).2
        = answerResult (nodeRun moment server request.clientId request.payload).2.2
            request.payload (renderResult statement) := by
  rw [handleAt_local c moment hparse hleaf hauth]
  exact ⟨rfl, rfl⟩

/-- Whatever it answers, it has run the statement or left its engine. -/
theorem handleAt_engine (hparse : parse request.payload = .ok statement)
    (hleaf : server.storageNodes = []) :
    (handleAt c moment server request).1.engine = server.engine ∨
      (handleAt c moment server request).1.engine
        = (nodeRun moment server request.clientId request.payload).1 := by
  cases hauth : authorizeRequest (nodeWorld c moment.drawn) moment.context
      (server.withSession request.clientId) request statement with
  | none => exact .inr (handleAt_statement c moment hparse hleaf hauth).1
  | some response =>
      refine .inl ?_
      unfold handleAt
      rw [handleRequest_of_parse _ _ ⟨server, ()⟩ hparse]
      unfold handleSql
      rw [hparse]
      dsimp only
      rw [hauth]
      rfl

end Node

end CustomDbms.Server
