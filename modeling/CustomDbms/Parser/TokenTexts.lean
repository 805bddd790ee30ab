/-
  CustomDbms.Parser.TokenTexts
  ────────────────────────────
  **TEXTS AND THEIR TOKENS.**

  `Tokenize` equation by equation, without its fuel; and what the contents of
  a string literal can be: a quote ends it unless a backslash stands before,
  so only a literal that the text breaks off in can end in a backslash, and
  that is the last token.

    • `tokenize_literal` — a text in quotes, escaped, is one token;
    • `closed_tokens` — every token but the last is closed.
-/
import CustomDbms.Common.ErrorContract
import CustomDbms.Parser.Parser

namespace CustomDbms.Parser

open CustomDbms.Common

/-! ## §1. Fuel. -/

theorem takeLiteral_length (prev : Byte) (s : Str) : (takeLiteral prev s).2.length ≤ s.length := by
  induction s generalizing prev with
  | nil => exact le_refl _
  | cons c s ih =>
      rw [takeLiteral]
      split
      · exact Nat.le_succ _
      · exact (ih c).trans (Nat.le_succ _)

theorem dropWhile_length (p : Byte → Bool) (s : Str) : (s.dropWhile p).length ≤ s.length :=
  (List.dropWhile_suffix p).length_le

/-- **Fuel beyond the length of the text changes nothing.** -/
theorem tokenizeLoop_fuel {fuel fuel' : Nat} {s : Str} (h : s.length ≤ fuel)
    (h' : s.length ≤ fuel') : tokenizeLoop fuel s = tokenizeLoop fuel' s := by
  induction fuel generalizing fuel' s with
  | zero =>
      obtain rfl : s = [] := List.length_eq_zero_iff.mp (Nat.le_zero.mp h)
      cases fuel' with
      | zero => rfl
      | succ fuel' => rfl
  | succ fuel ih =>
      cases s with
      | nil =>
          cases fuel' with
          | zero => rfl
          | succ fuel' => rfl
      | cons c s =>
          cases fuel' with
          | zero => simp at h'
          | succ fuel' =>
              have hs : s.length ≤ fuel := by simpa using h
              have hs' : s.length ≤ fuel' := by simpa using h'
              have hdrop : (s.drop 1).length ≤ s.length := by simp
              have hliteral := takeLiteral_length c s
              have hword := dropWhile_length isWordByte s
              rw [tokenizeLoop, tokenizeLoop, ih hs hs', ih (hdrop.trans hs) (hdrop.trans hs'),
                ih (hword.trans hs) (hword.trans hs')]
              dsimp only
              rw [ih (hliteral.trans hs) (hliteral.trans hs')]

theorem tokenizeLoop_eq {fuel : Nat} {s : Str} (h : s.length ≤ fuel) :
    tokenizeLoop fuel s = tokenize s := tokenizeLoop_fuel h (le_refl _)

/-! ## §2. Equations. -/

/-- No operator of two bytes starts with the byte. -/
def startsNoOperator (c : Byte) : Bool :=
  decide (c ≠ byte '=' ∧ c ≠ byte '!' ∧ c ≠ byte '<' ∧ c ≠ byte '>')

theorem noOperator {c : Byte} (h : startsNoOperator c = true) (rest : Str) :
    (rest.head?.map (isTwoByteOperator c)).getD false = false := by
  obtain ⟨h1, h2, h3, h4⟩ := of_decide_eq_true h
  cases rest with
  | nil => rfl
  | cons d rest => simp [isTwoByteOperator, h1, h2, h3, h4]

theorem tokenize_space {c : Byte} (h : isSpace c = true) (rest : Str) :
    tokenize (c :: rest) = tokenize rest := by
  show tokenizeLoop (rest.length + 1) (c :: rest) = _
  rw [tokenizeLoop, if_pos h]
  rfl

/-- A byte that is a token of its own. -/
def isMark (c : Byte) : Bool :=
  !isSpace c && startsNoOperator c && decide (c ≠ byte '"') && !isWordByte c

theorem tokenize_mark {c : Byte} (h : isMark c = true) (rest : Str) :
    tokenize (c :: rest) = [c] :: tokenize rest := by
  simp only [isMark, Bool.and_eq_true, Bool.not_eq_true', decide_eq_true_eq] at h
  obtain ⟨⟨⟨hspace, hoperator⟩, hquote⟩, hword⟩ := h
  show tokenizeLoop (rest.length + 1) (c :: rest) = _
  rw [tokenizeLoop, hspace, if_neg (by decide), noOperator hoperator, if_neg (by decide),
    if_neg hquote, hword, if_neg (by decide)]
  rfl

theorem takeWhile_append_word {w rest : Str} (hw : ∀ c ∈ w, isWordByte c = true)
    (hrest : ∀ c ∈ rest.head?, isWordByte c = false) :
    (w ++ rest).takeWhile isWordByte = w ∧ (w ++ rest).dropWhile isWordByte = rest := by
  induction w with
  | nil =>
      cases rest with
      | nil => exact ⟨rfl, rfl⟩
      | cons c rest =>
          have hc := hrest c rfl
          simp [hc]
  | cons c w ih =>
      have hc := hw c (by simp)
      obtain ⟨htake, hdrop⟩ := ih fun d hd => hw d (by simp [hd])
      rw [List.cons_append, List.takeWhile_cons, List.dropWhile_cons, if_pos hc, if_pos hc, htake,
        hdrop]
      exact ⟨rfl, rfl⟩

/-- **A word is one token.** -/
theorem tokenize_word {w rest : Str} (hne : w ≠ []) (hw : ∀ c ∈ w, isWordByte c = true)
    (hrest : ∀ c ∈ rest.head?, isWordByte c = false) :
    tokenize (w ++ rest) = w :: tokenize rest := by
  have hbyte : ∀ c : Byte, isWordByte c = true → isSpace c = false ∧ startsNoOperator c = true ∧
      c ≠ byte '"' := by
    grind [isWordByte, isAlnum, isAlpha, isUpper, isLower, isDigit, isSpace, startsNoOperator, byte]
  cases w with
  | nil => exact absurd rfl hne
  | cons c w =>
      obtain ⟨hspace, hoperator, hquote⟩ := hbyte c (hw c (by simp))
      have htail : ∀ d ∈ w, isWordByte d = true := fun d hd => hw d (by simp [hd])
      obtain ⟨htake, hdrop⟩ := takeWhile_append_word htail hrest
      show tokenizeLoop ((w ++ rest).length + 1) (c :: (w ++ rest)) = _
      rw [tokenizeLoop, hspace, if_neg (by decide), noOperator hoperator, if_neg (by decide),
        if_neg hquote, if_pos (hw c (by simp)), htake, hdrop,
        tokenizeLoop_eq (by rw [List.length_append]; exact Nat.le_add_left _ _)]

/-! ## §3. String literals. -/

/-- The contents of a literal that a quote behind it ends. -/
def Closed (s : Str) : Prop := s.getLast? ≠ some (byte '\\')

/-- An escaped text is read up to the quote behind it. -/
theorem takeLiteral_escape {s : Str} (hs : Closed s) (prev : Byte)
    (hprev : s = [] → prev ≠ byte '\\') (rest : Str) :
    takeLiteral prev (escapeJsonText s ++ byte '"' :: rest)
      = (escapeJsonText s ++ [byte '"'], rest) := by
  induction s generalizing prev with
  | nil =>
      show takeLiteral prev (byte '"' :: rest) = _
      rw [takeLiteral, if_pos ⟨rfl, hprev rfl⟩]
      rfl
  | cons c s ih =>
      have hrest : Closed s := by
        intro h
        refine hs ?_
        cases s with
        | nil => cases h
        | cons d s => rw [List.getLast?_cons_cons]; exact h
      have hlast : s = [] → c ≠ byte '\\' := by
        rintro rfl rfl
        exact hs rfl
      have hnext := ih hrest c hlast
      rw [escapeJsonText]
      split
      · rename_i hspecial
        -- the backslash in front, and the byte behind it
        have hbackslash : ¬ (byte '\\' = byte '"' ∧ prev ≠ byte '\\') :=
          fun h => absurd h.1 (by decide)
        rw [List.cons_append, List.cons_append, takeLiteral, if_neg hbackslash, takeLiteral,
          if_neg (fun h => h.2 rfl), hnext]
        rfl
      · rename_i hplain
        rw [not_or] at hplain
        rw [List.cons_append, takeLiteral, if_neg (fun h => hplain.1 h.1), hnext]
        rfl

/-- **An escaped text in quotes is one token.** -/
theorem tokenize_literal {s : Str} (hs : Closed s) (rest : Str) :
    tokenize (byte '"' :: (escapeJsonText s ++ byte '"' :: rest))
      = (byte '"' :: (escapeJsonText s ++ [byte '"'])) :: tokenize rest := by
  show tokenizeLoop ((escapeJsonText s ++ byte '"' :: rest).length + 1) (byte '"' :: _) = _
  rw [tokenizeLoop, if_neg (by decide), noOperator (by decide), if_neg (by decide), if_pos rfl,
    takeLiteral_escape hs _ (fun _ => by decide)]
  dsimp only
  rw [tokenizeLoop_eq (by rw [List.length_append, List.length_cons]; omega)]

/-- A literal is ended by a quote behind another byte than a backslash, or by
the end of the text. -/
theorem takeLiteral_cases (prev : Byte) (s : Str) :
    (∃ body, (takeLiteral prev s).1 = body ++ [byte '"'] ∧ Closed (prev :: body)) ∨
      (takeLiteral prev s).2 = [] := by
  induction s generalizing prev with
  | nil => exact .inr rfl
  | cons c s ih =>
      rw [takeLiteral]
      split
      · rename_i hend
        refine .inl ⟨[], ?_, ?_⟩
        · rw [hend.1]
          rfl
        · intro h
          exact hend.2 (Option.some.inj h)
      · rcases ih c with ⟨body, hbody, hclosed⟩ | hnil
        · refine .inl ⟨c :: body, ?_, ?_⟩
          · dsimp only
            rw [hbody]
            rfl
          · intro h
            rw [List.getLast?_cons_cons] at h
            exact hclosed h
        · exact .inr hnil

/-- The contents of the token, where it has contents, are closed. -/
def ClosedToken (token : Str) : Prop := ∀ s, unquote token = some s → Closed s

/-- Every token but the last is closed. -/
def ClosedTokens (tokens : List Str) : Prop := ∀ token ∈ tokens.dropLast, ClosedToken token

theorem closedToken_of_head {token : Str} (h : token.head? ≠ some (byte '"')) :
    ClosedToken token := by
  intro s hs
  unfold unquote at hs
  rw [if_neg (fun hq => h hq.2.1)] at hs
  cases hs

theorem closedToken_literal {body : Str} (h : Closed (byte '"' :: body)) :
    ClosedToken (byte '"' :: (body ++ [byte '"'])) := by
  intro s hs
  unfold unquote at hs
  split at hs
  · rw [List.drop_one, List.tail_cons, List.dropLast_concat] at hs
    cases hs
    intro hlast
    refine h ?_
    cases body with
    | nil => cases hlast
    | cons c body => rw [List.getLast?_cons_cons]; exact hlast
  · cases hs

theorem closedTokens_cons {token : Str} {tokens : List Str} (htoken : ClosedToken token)
    (h : ClosedTokens tokens) : ClosedTokens (token :: tokens) := by
  intro t ht
  cases tokens with
  | nil => cases ht
  | cons t' tokens =>
      rw [List.dropLast_cons_of_ne_nil (by simp)] at ht
      rcases List.mem_cons.mp ht with rfl | ht
      · exact htoken
      · exact h t ht

/-- **Only the last token can break off inside a literal.** -/
theorem closed_tokens (sql : Str) : ClosedTokens (tokenize sql) := by
  have hloop : ∀ fuel s, ClosedTokens (tokenizeLoop fuel s) := by
    intro fuel
    induction fuel with
    | zero => exact fun s t ht => by cases ht
    | succ fuel ih =>
        intro s
        cases s with
        | nil => exact fun t ht => by cases ht
        | cons c s =>
            rw [tokenizeLoop]
            split
            · exact ih s
            · split
              · rename_i hspace hoperator
                refine closedTokens_cons (closedToken_of_head ?_) (ih _)
                rintro h
                have hc : c = byte '"' := Option.some.inj h
                rw [hc, noOperator (by decide)] at hoperator
                cases hoperator
              · split
                · rename_i hquote
                  dsimp only
                  rcases takeLiteral_cases c s with ⟨body, hbody, hclosed⟩ | hnil
                  · rw [hbody, hquote]
                    rw [hquote] at hclosed
                    exact closedTokens_cons (closedToken_literal hclosed) (ih _)
                  · rw [hnil]
                    cases fuel with
                    | zero => exact fun t ht => by cases ht
                    | succ fuel => exact fun t ht => by cases ht
                · rename_i hquote
                  have hhead : ∀ rest : Str, (c :: rest).head? ≠ some (byte '"') :=
                    fun rest h => hquote (Option.some.inj h)
                  split
                  · exact closedTokens_cons (closedToken_of_head (hhead _)) (ih _)
                  · exact closedTokens_cons (closedToken_of_head (hhead _)) (ih _)
  exact hloop _ sql

end CustomDbms.Parser
