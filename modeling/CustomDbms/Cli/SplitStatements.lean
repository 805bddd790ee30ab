/-
  CustomDbms.Cli.SplitStatements
  ──────────────────────────────
  **THE SCRIPT SPLITTER AND THE LEXER** (`src/apps/cli/main.cpp`:
  `SplitStatements`; `src/parser/lexer.cpp`).

  Both look for semicolons outside of string literals, and both let a backslash
  hide a quote.  The splitter keeps a flag, so a quote is hidden by an odd run
  of backslashes; the lexer looks at the previous byte, so any backslash will
  do.

    • `scan`, `cuts` — a scanner whose rule for hidden quotes is a parameter;
    • `statementEnds_eq_cuts`, `semicolonEnds_eq_cuts` — both are such scanners;
    • `split_agrees_iff` — they find the same ends exactly where the two rules
      agree at every semicolon;
    • `split_agrees_of_no_even_run` — as they do where no quote follows an even
      run of backslashes.
-/
import CustomDbms.Parser.TokenTexts
import Mathlib.Data.List.Induction
import Mathlib.Data.List.TakeWhile

namespace CustomDbms.Cli

open CustomDbms.Common CustomDbms.Parser

/-! ## §1. The splitter. -/

/-- The loop of `SplitStatements`: `statements`, and `current` at its end. -/
def splitLoop (current : Str) (inString escaped : Bool) : Str → List Str × Str
  | [] => ([], current)
  | ch :: rest =>
      let current := current ++ [ch]
      if inString then
        if escaped then splitLoop current true false rest
        else if ch = byte '\\' then splitLoop current true true rest
        else if ch = byte '"' then splitLoop current false false rest
        else splitLoop current true false rest
      else if ch = byte '"' then splitLoop current true escaped rest
      else if ch = byte ';' then
        let r := splitLoop [] false escaped rest
        (current :: r.1, r.2)
      else splitLoop current false escaped rest

/-- `SplitStatements`. -/
def splitStatements (input : Str) : List Str :=
  let r := splitLoop [] false false input
  if r.2 = [] then r.1 else r.1 ++ [r.2]

/-- Where consecutive pieces end. -/
def ends : Nat → List Str → List Nat
  | _, [] => []
  | i, piece :: pieces => (i + piece.length) :: ends (i + piece.length) pieces

/-- The positions at which the loop ends a statement. -/
def statementEnds (input : Str) : List Nat := ends 0 (splitLoop [] false false input).1

/-- The pieces are the text. -/
theorem splitLoop_flatten (current : Str) (inString escaped : Bool) (input : Str) :
    (splitLoop current inString escaped input).1.flatten
      ++ (splitLoop current inString escaped input).2 = current ++ input := by
  induction input generalizing current inString escaped with
  | nil => simp [splitLoop]
  | cons ch rest ih =>
      have hnext : ∀ b e, (splitLoop (current ++ [ch]) b e rest).1.flatten
          ++ (splitLoop (current ++ [ch]) b e rest).2 = current ++ ch :: rest := by
        intro b e
        rw [ih, List.append_assoc, List.singleton_append]
      rw [splitLoop]
      dsimp only
      split
      · split
        · exact hnext _ _
        · split
          · exact hnext _ _
          · split
            · exact hnext _ _
            · exact hnext _ _
      · split
        · exact hnext _ _
        · split
          · rw [List.flatten_cons, List.append_assoc, ih, List.nil_append, List.append_assoc,
              List.singleton_append]
          · exact hnext _ _

theorem splitStatements_flatten (input : Str) : (splitStatements input).flatten = input := by
  have h := splitLoop_flatten [] false false input
  rw [List.nil_append] at h
  unfold splitStatements
  dsimp only
  split
  · rename_i hempty
    rw [hempty, List.append_nil] at h
    exact h
  · rw [List.flatten_append, List.flatten_singleton]
    exact h

/-! ## §2. The lexer, with positions. -/

/-- The loop of `Tokenize`, each token with the position behind it. -/
def tokenizeAt : Nat → Nat → Str → List (Nat × Str)
  | 0, _, _ => []
  | _ + 1, _, [] => []
  | fuel + 1, i, c :: rest =>
      if isSpace c then tokenizeAt fuel (i + 1) rest
      else if (rest.head?.map (isTwoByteOperator c)).getD false then
        (i + 2, c :: rest.take 1) :: tokenizeAt fuel (i + 2) (rest.drop 1)
      else if c = byte '"' then
        let t := takeLiteral c rest
        (i + 1 + t.1.length, c :: t.1) :: tokenizeAt fuel (i + 1 + t.1.length) t.2
      else if isWordByte c then
        let n := (rest.takeWhile isWordByte).length
        (i + 1 + n, c :: rest.takeWhile isWordByte)
          :: tokenizeAt fuel (i + 1 + n) (rest.dropWhile isWordByte)
      else (i + 1, [c]) :: tokenizeAt fuel (i + 1) rest

/-- Its tokens are those of `Tokenize`. -/
theorem map_tokenizeAt (fuel i : Nat) (s : Str) :
    (tokenizeAt fuel i s).map (·.2) = tokenizeLoop fuel s := by
  induction fuel generalizing i s with
  | zero => rfl
  | succ fuel ih =>
      cases s with
      | nil => rfl
      | cons c rest =>
          rw [tokenizeAt, tokenizeLoop]
          dsimp only
          split
          · exact ih _ _
          · split
            · rw [List.map_cons, ih]
            · split
              · rw [List.map_cons, ih]
              · split
                · rw [List.map_cons, ih]
                · rw [List.map_cons, ih]

/-- A literal is what the lexer has passed. -/
theorem takeLiteral_append (prev : Byte) (s : Str) :
    (takeLiteral prev s).1 ++ (takeLiteral prev s).2 = s := by
  induction s generalizing prev with
  | nil => rfl
  | cons c rest ih =>
      rw [takeLiteral]
      split
      · rfl
      · exact congrArg (c :: ·) (ih c)

/-- **A token stands before its position.** -/
theorem mem_tokenizeAt {fuel i : Nat} {s : Str} {p : Nat × Str} (h : p ∈ tokenizeAt fuel i s) :
    ∃ front rest, s = front ++ p.2 ++ rest ∧ p.1 = i + (front ++ p.2).length := by
  induction fuel generalizing i s with
  | zero => exact absurd h List.not_mem_nil
  | succ fuel ih =>
      cases s with
      | nil => exact absurd h List.not_mem_nil
      | cons c text =>
          -- a token that starts here, or one behind what was passed
          have hhere : ∀ token tail j, c :: text = token ++ tail → j = i + token.length →
              p ∈ (j, token) :: tokenizeAt fuel j tail →
              ∃ front rest, c :: text = front ++ p.2 ++ rest ∧ p.1 = i + (front ++ p.2).length := by
            intro token tail j hsplit hj hp
            rcases List.mem_cons.mp hp with rfl | hp
            · exact ⟨[], tail, hsplit, hj⟩
            · obtain ⟨front, rest, htail, hpos⟩ := ih hp
              refine ⟨token ++ front, rest, ?_, ?_⟩
              · rw [hsplit, htail]
                simp only [List.append_assoc]
              · have hlength : (token ++ (front ++ p.2)).length
                    = token.length + (front ++ p.2).length := List.length_append
                rw [hpos, hj, List.append_assoc, hlength]
                omega
          rw [tokenizeAt] at h
          dsimp only at h
          split at h
          · obtain ⟨front, rest, htail, hpos⟩ := ih h
            refine ⟨c :: front, rest, ?_, ?_⟩
            · rw [htail]
              rfl
            · rw [hpos, List.cons_append, List.length_cons]
              omega
          · split at h
            · rename_i htwo
              cases text with
              | nil => exact absurd htwo Bool.false_ne_true
              | cons d tail => exact hhere [c, d] tail (i + 2) rfl rfl h
            · split at h
              · refine hhere _ _ _ ?_ ?_ h
                · rw [List.cons_append, takeLiteral_append]
                · rw [List.length_cons]
                  omega
              · split at h
                · refine hhere _ _ _ ?_ ?_ h
                  · rw [List.cons_append, List.takeWhile_append_dropWhile]
                  · rw [List.length_cons]
                    omega
                · exact hhere [c] text (i + 1) rfl rfl h

/-- The positions behind the `;` tokens. -/
def semicolonEnds (s : Str) : List Nat :=
  ((tokenizeAt s.length 0 s).filter fun p => p.2 = [byte ';']).map (·.1)

/-! ## §3. Scanners. -/

/-- A rule for hidden quotes: whether a quote behind these bytes of a literal, the
last one first, belongs to the literal. -/
abbrev HidesQuote := Str → Bool

/-- An odd run of backslashes. -/
def oddRun : HidesQuote := fun read => (read.takeWhile (· = byte '\\')).length % 2 = 1

/-- A backslash. -/
def afterBackslash : HidesQuote := fun read => read.head? = some (byte '\\')

/-- One byte: `none` outside of literals, else the bytes of the literal so far. -/
def scanStep (hides : HidesQuote) : Option Str → Byte → Option Str
  | none, c => if c = byte '"' then some [] else none
  | some read, c => if c = byte '"' ∧ hides read = false then none else some (c :: read)

/-- The state behind a text. -/
def scan (hides : HidesQuote) (state : Option Str) (s : Str) : Option Str :=
  s.foldl (scanStep hides) state

/-- The positions behind the semicolons outside of literals. -/
def cuts (hides : HidesQuote) : Option Str → Nat → Str → List Nat
  | _, _, [] => []
  | state, i, c :: rest =>
      if c = byte ';' ∧ state = none then
        (i + 1) :: cuts hides (scanStep hides state c) (i + 1) rest
      else cuts hides (scanStep hides state c) (i + 1) rest

theorem oddRun_cons (c : Byte) (read : Str) :
    oddRun (c :: read) = (decide (c = byte '\\') && !oddRun read) := by
  unfold oddRun
  by_cases hc : c = byte '\\'
  · rw [List.takeWhile_cons_of_pos (by simpa using hc), List.length_cons]
    rw [decide_eq_true hc, Bool.true_and, Bool.eq_iff_iff, Bool.not_eq_true', decide_eq_true_iff,
      decide_eq_false_iff_not]
    omega
  · rw [List.takeWhile_cons_of_neg (by simpa using hc), decide_eq_false hc, Bool.false_and]
    rfl

/-- **The splitter is the scanner of odd runs.** -/
theorem ends_splitLoop (state : Option Str) (i : Nat) (current s : Str) :
    ends i (splitLoop current state.isSome (state.any oddRun) s).1
      = cuts oddRun state (i + current.length) s := by
  induction s generalizing state i current with
  | nil => rfl
  | cons c rest ih =>
      have hlength : i + current.length + 1 = i + (current ++ [c]).length := by
        rw [List.length_append, List.length_singleton, Nat.add_assoc]
      rw [splitLoop, cuts, hlength]
      dsimp only
      cases state with
      | none =>
          rw [Option.isSome_none, Option.any_none, if_neg Bool.false_ne_true]
          by_cases hquote : c = byte '"'
          · rw [if_pos hquote, if_neg (by rw [hquote]; decide), scanStep, if_pos hquote]
            exact ih (some []) i (current ++ [c])
          · rw [if_neg hquote, scanStep, if_neg hquote]
            by_cases hsemicolon : c = byte ';'
            · rw [if_pos hsemicolon, if_pos ⟨hsemicolon, rfl⟩, ends]
              exact congrArg _ (ih none (i + (current ++ [c]).length) [])
            · rw [if_neg hsemicolon, if_neg fun h => hsemicolon h.1]
              exact ih none i (current ++ [c])
      | some read =>
          have hinside : ¬ (c = byte ';' ∧ some read = none) := fun h => by cases h.2
          rw [Option.isSome_some, Option.any_some, if_pos rfl, if_neg hinside, scanStep]
          have hnext := ih (some (c :: read)) i (current ++ [c])
          rw [Option.isSome_some, Option.any_some, oddRun_cons] at hnext
          cases hodd : oddRun read with
          | true =>
              rw [hodd, Bool.not_true, Bool.and_false] at hnext
              rw [if_pos rfl, if_neg fun h => by cases h.2]
              exact hnext
          | false =>
              rw [hodd, Bool.not_false, Bool.and_true] at hnext
              rw [if_neg Bool.false_ne_true]
              by_cases hbackslash : c = byte '\\'
              · rw [decide_eq_true hbackslash] at hnext
                rw [if_pos hbackslash, if_neg (by rw [hbackslash]; decide)]
                exact hnext
              · rw [decide_eq_false hbackslash] at hnext
                rw [if_neg hbackslash]
                by_cases hquote : c = byte '"'
                · rw [if_pos hquote, if_pos ⟨hquote, rfl⟩]
                  exact ih none i (current ++ [c])
                · rw [if_neg hquote, if_neg fun h => hquote h.1]
                  exact hnext

theorem statementEnds_eq_cuts (s : Str) : statementEnds s = cuts oddRun none 0 s :=
  ends_splitLoop none 0 [] s

/-! ## §4. The lexer is a scanner. -/

/-- A byte that neither opens a literal nor ends a statement. -/
def Quiet (c : Byte) : Prop := c ≠ byte '"' ∧ c ≠ byte ';'

theorem cuts_quiet {hides : HidesQuote} {c : Byte} (h : Quiet c) (i : Nat) (rest : Str) :
    cuts hides none i (c :: rest) = cuts hides none (i + 1) rest := by
  rw [cuts, if_neg fun hc => h.2 hc.1, scanStep, if_neg h.1]

theorem cuts_quiet_append {hides : HidesQuote} {s : Str} (h : ∀ c ∈ s, Quiet c) (i : Nat)
    (rest : Str) : cuts hides none i (s ++ rest) = cuts hides none (i + s.length) rest := by
  induction s generalizing i with
  | nil => rfl
  | cons c s ih =>
      rw [List.cons_append, cuts_quiet (h c List.mem_cons_self),
        ih fun d hd => h d (List.mem_cons_of_mem c hd), List.length_cons]
      congr 1
      omega

theorem quiet_of_isSpace {c : Byte} (h : isSpace c = true) : Quiet c := by
  constructor
  · rintro rfl
    exact absurd h (by decide)
  · rintro rfl
    exact absurd h (by decide)

theorem quiet_of_isWordByte {c : Byte} (h : isWordByte c = true) : Quiet c := by
  constructor
  · rintro rfl
    exact absurd h (by decide)
  · rintro rfl
    exact absurd h (by decide)

theorem quiet_of_isTwoByteOperator {c d : Byte} (h : isTwoByteOperator c d = true) :
    Quiet c ∧ Quiet d := by
  unfold isTwoByteOperator at h
  simp only [Bool.and_eq_true, Bool.or_eq_true, decide_eq_true_iff] at h
  obtain ⟨rfl, ((rfl | rfl) | rfl) | rfl⟩ := h
  · exact ⟨⟨by decide, by decide⟩, by decide, by decide⟩
  · exact ⟨⟨by decide, by decide⟩, by decide, by decide⟩
  · exact ⟨⟨by decide, by decide⟩, by decide, by decide⟩
  · exact ⟨⟨by decide, by decide⟩, by decide, by decide⟩

/-- The lexer leaves a literal where the scanner does. -/
theorem cuts_takeLiteral (prev : Byte) (read s : Str) (i : Nat)
    (h : afterBackslash read = decide (prev = byte '\\')) :
    cuts afterBackslash (some read) i s
      = cuts afterBackslash none (i + (takeLiteral prev s).1.length) (takeLiteral prev s).2 := by
  induction s generalizing prev read i with
  | nil => rfl
  | cons c rest ih =>
      have hinside : ¬ (c = byte ';' ∧ some read = none) := fun hc => by cases hc.2
      have hrule : afterBackslash read = false ↔ prev ≠ byte '\\' := by
        rw [h, decide_eq_false_iff_not]
      rw [cuts, if_neg hinside, scanStep, takeLiteral]
      by_cases hclose : c = byte '"' ∧ prev ≠ byte '\\'
      · rw [if_pos ⟨hclose.1, hrule.mpr hclose.2⟩, if_pos hclose]
        rfl
      · have hread : afterBackslash (c :: read) = decide (c = byte '\\') := by
          simp only [afterBackslash, List.head?_cons, Option.some_inj]
        rw [if_neg fun hc => hclose ⟨hc.1, hrule.mp hc.2⟩, if_neg hclose,
          ih c (c :: read) (i + 1) hread]
        dsimp only
        rw [List.length_cons]
        congr 1
        omega

/-- **The lexer is the scanner of backslashes.** -/
theorem semicolons_tokenizeAt (fuel i : Nat) (s : Str) (h : s.length ≤ fuel) :
    ((tokenizeAt fuel i s).filter fun p => p.2 = [byte ';']).map (·.1)
      = cuts afterBackslash none i s := by
  induction fuel generalizing i s with
  | zero =>
      rw [List.length_eq_zero_iff.mp (Nat.le_zero.mp h)]
      rfl
  | succ fuel ih =>
      cases s with
      | nil => rfl
      | cons c rest =>
          have hrest : rest.length ≤ fuel := Nat.le_of_succ_le_succ h
          rw [tokenizeAt]
          by_cases hspace : isSpace c = true
          · rw [if_pos hspace, cuts_quiet (quiet_of_isSpace hspace), ih _ _ hrest]
          · rw [if_neg hspace]
            by_cases htwo : (rest.head?.map (isTwoByteOperator c)).getD false = true
            · rw [if_pos htwo]
              cases rest with
              | nil => exact absurd htwo Bool.false_ne_true
              | cons d rest =>
                  obtain ⟨hc, hd⟩ := quiet_of_isTwoByteOperator htwo
                  have hshort : rest.length ≤ fuel := Nat.le_of_succ_le hrest
                  rw [List.filter_cons_of_neg (by simp), cuts_quiet hc, cuts_quiet hd]
                  exact ih _ _ hshort
            · rw [if_neg htwo]
              by_cases hquote : c = byte '"'
              · subst hquote
                have hliteral := cuts_takeLiteral (byte '"') [] rest (i + 1) (by decide)
                have hshort := Nat.le_trans (takeLiteral_length (byte '"') rest) hrest
                rw [if_pos rfl, cuts, if_neg fun hc => absurd hc.1 (by decide), scanStep,
                  if_pos rfl, hliteral]
                dsimp only
                rw [List.filter_cons_of_neg (by
                  rw [decide_eq_true_iff]
                  intro htoken
                  cases (List.cons.inj htoken).1)]
                exact ih _ _ hshort
              · rw [if_neg hquote]
                by_cases hword : isWordByte c = true
                · have hall : ∀ d ∈ c :: rest.takeWhile isWordByte, Quiet d := by
                    intro d hd
                    rcases List.mem_cons.mp hd with rfl | hd
                    · exact quiet_of_isWordByte hword
                    · exact quiet_of_isWordByte (List.mem_takeWhile_imp hd)
                  have hsplit : c :: rest
                      = (c :: rest.takeWhile isWordByte) ++ rest.dropWhile isWordByte := by
                    rw [List.cons_append, List.takeWhile_append_dropWhile]
                  have hshort := Nat.le_trans
                    (List.dropWhile_suffix isWordByte (l := rest)).length_le hrest
                  rw [if_pos hword, hsplit, cuts_quiet_append hall, List.length_cons]
                  dsimp only
                  rw [List.filter_cons_of_neg (by
                    rw [decide_eq_true_iff]
                    intro htoken
                    exact (quiet_of_isWordByte hword).2 (List.cons.inj htoken).1), ih _ _ hshort]
                  congr 1
                  omega
                · rw [if_neg hword]
                  by_cases hsemicolon : c = byte ';'
                  · rw [List.filter_cons_of_pos (by simpa using hsemicolon), cuts,
                      if_pos ⟨hsemicolon, rfl⟩, scanStep, if_neg hquote, List.map_cons, ih _ _ hrest]
                  · rw [List.filter_cons_of_neg (by simpa using hsemicolon),
                      cuts_quiet ⟨hquote, hsemicolon⟩, ih _ _ hrest]

theorem semicolonEnds_eq_cuts (s : Str) : semicolonEnds s = cuts afterBackslash none 0 s :=
  semicolons_tokenizeAt s.length 0 s (Nat.le_refl _)

/-! ## §5. Where they agree. -/

/-- The splitter ends its statements behind the `;` tokens of the script. -/
def SplitAgrees (input : Str) : Prop := statementEnds input = semicolonEnds input

theorem lt_of_mem_cuts {hides : HidesQuote} {state : Option Str} {i k : Nat} {s : Str}
    (h : k ∈ cuts hides state i s) : i < k := by
  induction s generalizing state i with
  | nil => exact absurd h List.not_mem_nil
  | cons c rest ih =>
      rw [cuts] at h
      split at h
      · rcases List.mem_cons.mp h with rfl | h
        · exact Nat.lt_succ_self i
        · exact Nat.lt_of_succ_lt (ih h)
      · exact Nat.lt_of_succ_lt (ih h)

/-- One step of a condition on all semicolons of a text. -/
theorem forall_semicolon_cons {P : Str → Prop} {c : Byte} {s : Str} :
    (∀ front rest, c :: s = front ++ byte ';' :: rest → P front) ↔
      (c = byte ';' → P []) ∧ ∀ front rest, s = front ++ byte ';' :: rest → P (c :: front) := by
  constructor
  · intro h
    refine ⟨fun hc => h [] s (by rw [hc]; rfl), fun front rest hs => ?_⟩
    exact h (c :: front) rest (by rw [hs]; rfl)
  · rintro ⟨hhead, htail⟩ front rest hs
    cases front with
    | nil => exact hhead (List.cons.inj hs).1
    | cons d front =>
        obtain ⟨rfl, hrest⟩ := List.cons.inj hs
        exact htail front rest hrest

/-- **Two scanners cut alike** exactly if they agree at every semicolon. -/
theorem cuts_eq_iff (r₁ r₂ : HidesQuote) (l₁ l₂ : Option Str) (i : Nat) (s : Str) :
    cuts r₁ l₁ i s = cuts r₂ l₂ i s ↔
      ∀ front rest, s = front ++ byte ';' :: rest →
        (scan r₁ l₁ front = none ↔ scan r₂ l₂ front = none) := by
  induction s generalizing l₁ l₂ i with
  | nil =>
      refine iff_of_true rfl fun front rest hs => ?_
      exact absurd hs.symm (List.append_ne_nil_of_right_ne_nil front (List.cons_ne_nil _ _))
  | cons c s ih =>
      have hne : ∀ r l ks, (i + 1) :: ks ≠ cuts r l (i + 1) s := by
        intro r l ks heq
        exact Nat.lt_irrefl _ (lt_of_mem_cuts (heq ▸ List.mem_cons_self : i + 1 ∈ cuts r l (i + 1) s))
      rw [forall_semicolon_cons, cuts, cuts]
      show _ ↔ (c = byte ';' → (l₁ = none ↔ l₂ = none)) ∧
        ∀ front rest, s = front ++ byte ';' :: rest →
          (scan r₁ (scanStep r₁ l₁ c) front = none ↔ scan r₂ (scanStep r₂ l₂ c) front = none)
      rw [← ih (scanStep r₁ l₁ c) (scanStep r₂ l₂ c) (i + 1)]
      by_cases h₁ : c = byte ';' ∧ l₁ = none
      · rw [if_pos h₁]
        by_cases h₂ : c = byte ';' ∧ l₂ = none
        · rw [if_pos h₂, List.cons_inj_right]
          exact (and_iff_right fun _ => iff_of_true h₁.2 h₂.2).symm
        · rw [if_neg h₂]
          refine iff_of_false (hne _ _ _) fun h => h₂ ⟨h₁.1, (h.1 h₁.1).mp h₁.2⟩
      · rw [if_neg h₁]
        by_cases h₂ : c = byte ';' ∧ l₂ = none
        · rw [if_pos h₂]
          refine iff_of_false (fun heq => hne _ _ _ heq.symm) fun h => ?_
          exact h₁ ⟨h₂.1, (h.1 h₂.1).mpr h₂.2⟩
        · rw [if_neg h₂]
          refine (and_iff_right fun hc => ?_).symm
          exact iff_of_false (fun h => h₁ ⟨hc, h⟩) fun h => h₂ ⟨hc, h⟩

/-- **The splitter and the lexer agree on a script** exactly if at each of its
semicolons both rules for hidden quotes say the same: it is in a literal, or it
is not. -/
theorem split_agrees_iff (input : Str) :
    SplitAgrees input ↔ ∀ front rest, input = front ++ byte ';' :: rest →
      (scan oddRun none front = none ↔ scan afterBackslash none front = none) := by
  unfold SplitAgrees
  rw [statementEnds_eq_cuts, semicolonEnds_eq_cuts]
  exact cuts_eq_iff _ _ _ _ _ _

/-- The number of backslashes at the end of a text. -/
def backslashesBefore (front : Str) : Nat := (front.reverse.takeWhile (· = byte '\\')).length

/-- Where no quote follows an even run of backslashes, the rules agree on every
front of the text. -/
theorem scan_eq_of_no_even_run {front : Str}
    (h : ∀ before rest, front = before ++ byte '"' :: rest →
      backslashesBefore before = 0 ∨ backslashesBefore before % 2 = 1) :
    scan oddRun none front = scan afterBackslash none front ∧
      ∀ read, scan oddRun none front = some read →
        ∃ before, front.reverse = read ++ byte '"' :: before := by
  induction front using List.reverseRecOn with
  | nil => exact ⟨rfl, fun read hread => by cases hread⟩
  | append_singleton front c ih =>
      obtain ⟨hsame, hliteral⟩ := ih fun before rest hfront =>
        h before (rest ++ [c]) (by rw [hfront, List.append_assoc]; rfl)
      have hstep : ∀ r, scan r none (front ++ [c]) = scanStep r (scan r none front) c :=
        fun r => List.foldl_append
      rw [hstep, hstep, ← hsame]
      cases hstate : scan oddRun none front with
      | none =>
          refine ⟨rfl, fun read hread => ?_⟩
          rw [scanStep] at hread
          split at hread
          · rename_i hquote
            cases hread
            exact ⟨front.reverse, by rw [List.reverse_append, hquote]; rfl⟩
          · cases hread
      | some read =>
          obtain ⟨before, hreverse⟩ := hliteral read hstate
          -- the run of backslashes ends in the literal: its first byte is a quote
          have hrun : backslashesBefore front = (read.takeWhile (· = byte '\\')).length := by
            unfold backslashesBefore
            rw [hreverse, List.takeWhile_append, List.takeWhile_cons_of_neg (by decide),
              List.append_nil]
            split
            · rename_i hall
              exact hall.symm
            · rfl
          have hextend : ∀ read', scanStep oddRun (some read) c = some read' →
              ∃ before, (front ++ [c]).reverse = read' ++ byte '"' :: before := by
            intro read' hread'
            rw [scanStep] at hread'
            split at hread'
            · cases hread'
            · cases hread'
              exact ⟨before, by rw [List.reverse_append, hreverse]; rfl⟩
          refine ⟨?_, hextend⟩
          by_cases hquote : c = byte '"'
          · have hrules : oddRun read = afterBackslash read := by
              have hbefore := h front [] (by rw [hquote])
              rw [hrun] at hbefore
              unfold oddRun afterBackslash
              rw [decide_eq_decide]
              cases read with
              | nil => exact iff_of_false (by decide) (by decide)
              | cons d read =>
                  by_cases hd : d = byte '\\'
                  · refine iff_of_true (hbefore.resolve_left ?_) (by rw [hd]; rfl)
                    rw [List.takeWhile_cons_of_pos (by simpa using hd)]
                    exact Nat.succ_ne_zero _
                  · rw [List.takeWhile_cons_of_neg (by simpa using hd)]
                    refine iff_of_false (by decide) fun hhead => hd (Option.some.inj hhead)
            rw [scanStep, scanStep, hrules]
          · rw [scanStep, scanStep, if_neg fun hc => hquote hc.1, if_neg fun hc => hquote hc.1]

/-- **Enough for it**: no quote of the script follows an even run of
backslashes. -/
theorem split_agrees_of_no_even_run {input : Str}
    (h : ∀ before rest, input = before ++ byte '"' :: rest →
      backslashesBefore before = 0 ∨ backslashesBefore before % 2 = 1) :
    SplitAgrees input := by
  apply (split_agrees_iff input).mpr
  intro front rest hinput
  rw [(scan_eq_of_no_even_run fun before tail hfront =>
    h before (tail ++ byte ';' :: rest) (by rw [hinput, hfront, List.append_assoc]; rfl)).1]

/-- **A backslash at the end of a literal**, written twice.  The splitter takes the
next quote for the end of the literal, the lexer does not, and there is no `;`
token in the script it has cut in two. -/
theorem split_escaped_backslash :
    splitStatements (str "SELECT * FROM t WHERE v == \"\\\\\"; SELECT * FROM t;")
        = [str "SELECT * FROM t WHERE v == \"\\\\\";", str " SELECT * FROM t;"] ∧
      tokenize (str "SELECT * FROM t WHERE v == \"\\\\\"; SELECT * FROM t;")
        = [str "SELECT", str "*", str "FROM", str "t", str "WHERE", str "v", str "==",
          str "\"\\\\\"; SELECT * FROM t;"] ∧
      ¬ SplitAgrees (str "SELECT * FROM t WHERE v == \"\\\\\"; SELECT * FROM t;") := by
  unfold SplitAgrees
  refine ⟨by decide, by decide, by decide⟩

end CustomDbms.Cli
