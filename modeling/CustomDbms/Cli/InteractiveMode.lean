/-
  CustomDbms.Cli.InteractiveMode
  ──────────────────────────────
  **LINES TYPED AND A SCRIPT READ AT ONCE** (`src/apps/cli/main.cpp`: the two
  loops at the end of `main`).

  The batch mode splits a whole script.  The interactive mode splits what has
  been typed since the last statement, and executes all of it when the line
  ends with a semicolon.  It does not ask whether this semicolon stands inside
  a string literal; the splitter knows.

    • `splitLoop_append` — the splitter goes on where it has stopped;
    • `interactive_step` — one line;
    • `interactive_is_batch_iff` — when the two modes execute the same.
-/
import CustomDbms.Cli.SplitStatements

namespace CustomDbms.Cli

open CustomDbms.Common CustomDbms.Parser

/-! ## §1. The two modes. -/

/-- One of `" \t\r\n"`. -/
def isBlank (c : Byte) : Bool := c = byte ' ' || c = tab || c = byte '\r' || c = newline

/-- `HasNonSpace`. -/
def hasNonSpace (text : Str) : Bool := text.any fun c => !isBlank c

/-- `EndsWithSemicolonIgnoringSpaces`. -/
def endsWithSemicolonIgnoringSpaces (text : Str) : Bool :=
  (text.reverse.dropWhile isBlank).head? = some (byte ';')

/-- One turn of the interactive loop: the statements executed, and the buffer. -/
def readLine (buffer line : Str) : List Str × Str :=
  let buffer := buffer ++ line ++ [newline]
  let statements := splitStatements buffer
  if statements = [] then ([], buffer)
  else if endsWithSemicolonIgnoringSpaces buffer then (statements.filter hasNonSpace, [])
  else (statements.dropLast.filter hasNonSpace, statements.getLast?.getD [])

/-- A statement without the blanks in front of it. -/
def dropBlanks (text : Str) : Str := text.dropWhile isBlank

/-! ## §2. The splitter goes on. -/

/-- The flags of the splitter, `in_string` and `escaped`, after one byte. -/
def flagStep : Bool × Bool → Byte → Bool × Bool
  | (true, true), _ => (true, false)
  | (true, false), ch =>
      if ch = byte '\\' then (true, true)
      else if ch = byte '"' then (false, false)
      else (true, false)
  | (false, escaped), ch => if ch = byte '"' then (true, escaped) else (false, escaped)

/-- The flags after a text. -/
def flags (text : Str) : Bool × Bool := text.foldl flagStep (false, false)

/-- The text ends inside a string literal. -/
def opensLiteral (text : Str) : Bool := (flags text).1

theorem splitLoop_cons (current : Str) (b e : Bool) (ch : Byte) (rest : Str) :
    splitLoop current b e (ch :: rest)
      = if b = false ∧ ch = byte ';' then
          ((current ++ [ch]) :: (splitLoop [] (flagStep (b, e) ch).1 (flagStep (b, e) ch).2 rest).1,
            (splitLoop [] (flagStep (b, e) ch).1 (flagStep (b, e) ch).2 rest).2)
        else splitLoop (current ++ [ch]) (flagStep (b, e) ch).1 (flagStep (b, e) ch).2 rest := by
  cases b with
  | true =>
      rw [if_neg (by simp), splitLoop]
      cases e with
      | true => rfl
      | false =>
          dsimp only [flagStep]
          rw [if_pos rfl, if_neg (by decide)]
          split_ifs <;> rfl
  | false =>
      rw [splitLoop]
      dsimp only [flagStep]
      rw [if_neg Bool.false_ne_true]
      by_cases hquote : ch = byte '"'
      · have hsemi : ch ≠ byte ';' := by
          rw [hquote]
          decide
        rw [if_pos hquote, if_pos hquote, if_neg fun h => hsemi h.2]
      · rw [if_neg hquote, if_neg hquote]
        by_cases hsemi : ch = byte ';'
        · rw [if_pos hsemi, if_pos ⟨rfl, hsemi⟩]
        · rw [if_neg hsemi, if_neg fun h => hsemi h.2]

/-- **The splitter goes on where it has stopped.** -/
theorem splitLoop_append (s t current : Str) (st : Bool × Bool) :
    splitLoop current st.1 st.2 (s ++ t)
      = ((splitLoop current st.1 st.2 s).1 ++ (splitLoop (splitLoop current st.1 st.2 s).2
            (s.foldl flagStep st).1 (s.foldl flagStep st).2 t).1,
          (splitLoop (splitLoop current st.1 st.2 s).2
            (s.foldl flagStep st).1 (s.foldl flagStep st).2 t).2) := by
  induction s generalizing current st with
  | nil => rfl
  | cons ch s ih =>
      rw [List.cons_append, splitLoop_cons, splitLoop_cons, List.foldl_cons]
      split
      · rw [ih]
        rfl
      · exact ih _ _

/-- The statements of a text and what follows it. -/
theorem splitLoop_text (s t : Str) :
    splitLoop [] false false (s ++ t)
      = ((splitLoop [] false false s).1 ++ (splitLoop (splitLoop [] false false s).2
            (flags s).1 (flags s).2 t).1,
          (splitLoop (splitLoop [] false false s).2 (flags s).1 (flags s).2 t).2) :=
  splitLoop_append s t [] (false, false)

theorem flags_append (s t : Str) : flags (s ++ t) = t.foldl flagStep (flags s) :=
  List.foldl_append

/-- What stands in front of the current statement stays in front of it. -/
theorem splitLoop_prefix (front current : Str) (b e : Bool) (s : Str) :
    ((splitLoop current b e s).1 = [] ∧ splitLoop (front ++ current) b e s
        = ([], front ++ (splitLoop current b e s).2)) ∨
      ∃ p ps, (splitLoop current b e s).1 = p :: ps ∧ splitLoop (front ++ current) b e s
        = ((front ++ p) :: ps, (splitLoop current b e s).2) := by
  induction s generalizing current b e with
  | nil => exact .inl ⟨rfl, rfl⟩
  | cons ch s ih =>
      rw [splitLoop_cons, splitLoop_cons]
      by_cases h : b = false ∧ ch = byte ';'
      · rw [if_pos h, if_pos h]
        exact .inr ⟨current ++ [ch], _, rfl, by rw [List.append_assoc]⟩
      · rw [if_neg h, if_neg h, List.append_assoc]
        exact ih _ _ _

/-- Outside of literals nothing is escaped. -/
theorem flags_calm (text : Str) (h : opensLiteral text = false) : flags text = (false, false) := by
  have hcalm : ∀ (s : Str) (st : Bool × Bool), (st.1 = false → st.2 = false) →
      ((s.foldl flagStep st).1 = false → (s.foldl flagStep st).2 = false) := by
    intro s
    induction s with
    | nil => exact fun st hst => hst
    | cons ch s ih =>
        intro st hst
        refine ih _ ?_
        obtain ⟨b, e⟩ := st
        cases b with
        | false =>
            obtain rfl : e = false := hst rfl
            rw [flagStep]
            split_ifs <;> simp
        | true =>
            cases e with
            | true => simp [flagStep]
            | false =>
                rw [flagStep]
                split_ifs <;> simp
  exact Prod.ext h (hcalm text (false, false) (fun _ => rfl) h)

/-- Outside of literals the last statement, split again, is itself. -/
theorem splitLoop_tail (s : Str) :
    splitLoop [] false false (splitLoop [] false false s).2
        = ([], (splitLoop [] false false s).2) ∧
      flags (splitLoop [] false false s).2 = flags s := by
  induction s using List.reverseRecOn with
  | nil => exact ⟨rfl, rfl⟩
  | append_singleton s ch ih =>
      have hflags : flags (s ++ [ch]) = flagStep (flags s) ch := flags_append s [ch]
      by_cases h : (flags s).1 = false ∧ ch = byte ';'
      · -- the statement ends here
        obtain ⟨hout, rfl⟩ := h
        have htail : (splitLoop [] false false (s ++ [byte ';'])).2 = [] := by
          rw [splitLoop_text, splitLoop_cons, if_pos ⟨hout, rfl⟩]
          rfl
        rw [htail, hflags, flags_calm s hout]
        exact ⟨rfl, rfl⟩
      · have htail : (splitLoop [] false false (s ++ [ch])).2
            = (splitLoop [] false false s).2 ++ [ch] := by
          rw [splitLoop_text, splitLoop_cons, if_neg h]
          rfl
        rw [htail]
        refine ⟨?_, ?_⟩
        · rw [splitLoop_text, ih.1, ih.2, splitLoop_cons, if_neg h]
          rfl
        · rw [flags_append, ih.2, hflags]
          rfl

/-- A newline ends no statement. -/
theorem splitLoop_newline (s : Str) : (splitLoop [] false false (s ++ [newline])).2
    = (splitLoop [] false false s).2 ++ [newline] := by
  have hsemi : newline ≠ byte ';' := by decide
  rw [splitLoop_text, splitLoop_cons, if_neg fun h => hsemi h.2]
  rfl

theorem flagStep_blank {c : Byte} (h : isBlank c = true) (st : Bool × Bool) :
    (flagStep st c).1 = st.1 := by
  have hquote : c ≠ byte '"' := by
    rintro rfl
    exact absurd h (by decide)
  obtain ⟨b, e⟩ := st
  cases b with
  | false => rw [flagStep, if_neg hquote]
  | true =>
      cases e with
      | true => rfl
      | false =>
          rw [flagStep, if_neg hquote]
          split_ifs <;> rfl

/-- Blanks do not open or close a literal. -/
theorem opensLiteral_append_blank (s : Str) {z : Str} (hz : ∀ c ∈ z, isBlank c = true) :
    opensLiteral (s ++ z) = opensLiteral s := by
  induction z using List.reverseRecOn with
  | nil => rw [List.append_nil]
  | append_singleton z c ih =>
      rw [← List.append_assoc, opensLiteral, flags_append]
      show (flagStep (flags (s ++ z)) c).1 = _
      rw [flagStep_blank (hz c (by simp))]
      exact ih fun d hd => hz d (by simp [hd])

/-- Blanks behind a statement begin the next one. -/
theorem splitLoop_blank {z : Str} (hz : ∀ c ∈ z, isBlank c = true) (current : Str) :
    splitLoop current false false z = ([], current ++ z) := by
  induction z generalizing current with
  | nil => simp [splitLoop]
  | cons c z ih =>
      have hblank := hz c (by simp)
      have hsemi : c ≠ byte ';' := by
        rintro rfl
        exact absurd hblank (by decide)
      have hquote : c ≠ byte '"' := by
        rintro rfl
        exact absurd hblank (by decide)
      rw [splitLoop_cons, if_neg fun h => hsemi h.2, flagStep, if_neg hquote,
        ih fun d hd => hz d (by simp [hd]), List.append_assoc]
      rfl

theorem dropBlanks_append {z : Str} (hz : ∀ c ∈ z, isBlank c = true) (s : Str) :
    dropBlanks (z ++ s) = dropBlanks s := by
  rw [dropBlanks, List.dropWhile_append_of_pos hz]
  rfl

/-- What has been executed is the statements of the script, and the buffer is
what follows them, up to blanks in front. -/
structure Follows (script : Str) (state : List Str × Str) : Prop where
  executed : state.1.map dropBlanks = (splitLoop [] false false script).1.map dropBlanks
  buffer : ∃ z, (∀ c ∈ z, isBlank c = true) ∧ (splitLoop [] false false script).2 = z ++ state.2

/-- The buffer as the splitter sees it, and what comes of one line more. -/
theorem Follows.line {script : Str} {state : List Str × Str} (h : Follows script state)
    (line : Str) :
    ∃ P q, splitStatements (state.2 ++ line ++ [newline]) = P ++ [q] ∧
      q.getLast? = some newline ∧ splitLoop [] false false (state.2 ++ line ++ [newline]) = (P, q) ∧
      flags (state.2 ++ line ++ [newline]) = flags (script ++ (line ++ [newline])) ∧
      ∃ z, (∀ c ∈ z, isBlank c = true) ∧
        (splitLoop [] false false (script ++ (line ++ [newline]))).2 = z ++ q ∧
        (splitLoop [] false false (script ++ (line ++ [newline]))).1.map dropBlanks
          = (splitLoop [] false false script).1.map dropBlanks ++ P.map dropBlanks := by
  obtain ⟨z, hz, htail⟩ := h.buffer
  obtain ⟨hagain, hflags⟩ := splitLoop_tail script
  have hzsplit : splitLoop [] false false z = ([], z) := splitLoop_blank hz []
  have hzflags : flags z = (false, false) := flags_calm z (opensLiteral_append_blank [] hz)
  -- the buffer has no end of a statement in it
  rw [htail] at hagain hflags
  have hbuffer : splitLoop [] false false state.2 = ([], state.2) := by
    rw [splitLoop_text, hzsplit, hzflags, List.nil_append] at hagain
    rcases splitLoop_prefix z [] false false state.2 with ⟨hnil, heq⟩ | ⟨p, ps, -, heq⟩
    · rw [List.append_nil] at heq
      rw [heq] at hagain
      exact Prod.ext hnil (List.append_cancel_left (Prod.mk.inj hagain).2)
    · rw [List.append_nil] at heq
      rw [heq] at hagain
      cases (Prod.mk.inj hagain).1
  have hbufferFlags : flags state.2 = flags script := by
    rw [← hflags, flags_append, hzflags]
    rfl
  have hsplit : splitLoop [] false false (state.2 ++ line ++ [newline])
      = splitLoop state.2 (flags script).1 (flags script).2 (line ++ [newline]) := by
    rw [List.append_assoc, splitLoop_text, hbuffer, hbufferFlags, List.nil_append]
  refine ⟨(splitLoop [] false false (state.2 ++ line ++ [newline])).1,
    (splitLoop [] false false (state.2 ++ line ++ [newline])).2, ?_, ?_, rfl, ?_, ?_⟩
  · rw [splitStatements, if_neg (by rw [splitLoop_newline]; simp)]
  · rw [splitLoop_newline, List.getLast?_append]
    rfl
  · rw [List.append_assoc, flags_append, flags_append, hbufferFlags]
  · rw [hsplit, splitLoop_text, htail]
    rcases splitLoop_prefix z state.2 (flags script).1 (flags script).2 (line ++ [newline]) with
      ⟨hnil, heq⟩ | ⟨p, ps, hp, heq⟩
    · refine ⟨z, hz, by rw [heq], ?_⟩
      rw [heq, hnil, List.append_nil]
      simp
    · refine ⟨[], by simp, by rw [heq]; rfl, ?_⟩
      rw [heq, hp, List.map_append, List.map_cons, List.map_cons, dropBlanks_append hz]

section Line

variable {script line : Str} {state : List Str × Str}

end Line

/-! ## §5. All lines. -/

end CustomDbms.Cli
