/-
  CustomDbms.Core.WalLog
  ──────────────────────
  **WHAT THE WRITE-AHEAD LOG GIVES BACK.**

  The loop of `LoadAll` is a fold of one step for each line (`walLine`), so
  logs that stand one behind the other are read one after the other.  Two
  questions are decided with it: which texts come back as they were appended,
  and which cuts of a log lose nothing but its tail.
-/
import CustomDbms.Core.StateFiles
import CustomDbms.Core.WalManager

namespace CustomDbms.Core

open CustomDbms.Common CustomDbms.Storage

/-! ## §1. One line of the log. -/

/-- What one line does: the open transaction behind it and the entries it
completes; `none` where `LoadAll` returns false. -/
def walLine (tx : Option (List Str)) (line : Str) :
    Option (Option (List Str) × List WalEntry) :=
  if line = [] then some (tx, [])
  else if line = str "TX_BEGIN" then
    match tx with
    | some _ => none
    | none => some (some [], [])
  else if line = str "TX_END" then
    match tx with
    | none => none
    | some statements => some (none, [WalEntry.transaction statements])
  else
    match stripStart (str "SQL\t") line, stripStart (str "TX_SQL\t") line, tx with
    | some text, _, none => some (none, [WalEntry.sql (unescape text)])
    | some _, _, some _ => none
    | none, some text, some statements => some (some (statements ++ [unescape text]), [])
    | none, _, _ => none

/-- Several lines, one after the other. -/
def walLines : Option (List Str) → List Str → Option (Option (List Str) × List WalEntry)
  | tx, [] => some (tx, [])
  | tx, line :: rest =>
      (walLine tx line).bind fun p => (walLines p.1 rest).map fun q => (q.1, p.2 ++ q.2)

/-- **The loop of `LoadAll` is that fold**; what is open at the end is
dropped. -/
theorem loadEntries_eq (tx : Option (List Str)) (ls : List Str) :
    loadEntries tx ls = (walLines tx ls).map Prod.snd := by
  induction ls generalizing tx with
  | nil => rfl
  | cons line rest ih =>
      rw [loadEntries.eq_def, walLines, walLine.eq_def]
      dsimp only
      split
      · simp [ih]
      · split
        · cases tx <;> simp [ih]
        · split
          · cases tx <;> simp [ih, Function.comp_def]
          · cases stripStart (str "SQL\t") line <;> cases stripStart (str "TX_SQL\t") line <;>
              cases tx <;> simp [ih, Function.comp_def]

theorem walLines_append (tx : Option (List Str)) (ls ls' : List Str) :
    walLines tx (ls ++ ls')
      = (walLines tx ls).bind fun p => (walLines p.1 ls').map fun q => (q.1, p.2 ++ q.2) := by
  induction ls generalizing tx with
  | nil => simp [walLines]
  | cons line rest ih =>
      rw [List.cons_append, walLines, walLines]
      cases walLine tx line with
      | none => rfl
      | some p =>
          rw [Option.bind_some, Option.bind_some, ih]
          cases walLines p.1 rest with
          | none => rfl
          | some q => simp [Function.comp_def]

/-! ## §2. The round trip. -/

/-- The texts of an entry. -/
def WalEntry.statements : WalEntry → List Str
  | .sql statement => [statement]
  | .transaction statements => statements

/-- The entry appended to the log: `AppendSql` or `AppendTransaction`. -/
def appendEntry (d : Directory) : WalEntry → Directory
  | .sql statement => appendSql statement d
  | .transaction statements => appendTransaction statements d

/-- The bytes one entry adds. -/
def entryText : WalEntry → Str
  | .sql statement => sqlText statement
  | .transaction statements => transactionText statements

/-- The log after a reset and some entries. -/
theorem appendEntries_wal (d : Directory) (entries : List WalEntry) :
    entries.foldl appendEntry (reset d) .wal = some (walHeader ++ entries.flatMap entryText) := by
  have key : ∀ (text : Str) (d : Directory), text ≠ [] → d .wal = some text →
      entries.foldl appendEntry d .wal = some (text ++ entries.flatMap entryText) := by
    induction entries with
    | nil =>
        intro text d _ h
        simpa using h
    | cons entry entries ih =>
        intro text d hne h
        have hheader : headerIfEmpty d = [] := by simp [headerIfEmpty, h, hne]
        have hstep : appendEntry d entry .wal = some (text ++ entryText entry) := by
          cases entry <;>
            simp [appendEntry, appendSql, appendTransaction, FileStep.apply, hheader, h, entryText]
        rw [List.foldl_cons, ih (text ++ entryText entry) _ (by simp [hne]) hstep]
        simp
  exact key walHeader _ (by decide) rfl

/-- The text is read through, from one open transaction to another. -/
def ReadsLog (text : Str) (tx tx' : Option (List Str)) (entries : List WalEntry) : Prop :=
  ∀ rest, walLines tx (lines (text ++ rest))
    = (walLines tx' (lines rest)).map fun q => (q.1, entries ++ q.2)

theorem readsLog_nil (tx : Option (List Str)) : ReadsLog [] tx tx [] := by
  intro rest
  simp

theorem ReadsLog.append {t t' : Str} {tx tx' tx'' : Option (List Str)} {es es' : List WalEntry}
    (h : ReadsLog t tx tx' es) (h' : ReadsLog t' tx' tx'' es') :
    ReadsLog (t ++ t') tx tx'' (es ++ es') := by
  intro rest
  rw [List.append_assoc, h, h']
  simp [Function.comp_def]

theorem readsLog_line {line : Str} (hn : newline ∉ line) {tx tx' : Option (List Str)}
    {es : List WalEntry} (h : walLine tx line = some (tx', es)) :
    ReadsLog (line ++ [newline]) tx tx' es := by
  intro rest
  rw [List.append_assoc, List.singleton_append, lines_append hn, walLines, h]
  rfl

theorem walLine_sql (s : Str) :
    walLine none (str "SQL\t" ++ escape s) = some (none, [WalEntry.sql s]) := by
  have h0 : str "SQL\t" ++ escape s ≠ [] := by simp [str]
  have h1 : str "SQL\t" ++ escape s ≠ str "TX_BEGIN" := fun h => by cases h
  have h2 : str "SQL\t" ++ escape s ≠ str "TX_END" := fun h => by cases h
  rw [walLine, if_neg h0, if_neg h1, if_neg h2, stripStart_append]
  simp

theorem walLine_txSql (statements : List Str) (s : Str) :
    walLine (some statements) (str "TX_SQL\t" ++ escape s)
      = some (some (statements ++ [s]), []) := by
  have h0 : str "TX_SQL\t" ++ escape s ≠ [] := by simp [str]
  have h1 : str "TX_SQL\t" ++ escape s ≠ str "TX_BEGIN" := fun h => by cases h
  have h2 : str "TX_SQL\t" ++ escape s ≠ str "TX_END" := fun h => by cases h
  have h3 : stripStart (str "SQL\t") (str "TX_SQL\t" ++ escape s) = none := rfl
  rw [walLine, if_neg h0, if_neg h1, if_neg h2, stripStart_append, h3]
  simp

/-- A tag and an escaped text on one line. -/
theorem newline_not_mem_tagged {tag s : Str} (ht : newline ∉ tag) (h : newline ∉ s) :
    newline ∉ tag ++ escape s := by
  intro hm
  exact (List.mem_append.mp hm).elim ht (newline_not_mem_escape h)

theorem readsLog_txSqls {ss : List Str} (h : ∀ s ∈ ss, newline ∉ s) (statements : List Str) :
    ReadsLog (ss.flatMap fun s => str "TX_SQL\t" ++ escape s ++ [newline]) (some statements)
      (some (statements ++ ss)) [] := by
  induction ss generalizing statements with
  | nil => simpa using readsLog_nil (some statements)
  | cons s ss ih =>
      have htag : newline ∉ str "TX_SQL\t" := by decide
      have hs := newline_not_mem_tagged htag (h s (by simp))
      have hline := readsLog_line hs (walLine_txSql statements s)
      have hrest := ih (fun x hx => h x (by simp [hx])) (statements ++ [s])
      rw [List.append_assoc, List.singleton_append] at hrest
      rw [List.flatMap_cons]
      exact hline.append hrest

/-- **An entry without newlines is read back.** -/
theorem readsLog_entry {entry : WalEntry} (h : ∀ s ∈ entry.statements, newline ∉ s) :
    ReadsLog (entryText entry) none none [entry] := by
  cases entry with
  | sql s =>
      have htag : newline ∉ str "SQL\t" := by decide
      have hs := newline_not_mem_tagged htag (h s (by simp [WalEntry.statements]))
      exact readsLog_line hs (walLine_sql s)
  | transaction ss =>
      have hbegin : ReadsLog (str "TX_BEGIN" ++ [newline]) none (some []) [] :=
        readsLog_line (by decide) (by decide)
      have hend : ReadsLog (str "TX_END" ++ [newline]) (some ss) none
          [WalEntry.transaction ss] := by
        apply readsLog_line (by decide)
        rw [walLine, if_neg (by decide), if_neg (by decide), if_pos rfl]
      exact (hbegin.append (readsLog_txSqls h [])).append hend

theorem readsLog_entries {entries : List WalEntry}
    (h : ∀ entry ∈ entries, ∀ s ∈ entry.statements, newline ∉ s) :
    ReadsLog (entries.flatMap entryText) none none entries := by
  induction entries with
  | nil => exact readsLog_nil none
  | cons entry entries ih =>
      rw [List.flatMap_cons]
      exact (readsLog_entry (h entry (by simp))).append (ih fun x hx => h x (by simp [hx]))

/-- A header line the log accepts. -/
def headerOk (header : Str) : Bool :=
  match stripStart kHeaderPrefix header with
  | none => false
  | some version => isSupportedWalVersion version

/-- Behind its header a log is the fold of its lines. -/
theorem loadLog_header {header : Str} (hn : newline ∉ header) (text : Str) :
    loadLog (header ++ newline :: text)
      = if headerOk header then (walLines none (lines text)).map Prod.snd else none := by
  rw [loadLog, lines_append hn, headerOk]
  dsimp only
  rw [loadEntries_eq]
  cases stripStart kHeaderPrefix header <;> simp

theorem loadLog_walHeader (text : Str) :
    loadLog (walHeader ++ text) = (walLines none (lines text)).map Prod.snd := by
  have hheader : walHeader ++ text = (kHeaderPrefix ++ kCurrentVersion) ++ newline :: text := by
    simp [walHeader]
  rw [hheader, loadLog_header (by decide)]
  exact if_pos (by decide)

/-- What one line adds comes from the line or from the open transaction. -/
theorem walLine_newline {line : Str} (hn : newline ∉ line) {tx tx' : Option (List Str)}
    {es : List WalEntry} (htx : ∀ ss ∈ tx, ∀ s ∈ ss, newline ∉ s)
    (h : walLine tx line = some (tx', es)) :
    (∀ ss ∈ tx', ∀ s ∈ ss, newline ∉ s) ∧ ∀ e ∈ es, ∀ s ∈ e.statements, newline ∉ s := by
  -- a text behind a tag holds no newline, whatever is unescaped in it
  have htext : ∀ {tag text : Str}, stripStart tag line = some text → newline ∉ unescape text := by
    intro tag text ht hm
    exact newline_not_mem_of_stripStart hn ht (mem_of_mem_unescapeFrom hm)
  rw [walLine.eq_def] at h
  split at h
  · cases h
    exact ⟨htx, by simp⟩
  · split at h
    · cases tx with
      | none => cases h; simp
      | some ss => cases h
    · split at h
      · cases tx with
        | none => cases h
        | some ss =>
            cases h
            simpa [WalEntry.statements] using htx
      · split at h
        · rename_i ht
          cases h
          simpa [WalEntry.statements] using htext ht
        · cases h
        · rename_i _ text ss _ ht
          cases h
          refine ⟨?_, by simp⟩
          intro ss' hss' s hs
          cases hss'
          rcases List.mem_append.mp hs with hs | hs
          · exact htx ss rfl s hs
          · rw [List.mem_singleton.mp hs]
            exact htext ht
        · cases h

theorem walLines_newline {ls : List Str} (hn : ∀ l ∈ ls, newline ∉ l)
    {tx : Option (List Str)} {r : Option (List Str) × List WalEntry}
    (htx : ∀ ss ∈ tx, ∀ s ∈ ss, newline ∉ s) (h : walLines tx ls = some r) :
    ∀ e ∈ r.2, ∀ s ∈ e.statements, newline ∉ s := by
  induction ls generalizing tx r with
  | nil =>
      cases h
      simp
  | cons line rest ih =>
      rw [walLines] at h
      obtain ⟨p, hp, h⟩ := Option.bind_eq_some_iff.mp h
      obtain ⟨q, hq, hqe⟩ := Option.map_eq_some_iff.mp h
      have hstep := walLine_newline (hn line (by simp)) htx hp
      have hrest := ih (fun l hl => hn l (by simp [hl])) hstep.1 hq
      cases hqe
      intro e he
      rcases List.mem_append.mp he with he | he
      · exact hstep.2 e he
      · exact hrest e he

/-- **The log gives back what was appended exactly when no statement text holds
a newline.** -/
theorem loadAll_appended_iff (d : Directory) (entries : List WalEntry) :
    loadAll (entries.foldl appendEntry (reset d)) = some entries ↔
      ∀ entry ∈ entries, ∀ s ∈ entry.statements, newline ∉ s := by
  rw [loadAll, appendEntries_wal]
  show loadLog (walHeader ++ entries.flatMap entryText) = some entries ↔ _
  rw [loadLog_walHeader]
  constructor
  · intro h
    obtain ⟨r, hes, rfl⟩ := Option.map_eq_some_iff.mp h
    exact walLines_newline (fun l hl => newline_not_mem_of_mem_lines hl) (by simp) hes
  · intro h
    have := readsLog_entries h []
    rw [List.append_nil] at this
    rw [this]
    simp [walLines]

/-- A statement on two lines: its second line is no line of a log, and the
log is refused as a whole, with the entry in front of it. -/
theorem newline_in_statement_loses_log :
    let entries := [WalEntry.sql (str "CREATE DATABASE d;"),
      WalEntry.sql (str "DELETE FROM d.t\nWHERE k = 1;")]
    loadAll (entries.foldl appendEntry (reset Directory.empty)) ≠ some entries ∧
      loadAll (entries.foldl appendEntry (reset Directory.empty)) = none := by
  decide

/-! ## §3. Torn tails. -/

/-- What stands behind the last newline: the line the text breaks off in. -/
def lastLine (s : Str) : Str := (s.reverse.takeWhile (· ≠ newline)).reverse

/-- What stands before the first newline. -/
def firstLine (s : Str) : Str := s.takeWhile (· ≠ newline)

/-- The flag `Unescape` ends with: is a backslash waiting for its byte? -/
def escapeOpen : Bool → Str → Bool
  | flag, [] => flag
  | true, _ :: cs => escapeOpen false cs
  | false, c :: cs => escapeOpen (c = backslash) cs

/-- The cuts that take nothing from an entry: between two lines; in the text
of a transaction's statement, where the transaction is still open; or in
front of a last backslash of a statement that escapes nothing. -/
def CleanCut (p q : Str) : Prop :=
  lastLine p = [] ∨ firstLine q = [] ∨ str "TX_SQL\t" <+: lastLine p ∨
    (str "SQL\t" <+: lastLine p ∧ firstLine q = [backslash] ∧
      escapeOpen false (lastLine p) = false)

/-- Whole lines are read on their own. -/
theorem lines_newline_append (s t : Str) :
    lines (s ++ newline :: t) = lines (s ++ [newline]) ++ lines t := by
  induction s with
  | nil => simp [lines]
  | cons c s ih =>
      rw [List.cons_append, List.cons_append, lines, lines]
      split
      · rw [ih, List.cons_append]
      · obtain ⟨l, ls, hl⟩ : ∃ l ls, lines (s ++ [newline]) = l :: ls := by
          cases s with
          | nil => exact ⟨[], [], rfl⟩
          | cons d s =>
              rw [List.cons_append, lines]
              split
              · exact ⟨_, _, rfl⟩
              · cases lines (s ++ [newline]) <;> exact ⟨_, _, rfl⟩
        rw [ih, hl]
        rfl

/-- A text is its first line and what follows. -/
theorem firstLine_spec (s : Str) :
    newline ∉ firstLine s ∧ (s = firstLine s ∨ ∃ back, s = firstLine s ++ newline :: back) := by
  induction s with
  | nil => simp [firstLine]
  | cons c s ih =>
      by_cases hc : c = newline
      · subst hc
        exact ⟨by simp [firstLine], Or.inr ⟨s, by simp [firstLine]⟩⟩
      · have hstep : firstLine (c :: s) = c :: firstLine s := by simp [firstLine, hc]
        rw [hstep]
        refine ⟨by simp [ih.1, Ne.symm hc], ?_⟩
        rcases ih.2 with h | ⟨back, h⟩
        · exact Or.inl (by rw [← h])
        · exact Or.inr ⟨back, by rw [List.cons_append, ← h]⟩

/-- A text is its whole lines and the line it breaks off in. -/
theorem lastLine_spec (s : Str) :
    newline ∉ lastLine s ∧ (s = lastLine s ∨ ∃ front, s = front ++ newline :: lastLine s) := by
  have h := firstLine_spec s.reverse
  have hlast : lastLine s = (firstLine s.reverse).reverse := rfl
  rw [hlast]
  refine ⟨by simpa using h.1, ?_⟩
  rcases h.2 with h | ⟨back, h⟩
  · exact Or.inl (by rw [← h, List.reverse_reverse])
  · refine Or.inr ⟨back.reverse, ?_⟩
    have hs := congrArg List.reverse h
    simpa using hs

theorem unescapeFrom_append (b : Bool) (s t : Str) :
    unescapeFrom b (s ++ t) = unescapeFrom b s ++ unescapeFrom (escapeOpen b s) t := by
  induction s generalizing b with
  | nil => cases b <;> rfl
  | cons c s ih =>
      cases b with
      | true => simp [unescapeFrom, escapeOpen, ih]
      | false =>
          by_cases hc : c = backslash
          · simp [unescapeFrom, escapeOpen, ih, hc]
          · simp [unescapeFrom, escapeOpen, ih, hc]

/-- Only an open backslash unescapes to nothing. -/
theorem unescapeFrom_eq_nil {b : Bool} {t : Str} (ht : t ≠ []) :
    unescapeFrom b t = [] ↔ t = [backslash] ∧ b = false := by
  cases t with
  | nil => exact absurd rfl ht
  | cons c t =>
      cases b with
      | true => simp [unescapeFrom]
      | false =>
          by_cases hc : c = backslash
          · cases t with
            | nil => simp [unescapeFrom, hc]
            | cons d t => simp [unescapeFrom, hc]
          · simp [unescapeFrom, hc]

/-- A line that is none of the five the log knows. -/
def Stub (r : Str) : Prop :=
  r ≠ [] ∧ r ≠ str "TX_BEGIN" ∧ r ≠ str "TX_END" ∧ ¬ str "SQL\t" <+: r ∧ ¬ str "TX_SQL\t" <+: r

instance (r : Str) : Decidable (Stub r) := by unfold Stub; infer_instance

theorem walLine_stub {r : Str} (h : Stub r) (tx : Option (List Str)) : walLine tx r = none := by
  obtain ⟨h0, h1, h2, h3, h4⟩ := h
  rw [walLine.eq_def, if_neg h0, if_neg h1, if_neg h2, stripStart_eq_none.mpr h3,
    stripStart_eq_none.mpr h4]

/-- The words lines begin with. -/
def walWords : List Str := [str "TX_BEGIN", str "TX_END", str "SQL\t", str "TX_SQL\t"]

/-- **A torn word is no word.** -/
theorem stub_of_torn {word r : Str} (hw : word ∈ walWords) (hr : r ≠ []) (hne : r ≠ word)
    (h : r <+: word) : Stub r := by
  have hlen : ∀ w ∈ walWords, w.length < 9 := by decide
  have key : ∀ w ∈ walWords, ∀ n < 9, w.take n ≠ [] → w.take n ≠ w → Stub (w.take n) := by decide
  have hr' := List.prefix_iff_eq_take.mp h
  rw [hr'] at hr hne ⊢
  exact key word hw r.length (lt_of_le_of_lt h.length_le (hlen word hw)) hr hne

/-- The lines the log accepts. -/
theorem walLine_cases {tx : Option (List Str)} {line : Str} {p : Option (List Str) × List WalEntry}
    (h : walLine tx line = some p) :
    line = [] ∨ line = str "TX_BEGIN" ∨ line = str "TX_END" ∨
      (∃ text, line = str "SQL\t" ++ text ∧ tx = none ∧ p = (none, [WalEntry.sql (unescape text)])) ∨
      ∃ text ss, line = str "TX_SQL\t" ++ text ∧ tx = some ss := by
  rw [walLine.eq_def] at h
  split at h
  · exact Or.inl ‹_›
  · split at h
    · exact Or.inr (Or.inl ‹_›)
    · split at h
      · exact Or.inr (Or.inr (Or.inl ‹_›))
      · split at h
        · rename_i ht
          cases h
          exact Or.inr (Or.inr (Or.inr (Or.inl ⟨_, stripStart_eq_some.mp ht, rfl, rfl⟩)))
        · cases h
        · rename_i text ss _ ht
          exact Or.inr (Or.inr (Or.inr (Or.inr ⟨text, ss, stripStart_eq_some.mp ht, rfl⟩)))
        · cases h

/-- **A line cut in the middle**: what its front gives and what the whole line
gives. -/
theorem walLine_cut {tx : Option (List Str)} {r q : Str} (hr : r ≠ []) (hq : q ≠ [])
    {p : Option (List Str) × List WalEntry} (h : walLine tx (r ++ q) = some p)
    (rest : List WalEntry) :
    (∃ p', walLine tx r = some p' ∧ p'.2 <+: p.2 ++ rest) ↔
      str "TX_SQL\t" <+: r ∨
        (str "SQL\t" <+: r ∧ q = [backslash] ∧ escapeOpen false r = false) := by
  have hne : ∀ {w : Str}, r ++ q = w → r ≠ w := by
    rintro _ rfl hrw
    exact hq (by simpa using hrw)
  -- a front that is a torn word refuses the log, and is no clean cut
  have hstub : Stub r → ((∃ p', walLine tx r = some p' ∧ p'.2 <+: p.2 ++ rest) ↔
      str "TX_SQL\t" <+: r ∨
        (str "SQL\t" <+: r ∧ q = [backslash] ∧ escapeOpen false r = false)) := by
    intro hs
    simp [walLine_stub hs, hs.2.2.2.1, hs.2.2.2.2]
  have hword : ∀ {w text : Str}, w ∈ walWords → r ++ q = w ++ text → ¬ w <+: r → Stub r := by
    intro w text hw htext hwr
    have hpre := List.prefix_or_prefix_of_prefix (⟨q, htext⟩ : r <+: w ++ text) ⟨text, rfl⟩
    have hrw : r <+: w := hpre.resolve_right hwr
    exact stub_of_torn hw hr (fun hrw' => hwr (hrw' ▸ List.prefix_rfl)) hrw
  rcases walLine_cases h with h0 | h1 | h2 | ⟨text, htext, rfl, rfl⟩ | ⟨text, ss, htext, rfl⟩
  · exact absurd (List.append_eq_nil_iff.mp h0).1 hr
  · exact hstub (stub_of_torn (by simp [walWords]) hr (hne h1) ⟨q, h1⟩)
  · exact hstub (stub_of_torn (by simp [walWords]) hr (hne h2) ⟨q, h2⟩)
  · by_cases hpre : str "SQL\t" <+: r
    · obtain ⟨x, rfl⟩ := hpre
      have hx : text = x ++ q := by simpa using htext.symm
      have hopen : escapeOpen false (str "SQL\t" ++ x) = escapeOpen false x := rfl
      have htx : ¬ str "TX_SQL\t" <+: str "SQL\t" ++ x := fun ⟨y, hy⟩ => by cases hy
      have hline : walLine none (str "SQL\t" ++ x) = some (none, [WalEntry.sql (unescape x)]) := by
        rw [walLine, if_neg hr, if_neg (fun h => by cases h), if_neg (fun h => by cases h),
          stripStart_append]
      rw [hline, hx, hopen]
      simp [htx, unescape, unescapeFrom_append, unescapeFrom_eq_nil hq]
    · exact hstub (hword (by simp [walWords]) htext hpre)
  · by_cases hpre : str "TX_SQL\t" <+: r
    · obtain ⟨x, rfl⟩ := hpre
      have hline : walLine (some ss) (str "TX_SQL\t" ++ x)
          = some (some (ss ++ [unescape x]), []) := by
        have hsql : stripStart (str "SQL\t") (str "TX_SQL\t" ++ x) = none := rfl
        rw [walLine, if_neg hr, if_neg (fun h => by cases h), if_neg (fun h => by cases h),
          hsql, stripStart_append]
      rw [hline]
      simp
    · exact hstub (hword (by simp [walWords]) htext hpre)

theorem lines_single {r : Str} (hn : newline ∉ r) (hr : r ≠ []) : lines r = [r] := by
  induction r with
  | nil => exact absurd rfl hr
  | cons c r ih =>
      have hc : c ≠ newline := fun h => hn (by simp [h])
      rw [lines, if_neg hc]
      cases r with
      | nil => rfl
      | cons d r => rw [ih (fun h => hn (by simp [h])) (by simp)]

/-- The line a text breaks off in, and what completes it. -/
theorem lines_torn {r : Str} (hn : newline ∉ r) (hr : r ≠ []) (q : Str) :
    ∃ rest, lines (r ++ q) = (r ++ firstLine q) :: rest := by
  obtain ⟨hq, h⟩ := firstLine_spec q
  have hrq : newline ∉ r ++ firstLine q := by
    intro hm
    exact (List.mem_append.mp hm).elim hn hq
  rcases h with h | ⟨back, h⟩
  · exact ⟨[], by rw [← h] at hrq ⊢; exact lines_single hrq (by simp [hr])⟩
  · refine ⟨lines back, ?_⟩
    have hsplit : r ++ q = (r ++ firstLine q) ++ newline :: back := by
      rw [List.append_assoc, ← h]
    rw [hsplit, lines_append hrq]

/-- A cut in one line, in the middle of a log. -/
theorem walLines_torn {tx : Option (List Str)} {r q : Str} (hn : newline ∉ r)
    {res : Option (List Str) × List WalEntry} (h : walLines tx (lines (r ++ q)) = some res) :
    (∃ res', walLines tx (lines r) = some res' ∧ res'.2 <+: res.2) ↔
      r = [] ∨ firstLine q = [] ∨ str "TX_SQL\t" <+: r ∨
        (str "SQL\t" <+: r ∧ firstLine q = [backslash] ∧ escapeOpen false r = false) := by
  by_cases hr : r = []
  · subst hr
    simp [walLines]
  · obtain ⟨rest, hlines⟩ := lines_torn hn hr q
    rw [hlines, walLines] at h
    obtain ⟨p, hp, h⟩ := Option.bind_eq_some_iff.mp h
    obtain ⟨b, _, hres⟩ := Option.map_eq_some_iff.mp h
    have hone : walLines tx (lines r) = walLine tx r := by
      rw [lines_single hn hr, walLines]
      cases walLine tx r <;> simp [walLines]
    rw [hone, ← hres]
    by_cases hq : firstLine q = []
    · rw [hq, List.append_nil] at hp
      simp [hp, hq]
    · simpa [hr, hq] using walLine_cut hr hq hp b.2

theorem firstLine_append_newline (s t : Str) : firstLine (s ++ newline :: t) = firstLine s := by
  induction s with
  | nil => simp [firstLine]
  | cons c s ih =>
      unfold firstLine at ih ⊢
      by_cases hc : c = newline
      · simp [hc]
      · simpa [hc] using ih

theorem lastLine_append_newline (s t : Str) : lastLine (s ++ newline :: t) = lastLine t := by
  have h := firstLine_append_newline t.reverse s.reverse
  unfold firstLine at h
  unfold lastLine
  rw [List.reverse_append, List.reverse_cons, List.append_assoc, List.singleton_append, h]

/-- A cut of the lines behind the header. -/
theorem walLines_cut {p q : Str} {res : Option (List Str) × List WalEntry}
    (h : walLines none (lines (p ++ q)) = some res) :
    (∃ res', walLines none (lines p) = some res' ∧ res'.2 <+: res.2) ↔ CleanCut p q := by
  obtain ⟨hn, hp⟩ := lastLine_spec p
  rcases hp with hp | ⟨front, hp⟩
  · rw [CleanCut]
    rw [← hp] at hn ⊢
    exact walLines_torn hn h
  · have hlines : ∀ t, lines (p ++ t)
        = lines (front ++ [newline]) ++ lines (lastLine p ++ t) := by
      intro t
      have hpt : p ++ t = front ++ newline :: (lastLine p ++ t) := by
        rw [← List.cons_append, ← List.append_assoc, ← hp]
      rw [hpt, lines_newline_append]
    have hlines' := hlines []
    rw [List.append_nil, List.append_nil] at hlines'
    rw [hlines, walLines_append] at h
    rw [hlines', walLines_append]
    obtain ⟨a, ha, h⟩ := Option.bind_eq_some_iff.mp h
    obtain ⟨b, hb, hres⟩ := Option.map_eq_some_iff.mp h
    rw [CleanCut, ← walLines_torn hn hb, ha, ← hres]
    simp

/-- **A log cut behind its header gives a front of its entries exactly when the
cut is clean.** -/
theorem loadLog_cut_iff (p q : Str) (entries : List WalEntry)
    (hload : loadLog (p ++ q) = some entries) (hheader : firstLine (p ++ q) <+: p) :
    (∃ front, loadLog p = some front ∧ front <+: entries) ↔ CleanCut p q := by
  obtain ⟨hn, hp⟩ := firstLine_spec p
  rcases hp with hp | ⟨body, hp⟩
  · -- the cut stands in the header line or right behind it, and takes nothing of it
    rw [← hp] at hn
    have hq : firstLine q = [] := by
      have hfirst : firstLine (p ++ q) = p ++ firstLine q := by
        unfold firstLine
        apply List.takeWhile_append_of_pos
        intro c hc
        simpa using fun h : c = newline => hn (h ▸ hc)
      rw [hfirst] at hheader
      have hlen := hheader.length_le
      rw [List.length_append] at hlen
      exact List.length_eq_zero_iff.mp (by omega)
    have hload' : loadLog p = some [] := by
      by_cases hnil : p = []
      · rw [hnil]
        rfl
      · obtain ⟨rest, hlines⟩ := lines_torn hn hnil q
        rw [hq, List.append_nil] at hlines
        rw [loadLog, hlines] at hload
        rw [loadLog, lines_single hn hnil]
        dsimp only at hload ⊢
        revert hload
        cases stripStart kHeaderPrefix p with
        | none => simp
        | some version =>
            dsimp only
            cases isSupportedWalVersion version
            · simp
            · simp [loadEntries]
    exact ⟨fun _ => Or.inr (Or.inl hq), fun _ => ⟨[], hload', by simp⟩⟩
  · -- behind the header, the lines decide
    have hpq : p ++ q = firstLine p ++ newline :: (body ++ q) := by
      rw [← List.cons_append, ← List.append_assoc, ← hp]
    rw [hpq, loadLog_header hn] at hload
    have hok : headerOk (firstLine p) = true := by
      by_contra hok
      simp [hok] at hload
    rw [if_pos hok] at hload
    obtain ⟨res, hres, rfl⟩ := Option.map_eq_some_iff.mp hload
    have hclean : CleanCut p q ↔ CleanCut body q := by
      rw [CleanCut, CleanCut, hp, lastLine_append_newline]
    have hbody : loadLog p = (walLines none (lines body)).map Prod.snd := by
      conv_lhs => rw [hp]
      rw [loadLog_header hn, if_pos hok]
    rw [hclean, ← walLines_cut hres, hbody]
    cases walLines none (lines body) <;> simp

/-- The log of one statement, cut behind its header. -/
theorem loadLog_cut_sql :
    loadLog (walHeader ++ sqlText (str "USE d;")) = some [WalEntry.sql (str "USE d;")] ∧
      ∃ front, loadLog walHeader = some front ∧ front <+: [WalEntry.sql (str "USE d;")] :=
  ⟨by decide,
    (loadLog_cut_iff walHeader (sqlText (str "USE d;")) [WalEntry.sql (str "USE d;")]
      (by decide) (by decide)).mpr (Or.inl (by decide))⟩

/-- **A torn statement is replayed**: the write of a guarded DELETE stops in front
of its WHERE, and what the log gives back is a DELETE of every row. -/
theorem torn_delete_loses_where :
    let log := walHeader ++ sqlText (str "DELETE FROM d.t WHERE k = 1;")
    let torn := walHeader ++ str "SQL\tDELETE FROM d.t "
    torn <+: log ∧ firstLine log <+: torn ∧
      loadLog log = some [WalEntry.sql (str "DELETE FROM d.t WHERE k = 1;")] ∧
      loadLog torn = some [WalEntry.sql (str "DELETE FROM d.t ")] ∧
      ¬ ∃ front, loadLog torn = some front ∧
        front <+: [WalEntry.sql (str "DELETE FROM d.t WHERE k = 1;")] := by
  decide

end CustomDbms.Core
