/-
  CustomDbms.Core.SaveAtomicity
  ─────────────────────────────
  **`Save` CUT SHORT.**

  `Save` is six file operations on two files.  A crash leaves the directory
  after some of them: five different pairs of files can be met by the next
  `Load` (`forall_crash`).  Right after the old state file has been removed
  there is none, and `Load` takes that for an empty store; later the new state
  stands beside the old log, and then beside none.
-/
import CustomDbms.Core.PersistenceRoundTrip

namespace CustomDbms.Core

open CustomDbms.Common CustomDbms.Catalog CustomDbms.Lib CustomDbms.Parser CustomDbms.Storage
open CustomDbms.Versioning CustomDbms.Execution

/-! ## §1. The files `Load` can meet. -/

/-- `Load` at the start of a process, on the contents of the two files. -/
def loadFiles (state history : Option Str) : Loaded :=
  load (fun f => if f = .state then state else if f = .history then history else none)
    RuntimeState.empty VersionStore.empty

/-- `Load` looks at the two files only. -/
theorem load_eq_loadFiles (d : Directory) :
    load d RuntimeState.empty VersionStore.empty = loadFiles (d .state) (d .history) := rfl

/-- The directory after a crash of `Save` behind its `k`-th file operation. -/
def crashed (d : Directory) (s : Store) (k : Nat) : Directory :=
  runSteps d ((saveSteps s.runtime s.versions).take k)

/-- **The five pairs of files a crash can leave.** -/
theorem forall_crash (d : Directory) (s : Store) (P : Loaded → Prop) :
    (∀ k, P (load (crashed d s k) RuntimeState.empty VersionStore.empty)) ↔
      P (loadFiles (d .state) (d .history)) ∧ P (loadFiles none (d .history)) ∧
      P (loadFiles (some (stateText s.runtime)) (d .history)) ∧
      P (loadFiles (some (stateText s.runtime)) none) ∧
      P (loadFiles (some (stateText s.runtime)) (some (historyText s.versions))) := by
  -- the files after each operation, as the operations leave them
  have hfiles : ∀ k, (crashed d s k .state, crashed d s k .history) =
      match k with
      | 0 | 1 => (d .state, d .history)
      | 2 => (none, d .history)
      | 3 | 4 => (some (stateText s.runtime), d .history)
      | 5 => (some (stateText s.runtime), none)
      | _ => (some (stateText s.runtime), some (historyText s.versions)) := by
    intro k
    match k with
    | 0 | 1 | 2 | 3 | 4 | 5 => rfl
    | k + 6 =>
        have htake : (saveSteps s.runtime s.versions).take (k + 6)
            = saveSteps s.runtime s.versions := List.take_of_length_le (by simp [saveSteps])
        unfold crashed
        rw [htake]
        rfl
  simp only [load_eq_loadFiles]
  constructor
  · intro h
    have hk : ∀ k a b, (crashed d s k .state, crashed d s k .history) = (a, b) →
        P (loadFiles a b) := by
      intro k a b hab
      obtain ⟨ha, hb⟩ := Prod.mk.inj hab
      rw [← ha, ← hb]
      exact h k
    exact ⟨hk 0 _ _ (hfiles 0), hk 2 _ _ (hfiles 2), hk 3 _ _ (hfiles 3), hk 5 _ _ (hfiles 5),
      hk 6 _ _ (hfiles 6)⟩
  · rintro ⟨h0, h2, h3, h5, h6⟩ k
    have hk := hfiles k
    match k with
    | 0 | 1 => rw [(Prod.mk.inj hk).1, (Prod.mk.inj hk).2]; exact h0
    | 2 => rw [(Prod.mk.inj hk).1, (Prod.mk.inj hk).2]; exact h2
    | 3 | 4 => rw [(Prod.mk.inj hk).1, (Prod.mk.inj hk).2]; exact h3
    | 5 => rw [(Prod.mk.inj hk).1, (Prod.mk.inj hk).2]; exact h5
    | k + 6 => rw [(Prod.mk.inj hk).1, (Prod.mk.inj hk).2]; exact h6

/-! ## §2. What the files of a store that is not empty hold. -/

theorem splitFrom_front (b : Bool) (current s : Str) :
    ∃ x ps, splitFrom b current s = (current ++ x) :: ps := by
  induction s generalizing b current with
  | nil => cases b <;> exact ⟨[], [], by simp [splitFrom]⟩
  | cons c s ih =>
      cases b with
      | true =>
          obtain ⟨x, ps, hx⟩ := ih false (current ++ [c])
          exact ⟨c :: x, ps, by rw [splitFrom, hx]; simp⟩
      | false =>
          rw [splitFrom]
          split
          · obtain ⟨x, ps, hx⟩ := ih true (current ++ [c])
            exact ⟨c :: x, ps, by rw [hx]; simp⟩
          · split
            · exact ⟨[], splitFrom false [] s, by simp⟩
            · obtain ⟨x, ps, hx⟩ := ih false (current ++ [c])
              exact ⟨c :: x, ps, by rw [hx]; simp⟩

theorem modify_ne_nil {β : Type} {d : Dict Str β} {a : Str} {f : β → β} (h : d.entries ≠ []) :
    (d.modify a f).entries ≠ [] := by
  simpa [Dict.modify] using h

theorem emplace_ne_nil {β : Type} (d : Dict Str β) (a : Str) (b : β) :
    (d.emplace a b).entries ≠ [] := by
  rw [Dict.emplace]
  split
  · rename_i h
    intro h0
    rw [Dict.keys, h0] at h
    cases h
  · simp

/-- A line never takes the last database away. -/
theorem loadStateLine_ne_nil {s : RuntimeState} (h : s.databases.entries ≠ [])
    (parts : List Str) : (loadStateLine s parts).1.databases.entries ≠ [] := by
  have hcolumn : ∀ n t c, (loadColumn s n t c).databases.entries ≠ [] := by
    intro n t c
    rw [loadColumn]
    split
    · exact h
    · exact modify_ne_nil h
  have hrow : ∀ n t encoded, (loadRowLine s parts n t encoded).1.databases.entries ≠ [] := by
    intro n t encoded
    rw [loadRowLine]
    split
    · exact h
    · split
      · exact h
      · rw [loadRow]
        split
        · exact h
        · exact modify_ne_nil h
  delta loadStateLine
  simp only
  split
  · split
    · exact h
    · exact emplace_ne_nil _ _ _
  · split
    · exact emplace_ne_nil _ _ _
    · split
      · split
        · exact modify_ne_nil (emplace_ne_nil _ _ _)
        · exact modify_ne_nil (emplace_ne_nil _ _ _)
        · exact h
      · split
        · rw [loadColumnLine]
          split
          · split
            · exact h
            · exact hcolumn _ _ _
          · unfold loadPositionalColumn
            split
            · split
              · simp only
                split
                · exact h
                · exact hcolumn _ _ _
                · exact h
              · exact h
            · exact h
        · split
          · split
            · exact hrow _ _ _
            · exact hrow _ _ _
            · exact h
          · exact h

theorem lineOf_cons (p q : Str) (ps : List Str) :
    lineOf (p :: q :: ps) = p ++ tab :: lineOf (q :: ps) := by
  rw [lineOf, lineOf, List.intercalate_cons_cons]
  simp

/-- The front of a line with a keyed field behind its tag. -/
theorem lineOf_field {tag k : String} {front : Str}
    (hfront : front = str tag ++ tab :: (str k ++ str "=")) (v : Str) (ps : List Str) :
    ∃ rest, rest ≠ [] ∧ lineOf (str tag :: field k v :: ps) = front ++ rest := by
  cases ps with
  | nil =>
      refine ⟨v ++ [newline], by simp, ?_⟩
      rw [lineOf_cons, hfront]
      simp [lineOf, List.intercalate, field]
  | cons q ps =>
      refine ⟨v ++ tab :: lineOf (q :: ps), by simp, ?_⟩
      rw [lineOf_cons, lineOf_cons, hfront]
      simp [field]

/-- **The file of a state with a database is never read as empty.** -/
theorem loaded_ne_nil {s : RuntimeState} (h : s.databases.entries ≠ []) :
    (loadLines loadStateLine false RuntimeState.empty
      (lines (stateText s))).1.databases.entries ≠ [] := by
  obtain ⟨p, ps, hp⟩ := List.exists_cons_of_ne_nil h
  -- the first line behind the comments starts with the tag and the key
  have htext : ∃ rest, rest ≠ [] ∧ (s.databases.entries.flatMap fun p => databaseText p.1 p.2)
      = str "DATABASE\tname=" ++ rest := by
    have hfront : str "DATABASE\tname=" = str "DATABASE" ++ tab :: (str "name" ++ str "=") := by
      decide
    obtain ⟨rest, hrest, hline⟩ := lineOf_field hfront (escape p.1) []
    rw [hp, List.flatMap_cons, databaseText, hline, List.append_assoc, List.append_assoc]
    exact ⟨_, by simp [hrest], rfl⟩
  obtain ⟨rest, hrest, htext⟩ := htext
  obtain ⟨m, ls, hlines⟩ := lines_front (l := str "DATABASE\tname=") (by decide) hrest
  have hnl : ∀ l ∈ lines (str "DATABASE\tname=" ++ rest), newline ∉ l :=
    fun l hl => newline_not_mem_of_mem_lines hl
  rw [hlines] at hnl
  have hls : ∀ l ∈ ls, newline ∉ l := fun l hl => hnl l (List.mem_cons_of_mem _ hl)
  -- this line makes a database
  obtain ⟨x, qs, hsplit⟩ : ∃ x qs, splitByTab (str "DATABASE\tname=" ++ m)
      = str "DATABASE" :: (str "name=" ++ x) :: qs := by
    have hfront := splitByTab_front (p := str "DATABASE")
      (unbroken_plain (by decide) (by decide)) (str "name=" ++ m)
    have hname := unbroken_plain (s := str "name=") (by decide) (by decide) [] m
    obtain ⟨x, qs, hx⟩ := splitFrom_front false (str "name=") m
    refine ⟨x, qs, ?_⟩
    rw [show str "DATABASE\tname=" ++ m = str "DATABASE" ++ tab :: (str "name=" ++ m) from rfl,
      hfront, splitByTab, hname, List.nil_append, hx]
  have hfield : findFieldValue (str "DATABASE" :: (str "name=" ++ x) :: qs) (str "name") = some x :=
    findField_field (k := "name") x qs (by decide) (by decide)
  have hstep : loadStateLine RuntimeState.empty (splitByTab (str "DATABASE\tname=" ++ m))
      = (loadDatabase RuntimeState.empty (unescape x), .accepted) := by
    rw [hsplit]
    delta loadStateLine
    simp [hfield]
  have hskip : ¬ (str "DATABASE\tname=" ++ m = [] ∨
      (str "DATABASE\tname=" ++ m).head? = some (byte '#')) := by
    rintro (h0 | h0) <;> cases h0
  have hfalse : ¬ (true = false ∧
      (splitByTab (str "DATABASE\tname=" ++ m)).head? = some (str "FORMAT")) := by simp
  rw [stateText, List.append_assoc, loadLines_formatLine, reads_stateComments, htext, hlines,
    loadLines, if_neg hskip]
  simp only [hfalse, if_false, hstep]
  have hfirst : (loadDatabase RuntimeState.empty (unescape x)).databases.entries ≠ [] :=
    emplace_ne_nil _ _ _
  exact loadLines_invariant (P := fun s : RuntimeState => s.databases.entries ≠ [])
    (fun s parts hs _ => loadStateLine_ne_nil hs parts) true hfirst hls

/-- A line of the log never takes an event away. -/
theorem loadHistoryLine_begun {s : HistoryLoad} (h : s.records ≠ [] ∨ s.pending ≠ none)
    (parts : List Str) :
    (loadHistoryLine s parts).1.records ≠ [] ∨ (loadHistoryLine s parts).1.pending ≠ none := by
  delta loadHistoryLine
  simp only
  split
  · split
    · exact .inr (by simp)
    · exact h
  · split
    · split
      · exact .inr (by simp)
      · exact h
    · split
      · split
        · exact .inr (by simp)
        · exact h
      · split
        · split
          · exact h
          · exact .inl (by simp)
        · exact h

/-- **The file of a log with an event is never read as empty.** -/
theorem loadHistory_ne_nil {v : VersionStore} {records : List ChangeRecord}
    (hv : v.records ≠ []) (h : loadHistory (historyText v) = some records) : records ≠ [] := by
  obtain ⟨r, rs, hr⟩ := List.exists_cons_of_ne_nil hv
  have htext : ∃ rest, rest ≠ [] ∧ v.records.flatMap recordText = str "EVENT\tkind=" ++ rest := by
    have hfront : str "EVENT\tkind=" = str "EVENT" ++ tab :: (str "kind" ++ str "=") := by decide
    obtain ⟨rest, hrest, hline⟩ := lineOf_field hfront (changeKindName r.kind)
      [field "db" (escape r.databaseName), field "table" (escape r.tableName),
        field "timestamp" (escape r.timestamp), field "row_id" (rowIdToString r.rowId)]
    rw [hr, List.flatMap_cons, recordText, hline]
    simp only [List.append_assoc]
    exact ⟨_, by simp [hrest], rfl⟩
  obtain ⟨rest, hrest, htext⟩ := htext
  obtain ⟨m, ls, hlines⟩ := lines_front (l := str "EVENT\tkind=") (by decide) hrest
  have hnl : ∀ l ∈ lines (str "EVENT\tkind=" ++ rest), newline ∉ l :=
    fun l hl => newline_not_mem_of_mem_lines hl
  rw [hlines] at hnl
  have hls : ∀ l ∈ ls, newline ∉ l := fun l hl => hnl l (List.mem_cons_of_mem _ hl)
  obtain ⟨qs, hsplit⟩ : ∃ qs, splitByTab (str "EVENT\tkind=" ++ m) = str "EVENT" :: qs :=
    ⟨_, splitByTab_front (p := str "EVENT") (unbroken_plain (by decide) (by decide))
      (str "kind=" ++ m)⟩
  have hskip : ¬ (str "EVENT\tkind=" ++ m = [] ∨
      (str "EVENT\tkind=" ++ m).head? = some (byte '#')) := by
    rintro (h0 | h0) <;> cases h0
  rw [loadHistory, historyText, List.append_assoc, loadLines_formatLine, reads_historyComments,
    htext, hlines, loadLines, if_neg hskip] at h
  simp only [hsplit, Bool.true_eq_false, false_and, if_false] at h
  -- the first line opens an event, or the file is refused
  cases hev : loadEvent (str "EVENT" :: qs) with
  | none =>
      have hfirst : loadHistoryLine ⟨[], none⟩ (str "EVENT" :: qs)
          = (⟨[], none⟩, .rejected) := by
        delta loadHistoryLine
        simp [hev]
      rw [hfirst] at h
      cases h
  | some r =>
      have hfirst : loadHistoryLine ⟨[], none⟩ (str "EVENT" :: qs)
          = (⟨[], some r⟩, .accepted) := by
        delta loadHistoryLine
        simp [hev]
      rw [hfirst] at h
      simp only at h
      have hinv := loadLines_invariant (P := fun s : HistoryLoad => s.records ≠ [] ∨ s.pending ≠ none)
        (fun s parts hs _ => loadHistoryLine_begun hs parts) true
        (s := ⟨[], some r⟩) (.inr (by simp)) hls
      rcases hload : loadLines loadHistoryLine true ⟨[], some r⟩ ls with ⟨⟨recs, pending⟩, status⟩
      rw [hload] at h hinv
      cases pending with
      | some r' => cases h
      | none =>
          cases status with
          | accepted =>
              cases h
              exact hinv.resolve_right (by simp)
          | rejected => cases h
          | thrown => cases h

/-! ## §3. When a crash does no harm. -/

/-- A store without databases and events. -/
structure Blank (s : Store) : Prop where
  state : s.runtime.databases.entries = []
  history : s.versions.records = []

/-- The pair of files in the directory: what `Load` makes of it, and no log
without a state. -/
structure OnDisk (d : Directory) (old : Store) : Prop where
  loads : load d RuntimeState.empty VersionStore.empty = ⟨old.runtime, old.versions, .accepted⟩
  paired : d .state = none → d .history = none

/-- **Wherever `Save` is cut short, `Load` succeeds and finds the old pair or
the new one.** -/
def CrashSafe (d : Directory) (old new : Store) : Prop :=
  ∀ k, (load (crashed d new k) RuntimeState.empty VersionStore.empty).status = .accepted ∧
    (Restores old (load (crashed d new k) RuntimeState.empty VersionStore.empty).store ∨
      Restores new (load (crashed d new k) RuntimeState.empty VersionStore.empty).store)

theorem contents_eq_nil {s s' : RuntimeState} (h : s'.plain.contents = s.plain.contents) :
    s'.databases.entries = [] ↔ s.databases.entries = [] := by
  have hnil : ∀ s : RuntimeState, s.plain.contents.entries = [] ↔ s.databases.entries = [] := by
    intro s
    simp [RuntimeState.contents, RuntimeState.plain, Dict.mapVals]
  rw [← hnil, ← hnil, h]

theorem Restores.blank_state {s s' : Store} (h : Restores s s')
    (hs' : s'.runtime.databases.entries = []) : s.runtime.databases.entries = [] :=
  (contents_eq_nil h.state).mp hs'

theorem Restores.blank_history {s s' : Store} (h : Restores s s')
    (hs' : s'.versions.records = []) : s.versions.records = [] := by
  have := h.history
  rw [hs'] at this
  simpa using this.symm

/-- Two stores with empty states and the same log, or with the same state and
empty logs. -/
theorem restores_of_blank_state {s s' : Store} (hs : s.runtime.databases.entries = [])
    (hs' : s'.runtime.databases.entries = []) (hv : s'.versions.records = s.versions.records) :
    Restores s s' := by
  have hrt : s'.runtime = s.runtime := congrArg RuntimeState.mk (Dict.ext (hs'.trans hs.symm))
  exact ⟨by rw [hrt], by rw [hv]⟩

theorem loadFiles_none (history : Option Str) :
    loadFiles none history = ⟨RuntimeState.empty, VersionStore.empty, .accepted⟩ := rfl

/-- `Load` on a state file alone. -/
theorem loadFiles_state (text : Str) :
    loadFiles (some text) none
      = ⟨(loadLines loadStateLine false RuntimeState.empty (lines text)).1, VersionStore.empty,
          (loadLines loadStateLine false RuntimeState.empty (lines text)).2⟩ := by
  rw [loadFiles, load]
  simp only [if_true, show ¬ FileName.history = FileName.state by decide, if_false]
  rcases loadLines loadStateLine false RuntimeState.empty (lines text) with ⟨s', status⟩
  cases status <;> rfl

/-- `Load` on two files, with the state accepted. -/
theorem loadFiles_both {text history : Str} {s' : RuntimeState}
    (h : loadLines loadStateLine false RuntimeState.empty (lines text) = (s', .accepted)) :
    loadFiles (some text) (some history)
      = match loadHistory history with
        | none => ⟨s', VersionStore.empty, .rejected⟩
        | some records => ⟨s', ⟨records⟩, match validateRuntimeIndexConsistency s' with
            | .ok () => .accepted
            | .error _ => .rejected
            | .fault => .thrown⟩ := by
  rw [loadFiles, load]
  have hfiles : ¬ FileName.history = FileName.state := by decide
  simp only [if_true, hfiles, if_false, h]
  all_goals cases loadHistory history <;> rfl

/-- The parts of an accepting `Load`. -/
theorem loadFiles_accepted {text history : Str}
    (h : (loadFiles (some text) (some history)).status = .accepted) :
    ∃ s' records,
      loadLines loadStateLine false RuntimeState.empty (lines text) = (s', .accepted) ∧
      loadHistory history = some records ∧
      loadFiles (some text) (some history) = ⟨s', ⟨records⟩, .accepted⟩ := by
  rcases hl : loadLines loadStateLine false RuntimeState.empty (lines text) with ⟨s', status⟩
  cases status with
  | accepted =>
      rw [loadFiles_both hl] at h ⊢
      cases hh : loadHistory history with
      | none =>
          rw [hh] at h
          cases h
      | some records =>
          rw [hh] at h
          simp only at h
          exact ⟨s', records, rfl, rfl, by simp only [h]⟩
  | rejected =>
      rw [loadFiles, load] at h
      simp only [if_true, hl] at h
      cases h
  | thrown =>
      rw [loadFiles, load] at h
      simp only [if_true, hl] at h
      cases h

/-- `Load` on a new state file and the log of the old pair. -/
theorem OnDisk.loadFiles {d : Directory} {old : Store} (h : OnDisk d old) {text : Str}
    {s' : RuntimeState}
    (hs' : loadLines loadStateLine false RuntimeState.empty (lines text) = (s', .accepted))
    (hok : StateOk s') :
    loadFiles (some text) (d .history) = ⟨s', ⟨old.versions.records⟩, .accepted⟩ := by
  have hold := h.loads
  rw [load_eq_loadFiles] at hold
  cases hh : d .history with
  | none =>
      -- without a log file the old log is empty, whether there is a state or not
      have hv : VersionStore.empty = old.versions := by
        rw [hh] at hold
        cases hst : d .state with
        | none =>
            rw [hst, loadFiles_none] at hold
            exact congrArg Loaded.versions hold
        | some t =>
            rw [hst, loadFiles_state] at hold
            exact congrArg Loaded.versions hold
      rw [loadFiles_state, hs', hv]
  | some hist =>
      obtain ⟨t, hst⟩ : ∃ t, d .state = some t := by
        cases hst : d .state with
        | none => exact absurd (h.paired hst) (by simp [hh])
        | some t => exact ⟨t, rfl⟩
      rw [hst, hh] at hold
      obtain ⟨x, records, -, hrecords, heq⟩ :=
        loadFiles_accepted (congrArg Loaded.status hold)
      have hv : (⟨records⟩ : VersionStore) = old.versions :=
        congrArg Loaded.versions (heq.symm.trans hold)
      rw [loadFiles_both hs', hrecords]
      simp only [hok.validates, ← hv]

theorem stateSavable_of_nil {s : RuntimeState} (h : s.databases.entries = []) : StateSavable s := by
  intro p hp
  rw [h] at hp
  cases hp

theorem historySavable_of_nil {v : VersionStore} (h : v.records = []) : HistorySavable v := by
  intro r hr
  rw [h] at hr
  cases hr

/-- The file of an empty state. -/
theorem loadLines_blank {s : RuntimeState} (h : s.databases.entries = []) :
    loadLines loadStateLine false RuntimeState.empty (lines (stateText s))
      = (RuntimeState.empty, .accepted) := by
  rw [stateText, h, List.flatMap_nil, List.append_assoc, loadLines_formatLine]
  exact ((reads_stateComments _).append (reads_nil _)).finish

/-- A store whose state is the loaded one and whose log is empty, or whose log
is the loaded one and whose state is empty. -/
theorem restores_new {new : Store} (hok : StoreOk new) {s' : RuntimeState} (hok' : StateOk s')
    (hview : s'.view = new.runtime.plain.view) {records : List ChangeRecord}
    (hrecords : records = new.versions.records.map plainRecord) :
    Restores new (Loaded.store ⟨s', ⟨records⟩, .accepted⟩) :=
  restores_of_view hok.state hok' hview hrecords

/-- **`Save` survives every crash exactly when one of the two pairs is empty
and the other has an empty state or an empty log**, with no newline in what is
saved. -/
theorem save_crash_safe_iff {d : Directory} {old new : Store} (hdisk : OnDisk d old)
    (hok : StoreOk new) (hfits : StoreIdsFit new) :
    CrashSafe d old new ↔
      (Blank new ∧ (old.runtime.databases.entries = [] ∨ old.versions.records = [])) ∨
      (Blank old ∧ StoreSavable new ∧
        (new.runtime.databases.entries = [] ∨ new.versions.records = [])) := by
  have hold : loadFiles (d .state) (d .history) = ⟨old.runtime, old.versions, .accepted⟩ :=
    (load_eq_loadFiles d).symm.trans hdisk.loads
  unfold CrashSafe
  rw [forall_crash d new
      (fun l => l.status = .accepted ∧ (Restores old l.store ∨ Restores new l.store)), hold,
    loadFiles_none, loadFiles_state]
  constructor
  · rintro ⟨-, ⟨-, hempty⟩, h3, ⟨hacc5, h5⟩, hacc6, h6⟩
    rcases hempty with hempty | hempty
    · -- the old pair is empty: look at the new state alone, then at both files
      refine .inr ⟨⟨hempty.blank_state rfl, hempty.blank_history rfl⟩, ?_⟩
      obtain ⟨s', records, hl, hh, heq⟩ := loadFiles_accepted hacc6
      rw [hl] at h5
      have hstate : new.runtime.databases.entries = [] ∨
          (new.versions.records = [] ∧ StateSavable new.runtime) := by
        rcases h5 with h5 | h5
        · have hs' : s'.databases.entries = [] :=
            (contents_eq_nil h5.state).mpr (hempty.blank_state rfl)
          refine .inl (not_not.mp fun hne => ?_)
          have := loaded_ne_nil hne
          rw [hl] at this
          exact this hs'
        · have hloaded := stateSavable_loaded (stateText new.runtime)
          rw [hl] at hloaded
          exact .inr ⟨h5.blank_history rfl,
            stateSavable_congr (view_eq_of_contents_eq h5.state) hloaded⟩
      rcases hstate with hstate | ⟨hversions, hsave⟩
      · refine ⟨⟨stateSavable_of_nil hstate, ?_⟩, .inl hstate⟩
        rw [heq] at h6
        rcases h6 with h6 | h6
        · have hrecords : records = [] := by
            have := h6.history
            rw [hempty.blank_history rfl] at this
            simpa [Loaded.store] using this
          refine historySavable_of_nil (not_not.mp fun hne => ?_)
          exact loadHistory_ne_nil hne hh hrecords
        · exact historySavable_congr h6.history (historySavable_loaded hh)
      · exact ⟨⟨hsave, historySavable_of_nil hversions⟩, .inr hversions⟩
    · -- the new pair is empty: look at its state file beside the old log
      have hnew : Blank new := ⟨hempty.blank_state rfl, hempty.blank_history rfl⟩
      refine .inl ⟨hnew, ?_⟩
      rw [hdisk.loadFiles (loadLines_blank hnew.state) stateOk_empty] at h3
      rcases h3.2 with h3 | h3
      · exact .inl (h3.blank_state rfl)
      · refine .inr ?_
        have := h3.history
        rw [hnew.history] at this
        simpa [Loaded.store] using this
  · have hrefl : ∀ s : Store, Restores s s := fun s => ⟨rfl, rfl⟩
    rintro (⟨hnew, hone⟩ | ⟨hblank, hsave, hone⟩)
    · -- an empty pair is saved
      have hl := loadLines_blank hnew.state
      have hh := loadHistory_historyText hfits.history (historySavable_of_nil hnew.history)
      rw [hdisk.loadFiles hl stateOk_empty, loadFiles_both hl, hh, hl]
      have hr : ∀ v : VersionStore, v.records = [] →
          Restores new (Loaded.store ⟨RuntimeState.empty, v, .accepted⟩) := fun v hv =>
        restores_of_blank_state hnew.state rfl (hv.trans hnew.history.symm)
      refine ⟨⟨rfl, .inl (hrefl old)⟩, ⟨rfl, .inr (hr _ rfl)⟩, ⟨rfl, ?_⟩, ⟨rfl, .inr (hr _ rfl)⟩, ?_⟩
      · rcases hone with hone | hone
        · exact .inl (restores_of_blank_state hone rfl rfl)
        · exact .inr (hr _ hone)
      · simp only [stateOk_empty.validates, true_and]
        exact .inr (hr _ (by simp [hnew.history]))
    · -- the first pair is saved
      obtain ⟨s', hl, hok', hview⟩ := loadLines_stateText hok.state hfits.state hsave.state
      have hh := loadHistory_historyText hfits.history hsave.history
      rw [hdisk.loadFiles hl hok', loadFiles_both hl, hh, hl]
      have hnil : ∀ records : List ChangeRecord, records = [] →
          Restores old (Loaded.store ⟨s', ⟨records⟩, .accepted⟩) ∨
            Restores new (Loaded.store ⟨s', ⟨records⟩, .accepted⟩) := by
        intro records hrecords
        rcases hone with hone | hone
        · have hs' : s'.databases.entries = [] := by
            have hb := loadLines_blank hone
            rw [hl] at hb
            rw [(Prod.mk.inj hb).1]
            rfl
          exact .inl (restores_of_blank_state hblank.state hs' (hrecords.trans hblank.history.symm))
        · exact .inr (restores_new hok hok' hview (by rw [hrecords, hone]; rfl))
      refine ⟨⟨rfl, .inl (hrefl old)⟩, ⟨rfl, .inl ?_⟩, ⟨rfl, hnil _ hblank.history⟩,
        ⟨rfl, hnil _ rfl⟩, ?_⟩
      · exact restores_of_blank_state hblank.state rfl hblank.history.symm
      · simp only [hok'.validates, true_and]
        exact .inr (restores_new hok hok' hview rfl)

set_option maxRecDepth 4000 in
theorem save_crash_safe_first :
    OnDisk Directory.empty Store.empty ∧ StoreOk sampleRun.1.store ∧
      StoreIdsFit sampleRun.1.store ∧
      (CrashSafe Directory.empty Store.empty sampleRun.1.store ↔
        (Blank sampleRun.1.store ∧ (Store.empty.runtime.databases.entries = [] ∨
          Store.empty.versions.records = [])) ∨
        (Blank Store.empty ∧ StoreSavable sampleRun.1.store ∧
          (sampleRun.1.store.runtime.databases.entries = [] ∨
            sampleRun.1.store.versions.records = []))) := by
  have hdisk : OnDisk Directory.empty Store.empty := ⟨rfl, fun _ => rfl⟩
  have hok : StoreOk sampleRun.1.store := (reachable_ok reachable_sampleRun).committed
  have hfits : StoreIdsFit sampleRun.1.store := by decide +kernel
  exact ⟨hdisk, hok, hfits, save_crash_safe_iff hdisk hok hfits⟩

/-- The sample with one more row. -/
def grownRun : DbmsEngine × SessionContext :=
  runTexts sampleEnv Io.good sampleRun.1 sampleRun.2
    [str "INSERT INTO t (k, v) VALUES (3, \"z\");"]

set_option maxRecDepth 4000 in
/-- Between removing the old state file and moving the new one in its place
there is none, and `Load` starts from nothing. -/
theorem crash_before_rename_loses_all :
    OnDisk sampleRun.1.disk
        (load sampleRun.1.disk RuntimeState.empty VersionStore.empty).store ∧
      StoreOk grownRun.1.store ∧
      ¬ CrashSafe sampleRun.1.disk
        (load sampleRun.1.disk RuntimeState.empty VersionStore.empty).store grownRun.1.store := by
  have hstatus : (load sampleRun.1.disk RuntimeState.empty VersionStore.empty).status
      = .accepted := by decide +kernel
  have hfiles : (sampleRun.1.disk .state).isSome = true := by decide +kernel
  have hreach : Reachable grownRun.1 := reachable_runTexts sampleEnv Io.good reachable_sampleRun _ _
  refine ⟨⟨?_, ?_⟩, (reachable_ok hreach).committed, ?_⟩
  · rcases hl : load sampleRun.1.disk RuntimeState.empty VersionStore.empty with ⟨s', v', status⟩
    rw [hl] at hstatus
    rw [show status = .accepted from hstatus]
    rfl
  · intro hnone
    rw [hnone] at hfiles
    cases hfiles
  · intro hsafe
    have h2 := (hsafe 2).2
    have hnone : load (crashed sampleRun.1.disk grownRun.1.store 2) RuntimeState.empty
        VersionStore.empty = ⟨RuntimeState.empty, VersionStore.empty, .accepted⟩ := by
      rw [load_eq_loadFiles,
        show crashed sampleRun.1.disk grownRun.1.store 2 .state = none from rfl, loadFiles_none]
    rw [hnone] at h2
    rcases h2 with h2 | h2
    · exact absurd (h2.blank_state rfl) (by decide +kernel)
    · exact absurd (h2.blank_state rfl) (by decide +kernel)

end CustomDbms.Core
