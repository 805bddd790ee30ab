/-
  CustomDbms.Common.TextCodec
  ───────────────────────────
  **LINES AND ESCAPED FIELDS** (`Escape`, `Unescape`, `SplitByTab` of
  `src/core/{wal_manager,runtime_persistence}.cpp`; `std::getline`).

  The same three functions stand once more in `src/network/protocol.cpp` and
  `src/catalog/rbac.cpp` (`EscapeField`, `UnescapeField`) and in
  `src/server/entrypoint.cpp` (`EscapeClusterField`, `UnescapeClusterField`).
  `Escape` puts a backslash in front of backslash, tab and newline and keeps
  the byte itself, so an escaped newline still ends a line of a file.

    • `splitByTab_intercalate` — a line built from parts is split into them;
    • `escapedFields_roundTrip` — escaped fields through a line and back.
-/
import CustomDbms.Common.Types

namespace CustomDbms.Common

/-- The byte that ends a line. -/
def newline : Byte := byte '\n'

/-- The byte between fields. -/
def tab : Byte := byte '\t'

/-- The escape byte. -/
def backslash : Byte := byte '\\'

/-- The bytes `Escape` marks. -/
def needsEscape (c : Byte) : Bool := c = backslash || c = tab || c = newline

/-- `Escape`. -/
def escape : Str → Str
  | [] => []
  | c :: cs => if needsEscape c then backslash :: c :: escape cs else c :: escape cs

/-- The loop of `Unescape`, with its flag. -/
def unescapeFrom : Bool → Str → Str
  | _, [] => []
  | true, c :: cs => c :: unescapeFrom false cs
  | false, c :: cs => if c = backslash then unescapeFrom true cs else c :: unescapeFrom false cs

/-- `Unescape`. -/
def unescape (s : Str) : Str := unescapeFrom false s

/-- The loop of `SplitByTab`, with its flag and the current part. -/
def splitFrom : Bool → Str → Str → List Str
  | _, current, [] => [current]
  | true, current, c :: cs => splitFrom false (current ++ [c]) cs
  | false, current, c :: cs =>
      if c = backslash then splitFrom true (current ++ [c]) cs
      else if c = tab then current :: splitFrom false [] cs
      else splitFrom false (current ++ [c]) cs

/-- `SplitByTab`. -/
def splitByTab (line : Str) : List Str := splitFrom false [] line

/-- The lines `std::getline` reads from a text. -/
def lines : Str → List Str
  | [] => []
  | c :: cs =>
      if c = newline then [] :: lines cs
      else
        match lines cs with
        | [] => [[c]]
        | l :: ls => (c :: l) :: ls

/-- `text.rfind(start, 0) == 0`, with the rest of the text. -/
def stripStart : Str → Str → Option Str
  | [], s => some s
  | _ :: _, [] => none
  | a :: as, b :: bs => if a = b then stripStart as bs else none

/-! ## §1. Lines. -/

@[simp] theorem lines_nil : lines [] = [] := rfl

/-- **A line comes back as it was written**, if it holds no newline. -/
theorem lines_append {l : Str} (h : newline ∉ l) (rest : Str) :
    lines (l ++ newline :: rest) = l :: lines rest := by
  induction l with
  | nil => simp [lines]
  | cons c l ih =>
      have hc : c ≠ newline := by rintro rfl; exact h (by simp)
      rw [List.cons_append, lines, if_neg hc, ih fun hl => h (by simp [hl])]

/-- What stands before the first newline is the front of the first line. -/
theorem lines_front {l : Str} (h : newline ∉ l) {rest : Str} (hrest : rest ≠ []) :
    ∃ m ls, lines (l ++ rest) = (l ++ m) :: ls := by
  induction l with
  | nil =>
      cases rest with
      | nil => exact absurd rfl hrest
      | cons c cs =>
          rw [List.nil_append, lines]
          split
          · exact ⟨[], _, rfl⟩
          · cases lines cs with
            | nil => exact ⟨[c], [], rfl⟩
            | cons m ls => exact ⟨c :: m, ls, rfl⟩
  | cons c l ih =>
      have hc : c ≠ newline := by rintro rfl; exact h (by simp)
      obtain ⟨m, ls, hl⟩ := ih fun hl => h (by simp [hl])
      exact ⟨m, ls, by rw [List.cons_append, lines, if_neg hc, hl]; rfl⟩

/-- No line holds a newline. -/
theorem newline_not_mem_of_mem_lines {s l : Str} (h : l ∈ lines s) : newline ∉ l := by
  induction s generalizing l with
  | nil => cases h
  | cons c cs ih =>
      rw [lines] at h
      split at h
      · rcases List.mem_cons.mp h with rfl | h
        · simp
        · exact ih h
      · rename_i hc
        cases hcs : lines cs with
        | nil =>
            rw [hcs] at h
            simp only [List.mem_singleton] at h
            subst h
            simpa using Ne.symm hc
        | cons m ls =>
            rw [hcs] at h ih
            rcases List.mem_cons.mp h with rfl | h
            · have := ih (List.mem_cons_self ..)
              simp [this, Ne.symm hc]
            · exact ih (List.mem_cons_of_mem _ h)

/-! ## §2. Escaped fields. -/

theorem unescapeFrom_escape (s : Str) : unescapeFrom false (escape s) = s := by
  induction s with
  | nil => rfl
  | cons c s ih =>
      rw [escape]
      split
      · simp [unescapeFrom, ih]
      · rename_i hc
        have : c ≠ backslash := by rintro rfl; exact hc rfl
        simp [unescapeFrom, this, ih]

/-- **`Unescape` undoes `Escape`.** -/
@[simp] theorem unescape_escape (s : Str) : unescape (escape s) = s := unescapeFrom_escape s

/-- `Escape` adds backslashes only. -/
theorem mem_escape {s : Str} {c : Byte} (h : c ∈ escape s) : c = backslash ∨ c ∈ s := by
  induction s with
  | nil => cases h
  | cons d s ih =>
      rw [escape] at h
      split at h
      · simp only [List.mem_cons] at h ⊢
        tauto
      · simp only [List.mem_cons] at h ⊢
        tauto

/-- `Unescape` adds nothing. -/
theorem mem_of_mem_unescapeFrom {b : Bool} {s : Str} {c : Byte} (h : c ∈ unescapeFrom b s) :
    c ∈ s := by
  induction s generalizing b with
  | nil => cases b <;> cases h
  | cons d s ih =>
      cases b with
      | true =>
          rw [unescapeFrom] at h
          rcases List.mem_cons.mp h with rfl | h
          · simp
          · exact List.mem_cons_of_mem _ (ih h)
      | false =>
          rw [unescapeFrom] at h
          split at h
          · exact List.mem_cons_of_mem _ (ih h)
          · rcases List.mem_cons.mp h with rfl | h
            · simp
            · exact List.mem_cons_of_mem _ (ih h)

theorem newline_not_mem_escape {s : Str} (h : newline ∉ s) : newline ∉ escape s := by
  intro hm
  rcases mem_escape hm with hb | hs
  · exact absurd hb (by decide)
  · exact h hs

/-! ## §3. Parts between tabs. -/

/-- A text `SplitByTab` reads through without ending the part. -/
def Unbroken (s : Str) : Prop :=
  ∀ current rest, splitFrom false current (s ++ rest) = splitFrom false (current ++ s) rest

theorem unbroken_plain {s : Str} (hb : backslash ∉ s) (ht : tab ∉ s) : Unbroken s := by
  intro current rest
  induction s generalizing current with
  | nil => simp
  | cons c s ih =>
      have hcb : c ≠ backslash := by rintro rfl; exact hb (by simp)
      have hct : c ≠ tab := by rintro rfl; exact ht (by simp)
      rw [List.cons_append, splitFrom, if_neg hcb, if_neg hct,
        ih (fun h => hb (by simp [h])) (fun h => ht (by simp [h]))]
      simp

theorem Unbroken.append {s t : Str} (hs : Unbroken s) (ht : Unbroken t) : Unbroken (s ++ t) := by
  intro current rest
  rw [List.append_assoc, hs, ht, List.append_assoc]

theorem unbroken_escape (s : Str) : Unbroken (escape s) := by
  intro current rest
  induction s generalizing current with
  | nil => simp [escape]
  | cons c s ih =>
      rw [escape]
      split
      · rw [List.cons_append, splitFrom, if_pos rfl, List.cons_append, splitFrom, ih]
        simp
      · rename_i hc
        have hcb : c ≠ backslash := by rintro rfl; exact hc rfl
        have hct : c ≠ tab := by rintro rfl; exact hc rfl
        rw [List.cons_append, splitFrom, if_neg hcb, if_neg hct, ih]
        simp

/-- **`SplitByTab` finds the parts a line was built from.** -/
theorem splitByTab_intercalate {p : Str} {ps : List Str} (h : ∀ q ∈ p :: ps, Unbroken q) :
    splitByTab ([tab].intercalate (p :: ps)) = p :: ps := by
  have key : ∀ (ps : List Str) (p current : Str), (∀ q ∈ p :: ps, Unbroken q) →
      splitFrom false current ([tab].intercalate (p :: ps)) = (current ++ p) :: ps := by
    intro ps
    induction ps with
    | nil =>
        intro p current h
        have := h p (by simp) current []
        simpa [splitFrom, List.intercalate] using this
    | cons q ps ih =>
        intro p current h
        have hp := h p (by simp) current ([tab] ++ [tab].intercalate (q :: ps))
        rw [List.intercalate_cons_cons, List.append_assoc, hp, List.cons_append, List.nil_append,
          splitFrom, if_neg (by decide), if_pos rfl]
        rw [ih q [] fun x hx => h x (List.mem_cons_of_mem _ hx)]
        rfl
  exact key ps p [] h

/-- **Escaped fields come back from a line.** -/
theorem escapedFields_roundTrip :
    (∀ (f : Str) (fs : List Str),
      splitByTab ([tab].intercalate ((f :: fs).map escape)) = (f :: fs).map escape ∧
      (splitByTab ([tab].intercalate ((f :: fs).map escape))).map unescape = f :: fs) ∧
    ∀ f : Str, unescape (escape f) = f := by
  refine ⟨fun f fs => ?_, unescape_escape⟩
  have hsplit : splitByTab ([tab].intercalate ((f :: fs).map escape)) = (f :: fs).map escape := by
    refine splitByTab_intercalate fun p hp => ?_
    obtain ⟨g, -, rfl⟩ := List.mem_map.mp (show p ∈ (f :: fs).map escape from hp)
    exact unbroken_escape g
  refine ⟨hsplit, ?_⟩
  rw [hsplit, List.map_map]
  exact List.map_id'' unescape_escape _

/-- The first part of a line. -/
theorem splitByTab_front {p : Str} (h : Unbroken p) (rest : Str) :
    splitByTab (p ++ tab :: rest) = p :: splitByTab rest := by
  have := h [] (tab :: rest)
  rw [splitByTab, this, splitFrom, if_neg (by decide), if_pos rfl]
  rfl

/-- `SplitByTab` adds nothing to the text. -/
theorem mem_of_mem_splitFrom {b : Bool} {current s p : Str} {c : Byte}
    (hp : p ∈ splitFrom b current s) (hc : c ∈ p) : c ∈ current ++ s := by
  induction s generalizing b current with
  | nil =>
      cases b <;> simp only [splitFrom, List.mem_singleton] at hp <;> simpa [← hp] using hc
  | cons d s ih =>
      cases b with
      | true =>
          rw [splitFrom] at hp
          simpa using ih hp
      | false =>
          rw [splitFrom] at hp
          split at hp
          · simpa using ih hp
          · split at hp
            · rcases List.mem_cons.mp hp with rfl | hp
              · simp [hc]
              · have := ih hp
                simp only [List.nil_append] at this
                simp [this]
            · simpa using ih hp

theorem newline_not_mem_of_mem_splitByTab {line p : Str} (h : newline ∉ line)
    (hp : p ∈ splitByTab line) : newline ∉ p := by
  intro hn
  exact h (by simpa using mem_of_mem_splitFrom hp hn)

/-! ## §4. Tags. -/

theorem stripStart_append (a b : Str) : stripStart a (a ++ b) = some b := by
  induction a with
  | nil => rfl
  | cons c a ih => simp [stripStart, ih]

/-- **What is left is what stands behind the tag.** -/
theorem stripStart_eq_some {a s rest : Str} : stripStart a s = some rest ↔ s = a ++ rest := by
  constructor
  · intro h
    induction a generalizing s with
    | nil =>
        cases h
        rfl
    | cons c a ih =>
        cases s with
        | nil => cases h
        | cons d s =>
            rw [stripStart] at h
            split at h
            · rename_i hcd
              rw [hcd, ih h, List.cons_append]
            · cases h
  · intro h
    rw [h, stripStart_append]

theorem stripStart_eq_none {a s : Str} : stripStart a s = none ↔ ¬ a <+: s := by
  rw [Option.eq_none_iff_forall_ne_some]
  constructor
  · rintro h ⟨rest, rfl⟩
    exact h rest (stripStart_append a rest)
  · intro h rest hs
    exact h ⟨rest, (stripStart_eq_some.mp hs).symm⟩

theorem newline_not_mem_of_stripStart {a s rest : Str} (h : newline ∉ s)
    (hs : stripStart a s = some rest) : newline ∉ rest := by
  rw [stripStart_eq_some.mp hs] at h
  intro hm
  exact h (List.mem_append_right a hm)

/-! ## §5. Lines of parts. -/

/-- A part of a line: it ends neither the line nor itself. -/
structure Part (p : Str) : Prop where
  oneLine : newline ∉ p
  unbroken : Unbroken p

theorem newline_not_mem_intercalate {ps : List Str} (h : ∀ p ∈ ps, newline ∉ p) :
    newline ∉ [tab].intercalate ps := by
  induction ps with
  | nil => simp [List.intercalate]
  | cons p ps ih =>
      have hps := ih fun q hq => h q (by simp [hq])
      cases ps with
      | nil => simpa [List.intercalate] using h p (by simp)
      | cons q ps =>
          rw [List.intercalate_cons_cons]
          intro hm
          have ht : newline ≠ tab := by decide
          simp only [List.mem_append, List.mem_singleton] at hm
          rcases hm with (hm | hm) | hm
          · exact h p (by simp) hm
          · exact ht hm
          · exact hps hm

/-- A byte without a meaning in a line of parts. -/
def plainByte (c : Byte) : Bool := !(c = newline || c = backslash || c = tab)

/-- A constant. -/
theorem part_plain {p : Str} (h : p.all plainByte = true) : Part p := by
  have hmem : ∀ c, plainByte c = false → c ∉ p := by
    intro c hc hm
    have := List.all_eq_true.mp h c hm
    rw [hc] at this
    cases this
  exact ⟨hmem _ (by decide), unbroken_plain (hmem _ (by decide)) (hmem _ (by decide))⟩

theorem Part.append {p q : Str} (hp : Part p) (hq : Part q) : Part (p ++ q) :=
  ⟨fun hm => (List.mem_append.mp hm).elim hp.oneLine hq.oneLine, hp.unbroken.append hq.unbroken⟩

theorem part_escape {s : Str} (h : newline ∉ s) : Part (escape s) :=
  ⟨newline_not_mem_escape h, unbroken_escape s⟩

/-- A byte that is no hexadecimal digit. -/
theorem not_mem_hexPadded {c : Byte} (hc : ∀ m < 16, hexDigit m ≠ c) (width n : Nat) :
    c ∉ hexPadded width n := by
  induction width generalizing n with
  | zero => simp [hexPadded]
  | succ width ih =>
      have hdigit : hexDigit n ≠ c := by
        have hmod : hexDigit n = hexDigit (n % 16) := by simp [hexDigit]
        rw [hmod]
        exact hc _ (Nat.mod_lt _ (by omega))
      rw [hexPadded, List.mem_append, List.mem_singleton]
      rintro (hm | hm)
      · exact ih _ hm
      · exact hdigit hm.symm

/-- **A line of parts is split into them.** -/
theorem line_of_parts {p : Str} {ps : List Str} (h : ∀ q ∈ p :: ps, Part q) :
    newline ∉ [tab].intercalate (p :: ps) ∧
      splitByTab ([tab].intercalate (p :: ps)) = p :: ps :=
  ⟨newline_not_mem_intercalate fun q hq => (h q hq).oneLine,
    splitByTab_intercalate fun q hq => (h q hq).unbroken⟩

end CustomDbms.Common
