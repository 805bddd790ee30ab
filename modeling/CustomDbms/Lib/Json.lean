/-
  CustomDbms.Lib.Json
  ───────────────────
  **JSON TEXTS** (RFC 8259), read octet by octet.

  A JSON text is UTF-8 (RFC 3629) and derives from the grammar of RFC 8259.
  Outside ASCII a string takes every character as it is, so once the whole text
  is known to be UTF-8 the grammar is a grammar of octets.  The reader follows
  its productions; it bounds the depth of nesting, and `Reads` is the reader
  with some bound.

      value  = false / null / true / object / array / number / string
      array  = begin-array [ value *( value-separator value ) ] end-array
      object = begin-object [ member *( value-separator member ) ] end-object
      member = string name-separator value

  Members keep their order, and a name may come twice.

    • `isUtf8_split`        — UTF-8 can be checked piece by piece at ASCII;
    • `readList_intercalate` — a list written with `, ` reads item by item;
    • `Reads.unique`        — a text has one value.
-/
import Mathlib.Algebra.GroupWithZero.Nat
import Mathlib.Data.List.Basic
import Mathlib.Order.Fin.Basic
import Mathlib.Tactic.Common

namespace CustomDbms.Lib

/-- An octet. -/
abbrev Octet := Fin 256

local instance octetNeZero : NeZero 256 := ⟨by decide⟩

/-! ## §1. UTF-8. -/

/-- `UTF8-tail`. -/
def utf8Tail : Octet × Octet := (0x80, 0xBF)

/-- The octets asked for after the first octet of a character, as ranges: the
alternatives of `UTF8-char`. -/
def utf8Tails (c : Octet) : Option (List (Octet × Octet)) :=
  if c ≤ 0x7F then some []
  else if 0xC2 ≤ c ∧ c ≤ 0xDF then some [utf8Tail]
  else if c = 0xE0 then some [(0xA0, 0xBF), utf8Tail]
  else if 0xE1 ≤ c ∧ c ≤ 0xEC then some [utf8Tail, utf8Tail]
  else if c = 0xED then some [(0x80, 0x9F), utf8Tail]
  else if 0xEE ≤ c ∧ c ≤ 0xEF then some [utf8Tail, utf8Tail]
  else if c = 0xF0 then some [(0x90, 0xBF), utf8Tail, utf8Tail]
  else if 0xF1 ≤ c ∧ c ≤ 0xF3 then some [utf8Tail, utf8Tail, utf8Tail]
  else if c = 0xF4 then some [(0x80, 0x8F), utf8Tail, utf8Tail]
  else none

/-- One octet: it begins a character or it is the next one asked for. -/
def utf8Step (c : Octet) : List (Octet × Octet) → Option (List (Octet × Octet))
  | [] => utf8Tails c
  | (lo, hi) :: asked => if lo ≤ c ∧ c ≤ hi then some asked else none

/-- The octets still asked for at the end of a text. -/
def utf8Scan : List (Octet × Octet) → List Octet → Option (List (Octet × Octet))
  | asked, [] => some asked
  | asked, c :: s => (utf8Step c asked).bind fun asked' => utf8Scan asked' s

/-- `UTF8-octets`. -/
def isUtf8 (s : List Octet) : Bool := decide (utf8Scan [] s = some [])

theorem utf8Scan_append (asked : List (Octet × Octet)) (s t : List Octet) :
    utf8Scan asked (s ++ t) = (utf8Scan asked s).bind fun asked' => utf8Scan asked' t := by
  induction s generalizing asked with
  | nil => rfl
  | cons c s ih =>
      show (utf8Step c asked).bind (fun asked' => utf8Scan asked' (s ++ t)) = _
      simp only [ih, utf8Scan, Option.bind_assoc]

/-- What is asked for lies outside ASCII. -/
def Asked (asked : List (Octet × Octet)) : Prop := ∀ r ∈ asked, 0x7F < r.1

/-- The first octet of a character asks only for octets outside ASCII. -/
theorem asked_of_utf8Tails {c : Octet} {asked : List (Octet × Octet)}
    (h : utf8Tails c = some asked) : Asked asked := by
  unfold utf8Tails at h
  split_ifs at h <;> cases h <;> simp [Asked, utf8Tail]

theorem Asked.step {asked asked' : List (Octet × Octet)} {c : Octet} (h : Asked asked)
    (hstep : utf8Step c asked = some asked') : Asked asked' := by
  cases asked with
  | nil => exact asked_of_utf8Tails hstep
  | cons r asked =>
      obtain ⟨lo, hi⟩ := r
      rw [utf8Step] at hstep
      split at hstep
      · cases hstep
        exact fun r hr => h r (by simp [hr])
      · cases hstep

theorem Asked.scan {asked asked' : List (Octet × Octet)} {s : List Octet} (h : Asked asked)
    (hscan : utf8Scan asked s = some asked') : Asked asked' := by
  induction s generalizing asked with
  | nil => cases hscan; exact h
  | cons c s ih =>
      obtain ⟨next, hstep, hrest⟩ := Option.bind_eq_some_iff.mp hscan
      exact ih (h.step hstep) hrest

/-- An ASCII octet stands between characters. -/
theorem utf8Step_ascii {asked : List (Octet × Octet)} {c : Octet} (h : Asked asked)
    (hc : c ≤ 0x7F) : utf8Step c asked = if asked = [] then some [] else none := by
  cases asked with
  | nil => simp [utf8Step, utf8Tails, hc]
  | cons r asked =>
      have hlow : ¬ r.1 ≤ c := not_le.mpr (lt_of_le_of_lt hc (h r (by simp)))
      obtain ⟨lo, hi⟩ := r
      rw [utf8Step, if_neg fun hin => hlow hin.1, if_neg (by simp)]

/-- **UTF-8 piece by piece**, at an ASCII octet. -/
theorem isUtf8_split {c : Octet} (hc : c ≤ 0x7F) (s t : List Octet) :
    isUtf8 (s ++ c :: t) = (isUtf8 s && isUtf8 t) := by
  have hnil : Asked [] := by simp [Asked]
  unfold isUtf8
  rw [utf8Scan_append]
  cases hs : utf8Scan [] s with
  | none => simp
  | some asked =>
      rw [Option.bind_some, utf8Scan, utf8Step_ascii (hnil.scan hs) hc]
      by_cases hasked : asked = []
      · simp [hasked]
      · simp [hasked]

theorem isUtf8_cons {c : Octet} (hc : c ≤ 0x7F) (t : List Octet) :
    isUtf8 (c :: t) = isUtf8 t := by
  have h := isUtf8_split hc [] t
  rw [List.nil_append] at h
  rw [h]
  rfl

theorem isUtf8_concat {c : Octet} (hc : c ≤ 0x7F) (s : List Octet) :
    isUtf8 (s ++ [c]) = isUtf8 s := by
  rw [isUtf8_split hc]
  exact Bool.and_true _

theorem isUtf8_ascii {s : List Octet} (h : ∀ c ∈ s, c ≤ 0x7F) : isUtf8 s = true := by
  induction s with
  | nil => rfl
  | cons c s ih =>
      rw [isUtf8_cons (h c (by simp))]
      exact ih fun d hd => h d (by simp [hd])

/-- A list written with an ASCII separator is UTF-8 where every item is. -/
theorem isUtf8_intercalate {c : Octet} {sep : List Octet} (hc : c ≤ 0x7F)
    (hsep : ∀ d ∈ sep, d ≤ 0x7F) (texts : List (List Octet)) :
    isUtf8 ((c :: sep).intercalate texts) = texts.all isUtf8 := by
  induction texts with
  | nil => rfl
  | cons t ts ih =>
      cases ts with
      | nil => simp
      | cons t' ts =>
          have hrest : ∀ (sep rest : List Octet), (∀ d ∈ sep, d ≤ 0x7F) →
              isUtf8 (sep ++ rest) = isUtf8 rest := by
            intro sep rest hsep
            induction sep with
            | nil => rfl
            | cons d sep ihs =>
                rw [List.cons_append, isUtf8_cons (hsep d (by simp))]
                exact ihs fun x hx => hsep x (by simp [hx])
          rw [List.intercalate_cons_cons, List.append_assoc, List.cons_append, isUtf8_split hc,
            hrest _ _ hsep, ih]
          rfl

/-! ## §2. Values and their texts. -/

/-- A JSON value; a number is `mantissa · 10 ^ exponent`. -/
inductive Json where
  | null
  | bool (b : Bool)
  | number (mantissa exponent : Int)
  | string (s : List Octet)
  | array (values : List Json)
  | object (members : List (List Octet × Json))

namespace Json

def comma : Octet := 0x2C
def colon : Octet := 0x3A
def quote : Octet := 0x22
def reverseSolidus : Octet := 0x5C
def beginArray : Octet := 0x5B
def endArray : Octet := 0x5D
def beginObject : Octet := 0x7B
def endObject : Octet := 0x7D

/-- `ws`. -/
def isWs (c : Octet) : Bool := c = 0x20 || c = 0x09 || c = 0x0A || c = 0x0D

/-- `ws`, skipped. -/
def skipWs (s : List Octet) : List Octet := s.dropWhile isWs

/-- `DIGIT`. -/
def isDigit (c : Octet) : Bool := 0x30 ≤ c && c ≤ 0x39

/-- The number with these digits. -/
def digitsValue (ds : List Octet) : Nat := ds.foldl (fun n d => n * 10 + (d.val - 0x30)) 0

/-- `null`, `true` or `false`. -/
def readLiteral (s : List Octet) : Option (Json × List Octet) :=
  if [0x6E, 0x75, 0x6C, 0x6C].isPrefixOf s then some (.null, s.drop 4)
  else if [0x74, 0x72, 0x75, 0x65].isPrefixOf s then some (.bool true, s.drop 4)
  else if [0x66, 0x61, 0x6C, 0x73, 0x65].isPrefixOf s then some (.bool false, s.drop 5)
  else none

/-! ## §3. Numbers. -/

/-- `1*DIGIT`. -/
def readDigits (s : List Octet) : Option (List Octet × List Octet) :=
  if s.takeWhile isDigit = [] then none else some (s.takeWhile isDigit, s.dropWhile isDigit)

/-- `int = zero / ( digit1-9 *DIGIT )`. -/
def readInt : List Octet → Option (List Octet × List Octet)
  | [] => none
  | c :: s => if c = 0x30 then some ([c], s) else readDigits (c :: s)

/-- `[ frac ]`. -/
def readFrac : List Octet → Option (List Octet × List Octet)
  | [] => some ([], [])
  | c :: s => if c = 0x2E then readDigits s else some ([], c :: s)

/-- `[ minus / plus ] 1*DIGIT`. -/
def readSigned : List Octet → Option (Int × List Octet)
  | [] => none
  | c :: s =>
      if c = 0x2D then (readDigits s).map fun p => (-(digitsValue p.1 : Int), p.2)
      else (readDigits (if c = 0x2B then s else c :: s)).map fun p => (digitsValue p.1, p.2)

/-- `[ exp ]`. -/
def readExp : List Octet → Option (Int × List Octet)
  | [] => some (0, [])
  | c :: s => if c = 0x65 ∨ c = 0x45 then readSigned s else some (0, c :: s)

/-- `int [ frac ] [ exp ]`. -/
def readUnsigned (s : List Octet) : Option (Nat × Int × List Octet) := do
  let (int, s) ← readInt s
  let (frac, s) ← readFrac s
  let (exp, s) ← readExp s
  return (digitsValue (int ++ frac), exp - frac.length, s)

/-- `number = [ minus ] int [ frac ] [ exp ]`. -/
def readNumber : List Octet → Option (Json × List Octet)
  | [] => none
  | c :: s =>
      if c = 0x2D then (readUnsigned s).map fun p => (.number (-(p.1 : Int)) p.2.1, p.2.2)
      else (readUnsigned (c :: s)).map fun p => (.number p.1 p.2.1, p.2.2)

/-! ## §4. Strings. -/

/-- What one `char` gives: an octet, or a code unit of a `\uXXXX`. -/
inductive StringItem where
  | octet (c : Octet)
  | unit (u : Nat)

/-- `HEXDIG`, in either case. -/
def hexValue (c : Octet) : Option Nat :=
  if isDigit c then some (c.val - 0x30)
  else if 0x41 ≤ c ∧ c ≤ 0x46 then some (c.val - 0x37)
  else if 0x61 ≤ c ∧ c ≤ 0x66 then some (c.val - 0x57)
  else none

/-- `4HEXDIG`. -/
def hexUnit (a b c d : Octet) : Option Nat := do
  let a ← hexValue a
  let b ← hexValue b
  let c ← hexValue c
  let d ← hexValue d
  return ((a * 16 + b) * 16 + c) * 16 + d

/-- The octet an escape of one letter stands for. -/
def escapedOctet (e : Octet) : Option Octet :=
  if e = quote ∨ e = reverseSolidus ∨ e = 0x2F then some e
  else if e = 0x62 then some 0x08
  else if e = 0x66 then some 0x0C
  else if e = 0x6E then some 0x0A
  else if e = 0x72 then some 0x0D
  else if e = 0x74 then some 0x09
  else none

/-- `*char quotation-mark`, behind the quotation mark that opens the string. -/
def readChars : List Octet → Option (List StringItem × List Octet)
  | [] => none
  | c :: s =>
      if c = quote then some ([], s)
      else if c = reverseSolidus then
        match s with
        | [] => none
        | e :: s =>
            if e = 0x75 then
              match s with
              | h₁ :: h₂ :: h₃ :: h₄ :: s =>
                  (hexUnit h₁ h₂ h₃ h₄).bind fun u =>
                    (readChars s).map fun p => (.unit u :: p.1, p.2)
              | _ => none
            else
              (escapedOctet e).bind fun b =>
                (readChars s).map fun p => (.octet b :: p.1, p.2)
      else if c < 0x20 then none
      else (readChars s).map fun p => (.octet c :: p.1, p.2)

/-- The UTF-8 of a code point; a lone surrogate is written the same way. -/
def encodeUtf8 (n : Nat) : List Octet :=
  if n < 0x80 then [Fin.ofNat 256 n]
  else if n < 0x800 then [Fin.ofNat 256 (0xC0 + n / 0x40), Fin.ofNat 256 (0x80 + n % 0x40)]
  else if n < 0x10000 then
    [Fin.ofNat 256 (0xE0 + n / 0x1000), Fin.ofNat 256 (0x80 + n / 0x40 % 0x40),
      Fin.ofNat 256 (0x80 + n % 0x40)]
  else
    [Fin.ofNat 256 (0xF0 + n / 0x40000), Fin.ofNat 256 (0x80 + n / 0x1000 % 0x40),
      Fin.ofNat 256 (0x80 + n / 0x40 % 0x40), Fin.ofNat 256 (0x80 + n % 0x40)]

/-- The octets of a string; the two code units of a surrogate pair are one
character. -/
def decodeItems : List StringItem → List Octet
  | [] => []
  | .octet c :: items => c :: decodeItems items
  | .unit u :: .unit w :: items =>
      if (0xD800 ≤ u ∧ u < 0xDC00) ∧ 0xDC00 ≤ w ∧ w < 0xE000 then
        encodeUtf8 (0x10000 + (u - 0xD800) * 0x400 + (w - 0xDC00)) ++ decodeItems items
      else encodeUtf8 u ++ decodeItems (.unit w :: items)
  | .unit u :: items => encodeUtf8 u ++ decodeItems items

/-- `*char quotation-mark`, as the octets of the string. -/
def readString (s : List Octet) : Option (List Octet × List Octet) :=
  (readChars s).map fun p => (decodeItems p.1, p.2)

/-! ## §5. Lists and values. -/

section Lists

variable {α : Type}

/-- `item *( value-separator item )` with the closing bracket; every turn takes
an octet at least. -/
def readItems (item : List Octet → Option (α × List Octet)) (close : Octet) :
    Nat → List Octet → Option (List α × List Octet)
  | 0, _ => none
  | turns + 1, s =>
      (item s).bind fun p =>
        match skipWs p.2 with
        | [] => none
        | c :: rest =>
            if c = comma then
              (readItems item close turns (skipWs rest)).map fun q => (p.1 :: q.1, q.2)
            else if c = close then some ([p.1], rest)
            else none

/-- A list behind its opening bracket. -/
def readList (item : List Octet → Option (α × List Octet)) (close : Octet) (s : List Octet) :
    Option (List α × List Octet) :=
  match skipWs s with
  | [] => none
  | c :: rest =>
      if c = close then some ([], rest)
      else readItems item close (rest.length + 1) (c :: rest)

end Lists

/-- `member = string name-separator value`. -/
def readMember (value : List Octet → Option (Json × List Octet)) :
    List Octet → Option ((List Octet × Json) × List Octet)
  | [] => none
  | c :: s =>
      if c = quote then
        (readString s).bind fun p =>
          match skipWs p.2 with
          | [] => none
          | d :: rest =>
              if d = colon then
                (value (skipWs rest)).map fun q => ((p.1, q.1), q.2)
              else none
      else none

/-- `value`, with arrays and objects nested at most as deep as the bound. -/
def readValue : Nat → List Octet → Option (Json × List Octet)
  | 0, _ => none
  | _ + 1, [] => none
  | depth + 1, c :: s =>
      if c = quote then (readString s).map fun p => (.string p.1, p.2)
      else if c = beginArray then
        (readList (readValue depth) endArray s).map fun p => (.array p.1, p.2)
      else if c = beginObject then
        (readList (readMember (readValue depth)) endObject s).map fun p => (.object p.1, p.2)
      else if c = 0x2D ∨ isDigit c = true then readNumber (c :: s)
      else readLiteral (c :: s)

/-- `JSON-text = ws value ws`. -/
def readText (depth : Nat) (text : List Octet) : Option Json :=
  (readValue depth (skipWs text)).bind fun p => if skipWs p.2 = [] then some p.1 else none

/-- **A JSON text with its value.** -/
def Reads (text : List Octet) (value : Json) : Prop :=
  isUtf8 text = true ∧ ∃ depth, readText depth text = some value

/-! ## §6. More depth reads the same. -/

section Depth

variable {α : Type} {item item' : List Octet → Option (α × List Octet)} {close : Octet}

theorem readItems_mono (h : ∀ s p, item s = some p → item' s = some p) {turns : Nat}
    {s : List Octet} {p : List α × List Octet} (hread : readItems item close turns s = some p) :
    readItems item' close turns s = some p := by
  induction turns generalizing s p with
  | zero => cases hread
  | succ turns ih =>
      obtain ⟨q, hq, hrest⟩ := Option.bind_eq_some_iff.mp hread
      rw [readItems, h s q hq, Option.bind_some]
      cases hws : skipWs q.2 with
      | nil => rw [hws] at hrest; cases hrest
      | cons c rest =>
          rw [hws] at hrest
          dsimp only at hrest ⊢
          by_cases hc : c = comma
          · rw [if_pos hc] at hrest ⊢
            obtain ⟨r, hr, hp⟩ := Option.map_eq_some_iff.mp hrest
            rw [ih hr, ← hp]
            rfl
          · rw [if_neg hc] at hrest ⊢
            exact hrest

theorem readList_mono (h : ∀ s p, item s = some p → item' s = some p) {s : List Octet}
    {p : List α × List Octet} (hread : readList item close s = some p) :
    readList item' close s = some p := by
  unfold readList at hread ⊢
  cases hws : skipWs s with
  | nil => rw [hws] at hread; cases hread
  | cons c rest =>
      rw [hws] at hread
      dsimp only at hread ⊢
      by_cases hc : c = close
      · rw [if_pos hc] at hread ⊢
        exact hread
      · rw [if_neg hc] at hread ⊢
        exact readItems_mono h hread

end Depth

theorem readMember_mono {value value' : List Octet → Option (Json × List Octet)}
    (h : ∀ s p, value s = some p → value' s = some p) :
    ∀ s p, readMember value s = some p → readMember value' s = some p := by
  intro s p hread
  cases s with
  | nil => cases hread
  | cons c s =>
      unfold readMember at hread ⊢
      dsimp only at hread ⊢
      by_cases hc : c = quote
      · rw [if_pos hc] at hread ⊢
        obtain ⟨name, hname, hrest⟩ := Option.bind_eq_some_iff.mp hread
        rw [hname, Option.bind_some]
        cases hws : skipWs name.2 with
        | nil => rw [hws] at hrest; cases hrest
        | cons d rest =>
            rw [hws] at hrest
            dsimp only at hrest ⊢
            by_cases hd : d = colon
            · rw [if_pos hd] at hrest ⊢
              obtain ⟨v, hv, hp⟩ := Option.map_eq_some_iff.mp hrest
              rw [h _ _ hv, ← hp]
              rfl
            · rw [if_neg hd] at hrest
              cases hrest
      · rw [if_neg hc] at hread
        cases hread

theorem readValue_mono {depth : Nat} : ∀ {s : List Octet} {p : Json × List Octet},
    readValue depth s = some p → readValue (depth + 1) s = some p := by
  induction depth with
  | zero => intro s p h; cases h
  | succ depth ih =>
      intro s p h
      cases s with
      | nil => cases h
      | cons c s =>
          rw [readValue] at h ⊢
          by_cases hq : c = quote
          · rw [if_pos hq] at h ⊢
            exact h
          rw [if_neg hq] at h ⊢
          by_cases ha : c = beginArray
          · rw [if_pos ha] at h ⊢
            obtain ⟨l, hl, hp⟩ := Option.map_eq_some_iff.mp h
            rw [readList_mono (fun s p => ih) hl, ← hp]
            rfl
          rw [if_neg ha] at h ⊢
          by_cases ho : c = beginObject
          · rw [if_pos ho] at h ⊢
            obtain ⟨l, hl, hp⟩ := Option.map_eq_some_iff.mp h
            rw [readList_mono (readMember_mono fun s p => ih) hl, ← hp]
            rfl
          rw [if_neg ho] at h ⊢
          exact h

theorem readText_mono {depth : Nat} {text : List Octet} {value : Json}
    (h : readText depth text = some value) (extra : Nat) : readText (depth + extra) text = some value := by
  induction extra with
  | zero => exact h
  | succ extra ih =>
      obtain ⟨p, hp, hrest⟩ := Option.bind_eq_some_iff.mp ih
      show readText (depth + extra + 1) text = some value
      rw [readText, readValue_mono hp]
      exact hrest

/-- **A text has one value.** -/
theorem Reads.unique {text : List Octet} {v w : Json} (hv : Reads text v) (hw : Reads text w) :
    v = w := by
  obtain ⟨-, m, hm⟩ := hv
  obtain ⟨-, n, hn⟩ := hw
  have h := readText_mono hm n
  rw [Nat.add_comm, readText_mono hn m] at h
  exact (Option.some.inj h).symm

/-! ## §7. What a writer has to write. -/

theorem decodeItems_octets (s : List Octet) : decodeItems (s.map .octet) = s := by
  induction s with
  | nil => rfl
  | cons c s ih => rw [List.map_cons, decodeItems, ih]

theorem readChars_quote (s : List Octet) : readChars (quote :: s) = some ([], s) := by
  rw [readChars.eq_def]
  dsimp only
  rw [if_pos rfl]

/-- A character of a string as it is. -/
theorem readChars_unescaped {c : Octet} (hquote : c ≠ quote) (hsolidus : c ≠ reverseSolidus)
    (hcontrol : ¬ c < 0x20) (s : List Octet) :
    readChars (c :: s) = (readChars s).map fun p => (.octet c :: p.1, p.2) := by
  rw [readChars.eq_def]
  dsimp only
  rw [if_neg hquote, if_neg hsolidus, if_neg hcontrol]

/-- A control character has to be escaped. -/
theorem readChars_control {c : Octet} (hquote : c ≠ quote) (hsolidus : c ≠ reverseSolidus)
    (hcontrol : c < 0x20) (s : List Octet) : readChars (c :: s) = none := by
  rw [readChars.eq_def]
  dsimp only
  rw [if_neg hquote, if_neg hsolidus, if_pos hcontrol]

/-- A quotation mark or a reverse solidus, escaped. -/
theorem readChars_escaped {c : Octet} (hc : c = quote ∨ c = reverseSolidus) (s : List Octet) :
    readChars (reverseSolidus :: c :: s)
      = (readChars s).map fun p => (.octet c :: p.1, p.2) := by
  have hescape : escapedOctet c = some c := by
    rcases hc with rfl | rfl <;> rfl
  have hunit : c ≠ 0x75 := by
    rcases hc with rfl | rfl <;> decide
  rw [readChars.eq_def]
  dsimp only
  rw [if_neg (by decide), if_pos rfl, if_neg hunit, hescape, Option.bind_some]

/-- What may stand behind a number: nothing that goes on with it. -/
def EndsNumber (c : Octet) : Prop :=
  isDigit c = false ∧ c ≠ 0x2E ∧ c ≠ 0x65 ∧ c ≠ 0x45

theorem span_digits {ds : List Octet} {c : Octet} (hd : ∀ d ∈ ds, isDigit d = true)
    (hc : isDigit c = false) (rest : List Octet) :
    (ds ++ c :: rest).takeWhile isDigit = ds ∧
      (ds ++ c :: rest).dropWhile isDigit = c :: rest := by
  induction ds with
  | nil => simp [hc]
  | cons d ds ih =>
      obtain ⟨htake, hdrop⟩ := ih fun x hx => hd x (by simp [hx])
      have h := hd d (by simp)
      simp [h, htake, hdrop]

/-- **An integer without a leading zero** is read as what its digits say. -/
theorem readUnsigned_digits {ds : List Octet} {c : Octet} (hne : ds ≠ [])
    (hd : ∀ d ∈ ds, isDigit d = true) (hzero : ds.head? = some 0x30 → ds = [0x30])
    (hc : EndsNumber c) (rest : List Octet) :
    readUnsigned (ds ++ c :: rest) = some (digitsValue ds, 0, c :: rest) := by
  obtain ⟨hdigit, hdot, he, hE⟩ := hc
  have hint : readInt (ds ++ c :: rest) = some (ds, c :: rest) := by
    cases ds with
    | nil => exact absurd rfl hne
    | cons d ds =>
        by_cases h0 : d = 0x30
        · subst h0
          obtain rfl : ds = [] := by simpa using hzero rfl
          rfl
        · obtain ⟨htake, hdrop⟩ := span_digits hd hdigit rest
          rw [List.cons_append] at htake hdrop ⊢
          rw [readInt, if_neg h0, readDigits, htake, hdrop, if_neg (by simp)]
  rw [readUnsigned, hint]
  simp [readFrac, readExp, hdot, he, hE]

theorem skipWs_cons {c : Octet} (h : isWs c = false) (s : List Octet) :
    skipWs (c :: s) = c :: s := by
  rw [skipWs, List.dropWhile_cons, h, if_neg (by decide)]

theorem skipWs_space (s : List Octet) : skipWs (0x20 :: s) = skipWs s := by
  rw [skipWs, List.dropWhile_cons, if_pos (by decide)]
  rfl

section Written

variable {α β : Type} {item : List Octet → Option (α × List Octet)} {close : Octet}
variable {text : β → List Octet} {value : β → Option α}

/-- The text of an item begins with neither white space nor the closing
bracket. -/
def Begins (close : Octet) (text : List Octet) : Prop :=
  ∃ c s, text = c :: s ∧ isWs c = false ∧ c ≠ close

theorem begins_intercalate {b : β} {c : Octet} {s : List Octet} (h : text b = c :: s)
    (l : List β) :
    ∃ s', ([comma, 0x20] : List Octet).intercalate ((b :: l).map text) = c :: s' := by
  cases l with
  | nil => exact ⟨s, by rw [List.map_singleton, List.intercalate_singleton, h]⟩
  | cons b' l =>
      rw [List.map_cons, List.map_cons, List.intercalate_cons_cons, h]
      exact ⟨_, rfl⟩

theorem length_le_intercalate (t : List Octet) (ts : List (List Octet)) :
    ts.length ≤ (([comma, 0x20] : List Octet).intercalate (t :: ts)).length := by
  induction ts generalizing t with
  | nil => exact Nat.zero_le _
  | cons t' ts ih =>
      have h := ih t'
      rw [List.intercalate_cons_cons, List.length_append, List.length_append, List.length_cons,
        List.length_cons]
      omega

theorem readItems_intercalate {b : β} {l : List β} {turns : Nat} (rest : List Octet)
    (hclose : isWs close = false ∧ close ≠ comma)
    (hbegins : ∀ x ∈ b :: l, Begins close (text x))
    (hitem : ∀ x ∈ b :: l, ∀ c s, c = comma ∨ c = close →
      item (text x ++ c :: s) = (value x).map fun a => (a, c :: s))
    (hturns : l.length < turns) :
    readItems item close turns
        (([comma, 0x20] : List Octet).intercalate ((b :: l).map text) ++ close :: rest)
      = ((b :: l).mapM value).map fun as => (as, rest) := by
  induction l generalizing b turns with
  | nil =>
      obtain ⟨n, rfl⟩ : ∃ n, turns = n + 1 := ⟨turns - 1, by omega⟩
      have hread := hitem b (by simp) close rest (.inr rfl)
      show readItems item close (n + 1)
        (([comma, 0x20] : List Octet).intercalate [text b] ++ close :: rest) = _
      rw [List.intercalate_singleton, readItems, hread]
      cases hv : value b with
      | none => simp [hv]
      | some a => simp [hv, skipWs_cons hclose.1, hclose.2]
  | cons b' l ih =>
      obtain ⟨n, rfl⟩ : ∃ n, turns = n + 1 := ⟨turns - 1, by omega⟩
      have hsplit : ([comma, 0x20] : List Octet).intercalate ((b :: b' :: l).map text)
            ++ close :: rest
          = text b ++ comma :: 0x20 ::
            (([comma, 0x20] : List Octet).intercalate ((b' :: l).map text) ++ close :: rest) := by
        rw [List.map_cons, List.map_cons, List.intercalate_cons_cons]
        simp
      have hread := hitem b (by simp) comma
        (0x20 :: (([comma, 0x20] : List Octet).intercalate ((b' :: l).map text) ++ close :: rest))
        (.inl rfl)
      have hih : readItems item close n
          (([comma, 0x20] : List Octet).intercalate ((b' :: l).map text) ++ close :: rest)
            = ((b' :: l).mapM value).map fun as => (as, rest) :=
        ih (fun x hx => hbegins x (by simp [hx])) (fun x hx => hitem x (by simp [hx]))
          (by simpa using hturns)
      -- the next item begins at once behind the space
      have hskip : skipWs (0x20 ::
            (([comma, 0x20] : List Octet).intercalate ((b' :: l).map text) ++ close :: rest))
          = ([comma, 0x20] : List Octet).intercalate ((b' :: l).map text) ++ close :: rest := by
        obtain ⟨c, s, htext, hws, -⟩ := hbegins b' (by simp)
        obtain ⟨s', hs'⟩ := begins_intercalate htext l
        rw [skipWs_space, hs', List.cons_append, skipWs_cons hws]
      rw [hsplit, readItems, hread]
      cases hv : value b with
      | none => simp [hv]
      | some a =>
          rw [Option.map_some, Option.bind_some, skipWs_cons (by decide)]
          dsimp only
          have hmap : (b :: b' :: l).mapM value = ((b' :: l).mapM value).map (a :: ·) := by
            rw [List.mapM_cons, hv]
            cases (b' :: l).mapM value <;> rfl
          rw [if_pos rfl, hskip, hih, hmap, Option.map_map, Option.map_map]
          rfl

variable (item close text value) in
/-- **A list written with `, `** reads item by item. -/
theorem readList_intercalate (l : List β) (rest : List Octet)
    (hclose : isWs close = false ∧ close ≠ comma)
    (hbegins : ∀ x ∈ l, Begins close (text x))
    (hitem : ∀ x ∈ l, ∀ c s, c = comma ∨ c = close →
      item (text x ++ c :: s) = (value x).map fun a => (a, c :: s)) :
    readList item close
        (([comma, 0x20] : List Octet).intercalate (l.map text) ++ close :: rest)
      = (l.mapM value).map fun as => (as, rest) := by
  cases l with
  | nil =>
      show readList item close (close :: rest) = some ([], rest)
      rw [readList, skipWs_cons hclose.1]
      dsimp only
      rw [if_pos rfl]
  | cons b l =>
      obtain ⟨c, s, htext, hws, hne⟩ := hbegins b (by simp)
      have hhead : ∃ s', ([comma, 0x20] : List Octet).intercalate ((b :: l).map text)
          = c :: s' := begins_intercalate htext l
      obtain ⟨s', hs'⟩ := hhead
      have hlength : l.length < (s' ++ close :: rest).length + 1 := by
        have h := length_le_intercalate (text b) (l.map text)
        rw [← List.map_cons, hs', List.length_cons, List.length_map] at h
        rw [List.length_append, List.length_cons]
        omega
      have hitems := readItems_intercalate rest hclose hbegins hitem hlength
      rw [hs'] at hitems ⊢
      rw [readList, List.cons_append, skipWs_cons hws]
      dsimp only
      rw [if_neg hne]
      exact hitems

end Written

end Json

end CustomDbms.Lib
