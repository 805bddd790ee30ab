/-
  CustomDbms.Parser.Lexer
  ───────────────────────
  **TOKENS AND NUMBERS** (`src/parser/lexer.cpp`; character classes of the C
  locale; `std::stoi`, `std::stoll` and `std::stoull`).

  `Tokenize` advances by at least one byte in every turn, so the length of the
  text bounds its turns.
-/
import CustomDbms.Common.TextCodec
import Mathlib.Data.List.TakeWhile

namespace CustomDbms.Parser

open CustomDbms.Common

/-! ## §1. Character classes. -/

/-- `std::isspace`. -/
def isSpace (c : Byte) : Bool := c = 32 || (9 ≤ c && c ≤ 13)

/-- `std::isdigit`. -/
def isDigit (c : Byte) : Bool := 48 ≤ c && c ≤ 57

/-- `std::isupper`. -/
def isUpper (c : Byte) : Bool := 65 ≤ c && c ≤ 90

/-- `std::islower`. -/
def isLower (c : Byte) : Bool := 97 ≤ c && c ≤ 122

/-- `std::isalpha`. -/
def isAlpha (c : Byte) : Bool := isUpper c || isLower c

/-- `std::isalnum`. -/
def isAlnum (c : Byte) : Bool := isAlpha c || isDigit c

/-- `std::toupper`. -/
def toUpperByte (c : Byte) : Byte := if isLower c then c - 32 else c

/-- `ToUpper`. -/
def toUpper (s : Str) : Str := s.map toUpperByte

/-! ## §2. Numbers. -/

/-- The value of a run of digits, from `acc` on. -/
def digitsValue (acc : Nat) (ds : Str) : Nat := ds.foldl (fun n d => n * 10 + (d.val - 48)) acc

/-- White space, sign, digits: how `std::stoll` and `std::stoull` read the
front of a text.  The result is the sign, the magnitude and the number of
bytes read; `none` where no digit follows (`std::invalid_argument`). -/
def scanNumber (s : Str) : Option (Bool × Nat × Nat) :=
  let blanks := s.takeWhile isSpace
  let rest := s.dropWhile isSpace
  let (negative, signLength, body) :=
    match rest with
    | c :: tail =>
        if c = byte '-' then (true, 1, tail)
        else if c = byte '+' then (false, 1, tail)
        else (false, 0, rest)
    | [] => (false, 0, [])
  let ds := body.takeWhile isDigit
  if ds = [] then none
  else some (negative, digitsValue 0 ds, blanks.length + signLength + ds.length)

/-- `std::stoll`, with the number of bytes read; `none` where it throws. -/
def stoll (s : Str) : Option (Int64 × Nat) :=
  match scanNumber s with
  | none => none
  | some (negative, n, used) =>
      let v : Int := if negative then -(n : Int) else n
      if -(2 ^ 63 : Int) ≤ v ∧ v < 2 ^ 63 then some (Int64.ofInt v, used) else none

/-- `std::stoi`; `none` where it throws. -/
def stoi (s : Str) : Option Int32 :=
  match scanNumber s with
  | none => none
  | some (negative, n, _) =>
      let v : Int := if negative then -(n : Int) else n
      if -(2 ^ 31 : Int) ≤ v ∧ v < 2 ^ 31 then some (Int32.ofInt v) else none

/-- `std::stoull`; `none` where it throws.  A minus sign negates in 64 bits. -/
def stoull (s : Str) : Option Nat :=
  match scanNumber s with
  | none => none
  | some (negative, n, _) =>
      if n < 2 ^ 64 then some (if negative then (2 ^ 64 - n) % 2 ^ 64 else n) else none

/-! ## §3. Numbers printed and read. -/

theorem digitsValue_decimalDigits (fuel n : Nat) (acc : Str) (h : n < fuel) :
    digitsValue 0 (decimalDigits fuel n acc) = digitsValue n acc := by
  induction fuel generalizing n acc with
  | zero => omega
  | succ fuel ih =>
      have hd : (Fin.ofNat 256 (n % 10 + 48) : Byte).val - 48 = n % 10 := by
        show (n % 10 + 48) % 256 - 48 = n % 10
        omega
      have hcons : ∀ m, digitsValue m (Fin.ofNat 256 (n % 10 + 48) :: acc)
          = digitsValue (m * 10 + n % 10) acc := by
        intro m
        rw [digitsValue, List.foldl_cons, hd]
        rfl
      rw [decimalDigits]
      split
      · rename_i h0
        rw [hcons, show 0 * 10 + n % 10 = n by omega]
      · rename_i h0
        rw [ih (n / 10) _ (by omega), hcons, show n / 10 * 10 + n % 10 = n by omega]

theorem mem_decimalDigits {fuel n : Nat} {acc : Str} {c : Byte}
    (h : c ∈ decimalDigits fuel n acc) : isDigit c = true ∨ c ∈ acc := by
  induction fuel generalizing n acc with
  | zero => exact .inr h
  | succ fuel ih =>
      have hd : isDigit (Fin.ofNat 256 (n % 10 + 48)) = true := by
        have hall : ∀ k : Fin 10, isDigit (Fin.ofNat 256 (k.val + 48)) = true := by decide
        exact hall ⟨n % 10, Nat.mod_lt _ (by decide)⟩
      rw [decimalDigits] at h
      have key : c ∈ (Fin.ofNat 256 (n % 10 + 48) : Byte) :: acc →
          isDigit c = true ∨ c ∈ acc := by
        intro hc
        rcases List.mem_cons.mp hc with rfl | hc
        · exact .inl hd
        · exact .inr hc
      split at h
      · exact key h
      · rcases ih h with hc | hc
        · exact .inl hc
        · exact key hc

theorem decimalDigits_ne_nil {fuel n : Nat} {acc : Str} (h : 0 < fuel ∨ acc ≠ []) :
    decimalDigits fuel n acc ≠ [] := by
  induction fuel generalizing n acc with
  | zero => exact h.resolve_left (lt_irrefl 0)
  | succ fuel ih =>
      rw [decimalDigits]
      split
      · simp
      · exact ih (.inr (by simp))

/-- **The digits of a number: there are some, they are digits, they have its
value.** -/
theorem natToString_digits (n : Nat) :
    natToString n ≠ [] ∧ (∀ c ∈ natToString n, isDigit c = true) ∧
      digitsValue 0 (natToString n) = n := by
  refine ⟨decimalDigits_ne_nil (.inl (Nat.succ_pos n)), ?_, ?_⟩
  · intro c hc
    exact (mem_decimalDigits hc).resolve_right List.not_mem_nil
  · exact digitsValue_decimalDigits (n + 1) n [] (Nat.lt_succ_self n)

theorem scanNumber_digits {ds : Str} (hne : ds ≠ []) (hd : ∀ c ∈ ds, isDigit c = true) :
    scanNumber ds = some (false, digitsValue 0 ds, ds.length) ∧
      scanNumber (byte '-' :: ds) = some (true, digitsValue 0 ds, ds.length + 1) := by
  have hneg : isSpace (byte '-') = false := by decide
  constructor
  · obtain ⟨c, cs, rfl⟩ := List.exists_cons_of_ne_nil hne
    have hc := hd c (by simp)
    have hsp : isSpace c = false := by
      have hall : ∀ b : Byte, isDigit b = true → isSpace b = false := by
        grind [isDigit, isSpace]
      exact hall c hc
    have h1 : c ≠ byte '-' := by rintro rfl; exact absurd hc (by decide)
    have h2 : c ≠ byte '+' := by rintro rfl; exact absurd hc (by decide)
    simp [scanNumber, hsp, h1, h2, hc,
      List.takeWhile_eq_self_iff.mpr fun d hdm => hd d (List.mem_cons_of_mem _ hdm)]
  · simp [scanNumber, hneg, List.takeWhile_eq_self_iff.mpr hd, hne]
    omega

/-- **`std::stoull` reads back a printed number** that fits. -/
theorem stoull_natToString {n : Nat} (h : n < 2 ^ 64) : stoull (natToString n) = some n := by
  obtain ⟨hne, hd, hv⟩ := natToString_digits n
  rw [stoull, (scanNumber_digits hne hd).1]
  simp only [hv]
  rw [if_pos h]
  rfl

/-- **A printed number is scanned to its last byte.** -/
theorem scanNumber_intToString (i : Int) :
    ∃ negative n, scanNumber (intToString i) = some (negative, n, (intToString i).length) ∧
      (if negative then -(n : Int) else n) = i := by
  obtain ⟨hne, hd, hv⟩ := natToString_digits i.natAbs
  unfold intToString
  split
  · rename_i hneg
    refine ⟨true, i.natAbs, by rw [(scanNumber_digits hne hd).2, hv]; rfl, ?_⟩
    rw [if_pos rfl]
    omega
  · refine ⟨false, i.natAbs, by rw [(scanNumber_digits hne hd).1, hv], ?_⟩
    rw [if_neg Bool.false_ne_true]
    omega

/-- **`std::stoll` reads back a printed number.** -/
theorem stoll_intToString (i : Int64) :
    stoll (intToString i.toInt) = some (i, (intToString i.toInt).length) := by
  obtain ⟨negative, n, hscan, hv⟩ := scanNumber_intToString i.toInt
  have hlo := Int64.le_toInt i
  have hhi := Int64.toInt_lt i
  rw [stoll, hscan]
  dsimp only
  rw [hv, if_pos ⟨hlo, hhi⟩, Int64.ofInt_toInt]

/-- **`std::stoi` reads back a printed number.** -/
theorem stoi_intToString (i : Int32) : stoi (intToString i.toInt) = some i := by
  obtain ⟨negative, n, hscan, hv⟩ := scanNumber_intToString i.toInt
  have hlo := Int32.le_toInt i
  have hhi := Int32.toInt_lt i
  rw [stoi, hscan]
  dsimp only
  rw [hv, if_pos ⟨hlo, hhi⟩, Int32.ofInt_toInt]

/-- A printed number is a part of a line. -/
theorem part_natToString (n : Nat) : Part (natToString n) := by
  refine part_plain (List.all_eq_true.mpr fun c hc => ?_)
  have hall : ∀ b : Byte, isDigit b = true → plainByte b = true := by
    intro b hb
    have hnewline : b ≠ newline := by rintro rfl; exact absurd hb (by decide)
    have hbackslash : b ≠ backslash := by rintro rfl; exact absurd hb (by decide)
    have htab : b ≠ tab := by rintro rfl; exact absurd hb (by decide)
    simp [plainByte, hnewline, hbackslash, htab]
  exact hall c ((natToString_digits n).2.1 c hc)

theorem part_intToString (i : Int) : Part (intToString i) := by
  unfold intToString
  split
  · exact (part_plain (p := [byte '-']) (by decide)).append (part_natToString _)
  · exact part_natToString _

/-! ## §4. `Tokenize`. -/

/-- `==`, `!=`, `<=`, `>=`. -/
def isTwoByteOperator (c d : Byte) : Bool :=
  d = byte '=' && (c = byte '=' || c = byte '!' || c = byte '<' || c = byte '>')

/-- The rest of a string literal after the byte `prev`: up to a quote that is
not preceded by a backslash, or to the end of the text. -/
def takeLiteral : Byte → Str → Str × Str
  | _, [] => ([], [])
  | prev, c :: rest =>
      if c = byte '"' ∧ prev ≠ byte '\\' then ([c], rest)
      else
        let t := takeLiteral c rest
        (c :: t.1, t.2)

/-- A byte of a word. -/
def isWordByte (c : Byte) : Bool := isAlnum c || c = byte '_'

/-- The `while` loop of `Tokenize`. -/
def tokenizeLoop : Nat → Str → List Str
  | 0, _ => []
  | _ + 1, [] => []
  | fuel + 1, c :: rest =>
      if isSpace c then tokenizeLoop fuel rest
      else if (rest.head?.map (isTwoByteOperator c)).getD false then
        (c :: rest.take 1) :: tokenizeLoop fuel (rest.drop 1)
      else if c = byte '"' then
        let t := takeLiteral c rest
        (c :: t.1) :: tokenizeLoop fuel t.2
      else if isWordByte c then
        (c :: rest.takeWhile isWordByte) :: tokenizeLoop fuel (rest.dropWhile isWordByte)
      else [c] :: tokenizeLoop fuel rest

/-- `Lexer::Tokenize`. -/
def tokenize (sql : Str) : List Str := tokenizeLoop sql.length sql

end CustomDbms.Parser
