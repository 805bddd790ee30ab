/-
  CustomDbms.Catalog.Base64Url
  ────────────────────────────
  **BASE64URL WITHOUT PADDING** (`Base64UrlEncode`, `Base64UrlDecode` of
  `src/catalog/rbac.cpp`).

  The decoder shifts six bits at a time into one 32-bit word and never clears
  it; the bits that leave the word on the left are those it has already
  emitted.

    • `decodeFrom_base64UrlEncode` — the decoder on the encoder's symbols, from
      any word;
    • `base64UrlDecode_encode` — the round trip.
-/
import CustomDbms.Common.Types

namespace CustomDbms.Catalog

open CustomDbms.Common

/-! ## §1. Encoder and decoder. -/

/-- `kBase64UrlAlphabet`. -/
def kBase64UrlAlphabet : Str :=
  str "ABCDEFGHIJKLMNOPQRSTUVWXYZabcdefghijklmnopqrstuvwxyz0123456789-_"

/-- `kBase64UrlAlphabet[(value >> shift) & 0x3F]`. -/
def symbol (value shift : Nat) : Byte := kBase64UrlAlphabet.getD (value >>> shift &&& 0x3F) 0

/-- `Base64UrlEncode`. -/
def base64UrlEncode : Str → Str
  | [] => []
  | [a] =>
      let value := a.val <<< 16
      [symbol value 18, symbol value 12]
  | [a, b] =>
      let value := a.val <<< 16 ||| b.val <<< 8
      [symbol value 18, symbol value 12, symbol value 6]
  | a :: b :: c :: rest =>
      let value := a.val <<< 16 ||| b.val <<< 8 ||| c.val
      symbol value 18 :: symbol value 12 :: symbol value 6 :: symbol value 0
        :: base64UrlEncode rest

/-- The table `reverse`; `none` for the entry −1. -/
def reverseSymbol (c : Byte) : Option Nat := kBase64UrlAlphabet.idxOf? c

/-- The loop `while (bits >= 8)`: the bytes it emits and the bits it leaves.
It takes eight bits a turn, so `bits` bounds its turns. -/
def drain (value : Nat) : Nat → Nat → Str × Nat
  | 0, bits => ([], bits)
  | fuel + 1, bits =>
      if 8 ≤ bits then
        let r := drain value fuel (bits - 8)
        (Fin.ofNat 256 (value >>> (bits - 8) &&& 0xFF) :: r.1, r.2)
      else ([], bits)

/-- The loop of `Base64UrlDecode` over the symbols. -/
def decodeFrom : Nat → Nat → Str → Option Str
  | _, bits, [] => if bits = 1 ∨ bits = 3 ∨ bits = 5 then none else some []
  | value, bits, c :: rest =>
      match reverseSymbol c with
      | none => none
      | some decoded =>
          let value := (value <<< 6 ||| decoded) % 2 ^ 32
          let r := drain value (bits + 6) (bits + 6)
          (decodeFrom value r.2 rest).map (r.1 ++ ·)

/-- `Base64UrlDecode`. -/
def base64UrlDecode (data : Str) : Option Str := decodeFrom 0 0 data

/-! ## §2. Symbols. -/

theorem shiftLeft_or {a b : Nat} (k : Nat) (h : b < 2 ^ k) : a <<< k ||| b = a * 2 ^ k + b := by
  rw [← Nat.shiftLeft_add_eq_or_of_lt h, Nat.shiftLeft_eq]

theorem symbol_eq (value shift : Nat) :
    symbol value shift = kBase64UrlAlphabet.getD (value / 2 ^ shift % 64) 0 := by
  rw [symbol, Nat.shiftRight_eq_div_pow]
  congr 1
  exact Nat.and_two_pow_sub_one_eq_mod _ 6

/-- **Each symbol has its own number.** -/
theorem reverseSymbol_symbol (value shift : Nat) :
    reverseSymbol (symbol value shift) = some (value / 2 ^ shift % 64) := by
  have hall : ∀ i : Fin 64, reverseSymbol (kBase64UrlAlphabet.getD i.val 0) = some i.val := by
    decide +kernel
  rw [symbol_eq]
  exact hall ⟨value / 2 ^ shift % 64, Nat.mod_lt _ (by decide)⟩

/-- The full stop is no symbol. -/
theorem symbol_ne_dot (value shift : Nat) : symbol value shift ≠ byte '.' := by
  intro h
  have hsome := reverseSymbol_symbol value shift
  rw [h] at hsome
  have hnone : reverseSymbol (byte '.') = none := by decide +kernel
  rw [hnone] at hsome
  cases hsome

theorem dot_not_mem_base64UrlEncode (s : Str) : byte '.' ∉ base64UrlEncode s := by
  fun_induction base64UrlEncode s with
  | case1 => simp
  | case2 a value => simp [Ne.symm (symbol_ne_dot _ _)]
  | case3 a b value => simp [Ne.symm (symbol_ne_dot _ _)]
  | case4 a b c rest value ih => simp [Ne.symm (symbol_ne_dot _ _), ih]

theorem base64UrlEncode_ne_nil {s : Str} (h : s ≠ []) : base64UrlEncode s ≠ [] := by
  fun_cases base64UrlEncode s with
  | case1 => exact absurd rfl h
  | case2 => simp
  | case3 => simp
  | case4 => simp

/-! ## §3. Round trip. -/

/-- One turn of the decoder on a symbol. -/
theorem decodeFrom_symbol (v bits value shift : Nat) (rest : Str) :
    decodeFrom v bits (symbol value shift :: rest) =
      (decodeFrom ((v * 64 + value / 2 ^ shift % 64) % 2 ^ 32)
          (drain ((v * 64 + value / 2 ^ shift % 64) % 2 ^ 32) (bits + 6) (bits + 6)).2 rest).map
        ((drain ((v * 64 + value / 2 ^ shift % 64) % 2 ^ 32) (bits + 6) (bits + 6)).1 ++ ·) := by
  have hword : v <<< 6 ||| value / 2 ^ shift % 64 = v * 64 + value / 2 ^ shift % 64 :=
    shiftLeft_or 6 (Nat.mod_lt _ (by decide))
  rw [decodeFrom, reverseSymbol_symbol]
  dsimp only
  rw [hword]

theorem decodeFrom_nil (v bits : Nat) :
    decodeFrom v bits [] = if bits = 1 ∨ bits = 3 ∨ bits = 5 then none else some [] := rfl

/-- The byte at a position of the word. -/
def byteAt (value shift : Nat) : Byte := Fin.ofNat 256 (value / 2 ^ shift)

theorem drain_six (value : Nat) : drain value 6 6 = ([], 6) := by
  simp [drain]

theorem drain_one (value bits : Nat) (h : 8 ≤ bits) (h' : bits < 16) :
    drain value bits bits = ([byteAt value (bits - 8)], bits - 8) := by
  obtain ⟨n, rfl⟩ : ∃ n, bits = n + 1 := ⟨bits - 1, by omega⟩
  have hstop : ∀ fuel, drain value fuel (n + 1 - 8) = ([], n + 1 - 8) := by
    intro fuel
    cases fuel with
    | zero => rfl
    | succ fuel => rw [drain, if_neg (by omega)]
  have hbyte : (Fin.ofNat 256 (value >>> (n + 1 - 8) &&& 0xFF) : Byte)
      = byteAt value (n + 1 - 8) := by
    rw [Nat.shiftRight_eq_div_pow, Nat.and_two_pow_sub_one_eq_mod _ 8]
    exact Fin.ext (Nat.mod_mod _ _)
  rw [drain, if_pos h, hstop, hbyte]

theorem byteAt_eq {value shift : Nat} {b : Byte} (h : value / 2 ^ shift % 256 = b.val) :
    byteAt value shift = b := Fin.ext h

/-- **The decoder reads back the encoder's symbols**, whatever an earlier
group has left in its word. -/
theorem decodeFrom_base64UrlEncode (v : Nat) (s : Str) :
    decodeFrom v 0 (base64UrlEncode s) = some s := by
  fun_induction base64UrlEncode s generalizing v with
  | case1 => simp [decodeFrom]
  | case2 a value =>
      have hvalue : value = a.val * 65536 := Nat.shiftLeft_eq _ 16
      have ha := a.isLt
      simp only [decodeFrom_symbol, Nat.zero_add, drain_six, drain_one _ 12 (by decide) (by decide),
        Nat.reduceAdd, Nat.reduceSub, decodeFrom_nil, hvalue]
      simp only [List.nil_append, Nat.reducePow, List.cons_append, Nat.reduceEqDiff,
        Nat.succ_ne_self, or_self, if_false, Option.map_some, Option.some.injEq, List.cons.injEq,
        and_true]
      apply byteAt_eq
      omega
  | case3 a b value =>
      have ha := a.isLt
      have hb := b.isLt
      have hvalue : value = a.val * 65536 + b.val * 256 := by
        show a.val <<< 16 ||| b.val <<< 8 = _
        rw [shiftLeft_or 16 (by rw [Nat.shiftLeft_eq]; omega)]
        omega
      simp only [decodeFrom_symbol, Nat.zero_add, drain_six, drain_one _ 12 (by decide) (by decide),
        drain_one _ 10 (by decide) (by decide), Nat.reduceAdd, Nat.reduceSub, decodeFrom_nil, hvalue]
      simp only [List.nil_append, Nat.reducePow, List.cons_append, Nat.reduceEqDiff,
        Nat.succ_ne_self, or_self, if_false, Option.map_some, Option.some.injEq, List.cons.injEq,
        and_true]
      constructor
      · apply byteAt_eq
        omega
      · apply byteAt_eq
        omega
  | case4 a b c rest value ih =>
      have ha := a.isLt
      have hb := b.isLt
      have hc := c.isLt
      have hvalue : value = a.val * 65536 + b.val * 256 + c.val := by
        show a.val <<< 16 ||| b.val <<< 8 ||| c.val = _
        rw [Nat.or_assoc, shiftLeft_or 8 hc, shiftLeft_or 16 (by omega)]
        omega
      simp only [decodeFrom_symbol, Nat.zero_add, drain_six, drain_one _ 12 (by decide) (by decide),
        drain_one _ 10 (by decide) (by decide), drain_one _ 8 (by decide) (by decide),
        Nat.reduceAdd, Nat.reduceSub, hvalue, ih]
      simp only [List.nil_append, Nat.reducePow, List.cons_append, Nat.pow_zero, Nat.div_one,
        Option.map_some, Option.some.injEq, List.cons.injEq, and_true]
      refine ⟨?_, ?_, ?_⟩
      · apply byteAt_eq
        omega
      · apply byteAt_eq
        omega
      · apply byteAt_eq
        omega

/-- **Base64url round trip**: the word of 32 bits wraps, and loses nothing. -/
theorem base64UrlDecode_encode (s : Str) : base64UrlDecode (base64UrlEncode s) = some s :=
  decodeFrom_base64UrlEncode 0 s

end CustomDbms.Catalog
