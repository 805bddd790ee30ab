/-
  CustomDbms.Common.Types
  ───────────────────────
  **SHARED TYPES** (`src/common/{types,error,result}.hpp`, `types.cpp`).

  A `std::string` is a list of bytes.  The two string alternatives of `Value`
  (owned and interned) are one constructor: every function of the repository
  reads them through `AsString`, and the string pool is never observed.

  `Result` has a third outcome beside the source's value and error: `fault`
  stands for a C++ exception that leaves the function (`bad_variant_access`,
  a malformed regular expression) or an access the language leaves undefined.
-/
import Mathlib.Algebra.Group.Int.Defs
import Mathlib.Algebra.Group.Nat.Defs
import Mathlib.Algebra.GroupWithZero.Nat
import Mathlib.Data.Fin.Basic
import Mathlib.Data.List.Lex
import Mathlib.Order.Fin.Basic
import Mathlib.Order.Lattice

namespace CustomDbms.Common

/-! ## §1. Strings. -/

/-- A `char` of the source, as `unsigned char`. -/
abbrev Byte := Fin 256

/-- `std::string`; its order is the lexicographic order of bytes. -/
abbrev Str := List Byte

instance byteNeZero : NeZero 256 := ⟨by decide⟩

instance strLawfulBEq : LawfulBEq Str := inferInstance

/-- A character constant of the source. -/
def byte (c : Char) : Byte := Fin.ofNat 256 c.toNat

/-- A string constant of the source. -/
def str (s : String) : Str := s.toList.map byte

/-- A constant from its list of characters, which is quick to evaluate. -/
theorem str_ofList (l : List Char) : str (String.ofList l) = l.map byte := by
  rw [str, String.toList_ofList]

/-- The decimal digits of `n` in front of `acc`; `fuel` bounds their number. -/
def decimalDigits : Nat → Nat → Str → Str
  | 0, _, acc => acc
  | fuel + 1, n, acc =>
      let acc' := Fin.ofNat 256 (n % 10 + 48) :: acc
      if n / 10 = 0 then acc' else decimalDigits fuel (n / 10) acc'

/-- `std::to_string` of an unsigned number. -/
def natToString (n : Nat) : Str := decimalDigits (n + 1) n []

/-- `std::to_string` of a signed number. -/
def intToString (i : Int) : Str :=
  if i < 0 then byte '-' :: natToString i.natAbs else natToString i.natAbs

/-- The hexadecimal digit of `n % 16`. -/
def hexDigit (n : Nat) : Byte :=
  if n % 16 < 10 then Fin.ofNat 256 (n % 16 + 48) else Fin.ofNat 256 (n % 16 + 87)

/-- `std::hex << std::setw(width) << std::setfill('0')` of a number that fits. -/
def hexPadded : Nat → Nat → Str
  | 0, _ => []
  | width + 1, n => hexPadded width (n / 16) ++ [hexDigit n]

/-! ## §2. Errors and results. -/

/-- `ErrorCode`. -/
inductive ErrorCode where
  | ok | parseError | semanticError | validationError | storageError | authorizationError
  | networkError | notFound | alreadyExists | constraintViolation | typeMismatch
  | notImplemented
  deriving Repr, DecidableEq

/-- `Error`. -/
structure Error where
  code : ErrorCode
  message : Str
  deriving Repr, DecidableEq

/-- `Result<T>`, with the outcome in which no result is returned. -/
inductive Result (α : Type) where
  | ok (value : α)
  | error (e : Error)
  | fault
  deriving Repr, DecidableEq

namespace Result

variable {α β : Type}

/-- Sequencing: an error or a fault is passed on. -/
def bind (r : Result α) (f : α → Result β) : Result β :=
  match r with
  | ok a => f a
  | error e => error e
  | fault => fault

instance : Monad Result where
  pure := ok
  bind := bind

/-- The value rewritten. -/
def map (f : α → β) (r : Result α) : Result β :=
  match r with
  | ok a => ok (f a)
  | error e => error e
  | fault => fault

/-- `MakeError`. -/
def makeError (code : ErrorCode) (message : Str) : Result α := error ⟨code, message⟩

/-- An access that is undefined, or throws, where the option is empty. -/
def ofOption (o : Option α) : Result α :=
  match o with
  | some a => ok a
  | none => fault

/-- `Result::ok`. -/
def isOk : Result α → Bool
  | ok _ => true
  | _ => false

/-- A loop that collects one value for each element. -/
def mapList (f : α → Result β) : List α → Result (List β)
  | [] => ok []
  | a :: as => do
      let b ← f a
      let bs ← mapList f as
      return b :: bs

/-- A loop that updates an accumulator. -/
def foldList (f : β → α → Result β) : β → List α → Result β
  | b, [] => ok b
  | b, a :: as => do
      let b' ← f b a
      foldList f b' as

/-- A loop of checks. -/
def forEach (f : α → Result Unit) : List α → Result Unit
  | [] => ok ()
  | a :: as => do
      f a
      forEach f as

@[simp] theorem ok_bind (a : α) (f : α → Result β) : (ok a >>= f) = f a := rfl
@[simp] theorem error_bind (e : Error) (f : α → Result β) : (error e >>= f) = error e := rfl
@[simp] theorem fault_bind (f : α → Result β) : ((fault : Result α) >>= f) = fault := rfl
@[simp] theorem pure_eq_ok (a : α) : (pure a : Result α) = ok a := rfl
@[simp] theorem ofOption_some (a : α) : ofOption (some a) = ok a := rfl
@[simp] theorem ofOption_none : ofOption (none : Option α) = fault := rfl

@[simp] theorem map_ok (f : α → β) (a : α) : map f (ok a) = ok (f a) := rfl

theorem map_eq_ok {r : Result α} {f : α → β} {b : β} :
    map f r = ok b ↔ ∃ a, r = ok a ∧ f a = b := by
  cases r <;> simp [map]

theorem map_ne_ok {r : Result α} {f : α → β} (h : ∀ a, r ≠ ok a) : ∀ b, map f r ≠ ok b := by
  intro b hb
  obtain ⟨a, ha, -⟩ := map_eq_ok.mp hb
  exact h a ha

/-- A sequence that succeeds has succeeded in both parts. -/
theorem bind_eq_ok {r : Result α} {f : α → Result β} {b : β} :
    (r >>= f) = ok b ↔ ∃ a, r = ok a ∧ f a = ok b := by
  cases r with
  | ok a => simp
  | error e => simp
  | fault => simp

/-- A sequence that throws has thrown in one of its parts. -/
theorem bind_eq_fault {r : Result α} {f : α → Result β} :
    (r >>= f) = fault ↔ r = fault ∨ ∃ a, r = ok a ∧ f a = fault := by
  cases r with
  | ok a => simp
  | error e => simp
  | fault => simp

theorem bind_ne_fault {r : Result α} {f : α → Result β} (hr : r ≠ fault)
    (hf : ∀ a, r = ok a → f a ≠ fault) : (r >>= f) ≠ fault := by
  intro h
  rcases bind_eq_fault.mp h with h | ⟨a, ha, h⟩
  · exact hr h
  · exact hf a ha h

theorem map_eq_fault {r : Result α} {f : α → β} : map f r = fault ↔ r = fault := by
  cases r <;> simp [map]

@[simp] theorem mapList_nil (f : α → Result β) : mapList f [] = ok [] := rfl
@[simp] theorem foldList_nil (f : β → α → Result β) (b : β) : foldList f b [] = ok b := rfl
@[simp] theorem forEach_nil (f : α → Result Unit) : forEach f [] = ok () := rfl
theorem mapList_cons (f : α → Result β) (a : α) (as : List α) :
    mapList f (a :: as) = (f a >>= fun b => mapList f as >>= fun bs => ok (b :: bs)) := rfl
theorem foldList_cons (f : β → α → Result β) (b : β) (a : α) (as : List α) :
    foldList f b (a :: as) = (f b a >>= fun b' => foldList f b' as) := rfl
theorem forEach_cons (f : α → Result Unit) (a : α) (as : List α) :
    forEach f (a :: as) = (f a >>= fun _ => forEach f as) := rfl

theorem forEach_eq_ok {f : α → Result Unit} {as : List α} :
    forEach f as = ok () ↔ ∀ a ∈ as, f a = ok () := by
  induction as with
  | nil => simp
  | cons a as ih =>
      rw [forEach_cons, bind_eq_ok]
      constructor
      · rintro ⟨u, h1, h2⟩ x hx
        rcases List.mem_cons.mp hx with rfl | hx
        · exact h1
        · exact ih.mp h2 x hx
      · intro h
        exact ⟨(), h a (by simp), ih.mpr fun x hx => h x (by simp [hx])⟩

/-- A loop whose body always succeeds collects one value for each element. -/
theorem mapList_forall₂ {f : α → Result β} {P : α → β → Prop} (as : List α)
    (h : ∀ a ∈ as, ∃ b, f a = ok b ∧ P a b) : ∃ bs, mapList f as = ok bs ∧ List.Forall₂ P as bs := by
  induction as with
  | nil => exact ⟨[], rfl, List.Forall₂.nil⟩
  | cons a as ih =>
      obtain ⟨b, hb, hP⟩ := h a (by simp)
      obtain ⟨bs, hbs, hPs⟩ := ih fun x hx => h x (by simp [hx])
      exact ⟨b :: bs, by simp [mapList_cons, hb, hbs], List.Forall₂.cons hP hPs⟩

theorem ofOption_eq_ok {o : Option α} {a : α} : ofOption o = ok a ↔ o = some a := by
  cases o <;> simp

theorem ofOption_eq_fault {o : Option α} : ofOption o = fault ↔ o = none := by
  cases o <;> simp

theorem makeError_ne_fault (code : ErrorCode) (message : Str) :
    (makeError code message : Result α) ≠ fault := by
  intro h
  cases h

/-- A loop whose body does not throw. -/
theorem forEach_ne_fault {f : α → Result Unit} {as : List α} (h : ∀ a ∈ as, f a ≠ fault) :
    forEach f as ≠ fault := by
  induction as with
  | nil => simp
  | cons a as ih =>
      rw [forEach_cons]
      refine bind_ne_fault (h a (by simp)) fun _ _ => ?_
      exact ih fun b hb => h b (by simp [hb])

theorem mapList_ne_fault {f : α → Result β} {as : List α} (h : ∀ a ∈ as, f a ≠ fault) :
    mapList f as ≠ fault := by
  induction as with
  | nil => simp
  | cons a as ih =>
      refine bind_ne_fault (h a (by simp)) fun b _ => ?_
      refine bind_ne_fault (ih fun x hx => h x (by simp [hx])) fun bs _ => ?_
      simp

theorem foldList_ne_fault {f : β → α → Result β} {as : List α}
    (h : ∀ b, ∀ a ∈ as, f b a ≠ fault) (b : β) : foldList f b as ≠ fault := by
  induction as generalizing b with
  | nil => simp
  | cons a as ih =>
      exact bind_ne_fault (h b a (by simp)) fun b' _ => ih (fun b x hx => h b x (by simp [hx])) b'

end Result

/-! ## §3. Values and rows. -/

/-- `ValueType`. -/
inductive ValueType where
  | null | int64 | string
  deriving Repr, DecidableEq

/-- `Value`. -/
inductive Value where
  | null
  | int (i : Int64)
  | string (s : Str)
  deriving DecidableEq

/-- `RowId`: a 64-bit counter value, `none` being `kInvalidRowId`.  Ids are
handed out by counting up, one for each event kept in the change log, so the
counter cannot reach its maximum and is a number here. -/
abbrev RowId := Option Nat

/-- `kInvalidRowId`. -/
def kInvalidRowId : RowId := none

/-- `RowData`. -/
structure RowData where
  rowId : RowId := kInvalidRowId
  values : List Value
  deriving DecidableEq

/-- `IsNull`. -/
def isNull : Value → Bool
  | .null => true
  | _ => false

/-- `GetValueType`. -/
def getValueType : Value → ValueType
  | .null => .null
  | .int _ => .int64
  | .string _ => .string

/-- `std::string::compare`, of which only the sign is specified. -/
def compareStrings (a b : Str) : Int := if a < b then -1 else if a = b then 0 else 1

/-- `CompareValues`; `none` where it throws.  The difference of two integers
is taken in 64 bits. -/
def compareValues : Value → Value → Option Int
  | .null, .null => some 0
  | .int a, .int b => some (a - b).toInt
  | .string a, .string b => some (compareStrings a b)
  | _, _ => none

/-- `ValueToString`. -/
def valueToString : Value → Str
  | .null => str "NULL"
  | .int i => intToString i.toInt
  | .string s => s

/-- `CanAssignToType`. -/
def canAssignToType (v : Value) (type : ValueType) (allowNull : Bool) : Bool :=
  if isNull v then allowNull else decide (getValueType v = type)

@[simp] theorem isNull_null : isNull .null = true := rfl
@[simp] theorem isNull_int (i : Int64) : isNull (.int i) = false := rfl
@[simp] theorem isNull_string (s : Str) : isNull (.string s) = false := rfl

theorem compareValues_isSome {a b : Value} (h : getValueType a = getValueType b) :
    (compareValues a b).isSome := by
  cases a <;> cases b <;> simp_all [getValueType, compareValues]

/-- Values of one type that compare as equal are equal. -/
theorem compareValues_eq_zero {a b : Value} :
    (getValueType a = getValueType b ∧ compareValues a b = some 0) ↔ a = b := by
  constructor
  · rintro ⟨htype, hcmp⟩
    cases a <;> cases b <;> simp only [getValueType, reduceCtorEq] at htype
    · rfl
    · rename_i i j
      have hsub : (i - j).toInt = 0 := by simpa [compareValues] using hcmp
      have : i - j = 0 := Int64.toInt_inj.mp hsub
      rw [Int64.sub_eq_iff_eq_add.mp this, Int64.zero_add]
    · rename_i s t
      have hstr : compareStrings s t = 0 := by simpa [compareValues] using hcmp
      unfold compareStrings at hstr
      split at hstr
      · cases hstr
      · split at hstr
        · rename_i heq
          rw [heq]
        · cases hstr
  · rintro rfl
    cases a <;> simp [compareValues, compareStrings]

end CustomDbms.Common
