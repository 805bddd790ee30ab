/-
  CustomDbms.Lib.Accesses
  ───────────────────────
  **PROGRAMS THAT RECORD THEIR ACCESSES.**

  A computation of a monad `m` is run together with the list of the accesses it
  makes to vectors and optional values, in the order it makes them.  An access
  out of range ends the computation; it stands in the list like any other.

    • `outcome_bind`, `outcome_foldlM`, … — forgetting the list gives the
      computation of `m` back.
    • `Safe.bind`, `Safe.foldlM`, … — the accesses of a program are in range
      when those of its parts are.
-/
import Mathlib.Data.List.Basic

namespace CustomDbms.Lib

/-! ## §1. Accesses. -/

/-- An access `v[index]` to a vector of `length` elements.  Reading an optional
is an access at 0 to the vector of its elements. -/
structure Access where
  index : Nat
  length : Nat
  deriving DecidableEq

/-- The element exists. -/
def Access.InRange (a : Access) : Prop := a.index < a.length

instance decidableInRange (a : Access) : Decidable a.InRange :=
  inferInstanceAs (Decidable (a.index < a.length))

/-- What a computation of `m` ends with: a value for the rest to go on with,
or none.  `undefined` is the end of an access out of range. -/
class Fallible (m : Type → Type) where
  value? {α : Type} : m α → Option α
  undefined {α : Type} : m α

/-- A computation of `m` and its accesses. -/
structure Traced (m : Type → Type) (α : Type) where
  trace : List Access
  outcome : m α

namespace Traced

variable {m : Type → Type} [Monad m] [Fallible m] {α β γ : Type}

/-- Sequencing: the second part runs on the value of the first. -/
def bind (x : Traced m α) (f : α → Traced m β) : Traced m β where
  trace := x.trace ++ ((Fallible.value? x.outcome).map fun a => (f a).trace).getD []
  outcome := x.outcome >>= fun a => (f a).outcome

instance : Monad (Traced m) where
  pure a := ⟨[], pure a⟩
  bind := Traced.bind

/-- A computation without accesses. -/
def lift (r : m α) : Traced m α := ⟨[], r⟩

/-- `v[i]`. -/
def read (v : List α) (i : Nat) : Traced m α where
  trace := [⟨i, v.length⟩]
  outcome := v[i]?.elim Fallible.undefined pure

/-- `v[i] = a`. -/
def write (v : List α) (i : Nat) (a : α) : Traced m (List α) where
  trace := [⟨i, v.length⟩]
  outcome := if i < v.length then pure (v.set i a) else Fallible.undefined

/-- `*o`. -/
def deref (o : Option α) : Traced m α := read o.toList 0

/-! ## §2. Forgetting the accesses. -/

@[simp] theorem outcome_pure (a : α) : (pure a : Traced m α).outcome = pure a := rfl
omit [Monad m] [Fallible m] in
@[simp] theorem outcome_lift (r : m α) : (lift r).outcome = r := rfl
@[simp] theorem outcome_bind (x : Traced m α) (f : α → Traced m β) :
    (x >>= f).outcome = x.outcome >>= fun a => (f a).outcome := rfl

omit [Monad m] [Fallible m] in
theorem outcome_ite (c : Prop) [Decidable c] (x y : Traced m α) :
    (if c then x else y).outcome = if c then x.outcome else y.outcome := by
  split <;> rfl

theorem outcome_foldlM (f : β → α → Traced m β) (l : List α) (b : β) :
    (l.foldlM f b).outcome = l.foldlM (fun b a => (f b a).outcome) b := by
  induction l generalizing b with
  | nil => rfl
  | cons a l ih =>
      rw [List.foldlM_cons, List.foldlM_cons, outcome_bind]
      exact congrArg _ (funext fun b' => ih b')

theorem outcome_mapM' (f : α → Traced m β) (l : List α) :
    (l.mapM' f).outcome = l.mapM' fun a => (f a).outcome := by
  induction l with
  | nil => rfl
  | cons a l ih =>
      show ((f a).outcome >>= fun b => (l.mapM' f).outcome >>= fun bs => pure (b :: bs)) = _
      rw [ih]
      rfl

theorem outcome_forM (f : α → Traced m PUnit) (l : List α) :
    (l.forM f).outcome = l.forM fun a => (f a).outcome := by
  induction l with
  | nil => rfl
  | cons a l ih =>
      show ((f a).outcome >>= fun _ => (l.forM f).outcome) = _
      rw [ih]
      rfl

/-! ## §3. Accesses in range. -/

/-- Every access is in range. -/
def Safe (x : Traced m α) : Prop := ∀ a ∈ x.trace, a.InRange

theorem Safe.pure (a : α) : (pure a : Traced m α).Safe := fun _ h => (List.not_mem_nil h).elim

omit [Monad m] [Fallible m] in
theorem Safe.lift (r : m α) : (lift r).Safe := fun _ h => (List.not_mem_nil h).elim

theorem Safe.read {v : List α} {i : Nat} (h : i < v.length) : (read v i : Traced m α).Safe := by
  intro a ha
  rw [List.mem_singleton.mp ha]
  exact h

theorem Safe.write {v : List α} {i : Nat} (h : i < v.length) (a : α) :
    (write v i a : Traced m _).Safe := by
  intro a ha
  rw [List.mem_singleton.mp ha]
  exact h

theorem Safe.deref {o : Option α} (h : o.isSome) : (deref o : Traced m α).Safe := by
  obtain ⟨a, rfl⟩ := Option.isSome_iff_exists.mp h
  exact Safe.read (by simp)

/-- **Sequencing**: the second part has to be safe on the values the first can
end with. -/
theorem Safe.bind {x : Traced m α} {f : α → Traced m β} (hx : x.Safe)
    (hf : ∀ a, Fallible.value? x.outcome = some a → (f a).Safe) : (x >>= f).Safe := by
  intro acc hacc
  rcases List.mem_append.mp hacc with hacc | hacc
  · exact hx acc hacc
  · cases hv : Fallible.value? x.outcome with
    | none => simp [hv] at hacc
    | some a =>
        rw [hv] at hacc
        exact hf a hv acc hacc

omit [Monad m] [Fallible m] in
theorem Safe.ite {c : Prop} [Decidable c] {x y : Traced m α} (hx : c → x.Safe) (hy : ¬ c → y.Safe) :
    (if c then x else y).Safe := by
  split
  · rename_i h
    exact hx h
  · rename_i h
    exact hy h

/-- **A loop that updates an accumulator**: `I` holds of the accumulator
before every turn. -/
theorem Safe.foldlM {f : β → α → Traced m β} {I : β → Prop} {l : List α}
    (hsafe : ∀ b, I b → ∀ a ∈ l, (f b a).Safe)
    (hkeep : ∀ b, I b → ∀ a ∈ l, ∀ b', Fallible.value? (f b a).outcome = some b' → I b')
    {b : β} (hb : I b) : (l.foldlM f b).Safe := by
  induction l generalizing b with
  | nil => exact Safe.pure b
  | cons a l ih =>
      rw [List.foldlM_cons]
      apply Safe.bind (hsafe b hb a (List.mem_cons_self ..))
      intro b' hb'
      apply ih (fun b hb a ha => hsafe b hb a (List.mem_cons_of_mem _ ha))
        (fun b hb a ha => hkeep b hb a (List.mem_cons_of_mem _ ha))
      exact hkeep b hb a (List.mem_cons_self ..) b' hb'

/-- **A loop that collects one value for each element.** -/
theorem Safe.mapM' {f : α → Traced m β} {l : List α} (h : ∀ a ∈ l, (f a).Safe) :
    (l.mapM' f).Safe := by
  induction l with
  | nil => exact Safe.pure []
  | cons a l ih =>
      apply Safe.bind (h a (List.mem_cons_self ..))
      intro b _
      apply Safe.bind (ih fun a ha => h a (List.mem_cons_of_mem _ ha))
      intro bs _
      exact Safe.pure _

/-- **A loop of checks.** -/
theorem Safe.forM {f : α → Traced m PUnit} {l : List α} (h : ∀ a ∈ l, (f a).Safe) :
    (l.forM f).Safe := by
  induction l with
  | nil => exact Safe.pure _
  | cons a l ih =>
      apply Safe.bind (h a (List.mem_cons_self ..))
      intro _ _
      exact ih fun a ha => h a (List.mem_cons_of_mem _ ha)

end Traced

end CustomDbms.Lib
