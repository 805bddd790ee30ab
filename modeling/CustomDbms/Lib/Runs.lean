/-
  CustomDbms.Lib.Runs
  ───────────────────
  **RUNS OF A MACHINE THAT ANSWERS.**

  A machine takes a state and an input to a state and an answer.  `Along P` says
  that every input of a run meets `P` in the state it arrives in.

    • `Along.invariant`  — what one step keeps, a run keeps.
    • `Along.related`    — a relation between two states that every step keeps,
      with equal answers, gives two runs equal answers.
    • `exists_of_not_along` — a run that leaves `P` has a first part, and then
      the input that does.
-/
namespace CustomDbms.Lib

variable {σ α β : Type}

/-- A machine that answers each input. -/
abbrev Machine (σ α β : Type) := σ → α → σ × β

namespace Machine

/-- The state after a sequence of inputs. -/
def run (m : Machine σ α β) : σ → List α → σ
  | s, [] => s
  | s, a :: as => run m (m s a).1 as

/-- The answers to a sequence of inputs. -/
def answers (m : Machine σ α β) : σ → List α → List β
  | _, [] => []
  | s, a :: as => (m s a).2 :: answers m (m s a).1 as

/-- Every input meets `P` in the state it arrives in. -/
def Along (m : Machine σ α β) (P : σ → α → Prop) : σ → List α → Prop
  | _, [] => True
  | s, a :: as => P s a ∧ Along m P (m s a).1 as

variable {m : Machine σ α β} {P Q : σ → α → Prop}

instance decidableAlong [∀ s a, Decidable (P s a)] : ∀ s as, Decidable (Along m P s as)
  | _, [] => .isTrue trivial
  | s, a :: as =>
      have := decidableAlong (m s a).1 as
      inferInstanceAs (Decidable (P s a ∧ Along m P (m s a).1 as))

theorem run_append (s : σ) (as bs : List α) : run m s (as ++ bs) = run m (run m s as) bs := by
  induction as generalizing s with
  | nil => rfl
  | cons a as ih => exact ih (m s a).1

theorem along_append {s : σ} {as bs : List α} :
    Along m P s (as ++ bs) ↔ Along m P s as ∧ Along m P (run m s as) bs := by
  induction as generalizing s with
  | nil => simp [Along, run]
  | cons a as ih => simp [Along, run, ih, and_assoc]

theorem Along.and {s : σ} {as : List α} (h : Along m P s as) (h' : Along m Q s as) :
    Along m (fun s a => P s a ∧ Q s a) s as := by
  induction as generalizing s with
  | nil => trivial
  | cons a as ih => exact ⟨⟨h.1, h'.1⟩, ih h.2 h'.2⟩

/-- **What one step keeps, a run keeps.** -/
theorem Along.invariant {I : σ → Prop} (hstep : ∀ s a, I s → P s a → I (m s a).1) {s : σ}
    {as : List α} (h : Along m P s as) (hs : I s) : I (run m s as) := by
  induction as generalizing s with
  | nil => exact hs
  | cons a as ih => exact ih h.2 (hstep s a hs h.1)

/-- Two conditions along one run, with an invariant of it. -/
theorem Along.imp {I : σ → Prop} (hstep : ∀ s a, I s → P s a → I (m s a).1)
    (himp : ∀ s a, I s → P s a → Q s a) {s : σ} {as : List α} (h : Along m P s as) (hs : I s) :
    Along m Q s as := by
  induction as generalizing s with
  | nil => trivial
  | cons a as ih => exact ⟨himp s a hs h.1, ih h.2 (hstep s a hs h.1)⟩

/-- **Runs from related states give equal answers**, where each step does and
keeps the relation. -/
theorem Along.related {R : σ → σ → Prop}
    (hstep : ∀ s s' a, R s s' → P s a → (m s a).2 = (m s' a).2 ∧ R (m s a).1 (m s' a).1)
    {s s' : σ} {as : List α} (h : Along m P s as) (hs : R s s') :
    answers m s as = answers m s' as := by
  induction as generalizing s s' with
  | nil => rfl
  | cons a as ih =>
      obtain ⟨hout, hnext⟩ := hstep s s' a hs h.1
      rw [answers, answers, hout, ih h.2 hnext]

/-- **A run that leaves `P`** does so at some input. -/
theorem exists_of_not_along {s : σ} {as : List α} (h : ¬ Along m P s as) :
    ∃ front a back, as = front ++ a :: back ∧ ¬ P (run m s front) a := by
  induction as generalizing s with
  | nil => exact absurd trivial h
  | cons a as ih =>
      by_cases ha : P s a
      · obtain ⟨front, b, back, hsplit, hb⟩ := ih fun hrest => h ⟨ha, hrest⟩
        exact ⟨a :: front, b, back, by rw [hsplit]; rfl, hb⟩
      · exact ⟨[], a, as, rfl, ha⟩

end Machine

end CustomDbms.Lib
