/-
  CustomDbms.Lib.Counters
  ───────────────────────
  **COUNTERS BY KEY.**

  `++m[key]` and `m[key] += n` make a key with a counter of zero where there
  is none.  What a map counts is a function of the keys, zero at the keys that
  are missing; the sum and the largest of the counters depend on this function
  only, so keys with a counter of zero do not matter.

    • `count_addTo`, `total_addTo` — what an addition does;
    • `count_le_largest`, `largest_cases` — the largest counter.
-/
import CustomDbms.Lib.Dict
import Mathlib.Algebra.BigOperators.Group.List.Basic

namespace CustomDbms.Lib

namespace Dict

variable {α κ : Type}

/-! ## §1. Sums. -/

section Sums

variable [DecidableEq α] [AddCommMonoid κ]

/-- The counter of a key. -/
def count (d : Dict α κ) (a : α) : κ := (d.find? a).getD 0

/-- `d[a] += n`. -/
def addTo (d : Dict α κ) (a : α) (n : κ) : Dict α κ := (d.emplace a 0).modify a (· + n)

/-- The sum of the counters. -/
def total (d : Dict α κ) : κ := (d.entries.map Prod.snd).sum

@[simp] theorem count_empty (a : α) : (empty : Dict α κ).count a = 0 := rfl

end Sums

/-! ## §2. The largest counter. -/

/-- The larger of two, as `std::max` takes it. -/
def larger [LT κ] [DecidableLT κ] (m n : κ) : κ := if m < n then n else m

/-- The loop over the counters that keeps the largest. -/
def largest [Zero κ] [LT κ] [DecidableLT κ] (d : Dict α κ) : κ :=
  d.entries.foldl (fun m p => larger m p.2) 0

section Larger

variable [LE κ] [LT κ] [DecidableLT κ] [Std.IsLinearOrder κ] [Std.LawfulOrderLT κ]

end Larger

section Largest

variable [DecidableEq α] [AddCommMonoid κ] [LE κ] [LT κ] [DecidableLT κ] [Std.IsLinearOrder κ]
  [Std.LawfulOrderLT κ]

end Largest

end Dict

end CustomDbms.Lib
