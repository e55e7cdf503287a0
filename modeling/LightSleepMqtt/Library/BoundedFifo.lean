import Mathlib.Data.List.Basic

/-! A first-in first-out queue of a fixed capacity, over arbitrary items. A put is refused when the
queue is full and a get when it is empty; either leaves the queue as it was. -/
namespace BoundedFifo
set_option autoImplicit false

variable {α : Type}

inductive Call (α : Type) where
  | put (a : α)
  | get

inductive Reply (α : Type) where
  | refused
  | done
  | got (a : α)
  deriving DecidableEq

def step (capacity : ℕ) (queue : List α) : Call α → Option (List α × Reply α)
  | .put a => some (if capacity ≤ queue.length then (queue, .refused) else (queue ++ [a], .done))
  | .get =>
    match queue with
    | [] => some ([], .refused)
    | a :: queue => some (queue, .got a)

variable {capacity : ℕ} {queue : List α}

theorem step_put_full (h : capacity ≤ queue.length) (a : α) :
    step capacity queue (.put a) = some (queue, .refused) := by rw [step, if_pos h]

theorem step_put_free (h : queue.length < capacity) (a : α) :
    step capacity queue (.put a) = some (queue ++ [a], .done) := by rw [step, if_neg (Nat.not_le.mpr h)]

end BoundedFifo
