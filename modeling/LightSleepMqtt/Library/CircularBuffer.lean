import Mathlib.Data.List.Basic

/-! Circular storage over an arbitrary cell type: a window of `n` cells that starts
at index `r` and wraps at the end of the memory. Writing the cell behind the window
appends to it, advancing `r` drops its head; both are stated for the window as a list. -/
namespace CircularBuffer
set_option autoImplicit false

variable {α : Type} [Inhabited α]

/-- The `n` cells from index `r` on, oldest first. -/
def window (mem : List α) (r n : ℕ) : List α :=
  (List.range n).map fun i => mem.getD ((r + i) % mem.length) default

/-- The cursor after `i` in a memory of `size` cells. -/
def advance (size i : ℕ) : ℕ := if size ≤ i + 1 then 0 else i + 1

theorem advance_eq_mod {size i : ℕ} (hi : i < size) : advance size i = (i + 1) % size := by
  unfold advance
  split
  · have he : i + 1 = size := by omega
    rw [he, Nat.mod_self]
  · rw [Nat.mod_eq_of_lt (by omega)]

theorem advance_lt {size i : ℕ} (hi : i < size) : advance size i < size := by
  rw [advance_eq_mod hi]
  exact Nat.mod_lt _ (by omega)

@[simp] theorem window_length (mem : List α) (r n : ℕ) : (window mem r n).length = n := by
  simp [window]

@[simp] theorem window_zero (mem : List α) (r : ℕ) : window mem r 0 = [] := rfl

theorem offset_ne {size r i j : ℕ} (hi : i < j) (hj : j < size) :
    (r + i) % size ≠ (r + j) % size := by
  intro h
  have hd : (r + j - (r + i)) % size = 0 := Nat.sub_mod_eq_zero_of_mod_eq h.symm
  rw [show r + j - (r + i) = j - i by omega, Nat.mod_eq_of_lt (by omega)] at hd
  omega

theorem window_push (mem : List α) (r n : ℕ) (x : α) (hn : n < mem.length) :
    window (mem.set ((r + n) % mem.length) x) r (n + 1) = window mem r n ++ [x] := by
  unfold window
  rw [List.range_succ, List.map_append, List.length_set]
  congr 1
  · apply List.map_congr_left
    intro i hi
    have hne : (r + i) % mem.length ≠ (r + n) % mem.length := offset_ne (List.mem_range.mp hi) hn
    simp [List.getD_eq_getElem?_getD, List.getElem?_set_ne hne.symm]
  · have hlt : (r + n) % mem.length < mem.length := Nat.mod_lt _ (by omega)
    simp [List.getD_eq_getElem?_getD, hlt]

theorem window_pop (mem : List α) (r n : ℕ) (hr : r < mem.length) :
    window mem r (n + 1) = mem.getD r default :: window mem (advance mem.length r) n := by
  unfold window
  rw [List.range_succ_eq_map, List.map_cons, List.map_map, Nat.add_zero, Nat.mod_eq_of_lt hr]
  congr 1
  apply List.map_congr_left
  intro i _
  rw [advance_eq_mod hr, Nat.mod_add_mod]
  simp [Nat.add_assoc, Nat.add_comm 1 i]

theorem advance_write {size r n : ℕ} (hs : 0 < size) :
    advance size ((r + n) % size) = (r + (n + 1)) % size := by
  rw [advance_eq_mod (Nat.mod_lt _ hs), Nat.mod_add_mod, Nat.add_assoc]

theorem advance_read {size r n : ℕ} (hr : r < size) :
    (advance size r + n) % size = (r + (n + 1)) % size := by
  rw [advance_eq_mod hr, Nat.mod_add_mod, Nat.add_assoc, Nat.add_comm 1 n]

end CircularBuffer
