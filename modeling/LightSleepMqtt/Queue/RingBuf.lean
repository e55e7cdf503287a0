import Mathlib.Data.Int.Notation
import LightSleepMqtt.Library.CircularBuffer

/-! The ring buffer of `ringbuf.c`. Pointers are offsets from `p_o`, and the block `p_o`
points to is the list of its cells. `RINGBUF.Valid` is the representation invariant and
`RINGBUF.bytes` the FIFO content that `RINGBUF_Put` and `RINGBUF_Get` work on. -/
namespace LightSleepMqtt.Queue
open CircularBuffer
set_option autoImplicit false

/-- `RINGBUF`; `fill_cnt` is the signed count the C tests with `<=0`. -/
structure RINGBUF where
  p_o : List UInt8
  p_r : ℕ
  p_w : ℕ
  fill_cnt : ℤ
  size : ℕ
  deriving DecidableEq

/-- `none` is the return value -1, which leaves `r` as it was. -/
def RINGBUF_Init (buf : List UInt8) (size : ℤ) : Option RINGBUF :=
  if size < 2 then none
  else some { p_o := buf, p_r := 0, p_w := 0, fill_cnt := 0, size := size.toNat }

/-- `none` is the return value -1, which leaves `r` as it was. -/
def RINGBUF_Put (r : RINGBUF) (c : UInt8) : Option RINGBUF :=
  if r.fill_cnt ≥ r.size then none
  else some { r with
    fill_cnt := r.fill_cnt + 1
    p_o := r.p_o.set r.p_w c
    p_w := if r.p_w + 1 ≥ r.size then 0 else r.p_w + 1 }

/-- `none` is the return value -1, which leaves `r` as it was. -/
def RINGBUF_Get (r : RINGBUF) : Option (UInt8 × RINGBUF) :=
  if r.fill_cnt ≤ 0 then none
  else some (r.p_o.getD r.p_r default, { r with
    fill_cnt := r.fill_cnt - 1
    p_r := if r.p_r + 1 ≥ r.size then 0 else r.p_r + 1 })

/-- The representation invariant of a ring of capacity `N`. -/
structure RINGBUF.Valid (N : ℕ) (r : RINGBUF) : Prop where
  two_le : 2 ≤ N
  size_eq : r.size = N
  block_eq : r.p_o.length = N
  fill_nonneg : 0 ≤ r.fill_cnt
  fill_le : r.fill_cnt ≤ N
  read_lt : r.p_r < N
  write_eq : r.p_w = (r.p_r + r.fill_cnt.toNat) % N

/-- The buffered bytes, oldest first. -/
def RINGBUF.bytes (r : RINGBUF) : List UInt8 := window r.p_o r.p_r r.fill_cnt.toNat

variable {N : ℕ} {r : RINGBUF}

theorem RINGBUF.Valid.bytes_length (h : r.Valid N) : (r.bytes.length : ℤ) = r.fill_cnt := by
  rw [RINGBUF.bytes, window_length]
  exact Int.toNat_of_nonneg h.fill_nonneg

theorem RINGBUF.Valid.bytes_length_le (h : r.Valid N) : r.bytes.length ≤ N := by
  have := h.bytes_length
  have := h.fill_le
  omega

theorem RINGBUF_Init_valid {size : ℕ} (h : 2 ≤ size) :
    ∃ r, RINGBUF_Init (List.replicate size 0) size = some r ∧ r.Valid size ∧ r.bytes = [] := by
  refine ⟨_, if_neg (by omega), ?_, by simp [RINGBUF.bytes]⟩
  exact {
    two_le := h
    size_eq := by simp
    block_eq := by simp
    fill_nonneg := Int.le_refl 0
    fill_le := by simp
    read_lt := by simp only; omega
    write_eq := by simp }

theorem RINGBUF_Put_free (h : r.Valid N) (hfree : r.bytes.length < N) (c : UInt8) :
    ∃ r', RINGBUF_Put r c = some r' ∧ r'.Valid N ∧ r'.bytes = r.bytes ++ [c] := by
  have hlen := h.bytes_length
  have hsize := h.size_eq
  have hfill : r.fill_cnt.toNat < N := by omega
  have hnext : (r.fill_cnt + 1).toNat = r.fill_cnt.toNat + 1 := by
    have := h.fill_nonneg
    omega
  refine ⟨_, if_neg (by omega), ?_, ?_⟩
  · have hw : (if r.p_w + 1 ≥ r.size then 0 else r.p_w + 1) = advance N r.p_w := by
      rw [hsize]
      rfl
    constructor
    · exact h.two_le
    · exact hsize
    · rw [List.length_set, h.block_eq]
    · have := h.fill_nonneg
      show 0 ≤ r.fill_cnt + 1
      omega
    · show r.fill_cnt + 1 ≤ N
      omega
    · exact h.read_lt
    · show (if r.p_w + 1 ≥ r.size then 0 else r.p_w + 1) = (r.p_r + (r.fill_cnt + 1).toNat) % N
      rw [hw, hnext, h.write_eq]
      exact advance_write (by have := h.two_le; omega)
  · show window (r.p_o.set r.p_w c) r.p_r (r.fill_cnt + 1).toNat = _
    rw [hnext, h.write_eq, ← h.block_eq]
    exact window_push r.p_o r.p_r r.fill_cnt.toNat c (by rw [h.block_eq]; exact hfill)

theorem RINGBUF_Put_full (h : r.Valid N) (hfull : r.bytes.length = N) (c : UInt8) :
    RINGBUF_Put r c = none := by
  have hlen := h.bytes_length
  have hsize := h.size_eq
  exact if_pos (by omega)

theorem RINGBUF_Get_cons (h : r.Valid N) {c : UInt8} {cs : List UInt8} (hb : r.bytes = c :: cs) :
    ∃ r', RINGBUF_Get r = some (c, r') ∧ r'.Valid N ∧ r'.bytes = cs ∧
      r'.fill_cnt.toNat + 1 = r.fill_cnt.toNat := by
  have hlen := h.bytes_length
  rw [hb, List.length_cons] at hlen
  have hle := h.fill_le
  have hprev : r.fill_cnt.toNat = (r.fill_cnt - 1).toNat + 1 := by omega
  have hpop := window_pop r.p_o r.p_r (r.fill_cnt - 1).toNat (by rw [h.block_eq]; exact h.read_lt)
  rw [← hprev] at hpop
  have hcons := hpop.symm.trans hb
  rw [List.cons.injEq] at hcons
  obtain ⟨hc, hcs⟩ := hcons
  have hr : (if r.p_r + 1 ≥ r.size then 0 else r.p_r + 1) = advance N r.p_r := by
    rw [h.size_eq]
    rfl
  refine ⟨{ r with
    fill_cnt := r.fill_cnt - 1
    p_r := if r.p_r + 1 ≥ r.size then 0 else r.p_r + 1 }, ?_, ?_, ?_, ?_⟩
  · rw [RINGBUF_Get, if_neg (by omega), hc]
  · constructor
    · exact h.two_le
    · exact h.size_eq
    · exact h.block_eq
    · show 0 ≤ r.fill_cnt - 1
      omega
    · show r.fill_cnt - 1 ≤ N
      omega
    · rw [hr]
      exact advance_lt h.read_lt
    · rw [hr]
      show r.p_w = (advance N r.p_r + (r.fill_cnt - 1).toNat) % N
      rw [advance_read h.read_lt, ← hprev]
      exact h.write_eq
  · show window r.p_o (if r.p_r + 1 ≥ r.size then 0 else r.p_r + 1) (r.fill_cnt - 1).toNat = cs
    rw [hr, ← h.block_eq]
    exact hcs
  · exact hprev.symm

end LightSleepMqtt.Queue
