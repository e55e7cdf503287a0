import LightSleepMqtt.Library.BoundedFifo
import LightSleepMqtt.Library.Transition
import LightSleepMqtt.Queue.RingBuf

/-! The ring buffer as a queue of bytes: whatever is put into it and got from it, its answers are
those of a first-in first-out queue of its size. -/
namespace LightSleepMqtt.Queue
open BoundedFifo CircularBuffer Transition
set_option autoImplicit false

/-- A call with its answer: `refused` is the return value -1. -/
def RINGBUF.call (r : RINGBUF) : Call UInt8 → Option (RINGBUF × Reply UInt8)
  | .put c =>
    match RINGBUF_Put r c with
    | none => some (r, .refused)
    | some r => some (r, .done)
  | .get =>
    match RINGBUF_Get r with
    | none => some (r, .refused)
    | some (c, r) => some (r, .got c)

variable {N : ℕ} {r : RINGBUF}

/-- A ring in a block with any bytes in it. -/
theorem RINGBUF_Init_block (h : 2 ≤ N) {buf : List UInt8} (hbuf : buf.length = N) :
    ∃ r, RINGBUF_Init buf N = some r ∧ r.Valid N ∧ r.bytes = [] := by
  refine ⟨⟨buf, 0, 0, 0, N⟩, if_neg (by omega), ?_, rfl⟩
  have hpos : 0 < N := by omega
  exact ⟨h, rfl, hbuf, Int.le_refl 0, Int.natCast_nonneg N, hpos, (Nat.zero_mod N).symm⟩

theorem RINGBUF_Get_nil (h : r.Valid N) (hb : r.bytes = []) : RINGBUF_Get r = none := by
  have hlen := h.bytes_length
  rw [hb, List.length_nil] at hlen
  exact if_pos (by omega)

theorem RINGBUF.Valid.write_lt (h : r.Valid N) : r.p_w < N := by
  have := h.two_le
  rw [h.write_eq]
  exact Nat.mod_lt _ (by omega)

/-- A ring answers as the queue of its bytes does. -/
theorem RINGBUF.Valid.call (h : r.Valid N) (c : Call UInt8) :
    ∃ r' queue reply, r.call c = some (r', reply) ∧ step N r.bytes c = some (queue, reply) ∧
      r'.Valid N ∧ r'.bytes = queue := by
  cases c with
  | put c =>
    by_cases hfull : r.bytes.length = N
    · refine ⟨r, r.bytes, .refused, ?_, step_put_full (Nat.le_of_eq hfull.symm) c, h, rfl⟩
      rw [RINGBUF.call, RINGBUF_Put_full h hfull]
    · have hfree : r.bytes.length < N := Nat.lt_of_le_of_ne h.bytes_length_le hfull
      obtain ⟨r', hput, hvalid, hbytes⟩ := RINGBUF_Put_free h hfree c
      refine ⟨r', r.bytes ++ [c], .done, ?_, step_put_free hfree c, hvalid, hbytes⟩
      rw [RINGBUF.call, hput]
  | get =>
    cases hb : r.bytes with
    | nil =>
      refine ⟨r, [], .refused, ?_, rfl, h, hb⟩
      rw [RINGBUF.call, RINGBUF_Get_nil h hb]
    | cons c cs =>
      obtain ⟨r', hget, hvalid, hbytes, _⟩ := RINGBUF_Get_cons h hb
      refine ⟨r', cs, .got c, ?_, rfl, hvalid, hbytes⟩
      rw [RINGBUF.call, hget]

/-- **The ring buffer refines a bounded queue of bytes**, and its pointers and its count stay in
their ranges. -/
theorem ring_refines_fifo (hN : 2 ≤ N) {buf : List UInt8} (hbuf : buf.length = N) (calls : List (Call UInt8)) :
    ∃ r₀ r queue replies, RINGBUF_Init buf N = some r₀ ∧
      react RINGBUF.call r₀ calls = some (r, replies) ∧ react (step N) [] calls = some (queue, replies) ∧
      r.p_r < N ∧ r.p_w < N ∧ 0 ≤ r.fill_cnt ∧ r.fill_cnt ≤ N ∧ r.p_w = (r.p_r + r.fill_cnt.toNat) % N := by
  obtain ⟨r₀, hinit, hvalid, hbytes⟩ := RINGBUF_Init_block hN hbuf
  obtain ⟨r, queue, replies, hring, hqueue, h, _⟩ :=
    react_simulates (R := fun r queue => RINGBUF.Valid N r ∧ r.bytes = queue)
      (fun c h => h.2 ▸ h.1.call c) ⟨hvalid, hbytes⟩ calls
  exact ⟨r₀, r, queue, replies, hinit, hring, hqueue, h.read_lt, h.write_lt, h.fill_nonneg, h.fill_le, h.write_eq⟩

/-- A ring of two bytes that runs full, wraps and runs empty. -/
theorem ring_refines_fifo_two :
    ∃ r₀ r queue replies, RINGBUF_Init [7, 7] 2 = some r₀ ∧
      react RINGBUF.call r₀ [.put 1, .put 2, .put 3, .get, .put 4, .get, .get, .get] = some (r, replies) ∧
      react (step 2) [] [.put 1, .put 2, .put 3, .get, .put 4, .get, .get, .get] = some (queue, replies) ∧
      r.p_r < 2 ∧ r.p_w < 2 ∧ 0 ≤ r.fill_cnt ∧ r.fill_cnt ≤ 2 ∧ r.p_w = (r.p_r + r.fill_cnt.toNat) % 2 :=
  ring_refines_fifo (Nat.le_refl 2) rfl _

example : (react (step 2) [] [.put 1, .put 2, .put 3, .get, .put 4, .get, .get, .get]).map Prod.snd =
    some ([.done, .done, .refused, .got 1, .done, .got 2, .got 4, .refused] : List (Reply UInt8)) := by decide

end LightSleepMqtt.Queue
