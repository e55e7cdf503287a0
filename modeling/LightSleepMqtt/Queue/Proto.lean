import Mathlib.Data.Int.Notation
import LightSleepMqtt.Library.ByteStuffing
import LightSleepMqtt.Queue.RingBuf

/-! The byte-stuffed frames of `proto.c`: `PROTO_AddRb` writes one frame into the ring
and may stop half-way when the ring is full, `PROTO_ParseRb` reads up to the end of the
next whole frame. `PROTO_PARSER` is related to the unbounded receiver of the framing
library; the only difference is that it stores at most `bufSize` bytes. -/
namespace LightSleepMqtt.Queue
open ByteStuffing
set_option autoImplicit false

/-- `PROTO_PARSER` without its completion callback, which `PROTO_ParseRb` passes as NULL. -/
structure PROTO_PARSER where
  buf : List UInt8
  bufSize : UInt16
  dataLen : ℕ
  isEsc : UInt8
  isBegin : UInt8
  deriving DecidableEq

/-- Every field but `isBegin` is set. -/
def PROTO_Init (parser : PROTO_PARSER) (buf : List UInt8) (bufSize : UInt16) : PROTO_PARSER :=
  { parser with buf := buf, bufSize := bufSize, dataLen := 0, isEsc := 0 }

def PROTO_ParseByte (parser : PROTO_PARSER) (value : UInt8) : PROTO_PARSER × ℤ :=
  if value = 0x7D then ({ parser with isEsc := 1 }, -1)
  else if value = 0x7E then ({ parser with dataLen := 0, isEsc := 0, isBegin := 1 }, -1)
  else if value = 0x7F then ({ parser with isBegin := 0 }, 0)
  else if parser.isBegin = 0 then (parser, -1)
  else
    let value := if parser.isEsc ≠ 0 then value ^^^ 0x20 else value
    let parser := { parser with isEsc := 0 }
    if parser.dataLen < parser.bufSize.toNat then
      ({ parser with buf := parser.buf.set parser.dataLen value, dataLen := parser.dataLen + 1 }, -1)
    else (parser, -1)

/-- The loop of `PROTO_ParseRb`; `fuel` counts the bytes still in the ring. -/
def parseRbLoop : ℕ → RINGBUF → PROTO_PARSER → RINGBUF × Option PROTO_PARSER
  | 0, rb, _ => (rb, none)
  | fuel + 1, rb, proto =>
    match RINGBUF_Get rb with
    | none => (rb, none)
    | some (c, rb) =>
      let parsed := PROTO_ParseByte proto c
      if parsed.2 = 0 then (rb, some parsed.1) else parseRbLoop fuel rb parsed.1

/-- `isBegin` is what the uninitialised field of the local parser holds. The result is the
buffer with `*len`, or `none` for the return value -1. -/
def PROTO_ParseRb (rb : RINGBUF) (bufOut : List UInt8) (maxBufLen : UInt16) (isBegin : UInt8) :
    RINGBUF × Option (List UInt8 × ℕ) :=
  let proto := PROTO_Init ⟨[], 0, 0, 0, isBegin⟩ bufOut maxBufLen
  match parseRbLoop rb.fill_cnt.toNat rb proto with
  | (rb, some proto) => (rb, some (proto.buf, proto.dataLen))
  | (rb, none) => (rb, none)

/-- The loop of `PROTO_AddRb` over the rest of the packet, with its closing byte. -/
def addRbLoop (rb : RINGBUF) : List UInt8 → UInt16 → RINGBUF × Int16
  | [], i =>
    match RINGBUF_Put rb 0x7F with
    | none => (rb, -1)
    | some rb => (rb, i.toInt16)
  | b :: packet, i =>
    if b = 0x7D ∨ b = 0x7E ∨ b = 0x7F then
      match RINGBUF_Put rb 0x7D with
      | none => (rb, -1)
      | some rb =>
        match RINGBUF_Put rb (b ^^^ 0x20) with
        | none => (rb, -1)
        | some rb => addRbLoop rb packet (i + 2)
    else
      match RINGBUF_Put rb b with
      | none => (rb, -1)
      | some rb => addRbLoop rb packet (i + 1)

/-- `packet` is the first `len` bytes of the caller's buffer: `len--` runs the signed
parameter through all 2^16 values, so its sign does not matter. -/
def PROTO_AddRb (rb : RINGBUF) (packet : List UInt8) : RINGBUF × Int16 :=
  match RINGBUF_Put rb 0x7E with
  | none => (rb, -1)
  | some rb => addRbLoop rb packet 2

/-- The three delimiters of `proto.c` and the bit it flips in an escaped byte. -/
def delimiters : Delimiters UInt8 where
  esc := 0x7D
  start := 0x7E
  stop := 0x7F
  mask := fun b => b ^^^ 0x20
  esc_ne_start := by decide
  esc_ne_stop := by decide
  start_ne_stop := by decide
  mask_mask := fun b => by rw [UInt8.xor_assoc, UInt8.xor_self, UInt8.xor_zero]
  mask_esc := by decide
  mask_start := by decide
  mask_stop := by decide

@[simp] theorem delimiters_mask (b : UInt8) : delimiters.mask b = b ^^^ 0x20 := rfl

theorem feed_delimiters (s : Receiver UInt8) (c : UInt8) :
    s.feed delimiters c =
      if c = 0x7D then ({ s with escaped := true }, false)
      else if c = 0x7E then (⟨true, false, []⟩, false)
      else if c = 0x7F then ({ s with opened := false }, true)
      else if s.opened then
        (⟨s.opened, false, s.payload ++ [if s.escaped then c ^^^ 0x20 else c]⟩, false)
      else (s, false) := rfl

/-- A packet as it stands in the ring. -/
abbrev stuff (packet : List UInt8) : List UInt8 := frame delimiters packet

/-! ## Reading -/

/-- The parser is at the state `s` of the receiver, cut to `bufSize` bytes. -/
structure PROTO_PARSER.At (p : PROTO_PARSER) (s : Receiver UInt8) : Prop where
  room : p.bufSize.toNat ≤ p.buf.length
  escaped : p.isEsc ≠ 0 ↔ s.escaped = true
  opened : p.isBegin ≠ 0 ↔ s.opened = true
  dataLen : p.dataLen = min s.payload.length p.bufSize.toNat
  data : p.buf.take p.dataLen = s.payload.take p.bufSize.toNat

theorem take_set_succ {α : Type} (l : List α) (n : ℕ) (x : α) (h : n < l.length) :
    (l.set n x).take (n + 1) = l.take n ++ [x] := by
  rw [List.take_set, List.take_add_one, List.getElem?_eq_getElem h, Option.toList_some,
    List.set_append_right _ _ (by rw [List.length_take]; omega)]
  congr 1
  rw [List.length_take, Nat.min_eq_left (by omega), Nat.sub_self]
  rfl

theorem PROTO_ParseByte_sim {p : PROTO_PARSER} {s : Receiver UInt8} (h : p.At s) (c : UInt8) :
    (PROTO_ParseByte p c).1.At (s.feed delimiters c).1 ∧
      (PROTO_ParseByte p c).1.bufSize = p.bufSize ∧
      ((PROTO_ParseByte p c).2 = 0 ↔ (s.feed delimiters c).2 = true) := by
  rw [PROTO_ParseByte, feed_delimiters]
  by_cases hesc : c = 0x7D
  · rw [if_pos hesc, if_pos hesc]
    exact ⟨⟨h.room, by simp, h.opened, h.dataLen, h.data⟩, rfl, by simp⟩
  by_cases hstart : c = 0x7E
  · rw [if_neg hesc, if_neg hesc, if_pos hstart, if_pos hstart]
    exact ⟨⟨h.room, by simp, by simp, by simp, by simp⟩, rfl, by simp⟩
  by_cases hstop : c = 0x7F
  · rw [if_neg hesc, if_neg hesc, if_neg hstart, if_neg hstart, if_pos hstop, if_pos hstop]
    exact ⟨⟨h.room, h.escaped, by simp, h.dataLen, h.data⟩, rfl, by simp⟩
  rw [if_neg hesc, if_neg hesc, if_neg hstart, if_neg hstart, if_neg hstop, if_neg hstop]
  by_cases hbegin : p.isBegin = 0
  · have hopen : ¬ s.opened = true := fun ho => h.opened.mpr ho hbegin
    rw [if_pos hbegin, if_neg hopen]
    exact ⟨h, rfl, by simp⟩
  rw [if_neg hbegin, if_pos (h.opened.mp hbegin)]
  have hvalue : (if p.isEsc ≠ 0 then c ^^^ 0x20 else c) =
      (if s.escaped then c ^^^ 0x20 else c) := by
    simp only [h.escaped]
  simp only [hvalue]
  by_cases hroom : p.dataLen < p.bufSize.toNat
  · -- below the limit the byte is stored on both sides
    have hlen : p.dataLen = s.payload.length := by have := h.dataLen; omega
    have hdata := h.data
    rw [List.take_of_length_le (l := s.payload) (by omega)] at hdata
    rw [if_pos hroom]
    refine ⟨⟨?_, by simp, h.opened, ?_, ?_⟩, rfl, by simp⟩
    · rw [List.length_set]
      exact h.room
    · show p.dataLen + 1 = min (s.payload ++ [_]).length p.bufSize.toNat
      rw [List.length_append, List.length_singleton]
      omega
    · show (p.buf.set p.dataLen _).take (p.dataLen + 1) = (s.payload ++ [_]).take p.bufSize.toNat
      rw [take_set_succ _ _ _ (by have := h.room; omega), hdata,
        List.take_of_length_le (by rw [List.length_append, List.length_singleton]; omega)]
  · -- at the limit the parser drops what the receiver still appends
    rw [if_neg hroom]
    have hlen : p.bufSize.toNat ≤ s.payload.length := by have := h.dataLen; omega
    refine ⟨⟨h.room, by simp, h.opened, ?_, ?_⟩, rfl, by simp⟩
    · show p.dataLen = min (s.payload ++ [_]).length p.bufSize.toNat
      rw [List.length_append, List.length_singleton]
      have := h.dataLen
      omega
    · show p.buf.take p.dataLen = (s.payload ++ [_]).take p.bufSize.toNat
      rw [h.data, List.take_append_of_le_length hlen]

theorem parseRbLoop_spec {N : ℕ} (bs : List UInt8) {rb : RINGBUF} (h : rb.Valid N) (hb : rb.bytes = bs)
    {p : PROTO_PARSER} {s : Receiver UInt8} (hp : p.At s) :
    match s.run delimiters bs with
    | none => ∃ rb', parseRbLoop rb.fill_cnt.toNat rb p = (rb', none) ∧ rb'.Valid N ∧ rb'.bytes = []
    | some (s', rest) => ∃ rb' p', parseRbLoop rb.fill_cnt.toNat rb p = (rb', some p') ∧
        rb'.Valid N ∧ rb'.bytes = rest ∧ p'.At s' ∧ p'.bufSize = p.bufSize := by
  induction bs generalizing rb p s with
  | nil =>
    have hz : rb.fill_cnt.toNat = 0 := by
      have := h.bytes_length
      rw [hb, List.length_nil] at this
      omega
    rw [Receiver.run, hz]
    exact ⟨rb, rfl, h, hb⟩
  | cons c bs ih =>
    obtain ⟨rb', hget, hvalid, hrest, hfuel⟩ := RINGBUF_Get_cons h hb
    obtain ⟨hat, hsize, hdone⟩ := PROTO_ParseByte_sim hp c
    rw [← hfuel, parseRbLoop, hget, Receiver.run]
    rcases hfeed : s.feed delimiters c with ⟨s', done⟩
    rcases hbyte : PROTO_ParseByte p c with ⟨p', ret⟩
    rw [hfeed, hbyte] at hat hdone
    rw [hbyte] at hsize
    simp only at hat hdone hsize
    cases done with
    | true =>
      have hret : ret = 0 := hdone.mpr rfl
      refine ⟨rb', p', ?_, hvalid, hrest, hat, hsize⟩
      simp only [hbyte, hret, if_true]
    | false =>
      have hret : ret ≠ 0 := fun hr => by simpa using hdone.mp hr
      have hloop := ih hvalid hrest hat
      rw [hsize] at hloop
      simp only [hbyte, if_neg hret]
      exact hloop

/-- The uninitialised `isBegin` is one of the states the receiver may start in. -/
theorem PROTO_Init_at (buf : List UInt8) (bufSize : UInt16) (isBegin : UInt8)
    (hbuf : bufSize.toNat ≤ buf.length) :
    (PROTO_Init ⟨[], 0, 0, 0, isBegin⟩ buf bufSize).At ⟨decide (isBegin ≠ 0), false, []⟩ where
  room := hbuf
  escaped := by simp [PROTO_Init]
  opened := by simp [PROTO_Init]
  dataLen := by simp [PROTO_Init]
  data := by simp [PROTO_Init]

section
variable {N : ℕ} {rb : RINGBUF} (h : rb.Valid N)
include h

/-- The next whole frame is read and everything in front of it is dropped. -/
theorem PROTO_ParseRb_whole {j p rest : List UInt8} (hj : (0x7F : UInt8) ∉ j)
    (hb : rb.bytes = j ++ stuff p ++ rest) (bufOut : List UInt8) (maxBufLen : UInt16) (isBegin : UInt8)
    (hbuf : maxBufLen.toNat ≤ bufOut.length) :
    ∃ rb' buf, PROTO_ParseRb rb bufOut maxBufLen isBegin =
        (rb', some (buf, min p.length maxBufLen.toNat)) ∧
      rb'.Valid N ∧ rb'.bytes = rest ∧ maxBufLen.toNat ≤ buf.length ∧
      buf.take (min p.length maxBufLen.toNat) = p.take maxBufLen.toNat := by
  have hrun := Receiver.run_junk_frame delimiters ⟨decide (isBegin ≠ 0), false, []⟩ j p rest hj
  have hloop := parseRbLoop_spec _ h hb (PROTO_Init_at bufOut maxBufLen isBegin hbuf)
  rw [hrun] at hloop
  obtain ⟨rb', p', heq, hvalid, hrest, hat, hsize⟩ := hloop
  have hlen : p'.dataLen = min p.length maxBufLen.toNat := by
    have := hat.dataLen
    rwa [hsize] at this
  have hdata : p'.buf.take p'.dataLen = p.take maxBufLen.toNat := by
    have := hat.data
    rwa [hsize] at this
  have hroom : maxBufLen.toNat ≤ p'.buf.length := by
    have := hat.room
    rwa [hsize] at this
  refine ⟨rb', p'.buf, ?_, hvalid, hrest, hroom, ?_⟩
  · rw [PROTO_ParseRb, heq]
    exact congrArg (fun n => (rb', some (p'.buf, n))) hlen
  · rw [← hdata, hlen]

theorem PROTO_ParseRb_none (hb : (0x7F : UInt8) ∉ rb.bytes) (bufOut : List UInt8) (maxBufLen : UInt16)
    (isBegin : UInt8) (hbuf : maxBufLen.toNat ≤ bufOut.length) :
    ∃ rb', PROTO_ParseRb rb bufOut maxBufLen isBegin = (rb', none) ∧ rb'.Valid N ∧ rb'.bytes = [] := by
  have hrun := Receiver.run_no_stop delimiters _ hb ⟨decide (isBegin ≠ 0), false, []⟩
  have hloop := parseRbLoop_spec _ h rfl (PROTO_Init_at bufOut maxBufLen isBegin hbuf)
  rw [hrun] at hloop
  obtain ⟨rb', heq, hvalid, hrest⟩ := hloop
  refine ⟨rb', ?_, hvalid, hrest⟩
  rw [PROTO_ParseRb, heq]

end

/-! ## Writing -/

section
variable {N : ℕ}

theorem RINGBUF_Put_cases {rb : RINGBUF} (h : rb.Valid N) (c : UInt8) :
    (rb.bytes.length < N ∧
        ∃ rb', RINGBUF_Put rb c = some rb' ∧ rb'.Valid N ∧ rb'.bytes = rb.bytes ++ [c]) ∨
      (rb.bytes.length = N ∧ RINGBUF_Put rb c = none) := by
  obtain hlt | hge := Nat.lt_or_ge rb.bytes.length N
  · exact Or.inl ⟨hlt, RINGBUF_Put_free h hlt c⟩
  · have heq : rb.bytes.length = N := Nat.le_antisymm h.bytes_length_le hge
    exact Or.inr ⟨heq, RINGBUF_Put_full h heq c⟩

/-- What the writer of `tail` leaves behind: all of it with the code `i`, or the part that
fits with the code -1. -/
def Wrote (N : ℕ) (rb : RINGBUF) (tail : List UInt8) (i : Int16) (out : RINGBUF × Int16) : Prop :=
  out.1.Valid N ∧ out.1.bytes = rb.bytes ++ tail.take (N - rb.bytes.length) ∧
    out.2 = if rb.bytes.length + tail.length ≤ N then i else -1

theorem Wrote.full {rb : RINGBUF} (h : rb.Valid N) (hfull : rb.bytes.length = N) (c : UInt8)
    (tail : List UInt8) (i : Int16) : Wrote N rb (c :: tail) i (rb, -1) := by
  refine ⟨h, ?_, ?_⟩
  · rw [hfull, Nat.sub_self, List.take_zero, List.append_nil]
  · rw [if_neg (by rw [List.length_cons]; omega)]

theorem Wrote.cons {rb rb' : RINGBUF} {c : UInt8} (hlt : rb.bytes.length < N)
    (hb : rb'.bytes = rb.bytes ++ [c]) {tail : List UInt8} {i : Int16} {out : RINGBUF × Int16}
    (h : Wrote N rb' tail i out) : Wrote N rb (c :: tail) i out := by
  obtain ⟨hvalid, hbytes, hcode⟩ := h
  have hlen : rb'.bytes.length = rb.bytes.length + 1 := by
    rw [hb, List.length_append, List.length_singleton]
  refine ⟨hvalid, ?_, ?_⟩
  · have hroom : N - rb.bytes.length = (N - rb'.bytes.length) + 1 := by omega
    rw [hbytes, hroom, hb, List.take_succ_cons, List.append_assoc, List.singleton_append, ← hb]
  · rw [hcode, hlen, List.length_cons]
    congr 1
    exact propext (by omega)

theorem addRbLoop_wrote (packet : List UInt8) {rb : RINGBUF} (h : rb.Valid N) (i : UInt16) :
    Wrote N rb (stuffed delimiters packet ++ [0x7F])
      (i + UInt16.ofNat (stuffed delimiters packet).length).toInt16 (addRbLoop rb packet i) := by
  induction packet generalizing rb i with
  | nil =>
    rw [addRbLoop, stuffed_nil, List.nil_append]
    obtain ⟨hlt, rb', hput, hvalid, hb⟩ | ⟨hfull, hput⟩ := RINGBUF_Put_cases h 0x7F
    · rw [hput]
      refine Wrote.cons hlt hb ⟨hvalid, by simp, ?_⟩
      have := hvalid.bytes_length_le
      simp [this]
    · rw [hput]
      exact Wrote.full h hfull _ _ _
  | cons b packet ih =>
    rw [addRbLoop, stuffed_cons, List.append_assoc, List.length_append, escape_length, escape]
    by_cases hs : delimiters.Special b
    · have hcase : b = 0x7D ∨ b = 0x7E ∨ b = 0x7F := hs
      rw [if_pos hcase, if_pos hs, if_pos hs, List.cons_append, List.cons_append, List.nil_append]
      obtain ⟨hlt, rb', hput, hvalid, hb⟩ | ⟨hfull, hput⟩ := RINGBUF_Put_cases h 0x7D
      · rw [hput]
        apply Wrote.cons hlt hb
        simp only [delimiters_mask]
        obtain ⟨hlt', rb'', hput', hvalid', hb'⟩ | ⟨hfull', hput'⟩ := RINGBUF_Put_cases hvalid (b ^^^ 0x20)
        · rw [hput']
          apply Wrote.cons hlt' hb'
          have hnext := ih hvalid' (i + 2)
          rwa [UInt16.add_assoc, show (2 : UInt16) = UInt16.ofNat 2 from rfl, ← UInt16.ofNat_add] at hnext
        · rw [hput']
          exact Wrote.full hvalid hfull' _ _ _
      · rw [hput]
        exact Wrote.full h hfull _ _ _
    · have hcase : ¬ (b = 0x7D ∨ b = 0x7E ∨ b = 0x7F) := hs
      rw [if_neg hcase, if_neg hs, if_neg hs, List.singleton_append]
      obtain ⟨hlt, rb', hput, hvalid, hb⟩ | ⟨hfull, hput⟩ := RINGBUF_Put_cases h b
      · rw [hput]
        apply Wrote.cons hlt hb
        have hnext := ih hvalid (i + 1)
        rwa [UInt16.add_assoc, show (1 : UInt16) = UInt16.ofNat 1 from rfl, ← UInt16.ofNat_add] at hnext
      · rw [hput]
        exact Wrote.full h hfull _ _ _

theorem PROTO_AddRb_wrote {rb : RINGBUF} (h : rb.Valid N) (packet : List UInt8) :
    Wrote N rb (stuff packet) (UInt16.ofNat (stuff packet).length).toInt16 (PROTO_AddRb rb packet) := by
  have hlen : (stuff packet).length = 2 + (stuffed delimiters packet).length := by
    unfold stuff frame
    rw [List.length_cons, List.length_append, List.length_singleton]
    omega
  rw [PROTO_AddRb, hlen, UInt16.ofNat_add]
  obtain ⟨hlt, rb', hput, hvalid, hb⟩ | ⟨hfull, hput⟩ := RINGBUF_Put_cases h 0x7E
  · rw [hput]
    exact Wrote.cons hlt hb (addRbLoop_wrote packet hvalid 2)
  · rw [hput]
    exact Wrote.full h hfull _ _ _

theorem frame_code_ne (n : ℕ) (hn : n < 65535) : (UInt16.ofNat n).toInt16 ≠ -1 := by
  intro h
  have hb := congrArg Int16.toUInt16 h
  rw [UInt16.toUInt16_toInt16] at hb
  have hv := congrArg UInt16.toNat hb
  rw [UInt16.toNat_ofNat_of_lt' (by simp only [UInt16.size]; omega)] at hv
  have hm : (Int16.toUInt16 (-1)).toNat = 65535 := by decide
  omega

end

end LightSleepMqtt.Queue
