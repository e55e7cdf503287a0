import Mathlib.Data.List.Basic
import LightSleepMqtt.Queue.Proto

/-! Frames outside the ring: `PROTO_Add` writes one into a buffer, for a packet that begins with
its own length, and `PROTO_Parse` takes a stream in whatever pieces it comes and calls back behind
each frame. They are the pair to `PROTO_AddRb` and `PROTO_ParseRb`; the parser is the same. -/
namespace LightSleepMqtt.Queue
open ByteStuffing
set_option autoImplicit false

/-! ## Reading -/

/-- What `callback` finds in `buf` at each of its calls comes with the parser. It sees `isBegin` before
it is reset, and nothing else that differs. -/
def PROTO_Parse (parser : PROTO_PARSER) : List UInt8 → PROTO_PARSER × List (List UInt8)
  | [] => (parser, [])
  | c :: buf =>
    let parsed := PROTO_ParseByte parser c
    let rest := PROTO_Parse parsed.1 buf
    (rest.1, (if parsed.2 = 0 then [parsed.1.buf.take parsed.1.dataLen] else []) ++ rest.2)

/-- The calls of `callback` for a stream in pieces. -/
def parsePieces (parser : PROTO_PARSER) : List (List UInt8) → List (List UInt8)
  | [] => []
  | piece :: pieces => (PROTO_Parse parser piece).2 ++ parsePieces (PROTO_Parse parser piece).1 pieces

theorem PROTO_Parse_append (parser : PROTO_PARSER) (buf buf' : List UInt8) :
    (PROTO_Parse parser (buf ++ buf')).2 =
      (PROTO_Parse parser buf).2 ++ (PROTO_Parse (PROTO_Parse parser buf).1 buf').2 := by
  induction buf generalizing parser with
  | nil => rfl
  | cons c buf ih =>
    rw [List.cons_append, PROTO_Parse, PROTO_Parse, ih]
    exact (List.append_assoc _ _ _).symm

/-- It does not matter where the stream is cut. -/
theorem parsePieces_flatten (parser : PROTO_PARSER) (pieces : List (List UInt8)) :
    parsePieces parser pieces = (PROTO_Parse parser pieces.flatten).2 := by
  induction pieces generalizing parser with
  | nil => rfl
  | cons piece pieces ih => rw [parsePieces, ih, List.flatten_cons, PROTO_Parse_append]

theorem PROTO_Parse_calls {p : PROTO_PARSER} {s : Receiver UInt8} (h : p.At s) (bs : List UInt8) :
    (PROTO_Parse p bs).2 = (s.feedAll delimiters bs).2.map (List.take p.bufSize.toNat) := by
  induction bs generalizing p s with
  | nil => rfl
  | cons c bs ih =>
    obtain ⟨hat, hsize, hdone⟩ := PROTO_ParseByte_sim h c
    rw [PROTO_Parse, Receiver.feedAll, List.map_append]
    have hrest := ih hat
    rw [hsize] at hrest
    refine congrArg₂ (· ++ ·) ?_ hrest
    by_cases hret : (PROTO_ParseByte p c).2 = 0
    · rw [if_pos hret, if_pos (hdone.mp hret), List.map_singleton, hat.data, hsize]
    · rw [if_neg hret, if_neg (fun hd => hret (hdone.mpr hd)), List.map_nil]

/-- Every parser is at some state of the receiver. -/
theorem PROTO_PARSER.at_some {p : PROTO_PARSER} (hroom : p.bufSize.toNat ≤ p.buf.length)
    (hlen : p.dataLen ≤ p.bufSize.toNat) :
    p.At ⟨decide (p.isBegin ≠ 0), decide (p.isEsc ≠ 0), p.buf.take p.dataLen⟩ where
  room := hroom
  escaped := decide_eq_true_iff.symm
  opened := decide_eq_true_iff.symm
  dataLen := by
    rw [List.length_take]
    omega
  data := by rw [List.take_take, Nat.min_eq_right hlen]

/-! ## Writing -/

/-- `*(U16*) packet`, in a little-endian memory. -/
def packetLen (packet : List UInt8) : ℕ := (packet.getD 0 0).toNat + 256 * (packet.getD 1 0).toNat

/-- The loop over the rest of the packet, with the closing byte. `buf` is the memory from the pointer
on, which every write moves on; it is returned with the code. -/
def addLoop (buf : List UInt8) (bufSize : Int16) : List UInt8 → UInt16 → List UInt8 × Int16
  | [], i =>
    if bufSize < 1 then (buf, -1)
    else (0x7F :: buf.drop 1, i.toInt16)
  | b :: packet, i =>
    if b = 0x7D ∨ b = 0x7E ∨ b = 0x7F then
      if bufSize < 2 then (buf, -1)
      else
        let written := addLoop (buf.drop 2) (bufSize - 2) packet (i + 2)
        (0x7D :: (b ^^^ 0x20) :: written.1, written.2)
    else
      if bufSize < 1 then (buf, -1)
      else
        let written := addLoop (buf.drop 1) (bufSize - 1) packet (i + 1)
        (b :: written.1, written.2)

/-- `packet` is the memory at the pointer, of which the first two bytes tell how much is added, they
themselves included. -/
def PROTO_Add (buf packet : List UInt8) (bufSize : Int16) : List UInt8 × Int16 :=
  if bufSize < 1 then (buf, -1)
  else
    let written := addLoop (buf.drop 1) (bufSize - 1) (packet.take (packetLen packet)) 2
    (0x7E :: written.1, written.2)

/-- What a writer with `room` bytes in front of it does with `tail`: all of it and the code `i`, or the
front of it and the code -1. -/
structure Filled (buf : List UInt8) (room : ℕ) (tail : List UInt8) (i : Int16) (out : List UInt8 × Int16) : Prop where
  code : out.2 = if tail.length ≤ room then i else -1
  memory : ∃ n, n ≤ room ∧ n ≤ tail.length ∧ (tail.length ≤ room → n = tail.length) ∧
    out.1 = tail.take n ++ buf.drop n

section
variable {buf tail : List UInt8} {room : ℕ} {i : Int16} {out : List UInt8 × Int16}

theorem Filled.full (h : room < tail.length) : Filled buf room tail i (buf, -1) where
  code := (if_neg (by omega)).symm
  memory := ⟨0, Nat.zero_le _, Nat.zero_le _, fun hle => by omega, rfl⟩

theorem Filled.append (front : List UInt8) (hfront : front.length ≤ room)
    (h : Filled (buf.drop front.length) (room - front.length) tail i out) :
    Filled buf room (front ++ tail) i (front ++ out.1, out.2) := by
  obtain ⟨hcode, n, hroom, htail, hall, hout⟩ := h
  refine ⟨?_, front.length + n, by omega, ?_, fun hle => ?_, ?_⟩
  · rw [hcode, List.length_append]
    congr 1
    exact propext (by omega)
  · rw [List.length_append]
    omega
  · rw [List.length_append] at hle ⊢
    rw [hall (by omega)]
  · rw [hout, List.drop_drop, List.take_length_add_append, List.append_assoc]

theorem Filled.done (buf : List UInt8) (hroom : tail.length ≤ room) : Filled buf room tail i (tail ++ buf.drop tail.length, i) where
  code := (if_pos hroom).symm
  memory := ⟨tail.length, hroom, Nat.le_refl _, fun _ => rfl, by rw [List.take_length]⟩

end

theorem lt_toNatClampNeg (bufSize : Int16) {c : Int16} (hc : 0 < c) :
    bufSize < c ↔ bufSize.toNatClampNeg < c.toNatClampNeg := by
  have hpos : (0 : Int16).toInt < c.toInt := Int16.lt_iff_toInt_lt.mp hc
  rw [Int16.toInt_zero] at hpos
  rw [Int16.lt_iff_toInt_lt, ← Int16.toNat_toInt, ← Int16.toNat_toInt]
  omega

theorem addLoop_filled (packet buf : List UInt8) (bufSize : Int16) (i : UInt16) :
    Filled buf bufSize.toNatClampNeg (stuffed delimiters packet ++ [0x7F])
      (i + UInt16.ofNat (stuffed delimiters packet).length).toInt16 (addLoop buf bufSize packet i) := by
  induction packet generalizing buf bufSize i with
  | nil =>
    have hone : bufSize < 1 ↔ bufSize.toNatClampNeg < 1 := lt_toNatClampNeg bufSize (by decide)
    rw [addLoop, stuffed_nil, List.nil_append]
    by_cases hfull : bufSize < 1
    · rw [if_pos hfull]
      exact Filled.full (hone.mp hfull)
    · rw [if_neg hfull, List.length_nil, show UInt16.ofNat 0 = 0 from rfl, UInt16.add_zero]
      exact Filled.done buf (Nat.le_of_not_lt fun h => hfull (hone.mpr h))
  | cons b packet ih =>
    rw [addLoop, stuffed_cons, List.append_assoc, List.length_append, escape_length, escape]
    by_cases hs : delimiters.Special b
    · have hcase : b = 0x7D ∨ b = 0x7E ∨ b = 0x7F := hs
      have htwo : bufSize < 2 ↔ bufSize.toNatClampNeg < 2 := lt_toNatClampNeg bufSize (by decide)
      rw [if_pos hcase, if_pos hs, if_pos hs]
      by_cases hfull : bufSize < 2
      · rw [if_pos hfull]
        have hroom := htwo.mp hfull
        refine Filled.full ?_
        simp only [List.length_append, List.length_cons]
        omega
      · rw [if_neg hfull]
        have hnext := ih (buf.drop 2) (bufSize - 2) (i + 2)
        rw [Int16.toNatClampNeg_sub_of_le (by decide) (Int16.not_lt.mp hfull), UInt16.add_assoc,
          show (2 : UInt16) = UInt16.ofNat 2 from rfl, ← UInt16.ofNat_add] at hnext
        exact Filled.append [0x7D, b ^^^ 0x20] (Nat.le_of_not_lt fun h => hfull (htwo.mpr h)) hnext
    · have hcase : ¬ (b = 0x7D ∨ b = 0x7E ∨ b = 0x7F) := hs
      have hone : bufSize < 1 ↔ bufSize.toNatClampNeg < 1 := lt_toNatClampNeg bufSize (by decide)
      rw [if_neg hcase, if_neg hs, if_neg hs]
      by_cases hfull : bufSize < 1
      · rw [if_pos hfull]
        have hroom := hone.mp hfull
        refine Filled.full ?_
        simp only [List.length_append, List.length_cons]
        omega
      · rw [if_neg hfull]
        have hnext := ih (buf.drop 1) (bufSize - 1) (i + 1)
        rw [Int16.toNatClampNeg_sub_of_le (by decide) (Int16.not_lt.mp hfull), UInt16.add_assoc,
          show (1 : UInt16) = UInt16.ofNat 1 from rfl, ← UInt16.ofNat_add] at hnext
        exact Filled.append [b] (Nat.le_of_not_lt fun h => hfull (hone.mpr h)) hnext

/-- A call of `PROTO_Add` with memory enough for its arguments, and how many of the bytes it returns the
line carries. -/
structure Addition where
  buf : List UInt8
  packet : List UInt8
  bufSize : Int16
  carried : ℕ
  room : bufSize.toNatClampNeg ≤ buf.length
  whole : packetLen packet ≤ packet.length

variable {a : Addition}

def Addition.payload (a : Addition) : List UInt8 := a.packet.take (packetLen a.packet)

def Addition.result (a : Addition) : List UInt8 × Int16 := PROTO_Add a.buf a.packet a.bufSize

/-- What is sent is as long as the code says, which is nothing for -1, and may be cut. -/
def Addition.line (a : Addition) : List UInt8 := (a.result.1.take a.result.2.toNatClampNeg).take a.carried

theorem Addition.filled (a : Addition) : Filled a.buf a.bufSize.toNatClampNeg (stuff a.payload)
    (UInt16.ofNat (stuff a.payload).length).toInt16 a.result := by
  have hlength : (stuff a.payload).length = 2 + (stuffed delimiters a.payload).length := by
    unfold stuff frame
    rw [List.length_cons, List.length_append, List.length_singleton]
    omega
  have hone : a.bufSize < 1 ↔ a.bufSize.toNatClampNeg < 1 := lt_toNatClampNeg a.bufSize (by decide)
  rw [Addition.result, PROTO_Add]
  by_cases hfull : a.bufSize < 1
  · rw [if_pos hfull]
    have hroom := hone.mp hfull
    exact Filled.full (by omega)
  · rw [if_neg hfull]
    have hnext := addLoop_filled a.payload (a.buf.drop 1) (a.bufSize - 1) 2
    rw [Int16.toNatClampNeg_sub_of_le (by decide) (Int16.not_lt.mp hfull),
      show (2 : UInt16) = UInt16.ofNat 2 from rfl, ← UInt16.ofNat_add, ← hlength] at hnext
    exact Filled.append [0x7E] (Nat.le_of_not_lt fun h => hfull (hone.mpr h)) hnext

/-- The frame fits the buffer. -/
def Addition.Fits (a : Addition) : Prop := (stuff a.payload).length ≤ a.bufSize.toNatClampNeg

instance : Decidable a.Fits := inferInstanceAs (Decidable (_ ≤ _))

/-- The code is the length of the frame, which no conversion loses. -/
theorem Addition.code (a : Addition) : a.result.2.toInt = if a.Fits then ((stuff a.payload).length : ℤ) else -1 := by
  have hcode : a.result.2 = if a.Fits then (UInt16.ofNat (stuff a.payload).length).toInt16 else -1 := a.filled.code
  rw [hcode]
  by_cases hfits : a.Fits
  · have hlt : (stuff a.payload).length < 2 ^ 15 := Nat.lt_of_le_of_lt hfits a.bufSize.toNatClampNeg_lt
    rw [if_pos hfits, if_pos hfits]
    exact Int16.toInt_ofNat_of_lt hlt
  · rw [if_neg hfits, if_neg hfits]
    rfl

/-- `PROTO_Add` writes nothing behind the buffer, also when it gives up. -/
theorem Addition.confined (a : Addition) : a.result.1.length = a.buf.length ∧
    a.result.1.drop a.bufSize.toNatClampNeg = a.buf.drop a.bufSize.toNatClampNeg := by
  obtain ⟨n, hroom, hlen, _, hout⟩ := a.filled.memory
  have hfront : ((stuff a.payload).take n).length = n := by
    rw [List.length_take]
    omega
  have := a.room
  constructor
  · rw [hout, List.length_append, hfront, List.length_drop]
    omega
  · rw [hout, List.drop_append, hfront, List.drop_drop, List.drop_eq_nil_of_le (by omega), List.nil_append,
      Nat.add_sub_cancel' hroom]

theorem Addition.line_eq (a : Addition) : a.line = if a.Fits then (stuff a.payload).take a.carried else [] := by
  have hcode : a.result.2.toNatClampNeg = (a.result.2.toInt).toNat := rfl
  rw [Addition.line, hcode, a.code]
  by_cases hfits : a.Fits
  · obtain ⟨n, _, _, hall, hout⟩ := a.filled.memory
    rw [if_pos hfits, if_pos hfits, Int.toNat_natCast, hout, hall hfits, List.take_length, List.take_left]
  · rw [if_neg hfits, if_neg hfits, show (-1 : ℤ).toNat = 0 from rfl, List.take_zero, List.take_nil]

/-- The frame fits, and the line carries all of it. -/
def Addition.Arrives (a : Addition) : Prop := a.Fits ∧ (stuff a.payload).length ≤ a.carried

instance : Decidable a.Arrives := inferInstanceAs (Decidable (_ ∧ _))

theorem Addition.stop_not_mem_line (h : ¬ a.Arrives) : delimiters.stop ∉ a.line := by
  rw [a.line_eq]
  by_cases hfits : a.Fits
  · rw [if_pos hfits]
    exact stop_not_mem_cut delimiters a.payload (Nat.lt_of_not_le fun hcarried => h ⟨hfits, hcarried⟩)
  · rw [if_neg hfits]
    exact List.not_mem_nil

/-- What is sent one after the other carries the packets whose frames arrive. -/
theorem carries_additions (additions : List Addition) : Carries delimiters (additions.flatMap Addition.line)
    ((additions.filter fun a => a.Arrives).map Addition.payload) := by
  induction additions using List.reverseRecOn with
  | nil => exact Carries.nil delimiters
  | append_singleton additions a ih =>
    rw [List.flatMap_append, List.filter_append, List.map_append, List.flatMap_singleton]
    by_cases harrives : a.Arrives
    · have hself : [a].filter (fun a => a.Arrives) = [a] := List.filter_eq_self.mpr (by simpa using harrives)
      rw [hself, a.line_eq, if_pos harrives.1, List.take_of_length_le harrives.2]
      exact ih.append_frame a.payload
    · have hnone : [a].filter (fun a => a.Arrives) = [] := List.filter_eq_nil_iff.mpr (by simpa using harrives)
      rw [hnone, List.map_nil, List.append_nil]
      exact ih.append_junk (Addition.stop_not_mem_line harrives)

/-- What becomes of packets that are added, sent and parsed. -/
structure Framed (additions : List Addition) (parser : PROTO_PARSER) (pieces : List (List UInt8)) : Prop where
  codes : ∀ a ∈ additions, a.result.2.toInt = if a.Fits then ((stuff a.payload).length : ℤ) else -1
  confined : ∀ a ∈ additions, a.result.1.length = a.buf.length ∧
    a.result.1.drop a.bufSize.toNatClampNeg = a.buf.drop a.bufSize.toNatClampNeg
  calls : parsePieces parser pieces =
    (additions.filter fun a => a.Arrives).map fun a => a.payload.take parser.bufSize.toNat

/-- **Packets in pieces.** Whatever is added to whatever buffers, wherever the line loses the rest of a frame
and in whatever pieces the bytes come, `callback` is called once for each packet whose frame fits its
buffer and arrives, in order, and finds as much of it as the parser has room for. -/
theorem PROTO_Parse_pieces {parser : PROTO_PARSER} (hroom : parser.bufSize.toNat ≤ parser.buf.length)
    (hlen : parser.dataLen ≤ parser.bufSize.toNat) {additions : List Addition} {pieces : List (List UInt8)}
    (hpieces : pieces.flatten = additions.flatMap Addition.line) : Framed additions parser pieces where
  codes a _ := a.code
  confined a _ := a.confined
  calls := by
    rw [parsePieces_flatten, hpieces, PROTO_Parse_calls (PROTO_PARSER.at_some hroom hlen),
      (carries_additions additions).feedAll, List.map_map]
    rfl

/-- A packet of five bytes with a delimiter in it: added to a buffer that is too small, sent and cut, and
sent again. -/
def addedPacket : List UInt8 := [5, 0, 0x7E, 1, 2]

def addedTo (bufSize : Int16) (carried : ℕ) (h : bufSize.toNatClampNeg ≤ 8) : Addition :=
  ⟨List.replicate 8 0, addedPacket, bufSize, carried, h, by decide⟩

theorem PROTO_Parse_pieces_cut :
    Framed [addedTo 7 8 (by decide), addedTo 8 4 (by decide), addedTo 8 8 (by decide)]
      (PROTO_Init ⟨[], 0, 0, 0, 0⟩ (List.replicate 4 0) 4)
      [[0x7E, 5], [0, 0x7D, 0x7E, 5, 0, 0x7D], [], [0x5E, 1, 2, 0x7F]] :=
  PROTO_Parse_pieces (by decide) (by decide) (by decide)

end LightSleepMqtt.Queue
