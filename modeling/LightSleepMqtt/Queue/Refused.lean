import LightSleepMqtt.Queue.Queue

/-! What a refused put leaves behind. `PROTO_AddRb` writes until the ring is full and returns -1
without taking anything back, so that only a put that finds the ring full leaves it alone. As
long as every other put fits, the ring holds the frames of the waiting packets and nothing else. -/
namespace LightSleepMqtt.Queue
open ByteStuffing
set_option autoImplicit false

/-- The test in `goToSleep` that keeps the chip awake. -/
def goToSleep_awake (queue : QUEUE) : Bool := decide (queue.rb.fill_cnt > 0)

/-! ## One call -/

/-- The frame fits into what is free, and its length is not returned as -1. -/
def QUEUE.Takes (queue : QUEUE) (packet : List UInt8) : Prop :=
  queue.rb.fill_cnt + (stuff packet).length ≤ queue.rb.size ∧ (stuff packet).length % 65536 ≠ 65535

/-- A put that fits, or that `RINGBUF_Put` refuses at its first byte. -/
def CleanPut (queue : QUEUE) : QueueCall → Prop
  | .puts buffer len => queue.Takes (buffer.take len.toNat) ∨ queue.rb.fill_cnt ≥ queue.rb.size
  | .gets .. => True

/-- A put that returns -1 leaves contents, count and positions of the ring as they were. -/
def RefusedUnchanged (queue : QUEUE) : QueueCall → Prop
  | .puts buffer len => (QUEUE_Puts queue buffer len).2 = -1 → (QUEUE_Puts queue buffer len).1.rb = queue.rb
  | .gets .. => True

theorem frame_code_iff (n : ℕ) : (UInt16.ofNat n).toInt16 = -1 ↔ n % 65536 = 65535 := by
  have hnat : (UInt16.ofNat n).toNat = n % 65536 := UInt16.toNat_ofNat'
  have hminus : (-1 : Int16).toUInt16.toNat = 65535 := by decide
  constructor
  · intro h
    have hcode := congrArg Int16.toUInt16 h
    rw [UInt16.toUInt16_toInt16] at hcode
    rw [← hnat, hcode, hminus]
  · intro h
    have hvalue : UInt16.ofNat n = 65535 := UInt16.toNat_inj.mp (hnat.trans h)
    rw [hvalue]
    rfl

section
variable {N : ℕ} {queue : QUEUE} (h : queue.rb.Valid N)
include h

theorem QUEUE.takes_iff (packet : List UInt8) :
    queue.Takes packet ↔ queue.rb.bytes.length + (stuff packet).length ≤ N ∧ (stuff packet).length % 65536 ≠ 65535 := by
  have hlength := h.bytes_length
  have hsize := h.size_eq
  rw [QUEUE.Takes, hsize]
  refine and_congr_left fun _ => ?_
  omega

/-- The return value of a put: -1 if the frame does not fit, or if its length is read as -1. -/
theorem QUEUE_Puts_refused_iff (buffer : List UInt8) (len : UInt16) :
    (QUEUE_Puts queue buffer len).2 = -1 ↔ ¬ queue.Takes (buffer.take len.toNat) := by
  obtain ⟨_, _, hcode⟩ := PROTO_AddRb_wrote h (buffer.take len.toNat)
  rw [QUEUE.takes_iff h]
  show (PROTO_AddRb queue.rb (buffer.take len.toNat)).2 = -1 ↔ _
  rw [hcode]
  by_cases hroom : queue.rb.bytes.length + (stuff (buffer.take len.toNat)).length ≤ N
  · rw [if_pos hroom, frame_code_iff, and_iff_right hroom, not_not]
  · exact iff_of_true (if_neg hroom) fun htakes => hroom htakes.1

theorem QUEUE_Puts_taken {buffer : List UInt8} {len : UInt16} (htakes : queue.Takes (buffer.take len.toNat)) :
    (QUEUE_Puts queue buffer len).1.rb.Valid N ∧
      (QUEUE_Puts queue buffer len).1.rb.bytes = queue.rb.bytes ++ stuff (buffer.take len.toNat) := by
  obtain ⟨hvalid, hbytes, _⟩ := PROTO_AddRb_wrote h (buffer.take len.toNat)
  have hroom := ((QUEUE.takes_iff h _).mp htakes).1
  rw [List.take_of_length_le (l := stuff _) (by omega)] at hbytes
  exact ⟨hvalid, hbytes⟩

omit h in
/-- `RINGBUF_Put` refuses the first byte. -/
theorem QUEUE_Puts_full (hfull : queue.rb.fill_cnt ≥ queue.rb.size) (buffer : List UInt8) (len : UInt16) :
    (QUEUE_Puts queue buffer len).1.rb = queue.rb := by
  have hput : RINGBUF_Put queue.rb 0x7E = none := if_pos hfull
  simp only [QUEUE_Puts, PROTO_AddRb, hput]

/-- A put that fits leaves the ring longer, and so does one that is cut. -/
theorem refusedUnchanged_iff (call : QueueCall) : RefusedUnchanged queue call ↔ CleanPut queue call := by
  cases call with
  | gets => exact Iff.rfl
  | puts buffer len =>
    rw [RefusedUnchanged, CleanPut, QUEUE_Puts_refused_iff h]
    constructor
    · intro hunchanged
      by_cases htakes : queue.Takes (buffer.take len.toNat)
      · exact .inl htakes
      · right
        obtain ⟨_, hbytes, _⟩ := PROTO_AddRb_wrote h (buffer.take len.toNat)
        have hsame : (PROTO_AddRb queue.rb (buffer.take len.toNat)).1 = queue.rb := hunchanged htakes
        have hlength := congrArg List.length hbytes
        have hframe : 0 < (stuff (buffer.take len.toNat)).length := Nat.succ_pos _
        have hcount := h.bytes_length
        have hsize := h.size_eq
        rw [hsame, List.length_append, List.length_take] at hlength
        omega
    · rintro (htakes | hfull) hrefused
      · exact absurd htakes hrefused
      · exact QUEUE_Puts_full hfull buffer len

end

/-! ## Runs -/

/-- `P` holds of every call of a run and of the queue it finds. -/
def Throughout (P : QUEUE → QueueCall → Prop) : QUEUE → List QueueCall → Prop
  | _, [] => True
  | queue, c :: cs => P queue c ∧ Throughout P (c.exec queue).1 cs

/-- The ring holds the frames of the waiting packets and nothing else. -/
structure QUEUE.Packed (N : ℕ) (ps : List (List UInt8)) (queue : QUEUE) : Prop where
  valid : queue.rb.Valid N
  bytes : queue.rb.bytes = ps.flatMap stuff

section
variable {N : ℕ} {ps : List (List UInt8)} {queue : QUEUE}

theorem QUEUE_Init_packed (queue : QUEUE) (hN : 2 ≤ N) : (QUEUE_Init queue N).Packed N [] :=
  ⟨(QUEUE_Init_holds queue hN).1.valid, (QUEUE_Init_holds queue hN).2⟩

theorem QUEUE.Packed.fill_cnt_pos_iff (h : queue.Packed N ps) : queue.rb.fill_cnt > 0 ↔ ps ≠ [] := by
  have hlength := h.valid.bytes_length
  rw [h.bytes] at hlength
  cases ps with
  | nil =>
    rw [List.flatMap_nil, List.length_nil] at hlength
    simp [← hlength]
  | cons p ps =>
    have hframe : 0 < (stuff p).length := Nat.succ_pos _
    rw [List.flatMap_cons, List.length_append] at hlength
    exact iff_of_true (by omega) (List.cons_ne_nil p ps)

theorem QUEUE_Puts_packed (h : queue.Packed N ps) {buffer : List UInt8} {len : UInt16}
    (hclean : CleanPut queue (.puts buffer len)) :
    (QUEUE_Puts queue buffer len).1.Packed N
      (if (QUEUE_Puts queue buffer len).2 = -1 then ps else ps ++ [buffer.take len.toNat]) := by
  have hrefused := QUEUE_Puts_refused_iff h.valid buffer len
  by_cases htakes : queue.Takes (buffer.take len.toNat)
  · obtain ⟨hvalid, hbytes⟩ := QUEUE_Puts_taken h.valid htakes
    rw [if_neg fun hret => hrefused.mp hret htakes]
    refine ⟨hvalid, ?_⟩
    rw [hbytes, h.bytes, List.flatMap_append, List.flatMap_singleton]
  · have hsame := QUEUE_Puts_full (hclean.resolve_left htakes) buffer len
    rw [if_pos (hrefused.mpr htakes)]
    constructor
    · rw [hsame]
      exact h.valid
    · rw [hsame]
      exact h.bytes

theorem QUEUE_Gets_packed_cons {p : List UInt8} (h : queue.Packed N (p :: ps)) (buffer : List UInt8)
    (maxLen : UInt16) (isBegin : UInt8) (hbuf : maxLen.toNat ≤ buffer.length) :
    ∃ queue' packet, QUEUE_Gets queue buffer maxLen isBegin = (queue', some packet) ∧ queue'.Packed N ps := by
  have hbytes : queue.rb.bytes = [] ++ stuff p ++ ps.flatMap stuff := h.bytes
  obtain ⟨rb', buf, hparse, hvalid, hrest, _⟩ :=
    PROTO_ParseRb_whole h.valid List.not_mem_nil hbytes buffer maxLen isBegin hbuf
  refine ⟨{ queue with rb := rb' }, (buf, min p.length maxLen.toNat), ?_, ⟨hvalid, hrest⟩⟩
  rw [QUEUE_Gets, hparse]

theorem QUEUE_Gets_packed_nil (h : queue.Packed N []) (buffer : List UInt8) (maxLen : UInt16) (isBegin : UInt8)
    (hbuf : maxLen.toNat ≤ buffer.length) :
    ∃ queue', QUEUE_Gets queue buffer maxLen isBegin = (queue', none) ∧ queue'.Packed N [] := by
  have hbytes : (0x7F : UInt8) ∉ queue.rb.bytes := by
    rw [h.bytes]
    exact List.not_mem_nil
  obtain ⟨rb', hparse, hvalid, hrest⟩ := PROTO_ParseRb_none h.valid hbytes buffer maxLen isBegin hbuf
  refine ⟨{ queue with rb := rb' }, ?_, hvalid, hrest⟩
  rw [QUEUE_Gets, hparse]

theorem after_packed (calls : List QueueCall) (hbuf : BuffersFit calls) (h : queue.Packed N ps)
    (hclean : Throughout CleanPut queue calls) : (after queue calls).Packed N (waiting ps (returns queue calls)) := by
  induction calls generalizing ps queue with
  | nil => exact h
  | cons c cs ih =>
    have htail : BuffersFit cs := fun b m i hm => hbuf b m i (List.mem_cons_of_mem _ hm)
    obtain ⟨hput, hclean⟩ := hclean
    cases c with
    | puts buffer len => exact ih htail (QUEUE_Puts_packed h hput) hclean
    | gets buffer maxLen isBegin =>
      have hfit := hbuf buffer maxLen isBegin List.mem_cons_self
      cases ps with
      | nil =>
        obtain ⟨queue', hgets, hpacked⟩ := QUEUE_Gets_packed_nil h buffer maxLen isBegin hfit
        simp only [QueueCall.exec, hgets] at hclean
        simp only [after, returns, QueueCall.exec, hgets, waiting, Option.map_none]
        exact ih htail hpacked hclean
      | cons p ps =>
        obtain ⟨queue', packet, hgets, hpacked⟩ := QUEUE_Gets_packed_cons h buffer maxLen isBegin hfit
        simp only [QueueCall.exec, hgets] at hclean
        simp only [after, returns, QueueCall.exec, hgets, waiting, Option.map_some, List.tail_cons]
        exact ih htail hpacked hclean

theorem QueueCall.exec_valid (h : queue.rb.Valid N) {call : QueueCall}
    (hbuf : ∀ buffer maxLen isBegin, call = .gets buffer maxLen isBegin → maxLen.toNat ≤ buffer.length) :
    (call.exec queue).1.rb.Valid N := by
  cases call with
  | puts buffer len => exact (PROTO_AddRb_wrote h (buffer.take len.toNat)).1
  | gets buffer maxLen isBegin =>
    have hloop := parseRbLoop_spec _ h rfl (PROTO_Init_at buffer maxLen isBegin (hbuf buffer maxLen isBegin rfl))
    simp only [QueueCall.exec, QUEUE_Gets, PROTO_ParseRb]
    cases hrun : Receiver.run delimiters ⟨decide (isBegin ≠ 0), false, []⟩ queue.rb.bytes with
    | none =>
      rw [hrun] at hloop
      obtain ⟨rb', hparse, hvalid, _⟩ := hloop
      rw [hparse]
      exact hvalid
    | some result =>
      rw [hrun] at hloop
      obtain ⟨rb', p', hparse, hvalid, _⟩ := hloop
      rw [hparse]
      exact hvalid

theorem throughout_refusedUnchanged_iff (calls : List QueueCall) (hbuf : BuffersFit calls) (h : queue.rb.Valid N) :
    Throughout RefusedUnchanged queue calls ↔ Throughout CleanPut queue calls := by
  induction calls generalizing queue with
  | nil => exact Iff.rfl
  | cons c cs ih =>
    have htail : BuffersFit cs := fun b m i hm => hbuf b m i (List.mem_cons_of_mem _ hm)
    have hfit : ∀ b m i, c = .gets b m i → m.toNat ≤ b.length := fun b m i hc => hbuf b m i (hc ▸ List.mem_cons_self)
    exact and_congr (refusedUnchanged_iff h c) (ih htail (QueueCall.exec_valid h hfit))

theorem Throughout.front {P : QUEUE → QueueCall → Prop} {front back : List QueueCall}
    (h : Throughout P queue (front ++ back)) : Throughout P queue front := by
  induction front generalizing queue with
  | nil => trivial
  | cons c cs ih => exact ⟨h.1, ih h.2⟩

end

/-- **A refused put leaves the queue as it was, and the queue is empty exactly when no packet
waits, if every put of the run fits or finds the ring full**, and not otherwise. -/
theorem refused_puts_iff {N : ℕ} (hN : 2 ≤ N) (queue : QUEUE) (calls : List QueueCall) (hbuf : BuffersFit calls) :
    (Throughout RefusedUnchanged (QUEUE_Init queue N) calls ∧
        ∀ front, front <+: calls →
          (QUEUE_IsEmpty (after (QUEUE_Init queue N) front) = true ↔
            waiting [] (returns (QUEUE_Init queue N) front) = []) ∧
          (goToSleep_awake (after (QUEUE_Init queue N) front) = true ↔
            waiting [] (returns (QUEUE_Init queue N) front) ≠ [])) ↔
      Throughout CleanPut (QUEUE_Init queue N) calls := by
  have hinit := QUEUE_Init_packed queue hN
  rw [throughout_refusedUnchanged_iff calls hbuf hinit.valid]
  refine and_iff_left_of_imp fun hclean => ?_
  rintro front ⟨back, rfl⟩
  have hfront : BuffersFit front := fun b m i hm => hbuf b m i (List.mem_append_left back hm)
  have hpacked := after_packed front hfront hinit hclean.front
  have hawake := hpacked.fill_cnt_pos_iff
  constructor
  · rw [QUEUE_IsEmpty, decide_eq_true_iff, ← Int.not_lt]
    exact (not_congr hawake).trans not_not
  · rw [goToSleep_awake, decide_eq_true_iff]
    exact hawake

/-- Two puts into a ring of eight bytes that the first fills, and a get. -/
theorem refused_puts_iff_full :
    let calls : List QueueCall := [.puts [0x41, 0x42, 0x43, 0x44, 0x45, 0x46] 6, .puts [0x47] 1, .gets [0, 0] 2 0]
    let queue := QUEUE_Init ⟨⟨[], 0, 0, 0, 0⟩⟩ (8 : ℕ)
    (Throughout RefusedUnchanged queue calls ∧ ∀ front, front <+: calls →
        (QUEUE_IsEmpty (after queue front) = true ↔ waiting [] (returns queue front) = []) ∧
        (goToSleep_awake (after queue front) = true ↔ waiting [] (returns queue front) ≠ [])) ↔
      Throughout CleanPut queue calls := by
  refine refused_puts_iff (by decide) _ _ ?_
  intro buffer maxLen isBegin hmem
  simp only [List.mem_cons, reduceCtorEq, QueueCall.gets.injEq, List.not_mem_nil, or_false, false_or] at hmem
  obtain ⟨rfl, rfl, rfl⟩ := hmem
  decide

/-- A packet of four bytes does not fit into an empty ring of five: the put returns -1, the ring is
full, and with no packet waiting it does not count as empty. -/
theorem refused_put_fills :
    let queue := QUEUE_Init ⟨⟨[], 0, 0, 0, 0⟩⟩ (5 : ℕ)
    let call := QueueCall.puts [0x41, 0x42, 0x43, 0x44] 4
    (call.exec queue).2 = .puts [0x41, 0x42, 0x43, 0x44] (-1) ∧ (call.exec queue).1.rb.fill_cnt = 5 ∧
      queue.rb.fill_cnt = 0 ∧ waiting [] (returns queue [call]) = [] ∧
      QUEUE_IsEmpty (after queue [call]) = false := by decide

end LightSleepMqtt.Queue
