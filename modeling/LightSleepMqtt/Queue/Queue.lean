import LightSleepMqtt.Queue.Proto

/-! The packet queue of `queue.c` over the ring and its frames. `QUEUE.Holds` ties the
ring to the list of waiting packets; with it `QUEUE_Puts` and `QUEUE_Gets` are the two
operations of a FIFO whose puts may be refused, and runs of any length are traces of it. -/
namespace LightSleepMqtt.Queue
open ByteStuffing
set_option autoImplicit false

/-- `QUEUE`; its `buf` is the block `rb.p_o` points to. -/
structure QUEUE where
  rb : RINGBUF
  deriving DecidableEq

/-- The block comes from `os_zalloc`; a size below 2 leaves the ring as it was. -/
def QUEUE_Init (queue : QUEUE) (bufferSize : ℤ) : QUEUE :=
  match RINGBUF_Init (List.replicate bufferSize.toNat 0) bufferSize with
  | some rb => { queue with rb := rb }
  | none => queue

def QUEUE_Puts (queue : QUEUE) (buffer : List UInt8) (len : UInt16) : QUEUE × Int16 :=
  let ret := PROTO_AddRb queue.rb (buffer.take len.toNat)
  ({ queue with rb := ret.1 }, ret.2)

def QUEUE_Gets (queue : QUEUE) (buffer : List UInt8) (maxLen : UInt16) (isBegin : UInt8) :
    QUEUE × Option (List UInt8 × ℕ) :=
  let ret := PROTO_ParseRb queue.rb buffer maxLen isBegin
  ({ queue with rb := ret.1 }, ret.2)

def QUEUE_IsEmpty (queue : QUEUE) : Bool := decide (queue.rb.fill_cnt ≤ 0)

/-- The ring has capacity `N` and its whole frames are those of the waiting packets `ps`. -/
structure QUEUE.Holds (N : ℕ) (ps : List (List UInt8)) (queue : QUEUE) : Prop where
  valid : queue.rb.Valid N
  carries : Carries delimiters queue.rb.bytes ps

theorem QUEUE_Init_holds (queue : QUEUE) {N : ℕ} (hN : 2 ≤ N) :
    (QUEUE_Init queue N).Holds N [] ∧ (QUEUE_Init queue N).rb.bytes = [] := by
  obtain ⟨rb, hinit, hvalid, hb⟩ := RINGBUF_Init_valid hN
  have hq : QUEUE_Init queue N = { queue with rb := rb } := by
    rw [QUEUE_Init, Int.toNat_natCast, hinit]
  rw [hq]
  exact ⟨⟨hvalid, by rw [hb]; exact Carries.nil _⟩, hb⟩

section
variable {N : ℕ} {ps : List (List UInt8)} {queue : QUEUE}

theorem QUEUE.Holds.bytes_length_le (h : queue.Holds N ps) : queue.rb.bytes.length ≤ N :=
  h.valid.bytes_length_le

theorem QUEUE.Holds.length_le_size (h : queue.Holds N ps) : ps.length ≤ queue.rb.size := by
  have hcount := h.carries.length_le
  have hle := h.bytes_length_le
  rw [h.valid.size_eq]
  omega

theorem QUEUE.Holds.packet_length_le (h : queue.Holds N ps) {p : List UInt8} (hp : p ∈ ps) : p.length ≤ N := by
  obtain ⟨before, behind, hps⟩ := List.append_of_mem hp
  have hframes := h.carries.frames_le
  have hle := h.bytes_length_le
  rw [hps, List.flatMap_append, List.flatMap_cons, List.length_append, List.length_append, frame_length] at hframes
  omega

theorem QUEUE.Holds.isEmpty_iff (h : queue.Holds N ps) : QUEUE_IsEmpty queue = true ↔ queue.rb.bytes = [] := by
  have hlen := h.valid.bytes_length
  rw [QUEUE_IsEmpty, decide_eq_true_iff, ← List.length_eq_zero_iff]
  omega

theorem QUEUE_Puts_fits (h : queue.Holds N ps) (buffer : List UInt8) (len : UInt16)
    (hframe : (stuff (buffer.take len.toNat)).length < 65535)
    (hroom : queue.rb.bytes.length + (stuff (buffer.take len.toNat)).length ≤ N) :
    ∃ queue' ret, QUEUE_Puts queue buffer len = (queue', ret) ∧ ret ≠ -1 ∧
      queue'.Holds N (ps ++ [buffer.take len.toNat]) ∧
      queue'.rb.bytes = queue.rb.bytes ++ stuff (buffer.take len.toNat) := by
  obtain ⟨hvalid, hbytes, hcode⟩ := PROTO_AddRb_wrote h.valid (buffer.take len.toNat)
  rw [List.take_of_length_le (l := stuff _) (by omega)] at hbytes
  rw [if_pos hroom] at hcode
  refine ⟨_, _, rfl, ?_, ⟨hvalid, ?_⟩, hbytes⟩
  · rw [hcode]
    exact frame_code_ne _ hframe
  · rw [hbytes]
    exact h.carries.append_frame _

theorem QUEUE_Puts_cut (h : queue.Holds N ps) (buffer : List UInt8) (len : UInt16)
    (hroom : N < queue.rb.bytes.length + (stuff (buffer.take len.toNat)).length) :
    ∃ queue', QUEUE_Puts queue buffer len = (queue', -1) ∧ queue'.Holds N ps ∧
      queue'.rb.bytes.length = N ∧ ∃ cut, (0x7F : UInt8) ∉ cut ∧ queue'.rb.bytes = queue.rb.bytes ++ cut := by
  obtain ⟨hvalid, hbytes, hcode⟩ := PROTO_AddRb_wrote h.valid (buffer.take len.toNat)
  rw [if_neg (by omega)] at hcode
  have hle := h.bytes_length_le
  have hlt : N - queue.rb.bytes.length < (stuff (buffer.take len.toNat)).length := by omega
  have hcut : (0x7F : UInt8) ∉ (stuff (buffer.take len.toNat)).take (N - queue.rb.bytes.length) :=
    stop_not_mem_cut delimiters _ hlt
  refine ⟨{ queue with rb := (PROTO_AddRb queue.rb (buffer.take len.toNat)).1 }, ?_,
    ⟨hvalid, ?_⟩, ?_, _, hcut, hbytes⟩
  · rw [QUEUE_Puts, ← hcode]
  · rw [hbytes]
    exact h.carries.append_junk hcut
  · show (PROTO_AddRb queue.rb (buffer.take len.toNat)).1.bytes.length = N
    rw [hbytes, List.length_append, List.length_take]
    omega

theorem QUEUE_Gets_cons {p : List UInt8} (h : queue.Holds N (p :: ps)) (buffer : List UInt8)
    (maxLen : UInt16) (isBegin : UInt8) (hbuf : maxLen.toNat ≤ buffer.length) :
    ∃ queue' buf, QUEUE_Gets queue buffer maxLen isBegin = (queue', some (buf, min p.length maxLen.toNat)) ∧
      queue'.Holds N ps ∧ maxLen.toNat ≤ buf.length ∧
      buf.take (min p.length maxLen.toNat) = p.take maxLen.toNat ∧
      ∃ j, (0x7F : UInt8) ∉ j ∧ queue.rb.bytes = j ++ stuff p ++ queue'.rb.bytes := by
  obtain ⟨j, rest, hb, hj, hrest⟩ := h.carries.of_cons
  obtain ⟨rb', buf, hparse, hvalid, hbytes, hroom, hdata⟩ :=
    PROTO_ParseRb_whole h.valid hj hb buffer maxLen isBegin hbuf
  refine ⟨{ queue with rb := rb' }, buf, ?_, ⟨hvalid, ?_⟩, hroom, hdata, j, hj, ?_⟩
  · rw [QUEUE_Gets, hparse]
  · rw [hbytes]
    exact hrest
  · show queue.rb.bytes = j ++ stuff p ++ rb'.bytes
    rw [hb, hbytes]

theorem QUEUE_Gets_nil (h : queue.Holds N []) (buffer : List UInt8) (maxLen : UInt16) (isBegin : UInt8)
    (hbuf : maxLen.toNat ≤ buffer.length) :
    ∃ queue', QUEUE_Gets queue buffer maxLen isBegin = (queue', none) ∧ queue'.Holds N [] ∧
      queue'.rb.bytes = [] := by
  obtain ⟨rb', hparse, hvalid, hbytes⟩ :=
    PROTO_ParseRb_none h.valid h.carries.of_nil buffer maxLen isBegin hbuf
  refine ⟨{ queue with rb := rb' }, ?_, ⟨hvalid, ?_⟩, hbytes⟩
  · rw [QUEUE_Gets, hparse]
  · rw [hbytes]
    exact Carries.nil _

end

/-! ## Runs of the queue alone -/

/-- One call; `isBegin` is the uninitialised parser field of that `QUEUE_Gets`. -/
inductive QueueCall where
  | puts (buffer : List UInt8) (len : UInt16)
  | gets (buffer : List UInt8) (maxLen : UInt16) (isBegin : UInt8)

/-- What a call hands back: the packet with the code of a put, the packet of a get or its
return value -1. -/
inductive QueueReturn where
  | puts (packet : List UInt8) (ret : Int16)
  | gets (packet : Option (List UInt8))
  deriving DecidableEq

def QueueCall.exec (queue : QUEUE) : QueueCall → QUEUE × QueueReturn
  | .puts buffer len =>
    let ret := QUEUE_Puts queue buffer len
    (ret.1, .puts (buffer.take len.toNat) ret.2)
  | .gets buffer maxLen isBegin =>
    let ret := QUEUE_Gets queue buffer maxLen isBegin
    (ret.1, .gets (ret.2.map fun r => r.1.take r.2))

def returns : QUEUE → List QueueCall → List QueueReturn
  | _, [] => []
  | queue, c :: cs => (c.exec queue).2 :: returns (c.exec queue).1 cs

def after : QUEUE → List QueueCall → QUEUE
  | queue, [] => queue
  | queue, c :: cs => after (c.exec queue).1 cs

/-- The accepted packets that a sequence of returns leaves unfetched, oldest first. -/
def waiting : List (List UInt8) → List QueueReturn → List (List UInt8)
  | ps, [] => ps
  | ps, .puts packet ret :: rs => waiting (if ret = -1 then ps else ps ++ [packet]) rs
  | ps, .gets (some _) :: rs => waiting ps.tail rs
  | ps, .gets none :: rs => waiting ps rs

/-- The returns of a lossless FIFO whose puts may be refused: a get yields the oldest packet
accepted and not yet returned, and -1 exactly when there is none. -/
def Fifo : List (List UInt8) → List QueueReturn → Prop
  | _, [] => True
  | ps, .puts packet ret :: rs => Fifo (if ret = -1 then ps else ps ++ [packet]) rs
  | ps, .gets none :: rs => ps = [] ∧ Fifo [] rs
  | ps, .gets (some packet) :: rs => ∃ rest, ps = packet :: rest ∧ Fifo rest rs

def BuffersFit (calls : List QueueCall) : Prop :=
  ∀ buffer maxLen isBegin, .gets buffer maxLen isBegin ∈ calls → maxLen.toNat ≤ buffer.length

def PacketsFit (calls : List QueueCall) : Prop :=
  ∀ buffer maxLen isBegin, .gets buffer maxLen isBegin ∈ calls →
    ∀ data len, .puts data len ∈ calls → (data.take len.toNat).length ≤ maxLen.toNat

theorem QUEUE_Puts_holds {N : ℕ} {ps : List (List UInt8)} {queue : QUEUE} (h : queue.Holds N ps)
    (hN : N < 65535) (buffer : List UInt8) (len : UInt16) :
    (QUEUE_Puts queue buffer len).1.Holds N
      (if (QUEUE_Puts queue buffer len).2 = -1 then ps else ps ++ [buffer.take len.toNat]) := by
  obtain hlt | hge := Nat.lt_or_ge N (queue.rb.bytes.length + (stuff (buffer.take len.toNat)).length)
  · obtain ⟨queue', hputs, hholds, _⟩ := QUEUE_Puts_cut h buffer len hlt
    rw [hputs, if_pos rfl]
    exact hholds
  · obtain ⟨queue', ret, hputs, hret, hholds, _⟩ := QUEUE_Puts_fits h buffer len (by omega) hge
    rw [hputs, if_neg hret]
    exact hholds

theorem after_holds {N : ℕ} (hN : N < 65535) (calls : List QueueCall) (hbuf : BuffersFit calls)
    {ps : List (List UInt8)} {queue : QUEUE} (h : queue.Holds N ps) :
    (after queue calls).Holds N (waiting ps (returns queue calls)) := by
  induction calls generalizing ps queue with
  | nil => exact h
  | cons c cs ih =>
    have htail : BuffersFit cs := fun b m i hm => hbuf b m i (List.mem_cons_of_mem _ hm)
    cases c with
    | puts buffer len => exact ih htail (QUEUE_Puts_holds h hN buffer len)
    | gets buffer maxLen isBegin =>
      have hfit := hbuf buffer maxLen isBegin (List.mem_cons_self ..)
      cases ps with
      | nil =>
        obtain ⟨queue', hgets, hholds, _⟩ := QUEUE_Gets_nil h buffer maxLen isBegin hfit
        simp only [after, returns, QueueCall.exec, hgets, waiting, Option.map_none]
        exact ih htail hholds
      | cons p ps =>
        obtain ⟨queue', buf, hgets, hholds, _⟩ := QUEUE_Gets_cons h buffer maxLen isBegin hfit
        simp only [after, returns, QueueCall.exec, hgets, waiting, Option.map_some, List.tail_cons]
        exact ih htail hholds

theorem returns_fifo {N : ℕ} (hN : N < 65535) (calls : List QueueCall) (hbuf : BuffersFit calls)
    (hfit : PacketsFit calls) {ps : List (List UInt8)} {queue : QUEUE} (h : queue.Holds N ps)
    (hps : ∀ buffer maxLen isBegin, .gets buffer maxLen isBegin ∈ calls →
      ∀ p ∈ ps, p.length ≤ maxLen.toNat) :
    Fifo ps (returns queue calls) := by
  induction calls generalizing ps queue with
  | nil => trivial
  | cons c cs ih =>
    have htail : BuffersFit cs := fun b m i hm => hbuf b m i (List.mem_cons_of_mem _ hm)
    have hpackets : PacketsFit cs := fun b m i hm data len hp =>
      hfit b m i (List.mem_cons_of_mem _ hm) data len (List.mem_cons_of_mem _ hp)
    cases c with
    | puts buffer len =>
      apply ih htail hpackets (QUEUE_Puts_holds h hN buffer len)
      intro b m i hm p hp
      have hold := hps b m i (List.mem_cons_of_mem _ hm)
      split at hp
      · exact hold p hp
      · obtain hin | hin := List.mem_append.mp hp
        · exact hold p hin
        · rw [List.mem_singleton.mp hin]
          exact hfit b m i (List.mem_cons_of_mem _ hm) buffer len (List.mem_cons_self ..)
    | gets buffer maxLen isBegin =>
      have hroom := hbuf buffer maxLen isBegin (List.mem_cons_self ..)
      cases ps with
      | nil =>
        obtain ⟨queue', hgets, hholds, _⟩ := QUEUE_Gets_nil h buffer maxLen isBegin hroom
        simp only [returns, QueueCall.exec, hgets, Option.map_none]
        exact ⟨rfl, ih htail hpackets hholds (by simp)⟩
      | cons p ps =>
        have hp := hps buffer maxLen isBegin (List.mem_cons_self ..) p (List.mem_cons_self ..)
        obtain ⟨queue', buf, hgets, hholds, _, hdata, _⟩ := QUEUE_Gets_cons h buffer maxLen isBegin hroom
        rw [List.take_of_length_le hp] at hdata
        simp only [returns, QueueCall.exec, hgets, Option.map_some]
        refine ⟨ps, by rw [hdata], ih htail hpackets hholds ?_⟩
        intro b m i hm q hq
        exact hps b m i (List.mem_cons_of_mem _ hm) q (List.mem_cons_of_mem _ hq)

/-- **The packet queue is a lossless FIFO of the packets it accepted**, on every run from
`QUEUE_Init`, whatever puts fail half-way and whatever `isBegin` holds. -/
theorem queue_lossless_fifo {N : ℕ} (h2 : 2 ≤ N) (hN : N ≤ 32767) (queue : QUEUE)
    (calls : List QueueCall) (hbuf : BuffersFit calls) (hfit : PacketsFit calls) :
    Fifo [] (returns (QUEUE_Init queue N) calls) :=
  returns_fifo (by omega) calls hbuf hfit (QUEUE_Init_holds queue h2).1 (by simp)

/-- Eight bytes of ring: an escaped packet, a put that is cut in its escape, two gets. -/
def shortRun : List QueueCall :=
  [.puts [0x41, 0x7D] 2, .puts [0x42, 0x7E] 2, .gets [0, 0] 2 1, .gets [0, 0] 2 0]

theorem queue_lossless_fifo_shortRun :
    Fifo [] (returns (QUEUE_Init ⟨⟨[], 0, 0, 0, 0⟩⟩ (8 : ℕ)) shortRun) := by
  refine queue_lossless_fifo (by decide) (by decide) _ shortRun ?_ ?_
  · intro buffer maxLen isBegin hmem
    simp only [shortRun, List.mem_cons, reduceCtorEq, QueueCall.gets.injEq, List.not_mem_nil, or_false,
      false_or] at hmem
    rcases hmem with ⟨rfl, rfl, rfl⟩ | ⟨rfl, rfl, rfl⟩ <;> decide
  · intro buffer maxLen isBegin hget data len hput
    simp only [shortRun, List.mem_cons, reduceCtorEq, QueueCall.gets.injEq, QueueCall.puts.injEq,
      List.not_mem_nil, or_false, false_or] at hget hput
    rcases hget with ⟨rfl, rfl, rfl⟩ | ⟨rfl, rfl, rfl⟩ <;> rcases hput with ⟨rfl, rfl⟩ | ⟨rfl, rfl⟩ <;> decide

example : returns (QUEUE_Init ⟨⟨[], 0, 0, 0, 0⟩⟩ (8 : ℕ)) shortRun =
    [.puts [0x41, 0x7D] 5, .puts [0x42, 0x7E] (-1), .gets (some [0x41, 0x7D]), .gets none] := by decide

end LightSleepMqtt.Queue
