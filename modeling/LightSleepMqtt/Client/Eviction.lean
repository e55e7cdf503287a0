import LightSleepMqtt.Client.Api
import LightSleepMqtt.Message.WireFormat
import Mathlib.Order.Bounds.Basic

/-! What the retry loop of the queueing calls does to the packets that are waiting. Each failed
`QUEUE_Puts` fills the ring with the first part of the new frame, so the next attempt only
finds the stretch that the packet fetched in between gives back: `freed` lists the free bytes
of all the attempts, and the loop ends at the first that takes the frame. -/
namespace LightSleepMqtt.Client
open ByteStuffing Message Queue
set_option autoImplicit false

/-! ## The loop -/

/-- The free bytes each attempt finds in a ring of capacity `N`: what is free before the call,
then what each waiting packet gives back with the cut frames in front of it. -/
def freed (N : ℕ) (bytes : List UInt8) : List ℕ := (N - bytes.length) :: spans delimiters 0 bytes

/-- The number of packets that are fetched before one attempt takes a frame of `need` bytes. -/
def evictions (N need : ℕ) (bytes : List UInt8) : Option ℕ :=
  (freed N bytes).findIdx? fun free => decide (need ≤ free)

/-- What the loop leaves of the packets `ps`: the new one behind those not evicted, or nothing. -/
def Evicts (N : ℕ) (ps : List (List UInt8)) (packet : List UInt8) (evicted : Option ℕ)
    (out : QUEUE × Bool) : Prop :=
  match evicted with
  | some a => out.2 = true ∧ a ≤ ps.length ∧ out.1.Holds N (ps.drop a ++ [packet])
  | none => out.2 = false ∧ out.1.Holds N [] ∧ out.1.rb.bytes = []

variable {MQTT_BUF_SIZE N : ℕ} {ps : List (List UInt8)} {queue : QUEUE}

theorem retry_fetches {p : List UInt8} (h : queue.Holds N (p :: ps)) (data : List UInt8) (length : UInt16)
    (hroom : N - queue.rb.bytes.length < (stuff (data.take length.toNat)).length) (dataBuffer : List UInt8)
    (maxLen : UInt16) (isBegin : UInt8) (hbuf : maxLen.toNat ≤ dataBuffer.length) :
    ∃ full queue' buf dataLen, QUEUE_Puts queue data length = (full, -1) ∧
      QUEUE_Gets full dataBuffer maxLen isBegin = (queue', some (buf, dataLen)) ∧
      maxLen.toNat ≤ buf.length ∧ queue'.Holds N ps ∧
      freed N queue'.rb.bytes = spans delimiters 0 queue.rb.bytes ∧
      buf.take dataLen = p.take maxLen.toNat := by
  have hle := h.bytes_length_le
  obtain ⟨full, hputs, hfull, hlen, cut, hcut, hbytes⟩ := QUEUE_Puts_cut h data length (by omega)
  obtain ⟨queue', buf, hgets, hholds, hbuf', hdata, j, hj, hstretch⟩ :=
    QUEUE_Gets_cons hfull dataBuffer maxLen isBegin hbuf
  refine ⟨full, queue', buf, _, hputs, hgets, hbuf', hholds, ?_, hdata⟩
  have hspans : spans delimiters 0 queue.rb.bytes = spans delimiters 0 full.rb.bytes := by
    rw [hbytes, spans_append_junk delimiters _ _ hcut]
  rw [hspans, hstretch, spans_frame delimiters _ _ _ hj, freed]
  simp only [hstretch, List.length_append, stuff] at hlen
  congr 1
  omega

theorem retry_drains (h : queue.Holds N []) (data : List UInt8) (length : UInt16)
    (hroom : N - queue.rb.bytes.length < (stuff (data.take length.toNat)).length) (dataBuffer : List UInt8)
    (maxLen : UInt16) (isBegin : UInt8) (hbuf : maxLen.toNat ≤ dataBuffer.length) :
    ∃ full queue', QUEUE_Puts queue data length = (full, -1) ∧
      QUEUE_Gets full dataBuffer maxLen isBegin = (queue', none) ∧ queue'.Holds N [] ∧
      queue'.rb.bytes = [] := by
  have hle := h.bytes_length_le
  obtain ⟨full, hputs, hfull, _⟩ := QUEUE_Puts_cut h data length (by omega)
  obtain ⟨queue', hgets, hempty⟩ := QUEUE_Gets_nil hfull dataBuffer maxLen isBegin hbuf
  exact ⟨full, queue', hputs, hgets, hempty⟩

theorem retryLoop_room (locals : Locals MQTT_BUF_SIZE) (h : queue.Holds N ps) (hN : N < 65535) (data : List UInt8)
    (length : UInt16) (hroom : (stuff (data.take length.toNat)).length ≤ N - queue.rb.bytes.length) (fuel : ℕ)
    (dataBuffer : List UInt8) :
    ∃ out, retryLoop locals data length (fuel + 1) queue dataBuffer = some out ∧
      Evicts N ps (data.take length.toNat) (some 0) out := by
  have hle := h.bytes_length_le
  obtain ⟨queue', ret, hputs, hret, hholds, _⟩ := QUEUE_Puts_fits h data length (by omega) (by omega)
  refine ⟨(queue', true), ?_, rfl, Nat.zero_le _, hholds⟩
  simp only [retryLoop, hputs, ne_eq, hret, not_false_eq_true, if_true]

/-- The loop ends, after as many fetches as `evictions` says. -/
theorem retryLoop_evicts (locals : Locals MQTT_BUF_SIZE) (hN : N < 65535) (data : List UInt8) (length : UInt16)
    (fuel : ℕ) (hfuel : ps.length < fuel) (h : queue.Holds N ps) (dataBuffer : List UInt8)
    (hbuf : (UInt16.ofNat MQTT_BUF_SIZE).toNat ≤ dataBuffer.length) :
    ∃ out, retryLoop locals data length fuel queue dataBuffer = some out ∧
      Evicts N ps (data.take length.toNat)
        (evictions N (stuff (data.take length.toNat)).length queue.rb.bytes) out := by
  induction fuel generalizing ps queue dataBuffer with
  | zero => exact absurd hfuel (Nat.not_lt_zero _)
  | succ fuel ih =>
    rw [evictions, freed, List.findIdx?_cons]
    obtain hlt | hge := Nat.lt_or_ge (N - queue.rb.bytes.length) (stuff (data.take length.toNat)).length
    swap
    · rw [if_pos (decide_eq_true hge)]
      exact retryLoop_room locals h hN data length hge fuel dataBuffer
    rw [if_neg (by simpa using hlt)]
    cases ps with
    | nil =>
      obtain ⟨full, queue', hputs, hgets, hempty⟩ := retry_drains h data length hlt dataBuffer _
        (locals.isBegin fuel) hbuf
      rw [spans_no_stop delimiters _ h.carries.of_nil]
      refine ⟨(queue', false), ?_, rfl, hempty⟩
      simp only [retryLoop, hputs, hgets, ne_eq, not_true_eq_false, if_false]
    | cons p ps =>
      obtain ⟨full, queue', buf, dataLen, hputs, hgets, hbuf', hholds, hfreed, _⟩ :=
        retry_fetches h data length hlt dataBuffer _ (locals.isBegin fuel) hbuf
      obtain ⟨out, hloop, hevicts⟩ := ih (Nat.lt_of_succ_lt_succ hfuel) hholds buf hbuf'
      rw [evictions, hfreed] at hevicts
      refine ⟨out, ?_, ?_⟩
      · simp only [retryLoop, hputs, hgets, ne_eq, not_true_eq_false, if_false]
        exact hloop
      · revert hevicts
        cases List.findIdx? _ (spans delimiters 0 queue.rb.bytes) with
        | none => exact id
        | some a => exact fun ⟨hok, ha, hout⟩ => ⟨hok, Nat.succ_le_succ ha, hout⟩

/-- The packets the loop fetches, as they stand in `dataBuffer`. -/
def evicted (locals : Locals MQTT_BUF_SIZE) (data : List UInt8) (length : UInt16) :
    ℕ → QUEUE → List UInt8 → List (List UInt8)
  | 0, _, _ => []
  | fuel + 1, queue, dataBuffer =>
    match QUEUE_Puts queue data length with
    | (queue, ret) =>
      if ret ≠ -1 then []
      else
        match QUEUE_Gets queue dataBuffer (UInt16.ofNat MQTT_BUF_SIZE) (locals.isBegin fuel) with
        | (_, none) => []
        | (queue, some (dataBuffer, dataLen)) => dataBuffer.take dataLen :: evicted locals data length fuel queue dataBuffer

/-- They are the oldest packets waiting, as many as `evictions` says. -/
theorem evicted_waiting (locals : Locals MQTT_BUF_SIZE) (hB : MQTT_BUF_SIZE ≤ 65535) (hN : N < 65535) (data : List UInt8)
    (length : UInt16) (fuel : ℕ) (hfuel : ps.length < fuel) (h : queue.Holds N ps)
    (hfit : ∀ p ∈ ps, p.length ≤ MQTT_BUF_SIZE) (dataBuffer : List UInt8)
    (hbuf : (UInt16.ofNat MQTT_BUF_SIZE).toNat ≤ dataBuffer.length) :
    evicted locals data length fuel queue dataBuffer =
      (evictions N (stuff (data.take length.toNat)).length queue.rb.bytes).elim ps fun a => ps.take a := by
  have hmax : (UInt16.ofNat MQTT_BUF_SIZE).toNat = MQTT_BUF_SIZE :=
    UInt16.toNat_ofNat_of_lt' (show MQTT_BUF_SIZE < UInt16.size from Nat.lt_succ_of_le hB)
  induction fuel generalizing ps queue dataBuffer with
  | zero => exact absurd hfuel (Nat.not_lt_zero _)
  | succ fuel ih =>
    rw [evictions, freed, List.findIdx?_cons]
    obtain hlt | hge := Nat.lt_or_ge (N - queue.rb.bytes.length) (stuff (data.take length.toNat)).length
    swap
    · have hle := h.bytes_length_le
      obtain ⟨queue', ret, hputs, hret, _⟩ := QUEUE_Puts_fits h data length (by omega) (by omega)
      rw [if_pos (decide_eq_true hge)]
      simp only [evicted, hputs, ne_eq, hret, not_false_eq_true, if_true, Option.elim_some, List.take_zero]
    rw [if_neg (by simpa using hlt)]
    cases ps with
    | nil =>
      obtain ⟨full, queue', hputs, hgets, _⟩ := retry_drains h data length hlt dataBuffer _ (locals.isBegin fuel) hbuf
      rw [spans_no_stop delimiters _ h.carries.of_nil]
      simp only [evicted, hputs, hgets, ne_eq, not_true_eq_false, if_false, List.findIdx?_nil, Option.map_none,
        Option.elim_none]
    | cons p ps =>
      obtain ⟨full, queue', buf, dataLen, hputs, hgets, hbuf', hholds, hfreed, hdata⟩ :=
        retry_fetches h data length hlt dataBuffer _ (locals.isBegin fuel) hbuf
      rw [hmax, List.take_of_length_le (hfit p (List.mem_cons_self ..))] at hdata
      have hrest := ih (Nat.lt_of_succ_lt_succ hfuel) hholds (fun q hq => hfit q (List.mem_cons_of_mem p hq)) buf hbuf'
      rw [evictions, hfreed] at hrest
      simp only [evicted, hputs, hgets, hdata, hrest, ne_eq, not_true_eq_false, if_false]
      cases List.findIdx? _ (spans delimiters 0 queue.rb.bytes) with
      | none => rfl
      | some a => rfl

/-! ## The calls -/

/-- The client with the message of the call in its `mqtt_connection`. -/
def Request.prepare (s : Sys) : Request MQTT_BUF_SIZE → Sys
  | .publish topic data qos retain _ =>
    let built := mqtt_msg_publish s.client.mqtt_state.mqtt_connection topic data qos retain
      s.client.mqtt_state.pending_msg_id
    setOutbound s built.1 built.2
  | .subscribe topic qos _ =>
    let built := mqtt_msg_subscribe s.client.mqtt_state.mqtt_connection topic qos.toNat
      s.client.mqtt_state.pending_msg_id
    setOutbound s built.1 built.2
  | .unSubscribe topic _ =>
    let built := mqtt_msg_unsubscribe s.client.mqtt_state.mqtt_connection topic
      s.client.mqtt_state.pending_msg_id
    setOutbound s built.1 built.2
  | .ping _ =>
    setOutbound s (mqtt_msg_pingreq s.client.mqtt_state.mqtt_connection) s.client.mqtt_state.pending_msg_id

def Request.locals : Request MQTT_BUF_SIZE → Locals MQTT_BUF_SIZE
  | .publish _ _ _ _ locals | .subscribe _ _ locals | .unSubscribe _ locals | .ping locals => locals

/-- Whether the call returns FALSE when the message could not be built. -/
def Request.checksLength : Request MQTT_BUF_SIZE → Bool
  | .publish .. | .ping _ => true
  | .subscribe .. | .unSubscribe .. => false

def Request.message (s : Sys) (r : Request MQTT_BUF_SIZE) : List UInt8 :=
  (r.prepare s).client.mqtt_state.mqtt_connection.bytes

theorem Request.exec_eq (s : Sys) (r : Request MQTT_BUF_SIZE) :
    r.exec s =
      if r.checksLength ∧ (r.prepare s).client.mqtt_state.mqtt_connection.message.length = 0 then
        some (r.prepare s, false)
      else queueOutbound (r.prepare s) r.locals := by
  cases r <;>
    simp only [Request.exec, Request.checksLength, Request.prepare, Request.locals, MQTT_Publish,
      MQTT_Subscribe, MQTT_UnSubscribe, MQTT_Ping, true_and, false_and, if_false, Bool.false_eq_true]

/-- The packets the call fetches to make room for its own. -/
def Request.evicted (s : Sys) (r : Request MQTT_BUF_SIZE) : List (List UInt8) :=
  if r.checksLength ∧ (r.prepare s).client.mqtt_state.mqtt_connection.message.length = 0 then []
  else Client.evicted r.locals (outboundData (r.prepare s)) (outboundLength (r.prepare s))
    ((r.prepare s).client.msgQueue.rb.size + 1) (r.prepare s).client.msgQueue r.locals.dataBuffer

variable {s : Sys}

theorem Request.prepare_emitted (h : Sized MQTT_BUF_SIZE s.client.mqtt_state.mqtt_connection)
    (hB : 3 ≤ MQTT_BUF_SIZE) (r : Request MQTT_BUF_SIZE) :
    ∃ header body, Emitted MQTT_BUF_SIZE header body (r.prepare s).client.mqtt_state.mqtt_connection := by
  cases r with
  | publish topic data qos retain locals =>
    exact ⟨_, _, (mqtt_msg_publish_emitted h hB topic data qos retain _).1⟩
  | subscribe topic qos locals => exact ⟨_, _, (mqtt_msg_subscribe_emitted h hB topic qos.toNat _).1⟩
  | unSubscribe topic locals => exact ⟨_, _, (mqtt_msg_unsubscribe_emitted h hB topic _).1⟩
  | ping locals => exact ⟨_, _, emptyMessage_emitted h hB MQTT_MSG_TYPE_PINGREQ⟩

def queued (s : Sys) (packet : List UInt8) (out : QUEUE × Bool) : Sys :=
  { s with
    client := { s.client with msgQueue := out.1 }
    posted := s.posted || out.2
    accepted := if out.2 then s.accepted ++ [packet] else s.accepted }

theorem queueOutbound_evicts (hN : N < 65535) (hB : MQTT_BUF_SIZE ≤ 65535) (h : s.client.msgQueue.Holds N ps)
    {header : UInt8} {body : Option (List UInt8)}
    (he : Emitted MQTT_BUF_SIZE header body s.client.mqtt_state.mqtt_connection) (locals : Locals MQTT_BUF_SIZE) :
    ∃ out, queueOutbound s locals = some (queued s s.client.mqtt_state.mqtt_connection.bytes out, out.2) ∧
      Evicts N ps s.client.mqtt_state.mqtt_connection.bytes
        (evictions N (stuff s.client.mqtt_state.mqtt_connection.bytes).length s.client.msgQueue.rb.bytes) out := by
  have hlength : s.client.mqtt_state.mqtt_connection.message.length < 65536 := by
    have hle := emission_length_le MQTT_BUF_SIZE header body
    rw [he.length]
    omega
  have hpacket := outbound_packet hlength
  have hsize := Nat.lt_succ_of_le h.length_le_size
  obtain ⟨out, hloop, hevicts⟩ := retryLoop_evicts locals hN (outboundData s) (outboundLength s) _ hsize h
    locals.dataBuffer (by rw [locals.sized]; exact Nat.mod_le _ _)
  rw [hpacket] at hevicts
  refine ⟨out, ?_, hevicts⟩
  rw [queueOutbound, hloop]
  obtain ⟨queue', ok⟩ := out
  cases ok with
  | false => simp [queued]
  | true => simp [queued, system_os_post, hpacket]

/-! ## What is fetched afterwards -/

/-- The packets that `QUEUE_Gets` yields one after the other. -/
def fetchable (locals : Locals MQTT_BUF_SIZE) : ℕ → QUEUE → List UInt8 → List (List UInt8)
  | 0, _, _ => []
  | fuel + 1, queue, dataBuffer =>
    match QUEUE_Gets queue dataBuffer (UInt16.ofNat MQTT_BUF_SIZE) (locals.isBegin fuel) with
    | (_, none) => []
    | (queue, some (dataBuffer, dataLen)) =>
      dataBuffer.take dataLen :: fetchable locals fuel queue dataBuffer

theorem fetchable_eq (locals : Locals MQTT_BUF_SIZE) (hB : MQTT_BUF_SIZE ≤ 65535) (fuel : ℕ)
    (hfuel : ps.length ≤ fuel) (h : queue.Holds N ps) (hfit : ∀ p ∈ ps, p.length ≤ MQTT_BUF_SIZE)
    (dataBuffer : List UInt8) (hbuf : (UInt16.ofNat MQTT_BUF_SIZE).toNat ≤ dataBuffer.length) :
    fetchable locals fuel queue dataBuffer = ps := by
  have hmax : (UInt16.ofNat MQTT_BUF_SIZE).toNat = MQTT_BUF_SIZE :=
    UInt16.toNat_ofNat_of_lt' (show MQTT_BUF_SIZE < UInt16.size from Nat.lt_succ_of_le hB)
  induction fuel generalizing ps queue dataBuffer with
  | zero => exact (List.eq_nil_of_length_eq_zero (Nat.le_zero.mp hfuel)).symm
  | succ fuel ih =>
    rw [fetchable]
    cases ps with
    | nil =>
      obtain ⟨queue', hgets, _⟩ := QUEUE_Gets_nil h dataBuffer _ (locals.isBegin fuel) hbuf
      rw [hgets]
    | cons p ps =>
      obtain ⟨queue', buf, hgets, hholds, hbuf', hdata, _⟩ :=
        QUEUE_Gets_cons h dataBuffer _ (locals.isBegin fuel) hbuf
      have hp : p.length ≤ (UInt16.ofNat MQTT_BUF_SIZE).toNat := by
        rw [hmax]
        exact hfit p (List.mem_cons_self ..)
      rw [List.take_of_length_le hp] at hdata
      rw [hgets]
      simp only [hdata]
      rw [ih (Nat.le_of_succ_le_succ hfuel) hholds (fun q hq => hfit q (List.mem_cons_of_mem _ hq)) buf hbuf']

/-- The whole frames of `ps` leave room for one more packet. -/
def MakesRoom (N : ℕ) (packet : List UInt8) (ps : List (List UInt8)) : Prop :=
  (ps.flatMap stuff).length + (stuff packet).length ≤ N

/-- The attempt behind `j` fetches finds room for the packet. -/
def RoomAfter (N : ℕ) (bytes packet : List UInt8) (j : ℕ) : Prop :=
  ∃ free, (freed N bytes)[j]? = some free ∧ (stuff packet).length ≤ free

theorem RoomAfter.makesRoom (h : queue.Holds N ps) {packet : List UInt8} {j : ℕ}
    (hj : RoomAfter N queue.rb.bytes packet j) : MakesRoom N packet (ps.drop j) := by
  obtain ⟨free, hfree, hroom⟩ := hj
  have hle := h.bytes_length_le
  unfold MakesRoom
  cases j with
  | zero =>
    have hframes : (ps.flatMap stuff).length ≤ queue.rb.bytes.length := h.carries.frames_le
    simp only [freed, List.getElem?_cons_zero, Option.some.injEq] at hfree
    rw [List.drop_zero]
    omega
  | succ j =>
    have hspan : free + ((ps.drop (j + 1)).flatMap stuff).length ≤ queue.rb.bytes.length :=
      h.carries.span_add_frames_le (by simpa [freed] using hfree)
    omega

theorem evictions_eq_iff (h : queue.Holds N ps) {packet : List UInt8} {j : ℕ}
    (hj : IsLeast {j | MakesRoom N packet (ps.drop j)} j) :
    evictions N (stuff packet).length queue.rb.bytes = some j ↔ RoomAfter N queue.rb.bytes packet j := by
  rw [evictions, List.findIdx?_eq_some_iff_getElem]
  constructor
  · rintro ⟨hlt, hroom, _⟩
    exact ⟨_, List.getElem?_eq_getElem hlt, of_decide_eq_true hroom⟩
  · intro hfound
    obtain ⟨free, hfree, hroom⟩ := hfound
    obtain ⟨hlt, rfl⟩ := List.getElem?_eq_some_iff.mp hfree
    refine ⟨hlt, decide_eq_true hroom, ?_⟩
    intro i hi hearly
    have hmakes : MakesRoom N packet (ps.drop i) :=
      RoomAfter.makesRoom h ⟨_, List.getElem?_eq_getElem (Nat.lt_trans hi hlt), of_decide_eq_true hearly⟩
    exact absurd (hj.2 hmakes) (Nat.not_le_of_lt hi)

/-- `QUEUE_Gets` still yields exactly `ps`, whatever is on its stack. -/
def Fetches (MQTT_BUF_SIZE : ℕ) (queue : QUEUE) (ps : List (List UInt8)) : Prop :=
  ∀ locals : Locals MQTT_BUF_SIZE, fetchable locals queue.rb.size queue locals.dataBuffer = ps

theorem fetches_iff (hB : MQTT_BUF_SIZE ≤ 65535) (h : queue.Holds N ps)
    (hfit : ∀ p ∈ ps, p.length ≤ MQTT_BUF_SIZE) (qs : List (List UInt8)) :
    Fetches MQTT_BUF_SIZE queue qs ↔ ps = qs := by
  have hall : ∀ locals : Locals MQTT_BUF_SIZE, fetchable locals queue.rb.size queue locals.dataBuffer = ps :=
    fun locals => fetchable_eq locals hB _ h.length_le_size h hfit _ (by rw [locals.sized]; exact Nat.mod_le _ _)
  constructor
  · intro hq
    exact (hall ⟨List.replicate MQTT_BUF_SIZE 0, List.length_replicate, fun _ => 0⟩).symm.trans (hq _)
  · intro hj
    subst hj
    exact hall

/-- **Dropping the oldest packets keeps the new message and drops no more than needed exactly
when the last packet dropped gives back enough by itself**: the room the others give back is
filled by the cut frames of the attempts between. -/
theorem request_drop_oldest_iff (h2 : 2 ≤ N) (hN : N < 65535) (hB3 : 3 ≤ MQTT_BUF_SIZE)
    (hB : MQTT_BUF_SIZE ≤ 65535) (queue : QUEUE) (calls : List QueueCall) (hbuf : BuffersFit calls)
    (hqueue : s.client.msgQueue = after (QUEUE_Init queue N) calls)
    (hps : waiting [] (returns (QUEUE_Init queue N) calls) = ps)
    (hfit : ∀ p ∈ ps, p.length ≤ MQTT_BUF_SIZE) (hsized : Sized MQTT_BUF_SIZE s.client.mqtt_state.mqtt_connection)
    (r : Request MQTT_BUF_SIZE) {m : List UInt8} (hm : r.message s = m) (hbuilt : m ≠ [])
    (hframe : (stuff m).length ≤ N) {j : ℕ} (hj : IsLeast {j | MakesRoom N m (ps.drop j)} j) :
    ∃ s' ok, r.exec s = some (s', ok) ∧
      ((ok = true ∧ Fetches MQTT_BUF_SIZE s'.client.msgQueue (ps.drop j ++ [m])) ↔
        RoomAfter N s.client.msgQueue.rb.bytes m j) := by
  have hholds : s.client.msgQueue.Holds N ps := by
    rw [hqueue, ← hps]
    exact after_holds hN calls hbuf (QUEUE_Init_holds queue h2).1
  obtain ⟨header, body, he⟩ := Request.prepare_emitted hsized hB3 r
  have hmfit : m.length ≤ MQTT_BUF_SIZE := by
    rw [← hm, Request.message, he.bytes]
    exact emission_length_le _ _ _
  have hlength : (r.prepare s).client.mqtt_state.mqtt_connection.message.length ≠ 0 := by
    rw [he.length, ← he.bytes]
    exact fun h0 => hbuilt (hm.symm.trans (List.eq_nil_of_length_eq_zero h0))
  have hkept : (r.prepare s).client.msgQueue = s.client.msgQueue := by cases r <;> rfl
  obtain ⟨out, hout, hevicts⟩ := queueOutbound_evicts hN hB (hkept ▸ hholds) he r.locals
  rw [show (r.prepare s).client.mqtt_state.mqtt_connection.bytes = m from hm] at hout hevicts
  rw [hkept] at hevicts
  refine ⟨_, _, by rw [Request.exec_eq, if_neg (fun h => hlength h.2)]; exact hout, ?_⟩
  have hjle : j ≤ ps.length := hj.2 (by
    show MakesRoom N m (ps.drop ps.length)
    simpa [MakesRoom] using hframe)
  rw [← evictions_eq_iff hholds hj]
  show out.2 = true ∧ Fetches MQTT_BUF_SIZE out.1 _ ↔ _
  cases hev : evictions N (stuff m).length s.client.msgQueue.rb.bytes with
  | none =>
    rw [hev] at hevicts
    simp only [reduceCtorEq, iff_false]
    intro hcall
    obtain ⟨hok, _⟩ := hcall
    exact absurd (hevicts.1.symm.trans hok) (by decide)
  | some a =>
    rw [hev] at hevicts
    obtain ⟨hok, ha, hafter⟩ := hevicts
    have hfits : ∀ p ∈ ps.drop a ++ [m], p.length ≤ MQTT_BUF_SIZE := by
      intro p hp
      obtain hin | hin := List.mem_append.mp hp
      · exact hfit p (List.mem_of_mem_drop hin)
      · rw [List.mem_singleton.mp hin]
        exact hmfit
    rw [fetches_iff hB hafter hfits, Option.some.injEq]
    constructor
    · intro hcall
      obtain ⟨_, heq⟩ := hcall
      have hlen := congrArg List.length heq
      simp only [List.length_append, List.length_drop, List.length_singleton] at hlen
      omega
    · intro hj
      subst hj
      exact ⟨hok, rfl⟩

/-! ## A ring of eight bytes -/

def putAll (packets : List (List UInt8)) : List QueueCall :=
  packets.map fun packet => .puts packet (UInt16.ofNat packet.length)

theorem putAll_buffersFit (packets : List (List UInt8)) : BuffersFit (putAll packets) := by
  intro buffer maxLen isBegin hmem
  obtain ⟨packet, _, heq⟩ := List.mem_map.mp hmem
  exact absurd heq (by simp)

/-- A client whose queue of eight bytes has been offered the packets. -/
def smallClient (packets : List (List UInt8)) : Sys :=
  let s := MQTT_InitClient 16 (MQTT_InitConnection (.ofBytes [0x68]) false) (.ofBytes [0x63]) none none 60 1
  { s with client := { s.client with
      msgQueue := after (QUEUE_Init ⟨⟨[], 0, 0, 0, 0⟩⟩ (8 : ℕ)) (putAll packets) } }

def zeroLocals (MQTT_BUF_SIZE : ℕ) : Locals MQTT_BUF_SIZE :=
  ⟨List.replicate MQTT_BUF_SIZE 0, List.length_replicate, fun _ => 0⟩

def publishA : Request 16 := .publish (some (.ofBytes [0x61])) [] 0 0 (zeroLocals 16)

/-- A ping takes the place of the publish that fills seven of the eight bytes. -/
theorem request_drop_oldest_iff_ping :
    ∃ s', (Request.ping (zeroLocals 16)).exec (smallClient [[0x30, 0x03, 0x00, 0x01, 0x61]]) = some (s', true) ∧
      Fetches 16 s'.client.msgQueue [[0xC0, 0x00]] := by
  obtain ⟨s', ok, hexec, hiff⟩ := request_drop_oldest_iff (N := 8) (m := [0xC0, 0x00]) (j := 1)
    (s := smallClient [[0x30, 0x03, 0x00, 0x01, 0x61]]) (by decide) (by decide) (by decide) (by decide)
    ⟨⟨[], 0, 0, 0, 0⟩⟩ (putAll [[0x30, 0x03, 0x00, 0x01, 0x61]]) (putAll_buffersFit _) rfl rfl (by decide) ⟨rfl, rfl⟩
    (Request.ping (zeroLocals 16)) (by decide) (by decide) (by decide) (by
      refine ⟨by unfold MakesRoom; decide, ?_⟩
      intro i hi
      apply Nat.one_le_iff_ne_zero.mpr
      rintro rfl
      exact absurd hi (by unfold MakesRoom; decide))
  obtain ⟨rfl, hfetches⟩ := hiff.mpr ⟨7, by decide, by decide⟩
  exact ⟨s', hexec, hfetches⟩

/-- Two pings fill the eight bytes and give back four each; the publish needs seven, and is
lost together with both of them. -/
theorem request_drop_oldest_loses_message :
    waiting [] (returns (QUEUE_Init ⟨⟨[], 0, 0, 0, 0⟩⟩ (8 : ℕ)) (putAll [[0xC0, 0x00], [0xC0, 0x00]])) =
        [[0xC0, 0x00], [0xC0, 0x00]] ∧
      (stuff (publishA.message (smallClient [[0xC0, 0x00], [0xC0, 0x00]]))).length = 7 ∧
      (publishA.exec (smallClient [[0xC0, 0x00], [0xC0, 0x00]])).map
        (fun r => (r.2, QUEUE_IsEmpty r.1.client.msgQueue)) = some (false, true) := by
  refine ⟨by decide, by decide, by decide⟩

end LightSleepMqtt.Client
