import LightSleepMqtt.Client.Packets

/-! Segments that hold several packets. READPACKET goes on behind a PUBLISH only, so it deals
with the packets up to the first one of another type; a segment of publishes is dealt with
completely. -/
namespace LightSleepMqtt.Client
open Message MqttWire Queue
set_option autoImplicit false

/-! ## A pass over a packet -/

variable {B N : ℕ} {ps : List (List UInt8)} {s : Sys}

theorem announced_encode {p : Packet} (hp : p.WellFormed) (rest : List UInt8)
    (hlt : (p.encode ++ rest).length < 65536) : announced (p.encode ++ rest) = p.encode.length := by
  rw [List.length_append] at hlt
  have hhead : (head p).length ≤ (p.encode ++ rest).length := by
    rw [List.length_append, encode_length]
    omega
  rw [announced, mqtt_get_total_length_encode p rest hp hhead]
  omega

theorem readPacket_packet {p : Packet} (h : Ready B N ps s) (hB : B ≤ 65535) (hN : N < 65535)
    (hp : p.WellFormed) (hserver : FromServer p) (rest : List UInt8) (hlt : (p.encode ++ rest).length < B)
    (hroom : s.client.msgQueue.rb.bytes.length + (answerFrames [p]).length ≤ N) :
    ∃ s', readPacket B s (p.encode ++ rest) = (s', if p.kind = 3 then .publish else .left) ∧
      Ready B N (ps ++ answerBytes [p]) s' ∧ Absorbs s s' [p] := by
  have hpos : 0 < (p.encode ++ rest).length := by
    rw [List.length_append, encode_length]
    have := head_length_pos p
    omega
  have hle : p.encode.length ≤ (p.encode ++ rest).length := by
    rw [List.length_append]
    omega
  have hbuffer : copyAt s.client.mqtt_state.in_buffer 0 (p.encode ++ rest) =
      p.encode ++ (rest ++ s.client.mqtt_state.in_buffer.drop (p.encode ++ rest).length) := by
    rw [copyAt_zero, List.append_assoc]
  have hloaded : Ready B N ps (loaded s (p.encode ++ rest)) :=
    ⟨h.receiving, h.registered, h.in_length, h.sized, h.holds⟩
  have hlength : s.client.mqtt_state.in_buffer_length % 65536 = B := by
    rw [h.in_length]
    omega
  obtain ⟨hready, habsorbs⟩ := switchType_packet hloaded hN hp hserver (by omega) hbuffer hle hroom
  rw [readPacket_receiving h.receiving hpos hlt, mqtt_get_type_encode p rest hp.fields, hbuffer, hlength,
    mqtt_get_qos_encode p _ hp.fields]
  exact ⟨_, rfl, hready, habsorbs.connState, habsorbs.accepted, habsorbs.bytes, habsorbs.delivered⟩

/-! ## A pass after the other -/

/-- The packets of a segment that READPACKET deals with. -/
def handled : List Packet → List Packet
  | [] => []
  | q :: qs => if q.kind = 3 then q :: handled qs else [q]

/-- The packets behind the first one that is not a PUBLISH. -/
def skipped : List Packet → List Packet
  | [] => []
  | q :: qs => if q.kind = 3 then skipped qs else qs

theorem handled_append_skipped (qs : List Packet) : handled qs ++ skipped qs = qs := by
  induction qs with
  | nil => rfl
  | cons q qs ih =>
    rw [handled, skipped]
    by_cases hkind : q.kind = 3
    · rw [if_pos hkind, if_pos hkind, List.cons_append, ih]
    · rw [if_neg hkind, if_neg hkind, List.singleton_append]

theorem handled_publishes {qs : List Packet} (h : ∀ q ∈ qs, q.kind = 3) : handled qs = qs := by
  induction qs with
  | nil => rfl
  | cons q qs ih =>
    rw [handled, if_pos (h q (List.mem_cons_self ..)), ih fun q hq => h q (List.mem_cons_of_mem _ hq)]

theorem answerFrames_cons_length (q : Packet) (qs : List Packet) :
    (answerFrames (q :: qs)).length = (answerFrames [q]).length + (answerFrames qs).length := by
  rw [← List.singleton_append, answerFrames_append, List.length_append]

/-- READPACKET on well-formed packets, with a `dataCb` that leaves the client alone. -/
theorem readLoop_packets {app : Application} (happ : ∀ s, app.dataCb s = s) (hB : B ≤ 65535) (hN : N < 65535)
    {qs : List Packet} (hqs : ∀ q ∈ qs, q.WellFormed ∧ FromServer q) (h : Ready B N ps s)
    (hlt : (qs.flatMap Packet.encode).length < B)
    (hroom : s.client.msgQueue.rb.bytes.length + (answerFrames qs).length ≤ N) (fuel : ℕ)
    (hfuel : qs.length < fuel) :
    ∃ s', readLoop B app fuel s (qs.flatMap Packet.encode) = some s' ∧
      Ready B N (ps ++ answerBytes (handled qs)) s' ∧ Absorbs s s' (handled qs) := by
  induction qs generalizing ps s fuel with
  | nil =>
    obtain ⟨fuel, rfl⟩ : ∃ k, fuel = k + 1 := ⟨fuel - 1, by omega⟩
    refine ⟨system_os_post s, ?_, ?_, (Absorbs.nil s).post⟩
    · rw [readLoop, List.flatMap_nil, readPacket, if_neg (by simp)]
    · rw [handled, answerBytes, List.flatMap_nil, List.map_nil, List.append_nil]
      exact h.post
  | cons q qs ih =>
    obtain ⟨fuel, rfl⟩ : ∃ k, fuel = k + 1 := ⟨fuel - 1, by omega⟩
    obtain ⟨hq, hserver⟩ := hqs q (List.mem_cons_self ..)
    rw [List.flatMap_cons] at hlt ⊢
    rw [answerFrames_cons_length] at hroom
    obtain ⟨s₁, hpass, hready, habsorbs⟩ := readPacket_packet h hB hN hq hserver _ hlt (by omega)
    by_cases hkind : q.kind = 3
    · rw [if_pos hkind] at hpass
      obtain ⟨_, _, hlength, hread⟩ := readPacket_publish_spec hpass
      have hring : s₁.client.msgQueue.rb.bytes.length + (answerFrames qs).length ≤ N := by
        rw [habsorbs.bytes, List.length_append]
        omega
      rw [readLoop, hpass]
      simp only [happ, ite_self]
      rw [nextPacket_eq _ hlength hread, announced_encode hq _ (by omega), List.drop_left, handled, if_pos hkind]
      cases qs with
      | nil =>
        rw [if_neg (by simp)]
        exact ⟨_, rfl, hready.post, habsorbs.post⟩
      | cons q' qs =>
        have hq' : 0 < q'.encode.length := by
          have := head_length_pos q'
          rw [encode_length]
          omega
        rw [if_pos (by rw [List.length_append, List.flatMap_cons, List.length_append]; omega)]
        obtain ⟨s₂, hloop, hready₂, habsorbs₂⟩ := ih (fun p hp => hqs p (List.mem_cons_of_mem _ hp)) hready
          (by rw [List.length_append] at hlt; omega) hring fuel (by rw [List.length_cons] at hfuel; omega)
        refine ⟨s₂, hloop, ?_, habsorbs.trans habsorbs₂⟩
        rw [← List.singleton_append, answerBytes_append, ← List.append_assoc]
        exact hready₂
    · rw [if_neg hkind] at hpass
      rw [readLoop, hpass, handled, if_neg hkind]
      exact ⟨_, rfl, hready.post, habsorbs.post⟩

theorem recv_packets {app : Application} (happ : ∀ s, app.dataCb s = s) (hB : B ≤ 65535) (hN : N < 65535)
    {qs : List Packet} (hqs : ∀ q ∈ qs, q.WellFormed ∧ FromServer q) (h : Ready B N ps s)
    (hlt : (qs.flatMap Packet.encode).length < B)
    (hroom : s.client.msgQueue.rb.bytes.length + (answerFrames qs).length ≤ N) (fuel : ℕ)
    (hfuel : qs.length < fuel) :
    ∃ s', mqtt_tcpclient_recv B app fuel s (qs.flatMap Packet.encode) = some s' ∧
      Ready B N (ps ++ answerBytes (handled qs)) s' ∧ Absorbs s s' (handled qs) := by
  obtain ⟨s', hloop, hready, habsorbs⟩ := readLoop_packets (s := { s with
    client := { s.client with keepAliveTick := 0 } }) happ hB hN hqs
    ⟨h.receiving, h.registered, h.in_length, h.sized, h.holds⟩ hlt hroom fuel hfuel
  exact ⟨s', hloop, hready, habsorbs.connState, habsorbs.accepted, habsorbs.bytes, habsorbs.delivered⟩

/-! ## Segments of publishes -/

theorem escape_length_le (b : UInt8) : (ByteStuffing.escape delimiters b).length ≤ 2 := by
  rw [ByteStuffing.escape_length]
  split <;> omega

theorem answerFrames_singleton_le (q : Packet) : (answerFrames [q]).length ≤ 8 := by
  have hframe : ∀ (h : UInt8) (id : ℕ), (ByteStuffing.escape delimiters h).length = 1 →
      (stuff (h :: 2 :: word id)).length ≤ 8 := by
    intro h id hplain
    have hhigh := escape_length_le (UInt8.ofNat (id / 256))
    have hlow := escape_length_le (UInt8.ofNat id)
    have htwo : (ByteStuffing.escape delimiters 2).length = 1 := by decide
    simp only [ByteStuffing.frame, word, ByteStuffing.stuffed_cons, ByteStuffing.stuffed_nil,
      List.length_cons, List.length_append, List.length_nil]
    omega
  cases q with
  | publish dup qos retain topic id payload =>
    by_cases h1 : qos = 1
    · rw [(answerFrames_singleton (p := .publish dup qos retain topic id payload) (if_pos h1)).2]
      exact hframe 0x40 id (by decide)
    · by_cases h2 : qos = 2
      · have hanswers : answers (.publish dup qos retain topic id payload) = [.pubrec id] := by
          rw [answers, if_neg h1, if_pos h2]
        rw [(answerFrames_singleton hanswers).2]
        exact hframe 0x50 id (by decide)
      · have hanswers : answers (.publish dup qos retain topic id payload) = [] := by
          rw [answers, if_neg h1, if_neg h2]
        rw [(answerFrames_nothing hanswers).2]
        exact Nat.zero_le _
  | pubrec id =>
    rw [(answerFrames_singleton (p := .pubrec id) rfl).2]
    exact hframe 0x62 id (by decide)
  | pubrel dup id =>
    rw [(answerFrames_singleton (p := .pubrel dup id) rfl).2]
    exact hframe 0x70 id (by decide)
  | _ => exact Nat.zero_le _

theorem answerFrames_length_le (qs : List Packet) : (answerFrames qs).length ≤ 8 * qs.length := by
  induction qs with
  | nil => exact Nat.zero_le _
  | cons q qs ih =>
    have := answerFrames_singleton_le q
    rw [answerFrames_cons_length, List.length_cons]
    omega

/-- **A segment of publishes is delivered and acknowledged exactly**: each publish is handed to
`dataCb` once, in order, with its topic and its payload, and the queue grows by the PUBACKs
and PUBRECs they ask for, in order, each under its publish's identifier. -/
theorem recv_publishes (hB : B ≤ 65535) (hN : N < 65535) {app : Application} (happ : ∀ s, app.dataCb s = s)
    (h : Ready B N ps s) {qs : List Packet} (hqs : ∀ q ∈ qs, q.WellFormed ∧ q.kind = 3)
    (hlt : (qs.flatMap Packet.encode).length < B)
    (hroom : s.client.msgQueue.rb.bytes.length + 8 * qs.length ≤ N) :
    ∃ fuel s' calls, mqtt_tcpclient_recv B app fuel s (qs.flatMap Packet.encode) = some s' ∧
      s'.delivered = s.delivered ++ calls ∧ calls.map DataCall.contents = qs.flatMap deliveries ∧
      s'.accepted = s.accepted ++ answerBytes qs ∧
      s'.client.msgQueue.Holds N (ps ++ answerBytes qs) ∧
      s'.client.msgQueue.rb.bytes = s.client.msgQueue.rb.bytes ++ answerFrames qs := by
  have hserver : ∀ q ∈ qs, q.WellFormed ∧ FromServer q := by
    intro q hq
    obtain ⟨hwell, hkind⟩ := hqs q hq
    refine ⟨hwell, ?_⟩
    cases q with
    | publish => trivial
    | _ => cases hkind
  have hle := answerFrames_length_le qs
  obtain ⟨s', hrecv, hready, habsorbs⟩ := recv_packets happ hB hN hserver h hlt (by omega)
    (qs.length + 1) (by omega)
  rw [handled_publishes fun q hq => (hqs q hq).2] at hready habsorbs
  obtain ⟨calls, hcalls, hcontents⟩ := habsorbs.delivered
  exact ⟨_, s', calls, hrecv, hcalls, hcontents, habsorbs.accepted, hready.holds, habsorbs.bytes⟩

theorem recv_publishes_two :
    let qs := [Packet.publish false 1 false [0x61] 7 [], Packet.publish true 2 true [0x62] 0x7E7D [0x31]]
    ∃ fuel s' calls, mqtt_tcpclient_recv 1024 .silent fuel (receivingClient 1024) (qs.flatMap Packet.encode) =
        some s' ∧
      s'.delivered = (receivingClient 1024).delivered ++ calls ∧
      calls.map DataCall.contents = qs.flatMap deliveries ∧
      s'.accepted = (receivingClient 1024).accepted ++ answerBytes qs ∧
      s'.client.msgQueue.Holds QUEUE_BUFFER_SIZE ([] ++ answerBytes qs) ∧
      s'.client.msgQueue.rb.bytes = (receivingClient 1024).client.msgQueue.rb.bytes ++ answerFrames qs := by
  refine recv_publishes (by decide) (by decide) (fun _ => rfl) (receivingClient_ready (by decide)) ?_
    (by decide) (by decide)
  intro q hq
  obtain rfl | rfl := List.mem_pair.mp hq
  · exact ⟨⟨by simp [Packet.Fields], by decide⟩, rfl⟩
  · exact ⟨⟨by simp [Packet.Fields], by decide⟩, rfl⟩

/-! ## Mixed segments -/

def recvEach (B : ℕ) (app : Application) (fuel : ℕ) : Sys → List (List UInt8) → Option Sys
  | s, [] => some s
  | s, pdata :: segments =>
    match mqtt_tcpclient_recv B app fuel s pdata with
    | none => none
    | some s => recvEach B app fuel s segments

theorem recvEach_packets {app : Application} (happ : ∀ s, app.dataCb s = s) (hB : B ≤ 65535) (hN : N < 65535)
    {qs : List Packet} (hqs : ∀ q ∈ qs, q.WellFormed ∧ FromServer q) (h : Ready B N ps s)
    (hlt : (qs.flatMap Packet.encode).length < B)
    (hroom : s.client.msgQueue.rb.bytes.length + (answerFrames qs).length ≤ N) (fuel : ℕ) (hfuel : 1 < fuel) :
    ∃ s', recvEach B app fuel s (qs.map Packet.encode) = some s' ∧
      Ready B N (ps ++ answerBytes qs) s' ∧ Absorbs s s' qs := by
  induction qs generalizing ps s with
  | nil =>
    refine ⟨s, rfl, ?_, Absorbs.nil s⟩
    rw [answerBytes, List.flatMap_nil, List.map_nil, List.append_nil]
    exact h
  | cons q qs ih =>
    rw [List.flatMap_cons, List.length_append] at hlt
    rw [answerFrames_cons_length] at hroom
    have hone : handled [q] = [q] := by
      rw [handled]
      split <;> rfl
    have hq : ∀ p ∈ [q], p.WellFormed ∧ FromServer p := fun p hp =>
      hqs p (by rw [List.mem_singleton.mp hp]; exact List.mem_cons_self ..)
    obtain ⟨s₁, hrecv, hready, habsorbs⟩ := recv_packets happ hB hN hq h
      (by rw [List.flatMap_singleton]; omega) (by omega) fuel hfuel
    rw [hone] at hready habsorbs
    rw [List.flatMap_singleton] at hrecv
    have hring : s₁.client.msgQueue.rb.bytes.length + (answerFrames qs).length ≤ N := by
      rw [habsorbs.bytes, List.length_append]
      omega
    obtain ⟨s₂, heach, hready₂, habsorbs₂⟩ := ih (fun p hp => hqs p (List.mem_cons_of_mem _ hp)) hready
      (by omega) hring
    refine ⟨s₂, ?_, ?_, habsorbs.trans habsorbs₂⟩
    · rw [List.map_cons, recvEach, hrecv]
      exact heach
    · rw [← List.singleton_append, answerBytes_append, ← List.append_assoc]
      exact hready₂

/-- The same `dataCb` calls by content, the same packets queued, the same state. -/
structure SameEffect (s s' : Sys) : Prop where
  delivered : s.delivered.map DataCall.contents = s'.delivered.map DataCall.contents
  accepted : s.accepted = s'.accepted
  ring : s.client.msgQueue.rb.bytes = s'.client.msgQueue.rb.bytes
  connState : s.client.connState = s'.client.connState

/-- A packet that leads to a `dataCb` call or an answer. -/
def Matters (q : Packet) : Prop := q.kind = 3 ∨ q.kind = 5 ∨ q.kind = 6

theorem matters_iff {q : Packet} (h : FromServer q) : ¬ Matters q ↔ deliveries q = [] ∧ answers q = [] := by
  cases q <;> simp [Matters, Packet.kind, deliveries, answers, FromServer] at h ⊢

theorem sameEffect_iff {s s₁ s₂ : Sys} {qs : List Packet} (hserver : ∀ q ∈ qs, FromServer q)
    (h₁ : Absorbs s s₁ (handled qs)) (h₂ : Absorbs s s₂ qs) :
    SameEffect s₁ s₂ ↔ ∀ q ∈ skipped qs, ¬ Matters q := by
  obtain ⟨calls₁, hcalls₁, hcontents₁⟩ := h₁.delivered
  obtain ⟨calls₂, hcalls₂, hcontents₂⟩ := h₂.delivered
  have hsplit := handled_append_skipped qs
  have hmem : ∀ q ∈ skipped qs, FromServer q := by
    intro q hq
    rw [← hsplit] at hserver
    exact hserver q (List.mem_append_right _ hq)
  have hflat : qs.flatMap deliveries = (handled qs).flatMap deliveries ++ (skipped qs).flatMap deliveries := by
    rw [← List.flatMap_append, hsplit]
  have hanswers : answerBytes qs = answerBytes (handled qs) ++ answerBytes (skipped qs) := by
    rw [← answerBytes_append, hsplit]
  have hframes : answerFrames qs = answerFrames (handled qs) ++ answerFrames (skipped qs) := by
    rw [← answerFrames_append, hsplit]
  have hcalls : s₂.delivered.map DataCall.contents =
      s₁.delivered.map DataCall.contents ++ (skipped qs).flatMap deliveries := by
    rw [hcalls₁, hcalls₂, List.map_append, List.map_append, hcontents₁, hcontents₂, hflat, List.append_assoc]
  have haccepted : s₂.accepted = s₁.accepted ++ answerBytes (skipped qs) := by
    rw [h₂.accepted, h₁.accepted, hanswers, List.append_assoc]
  have hring : s₂.client.msgQueue.rb.bytes = s₁.client.msgQueue.rb.bytes ++ answerFrames (skipped qs) := by
    rw [h₂.bytes, h₁.bytes, hframes, List.append_assoc]
  constructor
  · intro hsame q hq
    rw [hsame.delivered, List.self_eq_append_right] at hcalls
    rw [hsame.accepted, List.self_eq_append_right, answerBytes, List.map_eq_nil_iff] at haccepted
    rw [matters_iff (hmem q hq)]
    exact ⟨List.flatMap_eq_nil_iff.mp hcalls q hq, List.flatMap_eq_nil_iff.mp haccepted q hq⟩
  · intro hquiet
    have hnothing : ∀ q ∈ skipped qs, deliveries q = [] ∧ answers q = [] := fun q hq =>
      (matters_iff (hmem q hq)).mp (hquiet q hq)
    have hd : (skipped qs).flatMap deliveries = [] := List.flatMap_eq_nil_iff.mpr fun q hq => (hnothing q hq).1
    have ha : answerBytes (skipped qs) = [] := by
      rw [answerBytes, List.flatMap_eq_nil_iff.mpr fun q hq => (hnothing q hq).2, List.map_nil]
    refine ⟨?_, ?_, ?_, h₁.connState.trans h₂.connState.symm⟩
    · rw [hcalls, hd, List.append_nil]
    · rw [haccepted, ha, List.append_nil]
    · rw [hring, answerFrames, ha, List.flatMap_nil, List.append_nil]

/-- **One segment against one call per packet.** The handler does the same on the concatenation
as on the packets one after the other exactly when no PUBLISH, PUBREC or PUBREL stands behind
the first packet that is not a PUBLISH. -/
theorem recv_coalesced_iff (hB : B ≤ 65535) (hN : N < 65535) {app : Application}
    (happ : ∀ s, app.dataCb s = s) (h : Ready B N ps s) {qs : List Packet}
    (hqs : ∀ q ∈ qs, q.WellFormed ∧ FromServer q) (hlt : (qs.flatMap Packet.encode).length < B)
    (hroom : s.client.msgQueue.rb.bytes.length + (answerFrames qs).length ≤ N) :
    ∃ fuel s₁ s₂, mqtt_tcpclient_recv B app fuel s (qs.flatMap Packet.encode) = some s₁ ∧
      recvEach B app fuel s (qs.map Packet.encode) = some s₂ ∧
      (SameEffect s₁ s₂ ↔ ∀ q ∈ skipped qs, ¬ Matters q) := by
  obtain ⟨s₁, hrecv, _, habsorbs₁⟩ := recv_packets happ hB hN hqs h hlt hroom (qs.length + 2) (by omega)
  obtain ⟨s₂, heach, _, habsorbs₂⟩ := recvEach_packets happ hB hN hqs h hlt hroom (qs.length + 2) (by omega)
  exact ⟨_, s₁, s₂, hrecv, heach, sameEffect_iff (fun q hq => (hqs q hq).2) habsorbs₁ habsorbs₂⟩

def mixedSegment : List Packet := [.puback 1, .publish false 0 false [0x61] 0 [0x31]]

theorem mixedSegment_server : ∀ q ∈ mixedSegment, q.WellFormed ∧ FromServer q := by
  intro q hq
  obtain rfl | rfl := List.mem_pair.mp hq
  · exact ⟨⟨by simp [Packet.Fields], by decide⟩, trivial⟩
  · exact ⟨⟨by simp [Packet.Fields], by decide⟩, trivial⟩

theorem recv_coalesced_iff_mixedSegment :
    ∃ fuel s₁ s₂, mqtt_tcpclient_recv 1024 .silent fuel (receivingClient 1024)
        (mixedSegment.flatMap Packet.encode) = some s₁ ∧
      recvEach 1024 .silent fuel (receivingClient 1024) (mixedSegment.map Packet.encode) = some s₂ ∧
      (SameEffect s₁ s₂ ↔ ∀ q ∈ skipped mixedSegment, ¬ Matters q) :=
  recv_coalesced_iff (by decide) (by decide) (fun _ => rfl) (receivingClient_ready (by decide))
    mixedSegment_server (by decide) (by decide)

/-- The publish is lost: it is delivered only when it comes in a segment of its own. -/
theorem recv_coalesced_loses_publish :
    ∃ s₁ s₂, mqtt_tcpclient_recv 1024 .silent 3 (receivingClient 1024)
        ((Packet.puback 1).encode ++ (Packet.publish false 0 false [0x61] 0 [0x31]).encode) = some s₁ ∧
      recvEach 1024 .silent 3 (receivingClient 1024)
        [(Packet.puback 1).encode, (Packet.publish false 0 false [0x61] 0 [0x31]).encode] = some s₂ ∧
      s₁.delivered.map DataCall.contents = [] ∧
      s₂.delivered.map DataCall.contents = [(([0x61], 1), ([0x31], 1))] := by
  have hready := receivingClient_ready (B := 1024) (by decide)
  have happ : ∀ s, Application.silent.dataCb s = s := fun _ => rfl
  obtain ⟨s₁, hrecv, _, habsorbs₁⟩ := recv_packets happ (by decide) (by decide)
    mixedSegment_server hready (by decide) (by decide) 3 (by decide)
  obtain ⟨s₂, heach, _, habsorbs₂⟩ := recvEach_packets happ (by decide) (by decide)
    mixedSegment_server hready (by decide) (by decide) 3 (by decide)
  obtain ⟨calls₁, hcalls₁, hcontents₁⟩ := habsorbs₁.delivered
  obtain ⟨calls₂, hcalls₂, hcontents₂⟩ := habsorbs₂.delivered
  refine ⟨s₁, s₂, ?_, heach, ?_, ?_⟩
  · rw [← hrecv]
    rfl
  · rw [hcalls₁, List.map_append, hcontents₁]
    rfl
  · rw [hcalls₂, List.map_append, hcontents₂]
    rfl

end LightSleepMqtt.Client
