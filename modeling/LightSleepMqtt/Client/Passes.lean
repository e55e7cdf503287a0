import LightSleepMqtt.Client.Frames
import LightSleepMqtt.Client.Segments

/-! READPACKET pass by pass. `passEntry` is the state and the rest of the segment a pass starts
with, so that a property may speak of every pass of a call, also of a call that never returns.
`Front` adds to the rests of a segment what `in_buffer` then holds of its bytes, and each of them
is reached by a client whose queue has room for the answers on the way. -/
namespace LightSleepMqtt.Client
open Message MqttWire Queue ByteStuffing
set_option autoImplicit false

section
variable (B : ℕ) (app : Application)

/-- The client behind a pass and the callback it makes. -/
def passEnd (entry : Sys × List UInt8) : Sys :=
  match readPacket B entry.1 entry.2 with
  | (s, .left) => s
  | (s, .connected) => if s.client.connectedCb then app.connectedCb s else s
  | (s, .publish) => if s.client.dataCb then app.dataCb s else s

/-- What the next pass starts with, unless the loop is left. -/
def nextEntry (entry : Sys × List UInt8) : Option (Sys × List UInt8) :=
  match (readPacket B entry.1 entry.2).2 with
  | .publish => (nextPacket (passEnd B app entry) entry.2).map fun rest => (passEnd B app entry, rest)
  | _ => none

/-- What pass number `n` of the loop starts with. -/
def passEntry (s : Sys) (pdata : List UInt8) : ℕ → Option (Sys × List UInt8)
  | 0 => some (s, pdata)
  | n + 1 => (passEntry s pdata n).bind (nextEntry B app)

/-- The client as READPACKET finds it. -/
def entered (s : Sys) : Sys := { s with client := { s.client with keepAliveTick := 0 } }

end

variable {B m : ℕ} {app : Application} {s s' t : Sys} {segment rest known : List UInt8}

/-! ## The loop and its passes -/

theorem readLoop_succ (fuel : ℕ) (s : Sys) (pdata : List UInt8) :
    readLoop B app (fuel + 1) s pdata =
      (nextEntry B app (s, pdata)).elim (some (system_os_post (passEnd B app (s, pdata))))
        fun entry => readLoop B app fuel entry.1 entry.2 := by
  simp only [readLoop, nextEntry, passEnd]
  obtain ⟨s', _ | _ | _⟩ := readPacket B s pdata
  · rfl
  · rfl
  · simp only
    cases nextPacket (if s'.client.dataCb then app.dataCb s' else s') pdata <;> rfl

/-- A call that comes to a pass goes on as the loop does from there. -/
theorem readLoop_passEntry {n : ℕ} {entry : Sys × List UInt8} (h : passEntry B app s segment n = some entry)
    (fuel : ℕ) : readLoop B app (fuel + n) s segment = readLoop B app fuel entry.1 entry.2 := by
  induction n generalizing entry fuel with
  | zero =>
    obtain rfl := Option.some.inj h
    rfl
  | succ n ih =>
    obtain ⟨before, hbefore, hnext⟩ := Option.bind_eq_some_iff.mp h
    have hloop := ih hbefore (fuel + 1)
    rw [Nat.add_assoc, Nat.add_comm 1 n] at hloop
    rw [hloop, readLoop_succ, hnext]
    rfl

/-- A call that returns has come to a last pass. -/
theorem readLoop_last {fuel : ℕ} (h : readLoop B app fuel s segment = some s') :
    ∃ n entry, passEntry B app s segment n = some entry ∧ nextEntry B app entry = none ∧
      s' = system_os_post (passEnd B app entry) := by
  suffices hend : ∀ (n : ℕ) (entry : Sys × List UInt8), passEntry B app s segment n = some entry →
      readLoop B app fuel entry.1 entry.2 = some s' → ∃ n entry, passEntry B app s segment n = some entry ∧
        nextEntry B app entry = none ∧ s' = system_os_post (passEnd B app entry) from hend 0 _ rfl h
  clear h
  induction fuel with
  | zero => intro _ _ _ hloop; cases hloop
  | succ fuel ih =>
    intro n entry hentry hloop
    rw [readLoop_succ] at hloop
    cases hnext : nextEntry B app entry with
    | none =>
      rw [hnext] at hloop
      exact ⟨n, entry, hentry, hnext, (Option.some.inj hloop).symm⟩
    | some entry' =>
      rw [hnext] at hloop
      exact ih (n + 1) entry' (by rw [passEntry, hentry]; exact hnext) hloop

theorem passEnd_publish (h : readPacket B s rest = (s', .publish)) :
    passEnd B app (s, rest) = if s'.client.dataCb then app.dataCb s' else s' := by
  simp only [passEnd, h]

theorem nextPacket_passEnd (h : readPacket B s rest = (s', .publish)) :
    nextPacket (passEnd B app (s, rest)) rest =
      if announced rest < rest.length then some (rest.drop (announced rest)) else none := by
  obtain ⟨_, _, hlength, hread⟩ := readPacket_publish_spec h
  apply nextPacket_eq
  · rw [passEnd_publish h]
    split
    · exact (app.keepsLengths s').1.trans hlength
    · exact hlength
  · rw [passEnd_publish h]
    split
    · exact (app.keepsLengths s').2.trans hread
    · exact hread

theorem nextEntry_publish (h : readPacket B s rest = (s', .publish)) (hmore : announced rest < rest.length) :
    nextEntry B app (s, rest) = some (passEnd B app (s, rest), rest.drop (announced rest)) := by
  simp only [nextEntry, h]
  rw [nextPacket_passEnd h, if_pos hmore, Option.map_some]

theorem nextEntry_some {entry : Sys × List UInt8} (h : nextEntry B app (s, rest) = some entry) :
    (∃ s', readPacket B s rest = (s', .publish)) ∧ announced rest < rest.length ∧
      entry = (passEnd B app (s, rest), rest.drop (announced rest)) := by
  cases hpass : readPacket B s rest with
  | mk s' pass =>
    simp only [nextEntry, hpass] at h
    cases pass with
    | left => cases h
    | connected => cases h
    | publish =>
      simp only at h
      rw [nextPacket_passEnd hpass] at h
      by_cases hmore : announced rest < rest.length
      · rw [if_pos hmore, Option.map_some] at h
        exact ⟨⟨s', rfl⟩, hmore, (Option.some.inj h).symm⟩
      · rw [if_neg hmore] at h
        cases h

theorem nextEntry_none (h : ¬ ((readPacket B s rest).2 = .publish ∧ announced rest < rest.length)) :
    nextEntry B app (s, rest) = none := by
  rw [Option.eq_none_iff_forall_ne_some]
  intro entry hentry
  obtain ⟨⟨s', hpass⟩, hmore, _⟩ := nextEntry_some hentry
  exact h ⟨congrArg Prod.snd hpass, hmore⟩

theorem passEntry_start {n : ℕ} (h : passEntry B app s segment n = some (t, rest)) : PacketStart segment rest := by
  induction n generalizing t rest with
  | zero =>
    obtain ⟨_, rfl⟩ := Prod.mk.inj (Option.some.inj h)
    exact .first
  | succ n ih =>
    obtain ⟨⟨t₀, rest₀⟩, hbefore, hnext⟩ := Option.bind_eq_some_iff.mp h
    obtain ⟨⟨s', hpass⟩, hmore, hentry⟩ := nextEntry_some hnext
    rw [(Prod.mk.inj hentry).2]
    exact .behind (ih hbefore) (readPacket_publish_spec hpass).1 hmore

/-- A segment that does not fit is left at once. -/
theorem passEntry_fits {n : ℕ} (h : passEntry B app s segment n = some (t, rest)) :
    rest = segment ∨ segment.length < B := by
  induction n generalizing t rest with
  | zero => exact .inl (Prod.mk.inj (Option.some.inj h)).2.symm
  | succ n ih =>
    obtain ⟨⟨t₀, rest₀⟩, hbefore, hnext⟩ := Option.bind_eq_some_iff.mp h
    obtain ⟨⟨s', hpass⟩, _, _⟩ := nextEntry_some hnext
    obtain rfl | hlt := ih hbefore
    · exact .inr (readPacket_publish hpass).2.2
    · exact .inr hlt

/-- What every pass of a loop keeps. -/
theorem passEntry_invariant {I : Sys → Prop}
    (hstep : ∀ {s s' : Sys} {rest : List UInt8}, I s → readPacket B s rest = (s', .publish) → I s')
    (happ : ∀ s, I s → I (app.dataCb s)) (hs : I s) {n : ℕ} (h : passEntry B app s segment n = some (t, rest)) :
    I t := by
  induction n generalizing t rest with
  | zero =>
    obtain ⟨rfl, _⟩ := Prod.mk.inj (Option.some.inj h)
    exact hs
  | succ n ih =>
    obtain ⟨⟨t₀, rest₀⟩, hbefore, hnext⟩ := Option.bind_eq_some_iff.mp h
    obtain ⟨⟨s', hpass⟩, _, hentry⟩ := nextEntry_some hnext
    obtain ⟨rfl, _⟩ := Prod.mk.inj hentry
    have hs' := hstep (ih hbefore) hpass
    rw [passEnd_publish hpass]
    split
    · exact happ s' hs'
    · exact hs'

/-! ## What `in_buffer` holds of a segment -/

/-- The rests of a segment at which a pass may start, with the bytes of the segment as `in_buffer`
then holds them: each rest is copied over the front of what was there. -/
inductive Front (segment : List UInt8) : List UInt8 → List UInt8 → Prop where
  | first : Front segment segment segment
  | behind {rest known : List UInt8} : Front segment rest known →
      mqtt_get_type rest = MQTT_MSG_TYPE_PUBLISH → announced rest < rest.length →
      Front segment (rest.drop (announced rest)) (copyAt known 0 (rest.drop (announced rest)))

theorem Front.start (h : Front segment rest known) : PacketStart segment rest := by
  induction h with
  | first => exact .first
  | behind _ htype hmore ih => exact .behind ih htype hmore

theorem PacketStart.front (h : PacketStart segment rest) : ∃ known, Front segment rest known := by
  induction h with
  | first => exact ⟨segment, .first⟩
  | behind _ htype hmore ih =>
    obtain ⟨known, hfront⟩ := ih
    exact ⟨_, .behind hfront htype hmore⟩

theorem Front.known_length (h : Front segment rest known) : known.length = segment.length ∧
    rest.length ≤ known.length := by
  induction h with
  | first => exact ⟨rfl, Nat.le_refl _⟩
  | behind _ _ _ ih =>
    obtain ⟨hknown, hrest⟩ := ih
    simp only [copyAt_zero, List.length_append, List.length_drop]
    omega

theorem Front.known_front (h : Front segment rest known) : ∃ tail, known = rest ++ tail := by
  cases h with
  | first => exact ⟨[], (List.append_nil _).symm⟩
  | behind _ _ _ => exact ⟨_, copyAt_zero _ _⟩

/-- `in_buffer` when the front of a rest has been read: the segment's bytes, and behind them what
was there before. -/
theorem copyAt_known {fill buffer : List UInt8} (h : rest.length ≤ known.length) (hbuffer : buffer = known ++ fill) :
    copyAt buffer 0 rest = copyAt known 0 rest ++ fill := by
  rw [hbuffer, copyAt_zero, copyAt_zero, List.drop_append_of_le_length h, List.append_assoc]

/-! ## The answer to a packet -/

/-- The type and the QoS bits of the answer that is queued for the packet at the front. -/
def answerHeader (rest : List UInt8) : Option (ℕ × ℤ) :=
  if mqtt_get_type rest = MQTT_MSG_TYPE_PUBLISH then
    if mqtt_get_qos rest = 1 then some (MQTT_MSG_TYPE_PUBACK, 0)
    else if mqtt_get_qos rest = 2 then some (MQTT_MSG_TYPE_PUBREC, 0)
    else none
  else if mqtt_get_type rest = MQTT_MSG_TYPE_PUBREC then some (MQTT_MSG_TYPE_PUBREL, 1)
  else if mqtt_get_type rest = MQTT_MSG_TYPE_PUBREL then some (MQTT_MSG_TYPE_PUBCOMP, 0)
  else none

theorem switchType_answers {header : ℕ × ℤ} (h : answerHeader rest = some header) (s : Sys) (id : ℕ) :
    let answered := respond s (idMessage s.client.mqtt_state.mqtt_connection id header.1 header.2)
    (switchType s (mqtt_get_type rest) (mqtt_get_qos rest) id).client = answered.client ∧
      (switchType s (mqtt_get_type rest) (mqtt_get_qos rest) id).accepted = answered.accepted := by
  unfold answerHeader at h
  split at h
  · next htype =>
    rw [htype]
    split at h
    · next hqos =>
      obtain rfl := Option.some.inj h
      rw [hqos]
      exact ⟨rfl, rfl⟩
    · split at h
      · next hqos =>
        obtain rfl := Option.some.inj h
        rw [hqos]
        exact ⟨rfl, rfl⟩
      · cases h
  · split at h
    · next htype =>
      obtain rfl := Option.some.inj h
      rw [htype]
      exact ⟨rfl, rfl⟩
    · split at h
      · next htype =>
        obtain rfl := Option.some.inj h
        rw [htype]
        exact ⟨rfl, rfl⟩
      · cases h

theorem switchType_unanswered (h : answerHeader rest = none) (htype : mqtt_get_type rest = MQTT_MSG_TYPE_PUBLISH)
    (s : Sys) (id : ℕ) :
    (switchType s (mqtt_get_type rest) (mqtt_get_qos rest) id).client = s.client ∧
      (switchType s (mqtt_get_type rest) (mqtt_get_qos rest) id).accepted = s.accepted := by
  rw [answerHeader, if_pos htype] at h
  have h1 : mqtt_get_qos rest ≠ 1 := fun hqos => by rw [if_pos hqos] at h; cases h
  have h2 : mqtt_get_qos rest ≠ 2 := fun hqos => by rw [if_neg h1, if_pos hqos] at h; cases h
  rw [htype, switchType, if_pos rfl]
  simp only [if_neg h1, if_neg h2]
  exact ⟨rfl, rfl⟩

theorem mqtt_get_qos_copyAt (buffer : List UInt8) {pdata : List UInt8} (h : 0 < pdata.length) :
    mqtt_get_qos (copyAt buffer 0 pdata) = mqtt_get_qos pdata := by
  rw [mqtt_get_qos, copyAt_zero, byteAt_append_left _ h, mqtt_get_qos]

/-- A pass of a receiving client, by what its bytes say. -/
theorem readPacket_switch (hs : Receiving s) (hpos : 0 < rest.length) (hlt : rest.length < B) :
    readPacket B s rest =
      (switchType (loaded s rest) (mqtt_get_type rest) (mqtt_get_qos rest)
        (mqtt_get_id (copyAt s.client.mqtt_state.in_buffer 0 rest) (s.client.mqtt_state.in_buffer_length % 65536)),
        if mqtt_get_type rest = MQTT_MSG_TYPE_PUBLISH then .publish else .left) := by
  rw [readPacket_receiving hs hpos hlt, mqtt_get_qos_copyAt _ hpos]

/-! ## Clients that reach every pass -/

theorem stuff_length_le (packet : List UInt8) : (stuff packet).length ≤ 2 + 2 * packet.length := by
  have := List.countP_le_length (p := fun b => decide (delimiters.Special b)) (l := packet)
  rw [frame_length]
  omega

/-- A receiving client whose queue has room for `m` answers. -/
structure Roomy (B m : ℕ) (s : Sys) : Prop where
  receiving : Receiving s
  in_length : s.client.mqtt_state.in_buffer_length = B
  sized : Sized B s.client.mqtt_state.mqtt_connection
  room : ∃ N ps, s.client.msgQueue.Holds N ps ∧ s.client.msgQueue.rb.bytes.length + 10 * m ≤ N

theorem Roomy.of_client (h : Roomy B m s) (hclient : s'.client = s.client) : Roomy B m s' := by
  constructor
  · rw [Receiving, hclient]
    exact h.receiving
  · rw [hclient]
    exact h.in_length
  · rw [hclient]
    exact h.sized
  · rw [hclient]
    exact h.room

theorem Roomy.less (h : Roomy B (m + 1) s) : Roomy B m s := by
  obtain ⟨N, ps, hholds, hroom⟩ := h.room
  exact ⟨h.receiving, h.in_length, h.sized, N, ps, hholds, by omega⟩

theorem Roomy.loaded (h : Roomy B m s) (rest : List UInt8) : Roomy B m (loaded s rest) :=
  ⟨h.receiving, h.in_length, h.sized, h.room⟩

theorem Roomy.respond (h : Roomy B (m + 1) s) (hB : 3 ≤ B) (id type : ℕ) (qos : ℤ) :
    let answered := Client.respond s (idMessage s.client.mqtt_state.mqtt_connection id type qos)
    Roomy B m answered ∧ answered.accepted =
      s.accepted ++ [(idMessage s.client.mqtt_state.mqtt_connection id type qos).bytes] := by
  obtain ⟨N, ps, hholds, hroom⟩ := h.room
  have hemitted := idMessage_emitted h.sized hB id type qos
  have hfour : (emission B (fixedHeader type 0 qos 0)
      (some (word (drawnId s.client.mqtt_state.mqtt_connection id)))).length ≤ 4 := by
    rw [emission]
    split
    · exact Nat.le_refl 4
    · exact Nat.zero_le 4
  have hlength : (idMessage s.client.mqtt_state.mqtt_connection id type qos).message.length < 65536 := by
    rw [hemitted.length]
    omega
  have hbytes := congrArg List.length hemitted.bytes
  have hstuff := stuff_length_le (idMessage s.client.mqtt_state.mqtt_connection id type qos).bytes
  obtain ⟨hholds', hring, haccepted⟩ := respond_fits hholds hlength (by omega) (by omega)
  refine ⟨⟨h.receiving, h.in_length, hemitted.sized, N, _, hholds', ?_⟩, haccepted⟩
  rw [hring, List.length_append]
  omega

theorem Roomy.entered (h : Roomy B m s) : Roomy B m (entered s) := ⟨h.receiving, h.in_length, h.sized, h.room⟩

/-- A receiving client with a ring of `N` bytes and given contents of `in_buffer`. -/
def roomyClient (B N : ℕ) (in_buffer : List UInt8) : Sys :=
  let s := setInBuffer (receivingClient B) in_buffer
  { s with client := { s.client with msgQueue := QUEUE_Init s.client.msgQueue N } }

theorem roomyClient_roomy (hB : B ≤ 65535) {N : ℕ} (h2 : 2 ≤ N) (hN : 10 * m ≤ N) (in_buffer : List UInt8) :
    Roomy B m (roomyClient B N in_buffer) := by
  have hready := receivingClient_ready hB
  obtain ⟨hholds, hempty⟩ := QUEUE_Init_holds (setInBuffer (receivingClient B) in_buffer).client.msgQueue h2
  refine ⟨hready.receiving, hready.in_length, hready.sized, N, [], hholds, ?_⟩
  have hring : (roomyClient B N in_buffer).client.msgQueue.rb.bytes = [] := hempty
  rw [hring, List.length_nil]
  omega

/-- The answer to a packet is queued, under the identifier the decoder has found. -/
theorem readPacket_answers (h : Roomy B (m + 1) s) (hB : 3 ≤ B) (hpos : 0 < rest.length) (hlt : rest.length < B)
    {header : ℕ × ℤ} (hanswer : answerHeader rest = some header) :
    Roomy B m (readPacket B s rest).1 ∧ (readPacket B s rest).1.accepted = s.accepted ++
      [(idMessage s.client.mqtt_state.mqtt_connection
        (mqtt_get_id (copyAt s.client.mqtt_state.in_buffer 0 rest) (B % 65536)) header.1 header.2).bytes] := by
  obtain ⟨hclient, haccepted⟩ := switchType_answers hanswer (loaded s rest)
    (mqtt_get_id (copyAt s.client.mqtt_state.in_buffer 0 rest) (B % 65536))
  obtain ⟨hroomy, hqueued⟩ := (h.loaded rest).respond hB
    (mqtt_get_id (copyAt s.client.mqtt_state.in_buffer 0 rest) (B % 65536)) header.1 header.2
  rw [readPacket_switch h.receiving hpos hlt, h.in_length]
  exact ⟨hroomy.of_client hclient, haccepted.trans hqueued⟩

/-- What a pass over a PUBLISH writes to `in_buffer`. -/
theorem readPacket_in_buffer (h : readPacket B s rest = (s', .publish)) :
    s'.client.mqtt_state.in_buffer = copyAt s.client.mqtt_state.in_buffer 0 rest ∧
      s'.client.mqtt_state.in_buffer_length = s.client.mqtt_state.in_buffer_length := by
  obtain ⟨hs, hpos, hlt⟩ := readPacket_publish h
  rw [readPacket_switch hs hpos hlt] at h
  obtain ⟨rfl, _⟩ := Prod.mk.inj h
  obtain ⟨connection, queue, accepted, delivered, hswitch⟩ := switchType_frame (loaded s rest) (mqtt_get_type rest)
    (mqtt_get_qos rest)
    (mqtt_get_id (copyAt s.client.mqtt_state.in_buffer 0 rest) (s.client.mqtt_state.in_buffer_length % 65536))
  rw [hswitch]
  exact ⟨rfl, rfl⟩

theorem readPacket_roomy (h : Roomy B (m + 1) s) (hB : 3 ≤ B) (hpos : 0 < rest.length) (hlt : rest.length < B)
    (htype : mqtt_get_type rest = MQTT_MSG_TYPE_PUBLISH) : ∃ s', readPacket B s rest = (s', .publish) ∧ Roomy B m s' ∧
      s'.client.mqtt_state.in_buffer = copyAt s.client.mqtt_state.in_buffer 0 rest := by
  have hpass := readPacket_switch h.receiving hpos hlt
  rw [if_pos htype] at hpass
  refine ⟨_, hpass, ?_, (readPacket_in_buffer hpass).1⟩
  cases hanswer : answerHeader rest with
  | none => exact (h.loaded rest).less.of_client (switchType_unanswered hanswer htype _ _).1
  | some header =>
    have hroomy := (readPacket_answers h hB hpos hlt hanswer).1
    rw [hpass] at hroomy
    exact hroomy

/-- Every front of a segment is reached, with `fill` behind the bytes of the segment. -/
theorem Front.reached (h : Front segment rest known) (hB : 3 ≤ B) (hpos : 0 < segment.length)
    (hlt : segment.length < B) : ∃ n, ∀ (m : ℕ) (s : Sys) (fill : List UInt8), Roomy B (m + n) s →
      copyAt s.client.mqtt_state.in_buffer 0 segment = segment ++ fill →
      ∃ t, passEntry B .silent s segment n = some (t, rest) ∧ Roomy B m t ∧
        copyAt t.client.mqtt_state.in_buffer 0 rest = known ++ fill := by
  induction h with
  | first => exact ⟨0, fun m s fill hs hfill => ⟨s, rfl, hs, hfill⟩⟩
  | @behind rest known hfront htype hmore ih =>
    obtain ⟨n, hreach⟩ := ih
    refine ⟨n + 1, fun m s fill hs hfill => ?_⟩
    rw [Nat.add_comm n 1, ← Nat.add_assoc] at hs
    obtain ⟨t, hentry, hroomy, hbuffer⟩ := hreach (m + 1) s fill hs hfill
    have hrest := hfront.start.length hpos
    obtain ⟨s', hpass, hroomy', hin⟩ := readPacket_roomy hroomy hB hrest.1 (by omega) htype
    have hend : passEnd B .silent (t, rest) = s' := by
      rw [passEnd_publish hpass]
      exact ite_self _
    have hnext : nextEntry B .silent (t, rest) = some (s', rest.drop (announced rest)) := by
      rw [nextEntry_publish hpass hmore, hend]
    refine ⟨s', ?_, hroomy', ?_⟩
    · rw [passEntry, hentry]
      exact hnext
    · have hknown := hfront.known_length
      exact copyAt_known (by rw [List.length_drop]; omega) (hin.trans hbuffer)

end LightSleepMqtt.Client
