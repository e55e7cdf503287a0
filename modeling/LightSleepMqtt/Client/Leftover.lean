import LightSleepMqtt.Client.Passes
import LightSleepMqtt.Message.Leftover

/-! Bytes that earlier segments have left in `in_buffer`. Two clients that differ in nothing else
are taken through the passes of one segment side by side. They stay alike as long as every answer
is given under an identifier that lies in the received bytes; topic and payload never reach
behind them. -/
namespace LightSleepMqtt.Client
open Message MqttWire Queue
set_option autoImplicit false

/-! ## Clients that differ in `in_buffer` only -/

def SameBut (s s' : Sys) : Prop := ∃ in_buffer, s' = setInBuffer s in_buffer

/-- The callbacks do not look into `in_buffer` but through the pointers they are given, and they do
not write it or its length. -/
structure Application.Blind (app : Application) : Prop where
  dataCb : ∀ s in_buffer, app.dataCb (setInBuffer s in_buffer) = setInBuffer (app.dataCb s) in_buffer
  connectedCb : ∀ s in_buffer, app.connectedCb (setInBuffer s in_buffer) = setInBuffer (app.connectedCb s) in_buffer
  keepsSize : ∀ s, (app.dataCb s).client.mqtt_state.in_buffer_length = s.client.mqtt_state.in_buffer_length

variable {B : ℕ} {app : Application} {s s' t t' : Sys} {segment rest known : List UInt8}

theorem Application.Blind.dataCb_in_buffer (h : app.Blind) (s : Sys) :
    (app.dataCb s).client.mqtt_state.in_buffer = s.client.mqtt_state.in_buffer := by
  have heq := h.dataCb s s.client.mqtt_state.in_buffer
  exact congrArg (fun s => s.client.mqtt_state.in_buffer) heq

theorem SameBut.dataCb (h : SameBut s s') (happ : app.Blind) : SameBut (app.dataCb s) (app.dataCb s') := by
  obtain ⟨in_buffer, rfl⟩ := h
  exact ⟨in_buffer, happ.dataCb s in_buffer⟩

theorem SameBut.connectedCb (h : SameBut s s') (happ : app.Blind) :
    SameBut (app.connectedCb s) (app.connectedCb s') := by
  obtain ⟨in_buffer, rfl⟩ := h
  exact ⟨in_buffer, happ.connectedCb s in_buffer⟩

/-! ## One pass on both clients -/

theorem eventData_append (hpos : 0 < rest.length) (fill : List UInt8) :
    eventData (rest ++ fill) rest.length = eventData rest rest.length := by
  have hbytes {j : Option ℕ} {n : ℕ} (hin : ∀ i, j = some i → i + n ≤ rest.length) :
      bytesAt (rest ++ fill) j n = bytesAt rest j n := by
    cases j with
    | none => rfl
    | some i =>
      have hle := hin i rfl
      simp only [bytesAt, Option.map_some]
      rw [List.drop_append_of_le_length (by omega), List.take_append_of_le_length (by rw [List.length_drop]; omega)]
  simp only [eventData, mqtt_get_publish_topic_append, mqtt_get_publish_data_append hpos]
  rw [hbytes fun i => mqtt_get_publish_topic_inside, hbytes fun i => mqtt_get_publish_data_inside]

theorem switchType_setInBuffer (s : Sys) (in_buffer : List UInt8) (msg_type msg_qos msg_id : ℕ)
    (hevent : eventData in_buffer s.client.mqtt_state.message_length_read =
      eventData s.client.mqtt_state.in_buffer s.client.mqtt_state.message_length_read) :
    switchType (setInBuffer s in_buffer) msg_type msg_qos msg_id =
      setInBuffer (switchType s msg_type msg_qos msg_id) in_buffer := by
  have hdeliver (u : Sys) (hin : u.client.mqtt_state.in_buffer = s.client.mqtt_state.in_buffer)
      (hread : u.client.mqtt_state.message_length_read = s.client.mqtt_state.message_length_read) :
      deliver_publish (setInBuffer u in_buffer) in_buffer u.client.mqtt_state.message_length_read =
        setInBuffer (deliver_publish u u.client.mqtt_state.in_buffer u.client.mqtt_state.message_length_read)
          in_buffer := by
    simp only [deliver_publish, hin, hread, hevent]
    rfl
  simp only [switchType]
  split_ifs
  · exact hdeliver (respond s (mqtt_msg_puback s.client.mqtt_state.mqtt_connection msg_id)) rfl rfl
  · exact hdeliver (respond s (mqtt_msg_pubrec s.client.mqtt_state.mqtt_connection msg_id)) rfl rfl
  · exact hdeliver s rfl rfl
  all_goals rfl

/-- Only an answer depends on the identifier that was decoded. -/
theorem switchType_id (h : answerHeader rest = none) (s : Sys) (id id' : ℕ) :
    switchType s (mqtt_get_type rest) (mqtt_get_qos rest) id = switchType s (mqtt_get_type rest) (mqtt_get_qos rest) id' := by
  unfold answerHeader at h
  simp only [switchType]
  split_ifs at h ⊢ <;> rfl

theorem loaded_event (s : Sys) (in_buffer : List UInt8) (hpos : 0 < rest.length) :
    eventData (copyAt in_buffer 0 rest) (loaded s rest).client.mqtt_state.message_length_read =
      eventData (loaded s rest).client.mqtt_state.in_buffer
        (loaded s rest).client.mqtt_state.message_length_read := by
  simp only [loaded, copyAt_zero]
  rw [eventData_append hpos, eventData_append hpos]

/-- A pass does the same in both clients if they decode the same identifier for the answer. -/
theorem readPacket_sameBut (s : Sys) (in_buffer rest : List UInt8) (hid : answerHeader rest ≠ none →
      mqtt_get_id (copyAt in_buffer 0 rest) (s.client.mqtt_state.in_buffer_length % 65536) =
        mqtt_get_id (copyAt s.client.mqtt_state.in_buffer 0 rest) (s.client.mqtt_state.in_buffer_length % 65536)) :
    SameBut (readPacket B s rest).1 (readPacket B (setInBuffer s in_buffer) rest).1 ∧
      (readPacket B (setInBuffer s in_buffer) rest).2 = (readPacket B s rest).2 := by
  by_cases hguard : rest.length < B ∧ rest.length > 0
  swap
  · rw [readPacket, if_neg hguard, readPacket, if_neg hguard]
    exact ⟨⟨in_buffer, rfl⟩, rfl⟩
  by_cases hs : Receiving s
  · have hs' : Receiving (setInBuffer s in_buffer) := hs
    have hloaded : loaded (setInBuffer s in_buffer) rest = setInBuffer (loaded s rest) (copyAt in_buffer 0 rest) := by
      simp only [loaded, setInBuffer]
    rw [readPacket_switch hs hguard.2 hguard.1, readPacket_switch hs' hguard.2 hguard.1, hloaded,
      switchType_setInBuffer _ _ _ _ _ (loaded_event s in_buffer hguard.2)]
    refine ⟨⟨copyAt in_buffer 0 rest, ?_⟩, rfl⟩
    cases hanswer : answerHeader rest with
    | none =>
      simp only
      rw [switchType_id hanswer]
    | some header =>
      have hsame := hid (by rw [hanswer]; exact Option.some_ne_none _)
      simp only [setInBuffer] at hsame ⊢
      rw [hsame]
  · simp only [Receiving, not_or] at hs
    simp only [readPacket, if_pos hguard, mqtt_get_type_copyAt _ hguard.2, setInBuffer]
    cases hstate : s.client.connState
    case MQTT_DATA => exact absurd hstate hs.1
    case MQTT_KEEPALIVE_SEND => exact absurd hstate hs.2
    case MQTT_CONNECT_SENDING =>
      simp only
      split
      · exact ⟨⟨copyAt in_buffer 0 rest, rfl⟩, rfl⟩
      · exact ⟨⟨copyAt in_buffer 0 rest, rfl⟩, rfl⟩
    all_goals exact ⟨⟨copyAt in_buffer 0 rest, rfl⟩, rfl⟩

theorem passEnd_sameBut (happ : app.Blind)
    (h : SameBut (readPacket B t rest).1 (readPacket B t' rest).1 ∧ (readPacket B t' rest).2 = (readPacket B t rest).2) :
    SameBut (passEnd B app (t, rest)) (passEnd B app (t', rest)) := by
  simp only [passEnd]
  generalize readPacket B t rest = r at h ⊢
  generalize readPacket B t' rest = r' at h ⊢
  obtain ⟨u, pass⟩ := r
  obtain ⟨u', pass'⟩ := r'
  obtain ⟨hsame, hpass⟩ := h
  simp only at hsame hpass
  rw [hpass]
  clear hpass
  have hflags : u'.client.connectedCb = u.client.connectedCb ∧ u'.client.dataCb = u.client.dataCb := by
    obtain ⟨in_buffer, rfl⟩ := hsame
    exact ⟨rfl, rfl⟩
  cases pass with
  | left => exact hsame
  | connected =>
    simp only [hflags.1]
    split
    · exact hsame.connectedCb happ
    · exact hsame
  | publish =>
    simp only [hflags.2]
    split
    · exact hsame.dataCb happ
    · exact hsame

theorem passEnd_in_buffer (happ : app.Blind) (h : readPacket B t rest = (t', .publish)) :
    (passEnd B app (t, rest)).client.mqtt_state.in_buffer = copyAt t.client.mqtt_state.in_buffer 0 rest ∧
      (passEnd B app (t, rest)).client.mqtt_state.in_buffer_length = t.client.mqtt_state.in_buffer_length := by
  obtain ⟨hin, hsize⟩ := readPacket_in_buffer h
  rw [passEnd_publish h]
  split
  · exact ⟨(happ.dataCb_in_buffer t').trans hin, (happ.keepsSize t').trans hsize⟩
  · exact ⟨hin, hsize⟩

/-- The two clients at the start of a pass: `in_buffer` will hold the segment's bytes in both. -/
structure Paired (B : ℕ) (rest known : List UInt8) (t t' : Sys) : Prop where
  same : SameBut t t'
  in_length : t.client.mqtt_state.in_buffer_length = B
  holds : ∃ fill, copyAt t.client.mqtt_state.in_buffer 0 rest = known ++ fill ∧ (known ++ fill).length = B
  holds' : ∃ fill, copyAt t'.client.mqtt_state.in_buffer 0 rest = known ++ fill ∧ (known ++ fill).length = B

theorem Front.identified (h : Front segment rest known) (hpos : 0 < rest.length) (hanswer : answerHeader rest ≠ none) :
    Identified known := by
  obtain ⟨tail, rfl⟩ := h.known_front
  have hne := List.length_pos_iff.mp hpos
  rw [Identified, mqtt_get_type_append hne, mqtt_get_qos_append hne]
  by_contra hnot
  simp only [not_or, not_and] at hnot
  refine hanswer ?_
  rw [answerHeader, if_neg hnot.2.1, if_neg hnot.2.2]
  split
  · next htype =>
    have hqos := hnot.1 htype
    rw [if_neg (by omega), if_neg (by omega)]
  · rfl

theorem Paired.same_id (h : Paired B rest known t t') (hB : 5 ≤ B) (hmax : B ≤ 65535) (hpos : 0 < segment.length)
    (hlt : segment.length < B) (hfront : Front segment rest known)
    (hreceived : answerHeader rest ≠ none → IdentifierReceived B known) (hanswer : answerHeader rest ≠ none) :
    mqtt_get_id (copyAt t'.client.mqtt_state.in_buffer 0 rest) (t.client.mqtt_state.in_buffer_length % 65536) =
      mqtt_get_id (copyAt t.client.mqtt_state.in_buffer 0 rest) (t.client.mqtt_state.in_buffer_length % 65536) := by
  obtain ⟨fill, hholds, hlength⟩ := h.holds
  obtain ⟨fill', hholds', hlength'⟩ := h.holds'
  have hknown := hfront.known_length.1
  have hid := hfront.identified (hfront.start.length hpos).1 hanswer
  rw [hholds, hholds', h.in_length, Nat.mod_eq_of_lt (by omega),
    mqtt_get_id_known (by omega) (by omega) hB hid (hreceived hanswer) hlength,
    mqtt_get_id_known (by omega) (by omega) hB hid (hreceived hanswer) hlength']

/-- Both loops go on with the same rest, or both are left. -/
theorem Paired.step (h : Paired B rest known t t') (happ : app.Blind) (hB : 5 ≤ B) (hmax : B ≤ 65535)
    (hpos : 0 < segment.length) (hlt : segment.length < B) (hfront : Front segment rest known)
    (hreceived : answerHeader rest ≠ none → IdentifierReceived B known) :
    SameBut (passEnd B app (t, rest)) (passEnd B app (t', rest)) ∧
      (nextEntry B app (t, rest) = none ∧ nextEntry B app (t', rest) = none ∨
        ∃ u u' rest' known', nextEntry B app (t, rest) = some (u, rest') ∧
          nextEntry B app (t', rest) = some (u', rest') ∧ Front segment rest' known' ∧ Paired B rest' known' u u') := by
  have hpass : SameBut (readPacket B t rest).1 (readPacket B t' rest).1 ∧
      (readPacket B t' rest).2 = (readPacket B t rest).2 := by
    have hid := h.same_id hB hmax hpos hlt hfront hreceived
    obtain ⟨in_buffer, rfl⟩ := h.same
    exact readPacket_sameBut t in_buffer rest hid
  have hend := passEnd_sameBut happ hpass
  refine ⟨hend, ?_⟩
  by_cases hmore : (readPacket B t rest).2 = .publish ∧ announced rest < rest.length
  · right
    have hread : readPacket B t rest = ((readPacket B t rest).1, .publish) := Prod.ext rfl hmore.1
    have hread' : readPacket B t' rest = ((readPacket B t' rest).1, .publish) := Prod.ext rfl (hpass.2.trans hmore.1)
    have hfill {u : Sys} (hread : readPacket B u rest = ((readPacket B u rest).1, .publish))
        (hholds : ∃ fill, copyAt u.client.mqtt_state.in_buffer 0 rest = known ++ fill ∧ (known ++ fill).length = B) :
        ∃ fill, copyAt (passEnd B app (u, rest)).client.mqtt_state.in_buffer 0 (rest.drop (announced rest)) =
          copyAt known 0 (rest.drop (announced rest)) ++ fill ∧
          (copyAt known 0 (rest.drop (announced rest)) ++ fill).length = B := by
      obtain ⟨fill, hfill, hlength⟩ := hholds
      have hin := (passEnd_in_buffer happ hread).1.trans hfill
      have hle := hfront.known_length.2
      have hle' : (rest.drop (announced rest)).length ≤ known.length := by
        rw [List.length_drop]
        omega
      refine ⟨fill, copyAt_known hle' hin, ?_⟩
      rw [← hlength, copyAt_zero]
      simp only [List.length_append, List.length_drop] at hle' ⊢
      omega
    refine ⟨_, _, _, _, nextEntry_publish hread hmore.2, nextEntry_publish hread' hmore.2,
      .behind hfront (readPacket_publish_spec hread).1 hmore.2, hend, ?_, hfill hread h.holds, hfill hread' h.holds'⟩
    exact (passEnd_in_buffer happ hread).2.trans h.in_length
  · refine .inl ⟨nextEntry_none hmore, nextEntry_none ?_⟩
    rw [hpass.2]
    exact hmore

/-! ## All passes of a call -/

/-- What a segment has led to: the `dataCb` calls, the packets queued and the connection state. -/
def outcome (s : Sys) : List DataCall × List (List UInt8) × tConnState :=
  (s.delivered, s.accepted, s.client.connState)

theorem SameBut.outcome_eq (h : SameBut s s') : outcome s' = outcome s := by
  obtain ⟨in_buffer, rfl⟩ := h
  rfl

/-- What comes of a segment does not depend on what `in_buffer` held before it: any two clients that
differ in it only come to the same outcome behind every pass, and behind the call. As the callbacks
are arbitrary, calls of `connectedCb` that differed would show in the outcome too. -/
def ReceivedOnly (B : ℕ) (segment : List UInt8) : Prop :=
  ∀ (app : Application) (s s' : Sys), app.Blind → SameBut s s' → s.client.mqtt_state.in_buffer_length = B →
    s.client.mqtt_state.in_buffer.length = B → s'.client.mqtt_state.in_buffer.length = B →
    (∀ n, (passEntry B app (entered s') segment n).map (fun entry => outcome (passEnd B app entry)) =
      (passEntry B app (entered s) segment n).map fun entry => outcome (passEnd B app entry)) ∧
    ∀ fuel, (mqtt_tcpclient_recv B app fuel s' segment).map outcome =
      (mqtt_tcpclient_recv B app fuel s segment).map outcome

theorem Paired.first (h : SameBut s s') (hlength : s.client.mqtt_state.in_buffer_length = B)
    (hsize : s.client.mqtt_state.in_buffer.length = B) (hsize' : s'.client.mqtt_state.in_buffer.length = B)
    (hle : segment.length ≤ B) : Paired B segment segment s s' := by
  have hfill {buffer : List UInt8} (hsize : buffer.length = B) :
      ∃ fill, copyAt buffer 0 segment = segment ++ fill ∧ (segment ++ fill).length = B := by
    refine ⟨_, copyAt_zero _ _, ?_⟩
    rw [List.length_append, List.length_drop]
    omega
  exact ⟨h, hlength, hfill hsize, hfill hsize'⟩

section
variable (hB : 5 ≤ B) (hmax : B ≤ 65535) (hpos : 0 < segment.length) (hlt : segment.length < B)
variable (happ : app.Blind) (hreceived : ∀ rest known, Front segment rest known → answerHeader rest ≠ none →
  IdentifierReceived B known)
include hB hmax hpos hlt happ hreceived

theorem readLoop_paired (h : Paired B rest known t t') (hfront : Front segment rest known) (fuel : ℕ) :
    (readLoop B app fuel t' rest).map outcome = (readLoop B app fuel t rest).map outcome := by
  induction fuel generalizing rest known t t' with
  | zero => rfl
  | succ fuel ih =>
    rw [readLoop_succ, readLoop_succ]
    obtain ⟨hend, ⟨hleft, hleft'⟩ | ⟨u, u', rest', known', hnext, hnext', hfront', hpaired⟩⟩ :=
      h.step happ hB hmax hpos hlt hfront (hreceived rest known hfront)
    · rw [hleft, hleft']
      exact congrArg some hend.outcome_eq
    · rw [hnext, hnext']
      exact ih hpaired hfront'

theorem passEntry_paired (h : Paired B segment segment s s') (n : ℕ) :
    passEntry B app s segment n = none ∧ passEntry B app s' segment n = none ∨
      ∃ t t' rest known, passEntry B app s segment n = some (t, rest) ∧
        passEntry B app s' segment n = some (t', rest) ∧ Front segment rest known ∧ Paired B rest known t t' := by
  induction n with
  | zero => exact .inr ⟨s, s', segment, segment, rfl, rfl, .first, h⟩
  | succ n ih =>
    rw [passEntry, passEntry]
    obtain ⟨hnone, hnone'⟩ | ⟨t, t', rest, known, hentry, hentry', hfront, hpaired⟩ := ih
    · rw [hnone, hnone']
      exact .inl ⟨rfl, rfl⟩
    · rw [hentry, hentry']
      obtain ⟨_, hleft | ⟨u, u', rest', known', hnext, hnext', hfront', hpaired'⟩⟩ :=
        hpaired.step happ hB hmax hpos hlt hfront (hreceived rest known hfront)
      · exact .inl hleft
      · exact .inr ⟨u, u', rest', known', hnext, hnext', hfront', hpaired'⟩

end

theorem receivedOnly_of (hB : 5 ≤ B) (hmax : B ≤ 65535) (hpos : 0 < segment.length) (hlt : segment.length < B)
    (hreceived : ∀ rest known, Front segment rest known → answerHeader rest ≠ none → IdentifierReceived B known) :
    ReceivedOnly B segment := by
  intro app s s' happ hsame hlength hsize hsize'
  have hentered : SameBut (entered s) (entered s') := by
    obtain ⟨in_buffer, rfl⟩ := hsame
    exact ⟨in_buffer, rfl⟩
  have hpaired : Paired B segment segment (entered s) (entered s') :=
    .first hentered hlength hsize hsize' (Nat.le_of_lt hlt)
  constructor
  · intro n
    obtain ⟨hnone, hnone'⟩ | ⟨t, t', rest, known, hentry, hentry', hfront, hpaired'⟩ :=
      passEntry_paired hB hmax hpos hlt happ hreceived hpaired n
    · rw [hnone, hnone']
    · rw [hentry, hentry']
      exact congrArg some (hpaired'.step happ hB hmax hpos hlt hfront (hreceived rest known hfront)).1.outcome_eq
  · exact readLoop_paired hB hmax hpos hlt happ hreceived hpaired .first

theorem idMessage_id {connection : mqtt_connection_t} (h : Sized B connection) (hB : 5 ≤ B) {id : ℕ} (hid : id ≠ 0)
    (type : ℕ) (qos : ℤ) :
    (idMessage connection id type qos).bytes = fixedHeader type 0 qos 0 :: 2 :: word id := by
  rw [(idMessage_emitted h (by omega) id type qos).bytes, emission, if_pos (by rw [word_length]; omega), drawnId,
    if_neg hid]
  rfl

theorem roomyClient_sameBut (N : ℕ) (in_buffer in_buffer' : List UInt8) :
    SameBut (roomyClient B N in_buffer) (roomyClient B N in_buffer') := by
  refine ⟨in_buffer', ?_⟩
  simp only [roomyClient, setInBuffer]

theorem Application.silent_blind : Application.silent.Blind :=
  ⟨fun _ _ => rfl, fun _ _ => rfl, fun _ => rfl⟩

/-- Two fills of `in_buffer` make a client answer under two identifiers. -/
theorem not_receivedOnly (hB : 5 ≤ B) (hmax : B ≤ 65535) (hpos : 0 < segment.length) (hlt : segment.length < B)
    (hfront : Front segment rest known) (hanswer : answerHeader rest ≠ none) {e : ℕ}
    (hend : identifierEnd (zeroPadded B known) B = some e) (hbehind : known.length < e) (hfits : e < B) :
    ¬ ReceivedOnly B segment := by
  intro honly
  obtain ⟨n, hreach⟩ := hfront.reached (Nat.le_of_add_left_le hB) hpos hlt
  have hknown := hfront.known_length.1
  have hrest := hfront.start.length hpos
  have hid := hfront.identified hrest.1 hanswer
  obtain ⟨header, hheader⟩ := Option.ne_none_iff_exists'.mp hanswer
  let fill (v : UInt8) : List UInt8 := (List.replicate (B - known.length) 0).set (e - 1 - known.length) v
  let buffer (v : UInt8) : List UInt8 := List.replicate segment.length 0 ++ fill v
  have hbuffer (v : UInt8) : (buffer v).length = B ∧ copyAt (buffer v) 0 segment = segment ++ fill v := by
    have hlength : (fill v).length = B - known.length := by
      simp only [fill, List.length_set, List.length_replicate]
    constructor
    · simp only [buffer, List.length_append, List.length_replicate, hlength]
      omega
    · simp only [buffer]
      rw [copyAt_zero, List.drop_left' List.length_replicate]
  -- the answer under an identifier whose low byte is `v`
  have hrun (v : UInt8) (hv : v ≠ 0) : ∃ t, passEntry B .silent (entered (roomyClient B (10 * (1 + n)) (buffer v))) segment n =
      some (t, rest) ∧ (passEnd B .silent (t, rest)).accepted = t.accepted ++
        [fixedHeader header.1 0 header.2 0 :: 2 :: word ((byteAt known (e - 2)).toNat * 256 + v.toNat)] := by
    have hroomy : Roomy B (1 + n) (roomyClient B (10 * (1 + n)) (buffer v)) :=
      roomyClient_roomy hmax (by omega) (Nat.le_refl _) _
    obtain ⟨t, hentry, ht, hin⟩ := hreach 1 _ (fill v) hroomy.entered (hbuffer v).2
    obtain ⟨_, hqueued⟩ := readPacket_answers ht (by omega) hrest.1 (by omega) hheader
    refine ⟨t, hentry, ?_⟩
    have hsilent : (passEnd B .silent (t, rest)).accepted = (readPacket B t rest).1.accepted := by
      simp only [passEnd]
      obtain ⟨u, _ | _ | _⟩ := readPacket B t rest
      · rfl
      · exact congrArg Sys.accepted (ite_self u)
      · exact congrArg Sys.accepted (ite_self u)
    have hvalue : mqtt_get_id (known ++ fill v) B = (byteAt known (e - 2)).toNat * 256 + v.toNat :=
      mqtt_get_id_unknown (by omega) (by omega) hB hid hend hbehind hfits v
    have hv' : v.toNat ≠ 0 := fun hzero => hv (UInt8.toNat_inj.mp hzero)
    rw [hsilent, hqueued, hin, Nat.mod_eq_of_lt (by omega), hvalue, idMessage_id ht.sized hB (by omega)]
  obtain ⟨t, hentry, haccepted⟩ := hrun 1 (by decide)
  obtain ⟨t', hentry', haccepted'⟩ := hrun 2 (by decide)
  have hsame := (honly .silent (roomyClient B (10 * (1 + n)) (buffer 1)) (roomyClient B (10 * (1 + n)) (buffer 2))
    Application.silent_blind (roomyClient_sameBut _ _ _) rfl (hbuffer 1).1 (hbuffer 2).1).1 n
  rw [hentry, hentry'] at hsame
  have hqueues := congrArg (fun o => o.2.1) (Option.some.inj hsame)
  simp only [outcome, haccepted, haccepted'] at hqueues
  have hlast := List.singleton_inj.mp (List.append_inj' hqueues List.length_singleton).2
  have hlow := congrArg (fun bs => (byteAt bs 3).toNat) hlast
  simp [byteAt, word] at hlow

/-- **When a segment is interpreted from its own bytes only**: exactly when each packet that
READPACKET comes to and answers has its identifier within the received bytes, unless the place
where `mqtt_get_id` looks for it does not fit into `in_buffer`. -/
theorem received_only_iff (hB : 5 ≤ B) (hmax : B ≤ 65535) (hpos : 0 < segment.length) (hlt : segment.length < B) :
    ReceivedOnly B segment ↔
      ∀ rest known, Front segment rest known → answerHeader rest ≠ none → IdentifierReceived B known := by
  constructor
  · intro honly rest known hfront hanswer e hend
    by_contra hnot
    exact not_receivedOnly hB hmax hpos hlt hfront hanswer hend (by omega) (by omega) honly
  · exact receivedOnly_of hB hmax hpos hlt

/-- A PUBLISH of QoS 1 with the topic "a", up to its identifier. -/
def cutHeader : List UInt8 := [0x32, 0x0A, 0x00, 0x01, 0x61]

theorem received_only_iff_cutHeader :
    ReceivedOnly 1024 (cutHeader ++ [0x00, 0x07]) ↔
      ∀ rest known, Front (cutHeader ++ [0x00, 0x07]) rest known → answerHeader rest ≠ none →
        IdentifierReceived 1024 known :=
  received_only_iff (by decide) (by decide) (by decide) (by decide)

/-- The identifier of the PUBACK is what an earlier segment has left behind the topic. -/
theorem leftover_acknowledged : ¬ ReceivedOnly 1024 cutHeader :=
  not_receivedOnly (by decide) (by decide) (by decide) (by decide) .first (by decide)
    (show identifierEnd (zeroPadded 1024 cutHeader) 1024 = some 7 by decide +kernel) (by decide) (by decide)

end LightSleepMqtt.Client
