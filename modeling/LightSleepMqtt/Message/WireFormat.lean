import LightSleepMqtt.Message.Builders

/-! What the builders leave in the connection. `Built` follows the body while it is being
appended, `emission` is the packet that goes out (nothing, when the body does not fit), and
each builder is one lemma `Emitted`. The theorem of this module compares the emissions with
the wire format. -/
namespace LightSleepMqtt.Message
open MqttWire
set_option autoImplicit false

/-! ## The body under construction -/

/-- The connection writes into a block of `B` bytes. -/
structure Sized (B : ℕ) (connection : mqtt_connection_t) : Prop where
  limit : connection.buffer_length = B
  block : connection.buffer.length = B

/-- The body so far stands behind the three reserved bytes. -/
structure Built (B : ℕ) (body : List UInt8) (connection : mqtt_connection_t) : Prop where
  sized : Sized B connection
  length : connection.message.length = 3 + body.length
  room : 3 + body.length ≤ B
  data : (connection.buffer.drop 3).take body.length = body

theorem beWord_eq (n : ℕ) : beWord n = word n := by
  rw [beWord, word, Nat.shiftRight_eq_div_pow, show 0xff = 2 ^ 8 - 1 from rfl,
    Nat.and_two_pow_sub_one_eq_mod]
  congr 2
  apply UInt8.toNat_inj.mp
  rw [ofNat_toNat_mod, ofNat_toNat_mod, Nat.mod_mod]

variable {B : ℕ} {body : List UInt8} {connection : mqtt_connection_t}

theorem init_message_built (h : Sized B connection) (hB : 3 ≤ B) : Built B [] (init_message connection) :=
  ⟨⟨h.limit, h.block⟩, rfl, hB, rfl⟩

theorem copyAt_length {buffer bytes : List UInt8} {offset : ℕ} (h : offset + bytes.length ≤ buffer.length) :
    (copyAt buffer offset bytes).length = buffer.length := by
  simp only [copyAt, List.length_append, List.length_take, List.length_drop]
  omega

theorem Built.put (h : Built B body connection) {bytes : List UInt8}
    (hroom : 3 + (body ++ bytes).length ≤ B) : Built B (body ++ bytes) (connection.put bytes) := by
  have hblock := h.sized.block
  have hlength := h.length
  rw [List.length_append] at hroom
  refine ⟨⟨h.sized.limit, ?_⟩, ?_, by rw [List.length_append]; exact hroom, ?_⟩
  · show (copyAt connection.buffer connection.message.length bytes).length = B
    rw [copyAt_length (by omega), hblock]
  · show connection.message.length + bytes.length = 3 + (body ++ bytes).length
    rw [hlength, List.length_append]
    omega
  · show ((copyAt connection.buffer connection.message.length bytes).drop 3).take (body ++ bytes).length = _
    have htake : (connection.buffer.take (3 + body.length)).drop 3 = body := by
      rw [List.drop_take, Nat.add_sub_cancel_left]
      exact h.data
    have hthree : 3 ≤ (connection.buffer.take (3 + body.length)).length := by
      rw [List.length_take]
      omega
    rw [copyAt, hlength, List.append_assoc, List.drop_append_of_le_length hthree, htake,
      ← List.append_assoc, List.take_left]

theorem append_string_fits (h : Built B body connection) {s : List UInt8}
    (hroom : 3 + (body ++ string s).length ≤ B) :
    ∃ c, append_string connection s = .ok c ∧ Built B (body ++ string s) c ∧
      c.message_id = connection.message_id := by
  have hlength := h.length
  have hlimit := h.sized.limit
  rw [List.length_append, string_length] at hroom
  have hprefix : Built B (body ++ word s.length) (connection.put (word s.length)) :=
    h.put (by rw [List.length_append, word_length]; omega)
  have hall : Built B (body ++ word s.length ++ s) _ := hprefix.put (by
    rw [List.length_append, List.length_append, word_length]
    omega)
  rw [List.append_assoc] at hall
  refine ⟨(connection.put (word s.length)).put s, ?_, hall, rfl⟩
  rw [append_string, if_neg (by omega), beWord_eq]

theorem append_string_full (h : Built B body connection) {s : List UInt8}
    (hroom : B < 3 + (body ++ string s).length) : append_string connection s = .error connection := by
  have hlength := h.length
  have hlimit := h.sized.limit
  rw [List.length_append, string_length] at hroom
  exact if_pos (by omega)

/-! ## Packet identifiers -/

theorem nextMessageId_ne_zero (n : ℕ) : nextMessageId n ≠ 0 := by
  simp only [nextMessageId]
  split <;> omega

theorem nextMessageId_lt (n : ℕ) : nextMessageId n < 65536 := by
  simp only [nextMessageId]
  split <;> omega

/-- The identifier that goes out: the caller's, or the next one of the connection. -/
def drawnId (connection : mqtt_connection_t) (message_id : ℕ) : ℕ :=
  if message_id = 0 then nextMessageId connection.message_id else message_id

theorem drawnId_ne_zero (connection : mqtt_connection_t) (message_id : ℕ) :
    drawnId connection message_id ≠ 0 := by
  unfold drawnId
  split
  · exact nextMessageId_ne_zero _
  · assumption

theorem append_message_id_fits (h : Built B body connection) (message_id : ℕ)
    (hroom : 3 + body.length + 2 ≤ B) :
    Built B (body ++ word (drawnId connection message_id)) (append_message_id connection message_id).1 ∧
      (append_message_id connection message_id).2 = drawnId connection message_id := by
  have hlength := h.length
  have hlimit := h.sized.limit
  have hkept : ∀ n, Built B body { connection with message_id := n } := fun n =>
    ⟨⟨h.sized.limit, h.sized.block⟩, h.length, h.room, h.data⟩
  have hput : ∀ c, Built B body c → Built B (body ++ word (drawnId connection message_id))
      (c.put (word (drawnId connection message_id))) := fun c hc =>
    hc.put (by rw [List.length_append, word_length]; omega)
  simp only [append_message_id, beWord_eq]
  by_cases hzero : message_id = 0
  · rw [if_pos hzero, if_pos hzero, if_neg (by simp only; omega)]
    have := hput _ (hkept (drawnId connection message_id))
    simp only [drawnId, if_pos hzero] at this ⊢
    exact ⟨this, trivial⟩
  · rw [if_neg hzero, if_neg hzero, if_neg (by omega)]
    have := hput _ h
    simp only [drawnId, if_neg hzero] at this ⊢
    exact ⟨this, trivial⟩

theorem append_message_id_full (h : Built B body connection) (message_id : ℕ)
    (hroom : B < 3 + body.length + 2) :
    Sized B (append_message_id connection message_id).1 ∧ (append_message_id connection message_id).2 = 0 := by
  have hlength := h.length
  have hlimit := h.sized.limit
  simp only [append_message_id]
  by_cases hzero : message_id = 0
  · rw [if_pos hzero, if_pos hzero, if_pos (by simp only; omega)]
    exact ⟨⟨h.sized.limit, h.sized.block⟩, rfl⟩
  · rw [if_neg hzero, if_neg hzero, if_pos (by omega)]
    exact ⟨h.sized, rfl⟩

/-! ## The finished packet -/

def lengthBytes (n : ℕ) : List UInt8 :=
  if n > 127 then [UInt8.ofNat (0x80 ||| n % 128), UInt8.ofNat (n / 128)] else [UInt8.ofNat n]

/-- The packet for a body, if there is one and it fits. -/
def emission (B : ℕ) (header : UInt8) : Option (List UInt8) → List UInt8
  | none => []
  | some body => if 3 + body.length ≤ B then header :: (lengthBytes body.length ++ body) else []

theorem emission_length_le (B : ℕ) (header : UInt8) (body : Option (List UInt8)) :
    (emission B header body).length ≤ B := by
  cases body with
  | none => exact Nat.zero_le _
  | some body =>
    simp only [emission, lengthBytes]
    split_ifs <;> simp <;> omega

theorem emission_eq_nil_iff (B : ℕ) (header : UInt8) (body : Option (List UInt8)) :
    emission B header body = [] ↔ ∀ bs, body = some bs → B < 3 + bs.length := by
  cases body with
  | none => simp [emission]
  | some body =>
    simp only [emission, Option.some.injEq, forall_eq']
    split
    · simp only [reduceCtorEq, false_iff]
      omega
    · simp only [true_iff]
      omega

/-- The current message is the emission for `body`. -/
structure Emitted (B : ℕ) (header : UInt8) (body : Option (List UInt8)) (connection : mqtt_connection_t) :
    Prop where
  sized : Sized B connection
  bytes : connection.bytes = emission B header body
  length : connection.message.length = (emission B header body).length

theorem fail_message_emitted (h : Sized B connection) (header : UInt8) {body : Option (List UInt8)}
    (hfail : ∀ bs, body = some bs → B < 3 + bs.length) : Emitted B header body (fail_message connection) := by
  have hnil := (emission_eq_nil_iff B header body).mpr hfail
  refine ⟨⟨h.limit, h.block⟩, ?_, ?_⟩
  · rw [hnil]
    rfl
  · rw [hnil]
    rfl

theorem fini_message_emitted (h : Built B body connection) (type dup : ℕ) (qos retain : ℤ) :
    Emitted B (fixedHeader type dup qos retain) (some body) (fini_message connection type dup qos retain) := by
  have hroom := h.room
  have hrest : connection.message.length - MQTT_MAX_FIXED_HEADER_SIZE = body.length := by
    rw [h.length]
    exact Nat.add_sub_cancel_left 3 _
  obtain ⟨x, y, z, rest, hbuffer⟩ : ∃ x y z rest, connection.buffer = x :: y :: z :: rest := by
    have hblock := h.sized.block
    match hb : connection.buffer with
    | x :: y :: z :: rest => exact ⟨x, y, z, rest, rfl⟩
    | [] | [_] | [_, _] =>
      rw [hb] at hblock
      simp at hblock
      omega
  have hdata := h.data
  have hblock := h.sized.block
  rw [hbuffer, List.drop_succ_cons, List.drop_succ_cons, List.drop_succ_cons, List.drop_zero] at hdata
  rw [hbuffer] at hblock
  rw [fini_message, hrest]
  by_cases hlong : body.length > 127
  · rw [if_pos hlong]
    refine ⟨⟨h.sized.limit, by simpa [hbuffer] using hblock⟩, ?_, ?_⟩
    · simp only [mqtt_connection_t.bytes, hbuffer, emission, if_pos hroom, lengthBytes, if_pos hlong,
        List.set_cons_zero, List.set_cons_succ, List.drop_zero, List.take_succ_cons, hdata,
        List.cons_append, List.nil_append]
    · simp only [emission, if_pos hroom, lengthBytes, if_pos hlong, List.length_cons, List.length_append,
        List.length_nil]
      omega
  · rw [if_neg hlong]
    refine ⟨⟨h.sized.limit, by simpa [hbuffer] using hblock⟩, ?_, ?_⟩
    · simp only [mqtt_connection_t.bytes, hbuffer, emission, if_pos hroom, lengthBytes, if_neg hlong,
        List.set_cons_zero, List.set_cons_succ, List.drop_succ_cons, List.drop_zero, List.take_succ_cons,
        hdata, List.cons_append, List.nil_append]
    · simp only [emission, if_pos hroom, lengthBytes, if_neg hlong, List.length_cons, List.length_append,
        List.length_nil]
      omega

/-- The last part of a body is only appended if it still fits. -/
theorem put_emitted (h : Built B body connection) (bytes : List UInt8) (type dup : ℕ) (qos retain : ℤ) :
    Emitted B (fixedHeader type dup qos retain) (some (body ++ bytes))
      (if connection.message.length + bytes.length > connection.buffer_length then fail_message connection
      else fini_message (connection.put bytes) type dup qos retain) := by
  have hlength := h.length
  have hlimit := h.sized.limit
  split
  · apply fail_message_emitted h.sized
    intro bs hbs
    obtain rfl := Option.some.inj hbs
    rw [List.length_append]
    omega
  · apply fini_message_emitted
    apply h.put
    rw [List.length_append]
    omega

/-! ## The builders with a fixed or a short body -/

theorem idMessage_emitted (h : Sized B connection) (hB : 3 ≤ B) (message_id type : ℕ) (qos : ℤ) :
    Emitted B (fixedHeader type 0 qos 0) (some (word (drawnId connection message_id)))
      (idMessage connection message_id type qos) := by
  have hinit := init_message_built h hB
  obtain hlt | hge := Nat.lt_or_ge B 5
  · obtain ⟨hsized, hid⟩ := append_message_id_full hinit message_id hlt
    simp only [idMessage]
    rw [if_pos hid]
    apply fail_message_emitted hsized _
    intro bs hbs
    obtain rfl := Option.some.inj hbs
    rw [word_length]
    exact hlt
  · obtain ⟨hbuilt, hid⟩ := append_message_id_fits hinit message_id hge
    simp only [idMessage]
    rw [if_neg (by rw [hid]; exact drawnId_ne_zero _ _)]
    exact fini_message_emitted hbuilt type 0 qos 0

theorem emptyMessage_emitted (h : Sized B connection) (hB : 3 ≤ B) (type : ℕ) :
    Emitted B (fixedHeader type 0 0 0) (some []) (emptyMessage connection type) :=
  fini_message_emitted (init_message_built h hB) type 0 0 0

/-! ## PUBLISH, SUBSCRIBE and UNSUBSCRIBE -/

def publishBody (topic : Option CString) (data : List UInt8) (qos : ℤ) (message_id : ℕ) :
    Option (List UInt8) :=
  (nonEmpty topic).map fun t => string t.bytes ++ (if qos > 0 then word message_id else []) ++ data

theorem ite_pair {α β : Type} {p : Prop} [Decidable p] (a b : α) (x : β) :
    (if p then (a, x) else (b, x)) = (if p then a else b, x) := by
  split <;> rfl

theorem mqtt_msg_publish_emitted (h : Sized B connection) (hB : 3 ≤ B) (topic : Option CString)
    (data : List UInt8) (qos retain : ℤ) (message_id : ℕ) :
    Emitted B (fixedHeader MQTT_MSG_TYPE_PUBLISH 0 qos retain)
        (publishBody topic data qos (nextMessageId connection.message_id))
        (mqtt_msg_publish connection topic data qos retain message_id).1 ∧
      ((mqtt_msg_publish connection topic data qos retain message_id).1.message.length ≠ 0 →
        (mqtt_msg_publish connection topic data qos retain message_id).2 =
          if qos > 0 then nextMessageId connection.message_id else 0) := by
  have hinit := init_message_built h hB
  unfold publishBody mqtt_msg_publish
  cases hs : nonEmpty topic with
  | none => exact ⟨fail_message_emitted hinit.sized _ (by simp), fun hne => absurd rfl hne⟩
  | some t =>
    simp only [Option.map_some]
    by_cases htopic : 3 + (string t.bytes).length ≤ B
    swap
    · rw [append_string_full hinit (Nat.lt_of_not_le htopic)]
      refine ⟨fail_message_emitted hinit.sized _ ?_, fun hne => absurd rfl hne⟩
      intro bs hbs
      obtain rfl := Option.some.inj hbs
      simp only [List.length_append]
      omega
    obtain ⟨c, happend, hc, hcid⟩ := append_string_fits hinit htopic
    rw [List.nil_append] at hc
    rw [happend]
    simp only
    by_cases hq : qos > 0
    · simp only [if_pos hq]
      by_cases hid : 3 + (string t.bytes).length + 2 ≤ B
      · obtain ⟨hbuilt, hdraws⟩ := append_message_id_fits hc 0 hid
        have hdrawn : drawnId c 0 = nextMessageId connection.message_id := by
          rw [drawnId, if_pos rfl, hcid]
          rfl
        rw [hdrawn] at hbuilt hdraws
        have hne : ¬ (qos > 0 ∧ (append_message_id c 0).2 = 0) := by
          rw [hdraws]
          exact fun hand => nextMessageId_ne_zero _ hand.2
        rw [if_neg hne, ite_pair]
        exact ⟨put_emitted hbuilt data _ _ _ _, fun _ => hdraws⟩
      · obtain ⟨hsized, hdraws⟩ := append_message_id_full hc 0 (Nat.lt_of_not_le hid)
        rw [if_pos ⟨hq, hdraws⟩]
        refine ⟨fail_message_emitted hsized _ ?_, fun hne => absurd rfl hne⟩
        intro bs hbs
        obtain rfl := Option.some.inj hbs
        simp only [List.length_append, word_length]
        omega
    · simp only [if_neg hq, List.append_nil]
      rw [if_neg (fun hand => hq hand.1), ite_pair]
      exact ⟨put_emitted hc data _ _ _ _, fun _ => rfl⟩

/-- The common part of SUBSCRIBE and UNSUBSCRIBE: it is appended, or there is no topic or no room. -/
theorem topicRequest_cases (h : Sized B connection) (hB : 3 ≤ B) (topic : Option CString) (message_id : ℕ) :
    (∃ t c, nonEmpty topic = some t ∧
        topicRequest connection topic message_id = (.ok c, nextMessageId connection.message_id) ∧
        Built B (word (nextMessageId connection.message_id) ++ string t.bytes) c) ∨
      (∀ t, nonEmpty topic = some t →
        B < 3 + (word (nextMessageId connection.message_id) ++ string t.bytes).length) ∧
        ∃ c n, topicRequest connection topic message_id = (.error c, n) ∧ Sized B c := by
  have hinit := init_message_built h hB
  have hdrawn : drawnId (init_message connection) 0 = nextMessageId connection.message_id := rfl
  unfold topicRequest
  cases nonEmpty topic with
  | none => exact Or.inr ⟨by simp, _, _, rfl, hinit.sized⟩
  | some t =>
    simp only [Option.some.injEq, forall_eq']
    by_cases hid : 5 ≤ B
    · obtain ⟨hbuilt, hdraws⟩ := append_message_id_fits hinit 0 hid
      rw [hdrawn] at hbuilt hdraws
      rw [if_neg (by rw [hdraws]; exact nextMessageId_ne_zero _)]
      by_cases hroom : 3 + (word (nextMessageId connection.message_id) ++ string t.bytes).length ≤ B
      · obtain ⟨c, happend, hc, _⟩ := append_string_fits hbuilt hroom
        exact Or.inl ⟨t, c, rfl, by rw [happend, hdraws], hc⟩
      · have hfull := Nat.lt_of_not_le hroom
        rw [append_string_full hbuilt hfull]
        exact Or.inr ⟨hfull, _, _, rfl, hbuilt.sized⟩
    · obtain ⟨hsized, hdraws⟩ := append_message_id_full hinit 0 (Nat.lt_of_not_le hid)
      rw [if_pos hdraws, List.length_append, word_length]
      exact Or.inr ⟨by omega, _, _, rfl, hsized⟩

def subscribeBody (topic : Option CString) (qos : ℤ) (message_id : ℕ) : Option (List UInt8) :=
  (nonEmpty topic).map fun t => word message_id ++ string t.bytes ++ [UInt8.ofNat (qos % 256).toNat]

def unsubscribeBody (topic : Option CString) (message_id : ℕ) : Option (List UInt8) :=
  (nonEmpty topic).map fun t => word message_id ++ string t.bytes

theorem mqtt_msg_subscribe_emitted (h : Sized B connection) (hB : 3 ≤ B) (topic : Option CString)
    (qos : ℤ) (message_id : ℕ) :
    Emitted B (fixedHeader MQTT_MSG_TYPE_SUBSCRIBE 0 1 0)
        (subscribeBody topic qos (nextMessageId connection.message_id))
        (mqtt_msg_subscribe connection topic qos message_id).1 ∧
      ((mqtt_msg_subscribe connection topic qos message_id).1.message.length ≠ 0 →
        (mqtt_msg_subscribe connection topic qos message_id).2 = nextMessageId connection.message_id) := by
  rw [mqtt_msg_subscribe, subscribeBody]
  obtain ⟨t, c, ht, hrequest, hc⟩ | ⟨hfull, c, n, hrequest, hc⟩ := topicRequest_cases h hB topic message_id
  · rw [hrequest, ht]
    simp only
    rw [ite_pair]
    exact ⟨put_emitted hc [UInt8.ofNat (qos % 256).toNat] _ _ _ _, fun _ => rfl⟩
  · rw [hrequest]
    refine ⟨fail_message_emitted hc _ ?_, fun hne => absurd rfl hne⟩
    intro bs hbs
    obtain ⟨t, ht, rfl⟩ := Option.map_eq_some_iff.mp hbs
    have := hfull t ht
    rw [List.length_append]
    omega

theorem mqtt_msg_unsubscribe_emitted (h : Sized B connection) (hB : 3 ≤ B) (topic : Option CString)
    (message_id : ℕ) :
    Emitted B (fixedHeader MQTT_MSG_TYPE_UNSUBSCRIBE 0 1 0)
        (unsubscribeBody topic (nextMessageId connection.message_id))
        (mqtt_msg_unsubscribe connection topic message_id).1 ∧
      ((mqtt_msg_unsubscribe connection topic message_id).1.message.length ≠ 0 →
        (mqtt_msg_unsubscribe connection topic message_id).2 = nextMessageId connection.message_id) := by
  rw [mqtt_msg_unsubscribe, unsubscribeBody]
  obtain ⟨t, c, ht, hrequest, hc⟩ | ⟨hfull, c, n, hrequest, hc⟩ := topicRequest_cases h hB topic message_id
  · rw [hrequest, ht]
    exact ⟨fini_message_emitted hc _ _ _ _, fun _ => rfl⟩
  · rw [hrequest]
    refine ⟨fail_message_emitted hc _ ?_, fun hne => absurd rfl hne⟩
    intro bs hbs
    obtain ⟨t, ht, rfl⟩ := Option.map_eq_some_iff.mp hbs
    exact hfull t ht

/-! ## CONNECT -/

def connectPrefix (flags : UInt8) (keepalive : ℕ) : List UInt8 :=
  string [0x4D, 0x51, 0x49, 0x73, 0x64, 0x70] ++ [3, flags] ++ word keepalive

def optionalBytes (field : Option CString) : List UInt8 :=
  optional ((nonEmpty field).map fun s => s.bytes)

def willBytes (info : mqtt_connect_info_t) : List UInt8 :=
  match nonEmpty info.will_topic with
  | none => []
  | some topic => string topic.bytes ++ string info.will_message.bytes

def willFlags (info : mqtt_connect_info_t) : UInt8 :=
  match nonEmpty info.will_topic with
  | none => 0
  | some _ => MQTT_CONNECT_FLAG_WILL ||| (if info.will_retain ≠ 0 then MQTT_CONNECT_FLAG_WILL_RETAIN else 0) |||
      UInt8.ofNat ((info.will_qos % 4).toNat <<< 3)

def credentialFlag (field : Option CString) (flag : UInt8) : UInt8 :=
  if (nonEmpty field).isSome then flag else 0

theorem orFlags_built {flags : UInt8} {keepalive : ℕ} {rest : List UInt8}
    (h : Built B (connectPrefix flags keepalive ++ rest) connection) (more : UInt8) :
    Built B (connectPrefix (flags ||| more) keepalive ++ rest) (orFlags connection more) := by
  have hblock := h.sized.block
  have hroom := h.room
  have hsame : (connectPrefix (flags ||| more) keepalive ++ rest).length =
      (connectPrefix flags keepalive ++ rest).length := by
    simp [connectPrefix, string, word]
  have hbyte : byteAt connection.buffer 12 = flags := by
    have hget : ((connection.buffer.drop 3).take (connectPrefix flags keepalive ++ rest).length)[9]? =
        some flags := by
      rw [h.data]
      rfl
    rw [List.getElem?_take_of_lt (by simp [connectPrefix, string, word]), List.getElem?_drop] at hget
    rw [byteAt, List.getD_eq_getElem?_getD, hget]
    rfl
  refine ⟨⟨h.sized.limit, ?_⟩, ?_, by rw [hsame]; exact hroom, ?_⟩
  · rw [orFlags, List.length_set]
    exact hblock
  · rw [hsame]
    exact h.length
  · rw [orFlags, hbyte, hsame]
    simp only
    rw [List.drop_set, if_neg (by omega), List.take_set, h.data]
    rfl

/-- A step that appends `bytes` to the payload of a CONNECT and announces them by `more`. -/
def Extends (B keepalive : ℕ) (flags : UInt8) (rest : List UInt8) (more : UInt8) (bytes : List UInt8)
    (step : Except mqtt_connection_t mqtt_connection_t) : Prop :=
  if 3 + (connectPrefix flags keepalive ++ (rest ++ bytes)).length ≤ B then
    ∃ c, step = .ok c ∧ Built B (connectPrefix (flags ||| more) keepalive ++ (rest ++ bytes)) c
  else ∃ c, step = .error c ∧ Sized B c

section
variable {keepalive : ℕ} {flags more more' : UInt8} {rest bytes bytes' : List UInt8}

theorem connectPrefix_append_length (flags flags' : UInt8) (keepalive : ℕ) (rest : List UInt8) :
    (connectPrefix flags keepalive ++ rest).length = (connectPrefix flags' keepalive ++ rest).length := by
  simp [connectPrefix, string, word]

theorem Extends.pure (h : Built B (connectPrefix flags keepalive ++ rest) connection) :
    Extends B keepalive flags rest 0 [] (.ok connection) := by
  have hroom := h.room
  rw [Extends, List.append_nil, if_pos hroom, UInt8.or_zero]
  exact ⟨connection, rfl, h⟩

theorem Extends.bind {step : Except mqtt_connection_t mqtt_connection_t}
    {next : mqtt_connection_t → Except mqtt_connection_t mqtt_connection_t}
    (hstep : Extends B keepalive flags rest more bytes step)
    (hnext : ∀ c, Built B (connectPrefix (flags ||| more) keepalive ++ (rest ++ bytes)) c →
      Extends B keepalive (flags ||| more) (rest ++ bytes) more' bytes' (next c)) :
    Extends B keepalive flags rest (more ||| more') (bytes ++ bytes') (step >>= next) := by
  have hlen : (connectPrefix flags keepalive ++ (rest ++ (bytes ++ bytes'))).length =
      (connectPrefix flags keepalive ++ (rest ++ bytes)).length + bytes'.length := by
    simp only [List.length_append]
    omega
  unfold Extends at hstep
  split at hstep
  · obtain ⟨c, rfl, hc⟩ := hstep
    have h := hnext c hc
    unfold Extends at h ⊢
    rw [← connectPrefix_append_length flags, List.append_assoc, UInt8.or_assoc] at h
    exact h
  · next hfull =>
    obtain ⟨c, rfl, hc⟩ := hstep
    unfold Extends
    rw [if_neg (by omega)]
    exact ⟨c, rfl, hc⟩

theorem append_string_extends (h : Built B (connectPrefix flags keepalive ++ rest) connection)
    (s : List UInt8) : Extends B keepalive flags rest 0 (string s) (append_string connection s) := by
  unfold Extends
  rw [← List.append_assoc, UInt8.or_zero]
  split
  · next hfits =>
    obtain ⟨c, happend, hc, _⟩ := append_string_fits h hfits
    exact ⟨c, happend, hc⟩
  · next hfull => exact ⟨connection, append_string_full h (Nat.lt_of_not_le hfull), h.sized⟩

theorem orFlags_extends (h : Built B (connectPrefix flags keepalive ++ rest) connection) (more : UInt8) :
    Extends B keepalive flags rest more [] (.ok (orFlags connection more)) := by
  have hroom := h.room
  rw [Extends, List.append_nil, if_pos hroom]
  exact ⟨_, rfl, orFlags_built h more⟩

theorem orFlags_if_built (h : Built B (connectPrefix flags keepalive ++ rest) connection) (p : Prop)
    [Decidable p] (more : UInt8) : Built B (connectPrefix (flags ||| if p then more else 0) keepalive ++ rest)
      (if p then orFlags connection more else connection) := by
  by_cases hp : p
  · rw [if_pos hp, if_pos hp]
    exact orFlags_built h more
  · rw [if_neg hp, if_neg hp, UInt8.or_zero]
    exact h

theorem connectCredential_extends (h : Built B (connectPrefix flags keepalive ++ rest) connection)
    (field : Option CString) (flag : UInt8) :
    Extends B keepalive flags rest (credentialFlag field flag) (optionalBytes field)
      (connectCredential connection field flag) := by
  unfold connectCredential credentialFlag optionalBytes
  cases nonEmpty field with
  | none => exact Extends.pure h
  | some s =>
    have := Extends.bind (append_string_extends h s.bytes) (fun c hc => orFlags_extends hc flag)
    rwa [UInt8.zero_or, List.append_nil] at this

theorem orFlags_if_extends (h : Built B (connectPrefix flags keepalive ++ rest) connection) (p : Prop)
    [Decidable p] (more : UInt8) : Extends B keepalive flags rest (if p then more else 0) []
      (.ok (if p then orFlags connection more else connection)) := by
  have hroom := h.room
  rw [Extends, List.append_nil, if_pos hroom]
  exact ⟨_, rfl, orFlags_if_built h p more⟩

theorem connectWill_extends (h : Built B (connectPrefix flags keepalive ++ rest) connection)
    (info : mqtt_connect_info_t) :
    Extends B keepalive flags rest (willFlags info) (willBytes info) (connectWill connection info) := by
  unfold connectWill willFlags willBytes
  cases nonEmpty info.will_topic with
  | none => exact Extends.pure h
  | some topic =>
    have htopic := append_string_extends h topic.bytes
    have hall := htopic.bind fun c hc => (append_string_extends hc info.will_message.bytes).bind
      fun c hc => (orFlags_extends hc MQTT_CONNECT_FLAG_WILL).bind fun c hc =>
        (orFlags_if_extends hc (info.will_retain ≠ 0) MQTT_CONNECT_FLAG_WILL_RETAIN).bind
          fun c hc => orFlags_extends hc (UInt8.ofNat ((info.will_qos % 4).toNat <<< 3))
    simp only [List.append_nil, UInt8.zero_or, ← UInt8.or_assoc] at hall
    exact hall

end

theorem keepalive_word (n : ℤ) :
    [UInt8.ofNat (n / 256 % 256).toNat, UInt8.ofNat (n % 256).toNat] = word (n % 65536).toNat := by
  have hhigh : UInt8.ofNat (n / 256 % 256).toNat = UInt8.ofNat ((n % 65536).toNat / 256) := by
    apply UInt8.toNat_inj.mp
    rw [ofNat_toNat_mod, ofNat_toNat_mod]
    omega
  have hlow : UInt8.ofNat (n % 256).toNat = UInt8.ofNat (n % 65536).toNat := by
    apply UInt8.toNat_inj.mp
    rw [ofNat_toNat_mod, ofNat_toNat_mod]
    omega
  rw [hhigh, hlow]
  rfl

def connectFlags (info : mqtt_connect_info_t) : UInt8 :=
  (if info.clean_session ≠ 0 then MQTT_CONNECT_FLAG_CLEAN_SESSION else 0) ||| willFlags info |||
    credentialFlag info.username MQTT_CONNECT_FLAG_USERNAME |||
    credentialFlag info.password MQTT_CONNECT_FLAG_PASSWORD

def connectBytes (info : mqtt_connect_info_t) : Option (List UInt8) :=
  (nonEmpty info.client_id).map fun client_id =>
    connectPrefix (connectFlags info) (info.keepalive % 65536).toNat ++ (string client_id.bytes ++
      (willBytes info ++ (optionalBytes info.username ++ optionalBytes info.password)))

theorem connectPayload_extends {keepalive : ℕ} {flags : UInt8}
    (h : Built B (connectPrefix flags keepalive ++ []) connection) (info : mqtt_connect_info_t)
    (client_id : List UInt8) :
    Extends B keepalive flags []
      (willFlags info ||| credentialFlag info.username MQTT_CONNECT_FLAG_USERNAME |||
        credentialFlag info.password MQTT_CONNECT_FLAG_PASSWORD)
      (string client_id ++ (willBytes info ++ (optionalBytes info.username ++ optionalBytes info.password)))
      (append_string connection client_id >>= fun c => connectWill c info >>= fun c =>
        connectCredential c info.username MQTT_CONNECT_FLAG_USERNAME >>= fun c =>
          connectCredential c info.password MQTT_CONNECT_FLAG_PASSWORD) := by
  have hall := (append_string_extends h client_id).bind fun c hc =>
    (connectWill_extends hc info).bind fun c hc =>
      (connectCredential_extends hc info.username MQTT_CONNECT_FLAG_USERNAME).bind fun c hc =>
        connectCredential_extends hc info.password MQTT_CONNECT_FLAG_PASSWORD
  rwa [UInt8.zero_or, ← UInt8.or_assoc] at hall

theorem connectHeader_built (h : Built B [] connection) (info : mqtt_connect_info_t)
    (hroom : ¬ connection.message.length + CONNECT_HEADER_SIZE > connection.buffer_length) :
    ∃ c, connectHeader connection info = .ok c ∧
      Built B (connectPrefix 0 (info.keepalive % 65536).toNat ++ []) c := by
  refine ⟨_, if_neg hroom, ?_⟩
  have hfits : 3 + (connectPrefix 0 (info.keepalive % 65536).toNat).length ≤ B := by
    rw [h.length, h.sized.limit] at hroom
    exact Nat.le_of_not_lt hroom
  have hput : Built B ([] ++ connectPrefix 0 (info.keepalive % 65536).toNat) _ := h.put hfits
  rw [connectPrefix, ← keepalive_word] at hput ⊢
  exact hput

theorem mqtt_msg_connect_emitted (h : Sized B connection) (hB : 3 ≤ B) (info : mqtt_connect_info_t) :
    Emitted B (fixedHeader MQTT_MSG_TYPE_CONNECT 0 0 0) (connectBytes info)
      (mqtt_msg_connect connection info) := by
  have hinit := init_message_built h hB
  unfold mqtt_msg_connect connectBytes
  by_cases hroom : (init_message connection).message.length + CONNECT_HEADER_SIZE >
      (init_message connection).buffer_length
  · have hbody : connectBody (init_message connection) info = .error (init_message connection) := by
      rw [connectBody, connectHeader, if_pos hroom]
      rfl
    rw [hbody]
    apply fail_message_emitted hinit.sized _
    intro bs hbs
    obtain ⟨client_id, _, rfl⟩ := Option.map_eq_some_iff.mp hbs
    have hsmall : B < 3 + 12 := by
      rw [hinit.length, hinit.sized.limit] at hroom
      exact hroom
    simp only [connectPrefix, List.length_append, string_length, word_length, List.length_cons,
      List.length_nil]
    omega
  obtain ⟨c, hheader, hc⟩ := connectHeader_built hinit info hroom
  have hclean := orFlags_if_built hc (info.clean_session ≠ 0) MQTT_CONNECT_FLAG_CLEAN_SESSION
  rw [UInt8.zero_or] at hclean
  cases hid : nonEmpty info.client_id with
  | none =>
    have hbody : connectBody (init_message connection) info =
        .error (if info.clean_session ≠ 0 then orFlags c MQTT_CONNECT_FLAG_CLEAN_SESSION else c) := by
      rw [connectBody, hheader, hid]
      rfl
    rw [hbody]
    exact fail_message_emitted hclean.sized _ (by simp)
  | some client_id =>
    have hpayload := connectPayload_extends hclean info client_id.bytes
    have hbody : connectBody (init_message connection) info =
        (append_string (if info.clean_session ≠ 0 then orFlags c MQTT_CONNECT_FLAG_CLEAN_SESSION else c)
          client_id.bytes >>= fun c => connectWill c info >>= fun c =>
            connectCredential c info.username MQTT_CONNECT_FLAG_USERNAME >>= fun c =>
              connectCredential c info.password MQTT_CONNECT_FLAG_PASSWORD) := by
      rw [connectBody, hheader, hid]
      rfl
    have hflags : (if info.clean_session ≠ 0 then MQTT_CONNECT_FLAG_CLEAN_SESSION else 0) |||
        (willFlags info ||| credentialFlag info.username MQTT_CONNECT_FLAG_USERNAME |||
          credentialFlag info.password MQTT_CONNECT_FLAG_PASSWORD) = connectFlags info := by
      rw [connectFlags, UInt8.or_assoc, UInt8.or_assoc, UInt8.or_assoc]
    rw [← hbody] at hpayload
    unfold Extends at hpayload
    rw [hflags, List.nil_append, connectPrefix_append_length _ (connectFlags info)] at hpayload
    split at hpayload
    · obtain ⟨c, hok, hc⟩ := hpayload
      rw [hok]
      exact fini_message_emitted hc _ _ _ _
    · next hfull =>
      obtain ⟨c, herror, hc⟩ := hpayload
      rw [herror]
      apply fail_message_emitted hc _
      intro bs hbs
      obtain rfl := Option.some.inj hbs
      exact Nat.lt_of_not_le hfull

end LightSleepMqtt.Message
