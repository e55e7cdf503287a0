import LightSleepMqtt.Client.Order
import LightSleepMqtt.Message.WellFormed

/-! The packet identifiers of the requests that are waiting in the queue. They stay distinct
and nonzero on every run in which no call that queues a request finds the next identifier of the
connection among those that stay in the queue; a connection that comes up starts the counter
again while the queue is kept, so the condition is not always met. -/
namespace LightSleepMqtt.Client
open Message MqttWire Queue DropQueue Transition
set_option autoImplicit false

/-! ## The identifier in a packet -/

/-- The identifier of a PUBLISH with a QoS above 0, a SUBSCRIBE or an UNSUBSCRIBE, from its first
byte and its body; 0 when its place is missing. -/
def bodyId (first : UInt8) (body : List UInt8) : Option ℕ :=
  if first.toNat / 16 = MQTT_MSG_TYPE_PUBLISH then
    if first.toNat / 2 % 4 = 0 then none
    else some (((takeString body).bind fun topic => (takeWord topic.2).map Prod.fst).getD 0)
  else if first.toNat / 16 = MQTT_MSG_TYPE_SUBSCRIBE ∨ first.toNat / 16 = MQTT_MSG_TYPE_UNSUBSCRIBE then
    some (((takeWord body).map Prod.fst).getD 0)
  else none

/-- The identifier of a packet that waits for an acknowledgement. -/
def requestId : List UInt8 → Option ℕ
  | [] => none
  | first :: bs => bodyId first (((takeGroups 4 true bs).map Prod.snd).getD [])

theorem fixedHeader_bits {type : ℕ} (htype : type < 16) (qos retain : ℤ) :
    (fixedHeader type 0 qos retain).toNat / 16 = type ∧
      (fixedHeader type 0 qos retain).toNat / 2 % 4 = (qos % 4).toNat := by
  have hall : ∀ (t : Fin 16) (q : Fin 4) (r : Fin 2),
      (UInt8.ofNat ((t.val &&& 0x0f) <<< 4 ||| (0 &&& 1) <<< 3 ||| q.val <<< 1 ||| r.val)).toNat / 16 = t.val ∧
        (UInt8.ofNat ((t.val &&& 0x0f) <<< 4 ||| (0 &&& 1) <<< 3 ||| q.val <<< 1 ||| r.val)).toNat / 2 % 4 = q.val := by
    decide
  exact hall ⟨type, htype⟩ ⟨(qos % 4).toNat, by omega⟩ ⟨(retain % 2).toNat, by omega⟩

theorem requestId_emission {B : ℕ} {header : UInt8} {body : List UInt8} (hbody : body.length ≤ 16383)
    (hroom : 3 + body.length ≤ B) : requestId (emission B header (some body)) = bodyId header body := by
  have htake := takeGroups_groups 3 body.length true (by omega) (by simp) body
  rw [emission, if_pos hroom, lengthBytes_eq hbody, requestId, remainingLength, htake]
  rfl

theorem bodyId_eq_none (first : UInt8) (body : List UInt8)
    (h : first.toNat / 16 ≠ 3 ∧ first.toNat / 16 ≠ 8 ∧ first.toNat / 16 ≠ 10) : bodyId first body = none := by
  rw [bodyId, if_neg h.1, if_neg (not_or.mpr h.2)]

theorem requestId_answer {packet : List UInt8} (h : IsAnswer packet) : requestId packet = none := by
  obtain rfl | ⟨q, _, hreply, rfl⟩ := h
  · rfl
  · cases q with
    | puback id => exact bodyId_eq_none 0x40 _ (by decide)
    | pubrec id => exact bodyId_eq_none 0x50 _ (by decide)
    | pubrel dup id =>
      cases dup with
      | false => exact bodyId_eq_none 0x62 _ (by decide)
      | true => exact bodyId_eq_none 0x6A _ (by decide)
    | pubcomp id => exact bodyId_eq_none 0x70 _ (by decide)
    | pingresp => exact bodyId_eq_none 0xD0 _ (by decide)
    | connect | connack | publish | subscribe | suback | unsubscribe | unsuback | pingreq | disconnect =>
      exact hreply.elim

def Request.QosValid {B : ℕ} : Request B → Prop
  | .publish _ _ qos _ _ => 0 ≤ qos
  | _ => True

/-- The message of the call has an identifier, once it is built. -/
def Request.carriesId {B : ℕ} : Request B → Bool
  | .publish _ _ qos _ _ => decide (qos % 4 ≠ 0)
  | .subscribe .. | .unSubscribe .. => true
  | .ping _ => false

variable {B : ℕ} {l : Log (List UInt8)} {s s' : Sys}

/-- A message is empty, or its body has the size that the decoder reads back. -/
theorem requestId_emitted {r : Request B} (hsize : (r.message s).length ≤ 16383) {header : UInt8}
    {body : Option (List UInt8)} (he : Emitted B header body (r.prepare s).client.mqtt_state.mqtt_connection)
    {id : Option ℕ} (hbody : ∀ bs, body = some bs → bs.length ≤ 16383 → bodyId header bs = id) :
    requestId (r.message s) = if r.message s ≠ [] then id else none := by
  rw [Request.message, he.bytes] at hsize ⊢
  cases body with
  | none => rw [if_neg fun hne => hne rfl, emission, requestId]
  | some bs =>
    by_cases hroom : 3 + bs.length ≤ B
    · have hle : bs.length ≤ 16383 := by
        simp only [emission, if_pos hroom, List.length_cons, List.length_append] at hsize
        omega
      have hne : emission B header (some bs) ≠ [] := by
        rw [emission, if_pos hroom]
        exact List.cons_ne_nil _ _
      rw [if_pos hne, requestId_emission hle hroom, hbody bs rfl hle]
    · rw [emission, if_neg hroom, if_neg fun hne => hne rfl, requestId]

/-- A message goes out with the next identifier of the connection, or without any. -/
theorem requestId_message (h : Sized B s.client.mqtt_state.mqtt_connection) (hB3 : 3 ≤ B) {r : Request B}
    (hr : r.QosValid) (hsize : (r.message s).length ≤ 16383) :
    requestId (r.message s) = if r.carriesId = true ∧ r.message s ≠ [] then
      some (nextMessageId s.client.mqtt_state.mqtt_connection.message_id) else none := by
  have hlt := nextMessageId_lt s.client.mqtt_state.mqtt_connection.message_id
  have hemitted {header : UInt8} {body : Option (List UInt8)}
      (he : Emitted B header body (r.prepare s).client.mqtt_state.mqtt_connection)
      (hbody : ∀ bs, body = some bs → bs.length ≤ 16383 → bodyId header bs = if r.carriesId = true then
        some (nextMessageId s.client.mqtt_state.mqtt_connection.message_id) else none) :
      requestId (r.message s) = if r.carriesId = true ∧ r.message s ≠ [] then
        some (nextMessageId s.client.mqtt_state.mqtt_connection.message_id) else none := by
    rw [requestId_emitted hsize he hbody, ite_and]
    split_ifs <;> rfl
  cases r with
  | publish topic data qos retain locals =>
    apply hemitted (mqtt_msg_publish_emitted h hB3 topic data qos retain _).1
    intro bs hbs hle
    obtain ⟨t, _, rfl⟩ := Option.map_eq_some_iff.mp hbs
    obtain ⟨htype, hqos⟩ := fixedHeader_bits (show MQTT_MSG_TYPE_PUBLISH < 16 by decide) qos retain
    have hr' : 0 ≤ qos := hr
    simp only [List.length_append, string_length] at hle
    rw [bodyId, if_pos htype, hqos]
    by_cases hzero : qos % 4 = 0
    · rw [if_pos (by omega), if_neg (by simp [Request.carriesId, hzero])]
    · have hcarries : (Request.publish topic data qos retain locals).carriesId = true := by
        simp [Request.carriesId, hzero]
      rw [if_neg (by omega), if_pos (show qos > 0 by omega), if_pos hcarries, List.append_assoc,
        takeString_string (by omega), Option.bind_some, takeWord_word hlt]
      rfl
  | subscribe topic qos locals =>
    apply hemitted (mqtt_msg_subscribe_emitted h hB3 topic qos.toNat _).1
    intro bs hbs _
    obtain ⟨t, _, rfl⟩ := Option.map_eq_some_iff.mp hbs
    rw [bodyId, if_neg (by decide), if_pos (by decide), List.append_assoc, takeWord_word hlt]
    rfl
  | unSubscribe topic locals =>
    apply hemitted (mqtt_msg_unsubscribe_emitted h hB3 topic _).1
    intro bs hbs _
    obtain ⟨t, _, rfl⟩ := Option.map_eq_some_iff.mp hbs
    rw [bodyId, if_neg (by decide), if_pos (by decide), takeWord_word hlt]
    rfl
  | ping locals =>
    apply hemitted (emptyMessage_emitted h hB3 MQTT_MSG_TYPE_PINGREQ)
    intro bs hbs _
    obtain rfl := Option.some.inj hbs
    rfl

/-! ## The waiting requests -/

/-- The identifiers of the requests among the packets, oldest first. -/
def pendingIds (packets : List (List UInt8)) : List ℕ := packets.filterMap requestId

/-- The packets in the queue, as `QUEUE_Gets` yields them. -/
def waitingPackets (MQTT_BUF_SIZE : ℕ) (s : Sys) : List (List UInt8) :=
  fetchable (zeroLocals MQTT_BUF_SIZE) s.client.msgQueue.rb.size s.client.msgQueue
    (zeroLocals MQTT_BUF_SIZE).dataBuffer

def IdsUnique (MQTT_BUF_SIZE : ℕ) (s : Sys) : Prop :=
  0 ∉ pendingIds (waitingPackets MQTT_BUF_SIZE s) ∧ (pendingIds (waitingPackets MQTT_BUF_SIZE s)).Nodup

/-- If the call queues a message with an identifier, then the one it draws, which is the next of the
connection, is not that of a request that stays in the queue. -/
def DrawsFresh (s : Sys) : Step B → Prop
  | .call (.request r) => r.carriesId = true → r.message s ≠ [] →
    ∀ k, evictions QUEUE_BUFFER_SIZE (stuff (r.message s)).length s.client.msgQueue.rb.bytes = some k →
      nextMessageId s.client.mqtt_state.mqtt_connection.message_id ∉ pendingIds ((waitingPackets B s).drop k)
  | _ => True

instance (s : Sys) : (a : Step B) → Decidable (DrawsFresh s a)
  | .call (.request r) =>
    inferInstanceAs (Decidable (r.carriesId = true → r.message s ≠ [] →
      ∀ k ∈ evictions QUEUE_BUFFER_SIZE (stuff (r.message s)).length s.client.msgQueue.rb.bytes,
        nextMessageId s.client.mqtt_state.mqtt_connection.message_id ∉ pendingIds ((waitingPackets B s).drop k)))
  | .call (.connect _) | .call .disconnect | .call .deleteClient | .call (.initLWT ..) | .call (.onConnected _)
  | .call (.onDisconnected _) | .call (.onData _) | .call (.onPublished _) | .call (.onTimeout _)
  | .resume | .dnsFound _ | .connectCb | .reconCb | .disconCb | .recv _ | .sentCb | .timer | .task .. =>
    inferInstanceAs (Decidable True)

def Step.QosValid (a : Step B) : Prop := ∀ r, a.request = some r → r.QosValid

theorem waitingPackets_eq {N : ℕ} {ps : List (List UInt8)} (h : s.client.msgQueue.Holds N ps) (hB : B ≤ 65535)
    (hfit : ∀ p ∈ ps, p.length ≤ B) : waitingPackets B s = ps := by
  apply fetchable_eq _ hB _ h.length_le_size h hfit
  rw [(zeroLocals B).sized]
  exact Nat.mod_le _ _

theorem pendingIds_append (ps : List (List UInt8)) (p : List UInt8) :
    pendingIds (ps ++ [p]) = pendingIds ps ++ (requestId p).toList := by
  rw [pendingIds, List.filterMap_append]
  congr 1

theorem pendingIds_sublist {l' : Log (List UInt8)} (h : Moves (Answer B) l l') :
    (pendingIds l'.waiting).Sublist (pendingIds l.waiting) := by
  cases h with
  | kept => exact List.Sublist.refl _
  | accept k a ha =>
    rw [pendingIds_append, requestId_answer ha.2, Option.toList_none, List.append_nil]
    exact (List.drop_sublist k _).filterMap _
  | drop k => exact (List.drop_sublist k _).filterMap _
  | take a rest hw =>
    rw [hw]
    exact (List.sublist_cons_self a rest).filterMap _

theorem unique_append_iff {ids : List ℕ} {id : Option ℕ} (hzero : 0 ∉ ids) (hnodup : ids.Nodup) (hid : id ≠ some 0) :
    (0 ∉ ids ++ id.toList ∧ (ids ++ id.toList).Nodup) ↔ ∀ n, id = some n → n ∉ ids := by
  cases id with
  | none => simp [hzero, hnodup]
  | some n =>
    have hn : 0 ≠ n := fun h => hid (congrArg some h.symm)
    simp only [Option.toList_some, List.mem_append, List.mem_singleton, hzero, hn, or_self, not_false_eq_true,
      true_and, Option.some.injEq, forall_eq', List.nodup_append, hnodup, List.nodup_singleton, ne_eq]
    exact ⟨fun h hin => h n hin n rfl rfl, fun h a ha b hb hab => h (hb ▸ hab ▸ ha)⟩

theorem Request.exec_unique (h : Sound B l s) (hB3 : 3 ≤ B) (hB : B ≤ 65535) (hq : IdsUnique B s) {r : Request B}
    (hr : r.QosValid) {ok : Bool} (hexec : r.exec s = some (s', ok)) :
    IdsUnique B s' ↔ DrawsFresh s (.call (.request r)) := by
  unfold IdsUnique at hq ⊢
  simp only [DrawsFresh]
  rw [waitingPackets_eq h.holds hB h.fits] at hq ⊢
  obtain ⟨hmessage, ht, _⟩ | ⟨out, hout, hevicts, _⟩ := r.exec_cases h hB3 hB
  · obtain ⟨rfl, rfl⟩ := Prod.mk.inj (Option.some.inj (ht.symm.trans hexec))
    have hs := h.neutral (r.prepare_neutral hB3 s)
    rw [waitingPackets_eq hs.holds hB hs.fits, hmessage]
    exact iff_of_true hq fun _ hne => absurd rfl hne
  · obtain ⟨rfl, rfl⟩ := Prod.mk.inj (Option.some.inj (hout.symm.trans hexec))
    cases hev : evictions QUEUE_BUFFER_SIZE (stuff (r.message s)).length s.client.msgQueue.rb.bytes with
    | none =>
      rw [hev] at hevicts
      rw [waitingPackets_eq (s := queued _ _ out) hevicts.2.1 hB (by simp)]
      exact iff_of_true ⟨List.not_mem_nil, List.nodup_nil⟩ fun _ _ _ hk => by cases hk
    | some a =>
      rw [hev] at hevicts
      have hmoves : Moves (fun p => p.length ≤ B) l ⟨_, _, _⟩ := .accept a _ (r.message_length_le h hB3)
      have hsub : (pendingIds (l.waiting.drop a)).Sublist (pendingIds l.waiting) :=
        (List.drop_sublist a _).filterMap _
      have hsize : (r.message s).length ≤ 16383 :=
        Nat.le_trans (hevicts.2.2.packet_length_le (List.mem_append_right _ (List.mem_singleton_self _))) (by decide)
      have hne := nextMessageId_ne_zero s.client.mqtt_state.mqtt_connection.message_id
      rw [waitingPackets_eq (s := queued _ _ out) hevicts.2.2 hB (hmoves.forall_waiting h.fits), pendingIds_append,
        requestId_message h.sized hB3 hr hsize,
        unique_append_iff (fun hin => hq.1 (hsub.mem hin)) (hq.2.sublist hsub) (by split <;> simp [hne])]
      simp only [Option.ite_none_right_eq_some, Option.some.injEq, forall_eq', and_imp]
      exact ⟨fun h hc hm => h _ hc hm rfl, fun h n hc hm hn => hn ▸ h hc hm⟩

theorem step_unique (h : Sound B l s) (hB3 : 3 ≤ B) (hB : B ≤ 65535) (hq : IdsUnique B s) {a : Step B}
    (ha : a.QosValid) (hstep : step s a = some s') : IdsUnique B s' ↔ DrawsFresh s a := by
  cases hr : a.request with
  | some r =>
    obtain ⟨rfl, ok, hexec⟩ := step_request hr hstep
    exact r.exec_unique h hB3 hB hq (ha r hr) hexec
  | none =>
    obtain ⟨l', hmoves, hs'⟩ := step_answers h hB3 hB hr hstep
    have hsub := pendingIds_sublist hmoves
    unfold IdsUnique at hq ⊢
    rw [waitingPackets_eq h.holds hB h.fits] at hq
    rw [waitingPackets_eq hs'.holds hB hs'.fits]
    refine iff_of_true ⟨fun hin => hq.1 (hsub.mem hin), hq.2.sublist hsub⟩ ?_
    unfold DrawsFresh
    split
    · cases hr
    · trivial

/-- **The identifiers of the waiting requests are nonzero and distinct throughout a run exactly if
no call of it that queues a request finds the next identifier of the connection among those that
stay in the queue.** -/
theorem ids_unique_iff (hB3 : 3 ≤ B) (hB : B ≤ 65535) (hs : Starts B s) (steps : List (Step B))
    (hsteps : ∀ a ∈ steps, a.QosValid) :
    Always step (IdsUnique B) s steps ↔ Meets step DrawsFresh s steps := by
  have hstart := hs.sound hB
  refine always_iff_meets (I := fun s => ∃ l : Log (List UInt8), Sound B l s) ?_ ?_ ⟨_, hstart⟩ ?_
  · intro s a s' _ hI hstep
    obtain ⟨l, hl⟩ := hI
    obtain ⟨l', _, hl'⟩ := step_moves hl hB3 hB hstep
    exact ⟨l', hl'⟩
  · intro s a s' hmem hI hq hstep
    obtain ⟨l, hl⟩ := hI
    exact step_unique hl hB3 hB hq (hsteps a hmem) hstep
  · unfold IdsUnique
    rw [waitingPackets_eq hstart.holds hB hstart.fits]
    exact ⟨List.not_mem_nil, List.nodup_nil⟩

theorem publishOne_qosValid {qos : ℤ} (h : 0 ≤ qos) : (publishOne qos).QosValid := by
  intro r hr
  obtain rfl := Option.some.inj hr
  exact h

theorem ids_unique_iff_oneConnection :
    Always step (IdsUnique 64) newClient (connecting ++ [publishOne 1, publishOne 2]) :=
  (ids_unique_iff (by decide) (by decide) newClient_starts _ (by
    intro a ha
    simp only [connecting, List.cons_append, List.nil_append, List.mem_cons, List.not_mem_nil, or_false] at ha
    obtain rfl | rfl | rfl | rfl | rfl := ha
    · intro r hr; cases hr
    · intro r hr; cases hr
    · intro r hr; cases hr
    · exact publishOne_qosValid (by decide)
    · exact publishOne_qosValid (by decide))).mpr (by decide +kernel)

/-- A request is waiting when the connection comes up, and the next one draws its identifier. -/
theorem ids_repeat_after_connect :
    (run step newClient ([publishOne 1] ++ connecting ++ [publishOne 1])).map
      (fun s => pendingIds (waitingPackets 64 s)) = some [1, 1] := by decide +kernel

end LightSleepMqtt.Client
