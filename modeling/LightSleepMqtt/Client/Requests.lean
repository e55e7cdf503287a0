import LightSleepMqtt.Client.Order
import LightSleepMqtt.Message.RemainingLength

/-! What the calls that queue a packet report. `MQTT_Publish` and `MQTT_Ping` look whether their
message could be built; `MQTT_Subscribe` and `MQTT_UnSubscribe` do not, and queue an empty packet
in its place. A message that could be built is the packet of its arguments when these are in the
ranges of MQTT, which no call checks. -/
namespace LightSleepMqtt.Client
open Message MqttWire Queue DropQueue Transition
set_option autoImplicit false

variable {B : ℕ} {l : Log (List UInt8)} {s s' : Sys}

/-! ## The message of a call -/

def Request.builder : Request B → BuilderCall
  | .publish topic data qos retain _ => .publish topic data qos retain
  | .subscribe topic qos _ => .subscribe topic qos.toNat
  | .unSubscribe topic _ => .unsubscribe topic
  | .ping _ => .pingreq

/-- There is a message, and it fits into the buffer. -/
def Request.Buildable (s : Sys) (r : Request B) : Prop :=
  ∃ body, r.builder.body s.client.mqtt_state.mqtt_connection = some body ∧ 3 + body.length ≤ B

/-- The packet carries exactly the arguments of the call, beside an identifier of its own. -/
def Request.Asks : Request B → Packet → Prop
  | .publish topic data qos retain _, p => ∃ t id, ∃ q : ℕ, topic = some t ∧ (q : ℤ) = qos ∧
      p = .publish false q (decide (retain ≠ 0)) t.bytes id data
  | .subscribe topic qos _, p => ∃ t id, topic = some t ∧ qos.toNat ≤ 2 ∧ p = .subscribe id [(t.bytes, qos)]
  | .unSubscribe topic _, p => ∃ t id, topic = some t ∧ p = .unsubscribe id [t.bytes]
  | .ping _, p => p = .pingreq

/-- A quality of service of at most 2, and a flag whose lowest bit says whether it is set. -/
def Request.InRange : Request B → Prop
  | .publish _ _ qos retain _ => (qos = 0 ∨ qos = 1 ∨ qos = 2) ∧ (retain = 0 ∨ retain % 2 = 1)
  | .subscribe _ qos _ => qos.toNat ≤ 2
  | .unSubscribe .. | .ping _ => True

theorem Request.prepare_builder (s : Sys) (r : Request B) :
    (r.prepare s).client.mqtt_state.mqtt_connection =
      (r.builder.exec s.client.mqtt_state.mqtt_connection s.client.mqtt_state.pending_msg_id).1 := by
  cases r <;> rfl

theorem Request.emitted (h : Sized B s.client.mqtt_state.mqtt_connection) (hB3 : 3 ≤ B) (r : Request B) :
    Emitted B r.builder.header (r.builder.body s.client.mqtt_state.mqtt_connection)
      (r.prepare s).client.mqtt_state.mqtt_connection := by
  rw [r.prepare_builder]
  exact r.builder.exec_emitted h hB3 _

theorem Request.built_iff (h : Sized B s.client.mqtt_state.mqtt_connection) (hB3 : 3 ≤ B) (r : Request B) :
    (r.prepare s).client.mqtt_state.mqtt_connection.message.length ≠ 0 ↔ r.Buildable s :=
  (r.emitted h hB3).length_ne_zero_iff

theorem publish_header_bits : ∀ (q : Fin 3) (r : Fin 2) (b : Bool),
    UInt8.ofNat ((3 &&& 0x0f) <<< 4 ||| (0 &&& 1) <<< 3 ||| q.val <<< 1 ||| r.val) =
      UInt8.ofNat (3 * 16 + (0 * 8 + q.val * 2 + b.toNat)) ↔ r.val = b.toNat := by decide

theorem publish_header_iff {q : ℕ} (hq : q ≤ 2) (retain : ℤ) :
    fixedHeader MQTT_MSG_TYPE_PUBLISH 0 q retain = UInt8.ofNat (3 * 16 + (0 * 8 + q * 2 + (decide (retain ≠ 0)).toNat)) ↔
      retain = 0 ∨ retain % 2 = 1 := by
  have hbits := publish_header_bits ⟨q, by omega⟩ ⟨(retain % 2).toNat, by omega⟩ (decide (retain ≠ 0))
  have hmod : ((q : ℤ) % 4).toNat = q := by omega
  rw [fixedHeader, hmod]
  refine hbits.trans ?_
  by_cases hzero : retain = 0
  · simp [hzero]
  · simp only [hzero, ne_eq, not_false_eq_true, decide_true, Bool.toNat_true, false_or]
    omega

section
variable {connection : mqtt_connection_t} {body : List UInt8} (hsize : body.length ≤ 16383)
include hsize

/-- The packet of the arguments, when they are in range. -/
theorem Request.asks_of_inRange {r : Request B} (hr : r.InRange) (hbody : r.builder.body connection = some body) :
    ∃ p : Packet, r.Asks p ∧ p.WellFormed ∧ r.builder.header = UInt8.ofNat (p.kind * 16 + p.flags) ∧ p.body = body := by
  have hnext := nextMessageId_ne_zero connection.message_id
  have hlt := nextMessageId_lt connection.message_id
  cases r with
  | publish topic data qos retain locals =>
    obtain ⟨t, ht, rfl⟩ := Option.map_eq_some_iff.mp hbody
    obtain ⟨hqos, hretain⟩ := hr
    obtain ⟨q, rfl⟩ : ∃ q : ℕ, (q : ℤ) = qos := ⟨qos.toNat, by omega⟩
    have hpos : (q : ℤ) > 0 ↔ 0 < q := by omega
    simp only [hpos] at hsize ⊢
    simp only [List.length_append, string_length] at hsize
    refine ⟨.publish false q (decide (retain ≠ 0)) t.bytes (if 0 < q then nextMessageId connection.message_id else 0) data,
      ⟨t, _, q, nonEmpty_eq_some ht, rfl, rfl⟩, ⟨⟨nonEmpty_some ht, by omega, by omega, ?_, ?_⟩, ?_⟩,
      (publish_header_iff (by omega) retain).mpr hretain, ?_⟩
    · split <;> omega
    · by_cases hq : 0 < q <;> simp [hq, hnext]
    · rw [publish_body_length]
      split <;> omega
    · rw [Packet.body]
      by_cases hq : 0 < q <;> simp only [hq, if_true, if_false]
  | subscribe topic qos locals =>
    obtain ⟨t, ht, rfl⟩ := Option.map_eq_some_iff.mp hbody
    have hbyte : UInt8.ofNat ((qos.toNat : ℤ) % 256).toNat = qos := by
      have := qos.toNat_lt
      rw [show ((qos.toNat : ℤ) % 256).toNat = qos.toNat by omega, UInt8.ofNat_toNat]
    have hsame : (Packet.subscribe (nextMessageId connection.message_id) [(t.bytes, qos)]).body =
        word (nextMessageId connection.message_id) ++ string t.bytes ++ [UInt8.ofNat ((qos.toNat : ℤ) % 256).toNat] := by
      rw [hbyte]
      simp [Packet.body]
    have hlength := hsize
    simp only [List.length_append, string_length, word_length, List.length_singleton] at hlength
    refine ⟨_, ⟨t, _, nonEmpty_eq_some ht, hr, rfl⟩, ⟨⟨⟨hnext, hlt⟩, fun f hf => ?_⟩, ?_⟩, rfl, hsame⟩
    · rw [List.mem_singleton.mp hf]
      show t.bytes.length < 65536
      omega
    · rw [hsame]
      omega
  | unSubscribe topic locals =>
    obtain ⟨t, ht, rfl⟩ := Option.map_eq_some_iff.mp hbody
    have hsame : (Packet.unsubscribe (nextMessageId connection.message_id) [t.bytes]).body =
        word (nextMessageId connection.message_id) ++ string t.bytes := by
      simp [Packet.body]
    have hlength := hsize
    simp only [List.length_append, string_length, word_length] at hlength
    refine ⟨_, ⟨t, _, nonEmpty_eq_some ht, rfl⟩, ⟨⟨⟨hnext, hlt⟩, fun f hf => ?_⟩, ?_⟩, rfl, hsame⟩
    · rw [List.mem_singleton.mp hf]
      omega
    · rw [hsame]
      omega
  | ping locals => exact ⟨.pingreq, rfl, ⟨trivial, by decide⟩, rfl, Option.some.inj hbody⟩

end

/-- A packet of the arguments begins as the message does, so they are in range. -/
theorem Request.inRange_of_asks {r : Request B} {p : Packet} (hasks : r.Asks p) (hp : p.WellFormed)
    (hheader : r.builder.header = UInt8.ofNat (p.kind * 16 + p.flags)) : r.InRange := by
  cases r with
  | publish topic data qos retain locals =>
    obtain ⟨t, id, q, _, rfl, rfl⟩ := hasks
    have hq : q ≤ 2 := hp.fields.2.2.1
    exact ⟨by omega, (publish_header_iff hq retain).mp hheader⟩
  | subscribe topic qos locals =>
    obtain ⟨t, id, _, hqos, rfl⟩ := hasks
    exact hqos
  | unSubscribe | ping => trivial

/-! ## What the call reports -/

/-- Some attempt of the retry loop finds room for the message. -/
def Request.FindsRoom (s : Sys) (r : Request B) : Prop :=
  ∃ free ∈ freed QUEUE_BUFFER_SIZE s.client.msgQueue.rb.bytes, (stuff (r.message s)).length ≤ free

/-- A message that could not be built is reported and leaves the queue alone, and TRUE stands for
a packet of the arguments at the end of the queue. -/
def ReportsRightly (s : Sys) (r : Request B) : Prop :=
  ∃ s' ok, r.exec s = some (s', ok) ∧
    ((r.prepare s).client.mqtt_state.mqtt_connection.message.length = 0 →
      ok = false ∧ s'.client.msgQueue = s.client.msgQueue) ∧
    (ok = true → ∃ p, r.Asks p ∧ p.WellFormed ∧ ∃ ps, Fetches B s'.client.msgQueue (ps ++ [p.encode]))

theorem evictions_eq_none_iff (N need : ℕ) (bytes : List UInt8) :
    evictions N need bytes = none ↔ ¬ ∃ free ∈ freed N bytes, need ≤ free := by
  rw [evictions, List.findIdx?_eq_none_iff]
  simp only [decide_eq_false_iff_not, not_exists, not_and]

theorem Request.message_eq (h : Sized B s.client.mqtt_state.mqtt_connection) (hB3 : 3 ≤ B) {r : Request B}
    {body : List UInt8} (hbody : r.builder.body s.client.mqtt_state.mqtt_connection = some body)
    (hroom : 3 + body.length ≤ B) : r.message s = r.builder.header :: (lengthBytes body.length ++ body) := by
  have hemitted := r.emitted h hB3
  rw [hbody] at hemitted
  rw [Request.message, hemitted.bytes, emission_some hroom]

/-- A message that is short enough for the ring is a packet of the arguments if these are in range. -/
theorem Request.message_asked_iff (h : Sized B s.client.mqtt_state.mqtt_connection) (hB3 : 3 ≤ B) {r : Request B}
    (hbuild : r.Buildable s) (hshort : (r.message s).length ≤ 16383) :
    (∃ p, r.Asks p ∧ p.WellFormed ∧ p.encode = r.message s) ↔ r.InRange := by
  obtain ⟨body, hbody, hroom⟩ := hbuild
  have hmessage := Request.message_eq h hB3 hbody hroom
  have hsize : body.length ≤ 16383 := by
    rw [hmessage, List.length_cons, List.length_append] at hshort
    omega
  constructor
  · rintro ⟨p, hasks, hp, hencode⟩
    rw [hmessage, Packet.encode, List.cons.injEq] at hencode
    exact Request.inRange_of_asks hasks hp hencode.1.symm
  · intro hr
    obtain ⟨p, hasks, hp, hheader, rfl⟩ := Request.asks_of_inRange hsize hr hbody
    refine ⟨p, hasks, hp, ?_⟩
    rw [hmessage, hheader, lengthBytes_eq hsize]
    rfl

/-- Without a message: the empty packet that goes into the queue instead always changes it. -/
theorem Request.reports_unbuilt (h : Sound B l s) (hB3 : 3 ≤ B) (hB : B ≤ 65535) {r : Request B}
    (hbuild : ¬ r.Buildable s) : ReportsRightly s r ↔ r.checksLength = true := by
  have hzero : (r.prepare s).client.mqtt_state.mqtt_connection.message.length = 0 :=
    of_not_not fun hne => hbuild ((r.built_iff h.sized hB3).mp hne)
  have hkept := r.prepare_neutral hB3 s
  cases hchecks : r.checksLength with
  | true =>
    refine iff_of_true ⟨r.prepare s, false, ?_, fun _ => ⟨rfl, hkept.queue⟩, fun hok => by cases hok⟩ rfl
    rw [r.exec_eq, if_pos ⟨hchecks, hzero⟩]
  | false =>
    refine iff_of_false ?_ (by decide)
    rintro ⟨s', ok, hexec, hreport, _⟩
    obtain ⟨hok, hqueue⟩ := hreport hzero
    obtain ⟨out, hout, hevicts⟩ := queueOutbound_evicts (by decide) hB (h.neutral hkept).holds (r.emitted h.sized hB3) r.locals
    rw [r.exec_eq, if_neg (by simp [hchecks]), hout] at hexec
    obtain ⟨rfl, rfl⟩ := Prod.mk.inj (Option.some.inj hexec)
    have hempty : (r.prepare s).client.mqtt_state.mqtt_connection.bytes = [] := by
      rw [mqtt_connection_t.bytes, hzero, List.take_zero]
    rw [hempty, hkept.queue] at hevicts
    cases hev : evictions QUEUE_BUFFER_SIZE (stuff []).length s.client.msgQueue.rb.bytes with
    | some a =>
      rw [hev] at hevicts
      exact absurd (hok.symm.trans hevicts.1) (by decide)
    | none =>
      rw [hev] at hevicts
      have hdrained : s.client.msgQueue.rb.bytes = [] := hqueue ▸ hevicts.2.2
      rw [hdrained] at hev
      exact absurd hev (by decide)

/-- With a message: TRUE is returned exactly when it finds room. -/
theorem Request.reports_built (h : Sound B l s) (hB3 : 3 ≤ B) (hB : B ≤ 65535) {r : Request B} (hbuild : r.Buildable s) :
    ReportsRightly s r ↔ (r.FindsRoom s → r.InRange) := by
  have hne := (r.built_iff h.sized hB3).mpr hbuild
  have hkept := r.prepare_neutral hB3 s
  obtain ⟨out, hout, hevicts⟩ := queueOutbound_evicts (by decide) hB (h.neutral hkept).holds (r.emitted h.sized hB3) r.locals
  have hexec : r.exec s = some (queued (r.prepare s) (r.message s) out, out.2) := by
    rw [r.exec_eq, if_neg fun hand => hne hand.2, hout]
    rfl
  rw [hkept.queue] at hevicts
  change Evicts QUEUE_BUFFER_SIZE l.waiting (r.message s)
    (evictions QUEUE_BUFFER_SIZE (stuff (r.message s)).length s.client.msgQueue.rb.bytes) out at hevicts
  have hreports : ReportsRightly s r ↔
      (out.2 = true → ∃ p, r.Asks p ∧ p.WellFormed ∧ ∃ ps, Fetches B out.1 (ps ++ [p.encode])) := by
    constructor
    · rintro ⟨s', ok, hcall, _, hlast⟩
      obtain ⟨rfl, rfl⟩ := Prod.mk.inj (Option.some.inj (hexec.symm.trans hcall))
      exact hlast
    · exact fun hlast => ⟨_, _, hexec, fun hzero => absurd hzero hne, hlast⟩
  rw [hreports]
  cases hev : evictions QUEUE_BUFFER_SIZE (stuff (r.message s)).length s.client.msgQueue.rb.bytes with
  | none =>
    rw [hev] at hevicts
    have hroom : ¬ r.FindsRoom s := (evictions_eq_none_iff ..).mp hev
    exact iff_of_true (fun hok => absurd (hevicts.1.symm.trans hok) (by decide)) fun hfinds => absurd hfinds hroom
  | some a =>
    rw [hev] at hevicts
    obtain ⟨hok, ha, hholds⟩ := hevicts
    have hroom : r.FindsRoom s := by
      by_contra hnone
      rw [(evictions_eq_none_iff ..).mpr hnone] at hev
      cases hev
    have hfits : ∀ p ∈ l.waiting.drop a ++ [r.message s], p.length ≤ B := by
      intro p hp
      obtain hin | hin := List.mem_append.mp hp
      · exact h.fits p (List.mem_of_mem_drop hin)
      · exact List.mem_singleton.mp hin ▸ r.message_length_le h hB3
    have hshort : (r.message s).length ≤ 16383 :=
      Nat.le_trans (hholds.packet_length_le (List.mem_append_right _ (List.mem_singleton_self _))) (by decide)
    rw [← Request.message_asked_iff h.sized hB3 hbuild hshort]
    constructor
    · intro hlast _
      obtain ⟨p, hasks, hp, ps, hfetches⟩ := hlast hok
      have hsame := (fetches_iff hB hholds hfits _).mp hfetches
      exact ⟨p, hasks, hp, (List.singleton_inj.mp (List.append_inj' hsame rfl).2).symm⟩
    · intro hasked _
      obtain ⟨p, hasks, hp, hencode⟩ := hasked hroom
      exact ⟨p, hasks, hp, l.waiting.drop a, (fetches_iff hB hholds hfits _).mpr (by rw [hencode])⟩

/-- **When a request is reported rightly**, in every state of every run: its message can be built,
or the call looks whether it was; and the arguments are in range, or no attempt finds room. -/
theorem reports_rightly_iff (hB3 : 3 ≤ B) (hB : B ≤ 65535) {s₀ : Sys} (hs : Starts B s₀) {as : List (Step B)}
    (hrun : run step s₀ as = some s) (r : Request B) :
    ReportsRightly s r ↔ (r.Buildable s ∨ r.checksLength = true) ∧ (r.Buildable s → r.FindsRoom s → r.InRange) := by
  obtain ⟨l, hl, _⟩ := run_sound hB3 hB hs hrun
  by_cases hbuild : r.Buildable s
  · rw [Request.reports_built hl hB3 hB hbuild]
    exact ⟨fun h => ⟨.inl hbuild, fun _ => h⟩, fun h => h.2 hbuild⟩
  · rw [Request.reports_unbuilt hl hB3 hB hbuild]
    exact ⟨fun h => ⟨.inr h, fun hb => absurd hb hbuild⟩, fun h => h.1.resolve_left hbuild⟩

/-- The topic "a" for a client that has not connected yet. -/
theorem reports_rightly_iff_subscribe :
    let r : Request 64 := .subscribe (some (.ofBytes [0x61])) 1 (zeroLocals 64)
    ReportsRightly newClient r ↔
      (r.Buildable newClient ∨ r.checksLength = true) ∧ (r.Buildable newClient → r.FindsRoom newClient → r.InRange) :=
  reports_rightly_iff (by decide) (by decide) newClient_starts
    (show run step newClient [] = some newClient from rfl) _

/-- A SUBSCRIBE without a topic: no message is built, TRUE is returned, and the two delimiters of an
empty packet stand in the queue. -/
theorem subscribe_null_queued :
    let r : Request 64 := .subscribe none 0 (zeroLocals 64)
    (r.prepare newClient).client.mqtt_state.mqtt_connection.message.length = 0 ∧
      (r.exec newClient).map (fun ret => (ret.2, ret.1.client.msgQueue.rb.bytes)) = some (true, [0x7E, 0x7F]) ∧
      newClient.client.msgQueue.rb.bytes = [] := by
  decide +kernel

end LightSleepMqtt.Client
