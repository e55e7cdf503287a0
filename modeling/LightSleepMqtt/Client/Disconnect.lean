import LightSleepMqtt.Client.Order

/-! What becomes of a requested end. After `MQTT_Disconnect` or `MQTT_DeleteClient` the client
stays in the two states of that end and sends nothing, on every run without a callback of a
connection attempt that was still under way; each such callback writes the state of the client
without looking at it. -/
namespace LightSleepMqtt.Client
open Message Queue Transition
set_option autoImplicit false

/-- The two ends an application can ask for. -/
inductive Ending where
  | disconnect
  | delete
  deriving DecidableEq

def Ending.going : Ending → tConnState
  | .disconnect => .TCP_DISCONNECTING
  | .delete => .MQTT_DELETING

def Ending.gone : Ending → tConnState
  | .disconnect => .TCP_DISCONNECTED
  | .delete => .MQTT_DELETED

variable {B : ℕ}

def Ending.call : Ending → ApiCall B
  | .disconnect => .disconnect
  | .delete => .deleteClient

/-- The application asks for something else: a connection, or the other end. -/
def Ending.SupersededBy (e : Ending) : Step B → Prop
  | .call (.connect _) => True
  | .call .disconnect => e = .delete
  | .call .deleteClient => e = .disconnect
  | _ => False

/-- The end is under way or reached, and nothing has been sent or connected since `t`. -/
def StaysEnded (e : Ending) (t s : Sys) : Prop :=
  (s.client.connState = e.going ∨ s.client.connState = e.gone) ∧ s.pumped = t.pumped ∧
    s.control = t.control ∧ s.connects = t.connects

/-- The step is none of the callbacks that undo an end: of a connection that comes up or fails, of
a name that is not found or that is found and connected to, of a second disconnection. -/
def OnTime (e : Ending) (s : Sys) : Step B → Prop
  | .connectCb | .reconCb | .dnsFound none => False
  | .dnsFound (some addr) => s.client.ip ≠ 0 ∨ addr = 0
  | .disconCb => s.client.connState ≠ e.gone
  | _ => True

instance (e : Ending) (s : Sys) : (a : Step B) → Decidable (OnTime e s a)
  | .connectCb | .reconCb | .dnsFound none => inferInstanceAs (Decidable False)
  | .dnsFound (some addr) => inferInstanceAs (Decidable (s.client.ip ≠ 0 ∨ addr = 0))
  | .disconCb => inferInstanceAs (Decidable (s.client.connState ≠ e.gone))
  | .call _ | .resume | .recv _ | .sentCb | .timer | .task .. => inferInstanceAs (Decidable True)

/-! ## The steps that leave the connection alone -/

/-- Neither the state nor what has been handed to the network changes. -/
structure Calm (s s' : Sys) : Prop where
  connState : s'.client.connState = s.client.connState
  pumped : s'.pumped = s.pumped
  control : s'.control = s.control
  connects : s'.connects = s.connects

variable {e : Ending} {s s' s'' t : Sys}

theorem Calm.trans (h : Calm s s') (h' : Calm s' s'') : Calm s s'' :=
  ⟨h'.connState.trans h.connState, h'.pumped.trans h.pumped, h'.control.trans h.control,
    h'.connects.trans h.connects⟩

theorem StaysEnded.calm (h : StaysEnded e t s) (hc : Calm s s') : StaysEnded e t s' := by
  obtain ⟨hstate, hpumped, hcontrol, hconnects⟩ := h
  refine ⟨?_, hc.pumped.trans hpumped, hc.control.trans hcontrol, hc.connects.trans hconnects⟩
  rw [hc.connState]
  exact hstate

theorem callsBack_calm {registered : Bool} {callback : Callback} {rest : Sys → Sys} (h : Calm s (rest s)) :
    Calm s (callsBack s registered callback rest) := by
  unfold callsBack
  split
  · exact ⟨rfl, rfl, rfl, rfl⟩
  · exact h

theorem mqtt_tcpclient_sent_cb_calm (s : Sys) : Calm s (mqtt_tcpclient_sent_cb s) := by
  simp only [mqtt_tcpclient_sent_cb, callsBack]
  split_ifs <;> exact ⟨rfl, rfl, rfl, rfl⟩

theorem Request.exec_calm (r : Request B) {ok : Bool} (hexec : r.exec s = some (s', ok)) : Calm s s' := by
  have hprepare : Calm s (r.prepare s) := by cases r <;> exact ⟨rfl, rfl, rfl, rfl⟩
  rw [r.exec_eq] at hexec
  split at hexec
  · obtain ⟨rfl, rfl⟩ := Prod.mk.inj (Option.some.inj hexec)
    exact hprepare
  · apply hprepare.trans
    unfold queueOutbound at hexec
    split at hexec
    · cases hexec
    · obtain ⟨rfl, rfl⟩ := Prod.mk.inj (Option.some.inj hexec)
      exact ⟨rfl, rfl, rfl, rfl⟩
    · obtain ⟨rfl, rfl⟩ := Prod.mk.inj (Option.some.inj hexec)
      exact ⟨rfl, rfl, rfl, rfl⟩

/-! ## What the other handlers do in the states of an end -/

theorem StaysEnded.inactive (h : StaysEnded e t s) :
    ¬ Receiving s ∧ s.client.connState ≠ .MQTT_CONNECT_SENDING ∧ s.client.connState ≠ .MQTT_DATA ∧
      s.client.connState ≠ .TCP_RECONNECT_REQ := by
  unfold Receiving
  rcases h.1 with hstate | hstate <;> rw [hstate] <;> cases e <;> simp [Ending.going, Ending.gone]

theorem receivePass_calm (h : StaysEnded e t s) (pdata : List UInt8) : Calm s (receivePass s B pdata) := by
  obtain ⟨hreceiving, hconnect, _⟩ := h.inactive
  unfold receivePass
  obtain ⟨_, _, _, _, hs, _⟩ | ⟨_, hs, _⟩ | ⟨buffer, hpass⟩ := readPacket_cases B s pdata
  · exact absurd hs hreceiving
  · exact absurd hs hconnect
  · rw [hpass]
    exact ⟨rfl, rfl, rfl, rfl⟩

theorem returned_calm (h : StaysEnded e t s) (callback : Callback) : Calm s (returned s B callback) := by
  have hrun : Calm s { s with running := none } := ⟨rfl, rfl, rfl, rfl⟩
  cases callback with
  | dataCb pdata registered =>
    simp only [returned]
    cases nextPacket _ pdata with
    | none => exact ⟨rfl, rfl, rfl, rfl⟩
    | some pdata => exact hrun.trans (receivePass_calm (h.calm hrun) pdata)
  | timeoutCb | connectedCb | disconnectedCb | publishedCb => exact ⟨rfl, rfl, rfl, rfl⟩

theorem mqtt_timer_calm (h : StaysEnded e t s) : Calm s (mqtt_timer s) := by
  obtain ⟨_, _, hdata, hreconnect⟩ := h.inactive
  rw [mqtt_timer, if_neg hdata, if_neg hreconnect]
  exact ⟨rfl, rfl, rfl, rfl⟩

theorem MQTT_Task_calm (h : StaysEnded e t s) (locals : Locals B) (result : Bool) (resolved : Option ℕ) :
    Calm s (MQTT_Task s locals result resolved) := by
  rcases h.1 with hstate | hstate <;> cases e <;> simp only [MQTT_Task, hstate, Ending.going, Ending.gone] <;>
    exact ⟨rfl, rfl, rfl, rfl⟩

theorem mqtt_tcpclient_discon_cb_ended (h : StaysEnded e t s) :
    StaysEnded e t (mqtt_tcpclient_discon_cb s) ↔ s.client.connState ≠ e.gone := by
  have hcalm (c : tConnState) : Calm (setConnState s c)
      (callsBack (setConnState s c) s.client.disconnectedCb .disconnectedCb system_os_post) :=
    callsBack_calm ⟨rfl, rfl, rfl, rfl⟩
  obtain hstate | hstate := h.1
  · have hgoing : StaysEnded e t (setConnState s e.gone) := ⟨Or.inr rfl, h.2⟩
    refine iff_of_true ?_ (by rw [hstate]; cases e <;> decide)
    have heq : mqtt_tcpclient_discon_cb s = callsBack (setConnState s e.gone) s.client.disconnectedCb
        .disconnectedCb system_os_post := by
      cases e <;> simp only [mqtt_tcpclient_discon_cb, hstate, Ending.going, Ending.gone, reduceCtorEq, if_true,
        if_false] <;> rfl
    rw [heq]
    exact hgoing.calm (hcalm _)
  · refine iff_of_false ?_ (fun hne => hne hstate)
    have heq : mqtt_tcpclient_discon_cb s = callsBack (setConnState s .TCP_RECONNECT_REQ) s.client.disconnectedCb
        .disconnectedCb system_os_post := by
      cases e <;> simp only [mqtt_tcpclient_discon_cb, hstate, Ending.gone, reduceCtorEq, if_false] <;> rfl
    rw [heq]
    intro hstays
    obtain ⟨hend, _⟩ := hstays
    rw [(hcalm _).connState] at hend
    rcases hend with hend | hend <;> cases e <;> cases hend

theorem mqtt_dns_found_ended (h : StaysEnded e t s) (addr : ℕ) :
    StaysEnded e t (mqtt_dns_found s (some addr)) ↔ s.client.ip ≠ 0 ∨ addr = 0 := by
  by_cases hconnects : s.client.ip = 0 ∧ addr ≠ 0
  · refine iff_of_false ?_ (by rintro (hip | haddr); exacts [hip hconnects.1, hconnects.2 haddr])
    intro hstays
    obtain ⟨hend, _⟩ := hstays
    simp only [mqtt_dns_found, if_pos hconnects] at hend
    rcases hend with hend | hend <;> cases e <;> cases hend
  · refine iff_of_true ?_ ?_
    · simp only [mqtt_dns_found, if_neg hconnects]
      exact h.calm ⟨rfl, rfl, rfl, rfl⟩
    · by_contra hnot
      rw [not_or, not_not] at hnot
      exact hconnects hnot

/-! ## Steps and runs -/

/-- A step undoes the end exactly when it is one of the late callbacks. -/
theorem step_ended (h : StaysEnded e t s) {a : Step B} (ha : ¬ e.SupersededBy a) (hstep : step s a = some s') :
    StaysEnded e t s' ↔ OnTime e s a := by
  have hcalm (hc : Calm s s') : StaysEnded e t s' ↔ True := iff_of_true (h.calm hc) trivial
  have hundone {c : tConnState} (hstate : s'.client.connState = c) (hgoing : c ≠ e.going) (hgone : c ≠ e.gone) :
      StaysEnded e t s' ↔ False := by
    refine iff_of_false ?_ id
    intro hstays
    obtain ⟨hend, _⟩ := hstays
    rw [hstate] at hend
    exact hend.elim hgoing hgone
  cases step_taken hstep with
  | @call c _ hexec =>
    cases c with
    | request r =>
      obtain ⟨⟨t, ok⟩, hr, rfl⟩ := Option.map_eq_some_iff.mp hexec
      exact hcalm (r.exec_calm hr)
    | connect resolved => exact absurd trivial ha
    | disconnect | deleteClient =>
      -- the same request again: the end is under way once more
      obtain rfl := Option.some.inj hexec
      refine iff_of_true ⟨Or.inl ?_, h.2⟩ trivial
      cases e <;> first | rfl | exact absurd rfl ha
    | onConnected | onDisconnected | onData | onPublished | onTimeout | initLWT =>
      obtain rfl := Option.some.inj hexec
      exact hcalm ⟨rfl, rfl, rfl, rfl⟩
  | resume => exact hcalm (returned_calm h _)
  | dnsFound ipaddr =>
    cases ipaddr with
    | none => exact hundone (c := .TCP_RECONNECT_REQ) rfl (by cases e <;> decide) (by cases e <;> decide)
    | some addr => exact mqtt_dns_found_ended h addr
  | connectCb => exact hundone (c := .MQTT_CONNECT_SENDING) rfl (by cases e <;> decide) (by cases e <;> decide)
  | reconCb => exact hundone (c := .TCP_RECONNECT_REQ) rfl (by cases e <;> decide) (by cases e <;> decide)
  | disconCb => exact mqtt_tcpclient_discon_cb_ended h
  | recv pdata =>
    have hreset : Calm s { s with client := { s.client with keepAliveTick := 0 } } := ⟨rfl, rfl, rfl, rfl⟩
    exact hcalm (hreset.trans (receivePass_calm (h.calm hreset) pdata))
  | sentCb => exact hcalm (mqtt_tcpclient_sent_cb_calm s)
  | timer => exact hcalm (mqtt_timer_calm h)
  | task locals result resolved => exact hcalm (MQTT_Task_calm h locals result resolved)

/-- **A requested end is kept on a run exactly if no late callback comes in.** -/
theorem ended_iff {e : Ending} {s t : Sys} (hcall : step s (.call e.call : Step B) = some t) (steps : List (Step B))
    (hsteps : ∀ a ∈ steps, ¬ e.SupersededBy a) :
    Always step (StaysEnded e t) t steps ↔ Meets step (OnTime e) t steps := by
  have hstart : StaysEnded e t t := by
    refine ⟨Or.inl ?_, rfl, rfl, rfl⟩
    cases step_taken hcall with
    | call hexec => cases e <;> cases hexec <;> rfl
  refine always_iff_meets (I := fun _ => True) (fun _ _ _ => trivial) ?_ trivial hstart
  intro s a s' hmem _ hended hstep
  exact step_ended hended (hsteps a hmem) hstep

theorem ended_iff_closed :
    Always step (StaysEnded .disconnect (MQTT_Disconnect (MQTT_Connect newClient none)))
      (MQTT_Disconnect (MQTT_Connect newClient none)) [runTask, .disconCb, runTask] :=
  (ended_iff (e := .disconnect) (s := MQTT_Connect newClient none) rfl [runTask, .disconCb, runTask] (by
    intro a ha
    simp only [List.mem_cons, List.not_mem_nil, or_false] at ha
    rcases ha with rfl | rfl | rfl <;> exact id)).mpr (by decide +kernel)

def namedClient : Sys :=
  MQTT_InitClient 64 (MQTT_InitConnection (.ofBytes [0x68]) false) (.ofBytes [0x63]) none none 60 1

/-- The name is found after `MQTT_Disconnect`: the client connects. -/
theorem ended_undone_by_dns :
    (run step namedClient ([.call (.connect none), .call .disconnect, .dnsFound (some 0x04030201)] : List (Step 64))).map
      (fun s => (s.client.connState, s.connects)) = some (.TCP_CONNECTING, [0x04030201]) := by
  decide +kernel

end LightSleepMqtt.Client
