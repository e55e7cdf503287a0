import LightSleepMqtt.Client.Machine

/-! What the task sends, in terms of what the queue has accepted: over every run of one client
the packets sent from the queue are accepted ones, whole, in order and each at most once, and
the callbacks of the network do not touch the queue. -/
namespace LightSleepMqtt.Client
open Message Queue DropQueue Transition
set_option autoImplicit false

variable {B : ℕ} {s s' : Sys}

theorem run_sound (hB3 : 3 ≤ B) (hB : B ≤ 65535) (hs : Starts B s) {steps : List (Step B)}
    (hrun : run step s steps = some s') : ∃ l : Log (List UInt8), Sound B l s' ∧ l.InOrder := by
  refine run_invariant (I := fun s => ∃ l : Log (List UInt8), Sound B l s ∧ l.InOrder) ?_
    ⟨Log.empty, hs.sound hB, Log.empty_inOrder⟩ hrun
  intro s a s' hI hstep
  obtain ⟨l, hl, horder⟩ := hI
  obtain ⟨l', hmoves, hs'⟩ := step_moves hl hB3 hB hstep
  exact ⟨l', hs', hmoves.inOrder horder⟩

/-- **Queued packets are sent in order and at most once, across any number of connections.** -/
theorem pumped_in_order (hB3 : 3 ≤ B) (hB : B ≤ 65535) (hs : Starts B s) (steps : List (Step B))
    (hrun : run step s steps = some s') :
    s'.pumped.Sublist s'.accepted ∧
      ∀ event : Step B, event.OfConnection → ∀ s'', step s' event = some s'' →
        s''.client.msgQueue = s'.client.msgQueue := by
  obtain ⟨l, hl, horder⟩ := run_sound hB3 hB hs hrun
  refine ⟨?_, fun event hevent s'' hstep => (step_ofConnection_neutral hB3 hB hevent hstep).queue⟩
  rw [hl.pumped, hl.accepted]
  exact horder.taken_sublist

/-! ## A run over one connection -/

/-- A client of the broker at 1.2.3.4, with buffers of 64 bytes. -/
def newClient : Sys :=
  MQTT_InitClient 64 (MQTT_InitConnection (.ofBytes [0x31, 0x2E, 0x32, 0x2E, 0x33, 0x2E, 0x34]) false)
    (.ofBytes [0x63]) none none 60 1

theorem newClient_starts : Starts 64 newClient := ⟨_, _, _, _, _, _, _, rfl⟩

def connecting : List (Step 64) := [.call (.connect none), .connectCb, .recv [0x20, 0x02, 0x00, 0x00]]

def publishOne (qos : ℤ) : Step 64 :=
  .call (.request (.publish (some (.ofBytes [0x61])) [0x31] qos 0 (zeroLocals 64)))

def runTask : Step 64 := .task (zeroLocals 64) true none

/-- Two publishes that are queued before the connection is there; the first is sent. -/
theorem pumped_in_order_oneConnection :
    ∃ s', run step newClient (publishOne 0 :: publishOne 0 :: connecting ++ [.sentCb, runTask]) = some s' ∧
      s'.pumped.Sublist s'.accepted := by
  have hsome : (run step newClient (publishOne 0 :: publishOne 0 :: connecting ++ [.sentCb, runTask])).isSome := by
    decide +kernel
  obtain ⟨s', hrun⟩ := Option.isSome_iff_exists.mp hsome
  exact ⟨s', hrun, (pumped_in_order (by decide) (by decide) newClient_starts _ hrun).1⟩

example : (run step newClient (publishOne 0 :: publishOne 0 :: connecting ++ [.sentCb, runTask])).map
    (fun s => (s.pumped, s.accepted.length)) = some ([[0x30, 0x04, 0x00, 0x01, 0x61, 0x31]], 2) := by
  decide +kernel

end LightSleepMqtt.Client
