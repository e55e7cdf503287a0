import LightSleepMqtt.Http.Page
import LightSleepMqtt.Library.Transition

/-! The server of `http_config.c`: what `HTTPConfig_TCPServerRecieveCallback` does with each segment
that arrives. `none` is a write behind the end of an array on the stack, or through a NULL pointer.
`recieveBuffer` grows on the heap and is taken to have room. -/
namespace LightSleepMqtt.Http
open Config Transition
set_option autoImplicit false

/-- `sizeof` the array `requestType`. -/
abbrev REQUEST_TYPE_SIZE : ℕ := 16
/-- `sizeof` the array `contentLengthStr`, which has to keep a NUL. -/
abbrev CONTENT_LENGTH_SIZE : ℕ := 6

/-- The device and the string in `recieveBuffer`. -/
@[ext] structure Server where
  device : Device
  recieveBuffer : List UInt8

/-- What `atoi` makes of the text of a length, as `unsigned int`. -/
def dataLength (contentLengthStr : List UInt8) : ℕ := (atoi contentLengthStr % 4294967296).toNat

def HTTPConfig_AllInBuffer (recieveBuffer : List UInt8) : Option Bool :=
  match strstr recieveBuffer (ascii "Content-Length:") with
  -- no such header is taken to mean no data, also while the header has yet to arrive
  | none => some true
  | some found =>
    let start := found + 15
    match strstr (recieveBuffer.drop start) (ascii "\r\n") with
    | none => some false
    | some length =>
      if length < CONTENT_LENGTH_SIZE then
        match strstr recieveBuffer (ascii "\r\n\r\n") with
        | none => some false
        | some data =>
          some (decide (dataLength ((recieveBuffer.drop start).take length) ≤
            (recieveBuffer.drop (data + 4)).length))
      else none

/-- The first line of the request, copied into `requestType`. -/
def requestType (recieveBuffer : List UInt8) : Option (List UInt8) :=
  (strstr recieveBuffer (ascii "\r\n")).bind fun n =>
    if n ≤ REQUEST_TYPE_SIZE then some (recieveBuffer.take n) else none

variable (fp : FloatingPoint) (clientId : List UInt8)

/-- The callback behind `HTTPConfig_AllInBuffer`: the response and the device it leaves. -/
def answer (recieveBuffer : List UInt8) (d : Device) : Option (Device × List UInt8) :=
  (requestType recieveBuffer).bind fun line =>
    if line = ascii "GET / HTTP/1.1" then
      let form := HTTPConfig_GetForm fp clientId d
      some (form.1, HTTPConfig_TCPServerSendResponse 200 form.2)
    else if line = ascii "POST / HTTP/1.1" then
      (HTTPConfig_SetData fp clientId recieveBuffer d).map fun d =>
        let form := HTTPConfig_GetForm fp clientId d
        (form.1, HTTPConfig_TCPServerSendResponse 200 form.2)
    else some (d, HTTPConfig_TCPServerSendResponse 404 [])

/-- One segment arrives: `strncat` appends it up to its first NUL. The response is what this call
sends. -/
def HTTPConfig_TCPServerRecieveCallback (s : Server) (pusrdata : List UInt8) :
    Option (Server × Option (List UInt8)) :=
  let recieveBuffer := s.recieveBuffer ++ cstring pusrdata
  (HTTPConfig_AllInBuffer recieveBuffer).bind fun all =>
    if all then
      (answer fp clientId recieveBuffer s.device).map fun sent => (⟨sent.1, []⟩, some sent.2)
    else some (⟨s.device, recieveBuffer⟩, none)

/-! ## What the searches decide -/

section AllInBuffer

variable {recieveBuffer : List UInt8} {found length data : ℕ}

theorem allInBuffer_noHeader (h : strstr recieveBuffer (ascii "Content-Length:") = none) :
    HTTPConfig_AllInBuffer recieveBuffer = some true := by
  rw [HTTPConfig_AllInBuffer, h]

variable (hfound : strstr recieveBuffer (ascii "Content-Length:") = some found)
include hfound

theorem allInBuffer_noLine (h : strstr (recieveBuffer.drop (found + 15)) (ascii "\r\n") = none) :
    HTTPConfig_AllInBuffer recieveBuffer = some false := by
  rw [HTTPConfig_AllInBuffer, hfound]
  simp only [h]

variable (hlength : strstr (recieveBuffer.drop (found + 15)) (ascii "\r\n") = some length)
include hlength

theorem allInBuffer_long (h : ¬ length < CONTENT_LENGTH_SIZE) : HTTPConfig_AllInBuffer recieveBuffer = none := by
  rw [HTTPConfig_AllInBuffer, hfound]
  simp only [hlength, if_neg h]

variable (hshort : length < CONTENT_LENGTH_SIZE)
include hshort

theorem allInBuffer_noData (h : strstr recieveBuffer (ascii "\r\n\r\n") = none) :
    HTTPConfig_AllInBuffer recieveBuffer = some false := by
  rw [HTTPConfig_AllInBuffer, hfound]
  simp only [hlength, if_pos hshort, h]

theorem allInBuffer_data (h : strstr recieveBuffer (ascii "\r\n\r\n") = some data) :
    HTTPConfig_AllInBuffer recieveBuffer =
      some (decide (dataLength ((recieveBuffer.drop (found + 15)).take length) ≤
        (recieveBuffer.drop (data + 4)).length)) := by
  rw [HTTPConfig_AllInBuffer, hfound]
  simp only [hlength, if_pos hshort, h]

end AllInBuffer

/-! ## What one call does -/

variable {fp clientId} {s t : Server} {pusrdata : List UInt8}

theorem callback_sends_iff {response : List UInt8} :
    HTTPConfig_TCPServerRecieveCallback fp clientId s pusrdata = some (t, some response) ↔
      HTTPConfig_AllInBuffer (s.recieveBuffer ++ cstring pusrdata) = some true ∧
        answer fp clientId (s.recieveBuffer ++ cstring pusrdata) s.device = some (t.device, response) ∧
        t.recieveBuffer = [] := by
  simp only [HTTPConfig_TCPServerRecieveCallback]
  constructor
  · intro h
    obtain ⟨all, hall, h⟩ := Option.bind_eq_some_iff.mp h
    cases all with
    | false => cases h
    | true =>
      obtain ⟨sent, hsent, heq⟩ := Option.map_eq_some_iff.mp h
      obtain ⟨rfl, hresponse⟩ := Prod.mk.inj heq
      obtain rfl := Option.some.inj hresponse
      exact ⟨hall, hsent, rfl⟩
  · rintro ⟨hall, hsent, hempty⟩
    rw [hall, Option.bind_some, if_pos rfl, hsent, Option.map_some, ← hempty]

theorem callback_waits_iff :
    HTTPConfig_TCPServerRecieveCallback fp clientId s pusrdata = some (t, none) ↔
      HTTPConfig_AllInBuffer (s.recieveBuffer ++ cstring pusrdata) = some false ∧
        t = ⟨s.device, s.recieveBuffer ++ cstring pusrdata⟩ := by
  simp only [HTTPConfig_TCPServerRecieveCallback]
  constructor
  · intro h
    obtain ⟨all, hall, h⟩ := Option.bind_eq_some_iff.mp h
    cases all with
    | false => exact ⟨hall, (Prod.mk.inj (Option.some.inj h)).1.symm⟩
    | true =>
      obtain ⟨sent, _, heq⟩ := Option.map_eq_some_iff.mp h
      cases heq
  · rintro ⟨hall, rfl⟩
    rw [hall, Option.bind_some]
    rfl

/-! ## Requests that are answered -/

/-- The first line fits `requestType`, and the form of a POST fits its fields. -/
def Answerable (request : List UInt8) : Prop :=
  ∃ n, strstr request (ascii "\r\n") = some n ∧ n ≤ REQUEST_TYPE_SIZE ∧
    (request.take n = ascii "POST / HTTP/1.1" →
      ∃ data, strstr request (ascii "\r\n\r\n") = some data ∧ FormFits (request.drop (data + 4)))

variable (fp clientId)

theorem setData_isSome (recieveBuffer : List UInt8) (d : Device) :
    (HTTPConfig_SetData fp clientId recieveBuffer d).isSome ↔
      ∃ data, strstr recieveBuffer (ascii "\r\n\r\n") = some data ∧ FormFits (recieveBuffer.drop (data + 4)) := by
  unfold HTTPConfig_SetData
  cases strstr recieveBuffer (ascii "\r\n\r\n") with
  | none => simp
  | some data =>
    simp only [Option.bind_some, Option.isSome_map, formLoop_isSome, Option.some.injEq, exists_eq_left']

/-- Whether there is a response does not depend on what is stored. -/
theorem answer_isSome (recieveBuffer : List UInt8) (d : Device) :
    (answer fp clientId recieveBuffer d).isSome ↔ Answerable recieveBuffer := by
  unfold answer requestType Answerable
  cases strstr recieveBuffer (ascii "\r\n") with
  | none => simp
  | some n =>
    simp only [Option.bind_some, Option.some.injEq, exists_eq_left']
    split
    · next hfits =>
      rw [Option.bind_some]
      split
      · next hget => 
        refine iff_of_true rfl ⟨hfits, fun hpost => ?_⟩
        exact absurd (hget.symm.trans hpost) (by decide)
      · split
        · next hpost =>
          rw [Option.isSome_map, setData_isSome]
          exact ⟨fun h => ⟨hfits, fun _ => h⟩, fun h => h.2 hpost⟩
        · next hother => exact iff_of_true rfl ⟨hfits, fun hpost => absurd hpost hother⟩
    · next hlong => exact iff_of_false (by simp) fun h => hlong h.1

end LightSleepMqtt.Http
