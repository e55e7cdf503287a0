import LightSleepMqtt.Http.Exact
import LightSleepMqtt.Http.Server

/-! The memory that the receive callback writes to: the reallocated `recieveBuffer` and the two
arrays on the stack. The new size of the buffer counts the bytes of the segment, but not the NUL
that `strncat` writes behind them. -/
namespace LightSleepMqtt.Http
open Config
set_option autoImplicit false

/-- `strncat` into a block: it copies up to the first NUL and ends with one. -/
def strncat (block : ℕ) (s pusrdata : List UInt8) : Option (List UInt8) :=
  if s.length + (cstring pusrdata).length + 1 ≤ block then some (s ++ cstring pusrdata) else none

/-- `os_realloc` and `strncat`. -/
def appendRecieved (recieveBuffer pusrdata : List UInt8) : Option (List UInt8) :=
  strncat (recieveBuffer.length + pusrdata.length) recieveBuffer pusrdata

/-- One call writes inside `recieveBuffer`, `contentLengthStr` and `requestType`, and follows no NULL. -/
def CallInside (recieveBuffer pusrdata : List UInt8) : Prop :=
  ∃ whole, appendRecieved recieveBuffer pusrdata = some whole ∧
    ∃ all, HTTPConfig_AllInBuffer whole = some all ∧ (all = true → (requestType whole).isSome = true)

/-- Every call does, for as long as there are segments. -/
def ReceivesInside (fp : FloatingPoint) (clientId : List UInt8) : Server → List (List UInt8) → Prop
  | _, [] => True
  | s, pusrdata :: segments =>
    CallInside s.recieveBuffer pusrdata ∧
      ∀ t sent, HTTPConfig_TCPServerRecieveCallback fp clientId s pusrdata = some (t, sent) →
        ReceivesInside fp clientId t segments

/-! ## Each target -/

/-- The text behind the first "Content-Length:" leaves room for a NUL. -/
def LengthFits (recieveBuffer : List UInt8) : Prop :=
  ∀ found length, strstr recieveBuffer (ascii "Content-Length:") = some found →
    strstr (recieveBuffer.drop (found + 15)) (ascii "\r\n") = some length → length < CONTENT_LENGTH_SIZE

/-- There is a first line, and it fits. -/
def LineFits (recieveBuffer : List UInt8) : Prop :=
  ∃ n, strstr recieveBuffer (ascii "\r\n") = some n ∧ n ≤ REQUEST_TYPE_SIZE

variable {recieveBuffer pusrdata : List UInt8}

theorem length_cstring_lt_iff : (cstring pusrdata).length < pusrdata.length ↔ 0 ∈ pusrdata := by
  constructor
  · intro h
    by_contra hnul
    rw [cstring_of_notMem hnul] at h
    exact Nat.lt_irrefl _ h
  · intro hnul
    refine Nat.lt_of_le_of_ne (List.takeWhile_prefix _).length_le fun heq => ?_
    have hself : cstring pusrdata = pusrdata := (List.takeWhile_prefix _).eq_of_length heq
    exact absurd (List.takeWhile_eq_self_iff.mp hself 0 hnul) (by simp)

theorem appendRecieved_eq {whole : List UInt8} (h : appendRecieved recieveBuffer pusrdata = some whole) :
    recieveBuffer ++ cstring pusrdata = whole := by
  unfold appendRecieved strncat at h
  split at h
  · exact Option.some.inj h
  · cases h

/-- **When the segment fits its block**: only if a NUL in it makes room for the one behind it. -/
theorem appendRecieved_isSome (recieveBuffer pusrdata : List UInt8) : (appendRecieved recieveBuffer pusrdata).isSome ↔ 0 ∈ pusrdata := by
  rw [← length_cstring_lt_iff, appendRecieved, strncat]
  split
  · next hfits => exact iff_of_true rfl (by omega)
  · next hfits => exact iff_of_false (by simp) (by omega)

theorem allInBuffer_isSome (recieveBuffer : List UInt8) :
    (HTTPConfig_AllInBuffer recieveBuffer).isSome ↔ LengthFits recieveBuffer := by
  cases hfound : strstr recieveBuffer (ascii "Content-Length:") with
  | none =>
    rw [allInBuffer_noHeader hfound]
    refine iff_of_true rfl fun found length h => ?_
    cases hfound.symm.trans h
  | some found =>
    cases hlength : strstr (recieveBuffer.drop (found + 15)) (ascii "\r\n") with
    | none =>
      rw [allInBuffer_noLine hfound hlength]
      refine iff_of_true rfl fun found' length' h h' => ?_
      obtain rfl := Option.some.inj (hfound.symm.trans h)
      cases hlength.symm.trans h'
    | some length =>
      by_cases hshort : length < CONTENT_LENGTH_SIZE
      · have hsome : (HTTPConfig_AllInBuffer recieveBuffer).isSome := by
          cases hdata : strstr recieveBuffer (ascii "\r\n\r\n") with
          | none => rw [allInBuffer_noData hfound hlength hshort hdata]; rfl
          | some data => rw [allInBuffer_data hfound hlength hshort hdata]; rfl
        refine iff_of_true hsome fun found' length' h h' => ?_
        obtain rfl := Option.some.inj (hfound.symm.trans h)
        obtain rfl := Option.some.inj (hlength.symm.trans h')
        exact hshort
      · rw [allInBuffer_long hfound hlength hshort]
        exact iff_of_false (by simp) fun h => hshort (h found length hfound hlength)

theorem requestType_isSome (recieveBuffer : List UInt8) : (requestType recieveBuffer).isSome ↔ LineFits recieveBuffer := by
  unfold requestType LineFits
  cases strstr recieveBuffer (ascii "\r\n") with
  | none => simp
  | some n =>
    simp only [Option.bind_some, Option.some.injEq, exists_eq_left']
    split
    · next hfits => exact iff_of_true rfl hfits
    · next hlong => exact iff_of_false (by simp) hlong

/-- **When one call stays inside its targets.** -/
theorem callInside_iff : CallInside recieveBuffer pusrdata ↔
    0 ∈ pusrdata ∧ LengthFits (recieveBuffer ++ cstring pusrdata) ∧
      (HTTPConfig_AllInBuffer (recieveBuffer ++ cstring pusrdata) = some true →
        LineFits (recieveBuffer ++ cstring pusrdata)) := by
  rw [← appendRecieved_isSome recieveBuffer, ← allInBuffer_isSome, ← requestType_isSome]
  constructor
  · rintro ⟨whole, happended, all, hall, hline⟩
    rw [appendRecieved_eq happended]
    refine ⟨by rw [happended]; rfl, by rw [hall]; rfl, fun htrue => hline ?_⟩
    exact Option.some.inj (hall.symm.trans htrue)
  · rintro ⟨happended, hall, hline⟩
    obtain ⟨whole, hsome⟩ := Option.isSome_iff_exists.mp happended
    rw [appendRecieved_eq hsome] at hall hline
    obtain ⟨all, hall⟩ := Option.isSome_iff_exists.mp hall
    exact ⟨whole, hsome, all, hall, fun htrue => hline (htrue ▸ hall)⟩

/-! ## Runs -/

/-- **No segment is received inside the buffer** when it is free of NULs. -/
theorem receives_inside_iff (fp : FloatingPoint) (clientId : List UInt8) (s : Server) {segments : List (List UInt8)}
    (hnul : ∀ pusrdata ∈ segments, 0 ∉ pusrdata) : ReceivesInside fp clientId s segments ↔ segments = [] := by
  cases segments with
  | nil => exact iff_of_true trivial rfl
  | cons pusrdata segments =>
    refine iff_of_false (fun h => ?_) (List.cons_ne_nil _ _)
    exact hnul pusrdata List.mem_cons_self (callInside_iff.mp h.1).1

/-- A request in one segment. -/
def pageRequest : List UInt8 := ascii "GET / HTTP/1.1\r\n\r\n"

/-- A device with an empty configuration. -/
def emptyServer : Server := ⟨⟨fun _ => 0, .zero, ⟨0, []⟩⟩, []⟩

theorem receives_inside_iff_request :
    ReceivesInside binary64.floatingPoint [] emptyServer [pageRequest] ↔ [pageRequest] = [] := by
  refine receives_inside_iff binary64.floatingPoint [] emptyServer ?_
  have hnul : 0 ∉ pageRequest := by decide +kernel
  exact List.forall_mem_singleton.mpr hnul

/-- The NUL behind the request goes behind the buffer. -/
theorem request_not_inside : ¬ ReceivesInside binary64.floatingPoint [] emptyServer [pageRequest] := by
  rintro ⟨⟨whole, happended, _⟩, _⟩
  have hfull : appendRecieved [] pageRequest = none := by decide +kernel
  cases hfull.symm.trans happended

end LightSleepMqtt.Http
