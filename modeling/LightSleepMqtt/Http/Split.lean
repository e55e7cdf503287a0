import LightSleepMqtt.Http.Server

/-! Requests in segments. What `HTTPConfig_AllInBuffer` says of the front of a request follows from
where its searches succeed in the whole of it: without "Content-Length:" every front counts as
complete, and so does a front that ends before the header. -/
namespace LightSleepMqtt.Http
open Config Substring Transition
set_option autoImplicit false

/-! ## Fronts of a request -/

/-- The number of bytes a request with its "Content-Length:" in front of `start` has to have: the
end of the header line, and as many bytes behind the first empty line as the header tells. -/
def needed (request : List UInt8) (start : ℕ) : Option ℕ :=
  (strstr (request.drop start) (ascii "\r\n")).bind fun length =>
    if length < CONTENT_LENGTH_SIZE then
      (strstr request (ascii "\r\n\r\n")).map fun data =>
        max (start + length + 2) (data + 4 + dataLength ((request.drop start).take length))
    else none

variable {request : List UInt8} {found need : ℕ}

theorem needed_eq_some (h : needed request (found + 15) = some need) :
    ∃ length data, strstr (request.drop (found + 15)) (ascii "\r\n") = some length ∧ length < CONTENT_LENGTH_SIZE ∧
      strstr request (ascii "\r\n\r\n") = some data ∧ need =
        max (found + 15 + length + 2) (data + 4 + dataLength ((request.drop (found + 15)).take length)) := by
  obtain ⟨length, hlength, h⟩ := Option.bind_eq_some_iff.mp h
  by_cases hshort : length < CONTENT_LENGTH_SIZE
  · rw [if_pos hshort] at h
    obtain ⟨data, hdata, hneed⟩ := Option.map_eq_some_iff.mp h
    exact ⟨length, data, hlength, hshort, hdata, hneed.symm⟩
  · rw [if_neg hshort] at h
    cases h

theorem allInBuffer_take_none (h : strstr request (ascii "Content-Length:") = none) (p : ℕ) :
    HTTPConfig_AllInBuffer (request.take p) = some true :=
  allInBuffer_noHeader (find_take_none h (by decide))

/-- **When a front counts as complete**: the header has not arrived, or everything has. -/
theorem allInBuffer_take (hfound : strstr request (ascii "Content-Length:") = some found)
    (hneed : needed request (found + 15) = some need) {p : ℕ} (hp : p ≤ request.length) :
    HTTPConfig_AllInBuffer (request.take p) = some (decide (p < found + 15 ∨ need ≤ p)) := by
  obtain ⟨length, data, hlength, hshort, hdata, rfl⟩ := needed_eq_some hneed
  by_cases hstart : p < found + 15
  · rw [decide_eq_true (.inl hstart)]
    exact allInBuffer_noHeader (find_take_of_lt hfound rfl (by decide) hstart)
  have hfront : strstr (request.take p) (ascii "Content-Length:") = some found :=
    find_take_of_le hfound rfl (by decide) (Nat.not_lt.mp hstart)
  have hdrop : (request.take p).drop (found + 15) = (request.drop (found + 15)).take (p - (found + 15)) :=
    List.drop_take
  by_cases hline : p - (found + 15) < length + 2
  · rw [decide_eq_false (by omega)]
    refine allInBuffer_noLine hfront ?_
    rw [hdrop]
    exact find_take_of_lt hlength rfl (by decide) hline
  have hcut : strstr ((request.take p).drop (found + 15)) (ascii "\r\n") = some length := by
    rw [hdrop]
    exact find_take_of_le hlength rfl (by decide) (Nat.not_lt.mp hline)
  by_cases hblank : p < data + 4
  · rw [decide_eq_false (by omega)]
    exact allInBuffer_noData hfront hcut hshort (find_take_of_lt hdata rfl (by decide) hblank)
  · rw [allInBuffer_data hfront hcut hshort (find_take_of_le hdata rfl (by decide) (Nat.not_lt.mp hblank)), hdrop,
      List.take_take, Nat.min_eq_left (by omega), List.length_drop, List.length_take]
    simp only [Option.some.injEq, decide_eq_decide]
    omega

/-- All of a request counts as complete: it has no length, or as many bytes as its length tells. -/
def Complete (request : List UInt8) : Prop :=
  ∀ found, strstr request (ascii "Content-Length:") = some found →
    ∃ need, needed request (found + 15) = some need ∧ need ≤ request.length

theorem allInBuffer_iff (request : List UInt8) : HTTPConfig_AllInBuffer request = some true ↔ Complete request := by
  constructor
  · intro h found hfound
    cases hlength : strstr (request.drop (found + 15)) (ascii "\r\n") with
    | none => cases h.symm.trans (allInBuffer_noLine hfound hlength)
    | some length =>
      by_cases hshort : length < CONTENT_LENGTH_SIZE
      · cases hdata : strstr request (ascii "\r\n\r\n") with
        | none => cases h.symm.trans (allInBuffer_noData hfound hlength hshort hdata)
        | some data =>
          have hle := Option.some.inj ((allInBuffer_data hfound hlength hshort hdata).symm.trans h)
          have hline := find_le hlength (by decide)
          have hblank := find_le hdata (by decide)
          have htwo : (ascii "\r\n").length = 2 := rfl
          have hfour : (ascii "\r\n\r\n").length = 4 := rfl
          rw [decide_eq_true_eq, List.length_drop] at hle
          rw [List.length_drop] at hline
          refine ⟨max (found + 15 + length + 2)
            (data + 4 + dataLength ((request.drop (found + 15)).take length)), ?_, by omega⟩
          simp only [needed, hlength, hdata, Option.bind_some, if_pos hshort, Option.map_some]
      · cases h.symm.trans (allInBuffer_long hfound hlength hshort)
  · intro h
    rw [← List.take_length (l := request)]
    cases hfound : strstr request (ascii "Content-Length:") with
    | none => exact allInBuffer_take_none hfound _
    | some found =>
      obtain ⟨need, hneed, hle⟩ := h found hfound
      rw [allInBuffer_take hfound hneed (Nat.le_refl _), decide_eq_true (.inr hle)]

/-! ## Segments -/

/-- What the segments put into an empty `recieveBuffer` that keeps all of it. -/
def received (segments : List (List UInt8)) : List UInt8 := segments.flatMap cstring

/-- No segment makes the buffer count as complete. -/
def Waits : List UInt8 → List (List UInt8) → Prop
  | _, [] => True
  | arrived, segment :: segments =>
    HTTPConfig_AllInBuffer (arrived ++ cstring segment) = some false ∧ Waits (arrived ++ cstring segment) segments

variable {fp : FloatingPoint} {clientId : List UInt8} {d : Device}

/-- **The silent part of a run**: the segments are collected and leave everything else alone. -/
theorem react_silent_iff {arrived : List UInt8} {segments : List (List UInt8)} {t : Server} :
    react (HTTPConfig_TCPServerRecieveCallback fp clientId) ⟨d, arrived⟩ segments =
        some (t, List.replicate segments.length none) ↔
      Waits arrived segments ∧ t = ⟨d, arrived ++ received segments⟩ := by
  induction segments generalizing arrived with
  | nil => simp [react, Waits, received, eq_comm]
  | cons segment segments ih =>
    rw [List.length_cons, List.replicate_succ, react_cons_iff]
    constructor
    · rintro ⟨u, hcall, hrest⟩
      obtain ⟨hfalse, rfl⟩ := callback_waits_iff.mp hcall
      obtain ⟨hwaits, rfl⟩ := ih.mp hrest
      refine ⟨⟨hfalse, hwaits⟩, ?_⟩
      simp only [received, List.flatMap_cons, List.append_assoc]
    · rintro ⟨⟨hfalse, hwaits⟩, rfl⟩
      refine ⟨⟨d, arrived ++ cstring segment⟩, callback_waits_iff.mpr ⟨hfalse, rfl⟩, ih.mpr ⟨hwaits, ?_⟩⟩
      simp only [received, List.flatMap_cons, List.append_assoc]

theorem waits_iff {arrived : List UInt8} {segments : List (List UInt8)} :
    Waits arrived segments ↔
      ∀ front, front <+: segments → front ≠ [] → HTTPConfig_AllInBuffer (arrived ++ received front) = some false := by
  induction segments generalizing arrived with
  | nil =>
    refine iff_of_true trivial fun front hfront hne => ?_
    exact absurd (List.prefix_nil.mp hfront) hne
  | cons segment segments ih =>
    rw [Waits, ih]
    constructor
    · rintro ⟨hfirst, hrest⟩ front hfront hne
      obtain ⟨first, front, rfl⟩ := List.exists_cons_of_ne_nil hne
      obtain ⟨rfl, htail⟩ := List.cons_prefix_cons.mp hfront
      rw [received, List.flatMap_cons, ← List.append_assoc]
      cases front with
      | nil => simpa using hfirst
      | cons second front => exact hrest _ htail (List.cons_ne_nil _ _)
    · intro h
      constructor
      · have hfirst := h [segment] (List.cons_prefix_cons.mpr ⟨rfl, List.nil_prefix⟩) (List.cons_ne_nil _ _)
        simpa [received] using hfirst
      · intro front hfront _
        have hmore := h (segment :: front) (List.cons_prefix_cons.mpr ⟨rfl, hfront⟩) (List.cons_ne_nil _ _)
        rw [received, List.flatMap_cons, ← List.append_assoc] at hmore
        exact hmore

/-! ## Segments with a NUL -/

theorem received_of_notMem {segments : List (List UInt8)} (h : 0 ∉ segments.flatten) :
    received segments = segments.flatten := by
  induction segments with
  | nil => rfl
  | cons segment segments ih =>
    rw [List.flatten_cons, List.mem_append, not_or] at h
    rw [received, List.flatMap_cons, List.flatten_cons, cstring_of_notMem h.1, ← ih h.2]
    rfl

/-- The segments up to the one with the first NUL leave what the whole request leaves. -/
theorem received_of_mem {segments : List (List UInt8)} (h : 0 ∈ segments.flatten) :
    ∃ front, front <+: segments ∧ front ≠ [] ∧ received front = cstring segments.flatten := by
  induction segments with
  | nil => cases h
  | cons segment segments ih =>
    by_cases hmem : 0 ∈ segment
    · refine ⟨[segment], List.cons_prefix_cons.mpr ⟨rfl, List.nil_prefix⟩, List.cons_ne_nil _ _, ?_⟩
      rw [List.flatten_cons, cstring_append_of_mem hmem]
      exact List.append_nil _
    · rw [List.flatten_cons, List.mem_append] at h
      obtain ⟨front, hfront, _, hreceived⟩ := ih (h.resolve_left hmem)
      refine ⟨segment :: front, List.cons_prefix_cons.mpr ⟨rfl, hfront⟩, List.cons_ne_nil _ _, ?_⟩
      rw [List.flatten_cons, cstring_append hmem, ← hreceived, received, List.flatMap_cons, cstring_of_notMem hmem]
      rfl

/-! ## Independence of the segments -/

/-- One call on the whole request and the calls on its segments send the same response, once and in
the last call, and leave the same configuration saved. -/
def SplitIndependent (fp : FloatingPoint) (clientId : List UInt8) (d : Device) (segments : List (List UInt8)) : Prop :=
  ∃ response whole split,
    react (HTTPConfig_TCPServerRecieveCallback fp clientId) ⟨d, []⟩ [segments.flatten] = some (whole, [some response]) ∧
    react (HTTPConfig_TCPServerRecieveCallback fp clientId) ⟨d, []⟩ segments =
      some (split, List.replicate (segments.length - 1) none ++ [some response]) ∧
    activeSysCfg split.device.flash = activeSysCfg whole.device.flash

/-- The header with the length lies in the first segment, and the last one is needed. -/
def CutsFit (request : List UInt8) (front : List (List UInt8)) : Prop :=
  ∃ found need, strstr request (ascii "Content-Length:") = some found ∧ needed request (found + 15) = some need ∧
    found + 15 ≤ (front.headD []).length ∧ front.flatten.length < need

/-- The bytes in front of the last segment, as long as no NUL is among them. -/
theorem cstring_front {front : List (List UInt8)} (last : List UInt8) (h : 0 ∉ front.flatten) :
    cstring (front ++ [last]).flatten = front.flatten ++ cstring last := by
  rw [List.flatten_append, List.flatten_singleton, cstring_append h]

section Front

variable {front arrived : List (List UInt8)} {last : List UInt8}

theorem flatten_length_le (h : arrived <+: front) : arrived.flatten.length ≤ front.flatten.length := by
  obtain ⟨rest, rfl⟩ := h
  rw [List.flatten_append, List.length_append]
  exact Nat.le_add_right _ _

/-- What the first of the segments leave in the buffer is a front of the request. -/
theorem received_take (last : List UInt8) (h : 0 ∉ front.flatten) (hfront : arrived <+: front) :
    received arrived = (cstring (front ++ [last]).flatten).take arrived.flatten.length := by
  obtain ⟨rest, rfl⟩ := hfront
  have hmem : 0 ∉ arrived.flatten := fun hzero => h (by simp [hzero])
  rw [cstring_front last h, received_of_notMem hmem, List.flatten_append, List.append_assoc, List.take_left]

theorem allInBuffer_received (h : 0 ∉ front.flatten) (hfront : arrived <+: front)
    (hfound : strstr (cstring (front ++ [last]).flatten) (ascii "Content-Length:") = some found)
    (hneed : needed (cstring (front ++ [last]).flatten) (found + 15) = some need) :
    HTTPConfig_AllInBuffer (received arrived) =
      some (decide (arrived.flatten.length < found + 15 ∨ need ≤ arrived.flatten.length)) := by
  rw [received_take last h hfront, allInBuffer_take hfound hneed]
  have hle := flatten_length_le hfront
  rw [cstring_front last h, List.length_append]
  omega

variable (hcomplete : Complete (cstring (front ++ [last]).flatten))
include hcomplete

/-- A server that waits for the last segment has not come to a NUL before. -/
theorem waits_notMem (hwaits : Waits [] front) : 0 ∉ front.flatten := by
  intro hmem
  obtain ⟨full, hfront, hne, hreceived⟩ := received_of_mem hmem
  have hfalse := waits_iff.mp hwaits full hfront hne
  rw [List.flatten_append, cstring_append_of_mem hmem, ← hreceived, ← allInBuffer_iff] at hcomplete
  exact absurd (hfalse.symm.trans hcomplete) (by simp)

theorem cutsFit_notMem (hcuts : CutsFit (cstring (front ++ [last]).flatten) front) : 0 ∉ front.flatten := by
  intro hmem
  obtain ⟨found, need, hfound, hneed, _, hlast⟩ := hcuts
  obtain ⟨need', hneed', hle⟩ := hcomplete found hfound
  obtain rfl : need = need' := Option.some.inj (hneed.symm.trans hneed')
  rw [List.flatten_append, cstring_append_of_mem hmem] at hle
  have hshort : (cstring front.flatten).length ≤ front.flatten.length := (List.takeWhile_prefix _).length_le
  omega

theorem cutsFit_of_waits (hne : front ≠ []) (hwaits : Waits [] front) :
    CutsFit (cstring (front ++ [last]).flatten) front := by
  have hmem := waits_notMem hcomplete hwaits
  obtain ⟨first, rest, rfl⟩ := List.exists_cons_of_ne_nil hne
  have hfirst : [first] <+: first :: rest := List.cons_prefix_cons.mpr ⟨rfl, List.nil_prefix⟩
  cases hfound : strstr (cstring (first :: rest ++ [last]).flatten) (ascii "Content-Length:") with
  | none =>
    have hfalse := waits_iff.mp hwaits [first] hfirst (List.cons_ne_nil _ _)
    rw [List.nil_append, received_take last hmem hfirst, allInBuffer_take_none hfound] at hfalse
    cases hfalse
  | some found =>
    obtain ⟨need, hneed, _⟩ := hcomplete found hfound
    have hcut {arrived : List (List UInt8)} (hfront : arrived <+: first :: rest) (hne : arrived ≠ []) :
        ¬ (arrived.flatten.length < found + 15 ∨ need ≤ arrived.flatten.length) := by
      have hfalse := waits_iff.mp hwaits arrived hfront hne
      rw [List.nil_append, allInBuffer_received hmem hfront hfound hneed] at hfalse
      exact of_decide_eq_false (Option.some.inj hfalse)
    have hstart := hcut hfirst (List.cons_ne_nil _ _)
    have hend := hcut (List.prefix_refl (first :: rest)) (List.cons_ne_nil _ _)
    rw [List.flatten_singleton] at hstart
    exact ⟨found, need, hfound, hneed, by rw [List.headD_cons]; omega, by omega⟩

theorem waits_of_cutsFit (hcuts : CutsFit (cstring (front ++ [last]).flatten) front) : Waits [] front := by
  have hmem := cutsFit_notMem hcomplete hcuts
  obtain ⟨found, need, hfound, hneed, hstart, hend⟩ := hcuts
  refine waits_iff.mpr fun arrived hfront hne => ?_
  rw [List.nil_append, allInBuffer_received hmem hfront hfound hneed, decide_eq_false]
  have hle := flatten_length_le hfront
  obtain ⟨first, rest, rfl⟩ := List.exists_cons_of_ne_nil hne
  obtain ⟨more, rfl⟩ := hfront
  rw [List.cons_append, List.headD_cons] at hstart
  rw [List.flatten_cons, List.length_append] at hle ⊢
  omega

end Front

theorem react_whole_iff {request response : List UInt8} {whole : Server} :
    react (HTTPConfig_TCPServerRecieveCallback fp clientId) ⟨d, []⟩ [request] = some (whole, [some response]) ↔
      Complete (cstring request) ∧
        answer fp clientId (cstring request) d = some (whole.device, response) ∧ whole.recieveBuffer = [] := by
  rw [react_cons_iff, ← allInBuffer_iff]
  constructor
  · rintro ⟨t, hcall, hnil⟩
    obtain rfl : t = whole := (Prod.mk.inj (Option.some.inj hnil)).1
    exact callback_sends_iff.mp hcall
  · intro h
    exact ⟨whole, callback_sends_iff.mpr h, rfl⟩

theorem react_split_iff {front : List (List UInt8)} {last response : List UInt8} {split : Server} :
    react (HTTPConfig_TCPServerRecieveCallback fp clientId) ⟨d, []⟩ (front ++ [last]) =
        some (split, List.replicate front.length none ++ [some response]) ↔
      Waits [] front ∧ Complete (received front ++ cstring last) ∧
        answer fp clientId (received front ++ cstring last) d = some (split.device, response) ∧
        split.recieveBuffer = [] := by
  rw [react_concat_iff, ← allInBuffer_iff]
  constructor
  · rintro ⟨t, hfront, hlast⟩
    obtain ⟨hwaits, rfl⟩ := react_silent_iff.mp hfront
    exact ⟨hwaits, callback_sends_iff.mp hlast⟩
  · rintro ⟨hwaits, hsends⟩
    exact ⟨⟨d, received front⟩, react_silent_iff.mpr ⟨hwaits, rfl⟩, callback_sends_iff.mpr hsends⟩

/-- The segments of a request that is answered as a whole are answered as it is, when nothing is
answered before the last of them. -/
theorem split_of_whole {front : List (List UInt8)} {last response : List UInt8} {whole : Server}
    (hmem : 0 ∉ front.flatten) (hwaits : Waits [] front)
    (hwhole : react (HTTPConfig_TCPServerRecieveCallback fp clientId) ⟨d, []⟩ [(front ++ [last]).flatten] =
      some (whole, [some response])) :
    react (HTTPConfig_TCPServerRecieveCallback fp clientId) ⟨d, []⟩ (front ++ [last]) =
      some (whole, List.replicate front.length none ++ [some response]) := by
  have hreceived : received front ++ cstring last = cstring (front ++ [last]).flatten := by
    rw [cstring_front last hmem, received_of_notMem hmem]
  rw [react_split_iff, hreceived]
  exact ⟨hwaits, react_whole_iff.mp hwhole⟩

theorem SplitIndependent.conditions {segments : List (List UInt8)} (h : SplitIndependent fp clientId d segments) :
    Answerable (cstring segments.flatten) ∧ Complete (cstring segments.flatten) ∧
      (segments.length = 1 ∨ 1 < segments.length ∧ CutsFit (cstring segments.flatten) segments.dropLast) := by
  obtain ⟨response, whole, split, hwhole, hsplit, _⟩ := h
  obtain ⟨hcomplete, hanswer, _⟩ := react_whole_iff.mp hwhole
  refine ⟨(answer_isSome fp clientId _ d).mp (Option.isSome_of_eq_some hanswer), hcomplete, ?_⟩
  obtain rfl | ⟨front, last, rfl⟩ := List.eq_nil_or_concat segments
  · simp [react] at hsplit
  rw [List.concat_eq_append, List.length_append, List.length_singleton, Nat.add_sub_cancel] at hsplit
  rw [List.concat_eq_append] at hcomplete
  rw [List.concat_eq_append, List.length_append, List.length_singleton, List.dropLast_concat]
  obtain ⟨hwaits, _⟩ := react_split_iff.mp hsplit
  by_cases hne : front = []
  · exact .inl (by rw [hne]; rfl)
  · have hpos := List.length_pos_iff.mpr hne
    exact .inr ⟨by omega, cutsFit_of_waits hcomplete hne hwaits⟩

/-- **When the server does not depend on the segments**: the request, up to its first NUL, can be
answered and is complete, and either it comes in one segment, or the first segment holds its
"Content-Length:" and the last one is needed to complete it. -/
theorem split_independent_iff (fp : FloatingPoint) (clientId : List UInt8) (d : Device) (segments : List (List UInt8)) :
    SplitIndependent fp clientId d segments ↔
      Answerable (cstring segments.flatten) ∧ Complete (cstring segments.flatten) ∧
        (segments.length = 1 ∨ 1 < segments.length ∧ CutsFit (cstring segments.flatten) segments.dropLast) := by
  refine ⟨SplitIndependent.conditions, ?_⟩
  rintro ⟨hanswerable, hcomplete, hcuts⟩
  have hsome := (answer_isSome fp clientId (cstring segments.flatten) d).mpr hanswerable
  obtain ⟨⟨device, response⟩, hanswer⟩ := Option.isSome_iff_exists.mp hsome
  have hwhole : react (HTTPConfig_TCPServerRecieveCallback fp clientId) ⟨d, []⟩ [segments.flatten] =
      some (⟨device, []⟩, [some response]) := react_whole_iff.mpr ⟨hcomplete, hanswer, rfl⟩
  refine ⟨response, ⟨device, []⟩, ⟨device, []⟩, hwhole, ?_, rfl⟩
  obtain hone | ⟨hmore, hcuts⟩ := hcuts
  · obtain ⟨last, rfl⟩ := List.length_eq_one_iff.mp hone
    exact split_of_whole (show 0 ∉ ([] : List (List UInt8)).flatten by simp) trivial hwhole
  · obtain ⟨front, last, rfl⟩ : ∃ front last, segments = front ++ [last] :=
      ⟨_, _, (List.dropLast_append_getLast (List.ne_nil_of_length_pos (Nat.zero_lt_of_lt hmore))).symm⟩
    rw [List.dropLast_concat] at hcuts
    rw [List.length_append, List.length_singleton, Nat.add_sub_cancel]
    exact split_of_whole (cutsFit_notMem hcomplete hcuts) (waits_of_cutsFit hcomplete hcuts) hwhole

/-! ## A request cut in its header -/

/-- A request as a client sends it. -/
structure Request where
  line : List UInt8
  headers : List (List UInt8)
  body : List UInt8

def Request.bytes (r : Request) : List UInt8 :=
  r.line ++ ascii "\r\n" ++ r.headers.flatMap (· ++ ascii "\r\n") ++ ascii "\r\n" ++ r.body

/-- GET or POST of the page, lines that end where they seem to, and one header with the length. -/
structure Request.WellFormed (r : Request) : Prop where
  line : r.line = ascii "GET / HTTP/1.1" ∨ r.line = ascii "POST / HTTP/1.1"
  headers : ∀ header ∈ r.headers, header ≠ [] ∧ 13 ∉ header ∧ 10 ∉ header
  length : r.headers.filter (ascii "Content-Length:" <+: ·) =
    [ascii "Content-Length: " ++ printDecimal r.body.length]

/-- The first segment ends within "Content-Length:". The request counts as complete then, and its
form is looked for behind an empty line that has not arrived. -/
theorem split_in_header :
    let request : Request := ⟨ascii "POST / HTTP/1.1", [ascii "Content-Length: 12"], ascii "sta_ssid=net"⟩
    let segments := [ascii "POST / HTTP/1.1\r\nContent-Le", ascii "ngth: 12\r\n\r\nsta_ssid=net"]
    request.WellFormed ∧ segments.flatten = request.bytes ∧ (∀ segment ∈ segments, segment ≠ []) ∧
      ∀ fp clientId d, ¬ SplitIndependent fp clientId d segments := by
  intro request segments
  refine ⟨⟨.inr rfl, by decide, by decide⟩, by decide, by decide, ?_⟩
  intro fp clientId d h
  obtain ⟨_, _, hone | ⟨_, hcuts⟩⟩ := h.conditions
  · cases hone
  · obtain ⟨found, need, hfound, _, hstart, _⟩ := hcuts
    have hfound' : strstr (cstring segments.flatten) (ascii "Content-Length:") = some 17 := by decide +kernel
    obtain rfl : found = 17 := Option.some.inj (hfound.symm.trans hfound')
    exact absurd hstart (by decide)

end LightSleepMqtt.Http
