import Mathlib.Data.List.Basic
import Mathlib.Data.List.Infix

/-! Delimited frames over an arbitrary alphabet: a frame opens with `start`, closes with
`stop`, and every delimiter inside the payload is sent as `esc` followed by its mask.
A stream may hold cut frames between whole ones; since a cut frame never contains `stop`
and `start` resets the receiver, the receiver still finds exactly the whole frames. -/
namespace ByteStuffing
set_option autoImplicit false

/-- Three distinct delimiters and an involution that takes each of them off the delimiters. -/
structure Delimiters (α : Type) where
  esc : α
  start : α
  stop : α
  mask : α → α
  esc_ne_start : esc ≠ start
  esc_ne_stop : esc ≠ stop
  start_ne_stop : start ≠ stop
  mask_mask : ∀ b, mask (mask b) = b
  mask_esc : mask esc ≠ esc ∧ mask esc ≠ start ∧ mask esc ≠ stop
  mask_start : mask start ≠ esc ∧ mask start ≠ start ∧ mask start ≠ stop
  mask_stop : mask stop ≠ esc ∧ mask stop ≠ start ∧ mask stop ≠ stop

variable {α : Type} [DecidableEq α] (d : Delimiters α)

/-- The bytes that must not appear unescaped in a payload. -/
def Delimiters.Special (b : α) : Prop := b = d.esc ∨ b = d.start ∨ b = d.stop

instance (b : α) : Decidable (d.Special b) :=
  inferInstanceAs (Decidable (b = d.esc ∨ b = d.start ∨ b = d.stop))

omit [DecidableEq α] in
theorem Delimiters.mask_special {b : α} (h : d.Special b) : ¬ d.Special (d.mask b) := by
  unfold Delimiters.Special
  obtain rfl | rfl | rfl := h
  · have := d.mask_esc; tauto
  · have := d.mask_start; tauto
  · have := d.mask_stop; tauto

/-- One payload byte on the wire. -/
def escape (b : α) : List α := if d.Special b then [d.esc, d.mask b] else [b]

/-- A payload on the wire, without its delimiters. -/
def stuffed (p : List α) : List α := p.flatMap (escape d)

def frame (p : List α) : List α := d.start :: (stuffed d p ++ [d.stop])

@[simp] theorem stuffed_nil : stuffed d [] = [] := rfl

@[simp] theorem stuffed_cons (b : α) (p : List α) :
    stuffed d (b :: p) = escape d b ++ stuffed d p := rfl

theorem escape_length (b : α) : (escape d b).length = if d.Special b then 2 else 1 := by
  unfold escape
  split <;> rfl

theorem stuffed_length (p : List α) :
    (stuffed d p).length = p.length + p.countP (fun b => decide (d.Special b)) := by
  induction p with
  | nil => rfl
  | cons b p ih =>
    rw [stuffed_cons, List.length_append, ih, escape_length, List.countP_cons, List.length_cons]
    by_cases h : d.Special b
    · simp only [h, if_true, decide_true]
      omega
    · simp only [h, if_false, decide_false, Bool.false_eq_true]
      omega

theorem frame_length (p : List α) :
    (frame d p).length = 2 + p.length + p.countP (fun b => decide (d.Special b)) := by
  unfold frame
  rw [List.length_cons, List.length_append, stuffed_length, List.length_singleton]
  omega

theorem stop_not_mem_escape (b : α) : d.stop ∉ escape d b := by
  unfold escape
  by_cases h : d.Special b
  · have hm := d.mask_special h
    rw [if_pos h]
    intro hs
    obtain he | he := List.mem_pair.mp hs
    · exact d.esc_ne_stop he.symm
    · exact hm (Or.inr (Or.inr he.symm))
  · rw [if_neg h]
    intro hs
    exact h (Or.inr (Or.inr (List.mem_singleton.mp hs).symm))

theorem stop_not_mem_stuffed (p : List α) : d.stop ∉ stuffed d p := by
  intro h
  obtain ⟨b, _, hb⟩ := List.mem_flatMap.mp h
  exact stop_not_mem_escape d b hb

theorem stop_not_mem_cut (p : List α) {n : ℕ} (hn : n < (frame d p).length) :
    d.stop ∉ (frame d p).take n := by
  have hframe : frame d p = (d.start :: stuffed d p) ++ [d.stop] := rfl
  have hlen : (frame d p).length = (d.start :: stuffed d p).length + 1 := by
    rw [hframe, List.length_append, List.length_singleton]
  rw [hframe, List.take_append_of_le_length (by omega)]
  intro h
  obtain he | he := List.mem_cons.mp (List.mem_of_mem_take h)
  · exact d.start_ne_stop he.symm
  · exact stop_not_mem_stuffed d p he

/-! ## The receiver -/

/-- The receiver between two bytes: whether a frame is open, whether the last byte was an
escape, and the payload so far. -/
structure Receiver (α : Type) where
  opened : Bool
  escaped : Bool
  payload : List α

/-- Take one byte; the second component says whether it completed a frame. -/
def Receiver.feed (s : Receiver α) (b : α) : Receiver α × Bool :=
  if b = d.esc then ({ s with escaped := true }, false)
  else if b = d.start then (⟨true, false, []⟩, false)
  else if b = d.stop then ({ s with opened := false }, true)
  else if s.opened then
    ({ s with escaped := false, payload := s.payload ++ [if s.escaped then d.mask b else b] }, false)
  else (s, false)

/-- Feed bytes until one completes a frame; what is left of the stream is returned with it. -/
def Receiver.run (s : Receiver α) : List α → Option (Receiver α × List α)
  | [] => none
  | b :: bs =>
    match s.feed d b with
    | (s', true) => some (s', bs)
    | (s', false) => Receiver.run s' bs

theorem Receiver.feed_not_done {s : Receiver α} {b : α} (hb : b ≠ d.stop) : (s.feed d b).2 = false := by
  unfold Receiver.feed
  split_ifs <;> rfl

theorem Receiver.run_cons_not_done {s : Receiver α} {b : α} (hb : b ≠ d.stop) (bs : List α) :
    s.run d (b :: bs) = (s.feed d b).1.run d bs := by
  have h := Receiver.feed_not_done d (s := s) hb
  rw [Receiver.run]
  rcases hf : s.feed d b with ⟨s', done⟩
  rw [hf] at h
  subst h
  rfl

theorem Receiver.run_junk (j bs : List α) (hj : d.stop ∉ j) (s : Receiver α) :
    ∃ s' : Receiver α, s.run d (j ++ bs) = s'.run d bs := by
  induction j generalizing s with
  | nil => exact ⟨s, rfl⟩
  | cons b j ih =>
    rw [List.mem_cons, not_or] at hj
    rw [List.cons_append, Receiver.run_cons_not_done d (Ne.symm hj.1)]
    exact ih hj.2 _

theorem Receiver.run_no_stop (j : List α) (hj : d.stop ∉ j) (s : Receiver α) : s.run d j = none := by
  obtain ⟨s', h⟩ := Receiver.run_junk d j [] hj s
  rw [List.append_nil] at h
  rw [h, Receiver.run]

theorem Receiver.run_escape (b : α) (bs p : List α) :
    (⟨true, false, p⟩ : Receiver α).run d (escape d b ++ bs) =
      (⟨true, false, p ++ [b]⟩ : Receiver α).run d bs := by
  unfold escape
  by_cases h : d.Special b
  · have hm := d.mask_special h
    simp only [Delimiters.Special, not_or] at hm
    obtain ⟨hme, hms, hmt⟩ := hm
    rw [if_pos h, List.cons_append, List.cons_append, List.nil_append,
      Receiver.run_cons_not_done d d.esc_ne_stop, Receiver.run_cons_not_done d hmt]
    simp only [Receiver.feed, if_true, if_neg hme, if_neg hms, if_neg hmt, d.mask_mask]
  · have hs := h
    simp only [Delimiters.Special, not_or] at hs
    obtain ⟨hbe, hbs, hbt⟩ := hs
    rw [if_neg h, List.cons_append, List.nil_append, Receiver.run_cons_not_done d hbt]
    simp only [Receiver.feed, if_true, if_neg hbe, if_neg hbs, if_neg hbt, Bool.false_eq_true, if_false]

theorem Receiver.run_stuffed (q bs p : List α) :
    (⟨true, false, p⟩ : Receiver α).run d (stuffed d q ++ bs) =
      (⟨true, false, p ++ q⟩ : Receiver α).run d bs := by
  induction q generalizing p with
  | nil => rw [stuffed_nil, List.nil_append, List.append_nil]
  | cons b q ih =>
    rw [stuffed_cons, List.append_assoc, Receiver.run_escape, ih, List.append_assoc,
      List.singleton_append]

/-- Whatever state it starts in, the receiver returns the payload of the next whole frame. -/
theorem Receiver.run_frame (s : Receiver α) (p bs : List α) :
    s.run d (frame d p ++ bs) = some (⟨false, false, p⟩, bs) := by
  unfold frame
  rw [List.cons_append, Receiver.run_cons_not_done d d.start_ne_stop, List.append_assoc]
  have hstart : (s.feed d d.start).1 = ⟨true, false, []⟩ := by
    simp [Receiver.feed, d.esc_ne_start.symm]
  rw [hstart, Receiver.run_stuffed, List.nil_append, List.singleton_append, Receiver.run]
  simp [Receiver.feed, d.esc_ne_stop.symm, d.start_ne_stop.symm]

theorem Receiver.run_junk_frame (s : Receiver α) (j p bs : List α) (hj : d.stop ∉ j) :
    s.run d (j ++ frame d p ++ bs) = some (⟨false, false, p⟩, bs) := by
  obtain ⟨s', h⟩ := Receiver.run_junk d j (frame d p ++ bs) hj s
  rw [List.append_assoc, h, Receiver.run_frame]

/-! ## Streams with cut frames -/

/-- `Carries d bs ps`: the whole frames in `bs` are those of `ps`, in order; the stretches
between them hold no `stop`. -/
inductive Carries : List α → List (List α) → Prop
  | junk {j : List α} (hj : d.stop ∉ j) : Carries j []
  | whole {j p bs : List α} {ps : List (List α)} (hj : d.stop ∉ j) (h : Carries bs ps) :
      Carries (j ++ frame d p ++ bs) (p :: ps)

theorem Carries.nil : Carries d [] [] := Carries.junk List.not_mem_nil

variable {d}

theorem Carries.append_junk {bs : List α} {ps : List (List α)} (h : Carries d bs ps) {j : List α}
    (hj : d.stop ∉ j) : Carries d (bs ++ j) ps := by
  induction h with
  | junk hi =>
    apply Carries.junk
    rw [List.mem_append, not_or]
    exact ⟨hi, hj⟩
  | whole hi _ ih =>
    rw [List.append_assoc]
    exact Carries.whole hi ih

theorem Carries.append_frame {bs : List α} {ps : List (List α)} (h : Carries d bs ps) (p : List α) :
    Carries d (bs ++ frame d p) (ps ++ [p]) := by
  induction h with
  | junk hi =>
    have := Carries.whole (p := p) hi (Carries.nil d)
    rwa [List.append_nil] at this
  | whole hi _ ih =>
    rw [List.append_assoc]
    exact Carries.whole hi ih

theorem Carries.of_cons {bs p : List α} {ps : List (List α)} (h : Carries d bs (p :: ps)) :
    ∃ j rest, bs = j ++ frame d p ++ rest ∧ d.stop ∉ j ∧ Carries d rest ps := by
  cases h with
  | whole hj h => exact ⟨_, _, rfl, hj, h⟩

theorem Carries.of_nil {bs : List α} (h : Carries d bs []) : d.stop ∉ bs := by
  cases h with
  | junk hj => exact hj

/-! ## Streams in pieces -/

section
variable (d)

/-- Feed a whole stream; the payloads are those of the frames it completes. -/
def Receiver.feedAll (s : Receiver α) : List α → Receiver α × List (List α)
  | [] => (s, [])
  | b :: bs =>
    let fed := s.feed d b
    let rest := Receiver.feedAll fed.1 bs
    (rest.1, (if fed.2 then [fed.1.payload] else []) ++ rest.2)

/-- Feeding a stream is running to its first frame and feeding the rest. -/
theorem Receiver.feedAll_run (s : Receiver α) (bs : List α) : (s.feedAll d bs).2 =
    match s.run d bs with
    | none => []
    | some (s', rest) => s'.payload :: (s'.feedAll d rest).2 := by
  induction bs generalizing s with
  | nil => rfl
  | cons b bs ih =>
    rw [Receiver.feedAll, Receiver.run]
    rcases s.feed d b with ⟨s', done⟩
    cases done with
    | true => rfl
    | false => exact ih s'

end

/-- The receiver gets what the stream carries, in whatever state it starts. -/
theorem Carries.feedAll {bs : List α} {ps : List (List α)} (h : Carries d bs ps) (s : Receiver α) :
    (s.feedAll d bs).2 = ps := by
  induction h generalizing s with
  | junk hj => rw [Receiver.feedAll_run, Receiver.run_no_stop d _ hj]
  | whole hj _ ih =>
    rw [Receiver.feedAll_run, Receiver.run_junk_frame d s _ _ _ hj]
    exact congrArg _ (ih _)

variable (d)

/-- The lengths of the stretches that end in `stop`; the first is counted from `n`. -/
def spans : ℕ → List α → List ℕ
  | _, [] => []
  | n, b :: bs => if b = d.stop then (n + 1) :: spans 0 bs else spans (n + 1) bs

theorem spans_junk (j bs : List α) (hj : d.stop ∉ j) (n : ℕ) :
    spans d n (j ++ bs) = spans d (n + j.length) bs := by
  induction j generalizing n with
  | nil => rfl
  | cons b j ih =>
    rw [List.mem_cons, not_or] at hj
    rw [List.cons_append, spans, if_neg (Ne.symm hj.1), ih hj.2, List.length_cons]
    congr 1
    omega

theorem spans_frame (j p bs : List α) (hj : d.stop ∉ j) (n : ℕ) :
    spans d n (j ++ frame d p ++ bs) = (n + j.length + (frame d p).length) :: spans d 0 bs := by
  have hbody : d.stop ∉ j ++ (d.start :: stuffed d p) := by
    rw [List.mem_append, List.mem_cons, not_or, not_or]
    exact ⟨hj, d.start_ne_stop.symm, stop_not_mem_stuffed d p⟩
  have hsplit : j ++ frame d p ++ bs = (j ++ (d.start :: stuffed d p)) ++ d.stop :: bs := by
    simp [frame]
  rw [hsplit, spans_junk d _ _ hbody, spans, if_pos rfl]
  simp only [frame, List.length_append, List.length_cons, List.length_nil]
  congr 1
  omega

theorem spans_no_stop (j : List α) (hj : d.stop ∉ j) (n : ℕ) : spans d n j = [] := by
  have h := spans_junk d j [] hj n
  rwa [List.append_nil] at h

theorem spans_append_junk (bs j : List α) (hj : d.stop ∉ j) (n : ℕ) :
    spans d n (bs ++ j) = spans d n bs := by
  induction bs generalizing n with
  | nil => exact spans_no_stop d j hj n
  | cons b bs ih => simp only [List.cons_append, spans, ih]

variable {d}

theorem Carries.frames_le {bs : List α} {ps : List (List α)} (h : Carries d bs ps) :
    (ps.flatMap (frame d)).length ≤ bs.length := by
  induction h with
  | junk _ => exact Nat.zero_le _
  | whole _ _ ih =>
    simp only [List.flatMap_cons, List.length_append]
    omega

theorem Carries.length_le {bs : List α} {ps : List (List α)} (h : Carries d bs ps) :
    2 * ps.length ≤ bs.length := by
  induction h with
  | junk _ => exact Nat.zero_le _
  | whole _ _ ih =>
    simp only [List.length_cons, List.length_append, frame_length]
    omega

/-- The stretch of a frame and the frames behind it do not overlap. -/
theorem Carries.span_add_frames_le {bs : List α} {ps : List (List α)} (h : Carries d bs ps) {i n : ℕ}
    (hi : (spans d 0 bs)[i]? = some n) : n + ((ps.drop (i + 1)).flatMap (frame d)).length ≤ bs.length := by
  induction h generalizing i with
  | junk hj => simp [spans_no_stop d _ hj] at hi
  | whole hj h ih =>
    rw [spans_frame d _ _ _ hj] at hi
    rw [List.drop_succ_cons, List.length_append, List.length_append]
    cases i with
    | zero =>
      have hle := h.frames_le
      simp only [List.getElem?_cons_zero, Option.some.injEq] at hi
      rw [List.drop_zero]
      omega
    | succ i =>
      have hle := ih (by simpa using hi)
      omega

end ByteStuffing
