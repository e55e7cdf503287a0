import LightSleepMqtt.Message.WellFormed

/-! Decoding a segment that lies at the front of a larger buffer. The topic and the payload are
read with the length of the segment and do not depend on what follows it; `mqtt_get_id` is given
the length of the buffer, and `identifierEnd` is the place up to which it reads there. -/
namespace LightSleepMqtt.Message
set_option autoImplicit false

/-! ## The length loop on the front of a buffer -/

theorem lengthLoop_le (bs : List UInt8) (i totlen : ℕ) : i ≤ (lengthLoop bs i totlen).1 := by
  induction bs generalizing i totlen with
  | nil => exact Nat.le_refl i
  | cons b bs ih =>
    rw [lengthLoop_cons]
    split
    · exact Nat.le_succ i
    · exact Nat.le_trans (Nat.le_succ i) (ih _ _)

theorem lengthLoop_lt {bs : List UInt8} (h : bs ≠ []) (i totlen : ℕ) : i < (lengthLoop bs i totlen).1 := by
  cases bs with
  | nil => exact absurd rfl h
  | cons b bs =>
    rw [lengthLoop_cons]
    split
    · exact Nat.lt_succ_self i
    · exact lengthLoop_le bs (i + 1) _

theorem lengthLoop_zero (bs : List UInt8) (i totlen : ℕ) : lengthLoop (0 :: bs) i totlen = (i + 1, totlen) := by
  rw [lengthLoop_cons, if_pos (by decide)]
  simp [shl]

/-- The loop stops within the front, or goes on behind it as if it started there. -/
theorem lengthLoop_append (bs : List UInt8) (i totlen : ℕ) :
    (∃ r : ℕ × ℕ, r.1 ≤ i + bs.length ∧ ∀ fill, lengthLoop (bs ++ fill) i totlen = r) ∨
      ∃ n, ∀ fill, lengthLoop (bs ++ fill) i totlen = lengthLoop fill (i + bs.length) n := by
  induction bs generalizing i totlen with
  | nil => exact .inr ⟨totlen, fun fill => rfl⟩
  | cons b bs ih =>
    simp only [List.cons_append, lengthLoop_cons, List.length_cons]
    split
    · exact .inl ⟨_, by simp only; omega, fun fill => rfl⟩
    · rw [Nat.add_comm bs.length 1, ← Nat.add_assoc]
      exact ih (i + 1) _

variable {known fill : List UInt8} {B : ℕ}

theorem readLength_front (hpos : 0 < known.length) :
    (∃ r : ℕ × ℕ, r.1 ≤ known.length ∧ ∀ fill, (known ++ fill).length = B → readLength (known ++ fill) B = r) ∨
      ∃ n, ∀ fill, (known ++ fill).length = B → readLength (known ++ fill) B = lengthLoop fill known.length n := by
  obtain ⟨b, bs, rfl⟩ : ∃ b bs, known = b :: bs := List.exists_cons_of_length_pos hpos
  have hread (fill : List UInt8) (hB : (b :: bs ++ fill).length = B) :
      readLength (b :: bs ++ fill) B = lengthLoop (bs ++ fill) 1 0 := by
    rw [readLength, List.take_of_length_le (by omega)]
    rfl
  rw [List.length_cons, Nat.add_comm bs.length 1]
  obtain ⟨r, hr, hloop⟩ | ⟨n, hloop⟩ := lengthLoop_append bs 1 0
  · exact .inl ⟨r, hr, fun fill hB => (hread fill hB).trans (hloop fill)⟩
  · exact .inr ⟨n, fun fill hB => (hread fill hB).trans (hloop fill)⟩

/-! ## Topic and payload -/

theorem wordAt_append_left (fill : List UInt8) {i : ℕ} (h : i + 2 ≤ known.length) :
    wordAt (known ++ fill) i = wordAt known i := by
  rw [wordAt, byteAt_append_left fill (by omega), byteAt_append_left fill (by omega), wordAt]

theorem readLength_append (known fill : List UInt8) :
    readLength (known ++ fill) known.length = readLength known known.length := by
  rw [readLength, List.take_left, readLength, List.take_length]

theorem mqtt_get_publish_topic_append (known fill : List UInt8) :
    mqtt_get_publish_topic (known ++ fill) known.length = mqtt_get_publish_topic known known.length := by
  rw [mqtt_get_publish_topic, readLength_append, mqtt_get_publish_topic]
  simp only
  split
  · rfl
  · rw [wordAt_append_left fill (by omega)]

theorem mqtt_get_publish_data_append (hpos : 0 < known.length) (fill : List UInt8) :
    mqtt_get_publish_data (known ++ fill) known.length = mqtt_get_publish_data known known.length := by
  have hqos := mqtt_get_qos_append (List.length_pos_iff.mp hpos) fill
  rw [mqtt_get_publish_data, readLength_append, mqtt_get_publish_data, hqos]
  simp only
  split
  · rfl
  · rw [wordAt_append_left fill (by omega)]

theorem mqtt_get_publish_topic_inside {buffer : List UInt8} {length j : ℕ}
    (h : (mqtt_get_publish_topic buffer length).1 = some j) : j + (mqtt_get_publish_topic buffer length).2 ≤ length := by
  revert h
  simp only [mqtt_get_publish_topic]
  split
  · intro h
    cases h
  · split
    · intro h
      cases h
    · intro h
      obtain rfl := Option.some.inj h
      simp only
      omega

theorem mqtt_get_publish_data_inside {buffer : List UInt8} {length j : ℕ}
    (h : (mqtt_get_publish_data buffer length).1 = some j) : j + (mqtt_get_publish_data buffer length).2 ≤ length := by
  have hnone {n : ℕ} (h : ((none, 0) : Option ℕ × ℕ).1 = some j) : j + n ≤ length := by cases h
  revert h
  simp only [mqtt_get_publish_data]
  by_cases h2 : (readLength buffer length).1 + 2 ≥ length
  · rw [if_pos h2]
    exact hnone
  rw [if_neg h2]
  generalize (readLength buffer length).1 + 2 + wordAt buffer (readLength buffer length).1 = p
  by_cases hp : p ≥ length
  · rw [if_pos hp]
    exact hnone
  rw [if_neg hp]
  by_cases hid : mqtt_get_qos buffer > 0 ∧ p + 2 ≥ length
  · rw [if_pos hid]
    exact hnone
  rw [if_neg hid]
  have hstart : (if mqtt_get_qos buffer > 0 then p + 2 else p) ≤ length := by
    split <;> omega
  generalize (if mqtt_get_qos buffer > 0 then p + 2 else p) = start at hstart ⊢
  generalize toInt32 ((readLength buffer length).2 + (readLength buffer length).1) = total
  split
  · exact hnone
  split
  all_goals
    intro h
    obtain rfl := Option.some.inj h
    simp only
    omega

/-! ## The identifier -/

/-- The packet is one whose identifier `mqtt_get_id` looks for and the handler answers. -/
def Identified (buffer : List UInt8) : Prop :=
  mqtt_get_type buffer = MQTT_MSG_TYPE_PUBLISH ∧ 0 < mqtt_get_qos buffer ∨
    mqtt_get_type buffer = MQTT_MSG_TYPE_PUBREC ∨ mqtt_get_type buffer = MQTT_MSG_TYPE_PUBREL

/-- The index behind the identifier as `mqtt_get_id` computes it; `none` where it sees that there
is none. -/
def identifierEnd (buffer : List UInt8) (length : ℕ) : Option ℕ :=
  if mqtt_get_type buffer = MQTT_MSG_TYPE_PUBLISH then
    some ((readLength buffer length).1 + 2 + wordAt buffer (readLength buffer length).1 + 2)
  else if byteAt buffer 1 &&& 0x80 = 0 then some 4 else none

theorem mqtt_get_id_eq {buffer : List UInt8} {length : ℕ} (h : Identified buffer) (hlen : 5 ≤ length) :
    mqtt_get_id buffer length =
      (identifierEnd buffer length).elim 0 fun e => if length ≤ e then 0 else wordAt buffer (e - 2) := by
  rw [mqtt_get_id, if_neg (by omega), identifierEnd]
  obtain ⟨htype, hqos⟩ | hshort := h
  · simp only [htype, if_true, if_pos hqos, Option.elim_some, Nat.add_sub_cancel]
    split_ifs <;> first | rfl | omega
  · have hne : mqtt_get_type buffer ≠ MQTT_MSG_TYPE_PUBLISH := by
      obtain htype | htype := hshort <;> rw [htype] <;> decide
    have hacks : mqtt_get_type buffer = MQTT_MSG_TYPE_PUBACK ∨ mqtt_get_type buffer = MQTT_MSG_TYPE_PUBREC ∨
        mqtt_get_type buffer = MQTT_MSG_TYPE_PUBREL ∨ mqtt_get_type buffer = MQTT_MSG_TYPE_PUBCOMP ∨
        mqtt_get_type buffer = MQTT_MSG_TYPE_SUBACK ∨ mqtt_get_type buffer = MQTT_MSG_TYPE_UNSUBACK ∨
        mqtt_get_type buffer = MQTT_MSG_TYPE_SUBSCRIBE := by
      obtain htype | htype := hshort
      · exact .inr (.inl htype)
      · exact .inr (.inr (.inl htype))
    simp only [if_neg hne, if_pos hacks]
    by_cases hbit : byteAt buffer 1 &&& 0x80 = 0
    · rw [if_pos ⟨by omega, hbit⟩, if_pos hbit, Option.elim_some, if_neg (by omega)]
    · rw [if_neg fun hand => hbit hand.2, if_neg hbit, Option.elim_none]

/-- The known bytes with zeros up to the length of the buffer. -/
def zeroPadded (B : ℕ) (known : List UInt8) : List UInt8 := known ++ List.replicate (B - known.length) 0

/-- The identifier, looked for with zeros behind the known bytes, lies within them or does not fit
into the buffer. -/
def IdentifierReceived (B : ℕ) (known : List UInt8) : Prop :=
  ∀ e, identifierEnd (zeroPadded B known) B = some e → e ≤ known.length ∨ B ≤ e

theorem byteAt_zeroPadded (B : ℕ) (known : List UInt8) (i : ℕ) : byteAt (zeroPadded B known) i = byteAt known i := by
  rw [zeroPadded, byteAt, byteAt, List.getD_eq_getElem?_getD, List.getD_eq_getElem?_getD, List.getElem?_append]
  split
  · rfl
  · next h =>
    rw [List.getElem?_replicate, List.getElem?_eq_none (Nat.le_of_not_lt h)]
    split <;> rfl

theorem wordAt_zeroPadded (B : ℕ) (known : List UInt8) (i : ℕ) : wordAt (zeroPadded B known) i = wordAt known i := by
  rw [wordAt, byteAt_zeroPadded, byteAt_zeroPadded, wordAt]

theorem byteAt_behind {i : ℕ} (h : known.length ≤ i) : byteAt known i = 0 := by
  rw [byteAt, List.getD_eq_getElem?_getD, List.getElem?_eq_none h]
  rfl

theorem wordAt_behind {i : ℕ} (h : known.length ≤ i) : wordAt known i = 0 := by
  rw [wordAt, byteAt_behind h, byteAt_behind (Nat.le_succ_of_le h)]
  rfl

theorem replicate_pos {n : ℕ} (h : 0 < n) :
    List.replicate n (0 : UInt8) = 0 :: List.replicate (n - 1) 0 := by
  rw [← List.replicate_succ, Nat.sub_add_cancel h]

theorem byteAt_append_le (known fill : List UInt8) (i : ℕ) :
    (byteAt known i).toNat ≤ (byteAt (known ++ fill) i).toNat := by
  obtain hlt | hge := Nat.lt_or_ge i known.length
  · exact Nat.le_of_eq (by rw [byteAt_append_left fill hlt])
  · rw [byteAt_behind hge]
    exact Nat.zero_le _

theorem wordAt_append_le (known fill : List UInt8) (i : ℕ) : wordAt known i ≤ wordAt (known ++ fill) i := by
  have hhigh := byteAt_append_le known fill i
  have hlow := byteAt_append_le known fill (i + 1)
  rw [wordAt_eq, wordAt_eq]
  omega

theorem zeroPadded_length (h : known.length ≤ B) : (zeroPadded B known).length = B := by
  rw [zeroPadded, List.length_append, List.length_replicate]
  omega

/-- Other bytes than zeros behind the known ones move the end of an identifier further back at most,
and only where it was not within the known bytes. -/
theorem identifierEnd_fill (hpos : 0 < known.length) (hlt : known.length < B) (hfill : (known ++ fill).length = B)
    (htype : mqtt_get_type known = MQTT_MSG_TYPE_PUBLISH) :
    ∃ e₀ e, identifierEnd (zeroPadded B known) B = some e₀ ∧ identifierEnd (known ++ fill) B = some e ∧
      4 ≤ e₀ ∧ (e = e₀ ∨ known.length < e₀ ∧ e₀ ≤ e) := by
  have hne := List.length_pos_iff.mp hpos
  have hpadded := zeroPadded_length (Nat.le_of_lt hlt)
  refine ⟨_, _, if_pos ((mqtt_get_type_append hne _).trans htype), if_pos ((mqtt_get_type_append hne _).trans htype),
    by omega, ?_⟩
  rw [wordAt_zeroPadded]
  obtain ⟨r, hr, hread⟩ | ⟨n, hread⟩ := readLength_front (B := B) hpos
  · rw [hread fill hfill, zeroPadded, hread _ hpadded]
    have hle := wordAt_append_le known fill r.1
    by_cases hwhole : r.1 + 2 ≤ known.length
    · rw [wordAt_append_left fill hwhole]
      exact .inl rfl
    · right
      omega
  · have hfillne : fill ≠ [] := by
      rintro rfl
      rw [List.append_nil] at hfill
      omega
    have hzeros := replicate_pos (n := B - known.length) (by omega)
    have hbehind := lengthLoop_lt hfillne known.length n
    rw [hread fill hfill, zeroPadded, hread _ hpadded, hzeros, lengthLoop_zero]
    right
    simp only [wordAt_behind (Nat.le_succ known.length)]
    omega

/-- **A received identifier does not depend on what lies behind the received bytes.** -/
theorem mqtt_get_id_known (hpos : 0 < known.length) (hlt : known.length < B) (hB : 5 ≤ B) (hid : Identified known)
    (h : IdentifierReceived B known) (hfill : (known ++ fill).length = B) :
    mqtt_get_id (known ++ fill) B = mqtt_get_id (zeroPadded B known) B := by
  have hne := List.length_pos_iff.mp hpos
  have hidentified (fill : List UInt8) : Identified (known ++ fill) := by
    rw [Identified, mqtt_get_type_append hne, mqtt_get_qos_append hne]
    exact hid
  have hword {e : ℕ} (hlow : 2 ≤ e) (hin : e ≤ known.length) :
      wordAt (known ++ fill) (e - 2) = wordAt (zeroPadded B known) (e - 2) := by
    rw [wordAt_append_left fill (by omega), wordAt_zeroPadded]
  rw [mqtt_get_id_eq (hidentified fill) hB, mqtt_get_id_eq (show Identified (zeroPadded B known) from hidentified _) hB]
  by_cases htype : mqtt_get_type known = MQTT_MSG_TYPE_PUBLISH
  · obtain ⟨e₀, e, hzeros, hother, hlow, hor⟩ := identifierEnd_fill hpos hlt hfill htype
    rw [hzeros, hother, Option.elim_some, Option.elim_some]
    obtain hin | hout := h e₀ hzeros
    · obtain rfl : e = e₀ := by omega
      rw [hword (by omega) hin]
    · rw [if_pos (by omega), if_pos hout]
  · have hzeros : identifierEnd (zeroPadded B known) B = if byteAt known 1 &&& 0x80 = 0 then some 4 else none := by
      rw [identifierEnd, if_neg (by rw [zeroPadded, mqtt_get_type_append hne]; exact htype), byteAt_zeroPadded]
    have hother : identifierEnd (known ++ fill) B =
        if byteAt (known ++ fill) 1 &&& 0x80 = 0 then some 4 else none := by
      rw [identifierEnd, if_neg (by rw [mqtt_get_type_append hne]; exact htype)]
    by_cases hbit : byteAt known 1 &&& 0x80 = 0
    · rw [if_pos hbit] at hzeros
      have hin : 4 ≤ known.length := (h 4 hzeros).resolve_right (by omega)
      rw [byteAt_append_left fill (by omega), if_pos hbit] at hother
      rw [hzeros, hother, Option.elim_some, Option.elim_some, hword (by omega) hin]
    · have hin : 1 < known.length := by
        by_contra hle
        exact hbit (by rw [byteAt_behind (by omega)]; rfl)
      rw [byteAt_append_left fill hin, if_neg hbit] at hother
      rw [if_neg hbit] at hzeros
      rw [hzeros, hother, Option.elim_none, Option.elim_none]

/-! ## One byte behind the received ones -/

/-- The byte in front of `e` is not one of the length's, which end in front of it. -/
theorem readLength_written {e : ℕ} (hpos : 0 < known.length) (hlt : known.length < B)
    (hend : (readLength (zeroPadded B known) B).1 + 2 < e) (v : UInt8) :
    readLength (known ++ (List.replicate (B - known.length) 0).set (e - 1 - known.length) v) B =
      readLength (zeroPadded B known) B := by
  have hlength : (known ++ (List.replicate (B - known.length) 0).set (e - 1 - known.length) v).length = B := by
    simp only [List.length_append, List.length_set, List.length_replicate]
    omega
  have hpadded := zeroPadded_length (Nat.le_of_lt hlt)
  obtain ⟨r, hr, hread⟩ | ⟨n, hread⟩ := readLength_front (B := B) hpos
  · rw [hread _ hlength, zeroPadded, hread _ hpadded]
  · have hzeros := replicate_pos (n := B - known.length) (by omega)
    rw [zeroPadded, hread _ hpadded, hzeros, lengthLoop_zero] at hend
    have hindex : e - 1 - known.length = (e - 2 - known.length) + 1 := by
      simp only at hend
      omega
    have hfill : (List.replicate (B - known.length) 0).set (e - 1 - known.length) v =
        0 :: (List.replicate (B - known.length - 1) 0).set (e - 2 - known.length) v := by
      rw [hzeros, hindex, List.set_cons_succ]
    rw [hread _ hlength, zeroPadded, hread _ hpadded, hzeros, lengthLoop_zero, ← hzeros, hfill, lengthLoop_zero]

section Written

variable {e : ℕ} (hbehind : known.length < e) (v : UInt8)
include hbehind

theorem append_written : known ++ (List.replicate (B - known.length) 0).set (e - 1 - known.length) v =
    (zeroPadded B known).set (e - 1) v := by
  rw [zeroPadded, List.set_append_right _ _ (by omega)]

theorem byteAt_written {j : ℕ} (hj : j ≠ e - 1) :
    byteAt (known ++ (List.replicate (B - known.length) 0).set (e - 1 - known.length) v) j = byteAt known j := by
  rw [append_written hbehind v, ← byteAt_zeroPadded B known j, byteAt, List.getD_eq_getElem?_getD,
    List.getElem?_set_ne (Ne.symm hj), byteAt, List.getD_eq_getElem?_getD]

theorem byteAt_written_self (hlt : known.length < B) (hfits : e < B) :
    byteAt (known ++ (List.replicate (B - known.length) 0).set (e - 1 - known.length) v) (e - 1) = v := by
  rw [append_written hbehind v, byteAt, List.getD_eq_getElem?_getD,
    List.getElem?_set_self (by rw [zeroPadded_length (Nat.le_of_lt hlt)]; omega)]
  rfl

variable (hpos : 0 < known.length) (hlt : known.length < B)
include hpos hlt

/-- It is the last byte of the identifier all the same. -/
theorem identifierEnd_written (hend : identifierEnd (zeroPadded B known) B = some e) :
    identifierEnd (known ++ (List.replicate (B - known.length) 0).set (e - 1 - known.length) v) B = some e ∧
      4 ≤ e := by
  have hne := List.length_pos_iff.mp hpos
  unfold identifierEnd at hend ⊢
  rw [mqtt_get_type_append hne]
  rw [zeroPadded, mqtt_get_type_append hne, ← zeroPadded] at hend
  by_cases htype : mqtt_get_type known = MQTT_MSG_TYPE_PUBLISH
  · rw [if_pos htype] at hend ⊢
    have hvalue := Option.some.inj hend
    have hlengths := readLength_written hpos hlt (e := e) (by omega) v
    have hword : wordAt (known ++ (List.replicate (B - known.length) 0).set (e - 1 - known.length) v)
        (readLength (zeroPadded B known) B).1 = wordAt known (readLength (zeroPadded B known) B).1 := by
      rw [wordAt_zeroPadded] at hvalue
      rw [wordAt, byteAt_written hbehind v (by omega), byteAt_written hbehind v (by omega), wordAt]
    rw [hlengths, hword, ← wordAt_zeroPadded B]
    exact ⟨hend, by omega⟩
  · rw [if_neg htype] at hend ⊢
    rw [byteAt_zeroPadded] at hend
    split at hend
    · next hbit =>
      obtain rfl := Option.some.inj hend
      rw [byteAt_written hbehind v (by omega), if_pos hbit]
      exact ⟨rfl, Nat.le_refl 4⟩
    · cases hend

end Written

/-- Where the identifier is not received, the bytes behind the received ones decide about it. -/
theorem mqtt_get_id_unknown (hpos : 0 < known.length) (hlt : known.length < B) (hB : 5 ≤ B) (hid : Identified known)
    {e : ℕ} (hend : identifierEnd (zeroPadded B known) B = some e) (hbehind : known.length < e) (hfits : e < B) (v : UInt8) :
    let fill := (List.replicate (B - known.length) 0).set (e - 1 - known.length) v
    mqtt_get_id (known ++ fill) B = (byteAt known (e - 2)).toNat * 256 + v.toNat := by
  intro fill
  have hne := List.length_pos_iff.mp hpos
  have hidentified : Identified (known ++ fill) := by
    rw [Identified, mqtt_get_type_append hne, mqtt_get_qos_append hne]
    exact hid
  obtain ⟨hsame, hfour⟩ := identifierEnd_written hbehind v hpos hlt hend
  rw [mqtt_get_id_eq hidentified hB, hsame, Option.elim_some, if_neg (by omega), wordAt_eq,
    byteAt_written hbehind v (by omega), show e - 2 + 1 = e - 1 by omega, byteAt_written_self hbehind v hlt hfits]

end LightSleepMqtt.Message
