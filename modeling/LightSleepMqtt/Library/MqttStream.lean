import LightSleepMqtt.Library.MqttWire

/-! A stream of MQTT packets as its receiver reads it: one packet after the other to the end of the
bytes. Packets that are each well formed are read back from their concatenation, and the pieces in
which they are handed over may be empty. -/
namespace MqttWire
set_option autoImplicit false

/-- The packets of a byte string, at most as many as the number, to its last byte. -/
def decodeAll : ℕ → Bytes → Option (List Packet)
  | _, [] => some []
  | 0, _ :: _ => none
  | k + 1, b :: bs =>
    match decode (b :: bs) with
    | none => none
    | some (p, rest) => (decodeAll k rest).map fun ps => p :: ps

/-- Every packet takes at least one byte. -/
def decodeStream (bs : Bytes) : Option (List Packet) := decodeAll bs.length bs

theorem Packet.encode_ne_nil (p : Packet) : p.encode ≠ [] := List.cons_ne_nil _ _

theorem decodeAll_encoded {ps : List Packet} (h : ∀ p ∈ ps, p.WellFormed) {k : ℕ} (hk : ps.length ≤ k) :
    decodeAll k (ps.flatMap Packet.encode) = some ps := by
  induction ps generalizing k with
  | nil => cases k <;> rfl
  | cons p ps ih =>
    obtain ⟨k, rfl⟩ : ∃ k', k = k' + 1 := ⟨k - 1, by rw [List.length_cons] at hk; omega⟩
    obtain ⟨hp, hps⟩ := List.forall_mem_cons.mp h
    have hdecode := decode_encode p hp (ps.flatMap Packet.encode)
    have hrest := ih hps (k := k) (by rw [List.length_cons] at hk; omega)
    rw [List.flatMap_cons]
    cases hbytes : p.encode ++ ps.flatMap Packet.encode with
    | nil => exact absurd (List.append_eq_nil_iff.mp hbytes).1 p.encode_ne_nil
    | cons b bs =>
      rw [hbytes] at hdecode
      simp only [decodeAll, hdecode, hrest, Option.map_some]

/-- **The round trip of a stream.** -/
theorem decodeStream_encoded {ps : List Packet} (h : ∀ p ∈ ps, p.WellFormed) :
    decodeStream (ps.flatMap Packet.encode) = some ps :=
  decodeAll_encoded h (length_le_flatMap Packet.encode Packet.encode_ne_nil ps)

/-! ## Pieces -/

/-- A piece of the stream: a packet of the kind, or nothing. -/
def Transmits (P : Packet → Prop) (piece : Bytes) : Prop :=
  piece = [] ∨ ∃ p : Packet, p.WellFormed ∧ P p ∧ piece = p.encode

variable {P : Packet → Prop} {piece : Bytes} {pieces : List Bytes}

theorem Transmits.mono {P' : Packet → Prop} (h : Transmits P piece) (himp : ∀ p, P p → P' p) : Transmits P' piece := by
  obtain hnil | ⟨p, hp, hkind, hpiece⟩ := h
  · exact .inl hnil
  · exact .inr ⟨p, hp, himp p hkind, hpiece⟩

/-- The packets of the pieces. -/
theorem Transmits.packets (h : ∀ piece ∈ pieces, Transmits P piece) :
    ∃ ps : List Packet, (∀ p ∈ ps, p.WellFormed ∧ P p) ∧ ps.length ≤ pieces.length ∧
      pieces.flatten = ps.flatMap Packet.encode := by
  induction pieces with
  | nil => exact ⟨[], by simp, Nat.le_refl _, rfl⟩
  | cons piece pieces ih =>
    obtain ⟨hpiece, hpieces⟩ := List.forall_mem_cons.mp h
    obtain ⟨ps, hps, hlength, hflat⟩ := ih hpieces
    obtain rfl | ⟨p, hp, hkind, rfl⟩ := hpiece
    · exact ⟨ps, hps, Nat.le_succ_of_le hlength, hflat⟩
    · refine ⟨p :: ps, List.forall_mem_cons.mpr ⟨⟨hp, hkind⟩, hps⟩, Nat.succ_le_succ hlength, ?_⟩
      rw [List.flatten_cons, List.flatMap_cons, hflat]

end MqttWire
