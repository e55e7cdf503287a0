import Mathlib.Data.List.GetD
import LightSleepMqtt.Http.Form
import LightSleepMqtt.Library.Transition

/-! The loop of `HTTPConfig_HTMLEntityDecode` by its two positions. `encodedPosition` may pass the
terminator when a '%' stands near it, but nothing behind the terminator is read, and the position in
`decoded` is never ahead. -/
namespace LightSleepMqtt.Http
open Transition
set_option autoImplicit false

/-! ## Passes of the loop -/

section
variable (encoded : List UInt8)

/-- `encoded[i]`; a read behind the terminator fails. -/
def readEncoded (i : ℕ) : Option UInt8 := if i ≤ encoded.length then some (encoded.getD i 0) else none

/-- The string that `strncpy(tmp, encoded + i, 2)` leaves in `tmp`; it stops at a NUL. -/
def readTmp (i : ℕ) : Option (List UInt8) := do
  let first ← readEncoded encoded i
  if first = 0 then return []
  let second ← readEncoded encoded (i + 1)
  return if second = 0 then [first] else [first, second]

end

structure Decoding where
  encodedPosition : ℕ
  decodedPosition : ℕ
  decoded : List UInt8

/-- A byte is written at `decodedPosition`; a write behind the block fails. -/
def Decoding.store (s : Decoding) (c : UInt8) (n : ℕ) : Option Decoding :=
  if s.decodedPosition < s.decoded.length then
    some ⟨s.encodedPosition + n, s.decodedPosition + 1, s.decoded.set s.decodedPosition c⟩
  else none

/-- A pass of the loop, which there is only in front of the terminator. -/
def decodePass (encoded : List UInt8) (s : Decoding) (_ : Unit) : Option Decoding :=
  if s.encodedPosition < encoded.length then do
    let c ← readEncoded encoded s.encodedPosition
    if c = '+'.toUInt8 then s.store ' '.toUInt8 1
    else if c = '%'.toUInt8 then
      let tmp ← readTmp encoded (s.encodedPosition + 1)
      s.store (UInt8.ofInt (strtol tmp 16)) 3
    else s.store c 1
  else none

/-! ## Reads -/

variable {encoded : List UInt8}

theorem readEncoded_of_le {i : ℕ} (h : i ≤ encoded.length) :
    readEncoded encoded i = some (encoded.getD i 0) := if_pos h

theorem getD_eq_zero_iff (hnul : 0 ∉ encoded) (i : ℕ) : encoded.getD i 0 = 0 ↔ encoded.length ≤ i := by
  constructor
  · intro hzero
    by_contra hlt
    rw [List.getD_eq_getElem _ _ (Nat.not_le.mp hlt)] at hzero
    exact hnul (hzero ▸ List.getElem_mem _)
  · exact fun hle => List.getD_eq_default _ _ hle

/-- The digits behind a '%' are read no further than to the terminator. -/
theorem readTmp_eq (hnul : 0 ∉ encoded) {i : ℕ} (h : i ≤ encoded.length) :
    readTmp encoded i = some ((encoded.drop i).take 2) := by
  rw [readTmp, readEncoded_of_le h, Option.bind_eq_bind, Option.bind_some]
  by_cases hend : encoded.length ≤ i
  · rw [if_pos ((getD_eq_zero_iff hnul i).mpr hend), List.drop_eq_nil_of_le hend]
    rfl
  · have hlt : i < encoded.length := Nat.not_le.mp hend
    rw [if_neg (mt (getD_eq_zero_iff hnul i).mp hend), readEncoded_of_le hlt, Option.bind_some,
      List.drop_eq_getElem_cons hlt, List.getD_eq_getElem _ _ hlt]
    by_cases hlast : encoded.length ≤ i + 1
    · rw [if_pos ((getD_eq_zero_iff hnul (i + 1)).mpr hlast), List.drop_eq_nil_of_le hlast]
      rfl
    · have hlt' : i + 1 < encoded.length := Nat.not_le.mp hlast
      rw [if_neg (mt (getD_eq_zero_iff hnul (i + 1)).mp hlast), List.drop_eq_getElem_cons hlt',
        List.getD_eq_getElem _ _ hlt']
      rfl

theorem decodeLoop_drop (n : ℕ) (cs : List UInt8) : decodeLoop n cs = decodeLoop 0 (cs.drop n) := by
  induction n generalizing cs with
  | zero => rfl
  | succ n ih =>
    cases cs with
    | nil => rfl
    | cons c cs => exact ih cs

/-! ## The invariant -/

/-- What is in `decoded` in front of a pass is what the loop makes of the bytes passed. -/
structure Decodes (encoded : List UInt8) (s : Decoding) : Prop where
  behind : s.decodedPosition ≤ s.encodedPosition
  within : s.decodedPosition ≤ encoded.length
  room : encoded.length < s.decoded.length
  done : s.decoded.take s.decodedPosition ++ decodeLoop 0 (encoded.drop s.encodedPosition) = decodeLoop 0 encoded

variable {s s' : Decoding}

theorem Decodes.store (h : Decodes encoded s) (hlt : s.encodedPosition < encoded.length) {c : UInt8} {n : ℕ}
    (hn : 1 ≤ n) (hc : decodeLoop 0 (encoded.drop s.encodedPosition) =
      c :: decodeLoop 0 (encoded.drop (s.encodedPosition + n))) :
    ∃ s', s.store c n = some s' ∧ Decodes encoded s' ∧ s'.encodedPosition = s.encodedPosition + n := by
  have hbehind := h.behind
  have hroom := h.room
  have hin : s.decodedPosition < s.decoded.length := by omega
  refine ⟨_, if_pos hin, ⟨?_, ?_, ?_, ?_⟩, rfl⟩
  · show s.decodedPosition + 1 ≤ s.encodedPosition + n
    omega
  · show s.decodedPosition + 1 ≤ encoded.length
    omega
  · rw [List.length_set]
    exact hroom
  · have hfront : (s.decoded.set s.decodedPosition c).take (s.decodedPosition + 1) =
        s.decoded.take s.decodedPosition ++ [c] := by
      rw [List.take_succ_eq_append_getElem (by rw [List.length_set]; exact hin), List.getElem_set_self,
        List.take_set_of_le (Nat.le_refl _)]
    show (s.decoded.set s.decodedPosition c).take (s.decodedPosition + 1) ++ _ = _
    rw [hfront, List.append_assoc, List.singleton_append, ← hc]
    exact h.done

/-- A pass reads and writes where it may, and comes nearer to the terminator. -/
theorem Decodes.pass (h : Decodes encoded s) (hnul : 0 ∉ encoded) (hlt : s.encodedPosition < encoded.length) :
    ∃ s', decodePass encoded s () = some s' ∧ Decodes encoded s' ∧ s.encodedPosition < s'.encodedPosition := by
  have hcons := List.drop_eq_getElem_cons hlt
  have hread : readEncoded encoded s.encodedPosition = some encoded[s.encodedPosition] := by
    rw [readEncoded_of_le hlt.le, List.getD_eq_getElem _ _ hlt]
  rw [decodePass, if_pos hlt, hread, Option.bind_eq_bind, Option.bind_some]
  have hstore {c : UInt8} {n : ℕ} (hn : 1 ≤ n) (hc : decodeLoop 0 (encoded.drop s.encodedPosition) =
      c :: decodeLoop 0 (encoded.drop (s.encodedPosition + n))) :
      ∃ s', s.store c n = some s' ∧ Decodes encoded s' ∧ s.encodedPosition < s'.encodedPosition := by
    obtain ⟨s', hs', hdecodes, hposition⟩ := h.store hlt hn hc
    exact ⟨s', hs', hdecodes, by omega⟩
  split_ifs with hplus hpercent
  · refine hstore (Nat.le_refl 1) ?_
    rw [hcons, decodeLoop, if_pos hplus]
  · rw [readTmp_eq hnul hlt, Option.bind_eq_bind, Option.bind_some]
    refine hstore (by decide) ?_
    rw [hcons, decodeLoop, if_neg hplus, if_pos hpercent, decodeLoop_drop 2, List.drop_drop]
  · refine hstore (Nat.le_refl 1) ?_
    rw [hcons, decodeLoop, if_neg hplus, if_neg hpercent]

theorem Decodes.step (h : Decodes encoded s) (hnul : 0 ∉ encoded) (hpass : decodePass encoded s () = some s') :
    Decodes encoded s' := by
  by_cases hlt : s.encodedPosition < encoded.length
  · obtain ⟨t, ht, hdecodes, _⟩ := h.pass hnul hlt
    exact Option.some.inj (ht.symm.trans hpass) ▸ hdecodes
  · rw [decodePass, if_neg hlt] at hpass
    cases hpass

/-- The loop ends behind as many passes as there are bytes left, or fewer. -/
theorem Decodes.run (hnul : 0 ∉ encoded) (left : ℕ) (h : Decodes encoded s)
    (hleft : encoded.length ≤ s.encodedPosition + left) :
    ∃ n t, n ≤ left ∧ run (decodePass encoded) s (List.replicate n ()) = some t ∧ Decodes encoded t ∧
      encoded.length ≤ t.encodedPosition := by
  induction left generalizing s with
  | zero => exact ⟨0, s, Nat.le_refl 0, rfl, h, hleft⟩
  | succ left ih =>
    by_cases hlt : s.encodedPosition < encoded.length
    · obtain ⟨s', hpass, hdecodes, hfurther⟩ := h.pass hnul hlt
      obtain ⟨n, t, hn, hrun, ht, hend⟩ := ih hdecodes (by omega)
      refine ⟨n + 1, t, Nat.succ_le_succ hn, ?_, ht, hend⟩
      rw [List.replicate_succ, Transition.run, hpass]
      exact hrun
    · exact ⟨0, s, Nat.zero_le _, rfl, h, Nat.not_lt.mp hlt⟩

/-- **Decoding is safe on every string that fits its block**: the loop ends, it reads nothing behind
the terminator, and the NUL that is written last stands no further than the terminator does. -/
theorem decode_safe (hnul : 0 ∉ encoded) (hlength : encoded.length ≤ 63) {block : List UInt8}
    (hblock : block.length = 64) :
    ∃ n t, n ≤ encoded.length ∧ run (decodePass encoded) ⟨0, 0, block⟩ (List.replicate n ()) = some t ∧
      encoded.length ≤ t.encodedPosition ∧
      Always (decodePass encoded) (fun s => s.decodedPosition ≤ s.encodedPosition) ⟨0, 0, block⟩
        (List.replicate n ()) ∧
      t.decodedPosition + 1 ≤ encoded.length + 1 ∧
      cstring (t.decoded.set t.decodedPosition 0) = HTTPConfig_HTMLEntityDecode encoded ∧
      (HTTPConfig_HTMLEntityDecode encoded).length ≤ encoded.length := by
  have hstart : Decodes encoded ⟨0, 0, block⟩ := ⟨Nat.le_refl 0, Nat.zero_le _, by simp only; omega, rfl⟩
  obtain ⟨n, t, hn, hrun, ht, hend⟩ := hstart.run hnul encoded.length (by simp only; omega)
  have hwithin := ht.within
  have hroom := ht.room
  have hfront : t.decoded.take t.decodedPosition = decodeLoop 0 encoded := by
    have hdone := ht.done
    rw [List.drop_eq_nil_of_le hend] at hdone
    exact (List.append_nil _).symm.trans hdone
  have hset : t.decoded.set t.decodedPosition 0 =
      decodeLoop 0 encoded ++ 0 :: t.decoded.drop (t.decodedPosition + 1) := by
    rw [List.set_eq_take_append_cons_drop, if_pos (by omega), hfront]
  have hstring : cstring (t.decoded.set t.decodedPosition 0) = HTTPConfig_HTMLEntityDecode encoded := by
    rw [hset, ← List.singleton_append, ← List.append_assoc,
      cstring_append_of_mem (List.mem_append_right _ List.mem_cons_self), HTTPConfig_HTMLEntityDecode]
    by_cases hmem : (0 : UInt8) ∈ decodeLoop 0 encoded
    · exact cstring_append_of_mem hmem _
    · rw [cstring_append hmem, cstring_of_notMem hmem]
      exact List.append_nil _
  have hshort : (HTTPConfig_HTMLEntityDecode encoded).length ≤ encoded.length := by
    have hloop : (decodeLoop 0 encoded).length ≤ t.decodedPosition := hfront ▸ List.length_take_le _ _
    exact ((List.takeWhile_prefix _).length_le.trans hloop).trans hwithin
  exact ⟨n, t, hn, hrun, hend, always_of_invariant (fun h => h.step hnul) (fun h => h.behind) hstart,
    Nat.succ_le_succ hwithin, hstring, hshort⟩

/-- A string that ends in the middle of an escape. -/
theorem decode_safe_truncated :
    ∃ n t, n ≤ 4 ∧ run (decodePass (ascii "a%z%")) ⟨0, 0, List.replicate 64 7⟩ (List.replicate n ()) = some t ∧
      4 ≤ t.encodedPosition ∧
      Always (decodePass (ascii "a%z%")) (fun s => s.decodedPosition ≤ s.encodedPosition)
        ⟨0, 0, List.replicate 64 7⟩ (List.replicate n ()) ∧
      t.decodedPosition + 1 ≤ 4 + 1 ∧
      cstring (t.decoded.set t.decodedPosition 0) = HTTPConfig_HTMLEntityDecode (ascii "a%z%") ∧
      (HTTPConfig_HTMLEntityDecode (ascii "a%z%")).length ≤ 4 := by
  have hnul : 0 ∉ ascii "a%z%" := by decide
  exact decode_safe hnul (by decide) List.length_replicate

end LightSleepMqtt.Http
