import Mathlib.Algebra.Group.Nat.Defs
import Mathlib.Data.List.Basic
import Mathlib.Tactic.Common

/-! The MQTT 3.1 wire format: control packets as data, the bytes of a packet, and a strict
decoder for them (canonical remaining length of at most four bytes, the flags each packet
type requires, no byte of the body left over). `decode_encode` is the round trip, with any
bytes behind the packet. -/
namespace MqttWire
set_option autoImplicit false

abbrev Bytes := List UInt8

/-! ## Fields -/

/-- A 16-bit field, most significant byte first. -/
def word (n : ℕ) : Bytes := [UInt8.ofNat (n / 256), UInt8.ofNat n]

def string (s : Bytes) : Bytes := word s.length ++ s

/-- The seven-bit groups of `n`, least significant first, in at most the given number of bytes. -/
def groups : ℕ → ℕ → Bytes
  | 0, _ => []
  | k + 1, n =>
    if n < 128 then [UInt8.ofNat n] else UInt8.ofNat (n % 128 + 128) :: groups k (n / 128)

def remainingLength (n : ℕ) : Bytes := groups 4 n

def takeWord : Bytes → Option (ℕ × Bytes)
  | a :: b :: rest => some (a.toNat * 256 + b.toNat, rest)
  | _ => none

def takeString (bs : Bytes) : Option (Bytes × Bytes) :=
  match takeWord bs with
  | none => none
  | some (n, rest) => if rest.length < n then none else some (rest.take n, rest.drop n)

/-- A remaining length in its shortest form: the last of several bytes is not zero. -/
def takeGroups : ℕ → Bool → Bytes → Option (ℕ × Bytes)
  | 0, _, _ => none
  | _ + 1, _, [] => none
  | k + 1, first, b :: bs =>
    if b.toNat < 128 then
      if b.toNat = 0 ∧ first = false then none else some (b.toNat, bs)
    else
      match takeGroups k false bs with
      | none => none
      | some (n, rest) => some (b.toNat - 128 + 128 * n, rest)

theorem ofNat_toNat_of_lt {n : ℕ} (h : n < 256) : (UInt8.ofNat n).toNat = n :=
  UInt8.toNat_ofNat_of_lt' (by simp only [UInt8.size]; omega)

theorem ofNat_toNat_mod (n : ℕ) : (UInt8.ofNat n).toNat = n % 256 := UInt8.toNat_ofNat'

@[simp] theorem word_length (n : ℕ) : (word n).length = 2 := rfl

@[simp] theorem string_length (s : Bytes) : (string s).length = 2 + s.length := by
  simp [string, word_length]

theorem takeWord_word {n : ℕ} (h : n < 65536) (rest : Bytes) :
    takeWord (word n ++ rest) = some (n, rest) := by
  have hn : n / 256 % 256 * 256 + n % 256 = n := by omega
  simp only [word, List.cons_append, List.nil_append, takeWord, ofNat_toNat_mod, hn]

theorem takeString_string {s : Bytes} (h : s.length < 65536) (rest : Bytes) :
    takeString (string s ++ rest) = some (s, rest) := by
  rw [takeString, string, List.append_assoc, takeWord_word h]
  simp

theorem groups_length_pos (k n : ℕ) : 0 < (groups (k + 1) n).length := by
  rw [groups]
  split <;> simp

theorem groups_length_le (k n : ℕ) : (groups k n).length ≤ k := by
  induction k generalizing n with
  | zero => simp [groups]
  | succ k ih =>
    rw [groups]
    split
    · simp
    · have := ih (n / 128)
      rw [List.length_cons]
      omega

theorem takeGroups_last (k n : ℕ) (first : Bool) (h : n < 128) (hn : first = false → n ≠ 0)
    (rest : Bytes) : takeGroups (k + 1) first (groups (k + 1) n ++ rest) = some (n, rest) := by
  have hb := ofNat_toNat_of_lt (n := n) (by omega)
  rw [groups, if_pos h, List.singleton_append, takeGroups, hb, if_pos h, if_neg]
  intro hlast
  obtain ⟨hz, hf⟩ := hlast
  exact hn hf hz

theorem takeGroups_groups (k n : ℕ) (first : Bool) (h : n < 128 ^ (k + 1)) (hn : first = false → n ≠ 0)
    (rest : Bytes) : takeGroups (k + 1) first (groups (k + 1) n ++ rest) = some (n, rest) := by
  induction k generalizing n first with
  | zero => exact takeGroups_last 0 n first (by simpa using h) hn rest
  | succ k ih =>
    by_cases hlt : n < 128
    · exact takeGroups_last (k + 1) n first hlt hn rest
    · have hb := ofNat_toNat_of_lt (n := n % 128 + 128) (by omega)
      have hq : n / 128 < 128 ^ (k + 1) := by
        rw [Nat.div_lt_iff_lt_mul (by omega), ← Nat.pow_succ]
        exact h
      rw [groups, if_neg hlt, List.cons_append, takeGroups, hb, if_neg (by omega),
        ih (n / 128) false hq (fun _ => by omega)]
      simp only [Option.some.injEq, Prod.mk.injEq, and_true]
      omega

/-! ## Packets -/

structure Will where
  topic : Bytes
  message : Bytes
  qos : ℕ
  retain : Bool
  deriving DecidableEq

structure Connect where
  clientId : Bytes
  cleanSession : Bool
  keepAlive : ℕ
  will : Option Will
  userName : Option Bytes
  password : Option Bytes
  deriving DecidableEq

/-- `publish` has the identifier 0 when its quality of service is 0. -/
inductive Packet where
  | connect (c : Connect)
  | connack (code : UInt8)
  | publish (dup : Bool) (qos : ℕ) (retain : Bool) (topic : Bytes) (id : ℕ) (payload : Bytes)
  | puback (id : ℕ)
  | pubrec (id : ℕ)
  | pubrel (dup : Bool) (id : ℕ)
  | pubcomp (id : ℕ)
  | subscribe (id : ℕ) (filters : List (Bytes × UInt8))
  | suback (id : ℕ) (granted : Bytes)
  | unsubscribe (id : ℕ) (filters : List Bytes)
  | unsuback (id : ℕ)
  | pingreq
  | pingresp
  | disconnect
  deriving DecidableEq

def Packet.kind : Packet → ℕ
  | .connect _ => 1
  | .connack _ => 2
  | .publish .. => 3
  | .puback _ => 4
  | .pubrec _ => 5
  | .pubrel .. => 6
  | .pubcomp _ => 7
  | .subscribe .. => 8
  | .suback .. => 9
  | .unsubscribe .. => 10
  | .unsuback _ => 11
  | .pingreq => 12
  | .pingresp => 13
  | .disconnect => 14

def Packet.flags : Packet → ℕ
  | .publish dup qos retain .. => dup.toNat * 8 + qos * 2 + retain.toNat
  | .pubrel dup _ => dup.toNat * 8 + 2
  | .subscribe .. => 2
  | .unsubscribe .. => 2
  | _ => 0

/-- The CONNECT flags byte: it names the fields that follow in the payload. -/
def Connect.flags (c : Connect) : ℕ :=
  c.userName.isSome.toNat * 128 + c.password.isSome.toNat * 64 +
    (match c.will with
      | none => 0
      | some w => w.retain.toNat * 32 + w.qos * 8 + 4) + c.cleanSession.toNat * 2

def optional : Option Bytes → Bytes
  | none => []
  | some s => string s

def Connect.body (c : Connect) : Bytes :=
  string [0x4D, 0x51, 0x49, 0x73, 0x64, 0x70] ++ [3, UInt8.ofNat c.flags] ++ word c.keepAlive ++
    string c.clientId ++
    (match c.will with
      | none => []
      | some w => string w.topic ++ string w.message) ++
    optional c.userName ++ optional c.password

def Packet.body : Packet → Bytes
  | .connect c => c.body
  | .connack code => [0, code]
  | .publish _ qos _ topic id payload => string topic ++ (if 0 < qos then word id else []) ++ payload
  | .puback id | .pubrec id | .pubrel _ id | .pubcomp id | .unsuback id => word id
  | .subscribe id filters => word id ++ filters.flatMap fun f => string f.1 ++ [f.2]
  | .suback id granted => word id ++ granted
  | .unsubscribe id filters => word id ++ filters.flatMap string
  | .pingreq | .pingresp | .disconnect => []

def Packet.encode (p : Packet) : Bytes :=
  UInt8.ofNat (p.kind * 16 + p.flags) :: (remainingLength p.body.length ++ p.body)

/-! ## The decoder -/

def takeOptional (present : Bool) (bs : Bytes) : Option (Option Bytes × Bytes) :=
  if present then
    match takeString bs with
    | none => none
    | some (s, rest) => some (some s, rest)
  else some (none, bs)

/-- The will is announced by bit 2; without it the will's other bits must be clear. -/
def takeWill (flags : ℕ) (bs : Bytes) : Option (Option Will × Bytes) :=
  if flags / 4 % 2 = 1 then
    match takeString bs with
    | none => none
    | some (topic, rest) =>
      match takeString rest with
      | none => none
      | some (message, rest) =>
        if flags / 8 % 4 = 3 then none
        else some (some ⟨topic, message, flags / 8 % 4, flags / 32 % 2 = 1⟩, rest)
  else if flags / 8 % 8 = 0 then some (none, bs) else none

/-- The payload of a CONNECT, whose fields are those its flags name. -/
def takeConnectPayload (flags keepAlive : ℕ) (bs : Bytes) : Option Connect :=
  match takeString bs with
  | none => none
  | some (clientId, rest) =>
    match takeWill flags rest with
    | none => none
    | some (will, rest) =>
      match takeOptional (flags / 128 % 2 = 1) rest with
      | none => none
      | some (userName, rest) =>
        match takeOptional (flags / 64 % 2 = 1) rest with
        | some (password, []) =>
          some ⟨clientId, flags / 2 % 2 = 1, keepAlive, will, userName, password⟩
        | _ => none

def decodeConnect (body : Bytes) : Option Connect :=
  match takeString body with
  | some ([0x4D, 0x51, 0x49, 0x73, 0x64, 0x70], 3 :: flags :: rest) =>
    if flags.toNat % 2 = 1 then none
    else
      match takeWord rest with
      | none => none
      | some (keepAlive, rest) => takeConnectPayload flags.toNat keepAlive rest
  | _ => none

/-- A nonzero packet identifier with the bytes behind it. -/
def takeId (body : Bytes) : Option (ℕ × Bytes) :=
  match takeWord body with
  | none => none
  | some (id, rest) => if id = 0 then none else some (id, rest)

def decodeId (body : Bytes) : Option ℕ :=
  match takeId body with
  | some (id, []) => some id
  | _ => none

def decodePublish (flags : ℕ) (body : Bytes) : Option Packet :=
  match takeString body with
  | none => none
  | some (topic, rest) =>
    if topic = [] ∨ flags / 2 % 4 = 3 then none
    else if flags / 2 % 4 = 0 then some (.publish (flags / 8 = 1) 0 (flags % 2 = 1) topic 0 rest)
    else
      match takeId rest with
      | none => none
      | some (id, rest) => some (.publish (flags / 8 = 1) (flags / 2 % 4) (flags % 2 = 1) topic id rest)

/-- Topic filters with their requested quality of service, to the end of the body. -/
def takeRequests : ℕ → Bytes → Option (List (Bytes × UInt8))
  | _, [] => some []
  | 0, _ => none
  | k + 1, bs =>
    match takeString bs with
    | some (topic, qos :: rest) => (takeRequests k rest).map fun fs => (topic, qos) :: fs
    | _ => none

def takeFilters : ℕ → Bytes → Option (List Bytes)
  | _, [] => some []
  | 0, _ => none
  | k + 1, bs =>
    match takeString bs with
    | some (topic, rest) => (takeFilters k rest).map fun fs => topic :: fs
    | none => none

def decodeBody (kind flags : ℕ) (body : Bytes) : Option Packet :=
  match kind, flags with
  | 1, 0 => (decodeConnect body).map .connect
  | 2, 0 => match body with
    | [0, code] => some (.connack code)
    | _ => none
  | 3, flags => decodePublish flags body
  | 4, 0 => (decodeId body).map .puback
  | 5, 0 => (decodeId body).map .pubrec
  | 6, 2 => (decodeId body).map (.pubrel false)
  | 6, 10 => (decodeId body).map (.pubrel true)
  | 7, 0 => (decodeId body).map .pubcomp
  | 8, 2 => match takeId body with
    | none => none
    | some (id, rest) => (takeRequests rest.length rest).map (.subscribe id)
  | 9, 0 => (takeId body).map fun r => .suback r.1 r.2
  | 10, 2 => match takeId body with
    | none => none
    | some (id, rest) => (takeFilters rest.length rest).map (.unsubscribe id)
  | 11, 0 => (decodeId body).map .unsuback
  | 12, 0 => if body = [] then some .pingreq else none
  | 13, 0 => if body = [] then some .pingresp else none
  | 14, 0 => if body = [] then some .disconnect else none
  | _, _ => none

/-- One packet from the front of a byte string, with what follows it. -/
def decode : Bytes → Option (Packet × Bytes)
  | [] => none
  | h :: bs =>
    match takeGroups 4 true bs with
    | none => none
    | some (n, rest) =>
      if rest.length < n then none
      else (decodeBody (h.toNat / 16) (h.toNat % 16) (rest.take n)).map fun p => (p, rest.drop n)

/-! ## The round trip -/

def Connect.WellFormed (c : Connect) : Prop :=
  c.clientId.length < 65536 ∧ c.keepAlive < 65536 ∧
    (∀ w, c.will = some w → w.topic.length < 65536 ∧ w.message.length < 65536 ∧ w.qos ≤ 2) ∧
    (∀ u, c.userName = some u → u.length < 65536) ∧ (∀ u, c.password = some u → u.length < 65536)

theorem Connect.wellFormed_of_body (c : Connect) (hbody : c.body.length < 65536) (hkeep : c.keepAlive < 65536)
    (hqos : ∀ w, c.will = some w → w.qos ≤ 2) : c.WellFormed := by
  simp only [Connect.body, List.length_append, string_length] at hbody
  refine ⟨by omega, hkeep, fun w hw => ?_, fun u hu => ?_, fun u hu => ?_⟩
  · simp only [hw, List.length_append, string_length] at hbody
    exact ⟨by omega, by omega, hqos w hw⟩
  · simp only [hu, optional, string_length] at hbody
    omega
  · simp only [hu, optional, string_length] at hbody
    omega

/-- The fields fit their encodings and the identifiers are the ones MQTT allows. -/
def Packet.Fields : Packet → Prop
  | .connect c => c.WellFormed
  | .publish _ qos _ topic id _ =>
    topic ≠ [] ∧ topic.length < 65536 ∧ qos ≤ 2 ∧ id < 65536 ∧ (0 < qos ↔ id ≠ 0)
  | .puback id | .pubrec id | .pubrel _ id | .pubcomp id | .unsuback id | .suback id _ =>
    id ≠ 0 ∧ id < 65536
  | .subscribe id filters => (id ≠ 0 ∧ id < 65536) ∧ ∀ f ∈ filters, f.1.length < 65536
  | .unsubscribe id filters => (id ≠ 0 ∧ id < 65536) ∧ ∀ f ∈ filters, f.length < 65536
  | .connack _ | .pingreq | .pingresp | .disconnect => True

structure Packet.WellFormed (p : Packet) : Prop where
  fields : p.Fields
  size : p.body.length < 128 ^ 4

theorem takeId_word {id : ℕ} (h : id ≠ 0 ∧ id < 65536) (rest : Bytes) :
    takeId (word id ++ rest) = some (id, rest) := by
  rw [takeId, takeWord_word h.2]
  exact if_neg h.1

theorem decodeId_word {id : ℕ} (h : id ≠ 0 ∧ id < 65536) : decodeId (word id) = some id := by
  have ht := takeId_word h []
  rw [List.append_nil] at ht
  rw [decodeId, ht]

theorem takeRequests_encoded (filters : List (Bytes × UInt8)) (h : ∀ f ∈ filters, f.1.length < 65536)
    (k : ℕ) (hk : filters.length ≤ k) :
    takeRequests k (filters.flatMap fun f => string f.1 ++ [f.2]) = some filters := by
  induction filters generalizing k with
  | nil => cases k <;> rfl
  | cons f filters ih =>
    obtain ⟨k, rfl⟩ : ∃ k', k = k' + 1 := ⟨k - 1, by rw [List.length_cons] at hk; omega⟩
    have hf := h f (List.mem_cons_self ..)
    have hrest := ih (fun g hg => h g (List.mem_cons_of_mem _ hg)) k (by rw [List.length_cons] at hk; omega)
    have htake := takeString_string hf ([f.2] ++ filters.flatMap fun f => string f.1 ++ [f.2])
    rw [List.flatMap_cons, List.append_assoc, takeRequests, htake]
    · simp only [List.singleton_append, hrest, Option.map_some]
    · simp [string, word]

theorem takeFilters_encoded (filters : List Bytes) (h : ∀ f ∈ filters, f.length < 65536)
    (k : ℕ) (hk : filters.length ≤ k) : takeFilters k (filters.flatMap string) = some filters := by
  induction filters generalizing k with
  | nil => cases k <;> rfl
  | cons f filters ih =>
    obtain ⟨k, rfl⟩ : ∃ k', k = k' + 1 := ⟨k - 1, by rw [List.length_cons] at hk; omega⟩
    have hf := h f (List.mem_cons_self ..)
    have hrest := ih (fun g hg => h g (List.mem_cons_of_mem _ hg)) k (by rw [List.length_cons] at hk; omega)
    rw [List.flatMap_cons, takeFilters, takeString_string hf]
    · simp only [hrest, Option.map_some]
    · simp [string, word]

theorem length_le_flatMap {α : Type} (f : α → Bytes) (hf : ∀ a, f a ≠ []) (l : List α) :
    l.length ≤ (l.flatMap f).length := by
  induction l with
  | nil => simp
  | cons a l ih =>
    have := List.length_pos_iff.mpr (hf a)
    rw [List.flatMap_cons, List.length_append, List.length_cons]
    omega

theorem Connect.flags_bits (c : Connect) (h : ∀ w, c.will = some w → w.qos ≤ 2) :
    c.flags < 256 ∧ c.flags % 2 = 0 ∧ c.flags / 2 % 2 = c.cleanSession.toNat ∧
      c.flags / 64 % 2 = c.password.isSome.toNat ∧ c.flags / 128 % 2 = c.userName.isSome.toNat ∧
      match c.will with
      | none => c.flags / 4 % 2 = 0 ∧ c.flags / 8 % 8 = 0
      | some w => c.flags / 4 % 2 = 1 ∧ c.flags / 8 % 4 = w.qos ∧ c.flags / 32 % 2 = w.retain.toNat := by
  have hclean := Bool.toNat_le c.cleanSession
  have huser := Bool.toNat_le c.userName.isSome
  have hpass := Bool.toNat_le c.password.isSome
  unfold Connect.flags
  cases hw : c.will with
  | none => refine ⟨?_, ?_, ?_, ?_, ?_, ?_, ?_⟩ <;> simp only <;> omega
  | some w =>
    have hqos := h w hw
    have hretain := Bool.toNat_le w.retain
    refine ⟨?_, ?_, ?_, ?_, ?_, ?_, ?_, ?_⟩ <;> simp only <;> omega

theorem takeOptional_optional (o : Option Bytes) (h : ∀ s, o = some s → s.length < 65536) (rest : Bytes) :
    takeOptional o.isSome (optional o ++ rest) = some (o, rest) := by
  cases o with
  | none => rfl
  | some s => simp [takeOptional, optional, takeString_string (h s rfl)]

theorem takeWill_encoded (c : Connect) (h : c.WellFormed) (rest : Bytes) :
    takeWill c.flags ((match c.will with
      | none => []
      | some w => string w.topic ++ string w.message) ++ rest) = some (c.will, rest) := by
  obtain ⟨_, _, hwill, _, _⟩ := h
  obtain ⟨_, _, _, _, _, hbits⟩ := c.flags_bits fun w hw => (hwill w hw).2.2
  unfold takeWill
  cases hw : c.will with
  | none =>
    rw [hw] at hbits
    rw [if_neg (by omega), if_pos hbits.2, List.nil_append]
  | some w =>
    rw [hw] at hbits
    obtain ⟨hset, hqos, hretain⟩ := hbits
    obtain ⟨htopic, hmessage, hle⟩ := hwill w hw
    rw [if_pos hset, List.append_assoc, takeString_string htopic]
    simp only
    rw [takeString_string hmessage]
    simp only
    rw [if_neg (by omega), hqos, hretain]
    cases w with
    | mk topic message qos retain => cases retain <;> rfl

theorem takeConnectPayload_encoded (c : Connect) (h : c.WellFormed) :
    takeConnectPayload c.flags c.keepAlive (string c.clientId ++
      ((match c.will with
        | none => []
        | some w => string w.topic ++ string w.message) ++
      (optional c.userName ++ optional c.password))) = some c := by
  have hwill := takeWill_encoded c h (optional c.userName ++ optional c.password)
  obtain ⟨hid, _, hqos, huser, hpass⟩ := h
  obtain ⟨_, _, hclean, hpb, hub, _⟩ := c.flags_bits fun w hw => (hqos w hw).2.2
  have hu : decide (c.flags / 128 % 2 = 1) = c.userName.isSome := by
    rw [hub]
    cases c.userName.isSome <;> rfl
  have hp : decide (c.flags / 64 % 2 = 1) = c.password.isSome := by
    rw [hpb]
    cases c.password.isSome <;> rfl
  have hc : decide (c.flags / 2 % 2 = 1) = c.cleanSession := by
    rw [hclean]
    cases c.cleanSession <;> rfl
  have hlast := takeOptional_optional c.password hpass []
  rw [List.append_nil] at hlast
  rw [takeConnectPayload, takeString_string hid]
  simp only [hwill, hu, takeOptional_optional c.userName huser, hp, hlast, hc]

theorem decodeConnect_body (c : Connect) (h : c.WellFormed) : decodeConnect c.body = some c := by
  obtain ⟨hlt, heven, _⟩ := c.flags_bits fun w hw => (h.2.2.1 w hw).2.2
  have hflags : (UInt8.ofNat c.flags).toNat = c.flags := ofNat_toNat_of_lt hlt
  have hname := takeString_string (s := [0x4D, 0x51, 0x49, 0x73, 0x64, 0x70]) (by decide)
    (3 :: UInt8.ofNat c.flags :: (word c.keepAlive ++ (string c.clientId ++
      ((match c.will with
        | none => []
        | some w => string w.topic ++ string w.message) ++
      (optional c.userName ++ optional c.password)))))
  have hbody : c.body = string [0x4D, 0x51, 0x49, 0x73, 0x64, 0x70] ++
      (3 :: UInt8.ofNat c.flags :: (word c.keepAlive ++ (string c.clientId ++
        ((match c.will with
          | none => []
          | some w => string w.topic ++ string w.message) ++
        (optional c.userName ++ optional c.password))))) := by
    simp only [Connect.body, List.append_assoc, List.cons_append, List.nil_append]
  rw [decodeConnect, hbody, hname]
  simp only [hflags, takeWord_word h.2.1, takeConnectPayload_encoded c h]
  rw [if_neg (by omega)]

theorem decodePublish_body (dup retain : Bool) {qos : ℕ} {topic payload : Bytes} {id : ℕ}
    (h : (Packet.publish dup qos retain topic id payload).Fields) :
    decodePublish (Packet.publish dup qos retain topic id payload).flags
      (Packet.publish dup qos retain topic id payload).body =
        some (.publish dup qos retain topic id payload) := by
  obtain ⟨hne, hlen, hqos, hid, hiff⟩ := h
  have hdup := Bool.toNat_le dup
  have hret := Bool.toNat_le retain
  simp only [Packet.flags, Packet.body]
  have hf : (dup.toNat * 8 + qos * 2 + retain.toNat) / 2 % 4 = qos := by omega
  have hd : decide ((dup.toNat * 8 + qos * 2 + retain.toNat) / 8 = 1) = dup := by
    rw [show (dup.toNat * 8 + qos * 2 + retain.toNat) / 8 = dup.toNat by omega]
    cases dup <;> rfl
  have hr : decide ((dup.toNat * 8 + qos * 2 + retain.toNat) % 2 = 1) = retain := by
    rw [show (dup.toNat * 8 + qos * 2 + retain.toNat) % 2 = retain.toNat by omega]
    cases retain <;> rfl
  rw [decodePublish, List.append_assoc, takeString_string hlen]
  simp only [hf, hd, hr]
  rw [if_neg (by rintro (he | he); exacts [hne he, by omega])]
  by_cases h0 : qos = 0
  · have hz : id = 0 := by
      by_contra hc
      have := hiff.mpr hc
      omega
    subst h0 hz
    rw [if_pos rfl, if_neg (by omega), List.nil_append]
  · rw [if_neg h0, if_pos (by omega), takeId_word ⟨hiff.mp (by omega), hid⟩]

theorem decodeBody_encoded (p : Packet) (h : p.Fields) : decodeBody p.kind p.flags p.body = some p := by
  cases p with
  | connect c => simp [decodeBody, Packet.kind, Packet.flags, Packet.body, decodeConnect_body c h]
  | connack code => rfl
  | publish dup qos retain topic id payload =>
    simpa only [decodeBody, Packet.kind] using decodePublish_body dup retain h
  | puback id | pubrec id | pubcomp id | unsuback id =>
    simp [decodeBody, Packet.kind, Packet.flags, Packet.body, decodeId_word h]
  | pubrel dup id =>
    cases dup <;> simp [decodeBody, Packet.kind, Packet.flags, Packet.body, decodeId_word h]
  | subscribe id filters =>
    have hle := length_le_flatMap (fun f : Bytes × UInt8 => string f.1 ++ [f.2]) (by simp) filters
    have ht := takeRequests_encoded filters h.2 _ hle
    simp only [decodeBody, Packet.kind, Packet.flags, Packet.body, takeId_word h.1, ht, Option.map_some]
  | suback id granted => simp [decodeBody, Packet.kind, Packet.flags, Packet.body, takeId_word h]
  | unsubscribe id filters =>
    have hle := length_le_flatMap string (by simp [string, word]) filters
    have ht := takeFilters_encoded filters h.2 _ hle
    simp only [decodeBody, Packet.kind, Packet.flags, Packet.body, takeId_word h.1, ht, Option.map_some]
  | pingreq | pingresp | disconnect => rfl

theorem Packet.kind_lt (p : Packet) : p.kind < 16 := by
  cases p <;> simp [Packet.kind]

theorem Packet.flags_lt (p : Packet) (h : p.Fields) : p.flags < 16 := by
  cases p with
  | publish dup qos retain topic id payload =>
    have := h.2.2.1
    have := Bool.toNat_le dup
    have := Bool.toNat_le retain
    simp only [Packet.flags]
    omega
  | pubrel dup id =>
    have := Bool.toNat_le dup
    simp only [Packet.flags]
    omega
  | _ => simp [Packet.flags]

/-- **Round trip.** A well-formed packet is read back, and nothing behind it is touched. -/
theorem decode_encode (p : Packet) (h : p.WellFormed) (rest : Bytes) :
    decode (p.encode ++ rest) = some (p, rest) := by
  have hk := p.kind_lt
  have hf := p.flags_lt h.fields
  have hb : (UInt8.ofNat (p.kind * 16 + p.flags)).toNat = p.kind * 16 + p.flags :=
    ofNat_toNat_of_lt (by omega)
  rw [Packet.encode, List.cons_append, decode, List.append_assoc, remainingLength,
    takeGroups_groups 3 _ true h.size (by simp)]
  simp only [hb, show (p.kind * 16 + p.flags) / 16 = p.kind by omega,
    show (p.kind * 16 + p.flags) % 16 = p.flags by omega]
  rw [if_neg (by rw [List.length_append]; omega), List.take_left, List.drop_left,
    decodeBody_encoded p h.fields, Option.map_some]

end MqttWire
