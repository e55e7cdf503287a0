import LightSleepMqtt.Http.Parse

/-! Which memory a submitted form writes to: the blocks for its keys and values, the block they are
decoded in, and `sysCfg`. A value of 64 bytes fills its block, so that the string that is read from
there runs on into the memory `behind`. -/
namespace LightSleepMqtt.Http
open Config
set_option autoImplicit false

/-- The string in a block of 64 zero bytes into which `bytes` were copied. -/
def readBack (bytes behind : List UInt8) : List UInt8 := cstring (bytes ++ List.replicate (64 - bytes.length) 0 ++ behind)

variable (fp : FloatingPoint)

/-- The chain of comparisons where nothing stops a write at the end of its field. -/
def storeMember (cfg : SYSCFG) (value : List UInt8) : Option Member → SYSCFG
  | none => cfg
  | some m => cfg.put m.field.offset (m.bytes fp value)

/-- `sysCfg` behind the pairs of a body; a key that fills its block is none of the names. -/
def submitted (behind : List UInt8) (cfg : SYSCFG) (pairs : List (List UInt8 × List UInt8)) : SYSCFG :=
  pairs.foldl
    (fun cfg pair => storeMember fp cfg (HTTPConfig_HTMLEntityDecode (readBack pair.2 behind)) (memberOf pair.1)) cfg

/-- The writes for one pair: `strncpy` to `key` and to `value`, the decoded value with its NUL, and
what is stored in the field that the key names. -/
structure WritesInside (behind : List UInt8) (pair : List UInt8 × List UInt8) : Prop where
  key : pair.1.length ≤ 64
  value : pair.2.length ≤ 64
  decoded : (decodeLoop 0 (readBack pair.2 behind)).length + 1 ≤ 64
  member : ∀ m, memberOf pair.1 = some m →
    (m.bytes fp (HTTPConfig_HTMLEntityDecode (readBack pair.2 behind))).length ≤ m.field.size

/-- The pairs damage nothing: they write where they may, the strings they set end inside their
fields, and the other fields stay. -/
structure Harmless (cfg : SYSCFG) (pairs : List (List UInt8 × List UInt8)) : Prop where
  writes : ∀ pair ∈ pairs, ∀ behind, WritesInside fp behind pair
  terminated : ∀ behind, ∀ pair ∈ pairs, ∀ f, memberOf pair.1 = some (.string f) →
    0 ∈ (submitted fp behind cfg pairs).get f
  unchanged : ∀ behind, ∀ f ∈ Field.members, (∀ pair ∈ pairs, (memberOf pair.1).map Member.field ≠ some f) →
    (submitted fp behind cfg pairs).get f = cfg.get f

/-- The key and the value fit their blocks, and the decoded string its field. -/
def ValuesFit (pair : List UInt8 × List UInt8) : Prop :=
  pair.1.length ≤ 64 ∧ pair.2.length < 64 ∧
    ∀ f, memberOf pair.1 = some (.string f) → (HTTPConfig_HTMLEntityDecode pair.2).length < f.size

/-! ## Reading a value back -/

variable {fp} {bytes behind : List UInt8}

theorem readBack_short (hnul : 0 ∉ bytes) (hshort : bytes.length < 64) : readBack bytes behind = bytes := by
  have hpad : List.replicate (64 - bytes.length) (0 : UInt8) = 0 :: List.replicate (63 - bytes.length) 0 := by
    rw [← List.replicate_succ]
    congr 1
    omega
  rw [readBack, hpad, List.append_assoc, cstring_append hnul, List.cons_append]
  exact List.append_nil bytes

theorem readBack_full (hnul : 0 ∉ bytes) (hfull : bytes.length = 64) (hbehind : 0 ∉ behind) :
    readBack bytes behind = bytes ++ behind := by
  rw [readBack, hfull, Nat.sub_self, List.replicate_zero, List.append_nil, cstring_append hnul,
    cstring_of_notMem hbehind]

/-- Decoding has at most two bytes to pass where the next bytes begin. -/
theorem decodeLoop_append (s t : List UInt8) {passed : ℕ} (hpassed : passed ≤ 2) :
    ∃ front n, n ≤ 2 ∧ decodeLoop passed (s ++ t) = front ++ decodeLoop n t := by
  induction s generalizing passed with
  | nil => exact ⟨[], passed, hpassed, rfl⟩
  | cons c s ih =>
    cases passed with
    | succ passed =>
      obtain ⟨front, n, hn, heq⟩ := ih (Nat.le_of_succ_le hpassed)
      exact ⟨front, n, hn, heq⟩
    | zero =>
      rw [List.cons_append, decodeLoop]
      split_ifs with hplus hpercent
      · obtain ⟨front, n, hn, heq⟩ := ih (Nat.zero_le 2)
        exact ⟨_ :: front, n, hn, congrArg (_ :: ·) heq⟩
      · obtain ⟨front, n, hn, heq⟩ := ih (Nat.le_refl 2)
        exact ⟨_ :: front, n, hn, congrArg (_ :: ·) heq⟩
      · obtain ⟨front, n, hn, heq⟩ := ih (Nat.zero_le 2)
        exact ⟨_ :: front, n, hn, congrArg (_ :: ·) heq⟩

theorem decodeLoop_replicate {c : UInt8} (hpercent : c ≠ '%'.toUInt8) (hplus : c ≠ '+'.toUInt8) (passed n : ℕ) :
    (decodeLoop passed (List.replicate n c)).length = n - passed := by
  induction n generalizing passed with
  | zero =>
    cases passed with
    | zero => rfl
    | succ passed => exact (Nat.zero_sub _).symm
  | succ n ih =>
    rw [List.replicate_succ]
    cases passed with
    | zero =>
      rw [decodeLoop, if_neg hplus, if_neg hpercent, List.length_cons, ih]
      omega
    | succ passed =>
      rw [decodeLoop, ih]
      omega

/-- A decoded string is not longer than the encoded one. -/
theorem decodeLoop_length_le (s : List UInt8) (passed : ℕ) : (decodeLoop passed s).length ≤ s.length := by
  induction s generalizing passed with
  | nil => cases passed <;> exact Nat.le_refl 0
  | cons c s ih =>
    cases passed with
    | succ passed => exact (ih passed).trans (Nat.le_succ _)
    | zero =>
      rw [decodeLoop]
      split_ifs
      · exact Nat.succ_le_succ (ih 0)
      · exact Nat.succ_le_succ (ih 2)
      · exact Nat.succ_le_succ (ih 0)

/-! ## Where a pair writes -/

variable {pair : List UInt8 × List UInt8} {cfg : SYSCFG} {f : Field}

theorem WritesInside.short (hnul : 0 ∉ pair.2) (h : ∀ behind, WritesInside fp behind pair) : pair.2.length < 64 := by
  refine Nat.lt_of_le_of_ne (h []).value fun hfull => ?_
  -- 66 letters behind the block are more than decoding passes
  have hbehind : (0 : UInt8) ∉ List.replicate 66 (0x61 : UInt8) := by decide
  have hdecoded := (h (List.replicate 66 0x61)).decoded
  obtain ⟨front, n, hn, heq⟩ := decodeLoop_append pair.2 (List.replicate 66 0x61) (Nat.zero_le 2)
  rw [readBack_full hnul hfull hbehind, heq, List.length_append, decodeLoop_replicate (by decide) (by decide)] at hdecoded
  omega

theorem writesInside_iff (hnul : 0 ∉ pair.2) : (∀ behind, WritesInside fp behind pair) ↔ ValuesFit pair := by
  constructor
  · intro h
    have hshort := WritesInside.short hnul h
    refine ⟨(h []).key, hshort, fun f hf => ?_⟩
    have hmember := (h []).member _ hf
    rw [readBack_short hnul hshort, Member.bytes, List.length_append] at hmember
    exact hmember
  · rintro ⟨hkey, hshort, hstring⟩ behind
    have hread : readBack pair.2 behind = pair.2 := readBack_short hnul hshort
    rw [← hread] at hstring
    refine ⟨hkey, hshort.le, ?_, fun m hm => ?_⟩
    · rw [hread]
      exact Nat.succ_le_of_lt ((decodeLoop_length_le pair.2 0).trans_lt hshort)
    · obtain ⟨name, hmem, _⟩ := memberOf_mem hm
      have hsized := formMembers_sized hmem
      cases m with
      | string f => exact (List.length_append ..).trans_le (hstring f hm)
      | number f => exact Nat.le_of_eq (Eq.symm hsized)
      | multiplier f => exact Nat.le_of_eq ((fp.store_length _).trans (Eq.symm hsized))

theorem get_storeMember_other {behind : List UInt8} (h : WritesInside fp behind pair) (hf : f ∈ Field.members)
    (hother : (memberOf pair.1).map Member.field ≠ some f) :
    (storeMember fp cfg (HTTPConfig_HTMLEntityDecode (readBack pair.2 behind)) (memberOf pair.1)).get f = cfg.get f := by
  cases hm : memberOf pair.1 with
  | none => rfl
  | some m =>
    obtain ⟨name, hmem, _⟩ := memberOf_mem hm
    rw [hm] at hother
    have hne : f ≠ m.field := fun heq => hother (congrArg some heq.symm)
    exact SYSCFG.get_put_other cfg hf (formMembers_field hmem) hne (h.member m hm)

theorem get_submitted_other {behind : List UInt8} {pairs : List (List UInt8 × List UInt8)}
    (h : ∀ pair ∈ pairs, WritesInside fp behind pair) (hf : f ∈ Field.members)
    (hother : ∀ pair ∈ pairs, (memberOf pair.1).map Member.field ≠ some f) :
    (submitted fp behind cfg pairs).get f = cfg.get f := by
  induction pairs generalizing cfg with
  | nil => rfl
  | cons pair pairs ih =>
    obtain ⟨hpair, hpairs⟩ := List.forall_mem_cons.mp h
    obtain ⟨hfirst, hrest⟩ := List.forall_mem_cons.mp hother
    exact (ih hpairs hrest).trans (get_storeMember_other hpair hf hfirst)

/-- A NUL in a string field stays there, or the pair that names the field writes one. -/
theorem nul_mem_storeMember {behind : List UInt8} (h : WritesInside fp behind pair) {name : String}
    (hmem : (name, .string f) ∈ formMembers) (hnul : memberOf pair.1 = some (.string f) ∨ 0 ∈ cfg.get f) :
    0 ∈ (storeMember fp cfg (HTTPConfig_HTMLEntityDecode (readBack pair.2 behind)) (memberOf pair.1)).get f := by
  have hf : f ∈ Field.members := formMembers_field hmem
  by_cases hnamed : (memberOf pair.1).map Member.field = some f
  · obtain ⟨m, hm, hfield⟩ := Option.map_eq_some_iff.mp hnamed
    obtain ⟨name', hmem', hname'⟩ := memberOf_mem hm
    obtain rfl := formMembers_inj hmem' hmem hfield
    obtain rfl : m = .string f := Option.some.inj ((memberOf_name hmem').symm.trans (memberOf_name hmem))
    have hlength : (HTTPConfig_HTMLEntityDecode (readBack pair.2 behind) ++ [0]).length ≤ f.size := h.member _ hm
    rw [hm]
    show 0 ∈ (cfg.put f.offset (HTTPConfig_HTMLEntityDecode (readBack pair.2 behind) ++ [0])).get f
    rw [SYSCFG.get_put_take cfg (Field.members_fit f hf), List.take_of_length_le hlength]
    exact List.mem_append_left _ (List.mem_append_right _ List.mem_cons_self)
  · rw [get_storeMember_other h hf hnamed]
    refine hnul.resolve_left fun hm => hnamed ?_
    rw [hm]
    rfl

theorem nul_mem_submitted {behind : List UInt8} {pairs : List (List UInt8 × List UInt8)}
    (h : ∀ pair ∈ pairs, WritesInside fp behind pair) {name : String} (hmem : (name, .string f) ∈ formMembers)
    (hnul : (∃ pair ∈ pairs, memberOf pair.1 = some (.string f)) ∨ 0 ∈ cfg.get f) :
    0 ∈ (submitted fp behind cfg pairs).get f := by
  induction pairs generalizing cfg with
  | nil => exact hnul.resolve_left (by simp)
  | cons pair pairs ih =>
    obtain ⟨hpair, hpairs⟩ := List.forall_mem_cons.mp h
    refine ih hpairs ?_
    by_cases hlater : ∃ pair ∈ pairs, memberOf pair.1 = some (.string f)
    · exact .inl hlater
    · refine .inr (nul_mem_storeMember hpair hmem ?_)
      rcases hnul with ⟨named, hin, hm⟩ | hnul
      · obtain rfl | hin := List.mem_cons.mp hin
        · exact .inl hm
        · exact absurd ⟨named, hin, hm⟩ hlater
      · exact .inr hnul

/-- The bytes of a pair are bytes of the body. -/
theorem formPairs_value_subset (httpData : List UInt8) : ∀ pair ∈ formPairs httpData, ∀ b ∈ pair.2, b ∈ httpData := by
  fun_induction formPairs httpData with
  | case1 => simp
  | case2 httpData e hfound hlast =>
    intro pair hpair b hb
    rw [List.mem_singleton.mp hpair] at hb
    exact List.mem_of_mem_drop hb
  | case3 httpData e hfound a hmore ih =>
    intro pair hpair b hb
    obtain rfl | hpair := List.mem_cons.mp hpair
    · exact List.mem_of_mem_drop (List.mem_of_mem_take hb)
    · exact List.mem_of_mem_drop (List.mem_of_mem_drop (ih pair hpair b hb))

theorem setPair_submitted {cfg' : SYSCFG} {key value : List UInt8} (hnul : 0 ∉ value)
    (h : setPair fp cfg key value = some cfg') (behind : List UInt8) :
    cfg' = storeMember fp cfg (HTTPConfig_HTMLEntityDecode (readBack value behind)) (memberOf key) := by
  unfold setPair at h
  split at h
  · next hshort =>
    rw [readBack_short hnul hshort.2]
    cases hm : memberOf key with
    | none =>
      rw [hm] at h
      exact (Option.some.inj h).symm
    | some m =>
      rw [hm] at h
      cases m with
      | string f =>
        rw [assign] at h
        split at h
        · exact (Option.some.inj h).symm
        · cases h
      | number f => exact (Option.some.inj h).symm
      | multiplier f => exact (Option.some.inj h).symm
  · cases h

/-- `HTTPConfig_SetData` leaves this configuration where it is defined. -/
theorem formLoop_submitted {cfg' : SYSCFG} {httpData : List UInt8} (hnul : 0 ∉ httpData)
    (h : formLoop fp cfg httpData = some cfg') (behind : List UInt8) :
    cfg' = submitted fp behind cfg (formPairs httpData) := by
  fun_induction formLoop fp cfg httpData with
  | case1 cfg httpData hnone =>
    rw [formPairs_none hnone]
    exact (Option.some.inj h).symm
  | case2 cfg httpData e hfound hlast =>
    rw [formPairs_last hfound hlast]
    exact setPair_submitted (fun hzero => hnul (List.mem_of_mem_drop hzero)) h behind
  | case3 cfg httpData e hfound a hmore ih =>
    obtain ⟨next, hnext, hrest⟩ := Option.bind_eq_some_iff.mp h
    rw [formPairs_cons hfound hmore, ih next (fun hzero => hnul (List.mem_of_mem_drop (List.mem_of_mem_drop hzero))) hrest,
      setPair_submitted (fun hzero => hnul (List.mem_of_mem_drop (List.mem_of_mem_take hzero))) hnext behind]
    rfl

/-- **When a submission is harmless**: keys of at most 64 bytes, values of less, and no decoded string
that fills its field. -/
theorem harmless_iff (cfg : SYSCFG) (body : List UInt8) :
    Harmless fp cfg (formPairs (cstring body)) ↔ ∀ pair ∈ formPairs (cstring body), ValuesFit pair := by
  have hnul : ∀ pair ∈ formPairs (cstring body), 0 ∉ pair.2 := by
    intro pair hpair hzero
    have hmem := formPairs_value_subset _ pair hpair 0 hzero
    exact absurd (List.mem_takeWhile_imp hmem) (by simp)
  constructor
  · intro h pair hpair
    exact (writesInside_iff (hnul pair hpair)).mp (h.writes pair hpair)
  · intro h
    have hwrites : ∀ pair ∈ formPairs (cstring body), ∀ behind, WritesInside fp behind pair :=
      fun pair hpair => (writesInside_iff (hnul pair hpair)).mpr (h pair hpair)
    refine ⟨hwrites, fun behind pair hpair f hf => ?_, fun behind f hf hother => ?_⟩
    · obtain ⟨name, hmem, _⟩ := memberOf_mem hf
      exact nul_mem_submitted (fun pair hpair => hwrites pair hpair behind) hmem (.inl ⟨pair, hpair, hf⟩)
    · exact get_submitted_other (fun pair hpair => hwrites pair hpair behind) hf hother

/-- The body "mqtt_user=" with 40 letters behind it. -/
def longUser : List UInt8 := ascii "mqtt_user=" ++ List.replicate 40 0x61

/-- A user name longer than its field runs on into the password. -/
theorem longUser_harms : ¬ Harmless binary64.floatingPoint .zero (formPairs (cstring longUser)) ∧
    (submitted binary64.floatingPoint [] .zero (formPairs (cstring longUser))).get .mqtt_pass ≠
      SYSCFG.get .zero .mqtt_pass := by
  have hfound : strstr (cstring longUser) (ascii "=") = some 9 := by decide +kernel
  have hlast : strstr ((cstring longUser).drop 10) (ascii "&") = none := by decide +kernel
  have hpairs : formPairs (cstring longUser) = [(ascii "mqtt_user", List.replicate 40 0x61)] := by
    rw [formPairs_last hfound hlast]
    decide +kernel
  have hmember : memberOf (ascii "mqtt_user") = some (.string .mqtt_user) := by decide +kernel
  rw [hpairs]
  constructor
  · intro h
    have hlength := (h.writes _ List.mem_cons_self []).member _ hmember
    exact absurd hlength (by decide +kernel)
  · intro hsame
    have hfirst := congrArg (fun bytes => bytes[0]?) hsame
    simp only [submitted, List.foldl_cons, List.foldl_nil, hmember, storeMember, SYSCFG.get, SYSCFG.put,
      List.getElem?_take, List.getElem?_drop, getElem?_overwrite] at hfirst
    exact absurd hfirst (by decide +kernel)

end LightSleepMqtt.Http
