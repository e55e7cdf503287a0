import LightSleepMqtt.Library.History
import LightSleepMqtt.Http.Reception
import LightSleepMqtt.Http.Resubmit

/-! The device in configuration mode, and its power. `user_init` loads the configuration and starts the
server (behind a condition that is off in the source), segments arrive, and the power fails: between
the calls, or in an erasure or a write that one of them makes. What the browser sees of it is a register
that is read and updated; the flash with its three sectors, the two globals and the reloads are its
implementation. -/
namespace LightSleepMqtt.Http
open Config NorFlash Transition
set_option autoImplicit false

variable (fp : FloatingPoint) (clientId : List UInt8)

/-! ## The flash operations of the calls -/

/-- The erasures and writes of `CFG_Load`. -/
def loadOps (flash : Memory) : List Op :=
  if (activeSysCfg flash).word .cfg_holder ≠ CFG_HOLDER then saveOps (readSaveFlag flash) (defaultSysCfg clientId) else []

/-- Those of a request: `HTTPConfig_SetData` and `HTTPConfig_GetForm` both load what they work with. -/
def answerOps (recieveBuffer : List UInt8) (d : Device) : Option (List Op) :=
  (requestType recieveBuffer).bind fun line =>
    if line = ascii "GET / HTTP/1.1" then some (loadOps clientId d.flash)
    else if line = ascii "POST / HTTP/1.1" then
      (HTTPConfig_SetData fp clientId recieveBuffer d).map fun d' =>
        loadOps clientId d.flash ++ saveOps (readSaveFlag (CFG_Load clientId d).flash) d'.sysCfg ++
          loadOps clientId d'.flash
    else some []

/-- Those of a segment. -/
def callbackOps (s : Server) (pusrdata : List UInt8) : Option (List Op) :=
  let recieveBuffer := s.recieveBuffer ++ cstring pusrdata
  (HTTPConfig_AllInBuffer recieveBuffer).bind fun all =>
    if all then answerOps fp clientId recieveBuffer s.device else some []

variable {fp clientId} {d d' : Device} {s : Server} {recieveBuffer pusrdata response : List UInt8}

theorem CFG_Load_flash : (CFG_Load clientId d).flash = exec SPI_FLASH_SEC_SIZE (loadOps clientId d.flash) d.flash := by
  by_cases hholder : (activeSysCfg d.flash).word .cfg_holder = CFG_HOLDER
  · rw [CFG_Load_active hholder, loadOps, if_neg (not_not_intro hholder)]
    rfl
  · rw [CFG_Load_default hholder, loadOps, if_pos hholder]
    rfl

theorem setData_saves (h : HTTPConfig_SetData fp clientId recieveBuffer d = some d') :
    d' = CFG_Save { CFG_Load clientId d with sysCfg := d'.sysCfg } := by
  obtain ⟨data, _, hform⟩ := Option.bind_eq_some_iff.mp h
  obtain ⟨cfg, _, rfl⟩ := Option.map_eq_some_iff.mp hform
  rfl

/-- The operations are those of the answer. -/
theorem answer_flash (recieveBuffer : List UInt8) (d : Device) :
    (answer fp clientId recieveBuffer d).map (fun sent => sent.1.flash) =
      (answerOps fp clientId recieveBuffer d).map fun ops => exec SPI_FLASH_SEC_SIZE ops d.flash := by
  unfold answer answerOps
  cases requestType recieveBuffer with
  | none => rfl
  | some line =>
    simp only [Option.bind_some]
    split
    · exact congrArg some CFG_Load_flash
    · split
      · cases hset : HTTPConfig_SetData fp clientId recieveBuffer d with
        | none => rfl
        | some d' =>
          simp only [Option.map_some, exec_append, ← CFG_Load_flash (d := d)]
          rw [HTTPConfig_GetForm, CFG_Load_flash]
          exact congrArg (fun flash => some (exec SPI_FLASH_SEC_SIZE (loadOps clientId d'.flash) flash))
            (congrArg Device.flash (setData_saves hset))
      · rfl

/-! ## The board -/

/-- A power failure in a flash operation, or behind the last one, with what it leaves in the sector. -/
structure PowerFailure where
  op : ℕ
  garbage : Memory

/-- Without power there is nothing but the flash. -/
inductive Board where
  | off (flash : Memory)
  | on (s : Server)

/-- What happens, and whether the power fails in it. -/
inductive BoardEvent where
  | boot (failure : Option PowerFailure)
  | recieve (pusrdata : List UInt8) (failure : Option PowerFailure)
  | powerOff

def failed (failure : PowerFailure) (ops : List Op) (flash : Memory) : Board :=
  .off (cut SPI_FLASH_SEC_SIZE failure.garbage ops failure.op flash)

/-- The device that the startup code hands to `user_init`. -/
def cleared (flash : Memory) : Device := ⟨flash, .zero, ⟨0, [0, 0, 0]⟩⟩

variable (fp clientId) in
/-- `none` is a write outside of a block, as in the calls, or an event that the power does not allow. -/
def boardStep : Board → BoardEvent → Option (Board × Option (List UInt8))
  | .off flash, .boot none => some (.on ⟨CFG_Load clientId (cleared flash), []⟩, none)
  | .off flash, .boot (some failure) => some (failed failure (loadOps clientId flash) flash, none)
  | .on s, .recieve pusrdata none =>
    (HTTPConfig_TCPServerRecieveCallback fp clientId s pusrdata).map fun x => (.on x.1, x.2)
  | .on s, .recieve pusrdata (some failure) =>
    (callbackOps fp clientId s pusrdata).map fun ops => (failed failure ops s.device.flash, none)
  | .on s, .powerOff => some (.off s.device.flash, none)
  | _, _ => none

/-! ## What the arrays hold -/

variable (fp clientId) in
theorem answerOps_isSome (recieveBuffer : List UInt8) (d : Device) :
    (answerOps fp clientId recieveBuffer d).isSome ↔ Answerable recieveBuffer := by
  rw [← answer_isSome fp clientId recieveBuffer d, ← Option.isSome_map (f := fun sent : Device × List UInt8 => sent.1.flash),
    answer_flash, Option.isSome_map]

/-- The text of the length fits its array. A request that is taken for complete has a first line that fits,
and as a POST the end of its header and a form that fits. -/
def Holdable (recieveBuffer : List UInt8) : Prop :=
  LengthFits recieveBuffer ∧ (HTTPConfig_AllInBuffer recieveBuffer = some true → Answerable recieveBuffer)

/-- Whatever is done for a request that is complete, and defined where it can be answered. -/
theorem isSome_iff_holdable {α : Type} {recieveBuffer : List UInt8} {answered : Option α}
    (hanswered : answered.isSome ↔ Answerable recieveBuffer) (waiting : α) :
    ((HTTPConfig_AllInBuffer recieveBuffer).bind fun all => if all then answered else some waiting).isSome ↔
      Holdable recieveBuffer := by
  rw [Holdable, ← allInBuffer_isSome, ← hanswered]
  cases HTTPConfig_AllInBuffer recieveBuffer with
  | none => simp
  | some all => cases all <;> simp

/-- The power allows the event, and the arrays on the stack hold what arrives. -/
def Proceeds : Board → BoardEvent → Prop
  | .off _, .boot _ => True
  | .on s, .recieve pusrdata _ => Holdable (s.recieveBuffer ++ cstring pusrdata)
  | .on _, .powerOff => True
  | _, _ => False

variable (fp clientId) in
theorem boardStep_isSome (b : Board) (e : BoardEvent) : (boardStep fp clientId b e).isSome ↔ Proceeds b e := by
  cases b with
  | off flash =>
    cases e with
    | boot failure => cases failure <;> exact iff_of_true rfl trivial
    | recieve | powerOff => exact iff_of_false (by simp [boardStep]) id
  | on s =>
    cases e with
    | boot => exact iff_of_false (by simp [boardStep]) id
    | powerOff => exact iff_of_true rfl trivial
    | recieve pusrdata failure =>
      cases failure with
      | none =>
        rw [boardStep, Option.isSome_map, HTTPConfig_TCPServerRecieveCallback]
        exact isSome_iff_holdable (by rw [Option.isSome_map, answer_isSome]) _
      | some failure =>
        rw [boardStep, Option.isSome_map, callbackOps]
        exact isSome_iff_holdable (answerOps_isSome fp clientId _ _) _

theorem run_of_proceeds {b : Board} {events : List BoardEvent}
    (h : Admits (fun b e => (boardStep fp clientId b e).map Prod.fst) Proceeds b events) :
    ∃ b' responses, react (boardStep fp clientId) b events = some (b', responses) := by
  have hsome := (react_isSome_iff (boardStep_isSome fp clientId) b events).mpr h
  obtain ⟨⟨b', responses⟩, hrun⟩ := Option.isSome_iff_exists.mp hsome
  exact ⟨b', responses, hrun⟩

/-! ## The register -/

/-- The page for a configuration. -/
def pageOf (fp : FloatingPoint) (cfg : SYSCFG) : List UInt8 :=
  formRows.foldl (Row.append fp cfg) (ascii formHead) ++ ascii formFoot

/-- What a request makes of the configuration, and the response. -/
def serve (fp : FloatingPoint) (request : List UInt8) (cfg : SYSCFG) : Option (SYSCFG × List UInt8) :=
  (requestType request).bind fun line =>
    if line = ascii "GET / HTTP/1.1" then some (cfg, HTTPConfig_TCPServerSendResponse 200 (pageOf fp cfg))
    else if line = ascii "POST / HTTP/1.1" then
      (strstr request (ascii "\r\n\r\n")).bind fun httpData =>
        (formLoop fp cfg (request.drop (httpData + 4))).map fun cfg' =>
          (cfg', HTTPConfig_TCPServerSendResponse 200 (pageOf fp cfg'))
    else some (cfg, HTTPConfig_TCPServerSendResponse 404 [])

/-- The configuration that is stored, if one is, and with the power on the part of a request that has
arrived. -/
structure Register where
  stored : Option SYSCFG
  request : Option (List UInt8)

/-- What the register may do: an update that is cut has happened or has not. -/
inductive Serves (fp : FloatingPoint) (clientId : List UInt8) :
    Register → BoardEvent → Option (List UInt8) → Register → Prop where
  | boot (stored : Option SYSCFG) :
    Serves fp clientId ⟨stored, none⟩ (.boot none) none ⟨some (stored.getD (defaultSysCfg clientId)), some []⟩
  | bootCut {stored stored' : Option SYSCFG} (failure : PowerFailure)
    (hstored : stored' = stored ∨ stored' = some (stored.getD (defaultSysCfg clientId))) :
    Serves fp clientId ⟨stored, none⟩ (.boot (some failure)) none ⟨stored', none⟩
  | waits {cfg : SYSCFG} {request pusrdata : List UInt8}
    (hall : HTTPConfig_AllInBuffer (request ++ cstring pusrdata) = some false) :
    Serves fp clientId ⟨some cfg, some request⟩ (.recieve pusrdata none) none
      ⟨some cfg, some (request ++ cstring pusrdata)⟩
  | answers {cfg cfg' : SYSCFG} {request pusrdata response : List UInt8}
    (hall : HTTPConfig_AllInBuffer (request ++ cstring pusrdata) = some true)
    (hserve : serve fp (request ++ cstring pusrdata) cfg = some (cfg', response)) :
    Serves fp clientId ⟨some cfg, some request⟩ (.recieve pusrdata none) (some response) ⟨some cfg', some []⟩
  | cut {cfg cfg' : SYSCFG} {request pusrdata : List UInt8} (failure : PowerFailure)
    (hserve : cfg' = cfg ∨ HTTPConfig_AllInBuffer (request ++ cstring pusrdata) = some true ∧
      ∃ response, serve fp (request ++ cstring pusrdata) cfg = some (cfg', response)) :
    Serves fp clientId ⟨some cfg, some request⟩ (.recieve pusrdata (some failure)) none ⟨some cfg', none⟩
  | powerOff (stored : Option SYSCFG) (request : List UInt8) :
    Serves fp clientId ⟨stored, some request⟩ .powerOff none ⟨stored, none⟩

/-- The configuration that `CFG_Load` takes from the flash. -/
def storedIn (flash : Memory) : Option SYSCFG :=
  if (activeSysCfg flash).word .cfg_holder = CFG_HOLDER then some (activeSysCfg flash) else none

def Board.register : Board → Register
  | .off flash => ⟨storedIn flash, none⟩
  | .on s => ⟨storedIn s.device.flash, some s.recieveBuffer⟩

/-! ## What is stored -/

variable {flash flash' : Memory} {cfg cfg' : SYSCFG}

theorem storedIn_active (hactive : activeSysCfg flash = cfg) (hholder : cfg.word .cfg_holder = CFG_HOLDER) :
    storedIn flash = some cfg := by
  rw [storedIn, hactive, if_pos hholder]

theorem storedIn_some (h : storedIn flash = some cfg) :
    activeSysCfg flash = cfg ∧ cfg.word .cfg_holder = CFG_HOLDER := by
  unfold storedIn at h
  split at h
  · rename_i hholder
    obtain rfl := Option.some.inj h
    exact ⟨rfl, hholder⟩
  · cases h

theorem storedIn_congr (h : activeSysCfg flash' = activeSysCfg flash) : storedIn flash' = storedIn flash := by
  rw [storedIn, storedIn, h]

theorem loadOps_stored (h : storedIn flash = some cfg) : loadOps clientId flash = [] := by
  obtain ⟨rfl, hholder⟩ := storedIn_some h
  exact if_neg (not_not_intro hholder)

variable (clientId) in
/-- A load answers what is stored, and stores what it answers. -/
theorem CFG_Load_stored (d : Device) : (CFG_Load clientId d).sysCfg = (storedIn d.flash).getD (defaultSysCfg clientId) ∧
    storedIn (CFG_Load clientId d).flash = some ((storedIn d.flash).getD (defaultSysCfg clientId)) := by
  obtain ⟨hactive, hholder⟩ := CFG_Load_holds clientId d
  have hanswer : (CFG_Load clientId d).sysCfg = (storedIn d.flash).getD (defaultSysCfg clientId) := by
    by_cases hvalid : (activeSysCfg d.flash).word .cfg_holder = CFG_HOLDER
    · rw [CFG_Load_active hvalid, storedIn, if_pos hvalid, Option.getD_some]
    · rw [CFG_Load_default hvalid, storedIn, if_neg hvalid, Option.getD_none]
      rfl
  exact ⟨hanswer, hanswer ▸ storedIn_active hactive hholder⟩

variable (clientId) in
theorem CFG_Load_known (h : storedIn d.flash = some cfg) :
    (CFG_Load clientId d).sysCfg = cfg ∧ storedIn (CFG_Load clientId d).flash = some cfg := by
  have hload := CFG_Load_stored clientId d
  rw [h, Option.getD_some] at hload
  exact hload

theorem cut_nil (garbage : Memory) (i : ℕ) (m : Memory) : cut SPI_FLASH_SEC_SIZE garbage [] i m = m := by
  cases i <;> rfl

/-- A load that is cut has stored the defaults or has not. -/
theorem cut_loadOps (garbage : Memory) (i : ℕ) (flash : Memory) :
    storedIn (cut SPI_FLASH_SEC_SIZE garbage (loadOps clientId flash) i flash) = storedIn flash ∨
      storedIn (cut SPI_FLASH_SEC_SIZE garbage (loadOps clientId flash) i flash) =
        some ((storedIn flash).getD (defaultSysCfg clientId)) := by
  by_cases hholder : (activeSysCfg flash).word .cfg_holder = CFG_HOLDER
  · rw [loadOps, if_neg (not_not_intro hholder), cut_nil]
    exact .inl rfl
  · rw [loadOps, if_pos hholder]
    obtain hold | hnew := active_interrupted (defaultSysCfg clientId) flash garbage i
    · exact .inl (storedIn_congr hold)
    · right
      rw [show storedIn flash = none from if_neg hholder]
      exact storedIn_active hnew (defaultSysCfg_holder clientId)

/-! ## What a form cannot change -/

theorem formMembers_behind_holder : ∀ entry ∈ formMembers, Field.cfg_holder.size ≤ entry.2.field.offset := by decide

theorem setPair_holder {key value : List UInt8} (h : setPair fp cfg key value = some cfg') :
    cfg'.get .cfg_holder = cfg.get .cfg_holder := by
  cases hm : memberOf key with
  | none =>
    unfold setPair at h
    split at h
    · rw [hm] at h
      rw [← Option.some.inj h]
    · cases h
  | some m =>
    obtain ⟨name, hmem, _⟩ := memberOf_mem hm
    rw [setPair_put hm h]
    refine SYSCFG.get_put_disjoint cfg (.inl ?_)
    rw [show Field.cfg_holder.offset = 0 from rfl, Nat.zero_add]
    exact formMembers_behind_holder _ hmem

/-- However long its values are, a form leaves the mark of a valid configuration. -/
theorem formLoop_holder {httpData : List UInt8} (h : formLoop fp cfg httpData = some cfg') :
    cfg'.get .cfg_holder = cfg.get .cfg_holder := by
  fun_induction formLoop fp cfg httpData with
  | case1 cfg httpData hnone => rw [← Option.some.inj h]
  | case2 cfg httpData e hfound hlast => exact setPair_holder h
  | case3 cfg httpData e hfound a hmore ih =>
    obtain ⟨next, hnext, hrest⟩ := Option.bind_eq_some_iff.mp h
    exact (ih next hrest).trans (setPair_holder hnext)

/-! ## What a request does -/

theorem setData_serves (h : storedIn d.flash = some cfg)
    (hset : HTTPConfig_SetData fp clientId recieveBuffer d = some d') :
    ∃ httpData, strstr recieveBuffer (ascii "\r\n\r\n") = some httpData ∧
      formLoop fp cfg (recieveBuffer.drop (httpData + 4)) = some d'.sysCfg ∧
      d'.sysCfg.word .cfg_holder = CFG_HOLDER ∧ storedIn d'.flash = some d'.sysCfg := by
  have hload := (CFG_Load_known clientId h).1
  obtain ⟨httpData, hdata, hform⟩ := Option.bind_eq_some_iff.mp hset
  obtain ⟨cfg', hloop, rfl⟩ := Option.map_eq_some_iff.mp hform
  rw [hload] at hloop
  have hholder : cfg'.word .cfg_holder = CFG_HOLDER := by
    rw [SYSCFG.word, formLoop_holder hloop]
    exact (storedIn_some h).2
  exact ⟨httpData, hdata, hloop, hholder, storedIn_active (CFG_Save_active _) hholder⟩

variable (fp clientId) in
theorem getForm_eq (h : storedIn d.flash = some cfg) :
    (HTTPConfig_GetForm fp clientId d).2 = pageOf fp cfg ∧ storedIn (HTTPConfig_GetForm fp clientId d).1.flash = some cfg := by
  obtain ⟨hload, hstored⟩ := CFG_Load_known clientId h
  exact ⟨congrArg (pageOf fp) hload, hstored⟩

/-- A request is answered from what is stored, and leaves it as it should. -/
theorem answer_serves (h : storedIn d.flash = some cfg)
    (hanswer : answer fp clientId recieveBuffer d = some (d', response)) :
    ∃ cfg', serve fp recieveBuffer cfg = some (cfg', response) ∧ storedIn d'.flash = some cfg' := by
  obtain ⟨line, hline, hrest⟩ := Option.bind_eq_some_iff.mp hanswer
  simp only [serve, hline, Option.bind_some]
  by_cases hget : line = ascii "GET / HTTP/1.1"
  · rw [if_pos hget] at hrest ⊢
    obtain ⟨hpage, hstored⟩ := getForm_eq fp clientId h
    obtain ⟨rfl, rfl⟩ := Prod.mk.inj (Option.some.inj hrest)
    rw [← hpage]
    exact ⟨cfg, rfl, hstored⟩
  · rw [if_neg hget] at hrest ⊢
    by_cases hpost : line = ascii "POST / HTTP/1.1"
    · rw [if_pos hpost] at hrest ⊢
      obtain ⟨d₁, hset, hform⟩ := Option.map_eq_some_iff.mp hrest
      obtain ⟨httpData, hdata, hloop, _, hsaved⟩ := setData_serves h hset
      obtain ⟨hpage, hstored⟩ := getForm_eq fp clientId hsaved
      obtain ⟨rfl, rfl⟩ := Prod.mk.inj hform
      rw [hpage, hdata, Option.bind_some, hloop, Option.map_some]
      exact ⟨d₁.sysCfg, rfl, hstored⟩
    · rw [if_neg hpost] at hrest ⊢
      obtain ⟨rfl, rfl⟩ := Prod.mk.inj (Option.some.inj hrest)
      exact ⟨cfg, rfl, h⟩

/-- A request that is cut has been served or has not. -/
theorem cut_answerOps (h : storedIn d.flash = some cfg) {ops : List Op}
    (hops : answerOps fp clientId recieveBuffer d = some ops) (garbage : Memory) (i : ℕ) :
    ∃ cfg', storedIn (cut SPI_FLASH_SEC_SIZE garbage ops i d.flash) = some cfg' ∧
      (cfg' = cfg ∨ ∃ response, serve fp recieveBuffer cfg = some (cfg', response)) := by
  have hnothing : ops = [] → ∃ cfg', storedIn (cut SPI_FLASH_SEC_SIZE garbage ops i d.flash) = some cfg' ∧
      (cfg' = cfg ∨ ∃ response, serve fp recieveBuffer cfg = some (cfg', response)) := by
    rintro rfl
    rw [cut_nil]
    exact ⟨cfg, h, .inl rfl⟩
  obtain ⟨line, hline, hrest⟩ := Option.bind_eq_some_iff.mp hops
  by_cases hget : line = ascii "GET / HTTP/1.1"
  · rw [if_pos hget, loadOps_stored h] at hrest
    exact hnothing (Option.some.inj hrest).symm
  · rw [if_neg hget] at hrest
    by_cases hpost : line = ascii "POST / HTTP/1.1"
    · rw [if_pos hpost] at hrest
      obtain ⟨d₁, hset, rfl⟩ := Option.map_eq_some_iff.mp hrest
      obtain ⟨httpData, hdata, hloop, hholder, hsaved⟩ := setData_serves h hset
      have hload : (CFG_Load clientId d).flash = d.flash := by
        rw [CFG_Load_flash, loadOps_stored h]
        rfl
      rw [loadOps_stored h, loadOps_stored hsaved, hload, List.nil_append, List.append_nil]
      obtain hold | hnew := active_interrupted d₁.sysCfg d.flash garbage i
      · exact ⟨cfg, (storedIn_congr hold).trans h, .inl rfl⟩
      · refine ⟨d₁.sysCfg, storedIn_active hnew hholder,
        .inr ⟨HTTPConfig_TCPServerSendResponse 200 (pageOf fp d₁.sysCfg), ?_⟩⟩
        rw [serve, hline, Option.bind_some, if_neg hget, if_pos hpost, hdata, Option.bind_some, hloop]
        rfl
    · rw [if_neg hpost] at hrest
      exact hnothing (Option.some.inj hrest).symm

/-! ## The refinement -/

/-- With the power on, a configuration is stored. -/
def Board.Loaded : Board → Prop
  | .off _ => True
  | .on s => ∃ cfg, storedIn s.device.flash = some cfg

theorem register_on {s : Server} (h : storedIn s.device.flash = some cfg) :
    (Board.on s).register = ⟨some cfg, some s.recieveBuffer⟩ := by
  rw [Board.register, h]

theorem register_failed {failure : PowerFailure} {ops : List Op}
    (h : storedIn (cut SPI_FLASH_SEC_SIZE failure.garbage ops failure.op flash) = some cfg) :
    (failed failure ops flash).register = ⟨some cfg, none⟩ := by
  rw [failed, Board.register, h]

variable {b b' : Board} {e : BoardEvent} {o : Option (List UInt8)}

theorem recieve_serves (h : storedIn s.device.flash = some cfg)
    (hstep : boardStep fp clientId (.on s) (.recieve pusrdata none) = some (b', o)) :
    b'.Loaded ∧ Serves fp clientId ⟨some cfg, some s.recieveBuffer⟩ (.recieve pusrdata none) o b'.register := by
  obtain ⟨⟨t, response⟩, hcall, heq⟩ := Option.map_eq_some_iff.mp hstep
  obtain ⟨rfl, rfl⟩ := Prod.mk.inj heq
  cases response with
  | none =>
    obtain ⟨hall, rfl⟩ := callback_waits_iff.mp hcall
    rw [register_on (s := ⟨s.device, s.recieveBuffer ++ cstring pusrdata⟩) h]
    exact ⟨⟨cfg, h⟩, .waits hall⟩
  | some response =>
    obtain ⟨hall, hanswer, hempty⟩ := callback_sends_iff.mp hcall
    obtain ⟨cfg', hserve, hstored⟩ := answer_serves h hanswer
    rw [register_on hstored, hempty]
    exact ⟨⟨cfg', hstored⟩, .answers hall hserve⟩

theorem recieve_cut_serves (h : storedIn s.device.flash = some cfg) {failure : PowerFailure}
    (hstep : boardStep fp clientId (.on s) (.recieve pusrdata (some failure)) = some (b', o)) :
    b'.Loaded ∧
      Serves fp clientId ⟨some cfg, some s.recieveBuffer⟩ (.recieve pusrdata (some failure)) o b'.register := by
  obtain ⟨ops, hops, heq⟩ := Option.map_eq_some_iff.mp hstep
  obtain ⟨rfl, rfl⟩ := Prod.mk.inj heq
  refine ⟨trivial, ?_⟩
  obtain ⟨all, hall, hrest⟩ := Option.bind_eq_some_iff.mp hops
  cases all with
  | true =>
    obtain ⟨cfg', hcut, hserve⟩ := cut_answerOps h hrest failure.garbage failure.op
    rw [register_failed hcut]
    exact .cut failure (hserve.imp_right fun hserve => ⟨hall, hserve⟩)
  | false =>
    obtain rfl := Option.some.inj hrest
    have hcut : storedIn (cut SPI_FLASH_SEC_SIZE failure.garbage [] failure.op s.device.flash) = some cfg := by
      rw [cut_nil]
      exact h
    rw [register_failed hcut]
    exact .cut failure (.inl rfl)

/-- **Every event is one of the register.** -/
theorem boardStep_serves (h : b.Loaded) (hstep : boardStep fp clientId b e = some (b', o)) :
    b'.Loaded ∧ Serves fp clientId b.register e o b'.register := by
  cases b with
  | off flash =>
    cases e with
    | boot failure =>
      cases failure with
      | none =>
        have hload := (CFG_Load_stored clientId (cleared flash)).2
        generalize hloaded : CFG_Load clientId (cleared flash) = d at hload
        rw [boardStep, hloaded] at hstep
        obtain ⟨rfl, rfl⟩ := Prod.mk.inj (Option.some.inj hstep)
        rw [register_on (s := ⟨d, []⟩) hload]
        exact ⟨⟨_, hload⟩, .boot _⟩
      | some failure =>
        obtain ⟨rfl, rfl⟩ := Prod.mk.inj (Option.some.inj hstep)
        exact ⟨trivial, .bootCut failure (cut_loadOps failure.garbage failure.op flash)⟩
    | recieve => cases hstep
    | powerOff => cases hstep
  | on s =>
    obtain ⟨cfg, hstored⟩ := h
    rw [register_on hstored]
    cases e with
    | boot => cases hstep
    | recieve pusrdata failure =>
      cases failure with
      | none => exact recieve_serves hstored hstep
      | some failure => exact recieve_cut_serves hstored hstep
    | powerOff =>
      obtain ⟨rfl, rfl⟩ := Prod.mk.inj (Option.some.inj hstep)
      rw [Board.register, hstored]
      exact ⟨trivial, .powerOff _ _⟩

/-- **The configurator is a register**, from any flash whatever, on every run in which the arrays on the
stack hold what arrives: it comes to its end, and the responses are those of a register that an update
changes whole, or, when the power fails in it, whole or not at all. -/
theorem board_refines_register {flash : Memory} {events : List BoardEvent}
    (hproceeds : Admits (fun b e => (boardStep fp clientId b e).map Prod.fst) Proceeds (.off flash) events) :
    ∃ b' responses, react (boardStep fp clientId) (.off flash) events = some (b', responses) ∧
      Allowed (Serves fp clientId) ⟨storedIn flash, none⟩ events responses b'.register := by
  obtain ⟨b', responses, hrun⟩ := run_of_proceeds hproceeds
  exact ⟨b', responses, hrun, (react_allowed (fun h hstep => boardStep_serves h hstep)
    (show (Board.off flash).Loaded from trivial) hrun).2⟩

/-- A new device loses its power while it stores the defaults, is started again, and shows them. -/
def firstBoot : List BoardEvent := [.boot (some ⟨3, fun _ => 165⟩), .boot none, .recieve pageRequest none, .powerOff]

theorem firstBoot_proceeds : Admits (fun b e => (boardStep binary64.floatingPoint [] b e).map Prod.fst) Proceeds
    (.off fun _ => 255) firstBoot :=
  (react_isSome_iff (boardStep_isSome binary64.floatingPoint []) _ _).mp (by decide +kernel)

theorem board_refines_register_blank : ∃ b' responses,
    react (boardStep binary64.floatingPoint []) (.off fun _ => 255) firstBoot = some (b', responses) ∧
      Allowed (Serves binary64.floatingPoint []) ⟨storedIn fun _ => 255, none⟩ firstBoot responses b'.register :=
  board_refines_register firstBoot_proceeds

/-! ## Durability -/

/-- The segment completes a form that is posted. -/
def Posts : Board → BoardEvent → Prop
  | .on s, .recieve pusrdata _ => HTTPConfig_AllInBuffer (s.recieveBuffer ++ cstring pusrdata) = some true ∧
      requestType (s.recieveBuffer ++ cstring pusrdata) = some (ascii "POST / HTTP/1.1")
  | _, _ => False

instance : (b : Board) → (e : BoardEvent) → Decidable (Posts b e)
  | .on _, .recieve _ _ => inferInstanceAs (Decidable (_ ∧ _))
  | .on _, .boot _ | .on _, .powerOff | .off _, _ => inferInstanceAs (Decidable False)

/-- Any other request leaves what is stored. -/
theorem serve_kept {request : List UInt8} (hpost : requestType request ≠ some (ascii "POST / HTTP/1.1"))
    (h : serve fp request cfg = some (cfg', response)) :
    cfg' = cfg ∧ (response = HTTPConfig_TCPServerSendResponse 200 (pageOf fp cfg) ∨
      response = HTTPConfig_TCPServerSendResponse 404 []) := by
  obtain ⟨line, hline, hrest⟩ := Option.bind_eq_some_iff.mp h
  split at hrest
  · obtain ⟨rfl, rfl⟩ := Prod.mk.inj (Option.some.inj hrest)
    exact ⟨rfl, .inl rfl⟩
  · split at hrest
    · rename_i hline'
      exact absurd (hline.trans (congrArg some hline')) hpost
    · obtain ⟨rfl, rfl⟩ := Prod.mk.inj (Option.some.inj hrest)
      exact ⟨rfl, .inr rfl⟩

theorem Serves.kept {r r' : Register} (h : Serves fp clientId r e o r') (hstored : r.stored = some cfg)
    (hpost : ∀ request pusrdata failure, r.request = some request → e = .recieve pusrdata failure →
      HTTPConfig_AllInBuffer (request ++ cstring pusrdata) = some true →
      requestType (request ++ cstring pusrdata) ≠ some (ascii "POST / HTTP/1.1")) :
    r'.stored = some cfg ∧ (o = none ∨ o = some (HTTPConfig_TCPServerSendResponse 200 (pageOf fp cfg)) ∨
      o = some (HTTPConfig_TCPServerSendResponse 404 [])) := by
  cases h with
  | boot stored =>
    obtain rfl : stored = some cfg := hstored
    exact ⟨rfl, .inl rfl⟩
  | @bootCut stored stored' failure hcut =>
    obtain rfl : stored = some cfg := hstored
    obtain rfl | rfl := hcut
    · exact ⟨rfl, .inl rfl⟩
    · exact ⟨rfl, .inl rfl⟩
  | waits => exact ⟨hstored, .inl rfl⟩
  | answers hall hserve =>
    obtain rfl := Option.some.inj hstored
    obtain ⟨rfl, hresponse⟩ := serve_kept (hpost _ _ _ rfl rfl hall) hserve
    exact ⟨rfl, .inr (hresponse.imp (congrArg some) (congrArg some))⟩
  | cut failure hserve =>
    obtain rfl := Option.some.inj hstored
    refine ⟨?_, .inl rfl⟩
    obtain rfl | ⟨hall, _, hserve⟩ := hserve
    · rfl
    · exact congrArg some (serve_kept (hpost _ _ _ rfl rfl hall) hserve).1
  | powerOff => exact ⟨hstored, .inl rfl⟩

/-- **What is stored stays until a form is posted**, and every page in between shows it, however often the
power fails, and wherever, as long as the arrays on the stack hold what arrives. -/
theorem run_keeps_stored (hloaded : b.Loaded) (hstored : b.register.stored = some cfg) {events : List BoardEvent}
    (hproceeds : Admits (fun b e => (boardStep fp clientId b e).map Prod.fst) Proceeds b events)
    (hposts : Meets (fun b e => (boardStep fp clientId b e).map Prod.fst) (fun b e => ¬ Posts b e) b events) :
    ∃ b' responses, react (boardStep fp clientId) b events = some (b', responses) ∧
      b'.register.stored = some cfg ∧ ∀ o ∈ responses, o = none ∨
        o = some (HTTPConfig_TCPServerSendResponse 200 (pageOf fp cfg)) ∨
        o = some (HTTPConfig_TCPServerSendResponse 404 []) := by
  have hevent {b b' : Board} {e : BoardEvent} {o : Option (List UInt8)}
      (hI : b.Loaded ∧ b.register.stored = some cfg) (hpost : ¬ Posts b e)
      (hstep : boardStep fp clientId b e = some (b', o)) :
      (b'.Loaded ∧ b'.register.stored = some cfg) ∧ (o = none ∨
        o = some (HTTPConfig_TCPServerSendResponse 200 (pageOf fp cfg)) ∨
        o = some (HTTPConfig_TCPServerSendResponse 404 [])) := by
    obtain ⟨hloaded, hserves⟩ := boardStep_serves hI.1 hstep
    have hother (request pusrdata : List UInt8) (failure : Option PowerFailure) (hrequest : b.register.request = some request)
        (he : e = .recieve pusrdata failure) (hall : HTTPConfig_AllInBuffer (request ++ cstring pusrdata) = some true) :
        requestType (request ++ cstring pusrdata) ≠ some (ascii "POST / HTTP/1.1") := by
      intro hline
      subst he
      cases b with
      | off => cases hrequest
      | on s =>
        obtain rfl := Option.some.inj hrequest
        exact hpost ⟨hall, hline⟩
    obtain ⟨hkept, ho⟩ := hserves.kept hI.2 hother
    exact ⟨⟨hloaded, hkept⟩, ho⟩
  obtain ⟨b', responses, hrun⟩ := run_of_proceeds hproceeds
  obtain ⟨⟨_, hkept⟩, hresponses⟩ := react_invariant hevent ⟨hloaded, hstored⟩ hposts hrun
  exact ⟨b', responses, hrun, hkept, hresponses⟩

theorem run_keeps_stored_defaults : ∃ b' responses,
    react (boardStep binary64.floatingPoint []) (.on ⟨CFG_Load [] (cleared fun _ => 255), []⟩)
        (.powerOff :: firstBoot.tail) = some (b', responses) ∧
      b'.register.stored = some (defaultSysCfg []) ∧ ∀ o ∈ responses, o = none ∨
        o = some (HTTPConfig_TCPServerSendResponse 200 (pageOf binary64.floatingPoint (defaultSysCfg []))) ∨
        o = some (HTTPConfig_TCPServerSendResponse 404 []) := by
  have hblank : storedIn (fun _ => 255) = none := if_neg (by decide +kernel)
  have hstored : storedIn (CFG_Load [] (cleared fun _ => 255)).flash = some (defaultSysCfg []) := by
    rw [(CFG_Load_stored [] _).2, show (cleared fun _ => 255).flash = fun _ => 255 from rfl, hblank]
    rfl
  have hsome : (react (boardStep binary64.floatingPoint []) (.on ⟨CFG_Load [] (cleared fun _ => 255), []⟩)
      (.powerOff :: firstBoot.tail)).isSome = true := by decide +kernel
  have hposts : Meets (fun b e => (boardStep binary64.floatingPoint [] b e).map Prod.fst) (fun b e => ¬ Posts b e)
      (.on ⟨CFG_Load [] (cleared fun _ => 255), []⟩) (.powerOff :: firstBoot.tail) := by decide +kernel
  generalize CFG_Load [] (cleared fun _ => 255) = d at hstored hsome hposts ⊢
  have hproceeds := (react_isSome_iff (boardStep_isSome binary64.floatingPoint []) _ _).mp hsome
  have hregister := register_on (s := ⟨d, []⟩) hstored
  have hloaded : (Board.on ⟨d, []⟩).Loaded := ⟨_, hstored⟩
  exact run_keeps_stored hloaded (congrArg Register.stored hregister) hproceeds hposts

end LightSleepMqtt.Http
