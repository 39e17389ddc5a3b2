import PicoV9k.ReplayPlaces

/-!
# The worker on its path

What the worker makes of an access that its place admits: a step of the path, or the
answer to the last byte of a command. No step of the path changes the DMA mode or the
CONTROL cell but through the access itself.
-/
namespace PicoV9k.Sasi
open PicoV9k.Bus PicoV9k.Storage

variable {Io σ : Type}

lemma deferProcessRead_unexpected {w : Place} {c : Card σ} (hw : w.Holds c.controller none)
    (hu : w.Unread) : deferProcessRead c .data = c := by
  have hbus : c.dma.busCtrl = 0x00 ∨ c.dma.busCtrl = 0x24 ∨ c.dma.busCtrl = 0x0E ∨
      c.dma.busCtrl = 0x0C := by
    cases hw with
    | free h => exact .inl h.busCtrl
    | selected h => exact .inr (.inl h.busCtrl)
    | command h hlen => exact .inr (.inr (.inl h.busCtrl))
    | list hbus hsel hreq hleft hpos hbuf => exact .inr (.inr (.inr hbus))
    | status h hp ho => exact hu.elim
    | message h => exact hu.elim
  unfold deferProcessRead
  rcases hbus with hbus | hbus | hbus | hbus <;> rw [hbus] <;> rfl

lemma acceptDataByte_list {c : Card σ} {left : ℕ} (data : Byte)
    (hw : (Place.list left).Holds c.controller none) : acceptDataByte c data = acknowledgeByte c data := by
  cases hw with
  | list hbus hsel hreq hleft hpos hbuf =>
    have hbus' : c.dma.busCtrl = 0x0C := hbus
    have hreq' : c.dma.nonDmaReq = true := hreq
    exact acceptDataByte_acknowledge hsel (by rw [hreq', hbus']; decide)

/-- A byte of a list is answered by the request for the next one, the last by the status. -/
lemma deferProcessData_list (io : SectorIo Io) {c : Card σ} (left : ℕ) {seenAt : ℕ} {data : Byte}
    (hw : (Place.list (left + 1)).Holds c.controller none) :
    deferProcessData io c seenAt data = (handleSasiDataOutByte (acknowledgeByte c data) data, none) := by
  have haccept := acceptDataByte_list data hw
  cases hw with
  | list hbus hsel hreq hleft hpos hbuf =>
    have hbus' : c.dma.busCtrl = 0x0C := hbus
    have hleft' : (acknowledgeByte c data).dma.dataOutExpected = left + 1 := hleft
    have hphase : ¬ (acknowledgeByte c data).dma.busCtrl &&& phaseMask = sasiCtlBit := by
      show ¬ acknowledged c.dma.busCtrl &&& phaseMask = sasiCtlBit
      rw [hbus']
      decide
    unfold deferProcessData
    rw [haccept]
    exact (if_neg hphase).trans (if_pos (by omega))

lemma handleSasiDataOutByte_more (c : Card σ) {left : ℕ} (data : Byte)
    (hleft : c.dma.dataOutExpected = left + 1) (hmore : left ≠ 0) :
    ∃ buffer, handleSasiDataOutByte c data =
      requestDataOutByte { c with dma := { c.dma with buffer := buffer, dataOutExpected := left } } := by
  unfold handleSasiDataOutByte
  rw [if_neg (by omega), hleft, Nat.add_sub_cancel]
  exact ⟨_, if_pos (by omega)⟩

lemma handleSasiDataOutByte_last (c : Card σ) {data : Byte} (hleft : c.dma.dataOutExpected = 1) :
    handleSasiDataOutByte c data =
      signalCommandComplete { c with dma := { c.dma with buffer := [], dataOutExpected := 0 } } := by
  unfold handleSasiDataOutByte
  rw [if_neg (by omega), hleft]
  exact if_neg (by omega)

lemma listByte_served (io : SectorIo Io) {c : Card σ} {left seenAt : ℕ} {data : Byte}
    (hw : (Place.list (left + 1)).Holds c.controller none) (hmore : left ≠ 0) :
    Served c (.list left) (deferProcessData io c seenAt data) := by
  rw [deferProcessData_list io left hw]
  cases hw with
  | list hbus hsel hreq hleft hpos hbuf =>
    have hbus' : c.dma.busCtrl = 0x0C := hbus
    have hrequest : dataOutRequest (acknowledged c.dma.busCtrl) = 0x0C := by rw [hbus']; decide
    obtain ⟨buffer, heq⟩ := handleSasiDataOutByte_more (acknowledgeByte c data) data
      hleft hmore
    rw [heq]
    refine .quiet rfl (.list hrequest hsel rfl rfl (Nat.pos_of_ne_zero hmore) hbuf) (.inr ?_)
    show dataOutRequest (acknowledged c.dma.busCtrl) &&& statusMask &&& phaseMask = 0
    rw [hrequest]
    decide

lemma lastListByte_served (io : SectorIo Io) {c : Card σ} {seenAt : ℕ} {data : Byte}
    (hw : (Place.list 1).Holds c.controller none) :
    Served c (.executing true) (deferProcessData io c seenAt data) := by
  rw [deferProcessData_list io 0 hw]
  cases hw with
  | list hbus hsel hreq hleft hpos hbuf =>
    have hbus' : c.dma.busCtrl = 0x0C := hbus
    have hrequest : statusRequest (acknowledged c.dma.busCtrl) = 0x0F := by rw [hbus']; decide
    rw [handleSasiDataOutByte_last (acknowledgeByte c data) hleft]
    refine .answered (.status true) (.status ⟨hrequest, hsel, rfl, rfl, hbuf⟩ rfl rfl) ?_ (by simp)
    show statusRequest (acknowledged c.dma.busCtrl) &&& statusMask &&& phaseMask = sasiCtlBit ||| sasiInpBit
    rw [hrequest]
    decide

lemma commandBusy_message : ∀ b : Byte, hasBit (commandBusy b) sasiMsgBit = false := by decide

lemma dataInBusy_message : ∀ b : Byte, hasBit (dataInBusy b) sasiMsgBit = false := by decide

lemma dataOutBusy_message : ∀ b : Byte, hasBit (dataOutBusy b) sasiMsgBit = false := by decide

/-- While sectors move no message is offered. -/
lemma transferStep_message (reg : Registry Io σ) (io : SectorIo Io) {c : Card σ} {t : Transfer}
    (h : hasBit c.dma.busCtrl sasiMsgBit = false) :
    ∀ t' ∈ (transferStep reg io c t).2,
      hasBit (transferStep reg io c t).1.dma.busCtrl sasiMsgBit = false := by
  unfold transferStep
  split
  · exact fun t' ht' => by cases ht'
  · split
    · exact fun t' _ => sectorStep_bus reg (P := fun b => hasBit b sasiMsgBit = false)
        commandBusy_message dataInBusy_message dataOutBusy_message io t h
    · exact fun t' ht' => by cases ht'

lemma routeToSasiTarget_message (io : SectorIo Io) (c : Card σ) (cmd : List Byte) :
    ∀ t ∈ (routeToSasiTarget io c cmd).2,
      hasBit (routeToSasiTarget io c cmd).1.dma.busCtrl sasiMsgBit = false := by
  unfold routeToSasiTarget
  dsimp only
  cases Opcode.ofByte (cdbByte cmd 0) with
  | readSix => exact fun t _ => commandBusy_message _
  | writeSix => exact fun t _ => commandBusy_message _
  | _ => exact fun t ht => by cases ht

lemma message_masked : ∀ b : Byte, hasBit b sasiMsgBit = false → hasBit (b &&& statusMask) sasiMsgBit = false := by
  decide

/-- A transfer under way answers with the next boundary. -/
lemma transfer_served {c d : Card σ} {t : Transfer} {target : Byte} {cdb : List Byte} {τ : ℕ}
    (hd : d.controller.Works target cdb τ) (hsync : d.Synced) (haddr : t.localDmaAddr < ramSize)
    (hmsg : hasBit d.dma.busCtrl sasiMsgBit = false) : Served c (.executing false) (d, some t) := by
  have hcell : d.cache.status = d.dma.busCtrl &&& statusMask := hsync
  refine .answered .transfer (.executing hd haddr hmsg) ⟨?_, ?_⟩ fun _ => hsync
  · show d.cache.status &&& phaseMask ≠ _
    rw [hcell]
    exact busyBus_calm _ hd.busy
  · show hasBit d.cache.status sasiMsgBit = false
    rw [hcell]
    exact message_masked _ hmsg

/-- A command over answers with its status. -/
lemma status_served {c d : Card σ} {target : Byte} {cdb : List Byte} {τ : ℕ}
    (hd : d.controller.Works target cdb τ) (b : Byte) :
    Served c (.executing false) ({ sasiEnterStatusPhase d b with cmdBuffer := [] }, none) := by
  have hbus : statusRequest d.dma.busCtrl = 0x0F := statusRequest_busy _ hd.busy
  refine .answered (.status false) (.status ⟨hbus, hd.select, rfl, hd.noData, rfl⟩ rfl rfl) ?_ (by simp)
  show statusRequest d.dma.busCtrl &&& statusMask &&& phaseMask = sasiCtlBit ||| sasiInpBit
  rw [hbus]
  decide

/-- A boundary that sees no RESET. -/
theorem transferStep_served (reg : Registry Io σ) (io : SectorIo Io) {c : Card σ} {t : Transfer}
    (hw : (Place.executing false).Holds c.controller (some t)) (hsync : c.Synced)
    (hreset : c.dma.resetRequested = false) :
    Served c (.executing false) (afterRoute (transferStep reg io c t)) := by
  cases hw with | executing hworks haddr hmsg =>
  have hboundary := transferStep_boundary reg io c haddr
  have hnext := transferStep_message reg io (t := t) hmsg
  generalize transferStep reg io c t = r at hboundary hnext ⊢
  cases hboundary with
  | abandoned hrequested =>
    rw [hreset] at hrequested
    cases hrequested
  | moved _ hd haddr' => exact transfer_served (hd.works hworks) (hd.synced hsync) haddr' (hnext _ rfl)
  | completed b _ hd => exact status_served (hd.works hworks) b

/-- A list is expected only when it is asked for. -/
lemma routeToSasiTarget_listless (io : SectorIo Io) {c : Card σ} {cdb : List Byte}
    (hon : c.dma.dmaEnabled = true) :
    (routeToSasiTarget io c cdb).1.dma.dataOutExpected = c.dma.dataOutExpected := by
  have hrouted := routeToSasiTarget_routed io c cdb
  cases hop : Opcode.ofByte (cdbByte cdb 0) with
  | driveParams =>
    have hparams : handleDriveParams io (c.recordRouted cdb) = fetchParameters io
        ((c.recordRouted cdb).sasiBusCtrlSet (dataOutBusy c.dma.busCtrl)) driveParamsLength := if_pos hon
    have heq : routeToSasiTarget io c cdb = (handleDriveParams io (c.recordRouted cdb), none) := by
      unfold routeToSasiTarget
      dsimp only
      rw [hop]
      rfl
    obtain ⟨d, b, hd, hend⟩ := fetchParameters_completes io
      ((c.recordRouted cdb).sasiBusCtrlSet (dataOutBusy c.dma.busCtrl)) driveParamsLength
    rw [heq, hparams, hend]
    exact (congrArg Registers.dataOutExpected hd.dma :)
  | _ =>
    generalize routeToSasiTarget io c cdb = r at hrouted ⊢
    cases hrouted with
    | moving _ hd _ _ => exact (congrArg Registers.dataOutExpected hd.dma :)
    | completed b _ hd => exact (congrArg Registers.dataOutExpected hd.dma :)
    | expecting hexpects =>
      rw [hop] at hexpects
      cases hexpects

/-- The place a whole CDB leads to. -/
def Place.issued (dma : Bool) (cdb : List Byte) : Place :=
  if Asks dma cdb then .asking else .executing false

theorem routeToSasiTarget_served (io : SectorIo Io) {c d : Card σ} {target : Byte} {cdb : List Byte} {τ : ℕ}
    (hd : d.controller.Works target cdb τ) (hsync : d.Synced) :
    Served c (.issued d.dma.dmaEnabled cdb) (afterRoute (routeToSasiTarget io d cdb)) := by
  have hrouted := routeToSasiTarget_routed io d cdb
  have hnext := routeToSasiTarget_message io d cdb
  have hlistless := @routeToSasiTarget_listless _ _ io d cdb
  have hworks : (d.recordRouted cdb).controller.Works target cdb τ := hd
  generalize routeToSasiTarget io d cdb = r at hrouted hnext hlistless ⊢
  cases hrouted with
  | moving hop hc hlog haddr =>
    have hasks : ¬ Asks d.dma.dmaEnabled cdb := by
      rintro ⟨hdrive, _⟩
      rw [hdrive] at hop
      exact absurd hop (by decide)
    rw [Place.issued, if_neg hasks]
    exact transfer_served (hc.works hworks) (hc.synced hsync) haddr (hnext _ rfl)
  | completed b hop hc =>
    have hasks : ¬ Asks d.dma.dmaEnabled cdb := fun hasks => by
      rw [hop.2 hasks.1] at hasks
      cases hasks.2
    rw [Place.issued, if_neg hasks]
    exact status_served (hc.works hworks) b
  | expecting hop =>
    have hbus : dataOutRequest d.dma.busCtrl = 0x0C := dataOutRequest_busy _ hd.busy
    have hnone : d.dma.dataOutExpected = 0 := hd.noData
    have hoff : d.dma.dmaEnabled = false := by
      by_contra hon
      have height : driveParamsLength = d.dma.dataOutExpected := hlistless (by simpa using hon)
      rw [hnone] at height
      exact absurd height (by decide)
    rw [Place.issued, if_pos ⟨hop, hoff⟩]
    refine .answered .list (.list hbus hd.select rfl rfl (by decide) rfl) ?_ fun h => by cases h
    show dataOutRequest d.dma.busCtrl &&& statusMask &&& phaseMask = 0
    rw [hbus]
    decide

/-- A stage without the bytes of its command. -/
def Stage.place : Stage → Place
  | .free _ => .free
  | .selected _ => .selected
  | .command _ bytes => .command bytes
  | .executing _ _ _ | .stranded => .executing false
  | .status _ _ => .status
  | .message _ => .message

lemma Stage.Holds.place {s : Stage} {k : Controller} (h : s.Holds k none) (hb : ¬ s.Busy) :
    s.place.Holds k none := by
  cases h with
  | free h hlast => exact .free h
  | selected h ht => exact .selected h
  | command h ht hlen => exact .command h hlen
  | stranded h => exact absurd trivial hb
  | status h hp hv ho => exact .status h hp (by rw [ho]; rfl)
  | message h => exact .message h

/-- An entry that needs no answer. -/
lemma quiet_served (io : SectorIo Io) {s s' : Stage} {c : Card σ} {e : Entry}
    (hs : s.Holds c.controller none) (hstep : s.Step e s') (hb : ¬ s'.Busy) (he : ¬ e.IsReset) :
    Served c s'.place (deferProcessEntry io c e) := by
  have htaken := deferProcessEntry_taken io hs hstep
  generalize deferProcessEntry io c e = r at htaken ⊢
  cases htaken with
  | quiet hw hbusy hk hcells =>
    refine .quiet rfl (hw.place hbusy) ?_
    rcases hcells with hcells | ⟨hcells, t, bs, rfl⟩
    · cases s' <;> first | exact hcells | exact .inl hcells
    · exact .inr (by rw [hcells]; decide)
  | reset hevent hr _ => exact absurd ⟨_, hevent, hr⟩ he
  | routed hd hr => exact absurd trivial hb

lemma Place.requests_self (w : Place) (cell : Byte) : w.Requests cell cell := by
  cases w <;> first | rfl | exact .inl rfl

/-- The last byte of a CDB. -/
lemma lastByte_served (io : SectorIo Io) {c : Card σ} {bytes : List Byte} (data : Byte) (seenAt : ℕ)
    (hw : (Place.command bytes).Holds c.controller none) (hlen : bytes.length + 1 = cdbLength) :
    Served c (.issued c.dma.dmaEnabled (bytes ++ [data]))
      (deferProcessEntry io c ⟨.write .data data, seenAt⟩) := by
  cases hw with | command h hshort =>
  have hcdb : (acknowledgeByte c data).cmdBuffer = bytes := h.cmdBuffer
  have hready := acknowledgeByte_works data seenAt h rfl hlen
  show Served c _ (deferProcessData io c seenAt data)
  rw [deferProcessData_command io seenAt data h,
    handleSasiCommandByte_last io _ seenAt data (by rw [hcdb]; exact hlen), hcdb]
  exact routeToSasiTarget_served io hready.works hready.synced

lemma not_isReset {event : FifoEvent} {seenAt : ℕ} (h : isResetWrite event = false) :
    ¬ (⟨event, seenAt⟩ : Entry).IsReset := by
  rw [isReset_iff]
  exact Bool.eq_false_iff.mp h

/-- One entry, taken at a place that admits it. -/
theorem deferProcessEntry_served (io : SectorIo Io) {w w' : Place} {c : Card σ} {e : Entry}
    {m : List (ℕ × Transition)} (hw : w.Holds c.controller none) (hs : w.Step c.dma.dmaEnabled e w' m) :
    Served c w' (deferProcessEntry io c e) := by
  cases hs with
  | configure seenAt hr hsel =>
    cases hw with | free h =>
    have hstage : (Stage.free (some c.dma.command)).Holds c.controller none := .free h (by simp [Card.controller])
    exact quiet_served io hstage (.configure _ seenAt hr hsel) id (not_isReset hr)
  | target data seenAt =>
    cases hw with | free h =>
    have hstage : (Stage.free (some c.dma.command)).Holds c.controller none := .free h (by simp [Card.controller])
    exact quiet_served io hstage (.target _ data seenAt) id (not_isReset rfl)
  | select seenAt hr hsel =>
    cases hw with | free h =>
    have hstage : (Stage.free (some c.dma.command)).Holds c.controller none := .free h (by simp [Card.controller])
    exact quiet_served io hstage (.select _ seenAt hr hsel) id (not_isReset hr)
  | release seenAt hr hsel =>
    cases hw with | selected h =>
    have hstage : (Stage.selected c.dma.selectedTarget).Holds c.controller none := .selected h rfl
    exact quiet_served io hstage (.release _ seenAt hr hsel) id (not_isReset hr)
  | @byte bytes data seenAt hlen =>
    cases hw with | command h hshort =>
    have hstage : (Stage.command c.dma.selectedTarget bytes).Holds c.controller none := .command h rfl hshort
    exact quiet_served io hstage (.byte _ data seenAt hlen) id (not_isReset rfl)
  | @lastByte bytes data seenAt hlen hasks =>
    have hserved := lastByte_served io data seenAt hw hlen
    rwa [Place.issued, if_neg hasks] at hserved
  | @asked bytes data seenAt hlen hasks =>
    have hserved := lastByte_served io data seenAt hw hlen
    rwa [Place.issued, if_pos hasks] at hserved
  | @listByte left data seenAt hmore => exact listByte_served io hw hmore
  | lastListByte data seenAt => exact lastListByte_served io hw
  | unexpected seenAt hu =>
    show Served c _ (deferProcessRead c .data, none)
    rw [deferProcessRead_unexpected hw hu]
    exact .quiet rfl hw (w.requests_self _)
  | statusRead seenAt =>
    cases hw with | status h hp ho =>
    obtain ⟨τ, hτ⟩ := Option.isSome_iff_exists.mp ho
    have hstage : (Stage.status τ c.dma.status).Holds c.controller none := .status h hp rfl hτ
    exact quiet_served io hstage (.statusRead _ _ seenAt) id (not_isReset rfl)
  | messageRead seenAt =>
    cases hw with | message h =>
    have hstage : (Stage.message 0).Holds c.controller none := .message h
    exact quiet_served io hstage (.messageRead _ seenAt) id (not_isReset rfl)

/-- The host reads the status or the message. -/
lemma Place.Step.read {dma : Bool} {w w' : Place} {e : Entry} {m : List (ℕ × Transition)}
    (hs : w.Step dma e w' m) (hw : w = .status ∨ w = .message) : w' = .message ∨ w' = .free := by
  rcases hw with rfl | rfl
  · cases hs with
    | unexpected _ hu => exact hu.elim
    | statusRead seenAt => exact .inl rfl
  · cases hs with
    | unexpected _ hu => exact hu.elim
    | messageRead seenAt => exact .inr rfl

lemma Served.quietly {c : Card σ} {w' : Place} {r : Card σ × Option Transfer} (h : Served c w' r)
    (hw : w' = .message ∨ w' = .free) : w'.Holds r.1.controller none := by
  cases h with
  | quiet _ hholds _ => exact hholds
  | answered hv _ _ _ => rcases hw with rfl | rfl <;> cases hv

/-- The transition of the bus that an entry stands for. -/
theorem Place.Step.transition {dma : Bool} {w w' : Place} {e : Entry} {m : List (ℕ × Transition)}
    {k k' : Controller} (hs : w.Step dma e w' m) (hw : w.Holds k none)
    (hw' : w = .status ∨ w = .message → w'.Holds k' none) :
    transitionAt e.seenAt k.busCtrl k'.busCtrl = m := by
  have hquiet {bus : Byte} (hbus : k.busCtrl = bus) (hstatus : bus &&& phaseMask ≠ sasiCtlBit ||| sasiInpBit)
      (hmessage : bus &&& phaseMask ≠ phaseMask) : transitionAt e.seenAt k.busCtrl k'.busCtrl = [] := by
    rw [hbus]
    exact transitionAt_none hstatus hmessage _ _
  cases hw with
  | free h =>
    have hnone := hquiet h.busCtrl (by decide) (by decide)
    cases hs <;> exact hnone
  | selected h =>
    have hnone := hquiet h.busCtrl (by decide) (by decide)
    cases hs <;> exact hnone
  | command h hlen =>
    have hnone := hquiet h.busCtrl (by decide) (by decide)
    cases hs <;> exact hnone
  | list hbus _ _ _ _ _ =>
    have hnone := hquiet hbus (by decide) (by decide)
    cases hs <;> exact hnone
  | status h hp ho =>
    cases hs with
    | unexpected _ hu => exact hu.elim
    | statusRead seenAt =>
      cases hw' (.inl rfl) with | message h' =>
      rw [h.busCtrl, h'.busCtrl]
      rfl
  | message h =>
    cases hs with
    | unexpected _ hu => exact hu.elim
    | messageRead seenAt =>
      cases hw' (.inr rfl) with | free h' =>
      rw [h.busCtrl, h'.busCtrl]
      rfl

lemma Place.Step.not_reset {dma : Bool} {w w' : Place} {e : Entry} {m : List (ℕ × Transition)}
    (hs : w.Step dma e w' m) : ¬ e.IsReset := by
  cases hs with
  | configure seenAt hr _ => exact not_isReset hr
  | select seenAt hr _ => exact not_isReset hr
  | release seenAt hr _ => exact not_isReset hr
  | _ => exact not_isReset rfl

lemma Routed.dmaEnabled {c : Card σ} {cdb : List Byte} {r : Card σ × Option Transfer}
    (h : Routed c cdb r) : (afterRoute r).1.dma.dmaEnabled = c.dma.dmaEnabled := by
  cases h with
  | moving hop hc hlog haddr => exact (congrArg Registers.dmaEnabled hc.dma :)
  | completed b hop hc => exact (congrArg Registers.dmaEnabled hc.dma :)
  | expecting hop => rfl

lemma deferProcessRead_dmaEnabled (c : Card σ) (target : Reg) :
    (deferProcessRead c target).dma.dmaEnabled = c.dma.dmaEnabled := by
  unfold deferProcessRead
  split
  · rfl
  · rfl
  · dsimp only
    split
    · rfl
    · split
      · split <;> rfl
      · split <;> rfl
  · rfl

lemma deferProcessControl_dmaEnabled (c : Card σ) {data : Byte} (hr : hasBit data dmaResetBit = false) :
    (deferProcessControl c data).dma.dmaEnabled = modeAfter c.dma.dmaEnabled (.write .control data) := by
  unfold deferProcessControl
  dsimp only
  rw [if_neg (Bool.eq_false_iff.mp hr)]
  split
  · rfl
  · split <;> rfl

lemma DataTaken.dmaEnabled {c : Card σ} {seenAt : ℕ} {data : Byte} {r : Card σ × Option Transfer}
    (h : DataTaken c seenAt data r) : r.1.dma.dmaEnabled = c.dma.dmaEnabled := by
  cases h with
  | more hp hlen => rfl
  | whole hp hr => exact hr.dmaEnabled
  | list hp hlist =>
    unfold handleSasiDataOutByte
    dsimp only
    split
    · rfl
    · split <;> rfl
  | ignored hp hlist => rfl

/-- The worker follows the DMA mode that the host wrote. -/
theorem deferProcessEntry_dmaEnabled (io : SectorIo Io) (c : Card σ) {e : Entry} (he : ¬ e.IsReset) :
    (deferProcessEntry io c e).1.dma.dmaEnabled = modeAfter c.dma.dmaEnabled e.event := by
  obtain ⟨event, seenAt⟩ := e
  cases event with
  | readCommit target => exact deferProcessRead_dmaEnabled c target
  | write target data =>
    cases target with
    | control =>
      have hr : hasBit data dmaResetBit = false := Bool.eq_false_iff.mpr fun hr => he ⟨data, rfl, hr⟩
      exact deferProcessControl_dmaEnabled c hr
    | data =>
      exact (deferProcessData_taken io c seenAt data).dmaEnabled.trans (acceptDataByte_dmaEnabled c data)
    | _ => rfl
  | _ => rfl

lemma Boundary.dmaEnabled {c : Card σ} {r : Card σ × Option Transfer} (h : Boundary c r) :
    (afterRoute r).1.dma.dmaEnabled = c.dma.dmaEnabled := by
  cases h with
  | abandoned _ => rfl
  | moved _ hd _ => exact (congrArg Registers.dmaEnabled hd.dma :)
  | completed b _ hd => exact (congrArg Registers.dmaEnabled hd.dma :)

end PicoV9k.Sasi
