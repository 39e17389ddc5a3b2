import PicoV9k.HostAccesses

/-!
# The record of a run is not read

`History` notes what the card did and when the handler had seen it. Nothing the
handler or the worker does depends on it: two cards that differ in their history alone
keep on differing in it alone.
-/
namespace PicoV9k.Sasi
open PicoV9k.Bus PicoV9k.Storage PicoV9k.Mgmt

variable {Io σ : Type} {n : ℕ}

/-- The same card with another history. -/
def Card.Agrees (c c' : Card σ) : Prop := ∃ h, c' = { c with history := h }

lemma Card.Agrees.refl (c : Card σ) : c.Agrees c := ⟨c.history, rfl⟩

/-- The same outcome: the cards agree and a transfer goes on alike. -/
def SameOutcome {β : Type} (r r' : Card σ × β) : Prop := r.1.Agrees r'.1 ∧ r'.2 = r.2

section Worker

variable {c c' : Card σ}

lemma Card.Agrees.enterStatus (h : c.Agrees c') (b : Byte) :
    (sasiEnterStatusPhase c b).Agrees (sasiEnterStatusPhase c' b) := by
  obtain ⟨_, rfl⟩ := h
  exact ⟨_, rfl⟩

lemma advanceSector_agrees (h : c.Agrees c') (t : Transfer) :
    SameOutcome (advanceSector c t) (advanceSector c' t) := by
  obtain ⟨_, rfl⟩ := h
  unfold advanceSector
  dsimp only
  split <;> exact ⟨⟨_, rfl⟩, rfl⟩

variable (reg : Registry Io σ)

lemma readSectorStep_agrees (h : c.Agrees c') (io : SectorIo Io) (t : Transfer) :
    SameOutcome (readSectorStep reg io c t) (readSectorStep reg io c' t) := by
  obtain ⟨_, rfl⟩ := h
  unfold readSectorStep
  dsimp only [Card.record, Card.target]
  split
  · exact ⟨⟨_, rfl⟩, rfl⟩
  · dsimp only [Card.sasiBusCtrlSet]
    split
    · exact ⟨⟨_, rfl⟩, rfl⟩
    · exact advanceSector_agrees ⟨_, rfl⟩ t

lemma writeSectorStep_agrees (h : c.Agrees c') (io : SectorIo Io) (t : Transfer) :
    SameOutcome (writeSectorStep reg io c t) (writeSectorStep reg io c' t) := by
  obtain ⟨_, rfl⟩ := h
  unfold writeSectorStep
  dsimp only [Card.record, Card.sasiBusCtrlSet]
  split
  · exact ⟨⟨_, rfl⟩, rfl⟩
  · split
    · split
      · exact ⟨⟨_, rfl⟩, rfl⟩
      · exact advanceSector_agrees ⟨_, rfl⟩ _
    · exact ⟨⟨_, rfl⟩, rfl⟩

lemma syncTransfer_agrees (h : c.Agrees c') (io : Io) (t : Transfer) :
    SameOutcome (syncTransfer reg io c t) (syncTransfer reg io c' t) := by
  obtain ⟨_, rfl⟩ := h
  unfold syncTransfer
  dsimp only
  split
  · split
    · exact ⟨⟨_, rfl⟩, rfl⟩
    · exact ⟨⟨_, rfl⟩, rfl⟩
  · exact ⟨⟨_, rfl⟩, rfl⟩

lemma completeTransfer_agrees (h : c.Agrees c') (t : Transfer) :
    (completeTransfer c t).Agrees (completeTransfer c' t) := by
  obtain ⟨_, rfl⟩ := h
  unfold completeTransfer
  dsimp only
  split
  · exact Card.Agrees.enterStatus ⟨_, rfl⟩ _
  · exact Card.Agrees.enterStatus ⟨_, rfl⟩ _

lemma finishTransfer_agrees (h : c.Agrees c') (io : SectorIo Io) (t : Transfer) :
    (finishTransfer reg io c t).Agrees (finishTransfer reg io c' t) := by
  unfold finishTransfer
  split
  · exact completeTransfer_agrees h t
  · obtain ⟨hcard, ht⟩ := syncTransfer_agrees reg h io.storage t
    dsimp only
    rw [ht]
    exact completeTransfer_agrees hcard _

theorem transferStep_agrees (h : c.Agrees c') (io : SectorIo Io) (t : Transfer) :
    SameOutcome (transferStep reg io c t) (transferStep reg io c' t) := by
  have hreset : c'.dma.resetRequested = c.dma.resetRequested := by
    obtain ⟨_, rfl⟩ := h
    rfl
  have hsector : SameOutcome (sectorStep reg io c t) (sectorStep reg io c' t) := by
    unfold sectorStep
    split
    · exact readSectorStep_agrees reg h io t
    · exact writeSectorStep_agrees reg h io t
  unfold transferStep
  rw [hreset]
  split
  · exact ⟨h, rfl⟩
  · split
    · exact ⟨hsector.1, congrArg some hsector.2⟩
    · exact ⟨finishTransfer_agrees reg h io t, rfl⟩

lemma handleRequestSense_agrees (h : c.Agrees c') (io : SectorIo Io) (cmd : List Byte) :
    (handleRequestSense io c cmd).Agrees (handleRequestSense io c' cmd) := by
  obtain ⟨_, rfl⟩ := h
  unfold handleRequestSense
  dsimp only [Card.sasiBusCtrlSet]
  split
  · exact Card.Agrees.enterStatus ⟨_, rfl⟩ _
  · exact Card.Agrees.enterStatus ⟨_, rfl⟩ _

lemma fetchParameters_agrees (h : c.Agrees c') (io : SectorIo Io) (len : ℕ) :
    (fetchParameters io c len).Agrees (fetchParameters io c' len) := by
  obtain ⟨_, rfl⟩ := h
  unfold fetchParameters
  dsimp only
  split
  · exact Card.Agrees.enterStatus ⟨_, rfl⟩ _
  · exact Card.Agrees.enterStatus ⟨_, rfl⟩ _

lemma handleModeSelect_agrees (h : c.Agrees c') (io : SectorIo Io) (cmd : List Byte) :
    (handleModeSelect io c cmd).Agrees (handleModeSelect io c' cmd) := by
  unfold handleModeSelect
  dsimp only
  split
  · exact h.enterStatus _
  · obtain ⟨_, rfl⟩ := h
    exact fetchParameters_agrees ⟨_, rfl⟩ io _

lemma handleDriveParams_agrees (h : c.Agrees c') (io : SectorIo Io) :
    (handleDriveParams io c).Agrees (handleDriveParams io c') := by
  obtain ⟨_, rfl⟩ := h
  unfold handleDriveParams
  dsimp only
  split
  · exact fetchParameters_agrees ⟨_, rfl⟩ io _
  · exact ⟨_, rfl⟩

theorem routeToSasiTarget_agrees (h : c.Agrees c') (io : SectorIo Io) (cmd : List Byte) :
    SameOutcome (routeToSasiTarget io c cmd) (routeToSasiTarget io c' cmd) := by
  have hrecord : (c.recordRouted cmd).Agrees (c'.recordRouted cmd) := by
    obtain ⟨_, rfl⟩ := h
    exact ⟨_, rfl⟩
  unfold routeToSasiTarget
  dsimp only
  split
  · exact ⟨hrecord.enterStatus _, rfl⟩
  · exact ⟨hrecord.enterStatus _, rfl⟩
  · obtain ⟨_, rfl⟩ := h
    exact ⟨⟨_, rfl⟩, rfl⟩
  · exact ⟨handleRequestSense_agrees hrecord io cmd, rfl⟩
  · obtain ⟨_, rfl⟩ := h
    exact ⟨⟨_, rfl⟩, rfl⟩
  · exact ⟨handleDriveParams_agrees hrecord io, rfl⟩
  · exact ⟨handleModeSelect_agrees hrecord io cmd, rfl⟩
  · exact ⟨hrecord.enterStatus _, rfl⟩

lemma afterRoute_agrees {r r' : Card σ × Option Transfer} (h : SameOutcome r r') :
    SameOutcome (afterRoute r) (afterRoute r') := by
  obtain ⟨d, t⟩ := r
  obtain ⟨d', t'⟩ := r'
  obtain ⟨⟨_, hd⟩, ht⟩ := h
  dsimp only at hd ht
  subst hd ht
  cases t' with
  | none => exact ⟨⟨_, rfl⟩, rfl⟩
  | some t => exact ⟨⟨_, rfl⟩, rfl⟩

/-- Nor does it matter when the handler saw the byte. -/
lemma handleSasiCommandByte_agrees (h : c.Agrees c') (io : SectorIo Io) (seenAt seenAt' : ℕ)
    (data : Byte) :
    SameOutcome (handleSasiCommandByte io c seenAt data) (handleSasiCommandByte io c' seenAt' data) := by
  obtain ⟨_, rfl⟩ := h
  unfold handleSasiCommandByte
  dsimp only
  split
  · exact afterRoute_agrees (routeToSasiTarget_agrees ⟨_, rfl⟩ io _)
  · exact ⟨⟨_, rfl⟩, rfl⟩

lemma handleSasiDataOutByte_agrees (h : c.Agrees c') (data : Byte) :
    (handleSasiDataOutByte c data).Agrees (handleSasiDataOutByte c' data) := by
  obtain ⟨_, rfl⟩ := h
  unfold handleSasiDataOutByte
  dsimp only
  split
  · exact ⟨_, rfl⟩
  · split
    · exact ⟨_, rfl⟩
    · exact Card.Agrees.enterStatus ⟨_, rfl⟩ _

lemma acceptDataByte_agrees (h : c.Agrees c') (data : Byte) :
    (acceptDataByte c data).Agrees (acceptDataByte c' data) := by
  obtain ⟨_, rfl⟩ := h
  unfold acceptDataByte
  dsimp only
  split
  · dsimp only
    split <;> exact ⟨_, rfl⟩
  · split <;> exact ⟨_, rfl⟩

lemma deferProcessData_agrees (h : c.Agrees c') (io : SectorIo Io) (seenAt seenAt' : ℕ) (data : Byte) :
    SameOutcome (deferProcessData io c seenAt data) (deferProcessData io c' seenAt' data) := by
  have haccept := acceptDataByte_agrees h data
  have hbus : (acceptDataByte c' data).dma = (acceptDataByte c data).dma := by
    obtain ⟨_, heq⟩ := haccept
    rw [heq]
  unfold deferProcessData
  dsimp only
  rw [hbus]
  split
  · exact handleSasiCommandByte_agrees haccept io seenAt seenAt' data
  · split
    · exact ⟨handleSasiDataOutByte_agrees haccept data, rfl⟩
    · exact ⟨haccept, rfl⟩

lemma deferProcessControl_agrees (h : c.Agrees c') (data : Byte) :
    (deferProcessControl c data).Agrees (deferProcessControl c' data) := by
  obtain ⟨_, rfl⟩ := h
  unfold deferProcessControl
  dsimp only
  split
  · exact ⟨_, rfl⟩
  · split
    · exact ⟨_, rfl⟩
    · split <;> exact ⟨_, rfl⟩

lemma deferProcessRead_agrees (h : c.Agrees c') (target : Reg) :
    (deferProcessRead c target).Agrees (deferProcessRead c' target) := by
  obtain ⟨_, rfl⟩ := h
  unfold deferProcessRead
  cases target with
  | data =>
    dsimp only
    split
    · exact ⟨_, rfl⟩
    · split
      · split <;> exact ⟨_, rfl⟩
      · split <;> exact ⟨_, rfl⟩
  | _ => exact ⟨_, rfl⟩

theorem deferProcessEntry_agrees (h : c.Agrees c') (io : SectorIo Io) {e e' : Entry}
    (he : e'.event = e.event) :
    SameOutcome (deferProcessEntry io c e) (deferProcessEntry io c' e') := by
  obtain ⟨event, seenAt⟩ := e
  obtain ⟨event', seenAt'⟩ := e'
  dsimp only at he
  subst he
  cases event' with
  | readCommit target => exact ⟨deferProcessRead_agrees h target, rfl⟩
  | write target data =>
    cases target with
    | control => exact ⟨deferProcessControl_agrees h data, rfl⟩
    | data => exact deferProcessData_agrees h io seenAt seenAt' data
    | addrL | addrM | addrH =>
      obtain ⟨_, rfl⟩ := h
      exact ⟨⟨_, rfl⟩, rfl⟩
    | _ => exact ⟨h, rfl⟩
  | _ => exact ⟨h, rfl⟩

end Worker

/-- The handler does the same to two cards that agree. -/
theorem isr_agrees {b b' : Bridge σ n} (hcard : b.card.Agrees b'.card) (hchan : b'.chan = b.chan)
    (event : FifoEvent) :
    (b.isr event).1.card.Agrees (b'.isr event).1.card ∧
      (b'.isr event).1.chan = (b.isr event).1.chan := by
  obtain ⟨card, queue, drops, transfer, pending, entries, chan⟩ := b
  obtain ⟨card', queue', drops', transfer', pending', entries', chan'⟩ := b'
  obtain ⟨_, heq⟩ := hcard
  dsimp only at heq hchan
  subst heq hchan
  cases event with
  | prefetch target => cases target <;> exact ⟨⟨_, rfl⟩, rfl⟩
  | readCommit target =>
    cases target with
    | data =>
      rw [isr_commit_data, isr_commit_data]
      simp only [enqueue_card, enqueue_chan]
      exact ⟨⟨_, rfl⟩, rfl⟩
    | _ => exact ⟨⟨_, rfl⟩, rfl⟩
  | write target data =>
    cases target with
    | control =>
      by_cases hr : hasBit data dmaResetBit = true
      · rw [isr_write_reset _ hr, isr_write_reset _ hr]
        simp only [enqueue_card, enqueue_chan]
        exact ⟨⟨_, rfl⟩, rfl⟩
      · have hr' := Bool.eq_false_iff.mpr hr
        rw [isr_write_control _ hr', isr_write_control _ hr']
        simp only [enqueue_card, enqueue_chan]
        exact ⟨⟨_, rfl⟩, rfl⟩
    | data | status | statusAlias =>
      dsimp only [Bridge.isr, Bridge.regWrite, Reg.deferred]
      simp only [if_true, enqueue_card, enqueue_chan]
      exact ⟨⟨_, rfl⟩, rfl⟩
    | _ => exact ⟨⟨_, rfl⟩, rfl⟩
  | unknown => exact ⟨⟨_, rfl⟩, rfl⟩

end PicoV9k.Sasi
