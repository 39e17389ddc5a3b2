import PicoV9k.HostAccesses

/-!
# The cells of STATUS and CONTROL

What the words of the host and the entries of the worker do to the cached cells: the
handler alone writes CONTROL, and only a write of the alias parts the two cells of STATUS.
-/
namespace PicoV9k.Sasi
open PicoV9k.Bus PicoV9k.Storage PicoV9k.Mgmt

variable {Io σ : Type} {n : ℕ}

lemma clear_select : hasBit 0 dmaSelectBit = false := by decide

/-- Words that are neither queued nor write STATUS leave the two cells alone. -/
lemma isr_aside (b : Bridge σ n) {event : FifoEvent} (h : isDeferred event = false) :
    (b.isr event).1.card.cache.status = b.card.cache.status ∧
      (b.isr event).1.card.cache.control = b.card.cache.control := by
  cases event with
  | prefetch target => cases target <;> exact ⟨rfl, rfl⟩
  | readCommit target => cases target <;> first | exact ⟨rfl, rfl⟩ | cases h
  | write target data => cases target <;> first | exact ⟨rfl, rfl⟩ | cases h
  | unknown => exact ⟨rfl, rfl⟩

lemma isr_commit_cache (b : Bridge σ n) :
    (b.isr (.readCommit .data)).1.card.cache = CachedRegs.dataRead b.card.cache := by
  rw [isr_commit_data, enqueue_card]
  rfl

lemma dataRead_cacheControl (c : CachedRegs) : (CachedRegs.dataRead c).control = c.control := by
  unfold CachedRegs.dataRead
  split
  · rfl
  · split <;> rfl

lemma isr_data_cache (b : Bridge σ n) (data : Byte) :
    (b.isr (.write .data data)).1.card.cache = b.card.cache := by
  rw [isr_write_data, enqueue_card]
  rfl

lemma isr_control_cache (b : Bridge σ n) {data : Byte} (hr : hasBit data dmaResetBit = false) :
    (b.isr (.write .control data)).1.card.cache = (b.card.predicted data).cache := by
  rw [isr_write_control b hr, enqueue_card]
  rfl

lemma predicted_cacheControl (c : Card σ) (data : Byte) : (c.predicted data).cache.control = data := rfl

lemma dataTaken_aliased {c : Card σ} (h : c.Aliased) : c.dataTaken.Aliased := by
  unfold Card.Aliased Card.dataTaken CachedRegs.dataRead
  dsimp only
  split
  · rfl
  · split
    · rfl
    · exact h

lemma predicted_aliased {c : Card σ} (h : c.Aliased) (data : Byte) : (c.predicted data).Aliased := by
  unfold Card.Aliased Card.predicted CachedRegs.predictControl
  dsimp only
  split
  · rfl
  · split
    · rfl
    · split
      · rfl
      · exact h

/-- A write of the alias is the one word that can part the cells. -/
theorem isr_aliased {b : Bridge σ n} (h : b.card.Aliased) {event : FifoEvent}
    (hw : ∀ data, event = .write .statusAlias data → data = b.card.cache.status) :
    (b.isr event).1.card.Aliased := by
  cases event with
  | prefetch target => cases target <;> exact h
  | readCommit target =>
    cases target with
    | data =>
      rw [isr_commit_data, enqueue_card]
      exact dataTaken_aliased h
    | _ => exact h
  | write target data =>
    cases target with
    | control =>
      by_cases hr : hasBit data dmaResetBit = true
      · rw [isr_write_reset b hr, enqueue_card]
        rfl
      · rw [isr_write_control b (Bool.eq_false_iff.mpr hr), enqueue_card]
        exact predicted_aliased h data
    | data =>
      rw [isr_write_data, enqueue_card]
      exact h
    | status =>
      show (((Bridge.tick b).writeThrough .status data).enqueue _).card.Aliased
      rw [enqueue_card]
      rfl
    | statusAlias =>
      show (((Bridge.tick b).writeThrough .statusAlias data).enqueue _).card.Aliased
      rw [enqueue_card]
      exact hw data rfl
    | _ => exact h
  | unknown => exact h

lemma acceptDataByte_aliased {c : Card σ} (h : c.Aliased) (data : Byte) :
    (acceptDataByte c data).Aliased := by
  unfold acceptDataByte
  dsimp only
  split
  · split
    · rfl
    · exact h
  · split
    · rfl
    · exact h

lemma handleSasiDataOutByte_aliased {c : Card σ} (h : c.Aliased) (data : Byte) :
    (handleSasiDataOutByte c data).Aliased := by
  unfold handleSasiDataOutByte
  dsimp only
  split
  · exact h
  · split
    · rfl
    · rfl

lemma Routed.aliased {c : Card σ} {cdb : List Byte} {r : Card σ × Option Transfer}
    (h : Routed c cdb r) (ha : c.Aliased) : (afterRoute r).1.Aliased := by
  cases h with
  | moving hop hc hlog haddr => exact hc.aliased ha
  | completed b hop hc => rfl
  | expecting hop => rfl

lemma DataTaken.aliased {c : Card σ} {seenAt : ℕ} {data : Byte} {r : Card σ × Option Transfer}
    (h : DataTaken c seenAt data r) (ha : c.Aliased) : r.1.Aliased := by
  cases h with
  | more hp hlen => rfl
  | whole hp hr => exact hr.aliased ha
  | list hp hlist => exact handleSasiDataOutByte_aliased ha data
  | ignored hp hlist => exact ha

lemma deferProcessEntry_aliased (io : SectorIo Io) {c : Card σ} (h : c.Aliased) (e : Entry) :
    (deferProcessEntry io c e).1.Aliased := by
  obtain ⟨event, seenAt⟩ := e
  cases event with
  | readCommit target =>
    show (deferProcessRead c target).Aliased
    unfold Card.Aliased
    rw [deferProcessRead_cache]
    exact h
  | write target data =>
    cases target with
    | control =>
      show (deferProcessControl c data).Aliased
      unfold deferProcessControl
      dsimp only
      split
      · rfl
      · split
        · exact h
        · split <;> exact h
    | data => exact (deferProcessData_taken io c seenAt data).aliased (acceptDataByte_aliased h data)
    | _ => exact h
  | _ => exact h

lemma Worked.aliased {reg : Registry Io σ} {io : SectorIo Io} {b b' : Bridge σ n}
    (hw : Worked reg io b b') (h : b.card.Aliased) : b'.card.Aliased := by
  cases hw with
  | boundary ht hr =>
    cases hr with
    | abandoned hreset => exact h
    | moved hreset hc haddr => exact hc.aliased h
    | completed s hreset hc => rfl
  | entry ht hq => exact deferProcessEntry_aliased io h _

lemma Routed.cacheControl {c : Card σ} {cdb : List Byte} {r : Card σ × Option Transfer}
    (h : Routed c cdb r) : (afterRoute r).1.cache.control = c.cache.control := by
  cases h with
  | moving hop hc hlog haddr => exact hc.control
  | completed b hop hc => exact hc.control
  | expecting hop => rfl

lemma DataTaken.cacheControl {c : Card σ} {seenAt : ℕ} {data : Byte} {r : Card σ × Option Transfer}
    (h : DataTaken c seenAt data r) : r.1.cache.control = c.cache.control := by
  cases h with
  | more hp hlen => rfl
  | whole hp hr => exact hr.cacheControl
  | list hp hlist =>
    unfold handleSasiDataOutByte
    dsimp only
    split
    · rfl
    · split <;> rfl
  | ignored hp hlist => rfl

/-- The CONTROL cell belongs to the handler. -/
theorem deferProcessEntry_cacheControl (io : SectorIo Io) (c : Card σ) (e : Entry) :
    (deferProcessEntry io c e).1.cache.control = c.cache.control := by
  obtain ⟨event, seenAt⟩ := e
  cases event with
  | readCommit target => exact congrArg CachedRegs.control (deferProcessRead_cache c target)
  | write target data =>
    cases target with
    | control =>
      show (deferProcessControl c data).cache.control = c.cache.control
      unfold deferProcessControl
      dsimp only
      split
      · rfl
      · split
        · rfl
        · split <;> rfl
    | data =>
      have haccept : (acceptDataByte c data).cache.control = c.cache.control := by
        unfold acceptDataByte
        dsimp only
        split
        · split <;> rfl
        · split <;> rfl
      exact (deferProcessData_taken io c seenAt data).cacheControl.trans haccept
    | _ => rfl
  | _ => rfl

lemma afterBoundary_eq (b : Bridge σ n) (r : Card σ × Option Transfer) :
    b.afterBoundary r = { b with card := (afterRoute r).1, transfer := (afterRoute r).2 } := by
  obtain ⟨c, transfer⟩ := r
  cases transfer <;> rfl

lemma Boundary.cacheControl {c : Card σ} {r : Card σ × Option Transfer} (h : Boundary c r) :
    (afterRoute r).1.cache.control = c.cache.control := by
  cases h with
  | abandoned _ => rfl
  | moved _ hd _ => exact hd.control
  | completed b _ hd => exact hd.control

lemma Boundary.requested {c : Card σ} {r : Card σ × Option Transfer} (h : Boundary c r) :
    (afterRoute r).1.dma.resetRequested = c.dma.resetRequested := by
  cases h with
  | abandoned _ => rfl
  | moved _ hd _ => exact hd.requested
  | completed b _ hd => exact hd.requested

end PicoV9k.Sasi
