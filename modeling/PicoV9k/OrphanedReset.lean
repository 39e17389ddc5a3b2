import PicoV9k.HostAccesses

/-!
# The flag of RESET and its entry

The handler raises `reset_requested` before it knows whether the RESET fits into the
queue. As long as each RESET fits, or another one is still queued, the flag never
outlives the entries that will lower it.
-/
namespace PicoV9k.Sasi
open PicoV9k.Bus PicoV9k.Storage PicoV9k.Mgmt PicoV9k.Runs

variable {Io σ : Type} {n : ℕ}

/-- A RESET that was not processed yet is in the queue. -/
def Bridge.ResetQueued (b : Bridge σ n) : Prop := ∃ e ∈ b.queue, e.IsReset

/-- The flag is raised only while such an entry will lower it. -/
def Bridge.Owned (b : Bridge σ n) : Prop := b.card.dma.resetRequested = true → b.ResetQueued

/-- A RESET write finds room, or another RESET queued before it. -/
def ResetFits (b : Bridge σ n) : BusLabel Io σ → Prop
  | .fifo event => isResetWrite event = true → b.Room ∨ b.ResetQueued
  | .worker _ | .service _ => True

/-- A queue that grew still holds its RESET. -/
lemma isr_keeps_resetQueued {b : Bridge σ n} (h : b.ResetQueued) (event : FifoEvent) :
    (b.isr event).1.ResetQueued := by
  obtain ⟨e, he, hr⟩ := h
  refine ⟨e, ?_, hr⟩
  rw [isr_queue]
  split
  · exact List.mem_append_left _ he
  · exact he

lemma isr_queues_reset {b : Bridge σ n} (hroom : b.Room) {event : FifoEvent}
    (hr : isResetWrite event = true) : (b.isr event).1.ResetQueued := by
  have hd : isDeferred event = true := by
    unfold isResetWrite at hr
    split at hr
    · rfl
    · cases hr
  refine ⟨⟨event, b.fifoEntries + 1⟩, ?_, (isReset_iff _).mpr hr⟩
  rw [isr_queue, if_pos ⟨hd, hroom⟩]
  exact List.mem_append_right _ (List.mem_singleton_self _)

lemma isr_drops_reset {b : Bridge σ n} (hroom : ¬ b.Room) (hq : ¬ b.ResetQueued) (event : FifoEvent) :
    ¬ (b.isr event).1.ResetQueued := by
  rintro ⟨e, he, hr⟩
  rw [isr_queue, if_neg fun hc => hroom hc.2] at he
  exact hq ⟨e, he, hr⟩

/-- One word keeps the flag owned exactly when a RESET fits. -/
theorem isr_owned_iff {b : Bridge σ n} (h : b.Owned) (event : FifoEvent) :
    (b.isr event).1.Owned ↔ ResetFits b (.fifo event : BusLabel Unit σ) := by
  by_cases hr : isResetWrite event = true
  · have hset : (b.isr event).1.card.dma.resetRequested = true := by
      rw [isr_resetRequested, hr, Bool.true_or]
    constructor
    · intro howned _
      by_contra hfits
      rw [not_or] at hfits
      exact isr_drops_reset hfits.1 hfits.2 event (howned hset)
    · intro hfits _
      rcases hfits hr with hroom | hq
      · exact isr_queues_reset hroom hr
      · exact isr_keeps_resetQueued hq event
  · refine ⟨fun _ hr' => absurd hr' hr, fun _ hset => ?_⟩
    rw [isr_resetRequested, Bool.eq_false_iff.mpr hr, Bool.false_or] at hset
    exact isr_keeps_resetQueued (h hset) event

/-- The worker takes the RESET and the flag with it. -/
lemma Worked.owned {reg : Registry Io σ} {io : SectorIo Io} {b b' : Bridge σ n} (h : b.Owned)
    (hw : Worked reg io b b') : b'.Owned := by
  cases hw with
  | boundary ht hr =>
    cases hr with
    | abandoned hreset => exact h
    | moved hreset hc haddr => exact fun hset => h (hc.requested ▸ hset)
    | completed s hreset hc => exact fun hset => h (hc.requested ▸ hset)
  | @entry e rest ht hq =>
    intro hset
    by_cases he : e.IsReset
    · obtain ⟨data, hevent, hr⟩ := he
      have hlow : (deferProcessEntry io b.card e).1.dma.resetRequested = false := by
        unfold deferProcessEntry
        rw [hevent]
        show (deferProcessControl b.card data).dma.resetRequested = false
        rw [deferProcessControl_reset _ hr]
        rfl
      exact absurd (hlow.symm.trans hset) Bool.false_ne_true
    · have hset' : b.card.dma.resetRequested = true :=
        (deferProcessEntry_requested io b.card he).symm.trans hset
      obtain ⟨x, hx, hr⟩ := h hset'
      rw [hq] at hx
      rcases List.mem_cons.mp hx with rfl | hx
      · exact absurd hr he
      · exact ⟨x, hx, hr⟩

/-- A transfer that ends without a status phase was abandoned. -/
lemma Worked.abandoned {reg : Registry Io σ} {io : SectorIo Io} {b b' : Bridge σ n}
    (hw : Worked reg io b b') (hbusy : b.transfer.isSome = true) (hend : b'.transfer = none)
    (hlog : b'.card.history.log = b.card.history.log) : b.card.dma.resetRequested = true := by
  cases hw with
  | boundary ht hr =>
    cases hr with
    | abandoned hreset => exact hreset
    | moved hreset hc haddr => cases hend
    | @completed d s hreset hc =>
      obtain ⟨lbas, hd⟩ := hc.log
      have hlen := congrArg List.length hlog
      have hlog' : (b.afterBoundary (sasiEnterStatusPhase d s, none)).card.history.log =
          d.history.log ++ [⟨d.history.issuedAt, d.history.resetAt, .status s⟩] := rfl
      rw [hlog', hd] at hlen
      simp at hlen
  | entry ht hq =>
    rw [ht] at hbusy
    cases hbusy

/-- The flag is owned and the worker moves sectors inside the address space. -/
structure Bridge.Watched (b : Bridge σ n) : Prop where
  owned : b.Owned
  addressed : b.Addressed

theorem Bridge.Watched.step {reg : Registry Io σ} {b b' : Bridge σ n} {label : BusLabel Io σ}
    (h : b.Watched) (hf : ResetFits b label) (hs : b.step reg label = some b') : b'.Watched := by
  cases label with
  | fifo event =>
    cases hs
    refine ⟨(isr_owned_iff h.owned event).mpr hf, ?_⟩
    unfold Bridge.Addressed
    rw [isr_transfer]
    exact h.addressed
  | worker io =>
    have hw := workerStep_worked reg h.addressed hs
    exact ⟨hw.owned h.owned, hw.addressed⟩
  | service storage =>
    unfold Bridge.step Bridge.service at hs
    dsimp only at hs
    split at hs
    · cases hs
      exact ⟨h.owned, h.addressed⟩
    · cases hs

/-- While every RESET fits the flag is never orphaned, and a transfer is abandoned only with a
RESET queued behind it. -/
theorem resetRequested_owned (reg : Registry Io σ) {ram : ℕ → Byte} {storage : Routing σ}
    {chan : MgmtChan n} {labels : List (BusLabel Io σ)} {b : Bridge σ n}
    (h : Guarded (Bridge.step reg) ResetFits (.initial ram storage chan) labels b) :
    (b.card.dma.resetRequested = true → ∃ e ∈ b.queue, e.IsReset) ∧
      ∀ io b', b.transfer.isSome = true → b.workerStep reg io = some b' → b'.transfer = none →
        b'.card.history.log = b.card.history.log → ∃ e ∈ b.queue, e.IsReset := by
  have hstep (s : Bridge σ n) (label : BusLabel Io σ) (s' : Bridge σ n) (hv : s.Watched)
      (hf : ResetFits s label) (hs : s.step reg label = some s') : s'.Watched := hv.step hf hs
  have hstart : (Bridge.initial ram storage chan).Watched :=
    ⟨fun hset => (Bool.false_ne_true hset).elim, fun t ht => by cases ht⟩
  have hw := h.invariant hstep hstart
  refine ⟨hw.owned, fun io b' hbusy hs hend hlog => hw.owned ?_⟩
  exact (workerStep_worked reg hw.addressed hs).abandoned hbusy hend hlog

instance (b : Bridge σ n) : Decidable b.ResetQueued :=
  decidable_of_iff (∃ e ∈ b.queue, isResetWrite e.event = true) (by simp only [Bridge.ResetQueued, isReset_iff])

instance (b : Bridge σ n) : (label : BusLabel Io σ) → Decidable (ResetFits b label)
  | .fifo event => inferInstanceAs (Decidable (isResetWrite event = true → _))
  | .worker _ | .service _ => isTrue trivial

/-- Two RESETs, the first of which the worker has processed. -/
def twoResets : List (BusLabel Unit Unit) :=
  [.fifo (.write .control 0x20), .fifo (.write .control 0x20), .worker ⟨(), fun _ => .ok⟩,
    .fifo (.write .control 0x20)]

theorem resetRequested_owned_twoResets :
    ∃ b, followBus ResetFits twoResets = some b ∧ b.card.dma.resetRequested = true ∧
      ∃ e ∈ b.queue, e.IsReset := by
  obtain ⟨b, hb⟩ : ∃ b, followBus ResetFits twoResets = some b := Option.isSome_iff_exists.mp rfl
  have hset : (followBus ResetFits twoResets).map (·.card.dma.resetRequested) = some true := rfl
  rw [hb] at hset
  exact ⟨b, hb, Option.some.inj hset,
    (resetRequested_owned _ (Guarded.of_follow hb)).1 (Option.some.inj hset)⟩

/-- Writes of DATA fill the queue and bring no RESET into it. -/
lemma flood (reg : Registry Io σ) (k : ℕ) {b : Bridge σ n} (hq : ¬ b.ResetQueued)
    (hlen : b.queue.length + k < deferQueueSize) :
    ∃ b', Run (Bridge.step reg) b (List.replicate k (.fifo (.write .data 0))) b' ∧
      ¬ b'.ResetQueued ∧ b'.queue.length = b.queue.length + k := by
  induction k generalizing b with
  | zero => exact ⟨b, .nil b, hq, rfl⟩
  | succ k ih =>
    have hroom : b.Room := by
      unfold Bridge.Room
      omega
    have hqueue : (b.isr (.write .data 0)).1.queue =
        b.queue ++ [⟨.write .data 0, b.fifoEntries + 1⟩] := by
      rw [isr_queue]
      exact if_pos ⟨rfl, hroom⟩
    have hq' : ¬ (b.isr (.write .data 0)).1.ResetQueued := by
      rintro ⟨e, he, hr⟩
      rw [hqueue] at he
      rcases List.mem_append.mp he with he | he
      · exact hq ⟨e, he, hr⟩
      · rw [List.mem_singleton.mp he] at hr
        obtain ⟨data, hevent, _⟩ := hr
        cases hevent
    have hlen' : (b.isr (.write .data 0)).1.queue.length = b.queue.length + 1 := by
      rw [hqueue, List.length_append, List.length_singleton]
    obtain ⟨b', hrun, hnone, hfull⟩ := ih hq' (by omega)
    exact ⟨b', .cons trivial rfl hrun, hnone, by omega⟩

/-- A host that fills the queue with DATA writes and then writes RESET. -/
def floodedReset : List (BusLabel Unit Unit) :=
  List.replicate 255 (.fifo (.write .data 0)) ++ [.fifo (.write .control 0x20)]

/-- The RESET is dropped and its flag stays. -/
theorem resetRequested_orphaned :
    ∃ b, Run (Bridge.step fun _ => none) bareBridge floodedReset b ∧
      b.card.dma.resetRequested = true ∧ ¬ ∃ e ∈ b.queue, e.IsReset := by
  have hempty : ¬ bareBridge.ResetQueued := fun ⟨e, he, _⟩ => absurd he List.not_mem_nil
  obtain ⟨b, hrun, hnone, hlen⟩ := flood (fun _ => none) 255 hempty (by decide)
  have hfull : ¬ b.Room := by
    unfold Bridge.Room
    rw [hlen]
    decide
  refine ⟨(b.isr (.write .control 0x20)).1, hrun.append (.cons trivial rfl (.nil _)), ?_,
    isr_drops_reset hfull hnone _⟩
  rw [isr_resetRequested]
  rfl

end PicoV9k.Sasi
