import PicoV9k.Retiming
import PicoV9k.StatusCells

/-!
# Writes of STATUS

STATUS is meant to be read-only, but the handler stores a write at 0x20 in both cells
and a write at 0x30 in the alias alone. A run keeps the cells equal and goes on as if
nothing had been written there as long as every such write repeats what STATUS shows.
-/
namespace PicoV9k.Sasi
open PicoV9k.Bus PicoV9k.Storage PicoV9k.Mgmt PicoV9k.Runs

variable {Io σ : Type} {n : ℕ}

/-- A host write at 0x20 to 0x3F. -/
def isStatusWrite : FifoEvent → Bool
  | .write .status _ | .write .statusAlias _ => true
  | _ => false

/-- What the host does apart from writing STATUS. -/
def otherAccess : BusLabel Io σ → List FifoEvent
  | .fifo event => if isStatusWrite event then [] else [event]
  | _ => []

/-- No write of STATUS. -/
def LeavesStatus : BusLabel Io σ → Prop
  | .fifo event => isStatusWrite event = false
  | _ => True

/-- A write of STATUS repeats what the cell shows, and no word finds the queue full while
such a write takes up room in it. -/
def Repeats (b : Bridge σ n) : BusLabel Io σ → Prop
  | .fifo (.write .status data) | .fifo (.write .statusAlias data) => data = b.card.cache.status
  | .fifo event =>
    isDeferred event = true → b.Room ∨ ∀ e ∈ b.queue, isStatusWrite e.event = false
  | _ => True

lemma CachedRegs.setStatus_self {c : CachedRegs} (h : c.statusAlias = c.status) :
    c.setStatus c.status = c := by
  cases c
  cases h
  rfl

/-- `b'` is `b` as it would be without the STATUS writes: they are missing from the queue,
and all the host or the worker can see is the same. -/
structure Bridge.Follows (b b' : Bridge σ n) : Prop where
  aliased : b.card.Aliased
  addressed : b.Addressed
  card : b.card.Agrees b'.card
  chan : b'.chan = b.chan
  transfer : b'.transfer = b.transfer
  queue : b'.queue.map Entry.event = (b.queue.map Entry.event).filter fun event => !isStatusWrite event

lemma Bridge.Follows.length_le {b b' : Bridge σ n} (h : b.Follows b') :
    b'.queue.length ≤ b.queue.length := by
  have hlen := congrArg List.length h.queue
  rw [List.length_map] at hlen
  rw [hlen]
  exact (List.length_filter_le _ _).trans (List.length_map _).le

/-- Both queues take a word, or both lose it. -/
lemma Bridge.Follows.room_iff {b b' : Bridge σ n} (h : b.Follows b')
    (hfit : b.Room ∨ ∀ e ∈ b.queue, isStatusWrite e.event = false) : b'.Room ↔ b.Room := by
  rcases hfit with hroom | hnone
  · refine ⟨fun _ => hroom, fun _ => ?_⟩
    have hle := h.length_le
    unfold Bridge.Room at *
    omega
  · have hkeep : (b.queue.map Entry.event).filter (fun event => !isStatusWrite event) =
        b.queue.map Entry.event := by
      refine List.filter_eq_self.mpr fun event hevent => ?_
      obtain ⟨e, he, rfl⟩ := List.mem_map.mp hevent
      rw [hnone e he]
      rfl
    have hlen := congrArg List.length (h.queue.trans hkeep)
    simp only [List.length_map] at hlen
    unfold Bridge.Room
    rw [hlen]

/-- A write that repeats the cell changes nothing but the queue. -/
lemma isr_repeats {b : Bridge σ n} (h : b.card.Aliased) {target : Reg} {data : Byte}
    (ht : target = .status ∨ target = .statusAlias) (hd : data = b.card.cache.status) :
    (b.isr (.write target data)).1.card = b.card ∧ (b.isr (.write target data)).1.chan = b.chan := by
  subst hd
  rcases ht with rfl | rfl
  · have hcell := CachedRegs.setStatus_self h
    refine ⟨?_, enqueue_chan _ _⟩
    show (((Bridge.tick b).writeThrough .status b.card.cache.status).enqueue _).card = b.card
    rw [enqueue_card]
    show { b.card with cache := b.card.cache.setStatus b.card.cache.status } = b.card
    rw [hcell]
  · refine ⟨?_, enqueue_chan _ _⟩
    show (((Bridge.tick b).writeThrough .statusAlias b.card.cache.status).enqueue _).card = b.card
    rw [enqueue_card]
    have hcell : { b.card.cache with statusAlias := b.card.cache.status } = b.card.cache := by
      rw [← show b.card.cache.statusAlias = b.card.cache.status from h]
    show { b.card with cache := { b.card.cache with statusAlias := b.card.cache.status } } = b.card
    rw [hcell]

lemma isr_events (b : Bridge σ n) (event : FifoEvent) :
    (b.isr event).1.queue.map Entry.event =
      if isDeferred event = true ∧ b.Room then b.queue.map Entry.event ++ [event]
      else b.queue.map Entry.event := by
  rw [isr_queue]
  split
  · rw [List.map_append]
    rfl
  · rfl

/-- A write that repeats the cell is as good as none. -/
lemma Bridge.Follows.statusWrite {b b' : Bridge σ n} (h : b.Follows b') {target : Reg} {data : Byte}
    (ht : target = .status ∨ target = .statusAlias) (hd : data = b.card.cache.status) :
    (b.isr (.write target data)).1.Follows b' := by
  obtain ⟨hcard, hchan⟩ := isr_repeats h.aliased ht hd
  have htransfer := isr_transfer b (.write target data)
  have hwrite : isStatusWrite (.write target data) = true := by rcases ht with rfl | rfl <;> rfl
  refine ⟨hcard ▸ h.aliased, ?_, hcard ▸ h.card, h.chan.trans hchan.symm,
    h.transfer.trans htransfer.symm, ?_⟩
  · unfold Bridge.Addressed
    rw [htransfer]
    exact h.addressed
  · rw [isr_events, h.queue]
    split
    · rw [List.filter_append, List.filter_cons_of_neg (by simp [hwrite]), List.filter_nil,
        List.append_nil]
    · rfl

/-- Any other word does the same with and without them. -/
lemma Bridge.Follows.isr {b b' : Bridge σ n} (h : b.Follows b') {event : FifoEvent}
    (hother : isStatusWrite event = false)
    (hfit : isDeferred event = true → b.Room ∨ ∀ e ∈ b.queue, isStatusWrite e.event = false) :
    (b.isr event).1.Follows (b'.isr event).1 := by
  obtain ⟨hcard, hchan⟩ := isr_agrees h.card h.chan event
  refine ⟨isr_aliased h.aliased fun data heq => ?_, ?_, hcard, hchan, ?_, ?_⟩
  · rw [heq] at hother
    cases hother
  · unfold Bridge.Addressed
    rw [isr_transfer]
    exact h.addressed
  · rw [isr_transfer, isr_transfer, h.transfer]
  · rw [isr_events, isr_events, h.queue]
    by_cases hdeferred : isDeferred event = true
    · simp only [hdeferred, true_and, h.room_iff (hfit hdeferred)]
      split
      · rw [List.filter_append, List.filter_cons_of_pos (by simp [hother]), List.filter_nil]
      · rfl
    · simp only [hdeferred, Bool.false_eq_true, false_and, if_false]

/-- The worker passes over a write of STATUS, and does the same with any other entry. -/
lemma Bridge.Follows.worker {reg : Registry Io σ} {io : SectorIo Io} {b b' c : Bridge σ n}
    (h : b.Follows b') (hs : b.workerStep reg io = some c) :
    c.Follows b' ∨ ∃ c', b'.workerStep reg io = some c' ∧ c.Follows c' := by
  have hworked := workerStep_worked reg h.addressed hs
  have haliased := hworked.aliased h.aliased
  have haddressed := hworked.addressed
  unfold Bridge.workerStep at hs
  split at hs
  next _ _ t ht =>
    cases hs
    obtain ⟨hcard, hnext⟩ := transferStep_agrees reg h.card io t
    refine .inr ⟨b'.afterBoundary (transferStep reg io b'.card t), ?_, ?_⟩
    · unfold Bridge.workerStep
      rw [h.transfer, ht]
    · rcases hr : transferStep reg io b.card t with ⟨d, next⟩
      rcases hr' : transferStep reg io b'.card t with ⟨d', next'⟩
      rw [hr] at haliased haddressed hcard hnext
      rw [hr'] at hcard hnext
      dsimp only at hcard hnext
      subst hnext
      obtain ⟨_, rfl⟩ := hcard
      cases next' with
      | none => exact ⟨haliased, haddressed, ⟨_, rfl⟩, h.chan, rfl, h.queue⟩
      | some t' => exact ⟨haliased, haddressed, ⟨_, rfl⟩, h.chan, rfl, h.queue⟩
  · cases hs
  next e rest ht hq =>
    cases hs
    have hevents := h.queue
    rw [hq, List.map_cons] at hevents
    by_cases hwrite : isStatusWrite e.event = true
    · -- the entry has no branch of its own in the worker
      have hnone : deferProcessEntry io b.card e = (b.card, none) := by
        obtain ⟨event, seenAt⟩ := e
        unfold isStatusWrite at hwrite
        dsimp only at hwrite
        split at hwrite
        · rfl
        · rfl
        · cases hwrite
      rw [List.filter_cons_of_neg (by simp [hwrite])] at hevents
      rw [hnone] at haliased haddressed ⊢
      exact .inl ⟨haliased, haddressed, h.card, h.chan, h.transfer.trans ht, hevents⟩
    · rw [List.filter_cons_of_pos (by simp [hwrite])] at hevents
      obtain ⟨e', rest', hq', he', hrest⟩ := List.map_eq_cons_iff.mp hevents
      obtain ⟨hcard, hnext⟩ := deferProcessEntry_agrees h.card io he'
      refine .inr ⟨b'.afterEntry rest' (deferProcessEntry io b'.card e'), ?_, ?_⟩
      · unfold Bridge.workerStep
        rw [h.transfer, ht, hq']
      · exact ⟨haliased, haddressed, hcard, h.chan, hnext, hrest⟩

/-- One step of a run whose STATUS writes repeat the cell. -/
theorem Bridge.Follows.step {reg : Registry Io σ} {b c b' : Bridge σ n} {label : BusLabel Io σ}
    (h : b.Follows b') (hg : Repeats b label) (hs : b.step reg label = some c) :
    (c.Follows b' ∧ otherAccess label = []) ∨
      ∃ c', LeavesStatus label ∧ b'.step reg label = some c' ∧ c.Follows c' := by
  cases label with
  | fifo event =>
    cases hs
    by_cases hwrite : isStatusWrite event = true
    · refine .inl ⟨?_, if_pos hwrite⟩
      unfold isStatusWrite at hwrite
      split at hwrite
      · exact h.statusWrite (.inl rfl) hg
      · exact h.statusWrite (.inr rfl) hg
      · cases hwrite
    · have hother := Bool.eq_false_iff.mpr hwrite
      refine .inr ⟨_, hother, rfl, h.isr hother ?_⟩
      unfold isStatusWrite at hwrite
      split at hwrite
      · exact absurd rfl hwrite
      · exact absurd rfl hwrite
      next hstatus halias =>
        unfold Repeats at hg
        split at hg
        next heq => exact absurd (BusLabel.fifo.inj heq) (hstatus _)
        next heq => exact absurd (BusLabel.fifo.inj heq) (halias _)
        next heq =>
          cases heq
          exact hg
        next hno => exact absurd rfl (hno event)
  | worker io =>
    rcases h.worker hs with hc | ⟨c', hstep, hc⟩
    · exact .inl ⟨hc, rfl⟩
    · exact .inr ⟨c', trivial, hstep, hc⟩
  | service storage =>
    obtain ⟨haliased, haddressed, ⟨k, hcard⟩, hchan, htransfer, hqueue⟩ := h
    simp only [Bridge.step, Bridge.service] at hs
    split at hs
    next hidle =>
      cases hs
      refine .inr ⟨{ b' with card := { b'.card with storage := storage } }, trivial, ?_, ?_⟩
      · simp only [Bridge.step, Bridge.service, if_pos (htransfer.trans hidle)]
      · refine ⟨haliased, haddressed, ⟨k, ?_⟩, hchan, htransfer, hqueue⟩
        rw [hcard]
    · cases hs

instance (b : Bridge σ n) : (label : BusLabel Io σ) → Decidable (Repeats b label)
  | .fifo (.write .status _) | .fifo (.write .statusAlias _) => inferInstanceAs (Decidable (_ = _))
  | .fifo (.prefetch _) | .fifo (.readCommit _) | .fifo .unknown
  | .fifo (.write .control _) | .fifo (.write .data _) | .fifo (.write .addrL _)
  | .fifo (.write .addrM _) | .fifo (.write .addrH _) | .fifo (.write .mgmtCmd _)
  | .fifo (.write .mgmtStatus _) | .fifo (.write .mgmtResp _) | .fifo (.write .unused _)
  | .fifo (.write .outside _) => inferInstanceAs (Decidable (_ → _))
  | .worker _ | .service _ => isTrue trivial

end PicoV9k.Sasi
