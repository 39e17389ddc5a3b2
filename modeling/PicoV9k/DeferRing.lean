import PicoV9k.HostAccesses
import PicoV9k.RingBuffer

/-!
# The deferred queue

Between the handler and the worker of core 1 lies a ring of 256 slots. The handler
interrupts the worker anywhere, also between two accesses of `defer_dequeue`; core 1
still does what it would do with a list for a queue.
-/
namespace PicoV9k.Sasi
open PicoV9k.Bus PicoV9k.Storage PicoV9k.Mgmt PicoV9k.Runs PicoV9k.Rings

variable {Io σ : Type} {n : ℕ}

/-- `defer_queue_t`. -/
structure DeferQueue where
  ring : Ring Entry deferQueueSize
  drops : ℕ
  processed : ℕ

def DeferQueue.initial : DeferQueue := ⟨.empty ⟨.unknown, 0⟩ (by decide), 0, 0⟩

def deferEnqueueFast (q : DeferQueue) (e : Entry) : DeferQueue :=
  if q.ring.IsFull then { q with drops := q.drops + 1 } else { q with ring := q.ring.push e }

/-- Where the worker loop stands: what `defer_dequeue` has read so far, or that it has found the
queue empty. -/
inductive Dequeue
  | idle
  | tailRead (tail : Fin deferQueueSize)
  | found (tail : Fin deferQueueSize)
  | copied (tail : Fin deferQueueSize) (e : Entry)
  | taken (e : Entry)
  | drained

/-- Core 1 with the ring; the handler leaves in `core.queue` what it hands to the ring. -/
structure RingBridge (σ : Type) (n : ℕ) where
  core : Bridge σ n
  defer : DeferQueue
  stage : Dequeue

def RingBridge.initial (ram : ℕ → Byte) (storage : Routing σ) (chan : MgmtChan n) : RingBridge σ n :=
  ⟨.initial ram storage chan, .initial, .idle⟩

def RingBridge.isr (w : RingBridge σ n) (event : FifoEvent) : RingBridge σ n :=
  let core := (w.core.isr event).1
  { w with core := { core with queue := [] }, defer := core.queue.foldl deferEnqueueFast w.defer }

/-- An entry counts as processed when `defer_process_entry` returns, after its sector loop. -/
def DeferQueue.returned (q : DeferQueue) (transfer : Option Transfer) : DeferQueue :=
  match transfer with
  | none => { q with processed := q.processed + 1 }
  | some _ => q

/-- One access of `defer_dequeue`, one entry, or one sector boundary. -/
def RingBridge.workerStep (reg : Registry Io σ) (io : SectorIo Io) (w : RingBridge σ n) : RingBridge σ n :=
  match w.core.transfer, w.stage with
  | some t, _ =>
    let r := transferStep reg io w.core.card t
    { w with core := w.core.afterBoundary r, defer := w.defer.returned r.2 }
  | none, .idle => { w with stage := .tailRead ⟨w.defer.ring.tail, w.defer.ring.tail_lt⟩ }
  | none, .tailRead tail =>
    { w with stage := if tail.val = w.defer.ring.head then .drained else .found tail }
  | none, .found tail => { w with stage := .copied tail (w.defer.ring.slots tail) }
  | none, .copied tail e =>
    { w with
      defer := { w.defer with
        ring := w.defer.ring.seek (Ring.next deferQueueSize tail) (Ring.next_lt tail.isLt) }
      stage := .taken e }
  | none, .taken e =>
    let r := deferProcessEntry io w.core.card e
    { w with core := w.core.afterEntry [] r, defer := w.defer.returned r.2, stage := .idle }
  | none, .drained => { w with stage := .idle }

/-- The console is served when the queue was found empty. -/
def RingBridge.service (w : RingBridge σ n) (storage : Routing σ) : Option (RingBridge σ n) :=
  match w.stage with
  | .drained => (w.core.service storage).map fun core => { w with core }
  | _ => none

def RingBridge.step (reg : Registry Io σ) (w : RingBridge σ n) : BusLabel Io σ → Option (RingBridge σ n)
  | .fifo event => some (w.isr event)
  | .worker io => some (w.workerStep reg io)
  | .service storage => w.service storage

/-- An entry that has left the ring and is about to be processed. -/
def Dequeue.held : Dequeue → List Entry
  | .taken e => [e]
  | _ => []

def Bridge.withQueue (b : Bridge σ n) (queue : List Entry) (drops : ℕ) : Bridge σ n :=
  { b with queue, drops }

def RingBridge.bridge (w : RingBridge σ n) : Bridge σ n :=
  w.core.withQueue (w.stage.held ++ w.defer.ring.contents) w.defer.drops

/-- What `defer_dequeue` has read is still so. -/
def Dequeue.Current (r : Ring Entry deferQueueSize) : Dequeue → Prop
  | .tailRead tail => tail.val = r.tail
  | .found tail => tail.val = r.tail ∧ ¬ r.IsEmpty
  | .copied tail e => tail.val = r.tail ∧ ¬ r.IsEmpty ∧ e = r.peek
  | .idle | .taken _ | .drained => True

structure RingBridge.Sound (w : RingBridge σ n) : Prop where
  handed : w.core.queue = []
  current : w.stage.Current w.defer.ring
  waiting : w.core.transfer ≠ none → w.stage = .idle

lemma enqueue_withQueue (b : Bridge σ n) (queue : List Entry) (drops : ℕ) (event : FifoEvent) :
    (b.withQueue queue drops).enqueue event = ((b.enqueue event).withQueue queue drops).enqueue event := by
  unfold Bridge.enqueue
  by_cases hroom : b.queue.length + 1 < deferQueueSize
  · rw [if_pos hroom]
    rfl
  · rw [if_neg hroom]
    rfl

/-- What the handler does besides queueing does not depend on the queue. -/
lemma isr_withQueue (b : Bridge σ n) (queue : List Entry) (drops : ℕ) (event : FifoEvent) :
    ((b.withQueue queue drops).isr event).1 =
      if isDeferred event = true then ((b.isr event).1.withQueue queue drops).enqueue event
      else (b.isr event).1.withQueue queue drops := by
  have hdeferred (c : Bridge σ n) (hb : (b.isr event).1 = c.enqueue event)
      (hw : ((b.withQueue queue drops).isr event).1 = (c.withQueue queue drops).enqueue event)
      (hd : isDeferred event = true) : ((b.withQueue queue drops).isr event).1 =
        if isDeferred event = true then ((b.isr event).1.withQueue queue drops).enqueue event
        else (b.isr event).1.withQueue queue drops := by
    rw [if_pos hd, hb, hw, enqueue_withQueue]
  cases event with
  | prefetch target => cases target <;> rfl
  | readCommit target =>
    cases target with
    | data => exact hdeferred _ rfl rfl rfl
    | _ => rfl
  | write target data =>
    cases target with
    | control | data | status | statusAlias => exact hdeferred _ rfl rfl rfl
    | _ => rfl
  | unknown => rfl

lemma isr_fifoEntries (b : Bridge σ n) (event : FifoEvent) :
    (b.isr event).1.fifoEntries = b.fifoEntries + 1 := by
  cases event with
  | prefetch target => cases target <;> rfl
  | readCommit target =>
    cases target with
    | data => exact enqueue_fifoEntries _ _
    | _ => rfl
  | write target data =>
    cases target with
    | control | data | status | statusAlias => exact enqueue_fifoEntries _ _
    | _ => rfl
  | unknown => rfl

/-- What the handler hands to the ring. -/
lemma isr_handed {b : Bridge σ n} (hb : b.queue = []) (event : FifoEvent) :
    (b.isr event).1.queue = if isDeferred event = true then [⟨event, b.fifoEntries + 1⟩] else [] := by
  have hroom : b.Room := by
    unfold Bridge.Room
    rw [hb]
    decide
  rw [isr_queue, hb]
  simp only [hroom, and_true, List.nil_append]

/-- No word comes between the advance of the tail and the processing of the entry while exactly
two slots are free: there the ring has room for one word more than a list of its size. -/
def RingBridge.Spare (w : RingBridge σ n) : BusLabel Io σ → Prop
  | .fifo _ => w.stage.held ≠ [] → w.defer.ring.length + 2 ≠ deferQueueSize
  | .worker _ | .service _ => True

variable {w w' : RingBridge σ n} {reg : Registry Io σ}

lemma held_length (d : Dequeue) : d.held.length ≤ 1 := by cases d <;> simp [Dequeue.held]

lemma isr_bridge (hs : w.Sound) {event : FifoEvent}
    (hspare : w.Spare (.fifo event : BusLabel Io σ)) : (w.isr event).bridge = (w.bridge.isr event).1 := by
  unfold RingBridge.bridge
  rw [isr_withQueue]
  unfold RingBridge.isr
  dsimp only
  rw [isr_handed hs.handed]
  by_cases hd : isDeferred event = true
  · rw [if_pos hd, if_pos hd, List.foldl_cons, List.foldl_nil]
    unfold Bridge.enqueue deferEnqueueFast
    have hlen := (Ring.contents_length (r := w.defer.ring)).symm ▸ Ring.length_lt (r := w.defer.ring)
    by_cases hfull : w.defer.ring.IsFull
    · have hsize := Ring.isFull_iff.mp hfull
      rw [if_pos hfull, if_neg]
      · rfl
      · simp only [Bridge.withQueue, List.length_append]
        omega
    · have hsize := mt Ring.isFull_iff.mpr hfull
      rw [if_neg hfull, if_pos]
      · show Bridge.withQueue _ (_ ++ (w.defer.ring.push _).contents) _ = _
        rw [Ring.contents_push hfull, ← List.append_assoc, ← isr_fifoEntries w.core event]
        rfl
      · simp only [Bridge.withQueue, List.length_append]
        rcases List.eq_nil_or_concat w.stage.held with hheld | ⟨_, _, hheld⟩
        · rw [hheld, List.length_nil]
          omega
        · have htwo := hspare (by rw [hheld]; simp)
          rw [← Ring.contents_length] at htwo
          have hone := held_length w.stage
          omega
  · rw [if_neg hd, if_neg hd]
    rfl

lemma Dequeue.Current.enqueue {q : DeferQueue} {d : Dequeue} (h : d.Current q.ring) (e : Entry) :
    d.Current (deferEnqueueFast q e).ring := by
  unfold deferEnqueueFast
  split
  · exact h
  next hfull =>
    have hmore : ¬ q.ring.IsEmpty → ¬ (q.ring.push e).IsEmpty := by
      intro _
      rw [Ring.isEmpty_iff, Ring.contents_push hfull]
      simp
    cases d with
    | found tail => exact ⟨h.1, hmore h.2⟩
    | copied tail taken =>
      refine ⟨h.1, hmore h.2.1, h.2.2.trans ?_⟩
      -- the producer never writes the slot at the tail
      exact (Function.update_of_ne (fun heq => h.2.1 heq) _ _).symm
    | _ => exact h

lemma isr_sound (hs : w.Sound) (event : FifoEvent) : (w.isr event).Sound := by
  refine ⟨rfl, ?_, ?_⟩
  · unfold RingBridge.isr
    dsimp only
    rw [isr_handed hs.handed]
    split
    · exact hs.current.enqueue _
    · exact hs.current
  · intro h
    exact hs.waiting (isr_transfer w.core event ▸ h)

/-- An access of `defer_dequeue` changes nothing, or core 1 takes the step of the worker. -/
inductive WorkerMatch (reg : Registry Io σ) (io : SectorIo Io) (w w' : RingBridge σ n) : Prop
  | silent (hb : w'.bridge = w.bridge) (hp : w'.defer.processed = w.defer.processed) (hs : w'.Sound)
  | turn (hb : w.bridge.workerStep reg io = some w'.bridge)
      (hp : w'.defer.processed + w'.core.transfer.toList.length = w.defer.processed + 1) (hs : w'.Sound)

@[simp] lemma returned_ring (q : DeferQueue) (t : Option Transfer) : (q.returned t).ring = q.ring := by
  cases t <;> rfl

@[simp] lemma returned_drops (q : DeferQueue) (t : Option Transfer) : (q.returned t).drops = q.drops := by
  cases t <;> rfl

lemma returned_accounted (q : DeferQueue) (t : Option Transfer) :
    (q.returned t).processed + t.toList.length = q.processed + 1 := by
  cases t <;> rfl

lemma boundary_match {t : Transfer} (hs : w.Sound) (ht : w.core.transfer = some t) (io : SectorIo Io) :
    WorkerMatch reg io w (w.workerStep reg io) := by
  have hstage := hs.waiting (ht ▸ Option.some_ne_none t)
  unfold RingBridge.workerStep
  simp only [ht]
  refine .turn ?_ ?_ ⟨?_, ?_, fun _ => hstage⟩
  · show Bridge.workerStep reg io w.bridge = _
    unfold Bridge.workerStep RingBridge.bridge Bridge.withQueue
    simp only [ht, returned_ring, returned_drops]
    rcases transferStep reg io w.core.card t with ⟨c, _ | u⟩ <;> rfl
  · rcases transferStep reg io w.core.card t with ⟨c, _ | u⟩ <;> rfl
  · rcases transferStep reg io w.core.card t with ⟨c, _ | u⟩ <;> exact hs.handed
  · show w.stage.Current _
    rw [hstage]
    trivial

lemma dequeue_match (hs : w.Sound) (ht : w.core.transfer = none) (io : SectorIo Io) :
    WorkerMatch reg io w (w.workerStep reg io) := by
  have hnone {p : Prop} : w.core.transfer ≠ none → p := fun h => absurd ht h
  have hcurrent := hs.current
  unfold RingBridge.workerStep
  cases hstage : w.stage with
  | idle =>
    simp only [ht]
    exact .silent (by simp [RingBridge.bridge, hstage, Dequeue.held]) rfl ⟨hs.handed, rfl, hnone⟩
  | tailRead tail =>
    rw [hstage] at hcurrent
    simp only [ht]
    by_cases hempty : tail.val = w.defer.ring.head
    · simp only [if_pos hempty]
      exact .silent (by simp [RingBridge.bridge, hstage, Dequeue.held]) rfl ⟨hs.handed, trivial, hnone⟩
    · simp only [if_neg hempty]
      refine .silent (by simp [RingBridge.bridge, hstage, Dequeue.held]) rfl ⟨hs.handed, ?_, hnone⟩
      exact ⟨hcurrent, fun h => hempty (hcurrent.trans h)⟩
  | found tail =>
    rw [hstage] at hcurrent
    simp only [ht]
    refine .silent (by simp [RingBridge.bridge, hstage, Dequeue.held]) rfl ⟨hs.handed, ?_, hnone⟩
    exact ⟨hcurrent.1, hcurrent.2, congrArg w.defer.ring.slots hcurrent.1⟩
  | copied tail e =>
    rw [hstage] at hcurrent
    obtain ⟨htail, hfull, rfl⟩ := hcurrent
    simp only [ht]
    refine .silent ?_ rfl ⟨hs.handed, trivial, hnone⟩
    have hpop := Ring.contents_pop hfull
    unfold RingBridge.bridge
    rw [hstage]
    show Bridge.withQueue _ (_ :: (Ring.seek _ _ _).contents) _ = Bridge.withQueue _ _ _
    simp only [htail, Dequeue.held, List.nil_append, hpop]
    rfl
  | taken e =>
    simp only [ht]
    refine .turn ?_ (returned_accounted _ _) ⟨rfl, trivial, fun _ => rfl⟩
    unfold Bridge.workerStep RingBridge.bridge Bridge.withQueue
    simp only [ht, hstage, Dequeue.held, List.cons_append, List.nil_append, returned_ring, returned_drops]
    rfl
  | drained =>
    simp only [ht]
    exact .silent (by simp [RingBridge.bridge, hstage, Dequeue.held]) rfl ⟨hs.handed, trivial, hnone⟩

lemma workerStep_match (reg : Registry Io σ) (hs : w.Sound) (io : SectorIo Io) :
    WorkerMatch reg io w (w.workerStep reg io) := by
  cases ht : w.core.transfer with
  | none => exact dequeue_match hs ht io
  | some t => exact boundary_match hs ht io

lemma service_match (hs : w.Sound) {storage : Routing σ} (h : w.service storage = some w') :
    w.bridge.service storage = some w'.bridge ∧ w'.defer = w.defer ∧ w'.Sound := by
  unfold RingBridge.service at h
  cases hstage : w.stage with
  | drained =>
    simp only [hstage] at h
    obtain ⟨core, hcore, rfl⟩ := Option.map_eq_some_iff.mp h
    unfold Bridge.service at hcore
    split at hcore
    next ht =>
      cases hcore
      refine ⟨?_, rfl, hs.handed, trivial, fun h => absurd ht h⟩
      unfold RingBridge.bridge
      rw [hstage]
      exact if_pos ht
    · cases hcore
  | _ => simp [hstage] at h

/-- What the host and the console see and do; the accesses of the worker are not shown. -/
def BusLabel.outward : BusLabel Io σ → List (BusLabel Io σ)
  | .worker _ => []
  | label => [label]

def BusLabel.deferred : BusLabel Io σ → Bool
  | .fifo event => isDeferred event
  | .worker _ | .service _ => false

/-- The deferred words the handler has met: processed, being executed, waiting or dropped. -/
def RingBridge.accounted (w : RingBridge σ n) : ℕ :=
  w.defer.processed + w.core.transfer.toList.length + w.bridge.queue.length + w.defer.drops

lemma enqueue_accounted (q : DeferQueue) (e : Entry) :
    (deferEnqueueFast q e).processed = q.processed ∧
      (deferEnqueueFast q e).ring.contents.length + (deferEnqueueFast q e).drops =
        q.ring.contents.length + q.drops + 1 := by
  unfold deferEnqueueFast
  split
  · exact ⟨rfl, (Nat.add_assoc _ _ 1).symm⟩
  next hfull =>
    refine ⟨rfl, ?_⟩
    show (q.ring.push e).contents.length + q.drops = _
    rw [Ring.contents_push hfull, List.length_append, List.length_singleton]
    omega

lemma isr_accounted (hs : w.Sound) (event : FifoEvent) :
    (w.isr event).accounted = w.accounted + if isDeferred event = true then 1 else 0 := by
  unfold RingBridge.accounted RingBridge.bridge Bridge.withQueue RingBridge.isr
  dsimp only
  rw [isr_handed hs.handed, isr_transfer]
  split
  · obtain ⟨hprocessed, hmore⟩ := enqueue_accounted w.defer ⟨event, w.core.fifoEntries + 1⟩
    simp only [List.foldl_cons, List.foldl_nil, List.length_append, hprocessed]
    omega
  · rfl

/-- A step of the worker ends a transfer or takes an entry, and may start a transfer. -/
lemma workerStep_waiting {b b' : Bridge σ n} {io : SectorIo Io} (h : b.workerStep reg io = some b') :
    b.transfer.toList.length + b.queue.length = b'.queue.length + 1 ∧ b'.drops = b.drops := by
  unfold Bridge.workerStep at h
  split at h
  next t ht =>
    cases h
    rw [ht]
    rcases transferStep reg io b.card t with ⟨c, _ | u⟩ <;> exact ⟨Nat.add_comm 1 _, rfl⟩
  · cases h
  next ht hq =>
    cases h
    rw [ht, hq]
    exact ⟨Nat.zero_add _, rfl⟩

lemma step_match (hs : w.Sound) {label : BusLabel Io σ} (hspare : w.Spare label)
    (h : w.step reg label = some w') :
    w'.Sound ∧ (w'.bridge = w.bridge ∧ label.outward = [] ∨ w.bridge.step reg label = some w'.bridge) := by
  cases label with
  | fifo event =>
    cases h
    exact ⟨isr_sound hs event, .inr (congrArg some (isr_bridge hs hspare).symm)⟩
  | worker io =>
    cases h
    cases workerStep_match reg hs io with
    | silent hb _ hs' => exact ⟨hs', .inl ⟨hb, rfl⟩⟩
    | turn hb _ hs' => exact ⟨hs', .inr hb⟩
  | service storage =>
    obtain ⟨hb, -, hs'⟩ := service_match hs h
    exact ⟨hs', .inr hb⟩

lemma step_accounted (hs : w.Sound) {label : BusLabel Io σ} (h : w.step reg label = some w') :
    w'.accounted = w.accounted + if label.deferred = true then 1 else 0 := by
  cases label with
  | fifo event =>
    cases h
    exact isr_accounted hs event
  | worker io =>
    cases h
    unfold RingBridge.accounted
    cases workerStep_match reg hs io with
    | silent hb hp _ =>
      have ht := congrArg Bridge.transfer hb
      have hdrops := congrArg Bridge.drops hb
      simp only [RingBridge.bridge, Bridge.withQueue] at ht hdrops
      rw [hb, hp, ht, hdrops]
      rfl
    | turn hb hp _ =>
      obtain ⟨hwait, hdrops⟩ := workerStep_waiting hb
      simp only [RingBridge.bridge, Bridge.withQueue] at hwait hdrops ⊢
      simp only [BusLabel.deferred, Bool.false_eq_true, if_false]
      omega
  | service storage =>
    obtain ⟨hb, hdefer, -⟩ := service_match hs h
    have ht : w'.core.transfer = w.core.transfer ∧ w'.bridge.queue = w.bridge.queue := by
      unfold Bridge.service at hb
      split at hb
      · have hsame := Option.some.inj hb
        exact ⟨(congrArg Bridge.transfer hsame).symm, (congrArg Bridge.queue hsame).symm⟩
      · cases hb
    unfold RingBridge.accounted
    rw [hdefer, ht.1, ht.2]
    rfl

lemma initial_sound (ram : ℕ → Byte) (storage : Routing σ) (chan : MgmtChan n) :
    (RingBridge.initial ram storage chan).Sound := ⟨rfl, trivial, fun h => absurd rfl h⟩

/-- With the ring for a queue core 1 does what it does with a list, and no deferred word is
lost: each was processed, is being executed, waits, or was counted as dropped. -/
theorem ring_refines_queue {ram : ℕ → Byte} {storage : Routing σ} {chan : MgmtChan n}
    {labels : List (BusLabel Io σ)}
    (h : Guarded (RingBridge.step reg) RingBridge.Spare (.initial ram storage chan) labels w) :
    (∃ labels', Run (Bridge.step reg) (.initial ram storage chan) labels' w.bridge ∧
      labels'.flatMap BusLabel.outward = labels.flatMap BusLabel.outward) ∧
    w.accounted = labels.countP BusLabel.deferred := by
  have hsound := initial_sound ram storage chan
  have hstep (s : RingBridge σ n) (a : BusLabel Io σ) (s' : RingBridge σ n) (b : Bridge σ n)
      (hR : s.Sound ∧ s.bridge = b) (hg : s.Spare a) (hs : s.step reg a = some s') :
      ((s'.Sound ∧ s'.bridge = b) ∧ a.outward = []) ∨
        ∃ b', True ∧ b.step reg a = some b' ∧ s'.Sound ∧ s'.bridge = b' := by
    obtain ⟨hsafe, rfl⟩ := hR
    obtain ⟨hs', ⟨hb, hseen⟩ | hb⟩ := step_match hsafe hg hs
    · exact .inl ⟨⟨hs', hb⟩, hseen⟩
    · exact .inr ⟨_, trivial, hb, hs', rfl⟩
  have hcount (s : RingBridge σ n) (a : BusLabel Io σ) (s' : RingBridge σ n) (hs : s.Sound)
      (hg : s.Spare a) (ha : s.step reg a = some s') :
      s'.Sound ∧ s'.accounted = s.accounted + if a.deferred = true then 1 else 0 :=
    ⟨(step_match hs hg ha).1, step_accounted hs ha⟩
  refine ⟨?_, ?_⟩
  · obtain ⟨labels', b, hrun, hseen, -, rfl⟩ := h.project hstep ⟨hsound, rfl⟩
    exact ⟨labels', hrun, hseen⟩
  · rw [h.counts hcount hsound]
    exact Nat.zero_add _

instance decidableSpare (w : RingBridge σ n) : (label : BusLabel Io σ) → Decidable (w.Spare label)
  | .fifo _ => inferInstanceAs (Decidable (w.stage.held ≠ [] → _ ≠ deferQueueSize))
  | .worker _ | .service _ => isTrue trivial

/-- The handler interrupts between the load of the tail and the load of the head, then between
the advance of the tail and the processing of the entry. -/
def interruptedTwice : List (BusLabel Unit Unit) :=
  [.fifo (.write .control 0x02)] ++ workerTurns 1 ++ [.fifo (.write .data 0x01)] ++ workerTurns 3 ++
    [.fifo (.write .control 0x00)] ++ workerTurns 1

theorem ring_refines_queue_interrupted : ∃ (w : RingBridge Unit 2) (labels' : List (BusLabel Unit Unit)),
    Run (Bridge.step fun _ => none) bareBridge labels' w.bridge ∧
      labels'.flatMap BusLabel.outward = interruptedTwice.flatMap BusLabel.outward ∧
      w.bridge.queue = [⟨.write .data 0x01, 2⟩, ⟨.write .control 0x00, 3⟩] ∧ w.accounted = 3 := by
  have hfollow : (follow (RingBridge.step fun _ => none) RingBridge.Spare
      (.initial (fun _ => 0) (.initial ()) (.initial Nat.two_pos)) interruptedTwice).map
        (fun w => (w.bridge.queue, w.accounted)) =
      some ([⟨.write .data 0x01, 2⟩, ⟨.write .control 0x00, 3⟩], 3) := rfl
  obtain ⟨w, hw, hend⟩ := Option.map_eq_some_iff.mp hfollow
  obtain ⟨hqueue, haccounted⟩ := Prod.mk.inj hend
  obtain ⟨⟨labels', hrun, hseen⟩, -⟩ := ring_refines_queue (.of_follow hw)
  exact ⟨w, labels', hrun, hseen, hqueue, haccounted⟩

end PicoV9k.Sasi
