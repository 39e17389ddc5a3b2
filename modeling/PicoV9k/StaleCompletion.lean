import PicoV9k.HandshakeTrack

/-!
# Completions across RESET

The host may write RESET at any time and turn to other commands while the worker is
still behind. Commands that end as soon as they are routed never look at
`reset_requested`, and an earlier RESET entry clears the flag a later one has set; in
runs where neither meets a command older than the RESET, nothing stale completes.
-/
namespace PicoV9k.Sasi
open PicoV9k.Bus PicoV9k.Storage PicoV9k.Mgmt PicoV9k.Runs

variable {Io σ : Type} {n : ℕ}

/-- A sector transfer or a status phase. -/
def Effect.touches : Effect → Bool
  | .routed .. => false
  | .sector _ | .status _ => true

/-- Routed now, the command is no older than the latest RESET, or it is a transfer that will
find the flag of that RESET. -/
def Card.Timely (c : Card σ) (e : Entry) (cdb : List Byte) : Prop :=
  ((Opcode.ofByte (cdbByte cdb 0)).Finishes c.dma.dmaEnabled → c.history.resetAt < e.seenAt) ∧
    ((Opcode.ofByte (cdbByte cdb 0)).Moves → e.seenAt ≤ c.history.resetAt →
      c.dma.resetRequested = true)

instance (c : Card σ) (e : Entry) (cdb : List Byte) : Decidable (c.Timely e cdb) :=
  inferInstanceAs (Decidable (_ ∧ _))

/-- The worker routes only timely commands. -/
def Bridge.Timely (b : Bridge σ n) : Prop :=
  b.transfer.isNone → ∀ e ∈ b.queue.head?, ∀ cdb ∈ b.card.wholeCdb e, b.card.Timely e cdb

instance (b : Bridge σ n) : Decidable b.Timely := inferInstanceAs (Decidable (_ → _))

/-- No access meets a full queue and no command is routed too late. -/
def Prompt (s : System σ n) : Label Io σ → Prop
  | .host | .reset .. => s.bridge.Room
  | .worker _ => s.bridge.Timely
  | .skip | .service _ => True

instance (s : System σ n) : (label : Label Io σ) → Decidable (Prompt s label)
  | .host | .reset .. => inferInstanceAs (Decidable s.bridge.Room)
  | .worker _ => inferInstanceAs (Decidable s.bridge.Timely)
  | .skip | .service _ => isTrue trivial

/-- Entries are queued in time order; a command that runs past a RESET has its flag set. -/
structure Stamped (b : Bridge σ n) (w : Stage) : Prop where
  resetAt : b.card.history.resetAt ≤ b.fifoEntries
  ordered : b.queue.Pairwise fun e e' => e.seenAt < e'.seenAt
  seen : ∀ e ∈ b.queue, e.seenAt ≤ b.fifoEntries
  later : ∀ t cdb τ, w = .executing t cdb τ → ∀ e ∈ b.queue, τ < e.seenAt
  resets : ∀ e ∈ b.queue, e.IsReset → e.seenAt ≤ b.card.history.resetAt
  requested : ∀ t cdb τ, w = .executing t cdb τ → τ ≤ b.card.history.resetAt →
    b.card.dma.resetRequested = true
  issued : ∀ t cdb τ, w = .executing t cdb τ → τ ≤ b.fifoEntries

/-- The handler counts on and queues at most one entry, at the time it counts. -/
lemma Stamped.handled {b b' : Bridge σ n} {w : Stage} (h : Stamped b w)
    (htick : b'.fifoEntries = b.fifoEntries + 1) (hold : b.card.history.resetAt ≤ b'.card.history.resetAt)
    (hreset : b'.card.history.resetAt ≤ b'.fifoEntries)
    (hqueue : b'.queue = b.queue ∨ ∃ e, b'.queue = b.queue ++ [e] ∧ e.seenAt = b'.fifoEntries ∧
      (e.IsReset → b'.card.history.resetAt = b'.fifoEntries))
    (hreq : b'.card.dma.resetRequested = b.card.dma.resetRequested ∧
      b'.card.history.resetAt = b.card.history.resetAt ∨ b'.card.dma.resetRequested = true) :
    Stamped b' w := by
  have hreq' (t : Byte) (cdb : List Byte) (τ : ℕ) (hw : w = .executing t cdb τ)
      (hτ : τ ≤ b'.card.history.resetAt) : b'.card.dma.resetRequested = true := by
    rcases hreq with ⟨hr, hat⟩ | hr
    · exact hr.trans (h.requested t cdb τ hw (hat ▸ hτ))
    · exact hr
  have hissued (t : Byte) (cdb : List Byte) (τ : ℕ) (hw : w = .executing t cdb τ) :
      τ ≤ b'.fifoEntries := htick ▸ (h.issued t cdb τ hw).trans (Nat.le_succ _)
  have hseen (e : Entry) (he : e ∈ b.queue) : e.seenAt < b'.fifoEntries :=
    htick ▸ Nat.lt_succ_of_le (h.seen e he)
  rcases hqueue with hq | ⟨e, hq, hat, he⟩
  · refine ⟨hreset, ?_, ?_, ?_, ?_, hreq', hissued⟩
    · rw [hq]; exact h.ordered
    · rw [hq]; exact fun x hx => (hseen x hx).le
    · rw [hq]; exact h.later
    · rw [hq]; exact fun x hx hr => (h.resets x hx hr).trans hold
  · refine ⟨hreset, ?_, ?_, ?_, ?_, hreq', hissued⟩
    · rw [hq, List.pairwise_append]
      refine ⟨h.ordered, List.pairwise_singleton _ _, fun x hx y hy => ?_⟩
      rw [List.mem_singleton.mp hy, hat]
      exact hseen x hx
    · rw [hq]
      intro x hx
      rcases List.mem_append.mp hx with hx | hx
      · exact (hseen x hx).le
      · exact (List.mem_singleton.mp hx ▸ hat).le
    · rw [hq]
      intro t cdb τ hw x hx
      rcases List.mem_append.mp hx with hx | hx
      · exact h.later t cdb τ hw x hx
      · rw [List.mem_singleton.mp hx, hat, htick]
        exact Nat.lt_succ_of_le (h.issued t cdb τ hw)
    · rw [hq]
      intro x hx hr
      rcases List.mem_append.mp hx with hx | hx
      · exact (h.resets x hx hr).trans hold
      · have hx' := List.mem_singleton.mp hx
        rw [hx', hat, he (hx' ▸ hr)]

/-- The worker takes an entry; if it routes a transfer by it, the flag must already be set. -/
lemma Stamped.taken {b b' : Bridge σ n} {w w' : Stage} {e : Entry} (h : Stamped b w)
    (hq : b.queue = e :: b'.queue) (hfifo : b'.fifoEntries = b.fifoEntries)
    (hat : b'.card.history.resetAt = b.card.history.resetAt)
    (hw : ∀ t cdb τ, w' = .executing t cdb τ → τ = e.seenAt ∧
      (e.seenAt ≤ b.card.history.resetAt → b'.card.dma.resetRequested = true)) : Stamped b' w' := by
  have hordered := h.ordered
  rw [hq, List.pairwise_cons] at hordered
  have hmem (x : Entry) (hx : x ∈ b'.queue) : x ∈ b.queue := hq ▸ List.mem_cons_of_mem _ hx
  refine ⟨by rw [hat, hfifo]; exact h.resetAt, hordered.2, fun x hx => hfifo ▸ h.seen x (hmem x hx), ?_,
    fun x hx hr => hat ▸ h.resets x (hmem x hx) hr, ?_, ?_⟩
  · intro t cdb τ heq x hx
    rw [(hw t cdb τ heq).1]
    exact hordered.1 x hx
  · intro t cdb τ heq hτ
    obtain ⟨rfl, hset⟩ := hw t cdb τ heq
    exact hset (hat ▸ hτ)
  · intro t cdb τ heq
    rw [(hw t cdb τ heq).1, hfifo]
    exact h.seen e (hq ▸ List.mem_cons_self)

/-- The worker goes on without taking an entry. -/
lemma Stamped.boundary {b b' : Bridge σ n} {w w' : Stage} (h : Stamped b w)
    (hq : b'.queue = b.queue) (hfifo : b'.fifoEntries = b.fifoEntries)
    (hat : b'.card.history.resetAt = b.card.history.resetAt)
    (hreq : b'.card.dma.resetRequested = b.card.dma.resetRequested)
    (hw : ∀ t cdb τ, w' = .executing t cdb τ → w = w') : Stamped b' w' := by
  refine ⟨by rw [hat, hfifo]; exact h.resetAt, hq ▸ h.ordered, fun x hx => hfifo ▸ h.seen x (hq ▸ hx),
    fun t cdb τ heq x hx => h.later t cdb τ ((hw t cdb τ heq).trans heq) x (hq ▸ hx),
    fun x hx hr => hat ▸ h.resets x (hq ▸ hx) hr, fun t cdb τ heq hτ => ?_, fun t cdb τ heq => ?_⟩
  · rw [hreq]
    exact h.requested t cdb τ ((hw t cdb τ heq).trans heq) (hat ▸ hτ)
  · rw [hfifo]
    exact h.issued t cdb τ ((hw t cdb τ heq).trans heq)

/-- What the latest exchange says about the command whose stage is `h`. -/
def Answering (h : Stage) (x : Exchange) : Prop :=
  match h with
  | .selected _ | .command .. => x.sources = []
  | .executing _ _ τ => x.sources = [] ∧ x.lastByteAt = τ
  | .status τ _ => x.lastByteAt = τ
  | .free _ | .stranded | .message _ => True

structure Sourced (h : Stage) (xs : List Exchange) : Prop where
  answers : ∀ x ∈ xs, ∀ source ∈ x.sources, source = some x.lastByteAt
  current : ∀ x ∈ xs.head?, Answering h x

lemma mem_amendHead {f : Exchange → Exchange} {xs : List Exchange} {y : Exchange}
    (hy : y ∈ amendHead f xs) : (∃ x ∈ xs.head?, y = f x) ∨ y ∈ xs := by
  cases xs with
  | nil => exact .inr hy
  | cons x xs =>
    rcases List.mem_cons.mp hy with rfl | hy
    · exact .inl ⟨x, rfl, rfl⟩
    · exact .inr (List.mem_cons_of_mem _ hy)

lemma head_amendHead {f : Exchange → Exchange} {xs : List Exchange} {y : Exchange}
    (hy : y ∈ (amendHead f xs).head?) : ∃ x ∈ xs.head?, y = f x := by
  cases xs with
  | nil => cases hy
  | cons x xs => exact ⟨x, rfl, (Option.some.inj hy).symm⟩

/-- Amending the latest exchange keeps what holds of the amended exchange. -/
lemma Sourced.amend {h h' : Stage} {xs : List Exchange} {f : Exchange → Exchange}
    (hs : Sourced h xs) (hf : ∀ x ∈ xs, Answering h x → (∀ source ∈ x.sources, source = some x.lastByteAt) →
      Answering h' (f x) ∧ ∀ source ∈ (f x).sources, source = some (f x).lastByteAt) :
    Sourced h' (amendHead f xs) := by
  have hhead (x : Exchange) (hx : x ∈ xs.head?) := hf x (List.mem_of_mem_head? hx) (hs.current x hx)
    (hs.answers x (List.mem_of_mem_head? hx))
  refine ⟨fun y hy => ?_, fun y hy => ?_⟩
  · rcases mem_amendHead hy with ⟨x, hx, rfl⟩ | hy
    · exact (hhead x hx).2
    · exact hs.answers y hy
  · obtain ⟨x, hx, rfl⟩ := head_amendHead hy
    exact (hhead x hx).1

/-- Notes about polls and DATA values say nothing about sources. -/
lemma Sourced.noted {h h' : Stage} {xs : List Exchange} {f : Exchange → Exchange}
    (hs : Sourced h xs) (hsource : ∀ x, (f x).sources = x.sources ∧ (f x).lastByteAt = x.lastByteAt)
    (hh : ∀ x, Answering h x → Answering h' x) : Sourced h' (amendHead f xs) := by
  refine hs.amend fun x _ hx hsrc => ?_
  have hcongr (y : Exchange) (hy : y.sources = x.sources ∧ y.lastByteAt = x.lastByteAt)
      (ha : Answering h' x) : Answering h' y := by
    unfold Answering at ha ⊢
    rw [hy.1, hy.2]
    exact ha
  refine ⟨hcongr _ (hsource x) (hh x hx), ?_⟩
  rw [(hsource x).1, (hsource x).2]
  exact hsrc

lemma Sourced.mono {h h' : Stage} {xs : List Exchange} (hs : Sourced h xs)
    (hh : ∀ x, Answering h x → Answering h' x) : Sourced h' xs :=
  ⟨hs.answers, fun x hx => hh x (hs.current x hx)⟩

structure Timed (s : System σ n) (w h : Stage) (todo : List BootStep) (a : DmaAddress) : Prop where
  tracks : Tracks s w h todo a
  stamped : Stamped s.bridge w
  sourced : Sourced h s.host.exchanges
  calm : (¬ ∃ τ b, h = .status τ b) → s.bridge.card.Calm
  offered : ∀ τ b, h = .status τ b → s.cell = phaseStatus
  polled : ∀ v phase rest, s.host.outstanding = some v → s.host.script = .await phase :: rest →
    v &&& statusMask = phaseStatus → ∃ τ b, h = .status τ b
  effects : ∀ e ∈ s.bridge.card.history.log, e.effect.touches = true → e.resetAt < e.issuedAt

/-- What a step makes of the cells and of the exchanges. -/
structure Shows (s' : System σ n) (h' : Stage) : Prop where
  sourced : Sourced h' s'.host.exchanges
  calm : (¬ ∃ τ b, h' = .status τ b) → s'.bridge.card.Calm
  offered : ∀ τ b, h' = .status τ b → s'.cell = phaseStatus
  polled : ∀ v phase rest, s'.host.outstanding = some v → s'.host.script = .await phase :: rest →
    v &&& statusMask = phaseStatus → ∃ τ b, h' = .status τ b

section Steps

variable {s s' : System σ n} {w h : Stage} {todo : List BootStep} {a : DmaAddress}

lemma Timed.shows (hv : Timed s w h todo a) : Shows s h := ⟨hv.sourced, hv.calm, hv.offered, hv.polled⟩

/-- A stage that is not the status phase shows a calm cell. -/
lemma Shows.of_calm {h' : Stage} (hs : Sourced h' s'.host.exchanges) (hc : s'.bridge.card.Calm)
    (hn : ∀ τ b, h' ≠ .status τ b) (ho : s'.host.outstanding = none) : Shows s' h' := by
  refine ⟨hs, fun _ => hc, fun τ b hh => absurd hh (hn τ b), fun v _ _ hv => ?_⟩
  rw [ho] at hv
  cases hv

lemma Timed.status_of_shown (hv : Timed s w h todo a)
    (hp : s.bridge.cachedPhase = sasiCtlBit ||| sasiInpBit) : ∃ τ b, h = .status τ b := by
  by_contra hn
  exact hv.calm hn hp

lemma shown_of_polled : ∀ b : Byte, b &&& statusMask = phaseStatus →
    b &&& phaseMask = sasiCtlBit ||| sasiInpBit := by decide

lemma dataRead_calm : ∀ b : Byte, b &&& phaseMask ≠ sasiCtlBit ||| sasiInpBit →
    hasBit b sasiMsgBit = false →
    ¬ b &&& (sasiCtlBit ||| sasiInpBit) = sasiCtlBit ||| sasiInpBit := by decide

lemma Card.Calm.dataRead {c : Card σ} (hc : c.Calm) :
    (CachedRegs.dataRead c.cache).status &&& phaseMask ≠ sasiCtlBit ||| sasiInpBit := by
  unfold CachedRegs.dataRead
  by_cases hm : hasBit c.cache.status sasiMsgBit = true
  · rw [if_pos hm]
    show (0 : Byte) &&& phaseMask ≠ _
    decide
  · rw [if_neg hm, if_neg (dataRead_calm _ hc (Bool.eq_false_iff.mpr hm))]
    exact hc

lemma calm_of_cell {b : Byte} (hc : s'.cell = b) (hb : b &&& phaseMask ≠ sasiCtlBit ||| sasiInpBit) :
    s'.bridge.card.Calm := by
  show s'.cell &&& phaseMask ≠ _
  rw [hc]
  exact hb

/-- The read the host begins is answered from the cells as they stand. -/
lemma Timed.fetched (hv : Timed s w h todo a) {x : Access} {rest : List Access} {target : Reg}
    (hscript : s.host.script = x :: rest) (hreads : x.reads = some target)
    (hs : s'.host.script = s.host.script)
    (ho : s'.host.outstanding = some (s.bridge.served target))
    (hx : s'.host.exchanges = if x = .readData ∧ s.bridge.cachedPhase = sasiCtlBit ||| sasiInpBit then
        (s.host.amend (.sourced s.bridge.card.history.statusOf)).exchanges
      else s.host.exchanges) (hc : s'.cell = s.cell) : Shows s' h := by
  refine ⟨?_, fun hn => calm_of_cell hc (hv.calm hn), fun τ b hh => hc.trans (hv.offered τ b hh), ?_⟩
  · rw [hx]
    split
    next hcond =>
      obtain ⟨τ, b, rfl⟩ := hv.status_of_shown hcond.2
      obtain ⟨_, rfl⟩ := hv.tracks.queue.status
      have hof : s.bridge.card.history.statusOf = some τ := hv.tracks.worker.offered.2
      refine hv.sourced.amend fun y _ hy hsrc => ⟨hy, fun source hmem => ?_⟩
      have hy' : y.lastByteAt = τ := hy
      rcases List.mem_append.mp hmem with hmem | hmem
      · exact hsrc source hmem
      · rw [List.mem_singleton.mp hmem, hof]
        exact congrArg some hy'.symm
    next => exact hv.sourced
  · intro v phase rest' hval hscript' hseen
    cases (hs.trans hscript).symm.trans hscript'
    cases hreads
    cases ho.symm.trans hval
    exact hv.status_of_shown (shown_of_polled _ hseen)

lemma Timed.shown (hv : Timed s w h todo a) {h' : Stage} {todo' : List BootStep} {a' : DmaAddress}
    (hm : HostMoved s s' h todo a h' todo' a') : Shows s' h' := by
  cases hm with
  | quiet ho hx hc =>
    exact .of_calm (hx ▸ hv.sourced.mono fun _ _ => trivial) (calm_of_cell hc (hv.calm (by simp)))
      (fun _ _ => Stage.noConfusion) ho
  | select ho hx hc =>
    refine .of_calm ?_ (calm_of_cell hc (by decide)) (fun _ _ => Stage.noConfusion) ho
    rw [hx]
    refine ⟨fun y hy => ?_, fun y hy => (Option.some.inj hy) ▸ rfl⟩
    rcases List.mem_cons.mp hy with rfl | hy
    · exact fun _ hmem => absurd hmem List.not_mem_nil
    · exact hv.sourced.answers y hy
  | release ho hx hc =>
    exact .of_calm (hx ▸ hv.sourced.mono fun _ hy => hy) (calm_of_cell hc (by decide))
      (fun _ _ => Stage.noConfusion) ho
  | byte ho hx hc =>
    refine .of_calm ?_ (calm_of_cell hc (hv.calm (by simp))) (fun _ _ => Stage.noConfusion) ho
    rw [hx]
    refine hv.sourced.amend fun y _ hy _ => ⟨hy, fun source hmem => ?_⟩
    have hnone : y.sources = [] := hy
    have hmem' : source ∈ y.sources := hmem
    rw [hnone] at hmem'
    cases hmem'
  | lastByte hcmd ho hx hc =>
    refine .of_calm ?_ (calm_of_cell hc (hv.calm (by simp))) (fun _ _ => Stage.noConfusion) ho
    rw [hx]
    refine hv.sourced.amend fun y _ hy _ => ⟨⟨hy, rfl⟩, fun source hmem => ?_⟩
    have hnone : y.sources = [] := hy
    have hmem' : source ∈ y.sources := hmem
    rw [hnone] at hmem'
    cases hmem'
  | fetch hscript hreads hs ho hx hc => exact hv.fetched hscript hreads hs ho hx hc
  | polled hscript hval ho hx hc =>
    refine ⟨?_, fun hn => calm_of_cell hc (hv.calm hn), fun τ b hh => hc.trans (hv.offered τ b hh), ?_⟩
    · rw [hx]
      exact hv.sourced.noted (fun _ => ⟨rfl, rfl⟩) fun _ hy => hy
    · intro v _ _ hv
      rw [ho] at hv
      cases hv
  | statusRead hscript hval ho hx hc =>
    have hcell : s'.cell = phaseMessage := hc.trans (dataRead_status _ (hv.offered _ _ rfl))
    refine .of_calm ?_ (calm_of_cell hcell (by decide)) (fun _ _ => Stage.noConfusion) ho
    rw [hx]
    exact hv.sourced.noted (fun _ => ⟨rfl, rfl⟩) fun _ _ => trivial
  | messageRead hscript hval ho hx hc =>
    refine .of_calm ?_ (calm_of_cell hc (hv.calm (by simp)).dataRead) (fun _ _ => Stage.noConfusion) ho
    rw [hx]
    exact hv.sourced.noted (fun _ => ⟨rfl, rfl⟩) fun _ _ => trivial

theorem Timed.host (hv : Timed s w h todo a) (hroom : s.bridge.Room) (hs : s.hostStep = some s') :
    ∃ h' todo' a', Timed s' w h' todo' a' := by
  have hsight (value phase : Byte) (rest : List Access) (hval : s.host.outstanding = some value)
      (hscript : s.host.script = .await phase :: rest) (hseen : value &&& statusMask = phaseStatus) :
      ¬ h.Busy := by
    obtain ⟨τ, b, rfl⟩ := hv.polled value phase rest hval hscript hseen
    exact id
  obtain ⟨h', todo', a', ht, hk, hm⟩ := hv.tracks.host hroom hs hsight
  have hshows := hv.shown hm
  have hat : s'.bridge.card.history.resetAt = s.bridge.card.history.resetAt := by rw [hk.history]
  have hstamped : Stamped s'.bridge w := by
    refine hv.stamped.handled hk.tick hat.ge ?_ ?_ (.inl ⟨hk.requested, hat⟩)
    · rw [hat, hk.tick]
      exact hv.stamped.resetAt.trans (Nat.le_succ _)
    · rcases hk.queue with ⟨hq, _⟩ | ⟨e, _, hq, hseen, hne, _⟩
      · exact .inl hq
      · exact .inr ⟨e, hq, hseen, fun hr => absurd hr hne⟩
  exact ⟨h', todo', a', ht, hstamped, hshows.sourced, hshows.calm, hshows.offered, hshows.polled,
    hk.history ▸ hv.effects⟩

theorem Timed.reset (hv : Timed s w h todo a) (hroom : s.bridge.Room) {data : Byte}
    {cmds : List BootStep} (hs : s.hostReset data cmds = some s') :
    ∃ h' todo' a', Timed s' w h' todo' a' := by
  have hzero : (⟨0, 0, 0, 0⟩ : DmaAddress).top = 0 := rfl
  obtain ⟨ht, hb, hx, ho, hr, hcell⟩ := hv.tracks.reset hroom hs hzero
  have hshows : Shows s' (.free none) :=
    .of_calm (hx ▸ hv.sourced.mono fun _ _ => trivial) (calm_of_cell hcell (by decide))
      (fun _ _ => Stage.noConfusion) ho
  have hstamped : Stamped s'.bridge w := by
    have hat : s'.bridge.card.history.resetAt = s'.bridge.fifoEntries := by rw [hb]; rfl
    have hfifo : s'.bridge.fifoEntries = s.bridge.fifoEntries + 1 := by rw [hb]; rfl
    have hqueue : s'.bridge.queue =
        s.bridge.queue ++ [⟨.write .control data, s.bridge.fifoEntries + 1⟩] := by rw [hb]; rfl
    refine hv.stamped.handled hfifo ?_ hat.le (.inr ⟨_, hqueue, hfifo.symm, fun _ => hat⟩)
      (.inr (by rw [hb]; rfl))
    rw [hat, hfifo]
    exact hv.stamped.resetAt.trans (Nat.le_succ _)
  have hlog : s'.bridge.card.history.log = s.bridge.card.history.log := by rw [hb]; rfl
  exact ⟨_, _, _, ht, hstamped, hshows.sourced, hshows.calm, hshows.offered, hshows.polled,
    hlog ▸ hv.effects⟩

theorem Timed.skip (hv : Timed s w h todo a) (hs : s.hostSkip = some s') :
    Timed s' w h todo a := by
  obtain ⟨ht, hb, hx, ho⟩ := hv.tracks.skip hs
  have hcell : s'.cell = s.cell := congrArg (·.card.cache.status) hb
  refine ⟨ht, hb ▸ hv.stamped, hx ▸ hv.sourced, fun hn => calm_of_cell hcell (hv.calm hn),
    fun τ b hh => hcell.trans (hv.offered τ b hh), fun v _ _ hval => ?_, hb ▸ hv.effects⟩
  rw [ho] at hval
  cases hval

/-- The effects of one command, all at one time. -/
lemma effects_snoc {log : List LogEntry} (h : ∀ e ∈ log, e.effect.touches = true → e.resetAt < e.issuedAt)
    {e : LogEntry} (he : e.effect.touches = true → e.resetAt < e.issuedAt) :
    ∀ x ∈ log ++ [e], x.effect.touches = true → x.resetAt < x.issuedAt := by
  intro x hx
  rcases List.mem_append.mp hx with hx | hx
  · exact h x hx
  · exact List.mem_singleton.mp hx ▸ he

lemma Executed.effects {c d : Card σ} (h : Executed c d) (hat : c.history.resetAt < c.history.issuedAt)
    (hlog : ∀ e ∈ c.history.log, e.effect.touches = true → e.resetAt < e.issuedAt) :
    ∀ e ∈ d.history.log, e.effect.touches = true → e.resetAt < e.issuedAt := by
  obtain ⟨lbas, heq⟩ := h.log
  rw [heq]
  intro e he
  rcases List.mem_append.mp he with he | he
  · exact hlog e he
  · obtain ⟨lba, _, rfl⟩ := List.mem_map.mp he
    exact fun _ => hat

/-- A RESET behind the command that completes would be later than the latest RESET. -/
lemma Settled.fresh {q : List Entry} {v v' h' : Stage} {a₁ a' : DmaAddress} {τ ρ : ℕ}
    (hset : Settled q v v' h h' a a₁ a') (hlater : ∀ e ∈ q, τ < e.seenAt)
    (hresets : ∀ e ∈ q, e.IsReset → e.seenAt ≤ ρ) (hρ : ρ < τ) : h = v ∧ h' = v' := by
  rcases hset with ⟨_, hh, hh', _⟩ | ⟨⟨e, rest, hq, hr⟩, _⟩
  · exact ⟨hh, hh'⟩
  · have hmem : e ∈ q := hq ▸ List.mem_cons_self
    have h₁ := hlater e hmem
    have h₂ := hresets e hmem hr
    omega

lemma Timed.timely (hv : Timed s w h todo a) (ht : s.bridge.Timely) {target : Byte}
    {bytes cdb : List Byte} (hw : w = .command target bytes) {e : Entry} {rest : List Entry}
    (he : s.bridge.queue = e :: rest) (hwhole : s.bridge.card.wholeCdb e = some cdb) :
    s.bridge.card.Timely e cdb := by
  subst hw
  have hidle : s.bridge.transfer.isNone = true := by rw [hv.tracks.worker.waiting]; rfl
  exact ht hidle e (by rw [he]; rfl) cdb hwhole

/-- The host is not in the status phase while the queue holds entries. -/
lemma Timed.not_offered (hv : Timed s w h todo a) {e : Entry} {rest : List Entry}
    (he : s.bridge.queue = e :: rest) : ∀ τ b, h ≠ .status τ b := by
  rintro τ b rfl
  have hnil := hv.tracks.queue.status.1
  rw [he] at hnil
  cases hnil

/-- The host does not move and its stage stays, or a command it waits for ends. -/
lemma Timed.shows_worker (hv : Timed s w h todo a) {h' : Stage} (hhost : s'.host = s.host)
    (hc : s'.bridge.card.Calm) (hn : ∀ τ b, h ≠ .status τ b)
    (hh : h' = h ∨ h' = .stranded) : Shows s' h' := by
  have hn' (τ : ℕ) (b : Byte) : h' ≠ .status τ b := by
    rcases hh with rfl | rfl
    · exact hn τ b
    · exact Stage.noConfusion
  refine ⟨?_, fun _ => hc, fun τ b heq => absurd heq (hn' τ b), fun v phase rest hval hscript hseen => ?_⟩
  · rw [hhost]
    rcases hh with rfl | rfl
    · exact hv.sourced
    · exact hv.sourced.mono fun _ _ => trivial
  · rw [hhost] at hval hscript
    obtain ⟨τ, b, heq⟩ := hv.polled v phase rest hval hscript hseen
    exact absurd heq (hn τ b)

/-- The command the host waits for enters its status phase. -/
lemma Timed.shows_status {target b : Byte} {cdb : List Byte} {τ : ℕ}
    (hv : Timed s w (.executing target cdb τ) todo a) (hhost : s'.host = s.host)
    (hc : s'.cell = phaseStatus) : Shows s' (.status τ b) := by
  refine ⟨?_, fun hn => absurd ⟨τ, b, rfl⟩ hn, fun _ _ _ => hc, fun _ _ _ _ _ _ => ⟨τ, b, rfl⟩⟩
  rw [hhost]
  exact hv.sourced.mono fun _ hx => hx.2

lemma Settled.stage {q : List Entry} {v h' : Stage} {a₁ a' : DmaAddress}
    (hset : Settled q v .stranded h h' a a₁ a') : h' = h ∨ h' = .stranded := by
  rcases hset with ⟨_, _, hh, _⟩ | ⟨_, hh, _⟩
  · exact .inr hh
  · exact .inl hh

/-- An executing command without the flag is younger than the latest RESET. -/
lemma Timed.young {target : Byte} {cdb : List Byte} {τ : ℕ}
    (hv : Timed s (.executing target cdb τ) h todo a)
    (hreset : s.bridge.card.dma.resetRequested = false) : s.bridge.card.history.resetAt < τ := by
  by_contra hlt
  have hset := hv.stamped.requested target cdb τ rfl (not_lt.mp hlt)
  rw [hreset] at hset
  cases hset

/-- What the worker step of a timely run makes of times, cells and log. -/
structure WorkerTimed (s' : System σ n) (w' h' : Stage) : Prop where
  stamped : Stamped s'.bridge w'
  shows : Shows s' h'
  effects : ∀ e ∈ s'.bridge.card.history.log, e.effect.touches = true → e.resetAt < e.issuedAt

lemma Timed.worked (hv : Timed s w h todo a) (htimely : s.bridge.Timely) {w' h' : Stage}
    {a₁ a' : DmaAddress} (hm : WorkerMoved s s' a₁ w h a w' h' a') (hhost : s'.host = s.host)
    (hfifo : s'.bridge.fifoEntries = s.bridge.fifoEntries) : WorkerTimed s' w' h' := by
  have hst := hv.stamped
  cases hm with
  | quiet he hw hk hcells =>
    have hn := hv.not_offered he
    have hcalm : s'.bridge.card.Calm := by
      rcases hcells with hc | ⟨hc, _⟩
      · exact calm_of_cell hc (hv.calm fun ⟨τ, b, hh⟩ => hn τ b hh)
      · exact calm_of_cell hc (by decide)
    refine ⟨hst.taken he hfifo (by rw [hk.history]) ?_, hv.shows_worker hhost hcalm hn (.inl rfl), ?_⟩
    · intro t cdb τ heq
      exact absurd (heq ▸ trivial) hw
    · rw [hk.history]
      exact hv.effects
  | reset he hr hc =>
    have hcalm : s'.bridge.card.Calm := by
      rw [hc]
      show (0 : Byte) &&& phaseMask ≠ _
      decide
    refine ⟨hst.taken he hfifo (by rw [hc]; rfl) fun _ _ _ => Stage.noConfusion,
      hv.shows_worker hhost hcalm (hv.not_offered he) (.inl rfl), ?_⟩
    rw [hc]
    exact hv.effects
  | routedMoving he hd hop hc hlog =>
    have hat : s'.bridge.card.history.resetAt = s.bridge.card.history.resetAt := by
      rw [hlog]
      exact hd.resetAt
    have hcalm : s'.bridge.card.Calm := hc.calm hd.works.busy hd.calm
    refine ⟨hst.taken he hfifo hat ?_, hv.shows_worker hhost hcalm (hv.not_offered he) (.inl rfl), ?_⟩
    · intro t cdb τ heq
      cases heq
      refine ⟨rfl, fun hτ => ?_⟩
      rw [hc.requested]
      exact hd.requested.trans ((hv.timely htimely rfl he hd.whole).2 hop hτ)
    · rw [hlog]
      refine effects_snoc ?_ Bool.noConfusion
      rw [hd.log]
      exact hv.effects
  | routedCompleted he hd hop hc heq hset =>
    rename_i e target b bytes cdb d d'
    have hyoung := (hv.timely htimely rfl he hd.whole).1 hop
    have hat : s'.bridge.card.history.resetAt = s.bridge.card.history.resetAt := by
      rw [heq]
      exact hc.resetAt.trans hd.resetAt
    have hstamped : Stamped s'.bridge (.status e.seenAt b) :=
      hst.taken he hfifo hat fun _ _ _ => Stage.noConfusion
    have hordered := hst.ordered
    rw [he, List.pairwise_cons] at hordered
    obtain ⟨rfl, rfl⟩ := hset.fresh hordered.1 hstamped.resets (hat ▸ hyoung)
    refine ⟨hstamped, hv.shows_status hhost (cell_status (hc.busy hd.works.busy) heq), ?_⟩
    have hlt : d.history.resetAt < d.history.issuedAt := by rw [hd.resetAt, hd.issuedAt]; exact hyoung
    have hd' := hc.effects hlt (effects_snoc (hd.log ▸ hv.effects) Bool.noConfusion)
    rw [heq]
    refine effects_snoc hd' fun _ => ?_
    show d'.history.resetAt < d'.history.issuedAt
    rw [hc.resetAt, hc.issuedAt]
    exact hlt
  | routedExpecting he hd hop heq hset =>
    rename_i e target bytes cdb d
    have hbusy : busyBus d.dma.busCtrl = true := hd.works.busy
    have hcell : s'.cell = 0x0C := by
      show s'.bridge.card.cache.status = _
      rw [heq]
      show dataOutRequest d.dma.busCtrl &&& statusMask = _
      rw [dataOutRequest_busy _ hbusy]
      decide
    refine ⟨hst.taken he hfifo (by rw [heq]; exact hd.resetAt) fun _ _ _ => Stage.noConfusion,
      hv.shows_worker hhost (calm_of_cell hcell (by decide)) (hv.not_offered he) hset.stage, ?_⟩
    rw [heq]
    refine effects_snoc ?_ Bool.noConfusion
    rw [hd.log]
    exact hv.effects
  | moved hq hreset hc =>
    rename_i target cdb τ
    have hworks : s.bridge.card.history.issuedAt = τ := hv.tracks.worker.issued
    have hn : ∀ τ b, h ≠ .status τ b := by
      rintro τ' b rfl
      cases hv.tracks.queue.status.2
    have hcalm := hc.calm (hv.tracks.worker.busy_bus trivial) (hv.calm fun ⟨τ, b, hh⟩ => hn τ b hh)
    exact ⟨hst.boundary hq hfifo hc.resetAt hc.requested fun _ _ _ _ => rfl,
      hv.shows_worker hhost hcalm hn (.inl rfl),
      hc.effects (hworks.symm ▸ hv.young hreset) hv.effects⟩
  | abandoned hq hreset heq hset =>
    have hn : ∀ τ b, h ≠ .status τ b := by
      rintro τ' b rfl
      cases hv.tracks.queue.status.2
    have hcalm : s'.bridge.card.Calm := by
      rw [heq]
      exact hv.calm fun ⟨τ, b, hh⟩ => hn τ b hh
    refine ⟨hst.boundary hq hfifo (by rw [heq]) (by rw [heq]) fun _ _ _ => Stage.noConfusion,
      hv.shows_worker hhost hcalm hn hset.stage, ?_⟩
    rw [heq]
    exact hv.effects
  | completed hq hreset hc heq hset =>
    rename_i target b cdb τ d
    have hyoung := hv.young hreset
    have hworks : s.bridge.card.history.issuedAt = τ := hv.tracks.worker.issued
    have hat : s'.bridge.card.history.resetAt = s.bridge.card.history.resetAt := by
      rw [heq]
      exact hc.resetAt
    have hstamped : Stamped s'.bridge (.status τ b) :=
      hst.boundary hq hfifo hat (by rw [heq]; exact hc.requested) fun _ _ _ => Stage.noConfusion
    have hlater := hst.later target cdb τ rfl
    rw [← hq] at hlater
    obtain ⟨rfl, rfl⟩ := hset.fresh hlater hstamped.resets (hat ▸ hyoung)
    have hbusy := hc.busy (hv.tracks.worker.busy_bus trivial)
    refine ⟨hstamped, hv.shows_status hhost (cell_status hbusy heq), ?_⟩
    rw [heq]
    refine effects_snoc (hc.effects (hworks.symm ▸ hyoung) hv.effects) fun _ => ?_
    show d.history.resetAt < d.history.issuedAt
    rw [hc.resetAt, hc.issuedAt, hworks]
    exact hyoung

theorem Timed.worker (reg : Registry Io σ) (hv : Timed s w h todo a) (htimely : s.bridge.Timely)
    {io : SectorIo Io} {b' : Bridge σ n} (hs : s.bridge.workerStep reg io = some b') :
    ∃ w' h' a', Timed { s with bridge := b' } w' h' todo a' := by
  have hzero : (⟨0, 0, 0, 0⟩ : DmaAddress).top = 0 := rfl
  obtain ⟨w', h', a', ht, hm⟩ := hv.tracks.worker_step reg hs hzero
  obtain ⟨hstamped, hshows, heffects⟩ := hv.worked htimely hm rfl (workerStep_counters reg hs).1
  exact ⟨w', h', a', ht, hstamped, hshows.sourced, hshows.calm, hshows.offered, hshows.polled, heffects⟩

theorem Timed.service (hv : Timed s w h todo a) (storage : Routing σ) :
    Timed { s with bridge := { s.bridge with card := { s.bridge.card with storage := storage } } }
      w h todo a := by
  obtain ⟨hat, hordered, hseen, hlater, hresets, hreq, hissued⟩ := hv.stamped
  exact ⟨hv.tracks.service storage, ⟨hat, hordered, hseen, hlater, hresets, hreq, hissued⟩, hv.sourced,
    hv.calm, hv.offered, hv.polled, hv.effects⟩

def InTime (s : System σ n) : Prop := ∃ w h todo a, Timed s w h todo a

theorem InTime.step (reg : Registry Io σ) (hv : InTime s) {label : Label Io σ} (hl : Prompt s label)
    (hs : s.step reg label = some s') : InTime s' := by
  obtain ⟨w, h, todo, a, hv⟩ := hv
  cases label with
  | host =>
    obtain ⟨h', todo', a', hv'⟩ := hv.host hl hs
    exact ⟨w, h', todo', a', hv'⟩
  | reset data cmds =>
    obtain ⟨h', todo', a', hv'⟩ := hv.reset hl hs
    exact ⟨w, h', todo', a', hv'⟩
  | skip => exact ⟨w, h, todo, a, hv.skip hs⟩
  | worker io =>
    obtain ⟨b', hb, rfl⟩ := Option.map_eq_some_iff.mp hs
    obtain ⟨w', h', a', hv'⟩ := hv.worker reg hl hb
    exact ⟨w', h', todo, a', hv'⟩
  | service storage =>
    obtain ⟨b', hb, rfl⟩ := Option.map_eq_some_iff.mp hs
    unfold Bridge.service at hb
    split at hb
    · cases hb
      exact ⟨w, h, todo, a, hv.service storage⟩
    · cases hb

end Steps

end PicoV9k.Sasi
