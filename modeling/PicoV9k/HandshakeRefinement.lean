import PicoV9k.HandshakeLedger

/-!
# The command service refines a synchronous target

Every step of host and worker keeps the ledger, so every run without RESET routes
the commands of the host one by one and answers each with its own status byte.
-/
namespace PicoV9k.Sasi
open PicoV9k.Bus PicoV9k.Storage PicoV9k.Mgmt PicoV9k.Runs

variable {Io σ : Type} {n : ℕ}

section Steps

variable {cmds issued todo : List BootStep} {s s' : System σ n} {w h : Stage} {a : DmaAddress}

theorem Serviced.host (hv : Serviced cmds s w h issued todo a) (hs : s.hostStep = some s') :
    ∃ h' issued' todo' a', Serviced cmds s' w h' issued' todo' a' := by
  have hsight (value phase : Byte) (rest : List Access) (hval : s.host.outstanding = some value)
      (hscript : s.host.script = .await phase :: rest) (hseen : value &&& statusMask = phaseStatus) :
      ¬ h.Busy := by
    rcases hv.glimpsed.poll value phase rest hval hscript with ⟨_, hb⟩ | ⟨hne, _⟩
    · exact hb
    · exact absurd hseen hne
  obtain ⟨h', todo', a', ht, hk, hm⟩ := hv.tracks.host hv.room hs hsight
  obtain ⟨issued', hserved⟩ := hv.served hk hm
  obtain ⟨hbudget, hpaced⟩ := hv.budget_host hk hs
  have hnoReset : ∀ e ∈ s'.bridge.queue, ¬ e.IsReset := by
    rcases hk.queue with ⟨hq, _⟩ | ⟨e, _, hq, _, hne, _⟩
    · rw [hq]
      exact hv.noReset
    · rw [hq]
      intro x hx
      rcases List.mem_append.mp hx with hx | hx
      · exact hv.noReset x hx
      · rw [List.mem_singleton.mp hx]
        exact hne
  exact ⟨h', issued', todo', a', ht, hserved.commands, hnoReset,
    hk.requested.trans hv.unrequested, hk.drops.trans hv.drops, hpaced, hbudget,
    hk.top.trans hv.top, fun hb => hk.address (hv.address hb), hserved.synced, hserved.cell,
    fun hw => hserved.issued (hw ▸ trivial) ▸ hv.expecting hw, hserved.glimpsed, hserved.ledger⟩

/-- What no worker step disturbs: the queue only shrinks, no RESET is announced and the
address stays a 20-bit one. -/
structure WorkerKept (s s' : System σ n) : Prop where
  queue : s'.bridge.queue = s.bridge.queue ∨ ∃ e, s.bridge.queue = e :: s'.bridge.queue
  requested : s.bridge.card.dma.resetRequested = false →
    s'.bridge.card.dma.resetRequested = false
  top : s.bridge.card.dma.dmaAddress.top = 0 → s'.bridge.card.dma.dmaAddress.top = 0

lemma WorkerMoved.kept {a₁ a' : DmaAddress} {w' h' : Stage}
    (hm : WorkerMoved s s' a₁ w h a w' h' a') : WorkerKept s s' := by
  cases hm with
  | quiet he _ hk _ =>
    exact ⟨.inr ⟨_, he⟩, fun hr => hk.requested.trans hr, fun ht => by rw [hk.address]; exact ht⟩
  | reset he _ hc =>
    exact ⟨.inr ⟨_, he⟩, fun _ => by rw [hc]; rfl, fun ht => by rw [hc]; exact ht⟩
  | routedMoving he hd _ hc =>
    refine ⟨.inr ⟨_, he⟩, fun hr => hc.requested.trans (hd.requested.trans hr), fun ht => hc.top ?_⟩
    exact hd.address ▸ ht
  | routedCompleted he hd _ hc heq _ =>
    refine ⟨.inr ⟨_, he⟩, fun hr => ?_, fun ht => ?_⟩
    · rw [heq]
      exact hc.requested.trans (hd.requested.trans hr)
    · rw [heq]
      exact hc.top (hd.address ▸ ht)
  | routedExpecting he hd _ heq _ =>
    refine ⟨.inr ⟨_, he⟩, fun hr => ?_, fun ht => ?_⟩
    · rw [heq]
      exact hd.requested.trans hr
    · rw [heq]
      exact hd.address ▸ ht
  | moved hq _ hc => exact ⟨.inl hq, fun hr => hc.requested.trans hr, hc.top⟩
  | abandoned hq _ heq _ => exact ⟨.inl hq, fun hr => by rw [heq]; exact hr, fun ht => by rw [heq]; exact ht⟩
  | completed hq _ hc heq _ =>
    exact ⟨.inl hq, fun hr => by rw [heq]; exact hc.requested.trans hr,
      fun ht => by rw [heq]; exact hc.top ht⟩

/-- The worker has what the host programmed when it takes the last byte of a CDB. -/
lemma Waiting.routed {target : Byte} {cdb : List Byte} {es : List Execution}
    {xs : List Exchange} (hl : Waiting h target cdb a issued es xs) :
    Underway h issued (⟨target, a.full, cdb, []⟩ :: es) xs [] [] := by
  obtain ⟨cmd, issued', x, xs', hi, hxs, hcmd, hc, hr⟩ := hl
  exact ⟨cmd, issued', _, es, x, xs', hi, rfl, hxs, ⟨hcmd.target, hcmd.cdb, hcmd.address⟩, rfl, hc, hr⟩

/-- A command that is executing enters its status phase. -/
lemma Underway.completed {τ : ℕ} {target b : Byte} {cdb : List Byte} {es : List Execution}
    {xs : List Exchange} (hl : Underway (.executing target cdb τ) issued es xs [] []) :
    Underway (.status τ b) issued (recordEffect es (.status b)) xs [b] [] := by
  obtain ⟨cmd, issued', e, es', x, xs', hi, rfl, hxs, hserve, hb, hc, hr⟩ := hl
  refine ⟨cmd, issued', _, es', x, xs', hi, rfl, hxs, ⟨hserve.target, hserve.cdb, hserve.address⟩, ?_,
    ⟨hc.written, hc.datas, ?_⟩, hr⟩
  · exact congrArg (· ++ [b]) hb
  · exact ⟨x.statuses, 0, hc.statuses, (shown_before _).symm⟩

lemma Underway.stranded {τ : ℕ} {target : Byte} {cdb : List Byte} {es : List Execution}
    {xs : List Exchange} (hl : Underway (.executing target cdb τ) issued es xs [] []) :
    Underway .stranded issued es xs [] [] := by
  obtain ⟨cmd, issued', e, es', x, xs', hi, he, hxs, hserve, hb, hc, hr⟩ := hl
  exact ⟨cmd, issued', e, es', x, xs', hi, he, hxs, hserve, hb, ⟨hc.written, hc.datas, hc.statuses⟩, hr⟩

/-- A stage that shows the command phase leaves it only for RESET. -/
lemma Stage.Step.phase_command {w w' : Stage} {e : Entry} (hs : Step w e w')
    (hw : w.phase = phaseCommand) (he : ¬ e.IsReset) : w'.phase = phaseCommand := by
  cases hs with
  | reset w seenAt hr _ => exact absurd ⟨_, rfl, hr⟩ he
  | byte target data seenAt _ => rfl
  | lastByte target data seenAt _ => rfl
  | release target seenAt _ _ => rfl
  | _ => exact absurd hw (by simp [Stage.phase])

lemma Stage.Steps.phase_command {w h : Stage} {q : List Entry} (hq : Steps w q h)
    (hw : w.phase = phaseCommand) (hn : ∀ e ∈ q, ¬ e.IsReset) : h.phase = phaseCommand := by
  induction hq with
  | nil w => exact hw
  | cons hs _ ih =>
    exact ih (hs.phase_command hw (hn _ List.mem_cons_self)) fun e he =>
      hn e (List.mem_cons_of_mem _ he)

/-- A command that ends while the host waits for it changes nothing about a poll in progress. -/
lemma Serviced.glimpsed_settled (hv : Serviced cmds s w h issued todo a) (hh : h.Busy) {h' : Stage}
    (hh' : h'.Busy ∨ ∃ τ b, h' = .status τ b) : Glimpsed s.host h' := by
  constructor
  · intro v phase rest hval hscript
    rcases hv.glimpsed.poll v phase rest hval hscript with ⟨_, hb⟩ | ⟨hne, _⟩
    · exact absurd hh hb
    · exact .inr ⟨hne, hh'.imp id fun hx => ⟨hx, hv.sighted_running hh⟩⟩
  · intro v rest _ hscript
    obtain ⟨_, hwait, _⟩ := hv.tracks.script.of_busy hh
    cases hscript.symm.trans hwait

/-- Without RESET a settled track has met the worker. -/
lemma Settled.met {q : List Entry} {v v' h' : Stage} {a₁ a' : DmaAddress}
    (hset : Settled q v v' h h' a a₁ a') (hn : ∀ e ∈ q, ¬ e.IsReset) :
    q = [] ∧ h = v ∧ h' = v' ∧ a' = a₁ := by
  rcases hset with hmet | ⟨⟨e, rest, hq, hr⟩, _⟩
  · exact hmet
  · exact absurd hr (hn e (hq ▸ List.mem_cons_self))

/-- Whether the worker executes matters only while the far end does. -/
lemma Ledger.congr {busy busy' : Prop} {es : List Execution} {xs : List Exchange}
    (hb : busy ↔ busy') (hl : Ledger busy h a issued es xs) : Ledger busy' h a issued es xs := by
  rwa [propext hb] at hl

lemma Ready.executions {c d c' : Card σ} {target : Byte} {cdb : List Byte} {e : Entry}
    (hd : Ready c d target cdb e) (hc : Executed (d.recordRouted cdb) c') :
    executions c'.history.log =
      ⟨target, c.dma.dmaAddress.full, cdb, []⟩ :: executions c.history.log := by
  have htarget : d.dma.selectedTarget = target := hd.works.target
  rw [hc.executions, recordRouted_executions, htarget, hd.address, hd.log]

/-- What a worker step does to the ledger, the polled cell and the read in progress. -/
structure WorkerServed (s' : System σ n) (w' h' : Stage) (issued : List BootStep) (a' : DmaAddress) :
    Prop where
  address : ¬ w'.Busy → s'.bridge.card.dma.dmaAddress = a'
  synced : w'.Busy → s'.bridge.card.Synced
  cell : ¬ w'.Busy → s'.cell = h'.phase
  expecting : w' = .stranded → ∃ cmd ∈ issued.head?, cmd.SetsParameters
  glimpsed : Glimpsed s'.host h'
  ledger : Ledger w'.Busy h' a' issued (executions s'.bridge.card.history.log) s'.host.exchanges

/-- The worker takes the last byte of the command the host waits for. -/
lemma Serviced.underway {target : Byte} {bytes cdb : List Byte} {e : Entry} {c d : Card σ}
    (hv : Serviced cmds s (.command target bytes) (.executing target cdb e.seenAt) issued todo a)
    (hd : Ready s.bridge.card d target cdb e) (hc : Executed (d.recordRouted cdb) c) :
    Underway (.executing target cdb e.seenAt) issued (executions c.history.log) s.host.exchanges
      [] [] := by
  have hwait := (hv.ledger.1 id).routed
  rw [hd.executions hc, hv.address id]
  exact hwait

lemma Serviced.worked (hv : Serviced cmds s w h issued todo a) {w' h' : Stage} {a' : DmaAddress}
    (hm : WorkerMoved s s' s'.bridge.card.dma.dmaAddress w h a w' h' a')
    (hq : w'.Steps s'.bridge.queue h') (hhost : s'.host = s.host)
    (hn : ∀ e ∈ s'.bridge.queue, ¬ e.IsReset) : WorkerServed s' w' h' issued a' := by
  cases hm with
  | quiet he hw hk hcells =>
    have hb : ¬ w.Busy := fun hb => by
      have hnil := (hv.busy hb).1
      rw [he] at hnil
      cases hnil
    have hcell : s'.cell = h.phase := by
      rcases hcells with hc | ⟨hc, _, _, rfl⟩
      · exact hc.trans (hv.cell hb)
      · exact hc.trans (hq.phase_command rfl hn).symm
    refine ⟨fun _ => hk.address.trans (hv.address hb), fun hb' => absurd hb' hw, fun _ => hcell,
      fun hst => absurd (hst ▸ trivial) hw, hhost ▸ hv.glimpsed, ?_⟩
    rw [hk.history, hhost]
    exact hv.ledger.congr ⟨fun hb' => absurd hb' hb, fun hb' => absurd hb' hw⟩
  | reset he hr hc => exact absurd hr (hv.noReset _ (he ▸ List.mem_cons_self))
  | routedMoving he hd hop hc _ =>
    rcases hq.of_busy trivial with ⟨_, rfl⟩ | ⟨⟨e, rest, hq, hr⟩, _⟩
    · refine ⟨fun hb => absurd trivial hb, fun _ => hc.synced hd.synced, fun hb => absurd trivial hb,
        Stage.noConfusion, hhost ▸ hv.glimpsed, fun hb => absurd trivial hb, fun _ => ?_⟩
      rw [hhost]
      exact hv.underway hd hc
    · exact absurd hr (hn e (hq ▸ List.mem_cons_self))
  | routedCompleted he hd hop hc heq hset =>
    rename_i target b bytes cdb d d'
    obtain ⟨_, rfl, rfl, rfl⟩ := hset.met hn
    refine ⟨fun _ => rfl, fun hb => hb.elim, fun _ => cell_status (hc.busy hd.works.busy) heq,
      Stage.noConfusion, hhost ▸ hv.glimpsed_settled trivial (.inr ⟨_, _, rfl⟩), ?_⟩
    have hunder := (hv.underway hd hc).completed (b := b)
    rw [← enterStatus_executions] at hunder
    rw [hhost, heq]
    exact hunder
  | routedExpecting he hd hop heq hset =>
    obtain ⟨_, rfl, rfl, rfl⟩ := hset.met hn
    have hunder := hv.underway hd (.refl _)
    refine ⟨fun hb => absurd trivial hb, fun _ => by rw [heq]; rfl, fun hb => absurd trivial hb,
      fun _ => ?_, hhost ▸ hv.glimpsed_settled trivial (.inl trivial), ?_⟩
    · obtain ⟨cmd, issued', e, es', _, _, rfl, he, _, hserve, _⟩ := hunder
      have hcdb : cmd.cdb = _ := hserve.cdb.symm.trans
        (congrArg Execution.cdb (List.cons.inj (he.symm.trans (hd.executions (.refl _)))).1)
      exact ⟨cmd, rfl, (congrArg (fun l => Opcode.ofByte (cdbByte l 0)) hcdb).trans hop⟩
    · rw [hhost, heq]
      exact hunder.stranded
  | moved hq' hreset hc =>
    refine ⟨fun hb => absurd trivial hb, fun _ => hc.synced (hv.synced trivial),
      fun hb => absurd trivial hb, Stage.noConfusion, hhost ▸ hv.glimpsed, ?_⟩
    rw [hc.executions, hhost]
    exact hv.ledger
  | abandoned hq' hreset heq hset =>
    rw [hv.unrequested] at hreset
    cases hreset
  | completed hq' hreset hc heq hset =>
    rename_i target b cdb τ d
    obtain ⟨_, rfl, rfl, rfl⟩ := hset.met hn
    have hbusy := hc.busy (hv.tracks.worker.busy_bus trivial)
    refine ⟨fun _ => rfl, fun hb => hb.elim, fun _ => cell_status hbusy heq, Stage.noConfusion,
      hhost ▸ hv.glimpsed_settled trivial (.inr ⟨_, _, rfl⟩), ?_⟩
    have hunder := (hv.ledger.2 trivial).completed (b := b)
    rw [← hc.executions, ← enterStatus_executions] at hunder
    rw [hhost, heq]
    exact hunder

theorem Serviced.worker (reg : Registry Io σ) (hv : Serviced cmds s w h issued todo a)
    {io : SectorIo Io} {b' : Bridge σ n} (hs : s.bridge.workerStep reg io = some b') :
    ∃ w' h' a', Serviced cmds { s with bridge := b' } w' h' issued todo a' := by
  have hdrops := (workerStep_counters reg hs).2
  have htop : b'.card.dma.dmaAddress.top = 0 := by
    have hzero : (⟨0, 0, 0, 0⟩ : DmaAddress).top = 0 := rfl
    obtain ⟨_, _, _, _, hm⟩ := hv.tracks.worker_step reg hs hzero
    exact hm.kept.top hv.top
  obtain ⟨w', h', a', ht, hm⟩ := hv.tracks.worker_step reg hs htop
  have hqueue := hm.kept.queue
  have hn : ∀ e ∈ b'.queue, ¬ e.IsReset := by
    rcases hqueue with hq | ⟨e, hq⟩
    · exact fun x hx => hv.noReset x (hq ▸ hx)
    · exact fun x hx => hv.noReset x (hq ▸ List.mem_cons_of_mem _ hx)
  have hlen : b'.queue.length ≤ s.bridge.queue.length := by
    rcases hqueue with hq | ⟨e, hq⟩
    · exact (congrArg List.length hq).le
    · rw [hq]
      exact Nat.le_succ _
  have hserved := hv.worked hm ht.queue rfl hn
  exact ⟨w', h', a', ht, hv.commands, hn, hm.kept.requested hv.unrequested, hdrops.trans hv.drops,
    hv.paced, (Nat.add_le_add_right hlen _).trans hv.budget, htop, hserved.address, hserved.synced,
    hserved.cell, hserved.expecting, hserved.glimpsed, hserved.ledger⟩

theorem Serviced.service (hv : Serviced cmds s w h issued todo a) (storage : Routing σ) :
    Serviced cmds
      { s with bridge := { s.bridge with card := { s.bridge.card with storage := storage } } }
      w h issued todo a :=
  ⟨hv.tracks.service storage, hv.commands, hv.noReset, hv.unrequested, hv.drops, hv.paced, hv.budget,
    hv.top, hv.address, hv.synced, hv.cell, hv.expecting, hv.glimpsed, hv.ledger⟩

/-- The host follows the handshake, and the worker and the console take their steps. -/
def Label.Plain : Label Io σ → Prop
  | .host | .worker _ | .service _ => True
  | .reset .. | .skip => False

instance : DecidablePred (Label.Plain : Label Io σ → Prop)
  | .host | .worker _ | .service _ => isTrue trivial
  | .reset .. | .skip => isFalse id

/-- At some stage of some command the invariant holds. -/
def InService (cmds : List BootStep) (s : System σ n) : Prop :=
  ∃ w h issued todo a, Serviced cmds s w h issued todo a

theorem InService.step (reg : Registry Io σ) (hv : InService cmds s) {label : Label Io σ}
    (hl : label.Plain) (hs : s.step reg label = some s') : InService cmds s' := by
  obtain ⟨w, h, issued, todo, a, hv⟩ := hv
  cases label with
  | host =>
    obtain ⟨h', issued', todo', a', hv'⟩ := hv.host hs
    exact ⟨w, h', issued', todo', a', hv'⟩
  | worker io =>
    obtain ⟨b', hb, rfl⟩ := Option.map_eq_some_iff.mp hs
    obtain ⟨w', h', a', hv'⟩ := hv.worker reg hb
    exact ⟨w', h', issued, todo, a', hv'⟩
  | service storage =>
    obtain ⟨b', hb, rfl⟩ := Option.map_eq_some_iff.mp hs
    unfold Bridge.service at hb
    split at hb
    · cases hb
      exact ⟨w, h, issued, todo, a, hv.service storage⟩
    · cases hb
  | reset data cmds => exact hl.elim
  | skip => exact hl.elim

/-- Once everything is drained the worker holds the stage of the host. -/
lemma Serviced.drained (hv : Serviced cmds s w h issued todo a) (hq : s.bridge.queue = []) :
    w = h := by
  have hsteps := hv.tracks.queue
  rw [hq] at hsteps
  cases hsteps
  rfl

end Steps

end PicoV9k.Sasi
