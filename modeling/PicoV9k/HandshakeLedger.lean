import PicoV9k.HandshakeTrack

/-!
# The command service without RESET

For a host that follows the boot handshake and never writes RESET, whatever the lag
of the worker: each command is routed once, in order, with its own bytes, target and
address, and the host reads the status byte of that execution. The invariant reads
the ledger of exchanges and executions off the stage the host has brought about.
-/
namespace PicoV9k.Sasi
open PicoV9k.Bus PicoV9k.Storage PicoV9k.Mgmt PicoV9k.Runs

variable {Io σ : Type} {n : ℕ}

/-- The most entries that lie between two waits for the status phase. -/
def entryBudget : ℕ := 15

/-- Entries the script puts in the queue before it waits for the status phase. -/
def budget : List Access → ℕ
  | [] => 0
  | x :: rest => if x = .await phaseStatus then 0 else (if x.queues then 1 else 0) + budget rest

/-- After every wait for the status phase the script stays within the budget. -/
def Paced : List Access → Prop
  | [] => True
  | x :: rest => (x = .await phaseStatus → budget rest ≤ entryBudget) ∧ Paced rest

lemma budget_cons {x : Access} {rest : List Access} (h : x ≠ .await phaseStatus) :
    budget (x :: rest) = (if x.queues then 1 else 0) + budget rest := if_neg h

lemma Paced.append {xs : List Access} (h : Access.await phaseStatus ∉ xs) {rest : List Access}
    (hr : Paced rest) : Paced (xs ++ rest) := by
  induction xs with
  | nil => exact hr
  | cons x xs ih =>
    rw [List.mem_cons, not_or] at h
    exact ⟨fun hx => absurd hx.symm h.1, ih h.2⟩

/-- A call of `route_to_sasi_target` and the status bytes its execution has set. -/
structure Execution where
  target : Byte
  address : ℕ
  cdb : List Byte
  statuses : List Byte
  deriving DecidableEq, Repr

/-- The latest execution is first. -/
def recordEffect (xs : List Execution) : Effect → List Execution
  | .routed target address cdb => ⟨target, address, cdb, []⟩ :: xs
  | .sector _ => xs
  | .status b =>
    match xs with
    | [] => []
    | x :: xs => { x with statuses := x.statuses ++ [b] } :: xs

def executions (log : List LogEntry) : List Execution :=
  log.foldl (fun xs e => recordEffect xs e.effect) []

lemma executions_snoc (log : List LogEntry) (e : LogEntry) :
    executions (log ++ [e]) = recordEffect (executions log) e.effect := List.foldl_concat ..

lemma executions_sectors (log : List LogEntry) (lbas : List ℕ) (τ ρ : ℕ) :
    executions (log ++ lbas.map fun lba => ⟨τ, ρ, .sector lba⟩) = executions log := by
  induction lbas using List.reverseRecOn with
  | nil => rw [List.map_nil, List.append_nil]
  | append_singleton lbas lba ih =>
    rw [List.map_append, ← List.append_assoc, List.map_singleton, executions_snoc]
    exact ih

lemma Executed.executions {c d : Card σ} (h : Executed c d) :
    executions d.history.log = executions c.history.log := by
  obtain ⟨lbas, hlog⟩ := h.log
  rw [hlog, executions_sectors]

lemma recordRouted_executions (c : Card σ) (cdb : List Byte) :
    executions (c.recordRouted cdb).history.log =
      ⟨c.dma.selectedTarget, c.dma.dmaAddress.full, cdb, []⟩ :: executions c.history.log :=
  executions_snoc _ _

lemma enterStatus_executions (c : Card σ) (b : Byte) :
    executions (sasiEnterStatusPhase c b).history.log =
      recordEffect (executions c.history.log) (.status b) := executions_snoc _ _

/-- STATUS values of one command: nothing like the status phase, then the status phase, the
message phase and bus free. -/
def shown (before : List Byte) (i j k : ℕ) : List Byte :=
  before ++ List.replicate i phaseStatus ++ List.replicate j phaseMessage ++
    List.replicate k phaseIdle

/-- Once the status phase was seen there is only it, then the message phase, then bus free. -/
def Orderly (statuses : List Byte) : Prop :=
  ∃ before i j k, phaseStatus ∉ before ∧ statuses = shown before i j k

/-- What the host may have seen of a command whose stage is `h`. -/
def Sighted (h : Stage) (statuses : List Byte) : Prop :=
  match h with
  | .free _ => Orderly statuses
  | .message _ => ∃ before i j, phaseStatus ∉ before ∧ statuses = shown before i j 0
  | .status .. => ∃ before i, phaseStatus ∉ before ∧ statuses = shown before i 0 0
  | _ => phaseStatus ∉ statuses

lemma shown_before (before : List Byte) : shown before 0 0 0 = before := by simp [shown]

lemma Sighted.orderly {h : Stage} {l : List Byte} (hs : Sighted h l) : Orderly l := by
  have hnone (hn : phaseStatus ∉ l) : Orderly l := ⟨l, 0, 0, 0, hn, (shown_before l).symm⟩
  cases h with
  | free last => exact hs
  | message v =>
    obtain ⟨before, i, j, hb, heq⟩ := hs
    exact ⟨before, i, j, 0, hb, heq⟩
  | status τ v =>
    obtain ⟨before, i, hb, heq⟩ := hs
    exact ⟨before, i, 0, 0, hb, heq⟩
  | _ => exact hnone hs

/-- Another poll that shows the phase of the stage. -/
lemma Sighted.poll {h : Stage} {l : List Byte} (hs : Sighted h l) (hb : ¬ h.Busy) :
    Sighted h (l ++ [h.phase]) := by
  cases h with
  | free last =>
    obtain ⟨before, i, j, k, hb, rfl⟩ := hs
    exact ⟨before, i, j, k + 1, hb, by simp [shown, Stage.phase, List.replicate_succ']⟩
  | message v =>
    obtain ⟨before, i, j, hb, rfl⟩ := hs
    exact ⟨before, i, j + 1, hb, by simp [shown, Stage.phase, List.replicate_succ']⟩
  | status τ v =>
    obtain ⟨before, i, hb, rfl⟩ := hs
    exact ⟨before, i + 1, hb, by simp [shown, Stage.phase, List.replicate_succ']⟩
  | selected t => exact fun hm => (List.mem_append.mp hm).elim hs (by simp [Stage.phase])
  | command t bs => exact fun hm => (List.mem_append.mp hm).elim hs (by simp [Stage.phase])
  | executing t cdb τ => exact absurd trivial hb
  | stranded => exact absurd trivial hb

/-- A poll that does not show the status phase, before it was seen. -/
lemma Sighted.other {h : Stage} {l : List Byte} {v : Byte} (hl : phaseStatus ∉ l)
    (hv : v ≠ phaseStatus) (hh : h.Busy ∨ ∃ τ b, h = .status τ b) : Sighted h (l ++ [v]) := by
  have hnot : phaseStatus ∉ l ++ [v] := by
    rw [List.mem_append, List.mem_singleton, not_or]
    exact ⟨hl, hv.symm⟩
  rcases hh with hb | ⟨τ, b, rfl⟩
  · cases h <;> first | exact hnot | exact hb.elim
  · exact ⟨_, 0, hnot, (shown_before _).symm⟩

/-- The execution is that of the command. -/
structure Serves (cmd : BootStep) (e : Execution) : Prop where
  target : e.target = sasiExtractTargetId cmd.selection
  cdb : e.cdb = cmd.cdb
  address : cmd.mode ≠ .none → e.address = cmd.dmaAddr.toNat

/-- The host has read the status byte of the execution and then the message byte. -/
structure Answered (e : Execution) (x : Exchange) : Prop where
  written : x.written = e.cdb
  datas : ∃ b, e.statuses = [b] ∧ x.datas = [b, 0x00]
  statuses : Orderly x.statuses

/-- Commands, executions and exchanges, latest first, agree row by row. -/
structure Rows (issued : List BootStep) (es : List Execution) (xs : List Exchange) : Prop where
  serves : List.Forall₂ Serves issued es
  answered : List.Forall₂ Answered es xs

/-- The latest exchange, with what the host has written and read so far. -/
structure Current (h : Stage) (x : Exchange) (written datas : List Byte) : Prop where
  written : x.written = written
  datas : x.datas = datas
  statuses : Sighted h x.statuses

/-- The latest command was routed and has set the status bytes `bs`, of which the host read `ds`. -/
def Underway (h : Stage) (issued : List BootStep) (es : List Execution) (xs : List Exchange)
    (bs ds : List Byte) : Prop :=
  ∃ cmd issued' e es' x xs', issued = cmd :: issued' ∧ es = e :: es' ∧ xs = x :: xs' ∧
    Serves cmd e ∧ e.statuses = bs ∧ Current h x e.cdb ds ∧ Rows issued' es' xs'

/-- The latest command is in the queue as a whole; its last byte is still to be taken. -/
def Waiting (h : Stage) (target : Byte) (cdb : List Byte) (a : DmaAddress) (issued : List BootStep)
    (es : List Execution) (xs : List Exchange) : Prop :=
  ∃ cmd issued' x xs', issued = cmd :: issued' ∧ xs = x :: xs' ∧ cmd.Issued target cdb a ∧
    Current h x cdb [] ∧ Rows issued' es xs'

/-- The ledger at stage `h`; `busy` when the worker is executing. -/
def Ledger (busy : Prop) (h : Stage) (a : DmaAddress) (issued : List BootStep)
    (es : List Execution) (xs : List Exchange) : Prop :=
  match h with
  | .free _ => Rows issued es xs
  | .selected _ => ∃ x xs', xs = x :: xs' ∧ Current h x [] [] ∧ Rows issued es xs'
  | .command _ bytes => ∃ x xs', xs = x :: xs' ∧ Current h x bytes [] ∧ Rows issued es xs'
  | .executing target cdb _ => (¬ busy → Waiting h target cdb a issued es xs) ∧
      (busy → Underway h issued es xs [] [])
  | .stranded => Underway h issued es xs [] []
  | .status _ b => Underway h issued es xs [b] []
  | .message b => Underway h issued es xs [b] [b]

/-- SET DRIVE PARAMS, the command that may ask for a data-out list. -/
def BootStep.SetsParameters (cmd : BootStep) : Prop := Opcode.ofByte (cdbByte cmd.cdb 0) = .driveParams

/-- What a read in progress has been given. -/
structure Glimpsed (host : Host) (h : Stage) : Prop where
  poll : ∀ v phase rest, host.outstanding = some v → host.script = .await phase :: rest →
    (v &&& statusMask = h.phase ∧ ¬ h.Busy) ∨ (v &&& statusMask ≠ phaseStatus ∧
      (h.Busy ∨ ((∃ τ b, h = .status τ b) ∧
        ∀ x xs, host.exchanges = x :: xs → phaseStatus ∉ x.statuses)))
  data : ∀ v rest, host.outstanding = some v → host.script = .readData :: rest →
    (∀ τ b, h = .status τ b → v = b) ∧ ∀ b, h = .message b → v = 0x00

/-- The invariant of host, queue and worker. -/
structure Serviced (cmds : List BootStep) (s : System σ n) (w h : Stage) (issued todo : List BootStep)
    (a : DmaAddress) : Prop where
  tracks : Tracks s w h todo a
  commands : cmds = issued.reverse ++ todo
  noReset : ∀ e ∈ s.bridge.queue, ¬ e.IsReset
  unrequested : s.bridge.card.dma.resetRequested = false
  drops : s.bridge.drops = 0
  paced : Paced s.host.script
  budget : s.bridge.queue.length + budget s.host.script ≤ entryBudget
  top : s.bridge.card.dma.dmaAddress.top = 0
  address : ¬ w.Busy → s.bridge.card.dma.dmaAddress = a
  synced : w.Busy → s.bridge.card.Synced
  cell : ¬ w.Busy → s.cell = h.phase
  expecting : w = .stranded → ∃ cmd ∈ issued.head?, cmd.SetsParameters
  glimpsed : Glimpsed s.host h
  ledger : Ledger w.Busy h a issued (executions s.bridge.card.history.log) s.host.exchanges

section Ledger

variable {issued : List BootStep} {es : List Execution} {xs : List Exchange} {h : Stage}
  {a : DmaAddress} {busy : Prop}

lemma Current.amend {f : Exchange → Exchange} {x : Exchange} {written datas : List Byte}
    (hc : Current h x written datas) (hw : (f x).written = x.written) (hd : (f x).datas = x.datas)
    (hs : Sighted h x.statuses → Sighted h (f x).statuses) : Current h (f x) written datas :=
  ⟨hw.trans hc.written, hd.trans hc.datas, hs hc.statuses⟩

/-- Polling and fetching change nothing in the ledger but the values seen. -/
lemma Ledger.amend {f : Exchange → Exchange} (hl : Ledger busy h a issued es xs)
    (hw : ∀ x, (f x).written = x.written) (hd : ∀ x, (f x).datas = x.datas)
    (hs : ∀ x rest, xs = x :: rest → Sighted h x.statuses → Sighted h (f x).statuses) :
    Ledger busy h a issued es (amendHead f xs) := by
  have hopen {written : List Byte} (hl : ∃ x xs', xs = x :: xs' ∧ Current h x written [] ∧
      Rows issued es xs') : ∃ x xs', amendHead f xs = x :: xs' ∧ Current h x written [] ∧
      Rows issued es xs' := by
    obtain ⟨x, xs', rfl, hc, hr⟩ := hl
    exact ⟨f x, xs', rfl, hc.amend (hw x) (hd x) (hs x xs' rfl), hr⟩
  have hunder {bs ds : List Byte} (hl : Underway h issued es xs bs ds) :
      Underway h issued es (amendHead f xs) bs ds := by
    obtain ⟨cmd, issued', e, es', x, xs', hi, he, rfl, hserve, hb, hc, hr⟩ := hl
    exact ⟨cmd, issued', e, es', f x, xs', hi, he, rfl, hserve, hb,
      hc.amend (hw x) (hd x) (hs x xs' rfl), hr⟩
  cases h with
  | free last =>
    cases xs with
    | nil => exact hl
    | cons x xs =>
      obtain ⟨hserves, hans⟩ := hl
      cases hans with | cons hx hrest =>
      refine ⟨hserves, .cons ⟨(hw x).trans hx.written, ?_, hs x xs rfl hx.statuses⟩ hrest⟩
      rw [hd x]
      exact hx.datas
  | selected t => exact hopen hl
  | command t bytes => exact hopen hl
  | executing t cdb τ =>
    refine ⟨fun hb => ?_, fun hb => hunder (hl.2 hb)⟩
    obtain ⟨cmd, issued', x, xs', hi, rfl, hcmd, hc, hr⟩ := hl.1 hb
    exact ⟨cmd, issued', f x, xs', hi, rfl, hcmd, hc.amend (hw x) (hd x) (hs x xs' rfl), hr⟩
  | stranded => exact hunder hl
  | status τ b => exact hunder hl
  | message b => exact hunder hl

/-- A poll records what the read in progress was given. -/
lemma Ledger.polled {host : Host} {v phase : Byte} {rest : List Access}
    (hl : Ledger busy h a issued es host.exchanges) (hg : Glimpsed host h)
    (hv : host.outstanding = some v) (hscript : host.script = .await phase :: rest) :
    Ledger busy h a issued es (amendHead (.saw (v &&& statusMask)) host.exchanges) := by
  refine hl.amend (fun _ => rfl) (fun _ => rfl) fun x xs hxs hs => ?_
  rcases hg.poll v phase rest hv hscript with ⟨hp, hb⟩ | ⟨hne, hcase⟩
  · rw [hp]
    exact hs.poll hb
  · refine Sighted.other ?_ hne (hcase.imp id fun hx => hx.1)
    rcases hcase with hb | ⟨_, hnone⟩
    · cases h <;> first | exact hs | exact hb.elim
    · exact hnone x xs hxs

/-- The status byte is read: what the host got is what the execution set. -/
lemma Ledger.statusRead {τ : ℕ} {b : Byte} (hl : Ledger busy (.status τ b) a issued es xs) :
    Ledger busy (.message b) a issued es (amendHead (.got b) xs) := by
  obtain ⟨cmd, issued', e, es', x, xs', hi, he, rfl, hserve, hb, hc, hr⟩ := hl
  refine ⟨cmd, issued', e, es', x.got b, xs', hi, he, rfl, hserve, hb, ⟨hc.written, ?_, ?_⟩, hr⟩
  · exact congrArg (· ++ [b]) hc.datas
  · obtain ⟨before, i, hbefore, heq⟩ := hc.statuses
    exact ⟨before, i, 0, hbefore, heq⟩

/-- The message byte closes the row of the command. -/
lemma Ledger.messageRead {b : Byte} (hl : Ledger busy (.message b) a issued es xs) :
    Ledger busy (.free none) a issued es (amendHead (.got 0x00) xs) := by
  obtain ⟨cmd, issued', e, es', x, xs', rfl, rfl, rfl, hserve, hb, hc, hr⟩ := hl
  refine ⟨.cons hserve hr.serves, .cons ⟨hc.written, ⟨b, hb, ?_⟩, hc.statuses.orderly⟩ hr.answered⟩
  exact congrArg (· ++ [0x00]) hc.datas

end Ledger

section Host

variable {cmds issued todo : List BootStep} {s s' : System σ n} {w h : Stage} {a : DmaAddress}

lemma Serviced.room (hv : Serviced cmds s w h issued todo a) : s.bridge.Room := by
  have hb := hv.budget
  show s.bridge.queue.length + 1 < 256
  have : entryBudget = 15 := rfl
  omega

/-- Without RESET the two ends of the track meet while the worker is busy. -/
lemma Serviced.busy (hv : Serviced cmds s w h issued todo a) (hb : w.Busy) :
    s.bridge.queue = [] ∧ h = w := by
  rcases hv.tracks.queue.of_busy hb with hdone | ⟨⟨e, rest, hq, hr⟩, _⟩
  · exact hdone
  · exact absurd hr (hv.noReset e (hq ▸ List.mem_cons_self))

lemma Stage.phase_status {h : Stage} (hp : h.phase = phaseStatus) : ∃ τ b, h = .status τ b := by
  cases h with
  | status τ b => exact ⟨τ, b, rfl⟩
  | _ => simp [Stage.phase] at hp

/-- The host passes its wait for the status phase only when nothing is queued. -/
lemma Serviced.passed (hv : Serviced cmds s w h issued todo a) (hs : s.hostStep = some s')
    {rest : List Access} (hscript : s.host.script = .await phaseStatus :: rest)
    (hrest : s'.host.script = rest) : s.bridge.queue = [] := by
  have hself : rest ≠ .await phaseStatus :: rest := (List.cons_ne_self _ _).symm
  unfold System.hostStep at hs
  rw [hscript] at hs
  cases hv' : s.host.outstanding with
  | none =>
    rw [hv'] at hs
    cases hs
    exact absurd (hrest.symm.trans hscript) hself
  | some v =>
    rw [hv'] at hs
    cases hs
    have hpop : (if v &&& statusMask = phaseStatus then rest else .await phaseStatus :: rest) = rest :=
      hrest
    have hseen : v &&& statusMask = phaseStatus := by
      by_contra hne
      rw [if_neg hne] at hpop
      exact hself hpop.symm
    rcases hv.glimpsed.poll v phaseStatus rest hv' hscript with ⟨hp, _⟩ | ⟨hne, _⟩
    · obtain ⟨τ, b, rfl⟩ := Stage.phase_status (hp.symm.trans hseen)
      exact hv.tracks.queue.status.1
    · exact absurd hseen hne

/-- A host access stays within the budget. -/
lemma Serviced.budget_host (hv : Serviced cmds s w h issued todo a) {a' : DmaAddress}
    (hk : HostKept s s' a a') (hs : s.hostStep = some s') :
    s'.bridge.queue.length + PicoV9k.Sasi.budget s'.host.script ≤ entryBudget ∧
      Paced s'.host.script := by
  have hb := hv.budget
  have hp := hv.paced
  rcases hk.queue with ⟨hq, hsame | ⟨x, hx, hxq⟩⟩ | ⟨e, x, hq, _, _, hx, hxq⟩
  · rw [hq, hsame]
    exact ⟨hb, hp⟩
  · rw [hx] at hp
    refine ⟨?_, hp.2⟩
    by_cases hwait : x = .await phaseStatus
    · have hnil := hv.passed hs (hwait ▸ hx) rfl
      rw [hq, hnil]
      have := hp.1 hwait
      simpa using this
    · rw [hx, budget_cons hwait, hxq] at hb
      rw [hq]
      simpa using hb
  · have hne : x ≠ .await phaseStatus := by
      rintro rfl
      cases hxq
    rw [hx] at hp
    rw [hx, budget_cons hne, hxq, if_pos rfl] at hb
    refine ⟨?_, hp.2⟩
    rw [hq, List.length_append, List.length_singleton]
    omega

lemma mask_idem : ∀ b : Byte, (b &&& statusMask) &&& statusMask = b &&& statusMask := by decide

/-- A poll about to be answered: the cell shows the stage, or a command still running. -/
lemma Serviced.glimpse_poll (hv : Serviced cmds s w h issued todo a) :
    (s.cell &&& statusMask = h.phase ∧ ¬ h.Busy) ∨ (s.cell &&& statusMask ≠ phaseStatus ∧ h.Busy) := by
  by_cases hb : w.Busy
  · obtain ⟨_, rfl⟩ := hv.busy hb
    have hbusy := hv.tracks.worker.busy_bus hb
    refine .inr ⟨?_, hb⟩
    show s.bridge.card.cache.status &&& statusMask ≠ phaseStatus
    rw [show s.bridge.card.cache.status = _ from hv.synced hb, mask_idem]
    intro heq
    have hcalm := busyBus_calm _ hbusy
    rw [show s.bridge.card.controller.busCtrl &&& statusMask = phaseStatus from heq] at hcalm
    exact hcalm (by decide)
  · rw [hv.cell hb, h.phase_masked]
    by_cases hh : h.Busy
    · refine .inr ⟨?_, hh⟩
      rw [Stage.phase_busy hh]
      decide
    · exact .inl ⟨rfl, hh⟩

/-- DATA about to be answered: the status byte of the execution, or the message byte. -/
lemma Serviced.glimpse_data (hv : Serviced cmds s w h issued todo a) :
    (∀ τ b, h = .status τ b → s.bridge.served .data = b) ∧
      ∀ b, h = .message b → s.bridge.served .data = 0x00 := by
  constructor
  · rintro τ b rfl
    obtain ⟨_, rfl⟩ := hv.tracks.queue.status
    have hcell : s.bridge.card.cache.status = phaseStatus := hv.cell id
    have hval := hv.tracks.worker.offered.1
    have hp : s.bridge.cachedPhase = sasiCtlBit ||| sasiInpBit := by
      unfold Bridge.cachedPhase
      rw [hcell]
      decide
    have hne : ¬ s.bridge.cachedPhase = phaseMask := by rw [hp]; decide
    exact (if_neg hne).trans ((if_pos hp).trans hval)
  · rintro b rfl
    have hb : ¬ w.Busy := fun hb => by
      obtain ⟨_, heq⟩ := hv.busy hb
      exact (heq ▸ hb : (Stage.message b).Busy)
    have hcell : s.bridge.card.cache.status = phaseMessage := hv.cell hb
    have hp : s.bridge.cachedPhase = phaseMask := by
      unfold Bridge.cachedPhase
      rw [hcell]
      decide
    exact if_pos hp

lemma Glimpsed.idle {host : Host} {h : Stage} (ho : host.outstanding = none) : Glimpsed host h := by
  have hnone (v : Byte) : host.outstanding ≠ some v := by
    rw [ho]
    exact (Option.some_ne_none v).symm
  exact ⟨fun v _ _ hv => absurd hv (hnone v), fun v _ hv => absurd hv (hnone v)⟩

/-- A poll has seen the stage as it is, or a command still running. -/
lemma Serviced.sighted_running (hv : Serviced cmds s w h issued todo a) (hh : h.Busy) :
    ∀ x xs, s.host.exchanges = x :: xs → phaseStatus ∉ x.statuses := by
  have hl := hv.ledger
  have hcurrent {written datas : List Byte} {x : Exchange} (hc : Current h x written datas) :
      phaseStatus ∉ x.statuses := by
    have hs := hc.statuses
    cases h <;> first | exact hs | exact hh.elim
  have hunder {bs ds : List Byte} (hu : Underway h issued (executions s.bridge.card.history.log)
      s.host.exchanges bs ds) : ∀ x xs, s.host.exchanges = x :: xs → phaseStatus ∉ x.statuses := by
    obtain ⟨_, _, _, _, y, ys, _, _, hxs, _, _, hc, _⟩ := hu
    intro x xs heq
    cases hxs.symm.trans heq
    exact hcurrent hc
  cases h with
  | executing t cdb τ =>
    by_cases hb : w.Busy
    · exact hunder (hl.2 hb)
    · obtain ⟨_, _, y, ys, _, hxs, _, hc, _⟩ := hl.1 hb
      intro x xs heq
      cases hxs.symm.trans heq
      exact hcurrent hc
  | stranded => exact hunder hl
  | _ => exact hh.elim

lemma Serviced.glimpsed_fetch (hv : Serviced cmds s w h issued todo a) {x : Access}
    {rest : List Access} {target : Reg} (hscript : s.host.script = x :: rest)
    (hreads : x.reads = some target) (hscript' : s'.host.script = x :: rest)
    (ho : s'.host.outstanding = some (s.bridge.served target))
    (hx : ∀ phase, x = .await phase → s'.host.exchanges = s.host.exchanges) :
    Glimpsed s'.host h := by
  constructor
  · intro v phase rest' hval hs
    cases hscript'.symm.trans hs
    cases hreads
    cases ho.symm.trans hval
    rcases hv.glimpse_poll with hsame | ⟨hne, hb⟩
    · exact .inl hsame
    · exact .inr ⟨hne, .inl hb⟩
  · intro v rest' hval hs
    cases hscript'.symm.trans hs
    cases hreads
    cases ho.symm.trans hval
    exact hv.glimpse_data

/-- What a host access does to the ledger, the polled cell and the read in progress. -/
structure HostServed (cmds issued : List BootStep) (s' : System σ n) (busy : Prop) (h' : Stage)
    (issued' todo' : List BootStep) (a' : DmaAddress) : Prop where
  commands : cmds = issued'.reverse ++ todo'
  ledger : Ledger busy h' a' issued' (executions s'.bridge.card.history.log) s'.host.exchanges
  glimpsed : Glimpsed s'.host h'
  cell : ¬ busy → s'.cell = h'.phase
  synced : busy → s'.bridge.card.Synced
  issued : busy → issued' = issued

lemma Serviced.served (hv : Serviced cmds s w h issued todo a) {h' : Stage} {todo' : List BootStep}
    {a' : DmaAddress} (hk : HostKept s s' a a') (hm : HostMoved s s' h todo a h' todo' a') :
    ∃ issued', HostServed cmds issued s' w.Busy h' issued' todo' a' := by
  have hlog : executions s'.bridge.card.history.log = executions s.bridge.card.history.log := by
    rw [hk.history]
  have hl := hv.ledger
  have hfar (hb : w.Busy) : h.Busy := (hv.busy hb).2 ▸ hb
  have hbus : s'.bridge.card.dma.busCtrl = s.bridge.card.dma.busCtrl :=
    congrArg Controller.busCtrl hk.controller
  have hsynced (hc : s'.cell = s.cell) (hb : w.Busy) : s'.bridge.card.Synced := by
    show s'.cell = s'.bridge.card.dma.busCtrl &&& statusMask
    rw [hc, hbus]
    exact hv.synced hb
  cases hm with
  | quiet ho hx hc =>
    refine ⟨issued, hv.commands, ?_, .idle ho, fun hb => hc.trans (hv.cell hb), hsynced hc, fun _ => rfl⟩
    rw [hlog, hx]
    exact hl
  | select ho hx hc =>
    refine ⟨issued, hv.commands, ?_, .idle ho, fun _ => hc, fun hb => (hfar hb).elim, fun _ => rfl⟩
    rw [hlog, hx]
    exact ⟨_, _, rfl, ⟨rfl, rfl, List.not_mem_nil⟩, hl⟩
  | release ho hx hc =>
    refine ⟨issued, hv.commands, ?_, .idle ho, fun _ => hc, fun hb => (hfar hb).elim, fun _ => rfl⟩
    rw [hlog, hx]
    obtain ⟨x, xs', hxs, hcur, hr⟩ := hl
    exact ⟨x, xs', hxs, ⟨hcur.written, hcur.datas, hcur.statuses⟩, hr⟩
  | byte ho hx hc =>
    rename_i target data bytes
    refine ⟨issued, hv.commands, ?_, .idle ho, fun hb => hc.trans (hv.cell hb), hsynced hc, fun _ => rfl⟩
    rw [hlog, hx]
    obtain ⟨x, xs', hxs, hcur, hr⟩ := hl
    refine ⟨x.wrote data s'.bridge.fifoEntries, xs', congrArg (amendHead _) hxs, ?_, hr⟩
    exact ⟨congrArg (· ++ [data]) hcur.written, hcur.datas, hcur.statuses⟩
  | lastByte hcmd ho hx hc =>
    rename_i target data bytes cmd
    have hnb : ¬ w.Busy := fun hb => hfar hb
    have hcmds : cmds = (cmd :: issued).reverse ++ todo' := by
      rw [hv.commands, List.reverse_cons, List.append_assoc]
      rfl
    refine ⟨cmd :: issued, hcmds, ?_, .idle ho, fun hb => hc.trans (hv.cell hb), hsynced hc,
      fun hb => absurd hb hnb⟩
    rw [hlog, hx]
    obtain ⟨x, xs', hxs, hcur, hr⟩ := hl
    refine ⟨fun _ => ?_, fun hb => absurd hb hnb⟩
    refine ⟨cmd, issued, x.wrote data s'.bridge.fifoEntries, xs', rfl, congrArg (amendHead _) hxs,
      hcmd, ?_, hr⟩
    exact ⟨congrArg (· ++ [data]) hcur.written, hcur.datas, hcur.statuses⟩
  | fetch hscript hreads hs ho hx hc =>
    rename_i x rest target
    refine ⟨issued, hv.commands, ?_, ?_, fun hb => hc.trans (hv.cell hb), hsynced hc, fun _ => rfl⟩
    · rw [hlog, hx]
      split
      · exact hl.amend (f := .sourced _) (fun _ => rfl) (fun _ => rfl) fun _ _ _ hsight => hsight
      · exact hl
    · refine hv.glimpsed_fetch hscript hreads (hs.trans hscript) ho fun phase hphase => ?_
      rw [hx, if_neg fun hcond => by cases hphase.symm.trans hcond.1]
  | polled hscript hval ho hx hc =>
    refine ⟨issued, hv.commands, ?_, .idle ho, fun hb => hc.trans (hv.cell hb), hsynced hc, fun _ => rfl⟩
    rw [hlog, hx]
    exact hl.polled hv.glimpsed hval hscript
  | statusRead hscript hval ho hx hc =>
    rename_i τ b value rest
    have hb : ¬ w.Busy := fun hb => hfar hb
    have hvalue : value = b := (hv.glimpsed.data value rest hval hscript).1 τ b rfl
    refine ⟨issued, hv.commands, ?_, .idle ho, fun _ => hc.trans (dataRead_status _ (hv.cell hb)),
      fun hb' => absurd hb' hb, fun _ => rfl⟩
    rw [hlog, hx, hvalue]
    exact Ledger.statusRead hl
  | messageRead hscript hval ho hx hc =>
    rename_i b value rest
    have hb : ¬ w.Busy := fun hb => hfar hb
    have hvalue : value = 0x00 := (hv.glimpsed.data value rest hval hscript).2 b rfl
    refine ⟨issued, hv.commands, ?_, .idle ho, fun _ => hc.trans (dataRead_message _ (hv.cell hb)),
      fun hb' => absurd hb' hb, fun _ => rfl⟩
    rw [hlog, hx, hvalue]
    exact Ledger.messageRead hl

end Host

end PicoV9k.Sasi
