import PicoV9k.ReplayWorker

/-!
# Handler and worker with their transitions

The handler moves the cached phase when the host reads DATA, and the worker moves the
bus when it takes the queued read. Both are recorded; `Tracks` says that the worker is on
a path to the place of the host and owes the transitions on it.
-/
namespace PicoV9k.Sasi
open PicoV9k.Bus PicoV9k.Storage PicoV9k.Mgmt PicoV9k.Runs

variable {Io σ : Type} {n : ℕ}

/-- Where the host is with its accesses: between commands, with SELECT raised, with `bytes` of a
CDB written, or with `left` bytes of a list to write. -/
inductive Turn
  | free
  | selected
  | command (bytes : List Byte)
  | list (left : ℕ)
  deriving DecidableEq, Repr

/-- The turn after an access, when STATUS shows `cell`. -/
def Turn.next (turn : Turn) (cell : Byte) : FifoEvent → Turn
  | .write .control data =>
    match turn with
    | .free => if hasBit data dmaSelectBit then .selected else .free
    | .selected => if hasBit data dmaSelectBit then .selected else .command []
    | _ => turn
  | .write .data data =>
    match turn with
    | .command bytes =>
      if bytes.length < cdbLength then .command (bytes ++ [data]) else .list (driveParamsLength - 1)
    | .list left => .list (left - 1)
    | _ => turn
  | .readCommit .data => if cell &&& phaseMask = phaseMask then .free else turn
  | _ => turn

/-- Core 1 with the turn of the host, the DMA mode the host has written, and the transitions that
the handler and the worker have made. -/
structure Replay (σ : Type) (n : ℕ) where
  bridge : Bridge σ n
  turn : Turn
  dma : Bool
  handlerMoves : List (ℕ × Transition)
  workerMoves : List (ℕ × Transition)

def Replay.initial (ram : ℕ → Byte) (storage : Routing σ) (chan : MgmtChan n) : Replay σ n :=
  ⟨.initial ram storage chan, .free, false, [], []⟩

/-- The access the worker is at, by its time. -/
def Bridge.servedAt (b : Bridge σ n) : ℕ :=
  match b.transfer, b.queue with
  | none, e :: _ => e.seenAt
  | _, _ => b.card.history.issuedAt

/-- A dropped access does not count for the host's turn. -/
def Replay.step (reg : Registry Io σ) (s : Replay σ n) : BusLabel Io σ → Option (Replay σ n)
  | .fifo event =>
    let b := (s.bridge.isr event).1
    let cell := s.bridge.card.cache.status
    some {
      bridge := b
      turn := if s.bridge.Room then s.turn.next cell event else s.turn
      dma := if s.bridge.Room then modeAfter s.dma event else s.dma
      handlerMoves := s.handlerMoves ++
        transitionAt (s.bridge.fifoEntries + 1) cell b.card.cache.status
      workerMoves := s.workerMoves }
  | .worker io => (s.bridge.workerStep reg io).map fun b =>
    { s with
      bridge := b
      workerMoves := s.workerMoves ++
        transitionAt s.bridge.servedAt s.bridge.card.dma.busCtrl b.card.dma.busCtrl }
  | .service storage => (s.bridge.service storage).map fun b => { s with bridge := b }

/-- The host may write DATA: a target, a byte of a CDB, or of a list once STATUS asks for it. -/
def Turn.Writes (dma : Bool) (cell : Byte) : Turn → Prop
  | .free => True
  | .selected => False
  | .command bytes => bytes.length < cdbLength ∨ Asks dma bytes ∧ cell &&& phaseMask = 0
  | .list left => left ≠ 0

/-- The last byte of a list has been written, or that of a CDB that is answered by no list. -/
def Turn.Done (dma : Bool) : Turn → Prop
  | .command bytes => bytes.length = cdbLength ∧ ¬ Asks dma bytes
  | .list left => left = 0
  | _ => False

/-- The host follows the handshake but for its DATA reads, and neither resets nor writes STATUS. -/
def Replay.Admits (s : Replay σ n) : BusLabel Io σ → Prop
  | .fifo (.write .control data) => hasBit data dmaResetBit = false ∧
    (s.turn = .free ∨ s.turn = .selected ∧ hasBit data dmaSelectBit = false)
  | .fifo (.write .data _) => s.turn.Writes s.dma s.bridge.card.cache.status
  | .fifo (.write .status _) | .fifo (.write .statusAlias _) => False
  | _ => True

/-- Everything is written, and STATUS does not show the answer yet. -/
def Replay.Awaiting (s : Replay σ n) : Prop :=
  s.turn.Done s.dma ∧ s.bridge.card.cache.status &&& phaseMask ≠ sasiCtlBit ||| sasiInpBit ∧
  s.bridge.card.cache.status &&& phaseMask ≠ phaseMask

/-- A queued DATA read finds its answer, and a write that moves SELECT finds room. -/
def Replay.Patient (s : Replay σ n) : BusLabel Io σ → Prop
  | .fifo (.readCommit .data) => s.bridge.Room → ¬ s.Awaiting
  | .fifo (.write .control data) =>
    hasBit data dmaSelectBit ≠ hasBit s.bridge.card.cache.control dmaSelectBit → s.bridge.Room
  | _ => True

/-- The place that the host's accesses have brought about. -/
inductive Turn.At (dma : Bool) : Turn → Place → Prop
  | free : At dma .free .free
  | selected : At dma .selected .selected
  | command {bytes : List Byte} (h : bytes.length < cdbLength) : At dma (.command bytes) (.command bytes)
  | asked {bytes : List Byte} {v : Place} (h : bytes.length = cdbLength) (hasks : Asks dma bytes)
      (hv : v = .asking ∨ v = .list driveParamsLength) : At dma (.command bytes) v
  | issued {bytes : List Byte} {v : Place} (h : bytes.length = cdbLength) (hasks : ¬ Asks dma bytes)
      (hv : v = .executing false ∨ v = .status ∨ v = .message) : At dma (.command bytes) v
  | list {left : ℕ} (h : left ≠ 0) : At dma (.list left) (.list left)
  | listed {v : Place} (hv : v = .executing true ∨ v = .status ∨ v = .message) : At dma (.list 0) v

/-- The worker is on a path to the place of the host, and owes the transitions on it. -/
structure Replay.Tracks (s : Replay σ n) (w h : Place) (ms : List (ℕ × Transition)) : Prop where
  holds : w.Holds s.bridge.card.controller s.bridge.transfer
  path : Place.Path s.bridge.card.dma.dmaEnabled w s.bridge.queue s.dma h ms
  moves : s.handlerMoves = s.workerMoves ++ ms
  shows : h.Shows s.bridge.card.cache.status
  turn : s.turn.At s.dma h
  select : hasBit s.bridge.card.cache.control dmaSelectBit = true ↔ h = .selected
  requested : s.bridge.card.dma.resetRequested = false
  synced : s.bridge.transfer.isSome = true → s.bridge.card.Synced

lemma initial_tracks (ram : ℕ → Byte) (storage : Routing σ) (chan : MgmtChan n) :
    (Replay.initial ram storage chan).Tracks .free .free [] where
  holds := .free ⟨rfl, clear_select, rfl, rfl, rfl⟩
  path := .nil _ _
  moves := rfl
  shows := show (0 : Byte) &&& phaseMask = 0 by decide
  turn := .free
  select := ⟨fun h => absurd (clear_select.symm.trans h) Bool.false_ne_true, fun h => (by cases h)⟩
  requested := rfl
  synced h := by cases h

/-- With nothing queued the worker has made the handler's transitions, and bus and STATUS show one
phase. -/
lemma Replay.Tracks.drained {s : Replay σ n} {w h : Place} {ms : List (ℕ × Transition)}
    (ht : s.Tracks w h ms) (hq : s.bridge.queue = []) :
    s.workerMoves = s.handlerMoves ∧
      s.bridge.cachedPhase = s.bridge.card.dma.busCtrl &&& phaseMask := by
  obtain ⟨holds, path, moves, shows, turn, select, requested, synced⟩ := ht
  rw [hq] at path
  obtain ⟨-, rfl, rfl⟩ := path.of_nil
  refine ⟨by rw [moves, List.append_nil], ?_⟩
  unfold Bridge.cachedPhase
  have hfixed {bus : Byte} (hbus : s.bridge.card.dma.busCtrl = bus)
      (hcell : s.bridge.card.cache.status &&& phaseMask = bus &&& phaseMask) :
      s.bridge.card.cache.status &&& phaseMask = s.bridge.card.dma.busCtrl &&& phaseMask := by
    rw [hbus]
    exact hcell
  generalize hk : s.bridge.card.controller = k at holds
  have hbus : s.bridge.card.dma.busCtrl = k.busCtrl := hk ▸ rfl
  generalize s.bridge.transfer = t at holds synced
  cases holds with
  | free h => exact hfixed (hbus.trans h.busCtrl) shows
  | selected h => exact hfixed (hbus.trans h.busCtrl) shows
  | command h _ => exact hfixed (hbus.trans h.busCtrl) shows
  | list h _ _ _ _ _ => exact hfixed (hbus.trans h) shows
  | status h _ _ => exact hfixed (hbus.trans h.busCtrl) shows
  | message h => exact hfixed (hbus.trans h.busCtrl) shows
  | executing h _ _ =>
    have hcell : s.bridge.card.cache.status = s.bridge.card.dma.busCtrl &&& statusMask := synced rfl
    rw [hcell, BitVec.and_assoc]
    rfl

/-- The host is where it was when its last byte is answered. -/
lemma Turn.At.answer {dma : Bool} {turn : Turn} {u v : Place} (h : turn.At dma u) (hv : Answer u v) :
    turn.At dma v := by
  cases hv with
  | status listed =>
    cases h with
    | asked _ _ hv => rcases hv with hv | hv <;> cases hv
    | issued hlen hasks _ => exact .issued hlen hasks (.inr (.inl rfl))
    | listed _ => exact .listed (.inr (.inl rfl))
  | list =>
    cases h with
    | asked hlen hasks _ => exact .asked hlen hasks (.inr rfl)
    | issued _ _ hv => rcases hv with hv | hv | hv <;> cases hv
    | listed hv => rcases hv with hv | hv | hv <;> cases hv
  | transfer => exact h

lemma Answer.not_selected {u v : Place} (h : Answer u v) : u ≠ .selected ∧ v ≠ .selected := by
  cases h <;> exact ⟨by simp, by simp⟩

lemma busy_phase : ∀ b : Byte, busyBus b = true → hasBit b sasiMsgBit = false →
    b &&& phaseMask ≠ sasiCtlBit ||| sasiInpBit ∧ b &&& phaseMask ≠ phaseMask := by
  decide

/-- A boundary answers the command that is under way. -/
lemma Replay.Tracks.boundary {reg : Registry Io σ} {io : SectorIo Io} {s s' : Replay σ n} {w h : Place}
    {ms : List (ℕ × Transition)} {t : Transfer} (ht : s.Tracks w h ms) (htransfer : s.bridge.transfer = some t)
    (hs : s.step reg (.worker io) = some s') : ∃ v, s'.Tracks v v [] := by
  have hstep : s.bridge.workerStep reg io = some (s.bridge.afterBoundary (transferStep reg io s.bridge.card t)) := by
    unfold Bridge.workerStep
    rw [htransfer]
  simp only [Replay.step, hstep, afterBoundary_eq, Option.map_some, Option.some.injEq] at hs
  have hsync := ht.synced (by rw [htransfer]; rfl)
  have hholds := ht.holds
  rw [htransfer] at hholds
  obtain ⟨rfl, hworks, haddr, hmsg⟩ := hholds.moving
  obtain ⟨hnil, hdma, rfl, rfl⟩ := ht.path.of_executing
  have hserved := transferStep_served reg io hholds hsync ht.requested
  have hboundary := transferStep_boundary reg io s.bridge.card haddr
  have hcontrol := hboundary.cacheControl
  have hrequested := hboundary.requested
  have hmode := hboundary.dmaEnabled
  generalize afterRoute (transferStep reg io s.bridge.card t) = r at hs hserved hcontrol hrequested hmode
  cases hserved with
  | quiet hidle hw hcells => cases hw
  | @answered v hv hw hshows hsync' =>
    subst hs
    have hnone : transitionAt s.bridge.servedAt s.bridge.card.dma.busCtrl r.1.dma.busCtrl = [] :=
      transitionAt_none (busy_phase _ hworks hmsg).1 (busy_phase _ hworks hmsg).2 _ _
    refine ⟨v, hw, ?_, ?_, hshows, ht.turn.answer hv, ?_, hrequested.trans ht.requested, hsync'⟩
    · show Place.Path r.1.dma.dmaEnabled v s.bridge.queue s.dma v []
      rw [hnil, hdma, hmode]
      exact .nil _ _
    · show s.handlerMoves = s.workerMoves ++ transitionAt _ _ _ ++ []
      rw [hnone, List.append_nil]
      exact ht.moves
    · show hasBit r.1.cache.control dmaSelectBit = true ↔ v = .selected
      rw [hcontrol, ht.select]
      exact iff_of_false hv.not_selected.1 hv.not_selected.2

/-- The worker takes the next entry of the path. -/
lemma Replay.Tracks.entry {reg : Registry Io σ} {io : SectorIo Io} {s s' : Replay σ n} {w h : Place}
    {ms : List (ℕ × Transition)} {e : Entry} {rest : List Entry} (ht : s.Tracks w h ms)
    (hidle : s.bridge.transfer = none) (hq : s.bridge.queue = e :: rest)
    (hs : s.step reg (.worker io) = some s') : ∃ w' h' ms', s'.Tracks w' h' ms' := by
  have hstep : s.bridge.workerStep reg io =
      some (s.bridge.afterEntry rest (deferProcessEntry io s.bridge.card e)) := by
    unfold Bridge.workerStep
    rw [hidle, hq]
  simp only [Replay.step, hstep, Option.map_some, Option.some.injEq] at hs
  have hat : s.bridge.servedAt = e.seenAt := by
    unfold Bridge.servedAt
    rw [hidle, hq]
  rw [hat] at hs
  have hholds := ht.holds
  rw [hidle] at hholds
  have hpath := ht.path
  rw [hq] at hpath
  obtain ⟨w', m, ms', rfl, hfirst, hrest⟩ := hpath.of_cons
  have hserved := deferProcessEntry_served io hholds hfirst
  have hcontrol := deferProcessEntry_cacheControl io s.bridge.card e
  have hrequested := deferProcessEntry_requested io s.bridge.card hfirst.not_reset
  have hmode := deferProcessEntry_dmaEnabled io s.bridge.card hfirst.not_reset
  have hmoved : transitionAt e.seenAt s.bridge.card.dma.busCtrl
      (deferProcessEntry io s.bridge.card e).1.dma.busCtrl = m := by
    show transitionAt e.seenAt s.bridge.card.controller.busCtrl
      (deferProcessEntry io s.bridge.card e).1.controller.busCtrl = m
    exact hfirst.transition hholds fun hw => hserved.quietly (hfirst.read hw)
  generalize deferProcessEntry io s.bridge.card e = r at hs hserved hcontrol hrequested hmode hmoved
  have hmoves : s.handlerMoves = s.workerMoves ++ transitionAt e.seenAt s.bridge.card.dma.busCtrl
      r.1.dma.busCtrl ++ ms' := by
    rw [hmoved, List.append_assoc]
    exact ht.moves
  subst hs
  cases hserved with
  | quiet hnone hw hcells =>
    refine ⟨w', h, ms', ?_, ?_, hmoves, ?_, ht.turn, ?_, hrequested.trans ht.requested, ?_⟩
    · show w'.Holds r.1.controller r.2
      rw [hnone]
      exact hw
    · show Place.Path r.1.dma.dmaEnabled w' rest s.dma h ms'
      rw [hmode]
      exact hrest
    · exact hrest.shows hcells ht.shows
    · show hasBit r.1.cache.control dmaSelectBit = true ↔ h = .selected
      rw [hcontrol]
      exact ht.select
    · show r.2.isSome = true → r.1.Synced
      rw [hnone]
      exact fun hsome => by cases hsome
  | @answered v hv hw hshows hsync =>
    obtain ⟨hh, hpath'⟩ := hrest.answered hv
    refine ⟨v, v, ms', hw, ?_, hmoves, hshows, (hh ▸ ht.turn).answer hv, ?_,
      hrequested.trans ht.requested, hsync⟩
    · show Place.Path r.1.dma.dmaEnabled v rest s.dma v ms'
      rw [hmode]
      exact hpath'
    · show hasBit r.1.cache.control dmaSelectBit = true ↔ v = .selected
      rw [hcontrol, ht.select, hh]
      exact iff_of_false hv.not_selected.1 hv.not_selected.2

theorem Replay.Tracks.worker {reg : Registry Io σ} {io : SectorIo Io} {s s' : Replay σ n} {w h : Place}
    {ms : List (ℕ × Transition)} (ht : s.Tracks w h ms) (hs : s.step reg (.worker io) = some s') :
    ∃ w' h' ms', s'.Tracks w' h' ms' := by
  cases htransfer : s.bridge.transfer with
  | some t =>
    obtain ⟨v, hv⟩ := ht.boundary htransfer hs
    exact ⟨v, v, [], hv⟩
  | none =>
    cases hq : s.bridge.queue with
    | nil =>
      have hstep : s.bridge.workerStep reg io = none := by
        unfold Bridge.workerStep
        rw [htransfer, hq]
      simp only [Replay.step, hstep] at hs
      cases hs
    | cons e rest => exact ht.entry htransfer hq hs

end PicoV9k.Sasi
