import PicoV9k.ReplaySystem

/-!
# DATA reads in any phase

What an access of the host adds to the path of the worker. While no read falls into the
wait for an answer and no move of SELECT is lost, the worker catches up with the
transitions of the handler.
-/
namespace PicoV9k.Sasi
open PicoV9k.Bus PicoV9k.Storage PicoV9k.Mgmt PicoV9k.Runs

variable {Io σ : Type} {n : ℕ}

lemma isr_dmaEnabled (b : Bridge σ n) (event : FifoEvent) :
    (b.isr event).1.card.dma.dmaEnabled = b.card.dma.dmaEnabled := by
  cases event with
  | prefetch target => cases target <;> rfl
  | readCommit target =>
    cases target with
    | data =>
      rw [isr_commit_data, enqueue_card]
      rfl
    | _ => rfl
  | write target data =>
    cases target with
    | control =>
      by_cases hr : hasBit data dmaResetBit = true
      · rw [isr_write_reset b hr, enqueue_card]
        rfl
      · rw [isr_write_control b (Bool.eq_false_iff.mpr hr), enqueue_card]
        rfl
    | data =>
      rw [isr_write_data, enqueue_card]
      rfl
    | status | statusAlias =>
      show (((Bridge.tick b).writeThrough _ data).enqueue _).card.dma.dmaEnabled = _
      rw [enqueue_card]
      rfl
    | _ => rfl
  | unknown => rfl

lemma next_aside {event : FifoEvent} (h : isDeferred event = false) (turn : Turn) (cell : Byte)
    (dma : Bool) : turn.next cell event = turn ∧ modeAfter dma event = dma := by
  cases event with
  | prefetch target => exact ⟨rfl, rfl⟩
  | readCommit target => cases target <;> first | exact ⟨rfl, rfl⟩ | cases h
  | write target data => cases target <;> first | exact ⟨rfl, rfl⟩ | cases h
  | unknown => exact ⟨rfl, rfl⟩

lemma isr_synced {b : Bridge σ n} {event : FifoEvent}
    (hcell : (b.isr event).1.card.cache.status = b.card.cache.status) (h : b.card.Synced) :
    (b.isr event).1.card.Synced := by
  have hbus : (b.isr event).1.card.dma.busCtrl = b.card.dma.busCtrl :=
    congrArg Controller.busCtrl (isr_controller b event)
  unfold Card.Synced
  rw [hcell, hbus]
  exact h

section Host

variable {reg : Registry Io σ} {s : Replay σ n} {w h : Place} {ms : List (ℕ × Transition)}
  {event : FifoEvent}

/-- An access that the queue does not take, or that is not for it. -/
lemma Replay.Tracks.unheard (ht : s.Tracks w h ms) (hreset : isResetWrite event = false)
    (hqueue : isDeferred event = false ∨ ¬ s.bridge.Room)
    (hcell : (s.bridge.isr event).1.card.cache.status = s.bridge.card.cache.status)
    (hselect : hasBit (s.bridge.isr event).1.card.cache.control dmaSelectBit =
      hasBit s.bridge.card.cache.control dmaSelectBit)
    {s' : Replay σ n} (hs : s.step reg (.fifo event) = some s') : s'.Tracks w h ms := by
  cases hs
  have hturn : (if s.bridge.Room then s.turn.next s.bridge.card.cache.status event else s.turn) = s.turn := by
    split
    next hroom => exact (next_aside (hqueue.resolve_right (not_not_intro hroom)) _ _ s.dma).1
    · rfl
  have hdma : (if s.bridge.Room then modeAfter s.dma event else s.dma) = s.dma := by
    split
    next hroom => exact (next_aside (hqueue.resolve_right (not_not_intro hroom)) s.turn 0 _).2
    · rfl
  have hkept : (s.bridge.isr event).1.queue = s.bridge.queue := by
    rw [isr_queue, if_neg]
    rintro ⟨hdeferred, hroom⟩
    rcases hqueue with hqueue | hqueue
    · rw [hqueue] at hdeferred
      cases hdeferred
    · exact hqueue hroom
  refine ⟨?_, ?_, ?_, ?_, ?_, ?_, ?_, ?_⟩
  · show w.Holds (s.bridge.isr event).1.card.controller (s.bridge.isr event).1.transfer
    rw [isr_controller, isr_transfer]
    exact ht.holds
  · dsimp only
    rw [isr_dmaEnabled, hkept, hdma]
    exact ht.path
  · show s.handlerMoves ++ transitionAt _ _ _ = s.workerMoves ++ ms
    rw [hcell, transitionAt_self, List.append_nil]
    exact ht.moves
  · dsimp only
    rw [hcell]
    exact ht.shows
  · dsimp only
    rw [hturn, hdma]
    exact ht.turn
  · dsimp only
    rw [hselect]
    exact ht.select
  · dsimp only
    rw [isr_resetRequested, hreset, ht.requested]
    rfl
  · dsimp only
    rw [isr_transfer]
    exact fun hsome => isr_synced hcell (ht.synced hsome)

/-- An access that the queue takes as a step of the path. -/
lemma Replay.Tracks.heard (ht : s.Tracks w h ms) (hreset : isResetWrite event = false)
    (hdeferred : isDeferred event = true) (hroom : s.bridge.Room) {h' : Place} {m : List (ℕ × Transition)}
    (hstep : h.Step s.dma ⟨event, s.bridge.fifoEntries + 1⟩ h' m)
    (hmoved : transitionAt (s.bridge.fifoEntries + 1) s.bridge.card.cache.status
      (s.bridge.isr event).1.card.cache.status = m)
    (hshows : h'.Shows (s.bridge.isr event).1.card.cache.status)
    (hturn : (s.turn.next s.bridge.card.cache.status event).At (modeAfter s.dma event) h')
    (hselect : hasBit (s.bridge.isr event).1.card.cache.control dmaSelectBit = true ↔ h' = .selected)
    {s' : Replay σ n} (hs : s.step reg (.fifo event) = some s') : s'.Tracks w h' (ms ++ m) := by
  cases hs
  refine ⟨?_, ?_, ?_, hshows, ?_, hselect, ?_, ?_⟩
  · show w.Holds (s.bridge.isr event).1.card.controller (s.bridge.isr event).1.transfer
    rw [isr_controller, isr_transfer]
    exact ht.holds
  · have hpath := ht.path.snoc hstep
    dsimp only
    rw [isr_dmaEnabled, isr_queue, if_pos ⟨hdeferred, hroom⟩, if_pos hroom]
    exact hpath
  · show s.handlerMoves ++ transitionAt _ _ _ = s.workerMoves ++ (ms ++ m)
    rw [hmoved, ht.moves, List.append_assoc]
  · dsimp only
    rw [if_pos hroom, if_pos hroom]
    exact hturn
  · show (s.bridge.isr event).1.card.dma.resetRequested = false
    rw [isr_resetRequested, hreset, ht.requested]
    rfl
  · -- nothing is taken behind a transfer
    dsimp only
    rw [isr_transfer]
    intro hsome
    obtain ⟨t, htransfer⟩ := Option.isSome_iff_exists.mp hsome
    obtain ⟨rfl, -⟩ := (htransfer ▸ ht.holds).moving
    obtain ⟨-, -, rfl, -⟩ := ht.path.of_executing
    cases hstep with
    | unexpected _ hu => exact hu.elim

lemma Place.Shows.other {cell : Byte} (hshows : h.Shows cell) (hstatus : h ≠ .status) (hmessage : h ≠ .message) :
    cell &&& phaseMask ≠ sasiCtlBit ||| sasiInpBit ∧ hasBit cell sasiMsgBit = false := by
  have hzero : ∀ b : Byte, b &&& phaseMask = 0 →
      b &&& phaseMask ≠ sasiCtlBit ||| sasiInpBit ∧ hasBit b sasiMsgBit = false := by decide
  cases h with
  | free | selected | list left => exact hzero _ hshows
  | command bytes | asking => exact request_shown _ hshows
  | executing listed =>
    cases listed with
    | true => exact hzero _ hshows
    | false => exact hshows
  | status => exact absurd rfl hstatus
  | message => exact absurd rfl hmessage

lemma dataRead_stays {c : CachedRegs} (hphase : c.status &&& phaseMask ≠ sasiCtlBit ||| sasiInpBit)
    (hmsg : hasBit c.status sasiMsgBit = false) : (CachedRegs.dataRead c).status = c.status := by
  have hstatus : ∀ b : Byte, hasBit b sasiMsgBit = false → b &&& phaseMask ≠ sasiCtlBit ||| sasiInpBit →
      b &&& (sasiCtlBit ||| sasiInpBit) ≠ sasiCtlBit ||| sasiInpBit := by decide
  unfold CachedRegs.dataRead
  rw [if_neg (Bool.eq_false_iff.mp hmsg), if_neg (hstatus _ hmsg hphase)]

lemma dataRead_leadsOn {c : CachedRegs} (hphase : c.status &&& phaseMask = sasiCtlBit ||| sasiInpBit) :
    (CachedRegs.dataRead c).status &&& phaseMask = phaseMask := by
  have hbits : ∀ b : Byte, b &&& phaseMask = sasiCtlBit ||| sasiInpBit → hasBit b sasiMsgBit = false ∧
      b &&& (sasiCtlBit ||| sasiInpBit) = sasiCtlBit ||| sasiInpBit ∧
      ((b &&& 0x1F) ||| sasiMsgBit) &&& phaseMask = phaseMask := by decide
  obtain ⟨hmsg, hstatus, hnext⟩ := hbits _ hphase
  unfold CachedRegs.dataRead
  rw [if_neg (Bool.eq_false_iff.mp hmsg), if_pos hstatus]
  exact hnext

lemma dataRead_frees {c : CachedRegs} (hphase : c.status &&& phaseMask = phaseMask) :
    (CachedRegs.dataRead c).status = 0 := by
  have hbits : ∀ b : Byte, b &&& phaseMask = phaseMask → hasBit b sasiMsgBit = true := by decide
  unfold CachedRegs.dataRead
  rw [if_pos (hbits _ hphase)]
  rfl

lemma message_phase : ∀ b : Byte, hasBit b sasiMsgBit = false → b &&& phaseMask ≠ phaseMask := by decide

lemma next_dataRead (turn : Turn) (cell : Byte) : turn.next cell (.readCommit .data) =
    if cell &&& phaseMask = phaseMask then .free else turn := rfl

lemma Turn.At.message {dma : Bool} {turn : Turn} (h : turn.At dma .status) : turn.At dma .message := by
  cases h with
  | asked _ _ hv => rcases hv with hv | hv <;> cases hv
  | issued hlen hasks _ => exact .issued hlen hasks (.inr (.inr rfl))
  | listed _ => exact .listed (.inr (.inr rfl))

/-- While the answer to a last byte is missing, the host is waiting for it. -/
lemma Replay.Tracks.awaiting {listed : Bool} (ht : s.Tracks w (.executing listed) ms) : s.Awaiting := by
  obtain ⟨hstatus, hmsg⟩ := Place.Shows.other ht.shows (by simp) (by simp)
  refine ⟨?_, hstatus, message_phase _ hmsg⟩
  have hturn := ht.turn
  generalize s.turn = turn at hturn ⊢
  cases hturn with
  | asked _ _ hv => rcases hv with hv | hv <;> cases hv
  | issued hlen hasks _ => exact ⟨hlen, hasks⟩
  | listed _ => rfl

/-- A queued read leads on in the status and the message phase, and means nothing elsewhere. -/
lemma Replay.Tracks.dataRead (ht : s.Tracks w h ms) (hpatient : s.bridge.Room → ¬ s.Awaiting)
    {s' : Replay σ n} (hs : s.step reg (.fifo (.readCommit .data)) = some s') :
    ∃ h' ms', s'.Tracks w h' ms' := by
  have hcache := isr_commit_cache s.bridge
  have hselect : hasBit (s.bridge.isr (.readCommit .data)).1.card.cache.control dmaSelectBit =
      hasBit s.bridge.card.cache.control dmaSelectBit := by
    rw [hcache, dataRead_cacheControl]
  by_cases hstatus : h = .status
  · subst hstatus
    have hroom : s.bridge.Room := by
      unfold Bridge.Room
      rw [(ht.path.to_status rfl).1]
      decide
    have hphase : s.bridge.card.cache.status &&& phaseMask = sasiCtlBit ||| sasiInpBit := ht.shows
    have hnext := dataRead_leadsOn hphase
    have hstay : s.bridge.card.cache.status &&& phaseMask ≠ phaseMask := by
      rw [hphase]
      decide
    refine ⟨_, _, ht.heard rfl rfl hroom (.statusRead _) ?_ ?_ ?_ ?_ hs⟩
    · rw [hcache]
      exact transitionAt_message hphase hnext _
    · rw [hcache]
      exact hnext
    · rw [next_dataRead, if_neg hstay]
      exact ht.turn.message
    · rw [hselect, ht.select]
      exact iff_of_false (by simp) (by simp)
  by_cases hmessage : h = .message
  · subst hmessage
    have hroom : s.bridge.Room := by
      unfold Bridge.Room
      rcases ht.path.to_message rfl with ⟨hnil, _⟩ | ⟨hlen, _⟩
      · rw [hnil]
        decide
      · rw [hlen]
        decide
    have hphase : s.bridge.card.cache.status &&& phaseMask = phaseMask := ht.shows
    refine ⟨_, _, ht.heard rfl rfl hroom (.messageRead _) ?_ ?_ ?_ ?_ hs⟩
    · rw [hcache, dataRead_frees hphase]
      exact transitionAt_free hphase _
    · rw [hcache, dataRead_frees hphase]
      exact (by decide : (0 : Byte) &&& phaseMask = 0)
    · rw [next_dataRead, if_pos hphase]
      exact .free
    · rw [hselect, ht.select]
      exact iff_of_false (by simp) (by simp)
  -- elsewhere neither the cell nor the place moves
  obtain ⟨hphase, hmsg⟩ := ht.shows.other hstatus hmessage
  have hcell : (s.bridge.isr (.readCommit .data)).1.card.cache.status = s.bridge.card.cache.status := by
    rw [hcache]
    exact dataRead_stays hphase hmsg
  by_cases hroom : s.bridge.Room
  · have hunread : h.Unread := by
      cases h with
      | executing listed => exact absurd ht.awaiting (hpatient hroom)
      | status => exact hstatus rfl
      | message => exact hmessage rfl
      | _ => trivial
    refine ⟨h, _, ht.heard rfl rfl hroom (.unexpected _ hunread) ?_ ?_ ?_ ?_ hs⟩
    · rw [hcell, transitionAt_self]
    · rw [hcell]
      exact ht.shows
    · rw [next_dataRead, if_neg (message_phase _ hmsg)]
      exact ht.turn
    · rw [hselect]
      exact ht.select
  · exact ⟨h, ms, ht.unheard rfl (.inr hroom) hcell hselect hs⟩

/-- A byte for the host's turn, as a step of the path. -/
lemma Replay.Tracks.dataStep (ht : s.Tracks w h ms) {data : Byte}
    (hadmits : s.Admits (.fifo (.write .data data) : BusLabel Io σ)) :
    ∃ h', h.Step s.dma ⟨.write .data data, s.bridge.fifoEntries + 1⟩ h' [] ∧
      h'.Shows s.bridge.card.cache.status ∧ h ≠ .selected ∧ h' ≠ .selected ∧
      (s.turn.next s.bridge.card.cache.status (.write .data data)).At s.dma h' := by
  have hshows := ht.shows
  have hturn := ht.turn
  unfold Replay.Admits at hadmits
  generalize s.turn = turn at hturn hadmits ⊢
  cases hturn with
  | free => exact ⟨.free, .target data _, hshows, by simp, by simp, .free⟩
  | selected => exact hadmits.elim
  | @command bytes hlen =>
    have hnext : (Turn.command bytes).next s.bridge.card.cache.status (.write .data data) =
        .command (bytes ++ [data]) := if_pos hlen
    rw [hnext]
    by_cases hlast : bytes.length + 1 = cdbLength
    · have hwhole : (bytes ++ [data]).length = cdbLength := by simpa using hlast
      by_cases hasks : Asks s.dma (bytes ++ [data])
      · exact ⟨.asking, .asked data _ hlast hasks, hshows, by simp, by simp, .asked hwhole hasks (.inl rfl)⟩
      · exact ⟨.executing false, .lastByte data _ hlast hasks, request_shown _ hshows, by simp, by simp,
          .issued hwhole hasks (.inl rfl)⟩
    · have hmore : bytes.length + 1 < cdbLength := by omega
      exact ⟨.command (bytes ++ [data]), .byte data _ hmore, hshows, by simp, by simp,
        .command (by simpa using hmore)⟩
  | @asked bytes v hlen hasks hv =>
    obtain ⟨_, hphase⟩ := hadmits.resolve_left (by omega)
    have hnext : (Turn.command bytes).next s.bridge.card.cache.status (.write .data data) =
        .list (driveParamsLength - 1) := if_neg (by omega)
    rw [hnext]
    rcases hv with rfl | rfl
    · have hcommand : s.bridge.card.cache.status &&& phaseMask = sasiCtlBit := hshows
      rw [hphase] at hcommand
      exact absurd hcommand (by decide)
    · exact ⟨.list 7, .listByte data _ (by decide), hshows, by simp, by simp, .list (by decide)⟩
  | issued hlen hasks _ =>
    rcases hadmits with hshort | ⟨hask, _⟩
    · omega
    · exact absurd hask hasks
  | @list left hleft =>
    obtain ⟨more, rfl⟩ := Nat.exists_eq_succ_of_ne_zero hleft
    have hnext : (Turn.list (more + 1)).next s.bridge.card.cache.status (.write .data data) = .list more := rfl
    rw [hnext]
    by_cases hmore : more = 0
    · subst hmore
      exact ⟨.executing true, .lastListByte data _, hshows, by simp, by simp, .listed (.inl rfl)⟩
    · exact ⟨.list more, .listByte data _ hmore, hshows, by simp, by simp, .list hmore⟩
  | listed hv => exact absurd rfl hadmits

lemma Replay.Tracks.dataWrite (ht : s.Tracks w h ms) {data : Byte}
    (hadmits : s.Admits (.fifo (.write .data data) : BusLabel Io σ)) {s' : Replay σ n}
    (hs : s.step reg (.fifo (.write .data data)) = some s') : ∃ h' ms', s'.Tracks w h' ms' := by
  have hcache := isr_data_cache s.bridge data
  by_cases hroom : s.bridge.Room
  · obtain ⟨h', hstep, hshows, hh, hh', hturn⟩ := ht.dataStep hadmits
    refine ⟨h', _, ht.heard rfl rfl hroom hstep ?_ ?_ hturn ?_ hs⟩
    · rw [hcache, transitionAt_self]
    · rw [hcache]
      exact hshows
    · rw [hcache, ht.select]
      exact iff_of_false hh hh'
  · refine ⟨h, ms, ht.unheard rfl (.inr hroom) ?_ ?_ hs⟩
    · rw [hcache]
    · rw [hcache]

lemma Replay.Tracks.controlWrite (ht : s.Tracks w h ms) {data : Byte}
    (hadmits : s.Admits (.fifo (.write .control data) : BusLabel Io σ))
    (hpatient : s.Patient (.fifo (.write .control data) : BusLabel Io σ)) {s' : Replay σ n}
    (hs : s.step reg (.fifo (.write .control data)) = some s') : ∃ h' ms', s'.Tracks w h' ms' := by
  obtain ⟨hr, hturn⟩ := hadmits
  have hreset : isResetWrite (.write .control data) = false := hr
  have hcache := isr_control_cache s.bridge hr
  have hselect : hasBit (s.bridge.isr (.write .control data)).1.card.cache.control dmaSelectBit =
      hasBit data dmaSelectBit := by
    rw [hcache, predicted_cacheControl]
  rcases hturn with hfree | ⟨hselected, hdown⟩
  · have hh : h = .free := by
      have hat := ht.turn
      rw [hfree] at hat
      cases hat
      rfl
    subst hh
    have hlow : hasBit s.bridge.card.cache.control dmaSelectBit = false :=
      Bool.eq_false_iff.mpr fun hhigh => by cases ht.select.mp hhigh
    cases hup : hasBit data dmaSelectBit with
    | false =>
      have hcell : (s.bridge.isr (.write .control data)).1.card.cache.status = s.bridge.card.cache.status := by
        rw [hcache, predicted_plain hr (hup.trans hlow.symm)]
      by_cases hroom : s.bridge.Room
      · refine ⟨_, _, ht.heard hreset rfl hroom (.configure _ hr hup) ?_ ?_ ?_ ?_ hs⟩
        · rw [hcell, transitionAt_self]
        · rw [hcell]
          exact ht.shows
        · rw [hfree]
          show Turn.At _ (if hasBit data dmaSelectBit then Turn.selected else .free) _
          rw [if_neg (Bool.eq_false_iff.mp hup)]
          exact .free
        · rw [hselect, hup]
          exact iff_of_false (by simp) (by simp)
      · exact ⟨_, _, ht.unheard hreset (.inr hroom) hcell (hselect.trans (hup.trans hlow.symm)) hs⟩
    | true =>
      have hroom : s.bridge.Room := hpatient (by rw [hup, hlow]; exact Bool.noConfusion)
      have hcell : (s.bridge.isr (.write .control data)).1.card.cache.status = sasiBsyBit := by
        rw [hcache, predicted_select hr hup hlow]
        rfl
      refine ⟨_, _, ht.heard hreset rfl hroom (.select _ hr hup) ?_ ?_ ?_ ?_ hs⟩
      · have hphase : s.bridge.card.cache.status &&& phaseMask = 0 := ht.shows
        exact transitionAt_none (by rw [hphase]; decide) (by rw [hphase]; decide) _ _
      · rw [hcell]
        exact (by decide : sasiBsyBit &&& phaseMask = 0)
      · rw [hfree]
        show Turn.At _ (if hasBit data dmaSelectBit then Turn.selected else .free) _
        rw [if_pos hup]
        exact .selected
      · rw [hselect, hup]
        exact iff_of_true rfl rfl
  · have hh : h = .selected := by
      have hat := ht.turn
      rw [hselected] at hat
      cases hat
      rfl
    subst hh
    have hhigh : hasBit s.bridge.card.cache.control dmaSelectBit = true := ht.select.mpr rfl
    have hroom : s.bridge.Room := hpatient (by rw [hdown, hhigh]; exact Bool.noConfusion)
    have hcell : (s.bridge.isr (.write .control data)).1.card.cache.status =
        sasiBsyBit ||| sasiReqBit ||| sasiCtlBit := by
      rw [hcache, predicted_release hr hdown hhigh]
      rfl
    refine ⟨_, _, ht.heard hreset rfl hroom (.release _ hr hdown) ?_ ?_ ?_ ?_ hs⟩
    · have hphase : s.bridge.card.cache.status &&& phaseMask = 0 := ht.shows
      exact transitionAt_none (by rw [hphase]; decide) (by rw [hphase]; decide) _ _
    · rw [hcell]
      exact (by decide : (sasiBsyBit ||| sasiReqBit ||| sasiCtlBit) &&& phaseMask = sasiCtlBit)
    · rw [hselected]
      show Turn.At _ (if hasBit data dmaSelectBit then Turn.selected else .command []) _
      rw [if_neg (Bool.eq_false_iff.mp hdown)]
      exact .command (by decide)
    · rw [hselect, hdown]
      exact iff_of_false (by simp) (by simp)

/-- One access of the host. -/
theorem Replay.Tracks.host (ht : s.Tracks w h ms) (hadmits : s.Admits (.fifo event : BusLabel Io σ))
    (hpatient : s.Patient (.fifo event : BusLabel Io σ)) {s' : Replay σ n}
    (hs : s.step reg (.fifo event) = some s') : ∃ h' ms', s'.Tracks w h' ms' := by
  cases hdeferred : isDeferred event with
  | false =>
    obtain ⟨hcell, hcontrol⟩ := isr_aside s.bridge hdeferred
    have hreset : isResetWrite event = false := by
      cases event with
      | write target data => cases target <;> first | rfl | cases hdeferred
      | _ => rfl
    exact ⟨h, ms, ht.unheard hreset (.inl hdeferred) hcell (by rw [hcontrol]) hs⟩
  | true =>
    cases event with
    | prefetch target => cases hdeferred
    | unknown => cases hdeferred
    | readCommit target =>
      cases target with
      | data => exact ht.dataRead hpatient hs
      | _ => cases hdeferred
    | write target data =>
      cases target with
      | control => exact ht.controlWrite hadmits hpatient hs
      | data => exact ht.dataWrite hadmits hs
      | status | statusAlias => exact hadmits.elim
      | _ => cases hdeferred

lemma Replay.Tracks.service (ht : s.Tracks w h ms) {storage : Routing σ} {s' : Replay σ n}
    (hs : s.step reg (.service storage) = some s') : s'.Tracks w h ms := by
  unfold Replay.step Bridge.service at hs
  dsimp only at hs
  split at hs
  · cases hs
    exact ⟨ht.holds, ht.path, ht.moves, ht.shows, ht.turn, ht.select, ht.requested, ht.synced⟩
  · cases hs

end Host

/-- Whatever the host reads and when: after a run in which no queued DATA read falls between the
last byte of a command and its answer, and no move of SELECT is lost, an empty queue means that
the worker has made the handler's transitions and that bus and STATUS show one phase. -/
theorem dataReads_replayed (reg : Registry Io σ) {ram : ℕ → Byte} {storage : Routing σ}
    {chan : MgmtChan n} {labels : List (BusLabel Io σ)} {s : Replay σ n}
    (h : Guarded (Replay.step reg) (fun s label => s.Admits label ∧ s.Patient label)
      (.initial ram storage chan) labels s) (hq : s.bridge.queue = []) :
    s.workerMoves = s.handlerMoves ∧
      s.bridge.cachedPhase = s.bridge.card.dma.busCtrl &&& phaseMask := by
  have hstep (s : Replay σ n) (label : BusLabel Io σ) (s' : Replay σ n)
      (ht : ∃ w h ms, s.Tracks w h ms) (hg : s.Admits label ∧ s.Patient label)
      (hs : s.step reg label = some s') : ∃ w h ms, s'.Tracks w h ms := by
    obtain ⟨w, h, ms, ht⟩ := ht
    cases label with
    | fifo event => exact ⟨w, ht.host hg.1 hg.2 hs⟩
    | worker io => exact ht.worker hs
    | service storage => exact ⟨w, h, ms, ht.service hs⟩
  obtain ⟨w, h, ms, ht⟩ := h.invariant hstep ⟨_, _, _, initial_tracks ram storage chan⟩
  exact ht.drained hq

instance (dma : Bool) (cell : Byte) : (turn : Turn) → Decidable (turn.Writes dma cell)
  | .free => isTrue trivial
  | .selected => isFalse id
  | .command _ => inferInstanceAs (Decidable (_ ∨ _))
  | .list _ => inferInstanceAs (Decidable (_ ≠ _))

instance (dma : Bool) : (turn : Turn) → Decidable (turn.Done dma)
  | .free | .selected => isFalse id
  | .command _ => inferInstanceAs (Decidable (_ ∧ _))
  | .list _ => inferInstanceAs (Decidable (_ = _))

instance (s : Replay σ n) : Decidable s.Awaiting := inferInstanceAs (Decidable (_ ∧ _))

instance (s : Replay σ n) : (label : BusLabel Io σ) → Decidable (s.Admits label)
  | .fifo (.write .control _) => inferInstanceAs (Decidable (_ ∧ _))
  | .fifo (.write .data _) => inferInstanceAs (Decidable (s.turn.Writes s.dma s.bridge.card.cache.status))
  | .fifo (.write .status _) | .fifo (.write .statusAlias _) => isFalse id
  | .fifo (.write .addrL _) | .fifo (.write .addrM _) | .fifo (.write .addrH _)
  | .fifo (.write .mgmtCmd _) | .fifo (.write .mgmtStatus _) | .fifo (.write .mgmtResp _)
  | .fifo (.write .unused _) | .fifo (.write .outside _) | .fifo (.prefetch _)
  | .fifo (.readCommit _) | .fifo .unknown | .worker _ | .service _ => isTrue trivial

instance (s : Replay σ n) : (label : BusLabel Io σ) → Decidable (s.Patient label)
  | .fifo (.readCommit .data) => inferInstanceAs (Decidable (s.bridge.Room → ¬ s.Awaiting))
  | .fifo (.write .control data) => inferInstanceAs (Decidable
    (hasBit data dmaSelectBit ≠ hasBit s.bridge.card.cache.control dmaSelectBit → s.bridge.Room))
  | .fifo (.write .data _) | .fifo (.write .status _) | .fifo (.write .statusAlias _)
  | .fifo (.write .addrL _) | .fifo (.write .addrM _) | .fifo (.write .addrH _)
  | .fifo (.write .mgmtCmd _) | .fifo (.write .mgmtStatus _) | .fifo (.write .mgmtResp _)
  | .fifo (.write .unused _) | .fifo (.write .outside _) | .fifo (.prefetch _)
  | .fifo (.readCommit .control) | .fifo (.readCommit .status) | .fifo (.readCommit .statusAlias)
  | .fifo (.readCommit .addrL) | .fifo (.readCommit .addrM) | .fifo (.readCommit .addrH)
  | .fifo (.readCommit .mgmtCmd) | .fifo (.readCommit .mgmtStatus) | .fifo (.readCommit .mgmtResp)
  | .fifo (.readCommit .unused) | .fifo (.readCommit .outside) | .fifo .unknown
  | .worker _ | .service _ => isTrue trivial

def bareReplay : Replay Unit 2 := .initial (fun _ => 0) (.initial ()) (.initial Nat.two_pos)

/-- SELECT and the first five bytes of TEST UNIT READY, with a DATA read in front of each byte. -/
def almostReady : List (BusLabel Unit Unit) :=
  [.fifo (.write .data 0x01), .fifo (.write .control 0x10), .fifo (.write .control 0x00)] ++
    (List.replicate 5 [.fifo (.readCommit .data), .fifo (.write .data 0x00)]).flatten

/-- The last byte, and the two reads that follow the status. -/
def readInTime : List (BusLabel Unit Unit) :=
  almostReady ++ .fifo (.write .data 0x00) :: workerTurns 14 ++
    [.fifo (.readCommit .data), .fifo (.readCommit .data)] ++ workerTurns 2

def followReplay (guard : Replay Unit 2 → BusLabel Unit Unit → Prop) [∀ s l, Decidable (guard s l)]
    (labels : List (BusLabel Unit Unit)) : Option (Replay Unit 2) :=
  follow (Replay.step fun _ => none) guard bareReplay labels

theorem dataReads_replayed_ready :
    ∃ s, followReplay (fun s label => s.Admits label ∧ s.Patient label) readInTime = some s ∧
      s.handlerMoves = [(15, .statusToMessage), (16, .messageToFree)] ∧
      s.workerMoves = s.handlerMoves := by
  obtain ⟨s, hs⟩ : ∃ s, followReplay (fun s label => s.Admits label ∧ s.Patient label) readInTime = some s :=
    Option.isSome_iff_exists.mp (by decide +kernel)
  have hqueue : (followReplay (fun s label => s.Admits label ∧ s.Patient label) readInTime).map
      (·.bridge.queue) = some [] := by decide +kernel
  have hmoves : (followReplay (fun s label => s.Admits label ∧ s.Patient label) readInTime).map
      (·.handlerMoves) = some [(15, .statusToMessage), (16, .messageToFree)] := by decide +kernel
  rw [hs] at hqueue hmoves
  have hreplayed := dataReads_replayed _ (Guarded.of_follow hs) (Option.some.inj hqueue)
  exact ⟨s, hs, Option.some.inj hmoves, hreplayed.1⟩

/-- The read comes right behind the last byte. -/
def readTooSoon : List (BusLabel Unit Unit) :=
  almostReady ++ [.fifo (.write .data 0x00), .fifo (.readCommit .data)] ++ workerTurns 15

/-- The handler leaves the command phase alone, and the worker takes the read for one of the status. -/
theorem dataReads_diverge :
    ∃ s, Guarded (Replay.step fun _ => none) (fun s label => s.Admits label) bareReplay readTooSoon s ∧
      s.bridge.queue = [] ∧ s.handlerMoves = [] ∧ s.workerMoves = [(15, .statusToMessage)] ∧
      s.bridge.cachedPhase = sasiCtlBit ||| sasiInpBit ∧
      s.bridge.card.dma.busCtrl &&& phaseMask = phaseMask := by
  obtain ⟨s, hs⟩ : ∃ s, followReplay (fun s label => s.Admits label) readTooSoon = some s :=
    Option.isSome_iff_exists.mp (by decide +kernel)
  have hmoves : (followReplay (fun s label => s.Admits label) readTooSoon).map
      (fun s => (s.bridge.queue, s.handlerMoves, s.workerMoves)) =
      some ([], [], [(15, .statusToMessage)]) := by decide +kernel
  have hphase : (followReplay (fun s label => s.Admits label) readTooSoon).map
      (fun s => (s.bridge.cachedPhase, s.bridge.card.dma.busCtrl &&& phaseMask)) =
      some (sasiCtlBit ||| sasiInpBit, phaseMask) := by decide +kernel
  rw [hs] at hmoves hphase
  simp only [Option.map_some, Option.some.injEq, Prod.mk.injEq] at hmoves hphase
  obtain ⟨hqueue, hhandler, hworker⟩ := hmoves
  exact ⟨s, Guarded.of_follow hs, hqueue, hhandler, hworker, hphase⟩

end PicoV9k.Sasi
