import PicoV9k.MgmtStream

/-!
# Delivery of a blob

`mgmt_chan_blob_send` against a Victor that may stop reading or ask for a reset at
any time, the echo cell notwithstanding: the call returns true only after everything
in front of it has been acknowledged.
-/
namespace PicoV9k.Mgmt
open PicoV9k.Bus PicoV9k.Rings PicoV9k.Scripts PicoV9k.Runs

variable {n : ℕ}

/-- What the Victor has read and acknowledged. -/
def Stream.acknowledged (v : Stream) : List Byte :=
  match v.mode with
  | .taken _ => v.received.dropLast
  | _ => v.received

abbrev VictorMoves : World n → World n → Prop := EnvRel restlessStep fun _ _ => True

/-- The request for a reset stays as it is. -/
def KeepsReset (s s' : World n) : Prop := s'.chan.resetReq = s.chan.resetReq

/-- Between two calls core 0 and the Victor agree on what has been published. -/
theorem idle_linked (hn : 2 ≤ n) {moves : List (Move Call Access)} {m : Machine (World n)}
    (hrun : Guarded (Machine.step callBody restlessStep) (Move.Admits ResetDistinct) (start hn) moves m)
    (hidle : m.code = .ret ()) : Linked m.shared := by
  have hverified := Machine.run_verified (fun c _ hs => callBody_safe c hs) hrun (start_verified hn)
  rw [Machine.Verified, hidle] at hverified
  exact (hverified m.shared .refl).2.1

/-- What an access of the Victor leaves alone. -/
structure Undisturbed (s s' : World n) : Prop where
  linked : Linked s'
  quiet : Quiet s → Quiet s'
  line : (∀ moving, s'.line moving = s.line moving) ∨ Abandoned s'
  core0 : SameCore0 s.chan s'.chan
  pending : s.chan.resetReq = true → s'.chan.resetReq = true
  abandoned : Abandoned s → Abandoned s'

lemma Quiet.not_abandoned {s : World n} (hq : Quiet s) : ¬ Abandoned s := fun h => h.unacked hq.served

lemma Undisturbed.steady {s s' : World n} (h : Undisturbed s s') (hq : Quiet s) (moving : List Byte) :
    s'.line moving = s.line moving := by
  rcases h.line with hline | hlost
  · exact hline moving
  · exact absurd hlost (h.quiet hq).not_abandoned

lemma Moved.pending {s s' : World n} (h : Moved s s') (hreq : s.chan.resetReq = true) :
    s'.chan.resetReq = true := by
  cases h with
  | reset _ _ => rfl
  | command data _ =>
    simp only [World.regWrite, mgmtChanRegWrite_eq]
    simpa using hreq
  | _ => exact hreq

/-- A Victor that has dropped its handshake sees nothing new under the phase it has seen. -/
lemma Moved.abandoned {s s' : World n} (hl : Linked s) (h : Moved s s') (ha : Abandoned s) :
    Abandoned s' := by
  have hshown : s.chan.Shown := by
    rcases hl with hq | ho
    · exact hq.shown
    · exact ho.shown
  have hmode := ha.mode
  have hreq := h.pending ha.pending
  cases h with
  | stay => exact ha
  | offer hpolling _ hphase =>
    rw [hpolling] at hmode
    rw [hshown.2] at hphase
    exact absurd hmode.symm hphase
  | seed _ => exact ⟨hreq, ha.unacked, hshown.2⟩
  | take _ htaken | acknowledge _ htaken =>
    rw [htaken] at hmode
    exact hmode.elim
  | reset _ _ | echo _ _ => exact ⟨hreq, ha.unacked, trivial⟩
  | command data _ =>
    simp only [World.regWrite, mgmtChanRegWrite_eq] at hreq ⊢
    exact ⟨hreq, ha.unacked, hmode⟩

lemma Moved.undisturbed {s s' : World n} (hl : Linked s) (h : Moved s s') : Undisturbed s s' where
  linked := hl.moved h
  quiet := fun hq => hq.moved h
  line := h.line hl
  core0 := h.core0
  pending := h.pending
  abandoned := h.abandoned hl

/-- The request for a reset abandons a byte that has been read and not acknowledged. -/
lemma undisturbed_reset {s : World n} (hl : Linked s) (data : Byte) :
    Undisturbed s ((s.regWrite .mgmtStatus data).setMode .waiting) where
  linked := by
    rcases hl with hq | ho
    · exact .inl ⟨hq.served, hq.shown, trivial⟩
    · exact .inr ⟨ho.served, ho.shown, ho.ready, trivial⟩
  quiet := fun hq => ⟨hq.served, hq.shown, trivial⟩
  line := line_reset hl data
  core0 := ⟨rfl, rfl, rfl, rfl, rfl, rfl, rfl⟩
  pending := fun _ => rfl
  abandoned := fun ha => ⟨rfl, ha.unacked, trivial⟩

/-- A command byte does not touch the stream. -/
lemma undisturbed_command {s : World n} (hl : Linked s) (data : Byte) :
    Undisturbed s (s.regWrite .mgmtCmd data) := by
  simp only [World.regWrite, mgmtChanRegWrite_eq]
  refine ⟨?_, fun hq => ⟨hq.served, hq.shown, hq.victor⟩, .inl fun _ => rfl,
    ⟨rfl, rfl, rfl, rfl, rfl, rfl, rfl⟩, fun hreq => by simpa using hreq, fun ha => ?_⟩
  · rcases hl with hq | ho
    · exact .inl ⟨hq.served, hq.shown, hq.victor⟩
    · exact .inr ⟨ho.served, ho.shown, ho.ready, ho.victor⟩
  · exact ⟨by simpa using ha.pending, ha.unacked, ha.mode⟩

lemma undisturbed_of_moves {s s' : World n} (hl : Linked s) (h : VictorMoves s s') :
    Undisturbed s s' := by
  obtain ⟨access, _, hstep⟩ := h
  cases access with
  | read reg => exact (moved_of_interferes ⟨.read reg, trivial, hstep⟩).undisturbed hl
  | write reg data =>
    cases reg with
    | mgmtStatus =>
      cases hstep
      exact undisturbed_reset hl data
    | mgmtCmd =>
      have hwrite : s' = s.regWrite .mgmtCmd data := by
        simp only [restlessStep, victorStep] at hstep
        split at hstep <;> cases hstep <;> rfl
      exact hwrite ▸ undisturbed_command hl data
    | mgmtResp => exact (moved_of_interferes ⟨.write .mgmtResp data, trivial, hstep⟩).undisturbed hl
    | _ => cases hstep

abbrev BlobPoint (n : ℕ) := Script.Point (VictorMoves (n := n)) fun _ => True

/-- Between publications: the line ahead of `todo` makes up `total`, or no byte will move
before the next reset. -/
def deliveryPoint (total todo : List Byte) (K : MgmtChan n → Prop) (hK : Core0 K) : BlobPoint n where
  holds s := Linked s ∧ (s.line [] ++ todo = total ∨ Abandoned s) ∧ K s.chan
  stable := by
    rintro s s' ⟨hl, hline, hk⟩ hstep
    have hu := undisturbed_of_moves hl hstep
    refine ⟨hu.linked, ?_, hK _ _ hu.core0 hk⟩
    rcases hline with hline | ha
    · exact hu.line.imp_left fun heq => by rw [heq, hline]
    · exact .inr (hu.abandoned ha)
  safe := fun _ _ => trivial

/-- The last byte is acknowledged, and `moving` is on its way to the RESP cell. -/
def pausePoint (total moving todo : List Byte) (K : MgmtChan n → Prop) (hK : Core0 K) : BlobPoint n where
  holds s := Quiet s ∧ s.line moving ++ todo = total ∧ K s.chan
  stable := by
    rintro s s' ⟨hq, hline, hk⟩ hstep
    have hu := undisturbed_of_moves (.inl hq) hstep
    exact ⟨hu.quiet hq, by rw [hu.steady hq, hline], hK _ _ hu.core0 hk⟩
  safe := fun _ _ => trivial

/-- The call has given up. -/
def abortedPoint (n : ℕ) : BlobPoint n where
  holds s := Linked s ∧ (s.chan.overflow = true ∨ s.chan.resetReq = true)
  stable := by
    rintro s s' ⟨hl, hwhy⟩ hstep
    have hu := undisturbed_of_moves hl hstep
    exact ⟨hu.linked, hwhy.imp (fun ho => hu.core0.overflow.trans ho) hu.pending⟩
  safe := fun _ _ => trivial

def drained (c : MgmtChan n) : Prop := c.resp.contents = []

lemma drained_core0 : Core0 (n := n) drained := by
  intro c c' h hk
  unfold drained
  rw [h.resp]
  exact hk

abbrev openPoint (total todo : List Byte) : BlobPoint n :=
  deliveryPoint total todo (overflowIs false) (overflowIs_core0 false)

abbrev spacePoint (total todo : List Byte) : BlobPoint n := deliveryPoint total todo roomy roomy_core0

abbrev deliveredPoint (total : List Byte) : BlobPoint n := pausePoint total [] [] drained drained_core0

abbrev BlobSafe {α : Type} (c : Script (World n) α) (post : α → World n → Prop) (s : World n) : Prop :=
  c.Safe VictorMoves KeepsReset (fun _ => True) post s

variable {β : Type} {s : World n} {post : β → World n → Prop} {total todo : List Byte}

lemma blob_now {f : MgmtChan n → Script (World n) β} (p : BlobPoint n) (hs : p.holds s)
    (h : ∀ t, p.holds t → BlobSafe (f t.chan) post t) : BlobSafe (now >>= f) post s :=
  Script.Safe.act p hs (fun _ _ => rfl) h

lemma blob_end {b : β} (p : BlobPoint n) (hs : p.holds s) (hpost : ∀ t, p.holds t → post b t) :
    BlobSafe (pure b) post s :=
  Script.Safe.ret p hs hpost

/-- One publish step keeps the line. -/
lemma mgmtChanPublish_keeps (hs : (openPoint total todo).holds s) :
    BlobSafe mgmtChanPublish (fun _ t => (openPoint total todo).holds t) s := by
  refine blob_now (openPoint total todo) hs fun t ht => ?_
  obtain ⟨hl, hline, ho⟩ := ht
  split
  next hacked =>
    have hq := hl.quiet hacked
    have hwhole := hline.resolve_right hq.not_abandoned
    split
    next hne =>
      refine Script.Safe.act (pausePoint total [] todo (stocked false) (stocked_core0 false))
        ⟨hq, hwhole, ho, hne⟩ (fun _ _ => rfl) fun t ht => ?_
      obtain ⟨hq, hline, ho, hne⟩ := ht
      -- the byte has left the FIFO and is not announced yet
      refine Script.Safe.act
        (pausePoint total [t.chan.resp.peek] todo (byteIs false t.chan.resp.peek) (byteIs_core0 _ _))
        ⟨⟨hq.served, hq.shown, hq.victor⟩, ?_, ho, rfl⟩ (fun _ _ => rfl) fun t' ht' => ?_
      · rw [line_takeNext hq hne, hline]
      · obtain ⟨hq', hline', ho', hb⟩ := ht'
        refine Script.Safe.ret (openPoint total todo) ⟨.inr hq'.announced, .inl ?_, ho'⟩ fun _ h => h
        rw [line_announce hq', hb, hline']
    next hempty =>
      split
      next hready =>
        refine Script.Safe.act (pausePoint total [] todo (overflowIs false) (overflowIs_core0 false))
          ⟨hq, hwhole, ho⟩ (fun _ _ => rfl) fun t' ht' => ?_
        obtain ⟨hq', hline', ho'⟩ := ht'
        exact blob_end (openPoint total todo) ⟨.inl hq'.dropReady, .inl hline', ho'⟩ fun _ h => h
      · exact blob_end (openPoint total todo) ⟨hl, hline, ho⟩ fun _ h => h
  · exact blob_end (openPoint total todo) ⟨hl, hline, ho⟩ fun _ h => h

lemma latchOverflow_aborts (hs : (openPoint total todo).holds s) :
    BlobSafe latchOverflow (fun _ t => (abortedPoint n).holds t) s :=
  Script.Safe.act (openPoint total todo) hs (fun _ _ => rfl) fun _ ht =>
    Script.Safe.ret (abortedPoint n) ⟨ht.1.latched, .inl rfl⟩ fun _ h => h

/-- Room for the next byte, or a reason to give up. -/
def spacePost (total todo : List Byte) (r : Room) (t : World n) : Prop :=
  if r = .room then (spacePoint total todo).holds t else (abortedPoint n).holds t

lemma respRoomRound_keeps (spins : ℕ) (hs : (openPoint total todo).holds s) :
    BlobSafe (respRoomRound true spins)
      (fun r t => Sum.elim (fun _ => (openPoint total todo).holds t) (fun r => spacePost total todo r t) r)
      s := by
  refine blob_now (openPoint total todo) hs fun t ht => ?_
  obtain ⟨hl, hline, ho⟩ := ht
  split
  next hroom => exact blob_end (spacePoint total todo) ⟨hl, hline, ho, hroom⟩ fun _ h => h
  next hfull =>
    split
    next hreset => exact blob_end (abortedPoint n) ⟨hl, .inr hreset.2⟩ fun _ h => h
    · refine Script.Safe.bind (mgmtChanPublish_keeps ⟨hl, hline, ho⟩) fun _ t ht => ?_
      refine blob_now (openPoint total todo) ht fun t ht => ?_
      obtain ⟨hl, hline, ho⟩ := ht
      split
      next hroom => exact blob_end (spacePoint total todo) ⟨hl, hline, ho, hroom⟩ fun _ h => h
      · split
        · refine Script.Safe.bind (latchOverflow_aborts ⟨hl, hline, ho⟩) fun _ t ht => ?_
          exact blob_end (abortedPoint n) ht fun _ h => h
        · exact blob_end (openPoint total todo) ⟨hl, hline, ho⟩ fun _ h => h

lemma respRoom_keeps (hs : (openPoint total todo).holds s) :
    BlobSafe (respRoom true) (spacePost total todo) s := by
  refine Script.Safe.iterate (fun _ t => (openPoint total todo).holds t) hs
    (fun spins t ht => respRoomRound_keeps spins ht) fun r t ht => ?_
  unfold spacePost at ht
  split at ht
  next hr => exact blob_end (spacePoint total todo) ht fun _ h => by rwa [spacePost, if_pos hr]
  next hr => exact blob_end (abortedPoint n) ht fun _ h => by rwa [spacePost, if_neg hr]

/-- Everything is on the line, or the copy has given up. -/
def copyPost (total : List Byte) (copied : Bool) (t : World n) : Prop :=
  if copied then (openPoint total []).holds t else (abortedPoint n).holds t

lemma blobCopy_keeps {buf : List Byte} (hs : (openPoint total buf).holds s) :
    BlobSafe (blobCopy buf) (copyPost total) s := by
  induction buf generalizing s with
  | nil => exact blob_end (openPoint total []) hs fun _ h => h
  | cons b buf ih =>
    refine Script.Safe.bind (respRoom_keeps hs) fun r t ht => ?_
    unfold spacePost at ht
    split
    next hr =>
      rw [if_pos hr] at ht
      refine Script.Safe.act (spacePoint total (b :: buf)) ht (fun _ _ => rfl) fun t ht => ih ?_
      obtain ⟨hl, hline, ho, hroom⟩ := ht
      refine ⟨?_, ?_, ho⟩
      · rcases hl with hq | hout
        · exact .inl ⟨hq.served, hq.shown, hq.victor⟩
        · exact .inr ⟨hout.served, hout.shown, hout.ready, hout.victor⟩
      · refine hline.imp (fun heq => ?_) fun ha => ⟨ha.pending, ha.unacked, ha.mode⟩
        rw [line_push b hroom, List.append_assoc]
        exact heq
    next hr =>
      rw [if_neg hr] at ht
      exact blob_end (abortedPoint n) ht fun _ h => h

/-- What the call leaves behind. -/
def blobPost (total : List Byte) (done : Bool) (t : World n) : Prop :=
  if done then (deliveredPoint total).holds t else (abortedPoint n).holds t

lemma blobDrainRound_keeps (spins : ℕ) (hs : (openPoint total []).holds s) :
    BlobSafe (blobDrainRound spins)
      (fun r t => Sum.elim (fun _ => (openPoint total []).holds t) (fun done => blobPost total done t) r)
      s := by
  refine blob_now (openPoint total []) hs fun t ht => ?_
  split
  next hdone =>
    obtain ⟨hl, hline, _⟩ := ht
    have hq := hl.quiet hdone.2
    have hwhole := hline.resolve_right hq.not_abandoned
    exact blob_end (deliveredPoint total) ⟨hq, hwhole, Ring.isEmpty_iff.mp hdone.1⟩ fun _ h => h
  · refine blob_now (openPoint total []) ht fun t ht => ?_
    split
    next hreset => exact blob_end (abortedPoint n) ⟨ht.1, .inr hreset⟩ fun _ h => h
    · refine blob_now (openPoint total []) ht fun t ht => ?_
      refine Script.Safe.bind (mgmtChanPublish_keeps ht) fun _ t ht => ?_
      refine blob_now (openPoint total []) ht fun t ht => ?_
      split
      · exact blob_end (openPoint total []) ht fun _ h => h
      · split
        · refine Script.Safe.bind (latchOverflow_aborts ht) fun _ t ht => ?_
          exact blob_end (abortedPoint n) ht fun _ h => h
        · exact blob_end (openPoint total []) ht fun _ h => h

lemma mgmtChanBlobSend_keeps (buf : List Byte) (hs : Linked s) :
    BlobSafe (mgmtChanBlobSend buf) (blobPost (s.line [] ++ buf)) s := by
  refine blob_now (deliveryPoint (s.line [] ++ buf) buf unconditional unconditional_core0)
    ⟨hs, .inl rfl, trivial⟩ fun t ht => ?_
  obtain ⟨hl, hline, _⟩ := ht
  split
  next hbail => exact blob_end (abortedPoint n) ⟨hl, hbail⟩ fun _ h => h
  next hopen =>
    have ho : t.chan.overflow = false := by simpa using (not_or.mp hopen).1
    refine Script.Safe.bind (blobCopy_keeps ⟨hl, hline, ho⟩) fun copied t ht => ?_
    unfold copyPost at ht
    split
    next hcopied =>
      rw [if_pos hcopied] at ht
      refine Script.Safe.iterate (fun _ t => (openPoint (s.line [] ++ buf) []).holds t) ht
        (fun spins t ht => blobDrainRound_keeps spins ht) fun done t ht => ?_
      cases done with
      | true => exact blob_end (deliveredPoint (s.line [] ++ buf)) ht fun _ h => h
      | false => exact blob_end (abortedPoint n) ht fun _ h => h
    next hcopied =>
      rw [if_neg hcopied] at ht
      exact blob_end (abortedPoint n) ht fun _ h => h

/-- A quiet Victor has acknowledged all it has received. -/
lemma Quiet.acknowledged {t : World n} (hq : Quiet t) : t.side.acknowledged = t.side.received := by
  have hv := hq.victor
  unfold Stream.acknowledged
  split
  next hmode =>
    rw [hmode] at hv
    exact hv.elim
  · rfl

/-- In every run in which no reset is requested while the echo cell reads as an acknowledgement:
whenever the call returns true, the FIFO is empty and the Victor has acknowledged what was under way
at the start of the call and the whole buffer behind it; whenever it returns false, OVERFLOW is
latched or a reset is pending. None of its steps touches the request for a reset. -/
theorem mgmtChanBlobSend_delivers (hn : 2 ≤ n) {moves : List (Move Call Access)} {m : Machine (World n)}
    (hrun : Guarded (Machine.step callBody restlessStep) (Move.Admits ResetDistinct) (start hn) moves m)
    (hidle : m.code = .ret ()) {buf : List Byte} {c : Script (World n) Bool} {t : World n}
    (hexec : Script.Execution VictorMoves (mgmtChanBlobSend buf, m.shared) (c, t)) :
    (c = .ret true → t.chan.resp.contents = [] ∧ t.chan.served = t.chan.ack ∧
      t.side.acknowledged = m.shared.line [] ++ buf) ∧
    (c = .ret false → t.chan.overflow = true ∨ t.chan.resetReq = true) ∧
    ∀ c' t', c.step t = some (c', t') → t'.chan.resetReq = t.chan.resetReq := by
  have hlinked : Linked m.shared := idle_linked hn hrun hidle
  have hsafe := (mgmtChanBlobSend_keeps buf hlinked).execution hexec
  refine ⟨?_, ?_, fun c' t' hstep => ?_⟩
  · rintro rfl
    obtain ⟨hq, hline, hempty⟩ := (hsafe t .refl).2
    refine ⟨hempty, hq.served, ?_⟩
    rw [hq.acknowledged, ← hline, World.line, unread_quiet hq.served, hempty]
    simp
  · rintro rfl
    exact (hsafe t .refl).2.2
  · have hkept : KeepsReset t t' := Script.Safe.guarantee (fun _ => rfl) hsafe hstep
    exact hkept

/-- One byte is queued in front of the blob. -/
def queueOne : List (Move Call Access) := .call (.respWrite [3]) :: cores 5

def queued : Machine (World 2) := (followMoves queueOne).get rfl

/-- The Victor takes the byte it is shown and acknowledges it. -/
def acceptOne : List (Option Access) :=
  [some (.read .mgmtStatus), some (.read .mgmtResp), some (.write .mgmtResp 0)]

/-- The FIFO holds one byte, so each byte of the blob waits for the one in front of it. -/
def blobTurns : List (Option Access) :=
  List.replicate 6 none ++ acceptOne ++ List.replicate 7 none ++ acceptOne ++
    List.replicate 9 none ++ acceptOne ++ List.replicate 3 none

theorem mgmtChanBlobSend_delivers_queued :
    queued.shared.chan.resp.contents = [3] ∧ ∃ t : World 2,
      Script.Execution VictorMoves (mgmtChanBlobSend [4, 5], queued.shared) (.ret true, t) ∧
      t.chan.resp.contents = [] ∧ t.side.acknowledged = queued.shared.line [] ++ [4, 5] := by
  have hrun := restless_run (Guarded.of_follow (show followMoves queueOne = some queued from rfl))
  let last := (Script.play restlessStep blobTurns (mgmtChanBlobSend [4, 5], queued.shared)).get rfl
  have hexec : Script.Execution VictorMoves (mgmtChanBlobSend [4, 5], queued.shared) (.ret true, last.2) :=
    Script.Execution.of_play (fun _ _ _ => trivial)
      (show Script.play restlessStep blobTurns _ = some (.ret true, last.2) from rfl)
  have hdone := (mgmtChanBlobSend_delivers (by decide) hrun rfl hexec).1 rfl
  exact ⟨rfl, last.2, hexec, hdone.1, hdone.2.2⟩

/-- A reset is written while the echo cell still reads 0xFF from power-up: the Victor takes it for
serviced and goes on reading, and core 0 services it before a byte is acknowledged. -/
def staleMoves : List (Move Call Access) :=
  [.env (.write .mgmtStatus 0), .env (.read .mgmtCmd), .env (.read .mgmtStatus), .call (.respWrite [1, 9])] ++
    cores 13 ++ [.env (.read .mgmtStatus), .env (.read .mgmtResp), .call .takeReset] ++ cores 9

def stale : Machine (World 2) := (followAny staleMoves).get rfl

/-- The late acknowledgement is taken for that of the blob. -/
def staleTurns : List (Option Access) :=
  List.replicate 19 none ++ [some (.write .mgmtResp 0)] ++ List.replicate 1 none

theorem mgmtChanBlobSend_unread :
    Run (Machine.step callBody victorStep) (start (n := 2) (by decide)) staleMoves stale ∧
      stale.code = .ret () ∧ ∃ t : World 2,
      Script.Execution (EnvRel victorStep fun _ _ => True) (mgmtChanBlobSend [2], stale.shared) (.ret true, t) ∧
      t.side.received = [] := by
  have hrun := Guarded.of_follow (show followAny staleMoves = some stale from rfl)
  let last := (Script.play victorStep staleTurns (mgmtChanBlobSend [2], stale.shared)).get rfl
  have hexec : Script.Execution (EnvRel victorStep fun _ _ => True) (mgmtChanBlobSend [2], stale.shared)
      (.ret true, last.2) :=
    Script.Execution.of_play (fun _ _ _ => trivial)
      (show Script.play victorStep staleTurns _ = some (.ret true, last.2) from rfl)
  exact ⟨hrun, rfl, last.2, hexec, rfl⟩

end PicoV9k.Mgmt
