import PicoV9k.MgmtChannel

/-!
# The response stream

A Victor that follows the phase protocol against any sequence of calls on core 0.
What it receives is always a prefix of what was sent since the last reset, provided
the echo cell cannot be mistaken for the acknowledgement of a reset.
-/
namespace PicoV9k.Mgmt
open PicoV9k.Bus PicoV9k.Rings PicoV9k.Scripts PicoV9k.Runs

/-- Where the Victor is in its loop: between polls, about to read the byte it saw
announced under a phase, about to acknowledge it, waiting for the end of a reset, or
about to seed its phase. -/
inductive VictorMode
  | polling
  | offered (phase : Bool)
  | taken (phase : Bool)
  | waiting
  | seeding
  deriving DecidableEq

/-- The Victor, with what it has received and what core 0 has been given to send
since the last serviced reset. -/
structure Stream where
  mode : VictorMode
  lastPhase : Bool
  received : List Byte
  sent : List Byte

variable {n : ℕ}

abbrev World (n : ℕ) := Shared n Stream

/-- One bus access of the Victor to the management registers. -/
inductive Access
  | read (reg : Reg)
  | write (reg : Reg) (data : Byte)
  deriving DecidableEq

def World.regWrite (s : World n) (reg : Reg) (data : Byte) : World n :=
  { s with chan := (mgmtChanRegWrite s.chan reg data).1 }

def World.setMode (s : World n) (mode : VictorMode) : World n :=
  { s with side := { s.side with mode := mode } }

/-- The accesses of the Victor, each possible in some of its modes only. -/
def victorStep (s : World n) : Access → Option (World n)
  | .read .mgmtStatus =>
    let phase := hasBit s.chan.status mgmtChanRespPhase
    match s.side.mode with
    | .polling =>
      some (if hasBit s.chan.status mgmtChanRespReady ∧ phase ≠ s.side.lastPhase then
        s.setMode (.offered phase) else s)
    | .seeding => some { s with side := { s.side with mode := .polling, lastPhase := phase } }
    | _ => none
  | .read .mgmtResp => match s.side.mode with
    | .offered phase =>
      some { s with side :=
        { s.side with mode := .taken phase, received := s.side.received ++ [s.chan.respByte] } }
    | _ => none
  | .write .mgmtResp data => match s.side.mode with
    | .taken phase =>
      some { s.regWrite .mgmtResp data with side := { s.side with mode := .polling, lastPhase := phase } }
    | _ => none
  | .write .mgmtStatus data => match s.side.mode with
    | .polling => some ((s.regWrite .mgmtStatus data).setMode .waiting)
    | _ => none
  | .read .mgmtCmd => match s.side.mode with
    | .waiting => some (if s.chan.cmdEcho = 0xFF then s.setMode .seeding else s)
    | _ => none
  | .write .mgmtCmd data => match s.side.mode with
    | .polling | .waiting => some (s.regWrite .mgmtCmd data)
    | _ => none
  | _ => none

/-- The echo cell tells a pending reset from a serviced one. -/
def EchoDistinct (s : World n) : Access → Prop
  | .write .mgmtStatus _ => s.chan.cmdEcho ≠ 0xFF
  | .write .mgmtCmd data => s.side.mode = .waiting → data ≠ 0
  | _ => True

/-- The Victor of the stream, which may also drop its handshake at any point for a reset. -/
def restlessStep (s : World n) : Access → Option (World n)
  | .write .mgmtStatus data => some ((s.regWrite .mgmtStatus data).setMode .waiting)
  | access => victorStep s access

/-- It asks for a reset only while the echo cell does not read as its acknowledgement, and not
again before it has seen that. -/
def ResetDistinct (s : World n) : Access → Prop
  | .write .mgmtStatus _ => s.chan.cmdEcho ≠ 0xFF ∧ s.side.mode ≠ .waiting
  | access => EchoDistinct s access

lemma restless_of_victor {s s' : World n} {access : Access} (hallow : EchoDistinct s access)
    (hstep : victorStep s access = some s') :
    ResetDistinct s access ∧ restlessStep s access = some s' := by
  cases access with
  | read reg => exact ⟨hallow, hstep⟩
  | write reg data =>
    cases reg with
    | mgmtStatus =>
      simp only [victorStep] at hstep
      split at hstep
      next hmode => exact ⟨⟨hallow, by rw [hmode]; decide⟩, hstep⟩
      · cases hstep
    | _ => exact ⟨hallow, hstep⟩

inductive Call
  | respWrite (buf : List Byte)
  | blobSend (buf : List Byte)
  | pump
  | takeReset
  | cmdPop

def World.send (s : World n) (buf : List Byte) : World n :=
  { s with side := { s.side with sent := s.side.sent ++ buf } }

/-- A serviced reset starts the stream afresh. -/
def World.restart (s : World n) : World n :=
  { s with side := { s.side with received := [], sent := [] } }

def callBody : Call → Script (World n) Unit
  | .respWrite buf => do
    Script.modify (World.send · buf)
    mgmtChanRespWrite buf
  | .blobSend buf => do
    Script.modify (World.send · buf)
    let _ ← mgmtChanBlobSend buf
  | .pump => mgmtChanPump
  | .takeReset => do
    let done ← mgmtChanTakeReset
    if done then Script.modify World.restart
  | .cmdPop => do
    let _ ← mgmtChanCmdPop

/-- Power-up, with a Victor that has seeded its phase. -/
def World.initial (hn : 0 < n) : World n := ⟨.initial hn, ⟨.polling, false, [], []⟩⟩

/-- The STATUS cell shows the flags of core 0. -/
def MgmtChan.Shown (c : MgmtChan n) : Prop :=
  hasBit c.status mgmtChanRespReady = c.respReady ∧ hasBit c.status mgmtChanRespPhase = c.phase

/-- Every published byte is acknowledged, and the Victor sees nothing new. -/
structure Quiet (s : World n) : Prop where
  served : s.chan.served = s.chan.ack
  shown : s.chan.Shown
  victor : match s.side.mode with
    | .polling => s.chan.respReady = true → s.side.lastPhase = s.chan.phase
    | .offered _ | .taken _ => False
    | .waiting | .seeding => True

/-- One published byte waits for its acknowledgement. -/
structure Outstanding (s : World n) : Prop where
  served : s.chan.served = s.chan.ack + 1
  shown : s.chan.Shown
  ready : s.chan.respReady = true
  victor : match s.side.mode with
    | .offered phase | .taken phase => phase = s.chan.phase
    | _ => True

/-- The published byte that a Victor in the given mode has not read. -/
def MgmtChan.unread (c : MgmtChan n) (mode : VictorMode) : List Byte :=
  if c.served = c.ack then []
  else match mode with
    | .taken _ => []
    | _ => [c.respByte]

/-- What has been received, is in flight or waits in the FIFO; `moving` is a byte
that core 0 has taken out of the FIFO and not yet announced. -/
def World.line (s : World n) (moving : List Byte) : List Byte :=
  s.side.received ++ s.chan.unread s.side.mode ++ moving ++ s.chan.resp.contents

/-- While no reset is pending nothing is missing from the line, or only a tail that
was dropped when OVERFLOW was latched. While one is pending the Victor waits. -/
structure Flow (s : World n) (moving todo : List Byte) : Prop where
  pending : s.chan.resetReq = true →
    s.side.mode = .waiting ∧ s.chan.cmdEcho ≠ 0xFF ∧ s.side.received <+: s.side.sent
  intact : s.chan.resetReq = false →
    s.line moving ++ todo = s.side.sent ∨ (s.chan.overflow = true ∧ s.line moving <+: s.side.sent)

/-- The Victor has received a prefix of what was sent. -/
def Faithful (s : World n) : Prop := s.side.received <+: s.side.sent

/-- Nothing is enqueued while OVERFLOW is latched; at most a pending reset flushes the FIFO. -/
def NoEnqueue (s s' : World n) : Prop :=
  s.chan.overflow = true → s'.chan.resp.head = s.chan.resp.head ∨
    (s.chan.resetReq = true ∧ s'.chan.resp.contents = [])

/-- What one admitted access of the Victor can do. -/
inductive Moved (s : World n) : World n → Prop
  | stay : Moved s s
  | offer (hmode : s.side.mode = .polling) (hready : hasBit s.chan.status mgmtChanRespReady = true)
      (hphase : hasBit s.chan.status mgmtChanRespPhase ≠ s.side.lastPhase) :
      Moved s (s.setMode (.offered (hasBit s.chan.status mgmtChanRespPhase)))
  | seed (hmode : s.side.mode = .seeding) :
      Moved s { s with side :=
        { s.side with mode := .polling, lastPhase := hasBit s.chan.status mgmtChanRespPhase } }
  | take (phase : Bool) (hmode : s.side.mode = .offered phase) :
      Moved s { s with side :=
        { s.side with mode := .taken phase, received := s.side.received ++ [s.chan.respByte] } }
  | acknowledge (phase : Bool) (hmode : s.side.mode = .taken phase) :
      Moved s { s with
        chan := { s.chan with ack := s.chan.ack + 1 }
        side := { s.side with mode := .polling, lastPhase := phase } }
  | reset (hmode : s.side.mode ≠ .waiting) (hecho : s.chan.cmdEcho ≠ 0xFF) :
      Moved s { s with
        chan := { s.chan with resetReq := true }, side := { s.side with mode := .waiting } }
  | echo (hmode : s.side.mode = .waiting) (hecho : s.chan.cmdEcho = 0xFF) : Moved s (s.setMode .seeding)
  | command (data : Byte) (hmode : s.side.mode = .polling ∨ s.side.mode = .waiting ∧ data ≠ 0) :
      Moved s (s.regWrite .mgmtCmd data)

abbrev Interferes : World n → World n → Prop := EnvRel restlessStep ResetDistinct

lemma moved_of_interferes {s s' : World n} (h : Interferes s s') : Moved s s' := by
  obtain ⟨access, hallow, hstep⟩ := h
  cases access with
  | read reg =>
    cases reg with
    | mgmtStatus =>
      simp only [restlessStep, victorStep] at hstep
      split at hstep
      next hmode =>
        cases hstep
        split
        next hnew => exact .offer hmode hnew.1 hnew.2
        · exact .stay
      next hmode =>
        cases hstep
        exact .seed hmode
      · cases hstep
    | mgmtResp =>
      simp only [restlessStep, victorStep] at hstep
      split at hstep
      next phase hmode =>
        cases hstep
        exact .take phase hmode
      · cases hstep
    | mgmtCmd =>
      simp only [restlessStep, victorStep] at hstep
      split at hstep
      next hmode =>
        cases hstep
        split
        next hecho => exact .echo hmode hecho
        · exact .stay
      · cases hstep
    | _ => cases hstep
  | write reg data =>
    cases reg with
    | mgmtStatus =>
      cases hstep
      exact .reset hallow.2 hallow.1
    | mgmtResp =>
      simp only [restlessStep, victorStep] at hstep
      split at hstep
      next phase hmode =>
        cases hstep
        exact .acknowledge phase hmode
      · cases hstep
    | mgmtCmd =>
      simp only [restlessStep, victorStep] at hstep
      split at hstep
      next hmode =>
        cases hstep
        exact .command data (.inl hmode)
      next hmode =>
        cases hstep
        exact .command data (.inr ⟨hmode, hallow hmode⟩)
      · cases hstep
    | _ => cases hstep

/-- The Victor leaves the fields of core 0 alone. -/
structure SameCore0 (c c' : MgmtChan n) : Prop where
  resp : c'.resp = c.resp
  respByte : c'.respByte = c.respByte
  status : c'.status = c.status
  served : c'.served = c.served
  overflow : c'.overflow = c.overflow
  respReady : c'.respReady = c.respReady
  phase : c'.phase = c.phase

lemma Moved.core0 {s s' : World n} (h : Moved s s') : SameCore0 s.chan s'.chan := by
  cases h with
  | command data _ =>
    simp only [World.regWrite, mgmtChanRegWrite_eq]
    exact ⟨rfl, rfl, rfl, rfl, rfl, rfl, rfl⟩
  | _ => exact ⟨rfl, rfl, rfl, rfl, rfl, rfl, rfl⟩

lemma Quiet.moved {s s' : World n} (hs : Quiet s) (h : Moved s s') : Quiet s' := by
  obtain ⟨hserved, hshown, hvictor⟩ := hs
  cases h with
  | stay => exact ⟨hserved, hshown, hvictor⟩
  | offer hmode hready hphase =>
    rw [hmode] at hvictor
    rw [hshown.2] at hphase
    exact absurd (hvictor (hshown.1 ▸ hready)).symm hphase
  | seed hmode => exact ⟨hserved, hshown, fun _ => hshown.2⟩
  | take phase hmode =>
    rw [hmode] at hvictor
    exact hvictor.elim
  | acknowledge phase hmode =>
    rw [hmode] at hvictor
    exact hvictor.elim
  | reset hmode hecho => exact ⟨hserved, hshown, trivial⟩
  | echo hmode hecho => exact ⟨hserved, hshown, trivial⟩
  | command data hmode =>
    simp only [World.regWrite, mgmtChanRegWrite_eq]
    exact ⟨hserved, hshown, hvictor⟩

lemma Outstanding.moved {s s' : World n} (hs : Outstanding s) (h : Moved s s') :
    Quiet s' ∨ Outstanding s' := by
  obtain ⟨hserved, hshown, hready, hvictor⟩ := hs
  cases h with
  | stay => exact .inr ⟨hserved, hshown, hready, hvictor⟩
  | offer hmode _ _ => exact .inr ⟨hserved, hshown, hready, hshown.2⟩
  | seed hmode => exact .inr ⟨hserved, hshown, hready, trivial⟩
  | take phase hmode =>
    rw [hmode] at hvictor
    exact .inr ⟨hserved, hshown, hready, hvictor⟩
  | acknowledge phase hmode =>
    rw [hmode] at hvictor
    exact .inl ⟨hserved, hshown, fun _ => hvictor⟩
  | reset hmode hecho => exact .inr ⟨hserved, hshown, hready, trivial⟩
  | echo hmode hecho => exact .inr ⟨hserved, hshown, hready, trivial⟩
  | command data hmode =>
    simp only [World.regWrite, mgmtChanRegWrite_eq]
    exact .inr ⟨hserved, hshown, hready, hvictor⟩

/-- Core 0 and the Victor agree on what has been published. -/
def Linked (s : World n) : Prop := Quiet s ∨ Outstanding s

lemma Linked.moved {s s' : World n} (hs : Linked s) (h : Moved s s') : Linked s' := by
  rcases hs with hs | hs
  · exact .inl (hs.moved h)
  · exact hs.moved h

lemma succ_ne (x : BitVec 32) : x + 1 ≠ x := by
  intro h
  have := congrArg BitVec.toNat h
  simp at this
  omega

lemma Flow.faithful {s : World n} {moving todo : List Byte} (h : Flow s moving todo) : Faithful s := by
  cases hreq : s.chan.resetReq with
  | true => exact (h.pending hreq).2.2
  | false =>
    have hline : s.side.received <+: s.line moving := by
      simp [World.line, List.append_assoc]
    rcases h.intact hreq with heq | ⟨_, hprefix⟩
    · exact hline.trans (heq ▸ List.prefix_append _ _)
    · exact hline.trans hprefix

lemma not_echoed {data : Byte} (h : data ≠ 0) : ~~~data ≠ 0xFF := by
  intro heq
  apply h
  have := congrArg (fun b => ~~~b) heq
  simpa using this

/-- A byte that is offered or taken is outstanding. -/
lemma Linked.outstanding {s : World n} (h : Linked s)
    (hmode : (∃ p, s.side.mode = .offered p) ∨ ∃ p, s.side.mode = .taken p) :
    s.chan.served ≠ s.chan.ack := by
  rcases h with hq | ho
  · have := hq.victor
    rcases hmode with ⟨p, hp⟩ | ⟨p, hp⟩
    · rw [hp] at this
      exact this.elim
    · rw [hp] at this
      exact this.elim
  · rw [ho.served]
    exact succ_ne _

/-- The Victor has dropped its handshake: the published byte will not be acknowledged
before the reset is serviced. -/
structure Abandoned (s : World n) : Prop where
  pending : s.chan.resetReq = true
  unacked : s.chan.served ≠ s.chan.ack
  mode : match s.side.mode with
    | .polling => s.side.lastPhase = s.chan.phase
    | .offered _ | .taken _ => False
    | .waiting | .seeding => True

/-- A request for a reset keeps the line, except for a byte that has been read and not acknowledged. -/
lemma line_reset {s : World n} (hl : Linked s) (data : Byte) :
    (∀ moving, ((s.regWrite .mgmtStatus data).setMode .waiting).line moving = s.line moving) ∨
      Abandoned ((s.regWrite .mgmtStatus data).setMode .waiting) := by
  cases hmode : s.side.mode with
  | taken phase => exact .inr ⟨rfl, hl.outstanding (.inr ⟨phase, hmode⟩), trivial⟩
  | _ =>
    refine .inl fun moving => ?_
    rw [World.line, World.line, hmode]
    rfl

/-- The Victor moves bytes along the line, unless it abandons one. -/
lemma Moved.line {s s' : World n} (hl : Linked s) (h : Moved s s') :
    (∀ moving, s'.line moving = s.line moving) ∨ Abandoned s' := by
  cases h with
  | stay => exact .inl fun _ => rfl
  | offer hmode _ _ | seed hmode | echo hmode _ =>
    refine .inl fun moving => ?_
    rw [World.line, World.line, hmode]
    rfl
  | reset hmode _ => exact line_reset hl 0
  | take phase hmode =>
    have hne := hl.outstanding (.inl ⟨phase, hmode⟩)
    exact .inl fun moving => by simp [World.line, MgmtChan.unread, hmode, hne]
  | acknowledge phase hmode =>
    have hne := hl.outstanding (.inr ⟨phase, hmode⟩)
    have hserved : s.chan.served = s.chan.ack + 1 := by
      rcases hl with hq | ho
      · exact absurd hq.served hne
      · exact ho.served
    exact .inl fun moving => by simp [World.line, MgmtChan.unread, hmode, hserved]
  | command data hmode =>
    simp only [World.regWrite, mgmtChanRegWrite_eq]
    exact .inl fun _ => rfl

lemma Moved.sent {s s' : World n} (h : Moved s s') : s'.side.sent = s.side.sent := by
  cases h <;> rfl

/-- While no reset is pending the line stays whole; a reset is started by waiting. -/
lemma Flow.moved {s s' : World n} {moving todo : List Byte} (hl : Linked s) (h : Flow s moving todo)
    (hm : Moved s s') : Flow s' moving todo := by
  have hkept (hreq : s.chan.resetReq = false) (hreq' : s'.chan.resetReq = false) :
      s'.line moving ++ todo = s'.side.sent ∨
        (s'.chan.overflow = true ∧ s'.line moving <+: s'.side.sent) := by
    rcases hm.line hl with hline | hlost
    · rw [hline, hm.sent, hm.core0.overflow]
      exact h.intact hreq
    · exact absurd (hlost.pending.symm.trans hreq') (by decide)
  have hidle {mode : VictorMode} (hmode : s.side.mode = mode) (hne : mode ≠ .waiting) :
      s.chan.resetReq ≠ true := fun hreq => hne (hmode.symm.trans (h.pending hreq).1)
  cases hm with
  | stay => exact h
  | offer hmode _ _ | seed hmode | take _ hmode | acknowledge _ hmode =>
    exact ⟨fun hreq => absurd hreq (hidle hmode (by simp)), fun hreq => hkept hreq hreq⟩
  | reset hmode hecho =>
    exact ⟨fun _ => ⟨rfl, hecho, h.faithful⟩, fun hreq => by cases hreq⟩
  | echo hmode hecho =>
    exact ⟨fun hreq => absurd hecho (h.pending hreq).2.1, fun hreq => hkept hreq hreq⟩
  | command data hmode =>
    simp only [World.regWrite, mgmtChanRegWrite_eq] at hkept ⊢
    refine ⟨fun hreq => ?_, fun hreq => hkept (by simpa using hreq) hreq⟩
    have hreq : s.chan.resetReq = true := by simpa using hreq
    obtain ⟨hwait, _, hpre⟩ := h.pending hreq
    have hdata : data ≠ 0 := by
      rcases hmode with hp | hw
      · rw [hwait] at hp
        cases hp
      · exact hw.2
    exact ⟨hwait, by simpa using not_echoed hdata, hpre⟩

/-- A condition on the fields of core 0. -/
def Core0 (K : MgmtChan n → Prop) : Prop := ∀ c c', SameCore0 c c' → K c → K c'

/-- Between publications. -/
def streamPoint (todo : List Byte) (K : MgmtChan n → Prop) (hK : Core0 K) :
    Script.Point (Interferes (n := n)) Faithful where
  holds s := Linked s ∧ Flow s [] todo ∧ K s.chan
  stable := by
    rintro s s' ⟨hl, hf, hk⟩ hstep
    have hm := moved_of_interferes hstep
    exact ⟨hl.moved hm, hf.moved hl hm, hK _ _ hm.core0 hk⟩
  safe := fun s h => h.2.1.faithful

/-- The last byte is acknowledged, and `moving` is on its way to the RESP cell. -/
def quietPoint (moving todo : List Byte) (K : MgmtChan n → Prop) (hK : Core0 K) :
    Script.Point (Interferes (n := n)) Faithful where
  holds s := Quiet s ∧ Flow s moving todo ∧ K s.chan
  stable := by
    rintro s s' ⟨hq, hf, hk⟩ hstep
    have hm := moved_of_interferes hstep
    exact ⟨hq.moved hm, hf.moved (.inl hq) hm, hK _ _ hm.core0 hk⟩
  safe := fun s h => h.2.1.faithful

abbrev StreamSafe {α : Type} (c : Script (World n) α) (post : α → World n → Prop) (s : World n) : Prop :=
  c.Safe Interferes NoEnqueue Faithful post s

abbrev StreamPoint (n : ℕ) := Script.Point (Interferes (n := n)) Faithful

variable {α β : Type} {s : World n} {post : β → World n → Prop}

lemma safe_now {f : MgmtChan n → Script (World n) β} (p : StreamPoint n) (hs : p.holds s)
    (h : ∀ t, p.holds t → StreamSafe (f t.chan) post t) : StreamSafe (now >>= f) post s :=
  Script.Safe.act p hs (fun _ _ _ => .inl rfl) h

lemma safe_onChan {g : MgmtChan n → MgmtChan n} {f : Unit → Script (World n) β} (p : StreamPoint n)
    (hs : p.holds s) (hg : ∀ t, p.holds t → NoEnqueue t { t with chan := g t.chan })
    (h : ∀ t, p.holds t → StreamSafe (f ()) post { t with chan := g t.chan }) :
    StreamSafe (onChan g >>= f) post s :=
  Script.Safe.act p hs hg h

lemma safe_pure {a : β} (p : StreamPoint n) (hs : p.holds s) (hpost : ∀ t, p.holds t → post a t) :
    StreamSafe (pure a) post s :=
  Script.Safe.ret p hs hpost

/-- An update as the last action of a script. -/
lemma safe_onChan_last {g : MgmtChan n → MgmtChan n} {post : Unit → World n → Prop}
    (p q : StreamPoint n) (hs : p.holds s)
    (hg : ∀ t, p.holds t → NoEnqueue t { t with chan := g t.chan })
    (hq : ∀ t, p.holds t → q.holds { t with chan := g t.chan })
    (hpost : ∀ t, q.holds t → post () t) : StreamSafe (onChan g) post s :=
  Script.Safe.act p hs hg fun t ht => Script.Safe.ret q (hq t ht) hpost

lemma safe_bind {c : Script (World n) α} {f : α → Script (World n) β} {mid : α → World n → Prop}
    (h : StreamSafe c mid s) (hf : ∀ a t, mid a t → StreamSafe (f a) post t) :
    StreamSafe (c >>= f) post s :=
  Script.Safe.bind h hf

lemma statusStore_shown (c : MgmtChan n) : c.statusStore.Shown :=
  ⟨statusBits_ready _ _ _ _, statusBits_phase _ _ _ _⟩

lemma unread_quiet {c : MgmtChan n} (h : c.served = c.ack) (mode : VictorMode) : c.unread mode = [] := by
  simp [MgmtChan.unread, h]

/-- Taking the next byte out of the FIFO. -/
lemma line_takeNext {t : World n} (hq : Quiet t) (hne : ¬ t.chan.resp.IsEmpty) :
    World.line { t with chan := t.chan.takeNext } [t.chan.resp.peek] = t.line [] := by
  have hserved : t.chan.takeNext.served = t.chan.takeNext.ack := hq.served
  simp only [World.line, unread_quiet hq.served, unread_quiet hserved, Ring.contents_pop hne,
    List.append_nil, List.append_assoc]
  rfl

lemma Flow.popped {t : World n} {todo : List Byte} (hq : Quiet t) (hne : ¬ t.chan.resp.IsEmpty)
    (h : Flow t [] todo) :
    Flow { t with chan := t.chan.takeNext } [t.chan.resp.peek] todo := by
  refine ⟨h.pending, fun hreq => ?_⟩
  rw [line_takeNext hq hne]
  exact h.intact hreq

/-- Announcing it makes it outstanding. -/
lemma Quiet.announced {t : World n} (hq : Quiet t) :
    Outstanding { t with chan := t.chan.announce } where
  served := congrArg (· + 1) hq.served
  shown := statusStore_shown _
  ready := rfl
  victor := by
    have hv := hq.victor
    dsimp only
    split <;> simp_all

lemma unread_announced {t : World n} (hq : Quiet t) :
    t.chan.announce.unread t.side.mode = [t.chan.respByte] := by
  have hne : t.chan.served + 1 ≠ t.chan.ack := hq.served ▸ succ_ne _
  have hv := hq.victor
  simp only [MgmtChan.unread, MgmtChan.announce, MgmtChan.statusStore, hne, ↓reduceIte]
  split
  next hmode =>
    rw [hmode] at hv
    exact hv.elim
  · rfl

lemma line_announce {t : World n} (hq : Quiet t) :
    World.line { t with chan := t.chan.announce } [] = t.line [t.chan.respByte] := by
  simp only [World.line, unread_announced hq, unread_quiet hq.served, List.append_nil]
  rfl

lemma Flow.announced {t : World n} {todo : List Byte} (hq : Quiet t)
    (h : Flow t [t.chan.respByte] todo) : Flow { t with chan := t.chan.announce } [] todo := by
  refine ⟨h.pending, fun hreq => ?_⟩
  rw [line_announce hq]
  exact h.intact hreq

lemma Quiet.dropReady {t : World n} (hq : Quiet t) : Quiet { t with chan := t.chan.dropReady } where
  served := hq.served
  shown := statusStore_shown _
  victor := by
    have hv := hq.victor
    dsimp only
    split <;> simp_all [MgmtChan.dropReady, MgmtChan.statusStore]

lemma Linked.quiet {t : World n} (hl : Linked t) (h : t.chan.served = t.chan.ack) : Quiet t := by
  rcases hl with hq | ho
  · exact hq
  · exact absurd (ho.served.symm.trans h) (succ_ne _)

def overflowIs (o : Bool) (c : MgmtChan n) : Prop := c.overflow = o

lemma overflowIs_core0 (o : Bool) : Core0 (n := n) (overflowIs o) :=
  fun _ _ h hk => h.overflow.trans hk

abbrev flowPoint (todo : List Byte) (o : Bool) : StreamPoint n :=
  streamPoint todo (overflowIs o) (overflowIs_core0 o)

def byteIs (o : Bool) (b : Byte) (c : MgmtChan n) : Prop := c.overflow = o ∧ c.respByte = b

lemma byteIs_core0 (o : Bool) (b : Byte) : Core0 (n := n) (byteIs o b) :=
  fun _ _ h hk => ⟨h.overflow.trans hk.1, h.respByte.trans hk.2⟩

def stocked (o : Bool) (c : MgmtChan n) : Prop := c.overflow = o ∧ ¬ c.resp.IsEmpty

lemma stocked_core0 (o : Bool) : Core0 (n := n) (stocked o) :=
  fun _ _ h hk => ⟨h.overflow.trans hk.1, h.resp ▸ hk.2⟩

/-- One publish step keeps the stream, whatever core 0 still has to send. -/
lemma mgmtChanPublish_safe {todo : List Byte} {o : Bool} (hs : (flowPoint todo o).holds s) :
    StreamSafe mgmtChanPublish (fun _ t => (flowPoint todo o).holds t) s := by
  refine safe_now (flowPoint todo o) hs fun t ht => ?_
  obtain ⟨hl, hf, ho⟩ := ht
  split
  next hacked =>
    have hq := hl.quiet hacked
    split
    next hne =>
      refine safe_onChan (quietPoint [] todo (stocked o) (stocked_core0 o)) ⟨hq, hf, ho, hne⟩
        (fun _ _ _ => .inl rfl) fun t ht => ?_
      obtain ⟨hq, hf, ho, hne⟩ := ht
      refine safe_onChan_last
        (quietPoint [t.chan.resp.peek] todo (byteIs o t.chan.resp.peek) (byteIs_core0 _ _))
        (flowPoint todo o) ⟨⟨hq.served, hq.shown, hq.victor⟩, hf.popped hq hne, ho, rfl⟩
        (fun _ _ _ => .inl rfl) (fun t' ht' => ?_) fun _ h => h
      obtain ⟨hq', hf', ho', hb⟩ := ht'
      exact ⟨.inr hq'.announced, (hb ▸ hf').announced hq', ho'⟩
    next hempty =>
      split
      next hready =>
        refine safe_onChan_last (quietPoint [] todo (overflowIs o) (overflowIs_core0 o))
          (flowPoint todo o) ⟨hq, hf, ho⟩ (fun _ _ _ => .inl rfl) (fun t' ht' => ?_) fun _ h => h
        obtain ⟨hq', hf', ho'⟩ := ht'
        exact ⟨.inl hq'.dropReady, ⟨hf'.pending, hf'.intact⟩, ho'⟩
      · exact safe_pure (flowPoint todo o) ⟨hl, hf, ho⟩ fun _ h => h
  · exact safe_pure (flowPoint todo o) ⟨hl, hf, ho⟩ fun _ h => h

def unconditional : MgmtChan n → Prop := fun _ => True

lemma unconditional_core0 : Core0 (n := n) unconditional := fun _ _ _ _ => trivial

/-- Between two calls: nothing is left to send. -/
abbrev idlePoint (n : ℕ) : StreamPoint n := streamPoint [] unconditional unconditional_core0

lemma flowPoint_of_idle {t : World n} (h : (idlePoint n).holds t) :
    (flowPoint [] t.chan.overflow).holds t := ⟨h.1, h.2.1, rfl⟩

lemma idle_of_flowPoint {t : World n} {o : Bool} (h : (flowPoint [] o).holds t) :
    (idlePoint n).holds t := ⟨h.1, h.2.1, trivial⟩

/-- What core 0 gives up may be dropped once a reset is pending or OVERFLOW is latched. -/
lemma Flow.drop {t : World n} {moving todo : List Byte} (h : Flow t moving todo)
    (hdrop : t.chan.resetReq = true ∨ t.chan.overflow = true) : Flow t moving [] := by
  refine ⟨h.pending, fun hreq => ?_⟩
  have ho : t.chan.overflow = true := by
    rcases hdrop with hr | ho
    · rw [hreq] at hr
      cases hr
    · exact ho
  rcases h.intact hreq with heq | hpre
  · exact .inr ⟨ho, heq ▸ List.prefix_append _ _⟩
  · exact .inr hpre

lemma Linked.latched {t : World n} (hl : Linked t) :
    Linked { t with chan := MgmtChan.statusStore { t.chan with overflow := true } } := by
  rcases hl with hq | ho
  · exact .inl ⟨hq.served, statusStore_shown _, hq.victor⟩
  · exact .inr ⟨ho.served, statusStore_shown _, ho.ready, ho.victor⟩

lemma Flow.latched {t : World n} {todo : List Byte} (h : Flow t [] todo) :
    Flow { t with chan := MgmtChan.statusStore { t.chan with overflow := true } } [] [] := by
  refine ⟨h.pending, fun hreq => .inr ⟨rfl, ?_⟩⟩
  rcases h.intact hreq with heq | ⟨_, hpre⟩
  · exact List.IsPrefix.trans (List.prefix_append _ todo) (heq ▸ List.prefix_rfl)
  · exact hpre

lemma latchOverflow_safe {todo : List Byte} {o : Bool} (hs : (flowPoint todo o).holds s) :
    StreamSafe latchOverflow (fun _ t => (idlePoint n).holds t) s :=
  safe_onChan_last (flowPoint todo o) (idlePoint n) hs (fun _ _ _ => .inl rfl)
    (fun _ ht => ⟨ht.1.latched, ht.2.1.latched, trivial⟩) fun _ h => h

def roomy (c : MgmtChan n) : Prop := c.overflow = false ∧ ¬ c.resp.IsFull

lemma roomy_core0 : Core0 (n := n) roomy :=
  fun _ _ h hk => ⟨h.overflow.trans hk.1, h.resp ▸ hk.2⟩

abbrev roomPoint (todo : List Byte) : StreamPoint n := streamPoint todo roomy roomy_core0

/-- What a wait for room leaves: room for the next byte, or a stream cut for good. -/
def roomPost (todo : List Byte) (r : Room) (t : World n) : Prop :=
  if r = .room then (roomPoint todo).holds t else (idlePoint n).holds t

lemma respRoomRound_safe {todo : List Byte} (checkReset : Bool) (spins : ℕ)
    (hs : (flowPoint todo false).holds s) :
    StreamSafe (respRoomRound checkReset spins)
      (fun r t => Sum.elim (fun _ => (flowPoint todo false).holds t) (fun r => roomPost todo r t) r)
      s := by
  refine safe_now (flowPoint todo false) hs fun t ht => ?_
  obtain ⟨hl, hf, ho⟩ := ht
  split
  next hroom => exact safe_pure (roomPoint todo) ⟨hl, hf, ho, hroom⟩ fun _ h => h
  next hfull =>
    split
    next hreset =>
      exact safe_pure (idlePoint n) ⟨hl, hf.drop (.inl hreset.2), trivial⟩ fun _ h => h
    · refine safe_bind (mgmtChanPublish_safe ⟨hl, hf, ho⟩) fun _ t ht => ?_
      refine safe_now (flowPoint todo false) ht fun t ht => ?_
      obtain ⟨hl, hf, ho⟩ := ht
      split
      next hroom => exact safe_pure (roomPoint todo) ⟨hl, hf, ho, hroom⟩ fun _ h => h
      · split
        · refine safe_bind (latchOverflow_safe ⟨hl, hf, ho⟩) fun _ t ht => ?_
          exact safe_pure (idlePoint n) ht fun _ h => h
        · exact safe_pure (flowPoint todo false) ⟨hl, hf, ho⟩ fun _ h => h

lemma respRoom_safe {todo : List Byte} (checkReset : Bool) (hs : (flowPoint todo false).holds s) :
    StreamSafe (respRoom checkReset) (roomPost todo) s := by
  refine Script.Safe.iterate (fun _ t => (flowPoint todo false).holds t) hs
    (fun spins t ht => respRoomRound_safe checkReset spins ht) fun r t ht => ?_
  unfold roomPost at ht
  split at ht
  next hr => exact Script.Safe.ret (roomPoint todo) ht fun _ h => by rwa [roomPost, if_pos hr]
  next hr => exact Script.Safe.ret (idlePoint n) ht fun _ h => by rwa [roomPost, if_neg hr]

lemma line_push {t : World n} (b : Byte) (hroom : ¬ t.chan.resp.IsFull) :
    World.line { t with chan := { t.chan with resp := t.chan.resp.push b } } [] = t.line [] ++ [b] := by
  simp only [World.line, Ring.contents_push hroom, List.append_assoc]
  rfl

lemma Flow.pushed {t : World n} {b : Byte} {todo : List Byte} (hroom : ¬ t.chan.resp.IsFull)
    (h : Flow t [] (b :: todo)) (ho : t.chan.overflow = false) :
    Flow { t with chan := { t.chan with resp := t.chan.resp.push b } } [] todo := by
  refine ⟨h.pending, fun hreq => .inl ?_⟩
  rcases h.intact hreq with heq | ⟨hlatched, _⟩
  · rw [line_push b hroom, List.append_assoc]
    exact heq
  · rw [ho] at hlatched
    cases hlatched

lemma respPush_safe {b : Byte} {todo : List Byte} {f : Unit → Script (World n) β}
    (hs : (roomPoint (b :: todo)).holds s)
    (h : ∀ t, (flowPoint todo false).holds t → StreamSafe (f ()) post t) :
    StreamSafe (respPush b >>= f) post s := by
  refine safe_onChan (roomPoint (b :: todo)) hs (fun t ht hlatched => ?_) fun t ht => ?_
  · rw [ht.2.2.1] at hlatched
    cases hlatched
  · obtain ⟨hl, hf, ho, hroom⟩ := ht
    refine h _ ⟨?_, hf.pushed hroom ho, ho⟩
    rcases hl with hq | hout
    · exact .inl ⟨hq.served, hq.shown, hq.victor⟩
    · exact .inr ⟨hout.served, hout.shown, hout.ready, hout.victor⟩

abbrev bufferPoint (buf : List Byte) : StreamPoint n :=
  streamPoint buf unconditional unconditional_core0

/-- `mgmt_chan_resp_write` enqueues its bytes in order, or a prefix and then nothing. -/
lemma mgmtChanRespWrite_safe {buf : List Byte} (hs : (bufferPoint buf).holds s) :
    StreamSafe (mgmtChanRespWrite buf) (fun _ t => (idlePoint n).holds t) s := by
  induction buf generalizing s with
  | nil => exact safe_pure (idlePoint n) hs fun _ h => h
  | cons b buf ih =>
    refine safe_now (bufferPoint (b :: buf)) hs fun t ht => ?_
    obtain ⟨hl, hf, _⟩ := ht
    split
    next hlatched => exact safe_pure (idlePoint n) ⟨hl, hf.drop (.inr hlatched), trivial⟩ fun _ h => h
    next hclear =>
      have ho : t.chan.overflow = false := by simpa using hclear
      refine safe_bind (respRoom_safe false ⟨hl, hf, ho⟩) fun r t ht => ?_
      unfold roomPost at ht
      split
      next hr =>
        rw [if_pos hr] at ht
        exact respPush_safe ht fun t ht => ih ⟨ht.1, ht.2.1, trivial⟩
      next hr =>
        rw [if_neg hr] at ht
        exact safe_pure (idlePoint n) ht fun _ h => h

lemma blobCopy_safe {buf : List Byte} (hs : (flowPoint buf false).holds s) :
    StreamSafe (blobCopy buf) (fun _ t => (idlePoint n).holds t) s := by
  induction buf generalizing s with
  | nil => exact safe_pure (flowPoint [] false) hs fun _ h => idle_of_flowPoint h
  | cons b buf ih =>
    refine safe_bind (respRoom_safe true hs) fun r t ht => ?_
    unfold roomPost at ht
    split
    next hr =>
      rw [if_pos hr] at ht
      exact respPush_safe ht fun t ht => ih ht
    next hr =>
      rw [if_neg hr] at ht
      exact safe_pure (idlePoint n) ht fun _ h => h

lemma publish_idle (hs : (idlePoint n).holds s) :
    StreamSafe mgmtChanPublish (fun _ t => (idlePoint n).holds t) s :=
  (mgmtChanPublish_safe (flowPoint_of_idle hs)).weaken fun _ _ h => idle_of_flowPoint h

lemma blobDrainRound_safe (spins : ℕ) (hs : (idlePoint n).holds s) :
    StreamSafe (blobDrainRound spins)
      (fun r t => Sum.elim (fun _ => (idlePoint n).holds t) (fun _ => (idlePoint n).holds t) r) s := by
  refine safe_now (idlePoint n) hs fun t ht => ?_
  split
  · exact safe_pure (idlePoint n) ht fun _ h => h
  · refine safe_now (idlePoint n) ht fun t ht => ?_
    split
    · exact safe_pure (idlePoint n) ht fun _ h => h
    · refine safe_now (idlePoint n) ht fun t ht => ?_
      refine safe_bind (publish_idle ht) fun _ t ht => ?_
      refine safe_now (idlePoint n) ht fun t ht => ?_
      split
      · exact safe_pure (idlePoint n) ht fun _ h => h
      · split
        · refine safe_bind (latchOverflow_safe (flowPoint_of_idle ht)) fun _ t ht => ?_
          exact safe_pure (idlePoint n) ht fun _ h => h
        · exact safe_pure (idlePoint n) ht fun _ h => h

lemma mgmtChanBlobSend_safe {buf : List Byte} (hs : (bufferPoint buf).holds s) :
    StreamSafe (mgmtChanBlobSend buf) (fun _ t => (idlePoint n).holds t) s := by
  refine safe_now (bufferPoint buf) hs fun t ht => ?_
  obtain ⟨hl, hf, _⟩ := ht
  split
  next hbail =>
    exact safe_pure (idlePoint n) ⟨hl, hf.drop hbail.symm, trivial⟩ fun _ h => h
  next hopen =>
    have ho : t.chan.overflow = false := by simpa using (not_or.mp hopen).1
    refine safe_bind (blobCopy_safe ⟨hl, hf, ho⟩) fun copied t ht => ?_
    split
    · exact Script.Safe.iterate (fun _ t => (idlePoint n).holds t) ht
        (fun spins t ht => blobDrainRound_safe spins ht)
        fun _ _ ht => Script.Safe.ret (idlePoint n) ht fun _ h => h
    · exact safe_pure (idlePoint n) ht fun _ h => h

/-- An update of core 0 that the stream does not see. -/
lemma safe_aside {g : MgmtChan n → MgmtChan n} {f : Unit → Script (World n) β}
    (hg : ∀ c, ∃ cmd drops full, g c = { c with cmd := cmd, cmdDropSeen := drops, cmdFull := full })
    (hs : (idlePoint n).holds s) (h : ∀ t, (idlePoint n).holds t → StreamSafe (f ()) post t) :
    StreamSafe (onChan g >>= f) post s := by
  refine safe_onChan (idlePoint n) hs (fun t _ _ => .inl ?_) fun t ht => h _ ?_
  · obtain ⟨cmd, drops, full, heq⟩ := hg t.chan
    rw [heq]
  · obtain ⟨cmd, drops, full, heq⟩ := hg t.chan
    obtain ⟨hl, hf, _⟩ := ht
    rw [heq]
    refine ⟨?_, ⟨hf.pending, hf.intact⟩, trivial⟩
    rcases hl with hq | ho
    · exact .inl ⟨hq.served, hq.shown, hq.victor⟩
    · exact .inr ⟨ho.served, ho.shown, ho.ready, ho.victor⟩

lemma ackSpin_safe (hs : (idlePoint n).holds s) :
    StreamSafe (Script.iterate ackSpinRound 0) (fun _ t => (idlePoint n).holds t) s := by
  refine Script.Safe.iterate (fun _ t => (idlePoint n).holds t) hs (fun spins t ht => ?_)
    fun _ _ ht => Script.Safe.ret (idlePoint n) ht fun _ h => h
  refine safe_now (idlePoint n) ht fun t ht => ?_
  split
  · exact safe_pure (idlePoint n) ht fun _ h => h
  · exact safe_pure (idlePoint n) ht fun _ h => h

lemma pumpRound_safe (i : ℕ) (hs : (idlePoint n).holds s) :
    StreamSafe (pumpRound i)
      (fun r t => Sum.elim (fun _ => (idlePoint n).holds t) (fun _ => (idlePoint n).holds t) r) s := by
  unfold pumpRound
  split
  · exact safe_pure (idlePoint n) hs fun _ h => h
  · refine safe_bind (publish_idle hs) fun _ t ht => ?_
    refine safe_now (idlePoint n) ht fun t ht => ?_
    split
    · exact safe_pure (idlePoint n) ht fun _ h => h
    · refine safe_bind (ackSpin_safe ht) fun _ t ht => ?_
      refine safe_now (idlePoint n) ht fun t ht => ?_
      split
      · exact safe_pure (idlePoint n) ht fun _ h => h
      · exact safe_pure (idlePoint n) ht fun _ h => h

lemma Linked.statusStored {t : World n} (hl : Linked t) :
    Linked { t with chan := t.chan.statusStore } := by
  rcases hl with hq | ho
  · exact .inl ⟨hq.served, statusStore_shown _, hq.victor⟩
  · exact .inr ⟨ho.served, statusStore_shown _, ho.ready, ho.victor⟩

lemma mgmtChanPump_safe (hs : (idlePoint n).holds s) :
    StreamSafe mgmtChanPump (fun _ t => (idlePoint n).holds t) s := by
  have htail : ∀ t : World n, (idlePoint n).holds t →
      StreamSafe (do Script.iterate pumpRound 0; onChan fun c => c.statusStore)
        (fun _ t => (idlePoint n).holds t) t := by
    intro t ht
    refine safe_bind (Script.Safe.iterate (fun _ t => (idlePoint n).holds t) ht
      (fun i t ht => pumpRound_safe i ht)
      fun _ _ ht => Script.Safe.ret (idlePoint n) ht fun _ h => h) fun _ t ht => ?_
    exact safe_onChan_last (idlePoint n) (idlePoint n) ht (fun _ _ _ => .inl rfl)
      (fun t ht => ⟨ht.1.statusStored, ⟨ht.2.1.pending, ht.2.1.intact⟩, trivial⟩) fun _ h => h
  have hempty : ∀ t : World n, (idlePoint n).holds t →
      StreamSafe (do
          let c ← now
          if c.cmd.IsEmpty then
            onChan fun c => { c with cmdFull := false }
          Script.iterate pumpRound 0
          onChan fun c => c.statusStore)
        (fun _ t => (idlePoint n).holds t) t := by
    intro t ht
    refine safe_now (idlePoint n) ht fun t ht => ?_
    split
    · exact safe_aside (fun c => ⟨c.cmd, c.cmdDropSeen, false, rfl⟩) ht htail
    · exact htail t ht
  refine safe_now (idlePoint n) hs fun t ht => ?_
  split
  · exact safe_aside (fun c => ⟨c.cmd, c.cmdDrop, true, rfl⟩) ht hempty
  · exact hempty t ht

lemma mgmtChanCmdPop_safe (hs : (idlePoint n).holds s) :
    StreamSafe mgmtChanCmdPop (fun _ t => (idlePoint n).holds t) s := by
  refine safe_now (idlePoint n) hs fun t ht => ?_
  split
  · exact safe_pure (idlePoint n) ht fun _ h => h
  · refine safe_now (idlePoint n) ht fun t ht => ?_
    refine safe_aside (fun c => ⟨c.cmd.pop, c.cmdDropSeen, c.cmdFull, rfl⟩) ht fun t ht => ?_
    exact safe_pure (idlePoint n) ht fun _ h => h

/-- While core 0 services a reset the Victor waits, and nothing is in flight. -/
structure Resetting (s : World n) : Prop where
  waiting : s.side.mode = .waiting
  echo : s.chan.cmdEcho ≠ 0xFF
  faithful : Faithful s
  flushed : s.chan.resp.contents = []
  served : s.chan.served = s.chan.ack

/-- A waiting Victor that has not seen the echo can only write command bytes. -/
lemma Moved.waiting {t t' : World n} (h : Moved t t') (hwait : t.side.mode = .waiting)
    (hecho : t.chan.cmdEcho ≠ 0xFF) :
    t'.side = t.side ∧ t'.chan.cmdEcho ≠ 0xFF ∧ t'.chan.ack = t.chan.ack ∧
      t'.chan.resetReq = t.chan.resetReq := by
  cases h with
  | stay => exact ⟨rfl, hecho, rfl, rfl⟩
  | echo _ h => exact absurd h hecho
  | command data hmode =>
    have hdata : data ≠ 0 := by
      rcases hmode with hp | hw
      · rw [hwait] at hp
        cases hp
      · exact hw.2
    simp only [World.regWrite, mgmtChanRegWrite_eq]
    exact ⟨trivial, by simpa using not_echoed hdata, by simp, by simp⟩
  | reset hmode _ => exact absurd hwait hmode
  | offer hmode _ _ | seed hmode | take _ hmode | acknowledge _ hmode =>
    rw [hwait] at hmode
    cases hmode

def resettingPoint (req : Bool) (K : MgmtChan n → Prop) (hK : Core0 K) : StreamPoint n where
  holds s := Resetting s ∧ s.chan.resetReq = req ∧ K s.chan
  stable := by
    rintro t t' ⟨h, hr, hk⟩ hstep
    have hm := moved_of_interferes hstep
    obtain ⟨hside, hecho, hack, hreq⟩ := hm.waiting h.waiting h.echo
    refine ⟨⟨hside ▸ h.waiting, hecho, ?_, ?_, ?_⟩, hreq.trans hr, hK _ _ hm.core0 hk⟩
    · unfold Faithful
      rw [hside]
      exact h.faithful
    · rw [hm.core0.resp]
      exact h.flushed
    · rw [hm.core0.served, hack]
      exact h.served
  safe := fun t h => h.1.faithful

/-- A reset is pending and core 0 is about to service it. -/
def pendingPoint (n : ℕ) : StreamPoint n where
  holds s := s.side.mode = .waiting ∧ s.chan.cmdEcho ≠ 0xFF ∧ Faithful s ∧ s.chan.resetReq = true
  stable := by
    rintro t t' ⟨hwait, hecho, hf, hreq⟩ hstep
    obtain ⟨hside, hecho', _, hreq'⟩ := (moved_of_interferes hstep).waiting hwait hecho
    refine ⟨hside ▸ hwait, hecho', ?_, hreq'.trans hreq⟩
    unfold Faithful
    rw [hside]
    exact hf
  safe := fun t h => h.2.2.1

/-- A store of the reset that leaves the FIFO, the counters and the echo alone. -/
lemma safe_resetting {req req' : Bool} {K K' : MgmtChan n → Prop} {hK : Core0 K}
    {g : MgmtChan n → MgmtChan n} {f : Unit → Script (World n) β} (hK' : Core0 K')
    (hs : (resettingPoint req K hK).holds s)
    (hg : ∀ c, (g c).resp = c.resp ∧ (g c).served = c.served ∧ (g c).ack = c.ack ∧
      (g c).cmdEcho = c.cmdEcho)
    (hreq : ∀ c : MgmtChan n, c.resetReq = req → (g c).resetReq = req') (hk : ∀ c, K c → K' (g c))
    (h : ∀ t, (resettingPoint req' K' hK').holds t → StreamSafe (f ()) post t) :
    StreamSafe (onChan g >>= f) post s := by
  refine safe_onChan (resettingPoint req K hK) hs (fun t _ _ => .inl ?_) fun t ht => h _ ?_
  · rw [(hg t.chan).1]
  · obtain ⟨hr, hq, hk'⟩ := ht
    obtain ⟨hresp, hserved, hack, hecho⟩ := hg t.chan
    refine ⟨⟨hr.waiting, ?_, hr.faithful, ?_, ?_⟩, hreq _ hq, hk _ hk'⟩
    · rw [hecho]
      exact hr.echo
    · rw [hresp]
      exact hr.flushed
    · rw [hserved, hack]
      exact hr.served

/-- A Victor with nothing to read receives nothing, and waits after a reset. -/
lemma Moved.quiet {t t' : World n} (h : Moved t t') (hq : Quiet t)
    (hp : t.chan.resetReq = true → t.side.mode = .waiting ∧ t.chan.cmdEcho ≠ 0xFF) :
    t'.side.received = t.side.received ∧ t'.side.sent = t.side.sent ∧
      (t'.chan.resetReq = true → t'.side.mode = .waiting ∧ t'.chan.cmdEcho ≠ 0xFF) := by
  have hv := hq.victor
  cases h with
  | stay => exact ⟨rfl, rfl, hp⟩
  | take _ hmode | acknowledge _ hmode =>
    rw [hmode] at hv
    exact hv.elim
  | reset _ hecho => exact ⟨rfl, rfl, fun _ => ⟨rfl, hecho⟩⟩
  | echo hmode hecho => exact ⟨rfl, rfl, fun hreq => absurd hecho (hp hreq).2⟩
  | offer hmode _ _ | seed hmode =>
    refine ⟨rfl, rfl, fun hreq => ?_⟩
    have hwait := (hp hreq).1
    rw [hmode] at hwait
    cases hwait
  | command data hmode =>
    simp only [World.regWrite, mgmtChanRegWrite_eq]
    refine ⟨trivial, trivial, fun hreq => ?_⟩
    obtain ⟨hwait, _⟩ := hp (by simpa using hreq)
    have hdata : data ≠ 0 := by
      rcases hmode with hpoll | hw
      · rw [hwait] at hpoll
        cases hpoll
      · exact hw.2
    exact ⟨hwait, by simpa using not_echoed hdata⟩

/-- The reset is done, the ghost stream not yet restarted. -/
def flushedPoint (n : ℕ) : StreamPoint n where
  holds s := Quiet s ∧ Faithful s ∧ s.chan.resp.contents = [] ∧
    (s.chan.resetReq = true → s.side.mode = .waiting ∧ s.chan.cmdEcho ≠ 0xFF)
  stable := by
    rintro t t' ⟨hq, hf, hc, hp⟩ hstep
    have hm := moved_of_interferes hstep
    obtain ⟨hreceived, hsent, hp'⟩ := hm.quiet hq hp
    refine ⟨hq.moved hm, ?_, ?_, hp'⟩
    · unfold Faithful
      rw [hreceived, hsent]
      exact hf
    · rw [hm.core0.resp]
      exact hc
  safe := fun t h => h.2.1

/-- The flags are stored and no byte is offered; the echo is next. -/
def quietened (c : MgmtChan n) : Prop := c.Shown ∧ c.respReady = false

lemma quietened_core0 : Core0 (n := n) quietened := by
  intro c c' h hk
  exact ⟨⟨by rw [h.status, h.respReady]; exact hk.1.1, by rw [h.status, h.phase]; exact hk.1.2⟩,
    h.respReady.trans hk.2⟩

def unready (c : MgmtChan n) : Prop := c.respReady = false

lemma unready_core0 : Core0 (n := n) unready := fun _ _ h hk => h.respReady.trans hk

/-- What `mgmt_chan_take_reset` leaves: an empty, quiet channel if there was a reset. -/
def resetPost (done : Bool) (t : World n) : Prop :=
  if done then (flushedPoint n).holds t else (idlePoint n).holds t

lemma mgmtChanTakeReset_safe (hs : (idlePoint n).holds s) :
    StreamSafe mgmtChanTakeReset resetPost s := by
  have hwaits : ∀ t : World n, (idlePoint n).holds t → t.chan.resetReq = true →
      t.side.mode = .waiting ∧ t.chan.cmdEcho ≠ 0xFF ∧ Faithful t := fun t ht => ht.2.1.pending
  refine safe_now (idlePoint n) hs fun t ht => ?_
  split
  · exact safe_pure (idlePoint n) ht fun _ h => by simpa [resetPost] using h
  next hreq =>
    have hreq : t.chan.resetReq = true := by simpa using hreq
    obtain ⟨hwait, hecho, hf⟩ := hwaits t ht hreq
    refine safe_onChan (pendingPoint n) ⟨hwait, hecho, hf, hreq⟩
      (fun t ht _ => .inr ⟨ht.2.2.2, rfl⟩) fun t ht => ?_
    obtain ⟨hwait, hecho, hf, hreq⟩ := ht
    refine safe_now (resettingPoint true unconditional unconditional_core0)
      ⟨⟨hwait, hecho, hf, rfl, rfl⟩, hreq, trivial⟩ fun t ht => ?_
    refine safe_resetting unconditional_core0 ht (fun _ => ⟨rfl, rfl, rfl, rfl⟩) (fun _ h => h)
      (fun _ _ => trivial) fun t ht => ?_
    refine safe_resetting unready_core0 ht (fun _ => ⟨rfl, rfl, rfl, rfl⟩) (fun _ h => h)
      (fun _ _ => rfl) fun t ht => ?_
    refine safe_resetting unready_core0 ht (fun _ => ⟨rfl, rfl, rfl, rfl⟩) (fun _ _ => rfl)
      (fun _ h => h) fun t ht => ?_
    refine safe_resetting quietened_core0 ht (fun _ => ⟨rfl, rfl, rfl, rfl⟩) (fun _ h => h)
      (fun c h => ⟨statusStore_shown c, h⟩) fun t ht => ?_
    refine safe_onChan (resettingPoint false quietened quietened_core0) ht (fun _ _ _ => .inl rfl)
      fun t ht => ?_
    obtain ⟨hr, hq, hshown, hready⟩ := ht
    refine safe_pure (flushedPoint n) ⟨⟨hr.served, hshown, ?_⟩, hr.faithful, hr.flushed, ?_⟩
      fun _ h => by simpa [resetPost] using h
    · rw [hr.waiting]
      trivial
    · intro hreq
      exact absurd (hq.symm.trans hreq) (by decide)

lemma Flow.send {t : World n} (h : Flow t [] []) (buf : List Byte) : Flow (t.send buf) [] buf := by
  refine ⟨fun hreq => ?_, fun hreq => ?_⟩
  · obtain ⟨hwait, hecho, hf⟩ := h.pending hreq
    exact ⟨hwait, hecho, hf.trans (List.prefix_append _ _)⟩
  · rcases h.intact hreq with heq | ⟨ho, hpre⟩
    · rw [List.append_nil] at heq
      exact .inl (congrArg (· ++ buf) heq)
    · exact .inr ⟨ho, hpre.trans (List.prefix_append _ _)⟩

lemma safe_send {f : Unit → Script (World n) β} {buf : List Byte} (hs : (idlePoint n).holds s)
    (h : ∀ t, (bufferPoint buf).holds t → StreamSafe (f ()) post t) :
    StreamSafe (Script.modify (World.send · buf) >>= f) post s := by
  refine Script.Safe.act (idlePoint n) hs (fun _ _ _ => .inl rfl) fun t ht => h _ ?_
  obtain ⟨hl, hf, _⟩ := ht
  refine ⟨?_, hf.send buf, trivial⟩
  rcases hl with hq | ho
  · exact .inl ⟨hq.served, hq.shown, hq.victor⟩
  · exact .inr ⟨ho.served, ho.shown, ho.ready, ho.victor⟩

lemma restart_idle {t : World n} (h : (flushedPoint n).holds t) : (idlePoint n).holds t.restart := by
  obtain ⟨hq, _, hc, hp⟩ := h
  refine ⟨.inl ⟨hq.served, hq.shown, hq.victor⟩, ⟨fun hreq => ?_, fun _ => .inl ?_⟩, trivial⟩
  · exact ⟨(hp hreq).1, (hp hreq).2, List.prefix_rfl⟩
  · simp [World.line, World.restart, unread_quiet hq.served, hc]

lemma callBody_safe (call : Call) (hs : (idlePoint n).holds s) :
    StreamSafe (callBody call) (fun _ t => (idlePoint n).holds t) s := by
  cases call with
  | respWrite buf => exact safe_send hs fun t ht => mgmtChanRespWrite_safe ht
  | blobSend buf =>
    refine safe_send hs fun t ht => safe_bind (mgmtChanBlobSend_safe ht) fun _ t ht => ?_
    exact safe_pure (idlePoint n) ht fun _ h => h
  | pump => exact mgmtChanPump_safe hs
  | takeReset =>
    refine safe_bind (mgmtChanTakeReset_safe hs) fun done t ht => ?_
    cases done with
    | false => exact safe_pure (idlePoint n) ht fun _ h => h
    | true =>
      exact Script.Safe.act (flushedPoint n) ht (fun _ _ _ => .inl rfl) fun t ht =>
        Script.Safe.ret (idlePoint n) (restart_idle ht) fun _ h => h
  | cmdPop =>
    refine safe_bind (mgmtChanCmdPop_safe hs) fun _ t ht => ?_
    exact safe_pure (idlePoint n) ht fun _ h => h

/-- The two cores and the Victor at power-up. -/
def start (hn : 2 ≤ n) : Machine (World n) := ⟨.initial (by omega), pure ()⟩

lemma initial_shown (hn : 0 < n) : (MgmtChan.initial hn).Shown := by
  constructor
  · change hasBit mgmtChanSig mgmtChanRespReady = false
    decide
  · change hasBit mgmtChanSig mgmtChanRespPhase = false
    decide

lemma start_verified (hn : 2 ≤ n) :
    (start hn).Verified Interferes NoEnqueue Faithful (idlePoint n).holds := by
  have hidle : (idlePoint n).holds (World.initial (n := n) (by omega)) := by
    refine ⟨.inl ⟨rfl, initial_shown _, ?_⟩, ⟨?_, ?_⟩, trivial⟩
    · intro h
      cases h
    · intro h
      cases h
    · exact fun _ => .inl rfl
  exact Script.Safe.ret (idlePoint n) hidle fun _ h => h

/-- A Victor that keeps to its handshake is one that may drop it. -/
lemma restless_run {m m' : Machine (World n)} {moves : List (Move Call Access)}
    (hrun : Guarded (Machine.step callBody victorStep) (Move.Admits EchoDistinct) m moves m') :
    Guarded (Machine.step callBody restlessStep) (Move.Admits ResetDistinct) m moves m' := by
  refine hrun.embed fun m move m' hallow hstep => ?_
  cases move with
  | core => exact ⟨trivial, hstep⟩
  | call c => exact ⟨trivial, hstep⟩
  | env access =>
    simp only [Machine.step, Option.map_eq_some_iff] at hstep ⊢
    obtain ⟨s, hs, rfl⟩ := hstep
    obtain ⟨hallow', hs'⟩ := restless_of_victor hallow hs
    exact ⟨hallow', s, hs', rfl⟩

def cores (k : ℕ) : List (Move Call Access) := List.replicate k .core

instance (s : World n) : (access : Access) → Decidable (EchoDistinct s access)
  | .write .mgmtStatus _ => inferInstanceAs (Decidable (_ ≠ _))
  | .write .mgmtCmd _ => inferInstanceAs (Decidable (_ → _))
  | .write .control _ | .write .data _ | .write .status _ | .write .statusAlias _
  | .write .addrL _ | .write .addrM _ | .write .addrH _ | .write .mgmtResp _
  | .write .unused _ | .write .outside _ | .read _ => isTrue trivial

instance (m : Machine (World n)) : (move : Move Call Access) → Decidable (move.Admits EchoDistinct m)
  | .env access => inferInstanceAs (Decidable (EchoDistinct m.shared access))
  | .core | .call _ => isTrue trivial

def followMoves (moves : List (Move Call Access)) : Option (Machine (World 2)) :=
  follow (Machine.step callBody victorStep) (Move.Admits EchoDistinct) (start (by decide)) moves

/-- The same system when any reset is admitted. -/
def followAny (moves : List (Move Call Access)) : Option (Machine (World 2)) :=
  follow (Machine.step callBody victorStep) (fun _ _ => True) (start (by decide)) moves

end PicoV9k.Mgmt
