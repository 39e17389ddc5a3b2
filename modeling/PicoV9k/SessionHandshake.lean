import PicoV9k.ChannelClient

/-!
# The reset handshake

A reset of `session_settle` against the passes of `mgmt_con_poll`, in every interleaving of their
accesses. Between the echo of a reset and the next command byte the channel is silent; while the
client waits for the echo it writes nothing. So no stamp in a buffer is older than the last
serviced reset, as long as the last byte written to CMD is not zero when a settle begins.
-/
namespace PicoV9k.Dmaterm
open PicoV9k.Bus PicoV9k.Rings PicoV9k.Mgmt PicoV9k.Scripts PicoV9k.Runs

variable {n : ℕ} {K : Type}

/-- Every byte in a buffer bears the present stamp, and whatever came out did so in its session. -/
structure Books (x : World n K) : Prop where
  ring : x.ledger.queued.length = x.chan.cmd.length
  fifo : x.ledger.fifo.length = x.chan.resp.length
  stamps : ∀ t, t ∈ x.ledger.queued ∨ t ∈ x.ledger.lifted ∨ t ∈ x.ledger.fifo ∨
    t ∈ x.ledger.staged → t = x.ledger.serviced
  consumed : ∀ p ∈ x.ledger.consumed, p.1 = p.2
  flushed : ∀ p ∈ x.ledger.flushed, p.1 + 1 = p.2
  taken : ∀ p ∈ x.ledger.taken, p.1 = p.2
  complete : x.ledger.consumed.length = x.shared.side.popped.length

/-- Nothing to read and nothing to do. -/
structure Silent (c : MgmtChan n) : Prop where
  served : c.served = c.ack
  resp : c.resp.contents = []
  cmd : c.cmd.contents = []
  ready : c.respReady = false
  shownReady : hasBit c.status mgmtChanRespReady = false
  shownOverflow : hasBit c.status mgmtChanOverflow = false
  overflow : c.overflow = false

/-- The loop of `session_settle`. -/
def Mode.waits : Mode → Bool
  | .waiting _ => true
  | _ => false

/-- From the STATUS write to the seeding. -/
def Mode.shakes : Mode → Bool
  | .waiting _ | .seeding _ => true
  | _ => false

/-- Where the client may be with nothing written to CMD since its last reset. -/
def Mode.untyped : Mode → Bool
  | .waiting _ | .seeding _ | .opening | .top | .sending _ | .gone => true
  | _ => false

/-- Between the announcement of a byte and its acknowledgement. -/
def Mode.reads : Mode → Bool
  | .grab _ _ | .regrab _ _ _ | .ack _ _ _ => true
  | _ => false

/-- The reset is done, and nothing has been written to CMD since. -/
def Hushed (x : World n K) : Prop :=
  x.ledger.typed = false ∧ (x.mode.waits = true → x.chan.cmdEcho = 0xFF)

/-- RESP_READY, as core 0 has it or as the cell shows it. -/
def Offers (c : MgmtChan n) : Prop := c.respReady = true ∨ hasBit c.status mgmtChanRespReady = true

/-- The handshake, outside the stores of a reset. -/
structure Kept (x : World n K) : Prop where
  books : Books x
  echo : x.ledger.typed = true → x.chan.cmdEcho = ~~~x.ledger.lastCmd
  untyped : x.ledger.typed = false → x.mode.untyped = true
  shaking : x.mode.shakes = true → x.ledger.typed = false
  hushed : Hushed x → Silent x.chan
  pending : x.chan.resetReq = true → x.mode.waits = true ∧
    x.chan.cmdEcho ≠ 0xFF ∧ x.ledger.settles = x.ledger.serviced + 1
  done : x.chan.resetReq = false → x.ledger.settles = x.ledger.serviced ∧
    (x.mode.waits = true → x.chan.cmdEcho = 0xFF)
  offered : Offers x.chan → x.ledger.cell = x.ledger.serviced
  reading : x.mode.reads = true → x.ledger.cell = x.ledger.serviced

lemma Books.separated {x : World n K} (h : Books x)
    (hseeded : ∀ first, x.mode = .seeding first → Silent x.chan) : Separated x where
  seeded first hmode :=
    ⟨(hseeded first hmode).served, (hseeded first hmode).resp, (hseeded first hmode).shownReady⟩
  taken p hp := (h.taken p hp).ge
  consumed p hp := (h.consumed p hp).ge
  recorded := h.complete
  flushed p hp := (h.flushed p hp).le

lemma Kept.separated {x : World n K} (h : Kept x) : Separated x := by
  refine h.books.separated fun first hmode => h.hushed ⟨h.shaking ?_, fun hwaits => ?_⟩
  · rw [hmode]
    rfl
  · rw [hmode] at hwaits
    cases hwaits

/-- STATUS shows an overflow or a byte on offer. -/
def Shows (c : MgmtChan n) : Prop :=
  hasBit c.status mgmtChanOverflow = true ∨ hasBit c.status mgmtChanRespReady = true

/-- What a step of the client can do. -/
inductive Moved (x : World n K) : World n K → Prop
  | stay : Moved x x
  | turn (client : Client) (hfrom : x.mode.waits = false) (hshakes : client.mode.shakes = false)
      (huntyped : client.mode.untyped = true ∨ x.mode.untyped = false ∨ Shows x.chan)
      (hreads : client.mode.reads = true →
        x.mode.reads = true ∨ hasBit x.chan.status mgmtChanRespReady = true) :
      Moved x { x with record := { x.record with client := client } }
  | echo (first : Bool) (hfrom : x.mode.waits = true) (hecho : x.chan.cmdEcho = 0xFF) :
      Moved x (x.goto (.seeding first))
  | accept (mode : Mode) (hfrom : x.mode.reads = true) (hshakes : mode.shakes = false) :
      Moved x (x.accept mode)
  | write (data : Byte) (mode : Mode) (hfrom : x.mode.waits = false) (hshakes : mode.shakes = false)
      (hreads : mode.reads = false) : Moved x (x.writeCmd data mode)
  | settle (first : Bool) (hfrom : x.mode.settles = true) (hlast : x.ledger.lastCmd ≠ 0) :
      Moved x (x.writeStatus (.waiting first))
  | acknowledge (phase : Bool) (d : Byte) (mode : Mode) (hfrom : x.mode.reads = true)
      (hshakes : mode.shakes = false) (hreads : mode.reads = false) : Moved x (x.writeResp phase d mode)

abbrev Moves : World n K → World n K → Prop := EnvRel clientStep LastNonzero

lemma Moved.poll {x : World n K} (hfrom : x.mode.waits = false) : Moved x x.poll := by
  unfold World.poll
  split
  next hover => exact .turn _ hfrom rfl (.inr (.inr (.inl hover))) fun hr => by cases hr
  · split
    next hfresh => exact .turn _ hfrom rfl (.inr (.inr (.inr hfresh.1))) fun _ => .inr hfresh.1
    · exact .turn _ hfrom rfl (.inl rfl) fun hr => by cases hr

lemma Moved.key {x : World n K} (hfrom : x.mode.waits = false) (c : Byte) (next : Option Byte) :
    Moved x (keyStep x c next) := by
  unfold keyStep
  generalize press x.record.client.term.cursorHidden x.record.client.shadow c next = r
  obtain ⟨pressed, shadow⟩ := r
  cases pressed with
  | quit => exact .turn _ hfrom rfl (.inl rfl) fun hr => by cases hr
  | again => exact .turn _ hfrom rfl (.inl rfl) fun hr => by cases hr
  | send bytes => exact .turn _ hfrom rfl (.inl rfl) fun hr => by cases hr

lemma moved_of_access {x x' : World n K} (hlast : LastNonzero x .access) (hstep : accessStep x = some x') :
    Moved x x' := by
  unfold accessStep at hstep
  split at hstep
  next value hmode =>
    cases hstep
    exact .write value _ (by rw [hmode]; rfl) rfl rfl
  next value hmode =>
    cases hstep
    refine .turn _ (by rw [hmode]; rfl) ?_ (.inr (.inl (by rw [hmode]; rfl))) fun hr => ?_
    · split
      · split <;> rfl
      · rfl
    · dsimp only at hr
      split at hr
      · split at hr <;> cases hr
      · cases hr
  next again hmode =>
    cases hstep
    refine .turn _ (by rw [hmode]; rfl) ?_ (.inr (.inl (by rw [hmode]; rfl))) fun hr => ?_
    · split
      · split <;> rfl
      · rfl
    · dsimp only at hr
      split at hr
      · split at hr <;> cases hr
      · cases hr
  next first hmode =>
    cases hstep
    have hfrom : x.mode.settles = true := by rw [hmode]; rfl
    exact .settle first hfrom (hlast hfrom)
  next first hmode =>
    cases hstep
    split
    next hecho => exact .echo first (by rw [hmode]; rfl) hecho
    · exact .stay
  next first hmode =>
    cases hstep
    have hplain : (if first then Mode.opening else .top).shakes = false ∧
        (if first then Mode.opening else .top).untyped = true ∧
        (if first then Mode.opening else .top).reads = false := by
      cases first <;> decide
    refine .turn _ (by rw [hmode]; rfl) hplain.1 (.inl hplain.2.1) fun hr => ?_
    exact absurd (hplain.2.2.symm.trans hr) (by decide)
  next hmode =>
    cases hstep
    exact .write 0x0D .top (by rw [hmode]; rfl) rfl rfl
  next hmode =>
    cases hstep
    exact .poll (by rw [hmode]; rfl)
  next hmode =>
    cases hstep
    exact .poll (by rw [hmode]; rfl)
  next b keys hmode =>
    cases hstep
    exact .write b (.sending keys) (by rw [hmode]; rfl) rfl rfl
  next drained phase hmode =>
    cases hstep
    exact .turn _ (by rw [hmode]; rfl) rfl (.inr (.inl (by rw [hmode]; rfl))) fun _ => .inl (by rw [hmode]; rfl)
  next drained phase d hmode =>
    cases hstep
    have hfrom : x.mode.reads = true := by rw [hmode]; rfl
    split
    · exact .accept _ hfrom rfl
    · exact .turn _ (by rw [hmode]; rfl) rfl (.inr (.inl (by rw [hmode]; rfl))) fun _ => .inl hfrom
  next drained phase d hmode =>
    cases hstep
    have hfrom : x.mode.reads = true := by rw [hmode]; rfl
    split
    · exact .acknowledge phase d _ hfrom rfl rfl
    · exact .acknowledge phase d _ hfrom rfl rfl
  next drained hmode =>
    cases hstep
    have hfrom : x.mode.waits = false := by rw [hmode]; rfl
    split
    next hfresh => exact .turn _ hfrom rfl (.inr (.inr (.inr hfresh.1))) fun _ => .inr hfresh.1
    · exact .turn _ hfrom rfl (.inl rfl) fun hr => by cases hr
  next hmode => cases hstep

lemma moved_of_moves {x x' : World n K} (h : Moves x x') : Moved x x' := by
  obtain ⟨input, hlast, hstep⟩ := h
  cases input with
  | access => exact moved_of_access hlast hstep
  | key c next =>
    simp only [clientStep] at hstep
    split at hstep
    next hmode =>
      cases hstep
      exact .key (by rw [hmode]; rfl) c next
    · cases hstep

lemma waits_of_shakes {mode : Mode} (h : mode.shakes = false) : mode.waits = false := by
  cases mode with
  | waiting first => cases h
  | _ => rfl

lemma waits_of_reads {mode : Mode} (h : mode.reads = true) : mode.waits = false := by
  cases mode with
  | waiting first => cases h
  | _ => rfl

lemma untyped_of_reads {mode : Mode} (h : mode.reads = true) : mode.untyped = false := by
  cases mode with
  | grab _ _ | regrab _ _ _ | ack _ _ _ => rfl
  | _ => cases h

lemma waits_of_settles {mode : Mode} (h : mode.settles = true) : mode.waits = false ∧ mode.untyped = false := by
  cases mode with
  | settle first => exact ⟨rfl, rfl⟩
  | _ => cases h

lemma Kept.idle {x : World n K} (h : Kept x) (hwaits : x.mode.waits = false) : x.chan.resetReq = false := by
  by_contra hreq
  have hpending := (h.pending (by simpa using hreq)).1
  exact absurd (hwaits.symm.trans hpending) (by decide)

lemma Kept.typed {x : World n K} (h : Kept x) (hwaits : x.mode.waits = false)
    (hmode : x.mode.untyped = false ∨ Shows x.chan) : x.ledger.typed = true := by
  by_contra htyped
  have htyped : x.ledger.typed = false := by simpa using htyped
  have hsilent := h.hushed ⟨htyped, fun hw => absurd (hwaits.symm.trans hw) (by decide)⟩
  rcases hmode with huntyped | hover | hready
  · exact absurd (huntyped.symm.trans (h.untyped htyped)) (by decide)
  · exact absurd (hsilent.shownOverflow.symm.trans hover) (by decide)
  · exact absurd (hsilent.shownReady.symm.trans hready) (by decide)

/-- The books do not depend on the client. -/
lemma Books.turned {x : World n K} (h : Books x) (client : Client) :
    Books { x with record := { x.record with client := client } } :=
  ⟨h.ring, h.fifo, h.stamps, h.consumed, h.flushed, h.taken, h.complete⟩

/-- The client moves on outside the loop of a settle. -/
lemma Kept.turned {x : World n K} (h : Kept x) {client : Client} (hfrom : x.mode.waits = false)
    (hshakes : client.mode.shakes = false)
    (huntyped : client.mode.untyped = true ∨ x.mode.untyped = false ∨ Shows x.chan)
    (hreads : client.mode.reads = true →
      x.mode.reads = true ∨ hasBit x.chan.status mgmtChanRespReady = true) :
    Kept { x with record := { x.record with client := client } } where
  books := h.books.turned client
  echo := h.echo
  untyped htyped := by
    rcases huntyped with hplain | hmode
    · exact hplain
    · exact absurd ((h.typed hfrom hmode).symm.trans htyped) (by decide)
  shaking hs := absurd (hshakes.symm.trans hs) (by decide)
  hushed hh := h.hushed ⟨hh.1, fun hw => absurd (hfrom.symm.trans hw) (by decide)⟩
  pending hreq := absurd ((h.idle hfrom).symm.trans hreq) (by decide)
  done hreq := ⟨(h.done hreq).1, fun hw => absurd ((waits_of_shakes hshakes).symm.trans hw) (by decide)⟩
  offered := h.offered
  reading hr := by
    rcases hreads hr with hreads | hready
    · exact h.reading hreads
    · exact h.offered (.inr hready)

/-- The client sees the echo. -/
lemma Kept.echoed {x : World n K} (h : Kept x) (hfrom : x.mode.waits = true) (hecho : x.chan.cmdEcho = 0xFF)
    (first : Bool) : Kept (x.goto (.seeding first)) where
  books := h.books.turned _
  echo := h.echo
  untyped _ := rfl
  shaking _ := by
    refine h.shaking ?_
    cases hmode : x.mode with
    | waiting first => rfl
    | _ =>
      rw [hmode] at hfrom
      cases hfrom
  hushed hh := h.hushed ⟨hh.1, fun _ => hecho⟩
  pending hreq := absurd hecho (h.pending hreq).2.1
  done hreq := ⟨(h.done hreq).1, fun hw => by cases hw⟩
  offered := h.offered
  reading hr := by cases hr

/-- The client takes the byte it has read twice. -/
lemma Kept.accepted {x : World n K} (h : Kept x) (hfrom : x.mode.reads = true) {mode : Mode}
    (hmode : Kept (x.goto mode)) : Kept (x.accept mode) where
  books := by
    have hcell := h.reading hfrom
    have hsettles := (h.done (h.idle (waits_of_reads hfrom))).1
    refine ⟨h.books.ring, h.books.fifo, h.books.stamps, h.books.consumed, h.books.flushed, ?_,
      h.books.complete⟩
    intro p hp
    rcases List.mem_append.mp hp with hp | hp
    · exact h.books.taken p hp
    · rw [List.mem_singleton.mp hp]
      exact hcell.trans hsettles.symm
  echo := hmode.echo
  untyped := hmode.untyped
  shaking := hmode.shaking
  hushed := hmode.hushed
  pending := hmode.pending
  done := hmode.done
  offered := hmode.offered
  reading := hmode.reading

/-- A command byte bears the stamp of the session it is written in. -/
lemma Books.wrote {x : World n K} (h : Books x) (hsettles : x.ledger.settles = x.ledger.serviced)
    (data : Byte) (mode : Mode) : Books (x.writeCmd data mode) where
  ring := by
    have hring := h.ring
    simp only [World.writeCmd, mgmtChanRegWrite_eq, true_and]
    split
    next hfull => simpa [hfull] using hring
    next hroom =>
      have hpushed := congrArg List.length (Ring.contents_push hroom data)
      rw [Ring.contents_length, List.length_append, Ring.contents_length] at hpushed
      rw [List.length_append, hring, hpushed]
      rfl
  fifo := by simpa only [World.writeCmd, mgmtChanRegWrite_eq] using h.fifo
  stamps := by
    intro t ht
    simp only [World.writeCmd, List.mem_append] at ht
    rcases ht with (ht | ht) | ht
    · exact h.stamps t (.inl ht)
    · split at ht
      · cases ht
      · rw [List.mem_singleton.mp ht]
        exact hsettles
    · exact h.stamps t (.inr ht)
  consumed := h.consumed
  flushed := h.flushed
  taken := h.taken
  complete := by
    have hpopped (full : Bool) : (x.shared.side.note full data).popped = x.shared.side.popped := by
      cases full <;> rfl
    simpa only [World.writeCmd, hpopped] using h.complete

lemma Kept.wrote {x : World n K} (h : Kept x) (hfrom : x.mode.waits = false) (data : Byte) {mode : Mode}
    (hshakes : mode.shakes = false) (hreads : mode.reads = false) : Kept (x.writeCmd data mode) where
  books := h.books.wrote (h.done (h.idle hfrom)).1 data mode
  echo _ := by simp only [World.writeCmd, mgmtChanRegWrite_eq, if_true]
  untyped htyped := by cases htyped
  shaking hs := absurd (hshakes.symm.trans hs) (by decide)
  hushed := by
    rintro ⟨htyped, _⟩
    cases htyped
  pending hreq := by
    simp only [World.writeCmd, mgmtChanRegWrite_eq, h.idle hfrom] at hreq
    cases hreq
  done _ :=
    ⟨(h.done (h.idle hfrom)).1, fun hw => absurd ((waits_of_shakes hshakes).symm.trans hw) (by decide)⟩
  offered := by
    simp only [Offers, World.writeCmd, mgmtChanRegWrite_eq]
    exact h.offered
  reading hr := absurd (hreads.symm.trans hr) (by decide)

/-- A settle begins, with an echo that cannot pass for its end. -/
lemma Kept.settling {x : World n K} (h : Kept x) (hfrom : x.mode.settles = true) (hlast : x.ledger.lastCmd ≠ 0)
    (first : Bool) : Kept (x.writeStatus (.waiting first)) := by
  obtain ⟨hwaits, huntyped⟩ := waits_of_settles hfrom
  have hecho : (x.writeStatus (.waiting first)).chan.cmdEcho ≠ 0xFF := by
    change x.chan.cmdEcho ≠ 0xFF
    rw [h.echo (h.typed hwaits (.inl huntyped))]
    exact not_echoed hlast
  exact {
    books := ⟨h.books.ring, h.books.fifo, h.books.stamps, h.books.consumed, h.books.flushed, h.books.taken,
      h.books.complete⟩
    echo := fun htyped => by cases htyped
    untyped := fun _ => rfl
    shaking := fun _ => rfl
    hushed := fun hh => absurd (hh.2 rfl) hecho
    pending := fun _ => ⟨rfl, hecho, congrArg (· + 1) (h.done (h.idle hwaits)).1⟩
    done := fun hreq => by cases hreq
    offered := h.offered
    reading := fun hr => by cases hr }

lemma Kept.acknowledged {x : World n K} (h : Kept x) (hfrom : x.mode.reads = true) (phase : Bool) (d : Byte)
    {mode : Mode} (hshakes : mode.shakes = false) (hreads : mode.reads = false) :
    Kept (x.writeResp phase d mode) := by
  have hwaits := waits_of_reads hfrom
  have htyped := h.typed hwaits (.inl (untyped_of_reads hfrom))
  exact {
    books := ⟨h.books.ring, h.books.fifo, h.books.stamps, h.books.consumed, h.books.flushed, h.books.taken,
      h.books.complete⟩
    echo := h.echo
    untyped := fun ht => absurd (htyped.symm.trans ht) (by decide)
    shaking := fun hs => absurd (hshakes.symm.trans hs) (by decide)
    hushed := fun hh => absurd (htyped.symm.trans hh.1) (by decide)
    pending := fun hreq => absurd ((h.idle hwaits).symm.trans hreq) (by decide)
    done := fun hreq =>
      ⟨(h.done hreq).1, fun hw => absurd ((waits_of_shakes hshakes).symm.trans hw) (by decide)⟩
    offered := h.offered
    reading := fun hr => absurd (hreads.symm.trans hr) (by decide) }

lemma Kept.moved {x x' : World n K} (h : Kept x) (hmoved : Moved x x') : Kept x' := by
  cases hmoved with
  | stay => exact h
  | turn client hfrom hshakes huntyped hreads => exact h.turned hfrom hshakes huntyped hreads
  | echo first hfrom hecho => exact h.echoed hfrom hecho first
  | accept mode hfrom hshakes =>
    exact h.accepted hfrom
      (h.turned (waits_of_reads hfrom) hshakes (.inr (.inl (untyped_of_reads hfrom))) fun _ => .inl hfrom)
  | write data mode hfrom hshakes hreads => exact h.wrote hfrom data hshakes hreads
  | settle first hfrom hlast => exact h.settling hfrom hlast first
  | acknowledge phase d mode hfrom hshakes hreads => exact h.acknowledged hfrom phase d hshakes hreads

/-- What the client leaves alone. -/
structure Beside (x x' : World n K) : Prop where
  resp : x'.chan.resp = x.chan.resp
  engine : x'.shared.side.engine = x.shared.side.engine
  wasMenu : x'.shared.side.wasMenu = x.shared.side.wasMenu
  lifted : x'.ledger.lifted = x.ledger.lifted
  staged : x'.ledger.staged = x.ledger.staged

lemma Moved.beside {x x' : World n K} (h : Moved x x') : Beside x x' := by
  cases h with
  | write data mode _ _ _ =>
    have hnote (full : Bool) : (x.shared.side.note full data).engine = x.shared.side.engine ∧
        (x.shared.side.note full data).wasMenu = x.shared.side.wasMenu := by
      cases full <;> exact ⟨rfl, rfl⟩
    refine ⟨?_, (hnote _).1, (hnote _).2, rfl, rfl⟩
    simp only [World.writeCmd, mgmtChanRegWrite_eq]
  | _ => exact ⟨rfl, rfl, rfl, rfl, rfl⟩

/-- Only core 0 hushes the channel. -/
lemma Moved.hushed {x x' : World n K} (hkept : Kept x) (h : Moved x x') (hh : Hushed x') : Hushed x := by
  cases h with
  | stay => exact hh
  | turn _ hfrom _ _ _ => exact ⟨hh.1, fun hw => absurd (hfrom.symm.trans hw) (by decide)⟩
  | echo _ _ hecho => exact ⟨hh.1, fun _ => hecho⟩
  | accept _ hfrom _ | acknowledge _ _ _ hfrom _ _ =>
    exact ⟨hh.1, fun hw => absurd ((waits_of_reads hfrom).symm.trans hw) (by decide)⟩
  | write _ _ _ _ _ => cases hh.1
  | settle first hfrom hlast =>
    exact absurd (hh.2 rfl) ((hkept.settling hfrom hlast first).pending rfl).2.1

end PicoV9k.Dmaterm
