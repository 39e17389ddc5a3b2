import PicoV9k.StatusCells

/-!
# Places of the handshake

Where a controller stands in the handshake when the host may read DATA at any
place: an unexpected read leaves every place as it is, the read of the status and
the read of the message lead on. The queue is a path from the place of the worker
to the place the host has brought about.
-/
namespace PicoV9k.Sasi
open PicoV9k.Bus PicoV9k.Storage

variable {Io σ : Type}

inductive Transition
  | statusToMessage
  | messageToFree
  deriving DecidableEq, Repr

/-- The transition between two phases, of the STATUS cell or of the bus. -/
def Transition.between (before after : Byte) : Option Transition :=
  if before &&& phaseMask = sasiCtlBit ||| sasiInpBit ∧ after &&& phaseMask = phaseMask then
    some .statusToMessage
  else if before &&& phaseMask = phaseMask ∧ after &&& phaseMask = 0 then some .messageToFree
  else none

/-- The transition between two phases, with the time of the access behind it. -/
def transitionAt (seenAt : ℕ) (before after : Byte) : List (ℕ × Transition) :=
  (Transition.between before after).toList.map (seenAt, ·)

lemma transitionAt_none {before : Byte} (hstatus : before &&& phaseMask ≠ sasiCtlBit ||| sasiInpBit)
    (hmessage : before &&& phaseMask ≠ phaseMask) (seenAt : ℕ) (after : Byte) :
    transitionAt seenAt before after = [] := by
  unfold transitionAt Transition.between
  rw [if_neg fun h => hstatus h.1, if_neg fun h => hmessage h.1]
  rfl

lemma transitionAt_self (seenAt : ℕ) (b : Byte) : transitionAt seenAt b b = [] := by
  have hnone : ∀ b : Byte, Transition.between b b = none := by decide
  unfold transitionAt
  rw [hnone]
  rfl

lemma transitionAt_message {before after : Byte} (hbefore : before &&& phaseMask = sasiCtlBit ||| sasiInpBit)
    (hafter : after &&& phaseMask = phaseMask) (seenAt : ℕ) :
    transitionAt seenAt before after = [(seenAt, .statusToMessage)] := by
  unfold transitionAt Transition.between
  rw [if_pos ⟨hbefore, hafter⟩]
  rfl

lemma transitionAt_free {before : Byte} (hbefore : before &&& phaseMask = phaseMask) (seenAt : ℕ) :
    transitionAt seenAt before 0 = [(seenAt, .messageToFree)] := by
  have hstatus : before &&& phaseMask ≠ sasiCtlBit ||| sasiInpBit := by
    rw [hbefore]
    decide
  unfold transitionAt Transition.between
  rw [if_neg fun h => hstatus h.1, if_pos ⟨hbefore, by decide⟩]
  rfl

/-- The command is answered by the request for a list: SET DRIVE PARAMS without DMA. -/
def Asks (dma : Bool) (cdb : List Byte) : Prop :=
  Opcode.ofByte (cdbByte cdb 0) = .driveParams ∧ dma = false

instance (dma : Bool) (cdb : List Byte) : Decidable (Asks dma cdb) :=
  inferInstanceAs (Decidable (_ ∧ _))

/-- The DMA mode after an access. -/
def modeAfter (dma : Bool) : FifoEvent → Bool
  | .write .control data => if hasBit data dmaOnLatchBit then hasBit data dmaOnValueBit else dma
  | _ => dma

/-- `bytes` of the CDB have been written, `left` bytes of a list are missing. The last byte of a CDB
is to be answered by a request for a list in `asking`, else in `executing`; `listed` is for that
of a list. -/
inductive Place
  | free
  | selected
  | command (bytes : List Byte)
  | asking
  | executing (listed : Bool)
  | list (left : ℕ)
  | status
  | message
  deriving DecidableEq, Repr

/-- A DATA read means nothing here. -/
def Place.Unread : Place → Prop
  | .executing _ | .status | .message => False
  | _ => True

/-- What one access makes of a place, and the transition it stands for. -/
inductive Place.Step (dma : Bool) : Place → Entry → Place → List (ℕ × Transition) → Prop
  | configure {data : Byte} (seenAt : ℕ) (hr : hasBit data dmaResetBit = false)
      (hs : hasBit data dmaSelectBit = false) : Step dma .free ⟨.write .control data, seenAt⟩ .free []
  | target (data : Byte) (seenAt : ℕ) : Step dma .free ⟨.write .data data, seenAt⟩ .free []
  | select {data : Byte} (seenAt : ℕ) (hr : hasBit data dmaResetBit = false)
      (hs : hasBit data dmaSelectBit = true) :
      Step dma .free ⟨.write .control data, seenAt⟩ .selected []
  | release {data : Byte} (seenAt : ℕ) (hr : hasBit data dmaResetBit = false)
      (hs : hasBit data dmaSelectBit = false) :
      Step dma .selected ⟨.write .control data, seenAt⟩ (.command []) []
  | byte {bytes : List Byte} (data : Byte) (seenAt : ℕ) (h : bytes.length + 1 < cdbLength) :
      Step dma (.command bytes) ⟨.write .data data, seenAt⟩ (.command (bytes ++ [data])) []
  | lastByte {bytes : List Byte} (data : Byte) (seenAt : ℕ) (h : bytes.length + 1 = cdbLength)
      (hasks : ¬ Asks dma (bytes ++ [data])) :
      Step dma (.command bytes) ⟨.write .data data, seenAt⟩ (.executing false) []
  | asked {bytes : List Byte} (data : Byte) (seenAt : ℕ) (h : bytes.length + 1 = cdbLength)
      (hasks : Asks dma (bytes ++ [data])) :
      Step dma (.command bytes) ⟨.write .data data, seenAt⟩ .asking []
  | listByte {left : ℕ} (data : Byte) (seenAt : ℕ) (h : left ≠ 0) :
      Step dma (.list (left + 1)) ⟨.write .data data, seenAt⟩ (.list left) []
  | lastListByte (data : Byte) (seenAt : ℕ) :
      Step dma (.list 1) ⟨.write .data data, seenAt⟩ (.executing true) []
  | unexpected {w : Place} (seenAt : ℕ) (hw : w.Unread) : Step dma w ⟨.readCommit .data, seenAt⟩ w []
  | statusRead (seenAt : ℕ) :
      Step dma .status ⟨.readCommit .data, seenAt⟩ .message [(seenAt, .statusToMessage)]
  | messageRead (seenAt : ℕ) :
      Step dma .message ⟨.readCommit .data, seenAt⟩ .free [(seenAt, .messageToFree)]

/-- The queued accesses lead from one place and DMA mode to another, with the transitions they
stand for. -/
inductive Place.Path : Bool → Place → List Entry → Bool → Place → List (ℕ × Transition) → Prop
  | nil (dma : Bool) (w : Place) : Path dma w [] dma w []
  | cons {dma dma' : Bool} {w w' h : Place} {e : Entry} {q : List Entry} {m ms : List (ℕ × Transition)}
      (hs : Step dma w e w' m) (hq : Path (modeAfter dma e.event) w' q dma' h ms) :
      Path dma w (e :: q) dma' h (m ++ ms)

section Paths

variable {dma dma' : Bool} {w h : Place} {q : List Entry} {ms : List (ℕ × Transition)}

lemma Place.Path.snoc {h' : Place} {e : Entry} {m : List (ℕ × Transition)}
    (hq : Path dma w q dma' h ms) (hs : Step dma' h e h' m) :
    Path dma w (q ++ [e]) (modeAfter dma' e.event) h' (ms ++ m) := by
  induction hq with
  | nil dma w => simpa using Path.cons hs (.nil _ _)
  | cons hs' _ ih =>
    rw [List.append_assoc]
    exact .cons hs' (ih hs)

lemma Place.Path.of_nil (hq : Path dma w [] dma' h ms) : dma' = dma ∧ h = w ∧ ms = [] := by
  cases hq
  exact ⟨rfl, rfl, rfl⟩

lemma Place.Path.of_cons {e : Entry} (hq : Path dma w (e :: q) dma' h ms) :
    ∃ w' m ms', ms = m ++ ms' ∧ Step dma w e w' m ∧ Path (modeAfter dma e.event) w' q dma' h ms' := by
  cases hq with
  | cons hs hrest => exact ⟨_, _, _, rfl, hs, hrest⟩

/-- Nothing is queued behind the last byte of a command. -/
lemma Place.Path.of_executing {listed : Bool} (hq : Path dma (.executing listed) q dma' h ms) :
    q = [] ∧ dma' = dma ∧ h = .executing listed ∧ ms = [] := by
  cases hq with
  | nil => exact ⟨rfl, rfl, rfl, rfl⟩
  | cons hs _ =>
    cases hs with
    | unexpected _ hw => exact hw.elim

/-- Behind the last byte of a CDB that is answered by the request for a list only reads may be
queued, and they mean as little after the request. -/
lemma Place.Path.of_asking (hq : Path dma w q dma' h ms) (hw : w = .asking) :
    h = .asking ∧ ∀ left, Path dma (.list left) q dma' (.list left) ms := by
  induction hq with
  | nil dma w => exact ⟨hw, fun left => .nil _ _⟩
  | cons hs _ ih =>
    subst hw
    cases hs with
    | unexpected seenAt _ =>
      obtain ⟨hh, hpath⟩ := ih rfl
      exact ⟨hh, fun left => .cons (.unexpected seenAt trivial) (hpath left)⟩

/-- Only an empty queue leads to the status phase. -/
lemma Place.Path.to_status (hq : Path dma w q dma' h ms) (hh : h = .status) : q = [] ∧ w = .status := by
  induction hq with
  | nil dma w => exact ⟨rfl, hh⟩
  | cons hs _ ih =>
    obtain ⟨-, hw'⟩ := ih hh
    subst hw'
    cases hs with
    | unexpected _ hw => exact hw.elim

lemma Place.Path.to_message (hq : Path dma w q dma' h ms) (hh : h = .message) :
    q = [] ∧ w = .message ∨ q.length = 1 ∧ w = .status := by
  induction hq with
  | nil dma w => exact .inl ⟨rfl, hh⟩
  | cons hs _ ih =>
    rcases ih hh with ⟨hnil, hw'⟩ | ⟨-, hw'⟩
    · subst hw'
      cases hs with
      | unexpected _ hw => exact hw.elim
      | statusRead seenAt => exact .inr ⟨by rw [hnil]; rfl, rfl⟩
    · subst hw'
      cases hs with
      | unexpected _ hw => exact hw.elim

/-- From a command the host only gets as far as its last byte. -/
lemma Place.Path.of_command (hq : Path dma w q dma' h ms) {bytes : List Byte} (hw : w = .command bytes) :
    (∃ bytes', h = .command bytes') ∨ h = .asking ∨ h = .executing false := by
  induction hq generalizing bytes with
  | nil dma w => exact .inl ⟨bytes, hw⟩
  | cons hs hrest ih =>
    subst hw
    cases hs with
    | byte data seenAt hlen => exact ih rfl
    | lastByte data seenAt hlen _ => exact .inr (.inr hrest.of_executing.2.2.1)
    | asked data seenAt hlen _ => exact .inr (.inl (hrest.of_asking rfl).1)
    | unexpected seenAt hw => exact ih rfl

lemma Place.Path.of_list (hq : Path dma w q dma' h ms) {left : ℕ} (hw : w = .list left) :
    (∃ left', h = .list left') ∨ h = .executing true := by
  induction hq generalizing left with
  | nil dma w => exact .inl ⟨left, hw⟩
  | cons hs hrest ih =>
    subst hw
    cases hs with
    | listByte data seenAt hlen => exact ih rfl
    | lastListByte data seenAt => exact .inr hrest.of_executing.2.2.1
    | unexpected seenAt hw => exact ih rfl

end Paths

inductive Place.Holds : Place → Controller → Option Transfer → Prop
  | free {k : Controller} (h : k.Rests 0x00 false false []) : Holds .free k none
  | selected {k : Controller} (h : k.Rests 0x24 true false []) : Holds .selected k none
  | command {k : Controller} {bytes : List Byte} (h : k.Rests 0x0E false true bytes)
      (hlen : bytes.length < cdbLength) : Holds (.command bytes) k none
  | executing {k : Controller} {target : Byte} {cdb : List Byte} {issuedAt : ℕ} {t : Transfer}
      (h : k.Works target cdb issuedAt) (haddr : t.localDmaAddr < ramSize)
      (hmsg : hasBit k.busCtrl sasiMsgBit = false) : Holds (.executing false) k (some t)
  | list {k : Controller} {left : ℕ} (hbus : k.busCtrl = 0x0C)
      (hsel : hasBit k.control dmaSelectBit = false) (hreq : k.nonDmaReq = true)
      (hleft : k.dataOutExpected = left) (hpos : 0 < left) (hbuf : k.cmdBuffer = []) :
      Holds (.list left) k none
  | status {k : Controller} (h : k.Rests 0x0F false true []) (hp : k.statusPending = true)
      (ho : k.statusOf.isSome = true) : Holds .status k none
  | message {k : Controller} (h : k.Rests 0x1F false true []) : Holds .message k none

/-- The phase the STATUS cell shows at a place. -/
def Place.Shows (cell : Byte) : Place → Prop
  | .free | .selected | .list _ | .executing true => cell &&& phaseMask = 0
  | .command _ | .asking => cell &&& phaseMask = sasiCtlBit
  | .executing false =>
    cell &&& phaseMask ≠ sasiCtlBit ||| sasiInpBit ∧ hasBit cell sasiMsgBit = false
  | .status => cell &&& phaseMask = sasiCtlBit ||| sasiInpBit
  | .message => cell &&& phaseMask = phaseMask

/-- How a last byte is answered: by the status, by the request for a list, or by a transfer. -/
inductive Answer : Place → Place → Prop
  | status (listed : Bool) : Answer (.executing listed) .status
  | list : Answer .asking (.list driveParamsLength)
  | transfer : Answer (.executing false) (.executing false)

/-- The cell after an entry that needs no answer: as before, or the request for the next byte. -/
def Place.Requests (cell cell' : Byte) : Place → Prop
  | .command _ => cell' = cell ∨ cell' &&& phaseMask = sasiCtlBit
  | .list _ => cell' = cell ∨ cell' &&& phaseMask = 0
  | _ => cell' = cell

/-- What the worker makes of an entry that leads to the place `w'`. -/
inductive Served (c : Card σ) (w' : Place) (r : Card σ × Option Transfer) : Prop
  | quiet (hidle : r.2 = none) (hw : w'.Holds r.1.controller none)
      (hcells : w'.Requests c.cache.status r.1.cache.status)
  | answered {v : Place} (hv : Answer w' v) (hw : v.Holds r.1.controller r.2)
      (hshows : v.Shows r.1.cache.status) (hsync : r.2.isSome = true → r.1.Synced)

lemma Place.Holds.moving {w : Place} {k : Controller} {t : Transfer} (h : w.Holds k (some t)) :
    w = .executing false ∧ busyBus k.busCtrl = true ∧ t.localDmaAddr < ramSize ∧
      hasBit k.busCtrl sasiMsgBit = false := by
  cases h with
  | executing hworks haddr hmsg => exact ⟨rfl, hworks.busy, haddr, hmsg⟩

lemma request_shown : ∀ cell : Byte, cell &&& phaseMask = sasiCtlBit →
    cell &&& phaseMask ≠ sasiCtlBit ||| sasiInpBit ∧ hasBit cell sasiMsgBit = false := by
  decide

/-- A request for the next byte is what STATUS may show anywhere further on. -/
lemma Place.Path.shows {dma dma' : Bool} {w h : Place} {q : List Entry} {ms : List (ℕ × Transition)}
    {cell cell' : Byte} (hq : Path dma w q dma' h ms) (hcells : w.Requests cell cell')
    (hshows : h.Shows cell) : h.Shows cell' := by
  cases w with
  | command bytes =>
    rcases hcells with rfl | hcell
    · exact hshows
    · rcases hq.of_command rfl with ⟨bytes', rfl⟩ | rfl | rfl
      · exact hcell
      · exact hcell
      · exact request_shown _ hcell
  | list left =>
    rcases hcells with rfl | hcell
    · exact hshows
    · rcases hq.of_list rfl with ⟨left', rfl⟩ | rfl
      · exact hcell
      · exact hcell
  | _ =>
    have hsame : cell' = cell := hcells
    rwa [hsame]

/-- After the answer the path goes on from the place it leads to. -/
lemma Place.Path.answered {dma dma' : Bool} {w v h : Place} {q : List Entry} {ms : List (ℕ × Transition)}
    (hq : Path dma w q dma' h ms) (hv : Answer w v) : h = w ∧ Path dma v q dma' v ms := by
  cases hv with
  | status listed =>
    obtain ⟨rfl, rfl, rfl, rfl⟩ := hq.of_executing
    exact ⟨rfl, .nil _ _⟩
  | list => exact ⟨(hq.of_asking rfl).1, (hq.of_asking rfl).2 _⟩
  | transfer =>
    obtain ⟨rfl, rfl, rfl, rfl⟩ := hq.of_executing
    exact ⟨rfl, .nil _ _⟩

end PicoV9k.Sasi
