import PicoV9k.BusFree
import PicoV9k.ReplayWorker

/-!
# Phases that STATUS shows

The phase of the bus on the worker's side, the phase STATUS shows on the host's side, and
the queued accesses that lead from one to the other when no RESET is among them.
-/
namespace PicoV9k.Sasi
open PicoV9k.Bus PicoV9k.Storage

variable {Io σ : Type}

/-- SELECT may be high on an idle bus behind a RESET that raised it. The controller waits for the
first byte of a command, and takes it and what follows. -/
inductive Phase
  | idle (select : Bool)
  | selected
  | waiting
  | taking
  | status
  | message
  deriving DecidableEq, Repr

def Phase.select : Phase → Bool
  | .idle select => select
  | .selected => true
  | _ => false

/-- A command is asked for or under way. -/
def Phase.Busy (w : Phase) : Prop := w = .waiting ∨ w = .taking

/-- A DATA read means nothing here. -/
def Phase.Unread : Phase → Prop
  | .taking | .status | .message => False
  | _ => True

/-- What an access makes of a phase. -/
inductive Phase.Step : Phase → FifoEvent → Phase → Prop
  | configure {w : Phase} {data : Byte} (hr : hasBit data dmaResetBit = false)
      (hs : hasBit data dmaSelectBit = w.select) : Step w (.write .control data) w
  | select {data : Byte} (hr : hasBit data dmaResetBit = false) (hs : hasBit data dmaSelectBit = true) :
      Step (.idle false) (.write .control data) .selected
  | release {w : Phase} {data : Byte} (hr : hasBit data dmaResetBit = false)
      (hs : hasBit data dmaSelectBit = false) (hw : w = .idle true ∨ w = .selected) :
      Step w (.write .control data) .waiting
  | firstByte (data : Byte) : Step .waiting (.write .data data) .taking
  | byte {w : Phase} (data : Byte) (hw : w ≠ .waiting) : Step w (.write .data data) w
  | unexpected {w : Phase} (hw : w.Unread) : Step w (.readCommit .data) w
  | statusRead : Step .status (.readCommit .data) .message
  | messageRead : Step .message (.readCommit .data) (.idle false)

lemma Phase.Step.not_reset {w w' : Phase} {event : FifoEvent} (h : Step w event w') :
    isResetWrite event = false := by
  cases h with
  | configure hr _ => exact hr
  | select hr _ => exact hr
  | release hr _ _ => exact hr
  | _ => rfl

inductive Phase.Path : Phase → List Entry → Phase → Prop
  | nil (w : Phase) : Path w [] w
  | cons {w w' h : Phase} {event : FifoEvent} {q : List Entry} (seenAt : ℕ) (hs : Step w event w')
      (hq : Path w' q h) : Path w (⟨event, seenAt⟩ :: q) h

lemma Phase.Path.snoc {w h h' : Phase} {q : List Entry} {event : FifoEvent} (hq : Path w q h)
    (seenAt : ℕ) (hs : Step h event h') : Path w (q ++ [⟨event, seenAt⟩]) h' := by
  induction hq with
  | nil w => exact .cons seenAt hs (.nil h')
  | cons seenAt' hs' _ ih => exact .cons seenAt' hs' (ih hs)

lemma Phase.Path.not_reset {w h : Phase} {q : List Entry} (hq : Path w q h) : ∀ e ∈ q, ¬ e.IsReset := by
  induction hq with
  | nil w => exact fun e he => absurd he List.not_mem_nil
  | cons seenAt hs _ ih =>
    intro e he
    rcases List.mem_cons.mp he with rfl | he
    · exact not_isReset hs.not_reset
    · exact ih e he

/-- A command that is asked for is not over before the worker says so. -/
lemma Phase.Path.of_busy {w h : Phase} {q : List Entry} (hq : Path w q h) (hw : w.Busy) : h.Busy := by
  induction hq with
  | nil w => exact hw
  | cons seenAt hs _ ih =>
    apply ih
    rcases hw with rfl | rfl
    · cases hs with
      | configure _ _ => exact .inl rfl
      | release _ _ hw => rcases hw with hw | hw <;> cases hw
      | firstByte data => exact .inr rfl
      | byte data hw => exact absurd rfl hw
      | unexpected _ => exact .inl rfl
    · cases hs with
      | configure _ _ => exact .inr rfl
      | release _ _ hw => rcases hw with hw | hw <;> cases hw
      | byte data _ => exact .inr rfl
      | unexpected hw => exact hw.elim

/-- No read is queued behind a byte of the command, and what is queued there means nothing to the
status phase. -/
lemma Phase.Path.of_taking {w h : Phase} {q : List Entry} (hq : Path w q h) (hw : w = .taking) :
    h = .taking ∧ Path .status q .status := by
  induction hq with
  | nil w => exact ⟨hw, .nil _⟩
  | cons seenAt hs _ ih =>
    subst hw
    cases hs with
    | configure hr hs =>
      obtain ⟨hh, hpath⟩ := ih rfl
      exact ⟨hh, .cons seenAt (.configure hr hs) hpath⟩
    | release _ _ hw => rcases hw with hw | hw <;> cases hw
    | byte data _ =>
      obtain ⟨hh, hpath⟩ := ih rfl
      exact ⟨hh, .cons seenAt (.byte data (by simp)) hpath⟩
    | unexpected hw => exact hw.elim

/-- An access other than a write of DATA. -/
def notData : FifoEvent → Bool
  | .write .data _ => false
  | _ => true

/-- With no byte in the queue the controller is as good as waiting for the first one. -/
lemma Phase.Path.rewait {w h : Phase} {q : List Entry} (hq : Path w q h) (hh : h = .taking)
    (hnone : ∀ e ∈ q, notData e.event = true) : w = .taking ∧ Path .waiting q .waiting := by
  induction hq with
  | nil w => exact ⟨hh, .nil _⟩
  | cons seenAt hs _ ih =>
    obtain ⟨rfl, hpath⟩ := ih hh fun e he => hnone e (List.mem_cons_of_mem _ he)
    have hfirst := hnone _ List.mem_cons_self
    cases hs with
    | configure hr hs => exact ⟨rfl, .cons seenAt (.configure hr hs) hpath⟩
    | firstByte data => cases hfirst
    | byte data _ => cases hfirst
    | unexpected hw => exact hw.elim

def Phase.Bus : Phase → Byte → Prop
  | .idle _, bus => bus = 0
  | .selected, bus => bus &&& statusMask = sasiBsyBit
  | .waiting, bus | .taking, bus => hasBit bus sasiBsyBit = true ∧ hasBit bus sasiMsgBit = false ∧
      bus &&& phaseMask ≠ sasiCtlBit ||| sasiInpBit
  | .status, bus => bus &&& statusMask = statusMask &&& ~~~sasiMsgBit
  | .message, bus => bus &&& statusMask = statusMask

/-- The worker is in a phase. -/
structure Phase.Holds (w : Phase) (c : Card σ) (t : Option Transfer) : Prop where
  tidy : c.controller.Tidy t.isSome
  bus : w.Bus c.dma.busCtrl
  select : hasBit c.dma.control dmaSelectBit = w.select
  moving : t.isSome = true → w = .taking
  quiet : w = .selected → c.dma.nonDmaReq = false ∧ c.dma.dataOutExpected = 0
  pending : w = .status → c.dma.statusPending = true

/-- What STATUS shows of the phase `h` of the host while the worker is in the phase `w`: its own
prediction, until the worker has caught up with the release of SELECT. -/
def Phase.Shows (w h : Phase) (c : Card σ) : Prop :=
  match h with
  | .idle _ => c.cache.status = 0
  | .selected => c.cache.status = sasiBsyBit
  | .waiting | .taking =>
    (w.Busy → c.Synced) ∧ (¬ w.Busy → c.cache.status = sasiBsyBit ||| sasiReqBit ||| sasiCtlBit)
  | .status => c.cache.status = statusMask &&& ~~~sasiMsgBit
  | .message => c.cache.status = statusMask

lemma Phase.Shows.of_cell {w h : Phase} {c c' : Card σ} (hshows : w.Shows h c)
    (hcell : c'.cache.status = c.cache.status) (hsync : w.Busy → c.Synced → c'.Synced) : w.Shows h c' := by
  cases h with
  | waiting => exact ⟨fun hb => hsync hb (hshows.1 hb), fun hb => hcell.trans (hshows.2 hb)⟩
  | taking => exact ⟨fun hb => hsync hb (hshows.1 hb), fun hb => hcell.trans (hshows.2 hb)⟩
  | _ => exact hcell.trans hshows

/-- The phase the worker comes to makes no difference to what STATUS shows, unless a command is
asked for. -/
lemma Phase.Shows.moved {w w' h : Phase} {c : Card σ} (hshows : w.Shows h c) (hb : h.Busy → (w.Busy ↔ w'.Busy)) :
    w'.Shows h c := by
  cases h with
  | waiting =>
    have hb' := hb (.inl rfl)
    exact ⟨fun h => hshows.1 (hb'.mpr h), fun h => hshows.2 (mt hb'.mp h)⟩
  | taking =>
    have hb' := hb (.inr rfl)
    exact ⟨fun h => hshows.1 (hb'.mpr h), fun h => hshows.2 (mt hb'.mp h)⟩
  | _ => exact hshows

/-- A worker that has caught up agrees with STATUS. -/
lemma Phase.Holds.synced {w : Phase} {c : Card σ} {t : Option Transfer} (hw : w.Holds c t)
    (hshows : w.Shows w c) : c.Synced := by
  have hbus := hw.bus
  cases w with
  | idle select =>
    have hzero : c.dma.busCtrl = 0 := hbus
    have hcell : c.cache.status = 0 := hshows
    unfold Card.Synced
    rw [hcell, hzero]
    rfl
  | waiting => exact hshows.1 (.inl rfl)
  | taking => exact hshows.1 (.inr rfl)
  | _ => exact Eq.trans hshows hbus.symm

/-- In a phase without a command nothing is left of one. -/
lemma Phase.Holds.noList {w : Phase} {c : Card σ} (hw : w.Holds c none) (hb : ¬ w.Busy) :
    c.dma.dataOutExpected = 0 ∧ c.dma.busCtrl &&& phaseMask ≠ sasiCtlBit := by
  have hoffered : ∀ b : Byte, (b &&& statusMask = statusMask &&& ~~~sasiMsgBit ∨ b &&& statusMask = statusMask) →
      b &&& phaseMask ≠ 0 ∧ b &&& phaseMask ≠ sasiCtlBit := by decide
  have hnone (h : c.dma.busCtrl &&& phaseMask ≠ 0) : c.dma.dataOutExpected = 0 := by
    by_contra hl
    exact h (hw.tidy.list hl).1
  have hbus := hw.bus
  cases w with
  | idle select =>
    have hzero : c.dma.busCtrl = 0 := hbus
    refine ⟨(hw.tidy.clean hzero).dataOutExpected, ?_⟩
    rw [hzero]
    exact phase_zero.1
  | selected =>
    have hphase : ∀ b : Byte, b &&& statusMask = sasiBsyBit → b &&& phaseMask ≠ sasiCtlBit := by decide
    exact ⟨(hw.quiet rfl).2, hphase _ hbus⟩
  | waiting => exact absurd (.inl rfl) hb
  | taking => exact absurd (.inr rfl) hb
  | status => exact ⟨hnone (hoffered _ (.inl hbus)).1, (hoffered _ (.inl hbus)).2⟩
  | message => exact ⟨hnone (hoffered _ (.inr hbus)).1, (hoffered _ (.inr hbus)).2⟩

end PicoV9k.Sasi
