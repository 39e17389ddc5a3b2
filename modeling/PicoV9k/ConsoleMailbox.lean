import PicoV9k.StorageRouting
import PicoV9k.TransitionRun

/-!
# The console mailbox

`console_ops.c`: core 0 fills one request slot and waits for its result, core 1 runs
the request in passes of its worker loop. Every load and store of a shared variable
is a step of its own, so the two cores may interleave between any two of them; what a
handler does to the cards is left to the outcomes it reports.
-/
namespace PicoV9k.Console
open PicoV9k.Bus PicoV9k.Storage PicoV9k.Runs

inductive ConsoleOp
  | ping | lsSd | lsFuji | mount | eject | peek | wifiGet | wifiSet | scan | status | create | copy | rm
  deriving DecidableEq, Repr

def opTimeoutMs : ConsoleOp → ℕ
  | .ping | .status | .wifiGet | .lsSd | .peek => 5000
  | .lsFuji | .mount | .eject => 10000
  | .wifiSet | .scan => 20000
  | .create => 60000
  | .copy => 300000
  | .rm => 10000

abbrev conopArg1Max : ℕ := 128
abbrev conopArg2Max : ℕ := 80

/-- The argument fields of the slot; a string is the bytes before its NUL. -/
structure Slot where
  op : ConsoleOp
  backend : Backend
  target : Byte
  lba : BitVec 32
  arg1 : List Byte
  arg2 : List Byte
  deriving DecidableEq, Repr

/-- The arguments of one `console_op_submit`; the strings may be NULL. -/
structure Request where
  op : ConsoleOp
  backend : Backend
  target : Byte
  lba : BitVec 32
  arg1 : Option (List Byte)
  arg2 : Option (List Byte)
  deriving DecidableEq, Repr

/-- `conop_result_t`, with the fields of the single operations as `data`. -/
structure ConopResult (D : Type) where
  ok : Bool
  err : List Byte
  data : D

inductive SlotState
  | idle | pending | done
  deriving DecidableEq, Repr

/-- The stores that fill the slot, in their order. -/
inductive Field
  | op | backend | target | lba | clear1 | clear2 | arg1 | arg2
  deriving DecidableEq, Repr

def fields : List Field := [.op, .backend, .target, .lba, .clear1, .clear2, .arg1, .arg2]

/-- `strncpy` into a field of `size` bytes whose last one is the NUL. -/
def copyArg (size : ℕ) (old : List Byte) : Option (List Byte) → List Byte
  | some arg => arg.take (size - 1)
  | none => old

def Slot.store (req : Request) (slot : Slot) : Field → Slot
  | .op => { slot with op := req.op }
  | .backend => { slot with backend := req.backend }
  | .target => { slot with target := req.target }
  | .lba => { slot with lba := req.lba }
  | .clear1 => { slot with arg1 := [] }
  | .clear2 => { slot with arg2 := [] }
  | .arg1 => { slot with arg1 := copyArg conopArg1Max slot.arg1 req.arg1 }
  | .arg2 => { slot with arg2 := copyArg conopArg2Max slot.arg2 req.arg2 }

/-- Where core 0 is in `console_op_submit`. `busy` remembers whether the first load saw PENDING,
`id` counts the requests published before this one. -/
inductive Core0
  | outside
  | reclaim (req : Request)
  | reclaiming (req : Request)
  | check (req : Request) (busy : Bool)
  | fill (req : Request) (left : List Field)
  | wait (id timeoutMs waited : ℕ)
  | finish (id : ℕ)

/-- Where core 1 is in `console_op_service`. -/
inductive Core1
  | outside | entered | chunk | clear | dispatch | copyBegin | handle | publish
  deriving DecidableEq

/-- What happens outside the mailbox in one step of core 1. -/
inductive Outcome (D : Type)
  | proceed
  | written (res : ConopResult D)
  | finished (res : ConopResult D)
  | copyStarted
  | copyRefused (err : List Byte)
  | chunkMore
  | chunkDone
  | chunkFailed (err : List Byte)

/-- The statics of the mailbox and the two program counters, with a record of the requests
published, of the arguments core 1 began to execute and had executed with their results, and of the
results handed back. -/
structure Mailbox (D : Type) where
  state : SlotState
  slot : Slot
  res : ConopResult D
  copyRunning : Bool
  core0 : Core0
  core1 : Core1
  accepted : List Request
  begun : List Slot
  ended : List (Slot × ConopResult D)
  answers : List (ℕ × ConopResult D)

variable {D : Type} [Inhabited D]

def ConopResult.zero : ConopResult D := ⟨false, [], default⟩

def Mailbox.initial : Mailbox D where
  state := .idle
  slot := ⟨.ping, .none, 0, 0, [], []⟩
  res := .zero
  copyRunning := false
  core0 := .outside
  core1 := .outside
  accepted := []
  begun := []
  ended := []
  answers := []

/-- The next action of core 0. -/
def Mailbox.core0Step (s : Mailbox D) : Option (Mailbox D) :=
  match s.core0 with
  | .outside => none
  | .reclaim req =>
    if s.state = .done then some { s with core0 := .reclaiming req }
    else some { s with core0 := .check req (s.state ≠ .idle) }
  | .reclaiming req => some { s with state := .idle, core0 := .check req false }
  | .check req _ =>
    if s.state ≠ .idle then some { s with core0 := .outside }
    else some { s with core0 := .fill req fields }
  | .fill req (field :: left) => some { s with slot := s.slot.store req field, core0 := .fill req left }
  | .fill req [] => some { s with
      state := .pending
      accepted := s.accepted ++ [req]
      core0 := .wait s.accepted.length (opTimeoutMs req.op) 0 }
  | .wait id timeoutMs waited =>
    if s.state = .done then some { s with core0 := .finish id }
    else if timeoutMs ≤ waited then some { s with core0 := .outside }
    else some { s with core0 := .wait id timeoutMs (waited + 1) }
  | .finish id => some { s with
      state := .idle
      core0 := .outside
      answers := s.answers ++ [(id, s.res)] }

/-- The operation has its result. -/
def Mailbox.conclude (s : Mailbox D) (res : ConopResult D) : Mailbox D :=
  { s with res := res, copyRunning := false, core1 := .publish, ended := s.ended ++ [(s.slot, res)] }

/-- The next action of core 1 inside a pass. -/
def Mailbox.core1Step (s : Mailbox D) : Outcome D → Option (Mailbox D)
  | .proceed => match s.core1 with
    | .entered => some { s with core1 := if s.copyRunning then .chunk else .clear }
    | .clear => some { s with res := .zero, core1 := .dispatch }
    | .dispatch => some { s with
        core1 := if s.slot.op = .copy then .copyBegin else .handle
        begun := s.begun ++ [s.slot] }
    | .publish => some { s with state := .done, core1 := .outside }
    | _ => none
  | .written res => if s.core1 = .handle then some { s with res := res } else none
  | .finished res => if s.core1 = .handle then some (s.conclude res) else none
  | .copyStarted =>
    if s.core1 = .copyBegin then some { s with copyRunning := true, core1 := .outside } else none
  | .copyRefused err =>
    if s.core1 = .copyBegin then some (s.conclude { s.res with ok := false, err := err }) else none
  | .chunkMore => if s.core1 = .chunk then some { s with core1 := .outside } else none
  | .chunkDone => if s.core1 = .chunk then some (s.conclude { s.res with ok := true }) else none
  | .chunkFailed err =>
    if s.core1 = .chunk then some (s.conclude { s.res with ok := false, err := err }) else none

/-- The console submits, the worker loop starts a pass, or either core takes its next action. -/
inductive Label (D : Type)
  | submit (req : Request)
  | core0
  | pass
  | core1 (outcome : Outcome D)

def Mailbox.step (s : Mailbox D) : Label D → Option (Mailbox D)
  | .submit req => match s.core0 with
    | .outside => some { s with core0 := .reclaim req }
    | _ => none
  | .core0 => s.core0Step
  | .pass =>
    if s.core1 = .outside then
      some { s with core1 := if s.state = .pending then .entered else .outside }
    else none
  | .core1 outcome => s.core1Step outcome

/-- The arguments as they were submitted, NULL being the empty string. -/
def Request.asSubmitted (req : Request) : Slot :=
  ⟨req.op, req.backend, req.target, req.lba, req.arg1.getD [], req.arg2.getD []⟩

/-- The arguments as the slot holds them. -/
def Request.asStored (req : Request) : Slot :=
  ⟨req.op, req.backend, req.target, req.lba, copyArg conopArg1Max [] req.arg1,
    copyArg conopArg2Max [] req.arg2⟩

/-- The strings fit into their fields with a NUL. -/
def Request.Fits (req : Request) : Prop :=
  (req.arg1.getD []).length < conopArg1Max ∧ (req.arg2.getD []).length < conopArg2Max

instance (req : Request) : Decidable req.Fits := inferInstanceAs (Decidable (_ ∧ _))

lemma fields_stored (req : Request) (slot : Slot) : fields.foldl (Slot.store req) slot = req.asStored := rfl

lemma copyArg_eq_iff {size : ℕ} (hsize : 0 < size) (arg : Option (List Byte)) :
    copyArg size [] arg = arg.getD [] ↔ (arg.getD []).length < size := by
  cases arg with
  | none => simp [copyArg, hsize]
  | some arg =>
    simp only [copyArg, Option.getD_some, List.take_eq_self_iff]
    omega

/-- The slot holds what was submitted exactly when it fits. -/
theorem Request.asStored_eq_iff (req : Request) : req.asStored = req.asSubmitted ↔ req.Fits := by
  have h1 := copyArg_eq_iff (by decide : 0 < conopArg1Max) req.arg1
  have h2 := copyArg_eq_iff (by decide : 0 < conopArg2Max) req.arg2
  simp only [asStored, asSubmitted, Slot.mk.injEq, true_and, Fits, h1, h2]

/-- What core 0 knows where it stands. -/
def Core0.Agrees (state : SlotState) (slot : Slot) (published : ℕ) : Core0 → Prop
  | .outside | .reclaim _ => True
  | .reclaiming _ => state = .done
  | .check _ busy => if busy then state ≠ .idle else state = .idle
  | .fill req left => state = .idle ∧ left.foldl (Slot.store req) slot = req.asStored
  | .wait id _ _ => state ≠ .idle ∧ id + 1 = published
  | .finish id => state = .done ∧ id + 1 = published

/-- How far core 1 has come with the request in the slot, after the requests `past`. -/
inductive Mailbox.Progress (s : Mailbox D) (past : List Slot) : Prop
  | waiting (h1 : s.core1 = .outside ∨ s.core1 = .entered ∨ s.core1 = .clear ∨ s.core1 = .dispatch)
      (hcopy : s.copyRunning = false) (hbegun : s.begun = past) (hended : s.ended.map Prod.fst = past)
  | copying (h1 : s.core1 = .outside ∨ s.core1 = .entered ∨ s.core1 = .chunk)
      (hcopy : s.copyRunning = true) (hbegun : s.begun = past ++ [s.slot])
      (hended : s.ended.map Prod.fst = past)
  | running (h1 : s.core1 = .handle ∨ s.core1 = .copyBegin)
      (hcopy : s.copyRunning = false) (hbegun : s.begun = past ++ [s.slot])
      (hended : s.ended.map Prod.fst = past)
  | concluded (h1 : s.core1 = .publish) (hcopy : s.copyRunning = false)
      (hbegun : s.begun = past ++ [s.slot])
      (hended : ∃ before, before.map Prod.fst = past ∧ s.ended = before ++ [(s.slot, s.res)])

/-- Every published request was executed and core 1 is away from the slot. -/
structure Mailbox.Quiet (s : Mailbox D) : Prop where
  core1 : s.core1 = .outside
  copy : s.copyRunning = false
  begun : s.begun = s.accepted.map Request.asStored
  ended : s.ended.map Prod.fst = s.accepted.map Request.asStored

inductive Mailbox.Phase (s : Mailbox D) : Prop
  | idle (hstate : s.state = .idle) (hq : s.Quiet)
  | pending (past : List Request) (req : Request) (hstate : s.state = .pending)
      (hacc : s.accepted = past ++ [req]) (hslot : s.slot = req.asStored)
      (hp : s.Progress (past.map Request.asStored))
  | done (before : List (Slot × ConopResult D)) (slot : Slot) (hstate : s.state = .done) (hq : s.Quiet)
      (hlast : s.ended = before ++ [(slot, s.res)])

/-- A result that was handed back is the one of the submit that got it. -/
def Mailbox.Answered (s : Mailbox D) : Prop :=
  ∀ a ∈ s.answers, ∃ req : Request, s.accepted[a.1]? = some req ∧ s.ended[a.1]? = some (req.asStored, a.2)

structure Mailbox.Sound (s : Mailbox D) : Prop where
  core0 : s.core0.Agrees s.state s.slot s.accepted.length
  phase : s.Phase
  answered : s.Answered

lemma initial_sound : (Mailbox.initial : Mailbox D).Sound :=
  ⟨trivial, .idle rfl ⟨rfl, rfl, rfl, rfl⟩, fun _ ha => absurd ha List.not_mem_nil⟩

lemma getElem?_grown {α : Type} {l l' : List α} (h : l <+: l') {i : ℕ} {x : α} (hx : l[i]? = some x) :
    l'[i]? = some x := by
  obtain ⟨more, rfl⟩ := h
  rw [List.getElem?_append_left (List.getElem?_eq_some_iff.mp hx).1]
  exact hx

omit [Inhabited D] in
/-- Published requests and results only accumulate. -/
lemma Mailbox.Answered.grow {s s' : Mailbox D} (h : s.Answered) (hanswers : s'.answers = s.answers)
    (hacc : s.accepted <+: s'.accepted) (hended : s.ended <+: s'.ended) : s'.Answered := by
  intro a ha
  rw [hanswers] at ha
  obtain ⟨req, hreq, hres⟩ := h a ha
  exact ⟨req, getElem?_grown hacc hreq, getElem?_grown hended hres⟩

omit [Inhabited D] in
/-- Only core 0 moved, and it touched nothing core 1 looks at. -/
lemma Mailbox.Sound.seen {s : Mailbox D} (h : s.Sound) {c : Core0}
    (hc : c.Agrees s.state s.slot s.accepted.length) : ({ s with core0 := c } : Mailbox D).Sound := by
  refine ⟨hc, ?_, h.answered⟩
  cases h.phase with
  | idle hstate hq => exact .idle hstate ⟨hq.core1, hq.copy, hq.begun, hq.ended⟩
  | pending past req hstate hacc hslot hp =>
    refine .pending past req hstate hacc hslot ?_
    cases hp with
    | waiting h1 hcopy hbegun hended => exact .waiting h1 hcopy hbegun hended
    | copying h1 hcopy hbegun hended => exact .copying h1 hcopy hbegun hended
    | running h1 hcopy hbegun hended => exact .running h1 hcopy hbegun hended
    | concluded h1 hcopy hbegun hended => exact .concluded h1 hcopy hbegun hended
  | done before slot hstate hq hlast =>
    exact .done before slot hstate ⟨hq.core1, hq.copy, hq.begun, hq.ended⟩ hlast

omit [Inhabited D] in
lemma Mailbox.Phase.quiet {s : Mailbox D} (h : s.Phase) (hstate : s.state ≠ .pending) : s.Quiet := by
  cases h with
  | idle _ hq => exact hq
  | pending _ _ hp => exact absurd hp hstate
  | done _ _ _ hq => exact hq

omit [Inhabited D] in
/-- The result in the buffer is that of the last request. -/
lemma Mailbox.Phase.last {s : Mailbox D} (h : s.Phase) (hstate : s.state = .done) {id : ℕ}
    (hid : id + 1 = s.accepted.length) :
    ∃ req : Request, s.accepted[id]? = some req ∧ s.ended[id]? = some (req.asStored, s.res) := by
  cases h with
  | idle hs _ => rw [hstate] at hs; cases hs
  | pending _ _ hs => rw [hstate] at hs; cases hs
  | done before slot _ hq hlast =>
    have hlen : s.ended.length = s.accepted.length := by
      have := congrArg List.length hq.ended
      simpa using this
    have hbefore : before.length = id := by
      rw [hlast, List.length_append, List.length_singleton] at hlen
      omega
    have hentry : s.ended[id]? = some (slot, s.res) := by
      rw [hlast, ← hbefore, List.getElem?_concat_length]
    obtain ⟨req, hreq⟩ : ∃ req, s.accepted[id]? = some req :=
      ⟨_, List.getElem?_eq_getElem (by omega)⟩
    have hfst := congrArg (·[id]?) hq.ended
    simp only [List.getElem?_map, hentry, hreq, Option.map_some, Option.some.injEq] at hfst
    exact ⟨req, hreq, by rw [hentry, hfst]⟩

omit [Inhabited D] in
lemma Mailbox.Sound.core0Step {s s' : Mailbox D} (h : s.Sound) (hs : s.core0Step = some s') : s'.Sound := by
  have hc := h.core0
  unfold Mailbox.core0Step at hs
  split at hs
  · cases hs
  next req heq =>
    split at hs
    next hdone =>
      cases hs
      exact h.seen hdone
    next hdone =>
      cases hs
      refine h.seen ?_
      by_cases hidle : s.state = .idle <;> simp [Core0.Agrees, hidle]
  next req heq =>
    cases hs
    rw [heq] at hc
    have hdone : s.state = .done := hc
    have hq := h.phase.quiet (by rw [hdone]; exact SlotState.noConfusion)
    exact ⟨rfl, .idle rfl ⟨hq.core1, hq.copy, hq.begun, hq.ended⟩, h.answered⟩
  next req busy heq =>
    split at hs
    next hbusy =>
      cases hs
      exact h.seen trivial
    next hidle =>
      cases hs
      exact h.seen ⟨not_not.mp hidle, fields_stored req s.slot⟩
  next req field left heq =>
    cases hs
    rw [heq] at hc
    have hq := h.phase.quiet (by rw [hc.1]; exact SlotState.noConfusion)
    exact ⟨hc, .idle hc.1 ⟨hq.core1, hq.copy, hq.begun, hq.ended⟩, h.answered⟩
  next req heq =>
    cases hs
    rw [heq] at hc
    have hslot : s.slot = req.asStored := hc.2
    have hq := h.phase.quiet (by rw [hc.1]; exact SlotState.noConfusion)
    refine ⟨⟨SlotState.noConfusion, ?_⟩, .pending s.accepted req rfl rfl hslot
      (.waiting (.inl hq.core1) hq.copy hq.begun hq.ended), ?_⟩
    · show s.accepted.length + 1 = (s.accepted ++ [req]).length
      rw [List.length_append, List.length_singleton]
    · exact h.answered.grow rfl (List.prefix_append _ _) (List.prefix_refl _)
  next id timeoutMs waited heq =>
    rw [heq] at hc
    split at hs
    next hdone =>
      cases hs
      exact h.seen ⟨hdone, hc.2⟩
    · split at hs
      · cases hs
        exact h.seen trivial
      · cases hs
        exact h.seen hc
  next id heq =>
    cases hs
    rw [heq] at hc
    obtain ⟨hdone, hid⟩ := hc
    have hq := h.phase.quiet (by rw [hdone]; exact SlotState.noConfusion)
    refine ⟨trivial, .idle rfl ⟨hq.core1, hq.copy, hq.begun, hq.ended⟩, fun a ha => ?_⟩
    rcases List.mem_append.mp ha with ha | ha
    · exact h.answered a ha
    · rw [List.mem_singleton.mp ha]
      exact h.phase.last hdone hid

omit [Inhabited D] in
/-- Core 1 is inside a pass only while a request is pending. -/
lemma Mailbox.Phase.working {s : Mailbox D} (h : s.Phase) (h1 : s.core1 ≠ .outside) :
    ∃ (past : List Request) (req : Request), s.state = .pending ∧ s.accepted = past ++ [req] ∧
      s.slot = req.asStored ∧ s.Progress (past.map Request.asStored) := by
  cases h with
  | idle _ hq => exact absurd hq.core1 h1
  | pending past req hstate hacc hslot hp => exact ⟨past, req, hstate, hacc, hslot, hp⟩
  | done _ _ _ hq => exact absurd hq.core1 h1

section Places

variable {s : Mailbox D} {past : List Slot}

omit [Inhabited D]

/-- Before the dispatch the request is neither begun nor ended. -/
lemma Mailbox.Progress.at_dispatch (h : s.Progress past) (h1 : s.core1 = .clear ∨ s.core1 = .dispatch) :
    s.copyRunning = false ∧ s.begun = past ∧ s.ended.map Prod.fst = past := by
  cases h with
  | waiting _ hcopy hbegun hended => exact ⟨hcopy, hbegun, hended⟩
  | copying h2 => rcases h1 with h1 | h1 <;> rw [h1] at h2 <;> simp at h2
  | running h2 => rcases h1 with h1 | h1 <;> rw [h1] at h2 <;> simp at h2
  | concluded h2 => rcases h1 with h1 | h1 <;> rw [h1] at h2 <;> cases h2

/-- In its handler the request is begun and not ended. -/
lemma Mailbox.Progress.at_handler (h : s.Progress past) (h1 : s.core1 = .handle ∨ s.core1 = .copyBegin) :
    s.copyRunning = false ∧ s.begun = past ++ [s.slot] ∧ s.ended.map Prod.fst = past := by
  cases h with
  | waiting h2 => rcases h1 with h1 | h1 <;> rw [h1] at h2 <;> simp at h2
  | copying h2 => rcases h1 with h1 | h1 <;> rw [h1] at h2 <;> simp at h2
  | running _ hcopy hbegun hended => exact ⟨hcopy, hbegun, hended⟩
  | concluded h2 => rcases h1 with h1 | h1 <;> rw [h1] at h2 <;> cases h2

lemma Mailbox.Progress.at_chunk (h : s.Progress past) (h1 : s.core1 = .chunk) :
    s.copyRunning = true ∧ s.begun = past ++ [s.slot] ∧ s.ended.map Prod.fst = past := by
  cases h with
  | waiting h2 => rw [h1] at h2; simp at h2
  | copying _ hcopy hbegun hended => exact ⟨hcopy, hbegun, hended⟩
  | running h2 => rw [h1] at h2; simp at h2
  | concluded h2 => rw [h1] at h2; cases h2

lemma Mailbox.Progress.at_publish (h : s.Progress past) (h1 : s.core1 = .publish) :
    s.copyRunning = false ∧ s.begun = past ++ [s.slot] ∧
      ∃ before, before.map Prod.fst = past ∧ s.ended = before ++ [(s.slot, s.res)] := by
  cases h with
  | waiting h2 => rw [h1] at h2; simp at h2
  | copying h2 => rw [h1] at h2; simp at h2
  | running h2 => rw [h1] at h2; simp at h2
  | concluded _ hcopy hbegun hended => exact ⟨hcopy, hbegun, hended⟩

end Places

omit [Inhabited D] in
/-- Core 1 moves on with its request. -/
lemma Mailbox.Sound.moved {s s' : Mailbox D} (h : s.Sound) {past : List Request} {req : Request}
    (hstate : s'.state = .pending) (hsame : s'.slot = s.slot ∧ s'.accepted = s.accepted ∧
      s'.core0 = s.core0 ∧ s'.answers = s.answers) (hold : s.state = .pending)
    (hacc : s.accepted = past ++ [req]) (hslot : s.slot = req.asStored)
    (hended : s.ended <+: s'.ended) (hp : s'.Progress (past.map Request.asStored)) : s'.Sound := by
  obtain ⟨hs, ha, hc, hans⟩ := hsame
  refine ⟨?_, .pending past req hstate (ha.trans hacc) (hs.trans hslot) hp, ?_⟩
  · rw [hc, hs, ha, hstate, ← hold]
    exact h.core0
  · exact h.answered.grow hans (ha ▸ List.prefix_refl _) hended

omit [Inhabited D] in
/-- The request has its result. -/
lemma Mailbox.Progress.conclude {s : Mailbox D} {past : List Slot} (hbegun : s.begun = past ++ [s.slot])
    (hended : s.ended.map Prod.fst = past) (res : ConopResult D) : (s.conclude res).Progress past :=
  .concluded rfl rfl hbegun ⟨s.ended, hended, rfl⟩

omit [Inhabited D] in
lemma Mailbox.Sound.conclude {s : Mailbox D} (h : s.Sound)
    (h1 : s.core1 = .handle ∨ s.core1 = .copyBegin ∨ s.core1 = .chunk) (res : ConopResult D) :
    (s.conclude res).Sound := by
  have hinside : s.core1 ≠ .outside := by
    rcases h1 with h1 | h1 | h1 <;> rw [h1] <;> exact Core1.noConfusion
  obtain ⟨past, req, hstate, hacc, hslot, hp⟩ := h.phase.working hinside
  obtain ⟨hbegun, hended⟩ : s.begun = past.map Request.asStored ++ [s.slot] ∧
      s.ended.map Prod.fst = past.map Request.asStored := by
    rcases h1 with h1 | h1 | h1
    · exact (hp.at_handler (.inl h1)).2
    · exact (hp.at_handler (.inr h1)).2
    · exact (hp.at_chunk h1).2
  exact h.moved hstate ⟨rfl, rfl, rfl, rfl⟩ hstate hacc hslot (List.prefix_append _ _)
    (.conclude hbegun hended res)

lemma Mailbox.Sound.proceed {s s' : Mailbox D} (h : s.Sound) (hs : s.core1Step .proceed = some s') :
    s'.Sound := by
  simp only [Mailbox.core1Step] at hs
  split at hs
  next h1 =>
    cases hs
    obtain ⟨past, req, hstate, hacc, hslot, hp⟩ := h.phase.working (by rw [h1]; exact Core1.noConfusion)
    refine h.moved hstate ⟨rfl, rfl, rfl, rfl⟩ hstate hacc hslot (List.prefix_refl _) ?_
    cases hp with
    | waiting _ hcopy hbegun hended =>
      refine .waiting (.inr (.inr (.inl ?_))) hcopy hbegun hended
      show (if s.copyRunning then Core1.chunk else .clear) = .clear
      rw [hcopy]
      rfl
    | copying _ hcopy hbegun hended =>
      refine .copying (.inr (.inr ?_)) hcopy hbegun hended
      show (if s.copyRunning then Core1.chunk else .clear) = .chunk
      rw [hcopy]
      rfl
    | running h2 => rw [h1] at h2; simp at h2
    | concluded h2 => rw [h1] at h2; cases h2
  next h1 =>
    cases hs
    obtain ⟨past, req, hstate, hacc, hslot, hp⟩ := h.phase.working (by rw [h1]; exact Core1.noConfusion)
    refine h.moved hstate ⟨rfl, rfl, rfl, rfl⟩ hstate hacc hslot (List.prefix_refl _) ?_
    obtain ⟨hcopy, hbegun, hended⟩ := hp.at_dispatch (.inl h1)
    exact .waiting (.inr (.inr (.inr rfl))) hcopy hbegun hended
  next h1 =>
    cases hs
    obtain ⟨past, req, hstate, hacc, hslot, hp⟩ := h.phase.working (by rw [h1]; exact Core1.noConfusion)
    refine h.moved hstate ⟨rfl, rfl, rfl, rfl⟩ hstate hacc hslot (List.prefix_refl _) ?_
    obtain ⟨hcopy, hbegun, hended⟩ := hp.at_dispatch (.inr h1)
    refine .running ?_ hcopy (congrArg (· ++ [s.slot]) hbegun) hended
    by_cases hop : s.slot.op = .copy <;> simp [hop]
  next h1 =>
    cases hs
    obtain ⟨past, req, hstate, hacc, hslot, hp⟩ := h.phase.working (by rw [h1]; exact Core1.noConfusion)
    obtain ⟨hcopy, hbegun, before, hbefore, hlast⟩ := hp.at_publish h1
    have hall : s.accepted.map Request.asStored = past.map Request.asStored ++ [s.slot] := by
      rw [hacc, List.map_append, hslot]
      rfl
    refine ⟨?_, .done before s.slot rfl ⟨rfl, hcopy, hbegun.trans hall.symm, ?_⟩ hlast, h.answered⟩
    · have hc := h.core0
      rw [hstate] at hc
      show Core0.Agrees .done s.slot s.accepted.length s.core0
      cases hpc : s.core0 with
      | outside | reclaim req => trivial
      | reclaiming req => rw [hpc] at hc; cases hc
      | check req busy => rw [hpc] at hc; cases busy with
        | true => exact SlotState.noConfusion
        | false => cases hc
      | fill req left => rw [hpc] at hc; cases hc.1
      | wait id timeoutMs waited => rw [hpc] at hc; exact ⟨SlotState.noConfusion, hc.2⟩
      | finish id => rw [hpc] at hc; cases hc.1
    · show s.ended.map Prod.fst = _
      rw [hlast, List.map_append, hbefore, hall]
      rfl
  · cases hs

/-- A handler works on its result, or a copy starts or goes on. -/
lemma Mailbox.Sound.core1Step {s s' : Mailbox D} {outcome : Outcome D} (h : s.Sound)
    (hs : s.core1Step outcome = some s') : s'.Sound := by
  cases outcome with
  | proceed => exact h.proceed hs
  | written res =>
    obtain ⟨h1, hs⟩ := Option.ite_none_right_eq_some.mp hs
    cases hs
    obtain ⟨past, req, hstate, hacc, hslot, hp⟩ := h.phase.working (by rw [h1]; exact Core1.noConfusion)
    refine h.moved hstate ⟨rfl, rfl, rfl, rfl⟩ hstate hacc hslot (List.prefix_refl _) ?_
    obtain ⟨hcopy, hbegun, hended⟩ := hp.at_handler (.inl h1)
    exact .running (.inl h1) hcopy hbegun hended
  | finished res =>
    obtain ⟨h1, hs⟩ := Option.ite_none_right_eq_some.mp hs
    cases hs
    exact h.conclude (.inl h1) res
  | copyStarted =>
    obtain ⟨h1, hs⟩ := Option.ite_none_right_eq_some.mp hs
    cases hs
    obtain ⟨past, req, hstate, hacc, hslot, hp⟩ := h.phase.working (by rw [h1]; exact Core1.noConfusion)
    refine h.moved hstate ⟨rfl, rfl, rfl, rfl⟩ hstate hacc hslot (List.prefix_refl _) ?_
    obtain ⟨-, hbegun, hended⟩ := hp.at_handler (.inr h1)
    exact .copying (.inl rfl) rfl hbegun hended
  | copyRefused err =>
    obtain ⟨h1, hs⟩ := Option.ite_none_right_eq_some.mp hs
    cases hs
    exact h.conclude (.inr (.inl h1)) _
  | chunkMore =>
    obtain ⟨h1, hs⟩ := Option.ite_none_right_eq_some.mp hs
    cases hs
    obtain ⟨past, req, hstate, hacc, hslot, hp⟩ := h.phase.working (by rw [h1]; exact Core1.noConfusion)
    refine h.moved hstate ⟨rfl, rfl, rfl, rfl⟩ hstate hacc hslot (List.prefix_refl _) ?_
    obtain ⟨hcopy, hbegun, hended⟩ := hp.at_chunk h1
    exact .copying (.inl rfl) hcopy hbegun hended
  | chunkDone =>
    obtain ⟨h1, hs⟩ := Option.ite_none_right_eq_some.mp hs
    cases hs
    exact h.conclude (.inr (.inr h1)) _
  | chunkFailed err =>
    obtain ⟨h1, hs⟩ := Option.ite_none_right_eq_some.mp hs
    cases hs
    exact h.conclude (.inr (.inr h1)) _

omit [Inhabited D] in
/-- A pass that finds no request pending returns at once. -/
lemma Mailbox.Sound.pass {s : Mailbox D} (h : s.Sound) (h1 : s.core1 = .outside) :
    ({ s with core1 := if s.state = .pending then .entered else .outside } : Mailbox D).Sound := by
  by_cases hpending : s.state = .pending
  · rw [if_pos hpending]
    cases h.phase with
    | idle hs => rw [hpending] at hs; cases hs
    | pending past req hstate hacc hslot hp =>
      refine h.moved hstate ⟨rfl, rfl, rfl, rfl⟩ hstate hacc hslot (List.prefix_refl _) ?_
      cases hp with
      | waiting _ hcopy hbegun hended => exact .waiting (.inr (.inl rfl)) hcopy hbegun hended
      | copying _ hcopy hbegun hended => exact .copying (.inr (.inl rfl)) hcopy hbegun hended
      | running h2 => rw [h1] at h2; simp at h2
      | concluded h2 => rw [h1] at h2; cases h2
    | done _ _ hs => rw [hpending] at hs; cases hs
  · rw [if_neg hpending, ← h1]
    exact h

lemma Mailbox.Sound.step {s s' : Mailbox D} {label : Label D} (h : s.Sound)
    (hs : s.step label = some s') : s'.Sound := by
  cases label with
  | submit req =>
    simp only [Mailbox.step] at hs
    split at hs
    · cases hs
      exact h.seen trivial
    · cases hs
  | core0 => exact h.core0Step hs
  | pass =>
    obtain ⟨h1, hs⟩ := Option.ite_none_right_eq_some.mp hs
    cases hs
    exact h.pass h1
  | core1 outcome => exact h.core1Step hs

/-- The invariant of every run. -/
theorem run_sound {s : Mailbox D} {labels : List (Label D)} (h : Run Mailbox.step .initial labels s) :
    s.Sound :=
  h.invariant (fun _ _ _ hs _ hstep => hs.step hstep) initial_sound

/-- What core 1 does, also between its passes. -/
def Label.OfCore1 : Label D → Prop
  | .submit _ | .core0 => False
  | .pass | .core1 _ => True

/-- Steps that bring core 1 nearer to the end of a pending request. -/
def Label.progress : Label D → ℕ
  | .submit _ | .core0 | .core1 (.written _) | .core1 .chunkMore => 0
  | .pass | .core1 _ => 1

/-- A chunk that is not the last costs the two steps into the next pass. -/
def Label.again : Label D → ℕ
  | .core1 .chunkMore => 2
  | _ => 0

/-- How many such steps a pending request needs at most. -/
def Mailbox.remaining (s : Mailbox D) : ℕ :=
  match s.core1 with
  | .outside => if s.copyRunning then 3 else 8
  | .entered => if s.copyRunning then 2 else 7
  | .clear => 6
  | .dispatch => 5
  | .copyBegin => 4
  | .chunk | .handle | .publish => 1

omit [Inhabited D] in
lemma Mailbox.remaining_pos (s : Mailbox D) : 0 < s.remaining := by
  unfold remaining
  split <;> (try split) <;> omega

omit [Inhabited D] in
lemma Mailbox.remaining_le (s : Mailbox D) : s.remaining ≤ 8 := by
  unfold remaining
  split <;> (try split) <;> omega

omit [Inhabited D] in
lemma Mailbox.Quiet.length {s : Mailbox D} (h : s.Quiet) : s.ended.length = s.accepted.length := by
  have := congrArg List.length h.ended
  simpa only [List.length_map] using this

omit [Inhabited D] in
/-- Concluding the pending request leaves none unfinished. -/
lemma Mailbox.Sound.conclude_length {s : Mailbox D} (h : s.Sound)
    (h1 : s.core1 = .handle ∨ s.core1 = .copyBegin ∨ s.core1 = .chunk) (res : ConopResult D) :
    (s.conclude res).ended.length = s.accepted.length := by
  cases (h.conclude h1 res).phase with
  | idle _ hq => exact hq.length
  | pending past req _ hacc _ hp =>
    have hacc' : s.accepted.length = past.length + 1 := by
      rw [show s.accepted = past ++ [req] from hacc, List.length_append, List.length_singleton]
    cases hp with
    | waiting h2 => rcases h2 with h2 | h2 | h2 | h2 <;> cases h2
    | copying h2 => rcases h2 with h2 | h2 | h2 <;> cases h2
    | running h2 => rcases h2 with h2 | h2 <;> cases h2
    | concluded _ _ _ hended =>
      obtain ⟨before, hbefore, hlast⟩ := hended
      have := congrArg List.length hbefore
      rw [List.length_map, List.length_map] at this
      rw [hlast, List.length_append, List.length_singleton, hacc', this]
  | done _ _ _ hq => exact hq.length

omit [Inhabited D] in
/-- Core 0 neither moves core 1 nor touches what it has done. -/
lemma Mailbox.core0Step_frame {s s' : Mailbox D} (hs : s.core0Step = some s') :
    s'.core1 = s.core1 ∧ s'.copyRunning = s.copyRunning ∧ s'.begun = s.begun ∧ s'.ended = s.ended ∧
      s'.res = s.res ∧ s.accepted <+: s'.accepted := by
  unfold Mailbox.core0Step at hs
  split at hs
  · cases hs
  · split at hs <;> cases hs <;> exact ⟨rfl, rfl, rfl, rfl, rfl, List.prefix_refl _⟩
  · cases hs
    exact ⟨rfl, rfl, rfl, rfl, rfl, List.prefix_refl _⟩
  · split at hs <;> cases hs <;> exact ⟨rfl, rfl, rfl, rfl, rfl, List.prefix_refl _⟩
  · cases hs
    exact ⟨rfl, rfl, rfl, rfl, rfl, List.prefix_refl _⟩
  · cases hs
    exact ⟨rfl, rfl, rfl, rfl, rfl, List.prefix_append _ _⟩
  · split at hs
    · cases hs
      exact ⟨rfl, rfl, rfl, rfl, rfl, List.prefix_refl _⟩
    · split at hs <;> cases hs <;> exact ⟨rfl, rfl, rfl, rfl, rfl, List.prefix_refl _⟩
  · cases hs
    exact ⟨rfl, rfl, rfl, rfl, rfl, List.prefix_refl _⟩

/-- Nor does core 1 move core 0, publish or answer. -/
lemma Mailbox.core1Step_frame {s s' : Mailbox D} {outcome : Outcome D}
    (hs : s.core1Step outcome = some s') :
    s'.core0 = s.core0 ∧ s'.slot = s.slot ∧ s'.accepted = s.accepted ∧ s'.answers = s.answers ∧
      s.ended <+: s'.ended := by
  cases outcome with
  | proceed =>
    simp only [Mailbox.core1Step] at hs
    split at hs <;> cases hs <;> exact ⟨rfl, rfl, rfl, rfl, List.prefix_refl _⟩
  | written | copyStarted | chunkMore =>
    obtain ⟨-, hs⟩ := Option.ite_none_right_eq_some.mp hs
    cases hs
    exact ⟨rfl, rfl, rfl, rfl, List.prefix_refl _⟩
  | finished | copyRefused | chunkDone | chunkFailed =>
    obtain ⟨-, hs⟩ := Option.ite_none_right_eq_some.mp hs
    cases hs
    exact ⟨rfl, rfl, rfl, rfl, List.prefix_append _ _⟩

/-- What was published and what was executed only grows. -/
lemma Mailbox.step_grows {s s' : Mailbox D} {label : Label D} (hs : s.step label = some s') :
    s.accepted <+: s'.accepted ∧ s.ended <+: s'.ended := by
  cases label with
  | submit req =>
    simp only [Mailbox.step] at hs
    split at hs <;> cases hs
    exact ⟨List.prefix_refl _, List.prefix_refl _⟩
  | core0 =>
    obtain ⟨-, -, -, hended, -, hacc⟩ := core0Step_frame hs
    exact ⟨hacc, hended ▸ List.prefix_refl _⟩
  | pass =>
    obtain ⟨-, hs⟩ := Option.ite_none_right_eq_some.mp hs
    cases hs
    exact ⟨List.prefix_refl _, List.prefix_refl _⟩
  | core1 outcome =>
    obtain ⟨-, -, hacc, -, hended⟩ := core1Step_frame hs
    exact ⟨hacc ▸ List.prefix_refl _, hended⟩

/-- While a request is unfinished, every step of core 1 but a write or a further chunk shortens the
way to its end. -/
lemma Mailbox.Sound.remaining_step {s s' : Mailbox D} {label : Label D} (h : s.Sound)
    (hs : s.step label = some s') (hleft : s'.ended.length < s.accepted.length) :
    s'.remaining + label.progress ≤ s.remaining + label.again := by
  have hpending : s.state = .pending := by
    by_contra hne
    have := (h.phase.quiet hne).length
    have := (step_grows hs).2.length_le
    omega
  cases label with
  | submit req =>
    simp only [Mailbox.step] at hs
    split at hs <;> cases hs
    exact Nat.le_refl _
  | core0 =>
    obtain ⟨h1, hcopy, -⟩ := core0Step_frame hs
    simp only [remaining, h1, hcopy, Label.progress, Label.again, Nat.le_refl]
  | pass =>
    obtain ⟨h1, hs⟩ := Option.ite_none_right_eq_some.mp hs
    cases hs
    simp only [remaining, h1, hpending, if_true, Label.progress, Label.again]
    split <;> omega
  | core1 outcome => cases outcome with
    | proceed =>
      simp only [Mailbox.step, Mailbox.core1Step] at hs
      split at hs
      next h1 =>
        cases hs
        cases hcopy : s.copyRunning <;> simp [remaining, h1, hcopy, Label.progress, Label.again]
      next h1 =>
        cases hs
        simp [remaining, h1, Label.progress, Label.again]
      next h1 =>
        cases hs
        by_cases hop : s.slot.op = .copy <;> simp [remaining, h1, hop, Label.progress, Label.again]
      next h1 =>
        have hdone : s'.Phase := (h.proceed (by simp only [Mailbox.core1Step, h1]; exact hs)).phase
        cases hs
        have := (hdone.quiet SlotState.noConfusion).length
        exact absurd hleft (by simp only at this ⊢; omega)
      · cases hs
    | written res =>
      obtain ⟨h1, hs⟩ := Option.ite_none_right_eq_some.mp hs
      cases hs
      exact Nat.le_refl _
    | finished res =>
      obtain ⟨h1, hs⟩ := Option.ite_none_right_eq_some.mp hs
      cases hs
      exact absurd (h.conclude_length (.inl h1) res) (Nat.ne_of_lt hleft)
    | copyStarted =>
      obtain ⟨h1, hs⟩ := Option.ite_none_right_eq_some.mp hs
      cases hs
      simp [remaining, h1, Label.progress, Label.again]
    | copyRefused err =>
      obtain ⟨h1, hs⟩ := Option.ite_none_right_eq_some.mp hs
      cases hs
      exact absurd (h.conclude_length (.inr (.inl h1)) _) (Nat.ne_of_lt hleft)
    | chunkMore =>
      obtain ⟨h1, hs⟩ := Option.ite_none_right_eq_some.mp hs
      cases hs
      by_cases hcopy : s.copyRunning
      · simp [remaining, h1, hcopy, Label.progress, Label.again]
      · obtain ⟨past, req, -, -, -, hp⟩ := h.phase.working (by rw [h1]; exact Core1.noConfusion)
        cases hp with
        | waiting h2 => rw [h1] at h2; simp at h2
        | copying _ htrue => exact absurd htrue hcopy
        | running h2 => rw [h1] at h2; simp at h2
        | concluded h2 => rw [h1] at h2; cases h2
    | chunkDone =>
      obtain ⟨h1, hs⟩ := Option.ite_none_right_eq_some.mp hs
      cases hs
      exact absurd (h.conclude_length (.inr (.inr h1)) _) (Nat.ne_of_lt hleft)
    | chunkFailed err =>
      obtain ⟨h1, hs⟩ := Option.ite_none_right_eq_some.mp hs
      cases hs
      exact absurd (h.conclude_length (.inr (.inr h1)) _) (Nat.ne_of_lt hleft)

lemma Mailbox.run_grows {s s' : Mailbox D} {labels : List (Label D)} (h : Run Mailbox.step s labels s') :
    s.accepted <+: s'.accepted ∧ s.ended <+: s'.ended := by
  induction h with
  | nil s => exact ⟨List.prefix_refl _, List.prefix_refl _⟩
  | cons _ hs _ ih =>
    have hstep := step_grows hs
    exact ⟨hstep.1.trans ih.1, hstep.2.trans ih.2⟩

/-- The steps of a whole run count against the way of a request that is still unfinished. -/
lemma Mailbox.Sound.remaining_run {s s' : Mailbox D} {labels : List (Label D)}
    (hr : Run Mailbox.step s labels s') (h : s.Sound) (hleft : s'.ended.length < s.accepted.length) :
    s'.remaining + (labels.map Label.progress).sum ≤ s.remaining + (labels.map Label.again).sum := by
  induction hr with
  | nil s => exact Nat.le_refl _
  | cons _ hs hrest ih =>
    have hacc := (step_grows hs).1.length_le
    have hended := (run_grows hrest).2.length_le
    have hstep := h.remaining_step hs (Nat.lt_of_le_of_lt hended hleft)
    have htail := ih (h.step hs) (by omega)
    simp only [List.map_cons, List.sum_cons]
    omega

/-- The requests are executed in their order, each once, with the arguments the slot holds, and a
request that is still unfinished is the last one and needs at most eight steps of core 1 beyond the
handler's writes and further chunks. -/
structure Mailbox.ExecutesOnce (s : Mailbox D) : Prop where
  ended : s.ended.map Prod.fst <+: s.begun
  begun : s.begun <+: s.accepted.map Request.asStored
  settled : s.state ≠ .pending → s.ended.map Prod.fst = s.accepted.map Request.asStored
  unfinished : s.accepted.length ≤ s.ended.length + 1
  completes : ∀ (labels : List (Label D)) (s' : Mailbox D), Run Mailbox.step s labels s' →
    8 + (labels.map Label.again).sum ≤ (labels.map Label.progress).sum →
    s.accepted.map Request.asStored <+: s'.ended.map Prod.fst

/-- While a request is pending the arguments stay, and only core 1 writes the result. -/
def Mailbox.Protects (s : Mailbox D) : Prop :=
  s.state = .pending → ∀ (label : Label D) (s' : Mailbox D), s.step label = some s' →
    s'.slot = s.slot ∧ (¬ label.OfCore1 → s'.res = s.res)

/-- A submit that finds a request pending returns without a result, and the mailbox is what core 1
alone would have made of it. -/
def Mailbox.Refuses (s : Mailbox D) : Prop :=
  ∀ (req : Request) (labels : List (Label D)) (s' : Mailbox D), s.core0 = .reclaim req →
    s.state = .pending → (∀ label ∈ labels, label.OfCore1) →
    Run Mailbox.step s (.core0 :: labels ++ [.core0]) s' →
    ∃ t : Mailbox D, Run Mailbox.step s labels t ∧ s' = { t with core0 := .outside }

lemma Mailbox.Sound.executesOnce {s : Mailbox D} (h : s.Sound) : s.ExecutesOnce := by
  have hlists : s.ended.map Prod.fst <+: s.begun ∧ s.begun <+: s.accepted.map Request.asStored ∧
      s.accepted.length ≤ s.ended.length + 1 := by
    cases h.phase with
    | idle _ hq | done _ _ _ hq =>
      exact ⟨by rw [hq.ended, hq.begun], by rw [hq.begun], by rw [hq.length]; omega⟩
    | pending past req _ hacc hslot hp =>
      have hall : s.accepted.map Request.asStored = past.map Request.asStored ++ [s.slot] := by
        rw [hacc, List.map_append, hslot]
        rfl
      have hcount : ∀ {ended : List (Slot × ConopResult D)},
          ended.map Prod.fst = past.map Request.asStored → s.accepted.length ≤ ended.length + 1 := by
        intro ended hended
        have := congrArg List.length hended
        rw [List.length_map, List.length_map] at this
        rw [hacc, List.length_append, List.length_singleton, this]
      rw [hall]
      cases hp with
      | waiting _ _ hbegun hended =>
        exact ⟨by rw [hended, hbegun], hbegun ▸ List.prefix_append _ _, hcount hended⟩
      | copying _ _ hbegun hended | running _ _ hbegun hended =>
        exact ⟨by rw [hended, hbegun]; exact List.prefix_append _ _, by rw [hbegun], hcount hended⟩
      | concluded _ _ hbegun hended =>
        obtain ⟨before, hbefore, hlast⟩ := hended
        refine ⟨?_, by rw [hbegun], ?_⟩
        · rw [hlast, hbegun, List.map_append, hbefore]
          rfl
        · have := hcount hbefore
          rw [hlast, List.length_append]
          omega
  refine ⟨hlists.1, hlists.2.1, fun hstate => (h.phase.quiet hstate).ended, hlists.2.2, ?_⟩
  intro labels s' hr hmany
  have hs' : s'.Sound := hr.invariant (fun _ _ _ hs _ hstep => hs.step hstep) h
  have hlen : s.accepted.length ≤ s'.ended.length := by
    by_contra hlt
    have := h.remaining_run hr (Nat.lt_of_not_le hlt)
    have := s.remaining_le
    have := s'.remaining_pos
    omega
  -- what ended and what was accepted before are both beginnings of what is accepted now
  have hended : s'.ended.map Prod.fst <+: s'.accepted.map Request.asStored := by
    cases hs'.phase with
    | idle _ hq | done _ _ _ hq => rw [hq.ended]
    | pending past req _ hacc hslot hp =>
      rw [hacc, List.map_append]
      cases hp with
      | waiting _ _ _ hended | copying _ _ _ hended | running _ _ _ hended =>
        rw [hended]
        exact List.prefix_append _ _
      | concluded _ _ _ hended =>
        obtain ⟨before, hbefore, hlast⟩ := hended
        rw [hlast, List.map_append, hbefore, hslot]
        exact List.prefix_refl _
  refine List.prefix_of_prefix_length_le ((run_grows hr).1.map _) hended ?_
  rw [List.length_map, List.length_map]
  exact hlen

lemma Mailbox.Sound.protects {s : Mailbox D} (h : s.Sound) : s.Protects := by
  intro hpending label s' hs
  have hc := h.core0
  rw [hpending] at hc
  cases label with
  | submit req =>
    simp only [Mailbox.step] at hs
    split at hs <;> cases hs
    exact ⟨rfl, fun _ => rfl⟩
  | core0 =>
    refine ⟨?_, fun _ => (core0Step_frame hs).2.2.2.2.1⟩
    simp only [Mailbox.step, Mailbox.core0Step] at hs
    split at hs
    · cases hs
    · split at hs <;> cases hs <;> rfl
    · cases hs
      rfl
    · split at hs <;> cases hs <;> rfl
    next req field left heq =>
      rw [heq] at hc
      cases hc.1
    · cases hs
      rfl
    · split at hs
      · cases hs
        rfl
      · split at hs <;> cases hs <;> rfl
    · cases hs
      rfl
  | pass =>
    obtain ⟨-, hs⟩ := Option.ite_none_right_eq_some.mp hs
    cases hs
    exact ⟨rfl, fun _ => rfl⟩
  | core1 outcome => exact ⟨(core1Step_frame hs).2.1, fun hcore => absurd trivial hcore⟩

/-- Core 1 does not look at where core 0 is. -/
lemma Mailbox.step_core0 {s s' : Mailbox D} {label : Label D} (hlabel : label.OfCore1) (c : Core0)
    (hs : ({ s with core0 := c } : Mailbox D).step label = some s') :
    ∃ t : Mailbox D, s.step label = some t ∧ s' = { t with core0 := c } := by
  cases label with
  | submit req => exact hlabel.elim
  | core0 => exact hlabel.elim
  | pass =>
    obtain ⟨h1, hs⟩ := Option.ite_none_right_eq_some.mp hs
    cases hs
    exact ⟨_, if_pos h1, rfl⟩
  | core1 outcome => cases outcome with
    | proceed =>
      simp only [Mailbox.step, Mailbox.core1Step] at hs ⊢
      split at hs <;> cases hs <;> exact ⟨_, rfl, rfl⟩
    | written | finished | copyStarted | copyRefused | chunkMore | chunkDone | chunkFailed =>
      obtain ⟨h1, hs⟩ := Option.ite_none_right_eq_some.mp hs
      cases hs
      exact ⟨_, if_pos h1, rfl⟩

lemma Mailbox.run_core0 {s s' : Mailbox D} {labels : List (Label D)} {c : Core0}
    (hlabels : ∀ label ∈ labels, label.OfCore1)
    (hr : Run Mailbox.step ({ s with core0 := c } : Mailbox D) labels s') :
    ∃ t : Mailbox D, Run Mailbox.step s labels t ∧ s' = { t with core0 := c } := by
  induction labels generalizing s with
  | nil =>
    cases hr
    exact ⟨s, .nil s, rfl⟩
  | cons label labels ih =>
    cases hr with
    | cons hg hs hrest =>
      obtain ⟨t, ht, rfl⟩ := step_core0 (hlabels label List.mem_cons_self) c hs
      obtain ⟨u, hu, rfl⟩ := ih (fun l hl => hlabels l (List.mem_cons_of_mem label hl)) hrest
      exact ⟨u, .cons hg ht hu, rfl⟩

lemma Mailbox.Sound.refuses {s : Mailbox D} (h : s.Sound) : s.Refuses := by
  intro req labels s' hreclaim hpending hlabels hr
  cases hr with
  | cons _ hs hrest =>
    have hfirst : s.core0Step = some { s with core0 := .check req true } := by
      simp [Mailbox.core0Step, hreclaim, hpending]
    have hs₁ : _ = some _ := hfirst.symm.trans hs
    cases hs₁
    obtain ⟨s₂, hmiddle, hlast⟩ := hrest.split
    have hsound : s₂.Sound := hmiddle.invariant (fun _ _ _ hs _ hstep => hs.step hstep) (h.step hs)
    obtain ⟨t, ht, rfl⟩ := run_core0 hlabels hmiddle
    have hbusy : t.state ≠ .idle := hsound.core0
    cases hlast with
    | cons _ hs₃ hnil =>
      cases hnil
      have hsecond : ({ t with core0 := .check req true } : Mailbox D).core0Step =
          some { t with core0 := .outside } := by
        simp [Mailbox.core0Step, hbusy]
      exact ⟨t, ht, Option.some.inj (hs₃.symm.trans hsecond)⟩

/-- In every state of every run each published request is executed once, with its arguments as the
slot holds them, the pending one is not overwritten, what was handed back belongs to the submit that
got it, and a submit in between is refused. -/
theorem mailbox_runs_once {s : Mailbox D} {labels : List (Label D)}
    (h : Run Mailbox.step .initial labels s) :
    s.ExecutesOnce ∧ s.Protects ∧ s.Answered ∧ s.Refuses ∧
      ∀ req ∈ s.accepted, req.asStored = req.asSubmitted ↔ req.Fits := by
  have hsound := run_sound h
  exact ⟨hsound.executesOnce, hsound.protects, hsound.answered, hsound.refuses,
    fun req _ => req.asStored_eq_iff⟩

/-- A file name of 79 bytes that ends in `.img`. -/
def longName : List Byte := List.replicate 75 0x61#8 ++ [0x2E#8, 0x69#8, 0x6D#8, 0x67#8]

/-- The same with `.img` once more; `copy b.img` and this name fit a line of the console. -/
def longerName : List Byte := longName ++ [0x2E#8, 0x69#8, 0x6D#8, 0x67#8]

/-- A copy of two chunks from its submit to its result. -/
def wholeCopy (req : Request) : List (Label Unit) :=
  .submit req :: List.replicate 11 .core0 ++
    [.pass, .core1 .proceed, .core1 .proceed, .core1 .proceed, .core1 .copyStarted,
      .pass, .core1 .proceed, .core1 .chunkMore,
      .pass, .core1 .proceed, .core1 .chunkDone, .core1 .proceed, .core0, .core0]

/-- The mailbox after `wholeCopy`. -/
def afterCopy (req : Request) : Mailbox Unit :=
  { (Mailbox.initial : Mailbox Unit) with
    slot := req.asStored
    res := ⟨true, [], ()⟩
    accepted := [req]
    begun := [req.asStored]
    ended := [(req.asStored, ⟨true, [], ()⟩)]
    answers := [(0, ⟨true, [], ()⟩)] }

lemma wholeCopy_run (req : Request) (hop : req.op = .copy) :
    Run Mailbox.step .initial (wholeCopy req) (afterCopy req) := by
  apply Guarded.of_follow
  obtain ⟨op, backend, target, lba, arg1, arg2⟩ := req
  cases hop
  rfl

/-- `copy b.img` and the name. -/
def copyTo (name : List Byte) : Request :=
  ⟨.copy, .none, 0, 0, some [0x62#8, 0x2E#8, 0x69#8, 0x6D#8, 0x67#8], some name⟩

theorem mailbox_runs_once_copy :
    let s := afterCopy (copyTo longName)
    s.ExecutesOnce ∧ s.Protects ∧ s.Answered ∧ s.Refuses ∧
      ∀ req ∈ s.accepted, req.asStored = req.asSubmitted ↔ req.Fits :=
  mailbox_runs_once (wholeCopy_run (copyTo longName) rfl)

/-- Asked to copy onto the longer name, core 1 copies onto the other. -/
theorem mailbox_copies_elsewhere :
    ∃ (s : Mailbox Unit) (labels : List (Label Unit)), Run Mailbox.step .initial labels s ∧
      s.state ≠ .pending ∧ s.accepted = [copyTo longerName] ∧
      s.ended.map Prod.fst = [(copyTo longName).asSubmitted] ∧
      s.ended.map Prod.fst ≠ s.accepted.map Request.asSubmitted :=
  ⟨_, _, wholeCopy_run (copyTo longerName) rfl, SlotState.noConfusion, rfl, by decide, by decide⟩

end PicoV9k.Console
