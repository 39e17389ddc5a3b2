import PicoV9k.PortWords

/-!
# The phases of a bus cycle

Every cycle of the 8088 goes through the same phases. In each of them the
position of the state machine, the two FIFOs, the word at the handler and the
count of prefetches are known; the record is what the finished cycles left and
the beginning of the present one. Each instruction stays in its phase or opens
the next one.
-/
namespace PicoV9k.Port
open PicoV9k.Bus PicoV9k.Pio PicoV9k.Sasi PicoV9k.Runs

variable {σ : Type} {n : ℕ}

/-- What a cycle leaves in the record, `w` being the answer to a matched one. -/
def Cycle.trace (c : Cycle) (w : Word) : List Happening :=
  .begun c :: if c.Matched then
    [.pushed (.prefetch c.address.toNat), .supplied w, .consumed w, .pushed c.final]
  else []

def traces (past : List (Cycle × Word)) : List Happening := past.flatMap fun p => p.1.trace p.2

/-- Two phases of the preamble; then the state machine waits for a cycle, samples its address, asks
the handler, has the answer in the FIFO, has taken it. -/
inductive Phase
  | masked
  | preamble
  | waiting
  | sampling (c : Cycle)
  | asking (c : Cycle)
  | answered (c : Cycle) (w : Word)
  | ending (c : Cycle) (w : Word)

def Phase.log : Phase → List Happening
  | .masked | .preamble | .waiting => []
  | .sampling c => [.begun c]
  | .asking c => [.begun c, .pushed (.prefetch c.address.toNat)]
  | .answered c w => [.begun c, .pushed (.prefetch c.address.toNat), .supplied w]
  | .ending c w => [.begun c, .pushed (.prefetch c.address.toNat), .supplied w, .consumed w]

def Phase.tx : Phase → List Word
  | .masked => [dmaRegisterBitmask]
  | .answered _ w => [w]
  | _ => []

/-- The last word of the cycle before may still be with the handler. -/
def Backlog (queue : List Word) (pending : ℕ) : Prop :=
  queue = [] ∧ pending = 0 ∨
    ∃ (w : Word) (c : Cycle), queue = [w] ∧ pending = 1 ∧ c.Matched ∧ FifoWord.ofRaw w = c.final

/-- The words the handler has not finished with, and its count. -/
def Phase.Queued (queue : List Word) (pending : ℕ) : Phase → Prop
  | .masked | .preamble | .waiting | .sampling _ => Backlog queue pending
  | .asking c => ∃ back w, queue = back ++ [w] ∧ Backlog back pending ∧
      FifoWord.ofRaw w = .prefetch c.address.toNat
  | .answered _ _ | .ending _ _ => queue = [] ∧ pending = 1

/-- The cycle is on the bus. -/
def Cycle.On (c : Cycle) (bus : BusPhase) : Prop := bus = .address c ∨ bus = .transfer c

/-- From ALE to the prefetch word. -/
def Cycle.Sampling (c : Cycle) (bus : BusPhase) (sm : Sm) : Prop :=
  match sm.pc with
  | 6 | 7 | 8 => bus = .address c ∧ sm.isr = 0
  | 9 => c.On bus ∧ sm.isr = c.addressWord
  | 10 => c.On bus ∧ sm.isr = c.addressWord ∧ sm.osr = c.addressWord
  | 11 => c.On bus ∧ sm.isr = boardRegisters.shifted c.addressWord 0 20 ∧ sm.osr = c.addressWord
  | 12 => c.On bus ∧ sm.x = boardRegisters.shifted c.addressWord 0 20 ∧ sm.osr = c.addressWord
  | 13 => c.On bus ∧ c.Matched ∧ sm.osr = c.addressWord
  | 14 => c.On bus ∧ c.Matched ∧ sm.osr = c.addressWord ∧ sm.isr = c.addressWord
  | 15 => c.On bus ∧ c.Matched ∧ sm.osr = c.addressWord ∧ sm.isr = c.addressWord ∧
      sm.x = fifoRegPrefetch
  | 16 => c.On bus ∧ c.Matched ∧ sm.osr = c.addressWord ∧
      FifoWord.ofRaw sm.isr = .prefetch c.address.toNat
  | _ => False

/-- The state machine is at the second pull or just before it. -/
def Cycle.Asking (c : Cycle) (bus : BusPhase) (sm : Sm) : Prop :=
  match sm.pc with
  | 17 => c.On bus ∧ c.Matched ∧ sm.osr = c.addressWord
  | 18 => c.On bus ∧ c.Matched ∧ sm.isr = c.addressWord
  | _ => False

/-- From the answer to the last word of the cycle. -/
def Cycle.Ending (c : Cycle) (bus : BusPhase) (sm : Sm) : Prop :=
  match sm.pc with
  | 19 => c.On bus ∧ sm.isr = c.addressWord
  | 20 | 21 => bus = .transfer c ∧ c.written = none ∧ sm.isr = c.addressWord
  | 22 => (bus = .transfer c ∨ bus = .idle) ∧ c.written = none ∧ sm.isr = c.addressWord
  | 23 => bus = .idle ∧ c.written = none ∧ sm.isr = c.addressWord
  | 24 | 25 => bus = .idle ∧ c.written = none ∧ sm.isr = c.addressWord ∧ sm.x = fifoRegReadCommit
  | 26 => FifoWord.ofRaw sm.isr = c.final
  | 27 | 28 => bus = .transfer c ∧ c.written ≠ none ∧ sm.isr = c.addressWord
  | 29 => bus = .transfer c ∧ c.written ≠ none ∧ sm.isr = c.addressWord ∧ sm.x = fifoRegWrite
  | 30 => bus = .transfer c ∧ c.written ≠ none ∧ sm.x = fifoRegWrite ∧
      ∃ noise, sm.isr = boardRegisters.shifted c.addressWord (bus.lines noise) 8
  | 31 => bus = .transfer c ∧ FifoWord.ofRaw sm.isr = c.final
  | _ => False

/-- Between two cycles; at the instruction that waits for ALE, ALE is low. -/
def Waiting (bus : BusPhase) (sm : Sm) : Prop :=
  match sm.pc with
  | 2 => True
  | 3 | 4 | 5 => sm.isr = 0
  | 6 => sm.isr = 0 ∧ bus.ale = false
  | _ => False

/-- Where the state machine is. -/
def Phase.At (bus : BusPhase) (sm : Sm) : Phase → Prop
  | .masked => sm.pc = 0
  | .preamble => sm.pc = 1 ∧ sm.osr = dmaRegisterBitmask
  | .waiting => sm.y = dmaRegisterBitmask ∧ Waiting bus sm
  | .sampling c => sm.y = dmaRegisterBitmask ∧ c.Sampling bus sm
  | .asking c | .answered c _ => sm.y = dmaRegisterBitmask ∧ c.Asking bus sm
  | .ending c _ => sm.y = dmaRegisterBitmask ∧ c.Matched ∧ c.Ending bus sm

/-- The finished cycles are in the past, the present one is in its phase. -/
structure Handshake (s : RegisterPort σ n) (past : List (Cycle × Word)) (phase : Phase) : Prop where
  log : s.log = traces past ++ phase.log
  queued : phase.Queued s.queue s.bridge.pendingPrefetch
  tx : s.sm.tx = phase.tx
  position : phase.At s.bus s.sm

def RegisterPort.InStep (s : RegisterPort σ n) : Prop := ∃ past phase, Handshake s past phase

lemma RegisterPort.Started.inStep {s : RegisterPort σ n} (h : s.Started) : s.InStep := by
  have hqueue : s.queue = [] := by simp only [RegisterPort.queue, h.irq, h.rx]; rfl
  have hback : Backlog s.queue s.bridge.pendingPrefetch := .inl ⟨hqueue, h.pending⟩
  rcases h.sm with ⟨hpc, htx⟩ | ⟨hpc, htx, hy⟩
  · exact ⟨[], .masked, h.log, hback, htx, hpc⟩
  · refine ⟨[], .waiting, h.log, hback, htx, hy, ?_⟩
    simp [Waiting, hpc, boardRegisters]

lemma traces_snoc (past : List (Cycle × Word)) (c : Cycle) (w : Word) :
    traces (past ++ [(c, w)]) = traces past ++ c.trace w := by
  simp [traces]

/-- Neither FIFO is touched. -/
def Internal : Instr → Prop
  | .push | .pull => False
  | _ => True

lemma step_internal {s : RegisterPort σ n} {noise : Word} {sm : Sm} {instr : Instr} {side : BitVec 2}
    (hline : boardRegisters.code[s.sm.pc]? = some (instr, side)) (hinternal : Internal instr)
    (hstep : s.sm.step boardRegisters (s.inputs noise) = some sm) :
    sm.tx = s.sm.tx ∧ sm.rx = s.sm.rx ∧ s.recorded sm = [] := by
  have hrecorded : s.recorded sm = [] := by
    simp only [RegisterPort.recorded, hline, Option.map_some]
    cases instr with
    | push => cases hinternal
    | pull => cases hinternal
    | _ => rfl
  have hkept : ∀ {sm₁ : Sm}, some (sm₁.advance boardRegisters) = some sm →
      sm₁.tx = s.sm.tx ∧ sm₁.rx = s.sm.rx → sm.tx = s.sm.tx ∧ sm.rx = s.sm.rx := by
    intro sm₁ heq hfifos
    cases heq
    exact hfifos
  suffices hfifos : sm.tx = s.sm.tx ∧ sm.rx = s.sm.rx from ⟨hfifos.1, hfifos.2, hrecorded⟩
  rw [Sm.step_eq hline] at hstep
  cases instr with
  | push => cases hinternal
  | pull => cases hinternal
  | out dst bits => exact hkept hstep (Sm.write_fifos _ _ _)
  | shiftIn src bits => exact hkept hstep ⟨rfl, rfl⟩
  | mov dst invert src => exact hkept hstep (Sm.write_fifos _ _ _)
  | set dst value => exact hkept hstep (Sm.writeSet_fifos _ _ _)
  | wait level gpio => exact hkept (Option.ite_none_right_eq_some.mp hstep).2 ⟨rfl, rfl⟩
  | jmp cond target =>
    simp only [Sm.exec] at hstep
    split at hstep
    · cases hstep
      exact ⟨rfl, rfl⟩
    · exact hkept hstep ⟨rfl, rfl⟩
  | nop => exact hkept hstep ⟨rfl, rfl⟩

variable {s : RegisterPort σ n} {past : List (Cycle × Word)} {noise : Word} {sm : Sm}

/-- An internal instruction may open the next phase if that phase looks the same from outside. -/
lemma Handshake.internal {past' : List (Cycle × Word)} {phase phase' : Phase} {instr : Instr}
    {side : BitVec 2} (h : Handshake s past phase) (hline : boardRegisters.code[s.sm.pc]? = some (instr, side))
    (hinternal : Internal instr) (hstep : s.sm.step boardRegisters (s.inputs noise) = some sm)
    (hlog : traces past' ++ phase'.log = traces past ++ phase.log) (htx : phase'.tx = phase.tx)
    (hqueued : phase.Queued s.queue s.bridge.pendingPrefetch →
      phase'.Queued s.queue s.bridge.pendingPrefetch)
    (hat : phase'.At s.bus sm) : Handshake (s.drive sm) past' phase' := by
  obtain ⟨hsmtx, hrx, hrecorded⟩ := step_internal hline hinternal hstep
  refine ⟨?_, ?_, ?_, hat⟩
  · show s.log ++ s.recorded sm = _
    rw [hrecorded, List.append_nil, h.log, hlog]
  · show phase'.Queued (s.irq.toList ++ sm.rx) _
    rw [hrx]
    exact hqueued h.queued
  · show sm.tx = _
    rw [hsmtx, h.tx, htx]

lemma Handshake.stays {phase : Phase} {instr : Instr} {side : BitVec 2} (h : Handshake s past phase)
    (hline : boardRegisters.code[s.sm.pc]? = some (instr, side)) (hinternal : Internal instr)
    (hstep : s.sm.step boardRegisters (s.inputs noise) = some sm) (hat : phase.At s.bus sm) :
    Handshake (s.drive sm) past phase :=
  h.internal hline hinternal hstep rfl rfl id hat

/-- A wait that ends. -/
lemma step_wait {level : Bool} {gpio : ℕ} {side : BitVec 2}
    (hline : boardRegisters.code[s.sm.pc]? = some (.wait level gpio, side))
    (hstep : s.sm.step boardRegisters (s.inputs noise) = some sm) :
    s.gpio gpio = level ∧ sm = s.sm.advance boardRegisters := by
  rw [Sm.step_eq hline] at hstep
  obtain ⟨hlevel, hsm⟩ := Option.ite_none_right_eq_some.mp hstep
  exact ⟨hlevel, (Option.some.inj hsm).symm⟩

lemma Handshake.waiting_moves (h : Handshake s past .waiting)
    (hstep : s.sm.step boardRegisters (s.inputs noise) = some sm) :
    Handshake (s.drive sm) past .waiting := by
  obtain ⟨hy, hat⟩ := h.position
  unfold Waiting at hat
  split at hat
  next hpc =>
    have hline : boardRegisters.code[s.sm.pc]? = some (.mov .isr false .null, sNone) := by
      rw [hpc]; rfl
    refine h.stays hline trivial hstep ?_
    rw [Sm.step_eq hline] at hstep
    cases hstep
    exact ⟨hy, by simp [Waiting, Sm.write, Sm.read, Sm.advance, hpc, Program.next, boardRegisters]⟩
  next hpc =>
    have hline : boardRegisters.code[s.sm.pc]? = some (.mov .pindirs false .null, sNone) := by
      rw [hpc]; rfl
    refine h.stays hline trivial hstep ?_
    rw [Sm.step_eq hline] at hstep
    cases hstep
    exact ⟨hy, by simp [Waiting, Sm.write, Sm.advance, hpc, Program.next, boardRegisters, hat]⟩
  next hpc =>
    have hline : boardRegisters.code[s.sm.pc]? = some (.wait false clock5Pin, sNone) := by
      rw [hpc]; rfl
    refine h.stays hline trivial hstep ?_
    obtain ⟨-, rfl⟩ := step_wait hline hstep
    exact ⟨hy, by simp [Waiting, Sm.advance, hpc, Program.next, boardRegisters, hat]⟩
  next hpc =>
    have hline : boardRegisters.code[s.sm.pc]? = some (.wait false alePin, sNone) := by
      rw [hpc]; rfl
    refine h.stays hline trivial hstep ?_
    obtain ⟨hale, rfl⟩ := step_wait hline hstep
    have hlow : s.bus.ale = false := hale
    exact ⟨hy, by simp [Waiting, Sm.advance, hpc, Program.next, boardRegisters, hat, hlow]⟩
  next hpc =>
    have hline : boardRegisters.code[s.sm.pc]? = some (.wait true alePin, sNone) := by
      rw [hpc]; rfl
    obtain ⟨hale, -⟩ := step_wait hline hstep
    have hhigh : s.bus.ale = true := hale
    rw [hat.2] at hhigh
    cases hhigh
  · exact hat.elim

lemma Cycle.Sampling.pc {c : Cycle} {bus : BusPhase} {sm : Sm} (h : c.Sampling bus sm) :
    6 ≤ sm.pc ∧ sm.pc ≤ 16 := by
  by_contra hout
  unfold Cycle.Sampling at h
  split at h <;> omega

/-- Sampling leads to the prefetch word, or back to waiting when the cycle is not ours. -/
lemma Handshake.sampling_moves {c : Cycle} (h : Handshake s past (.sampling c))
    (hstep : s.sm.step boardRegisters (s.inputs noise) = some sm) :
    Handshake (s.drive sm) past (.sampling c) ∨
      Handshake (s.drive sm) (past ++ [(c, 0)]) .waiting ∨ Handshake (s.drive sm) past (.asking c) := by
  obtain ⟨hy, hat⟩ := h.position
  obtain ⟨hlow, hhigh⟩ := hat.pc
  unfold Cycle.Sampling at hat
  interval_cases hpc : s.sm.pc
  case «6» =>
    have hline : boardRegisters.code[s.sm.pc]? = some (.wait true alePin, sNone) := by rw [hpc]; rfl
    refine .inl (h.stays hline trivial hstep ?_)
    obtain ⟨-, rfl⟩ := step_wait hline hstep
    refine ⟨hy, ?_⟩
    simp only [Cycle.Sampling, Sm.advance, hpc, Program.next, boardRegisters]
    exact hat
  case «7» =>
    have hline : boardRegisters.code[s.sm.pc]? = some (.nop, sNone) := by rw [hpc]; rfl
    refine .inl (h.stays hline trivial hstep ?_)
    rw [Sm.step_eq hline] at hstep
    cases hstep
    refine ⟨hy, ?_⟩
    simp only [Cycle.Sampling, Sm.advance, hpc, Program.next, boardRegisters]
    exact hat
  case «8» =>
    have hline : boardRegisters.code[s.sm.pc]? = some (.shiftIn .pins addressBusSize, sNone) := by
      rw [hpc]; rfl
    refine .inl (h.stays hline trivial hstep ?_)
    rw [Sm.step_eq hline] at hstep
    cases hstep
    obtain ⟨hbus, hisr⟩ := hat
    refine ⟨hy, ?_⟩
    simp only [Cycle.Sampling, Sm.advance, hpc, Program.next, boardRegisters]
    refine ⟨.inl hbus, ?_⟩
    show boardRegisters.shifted s.sm.isr (s.bus.lines noise) 20 = _
    rw [hisr, hbus]
    exact sampled_address c noise
  case «9» =>
    have hline : boardRegisters.code[s.sm.pc]? = some (.mov .osr false .isr, sNone) := by rw [hpc]; rfl
    refine .inl (h.stays hline trivial hstep ?_)
    rw [Sm.step_eq hline] at hstep
    cases hstep
    refine ⟨hy, ?_⟩
    simp only [Cycle.Sampling, Sm.write, Sm.advance, hpc, Program.next, boardRegisters]
    exact ⟨hat.1, hat.2, hat.2⟩
  case «10» =>
    have hline : boardRegisters.code[s.sm.pc]? = some (.shiftIn .null 20, sNone) := by rw [hpc]; rfl
    refine .inl (h.stays hline trivial hstep ?_)
    rw [Sm.step_eq hline] at hstep
    cases hstep
    obtain ⟨hon, hisr, hosr⟩ := hat
    refine ⟨hy, ?_⟩
    simp only [Cycle.Sampling, Sm.advance, hpc, Program.next, boardRegisters]
    exact ⟨hon, congrArg (boardRegisters.shifted · 0 20) hisr, hosr⟩
  case «11» =>
    have hline : boardRegisters.code[s.sm.pc]? = some (.mov .x false .isr, sNone) := by rw [hpc]; rfl
    refine .inl (h.stays hline trivial hstep ?_)
    rw [Sm.step_eq hline] at hstep
    cases hstep
    refine ⟨hy, ?_⟩
    simp only [Cycle.Sampling, Sm.write, Sm.advance, hpc, Program.next, boardRegisters]
    exact hat
  case «12» =>
    have hline : boardRegisters.code[s.sm.pc]? = some (.jmp .xNeY 2, sNone) := by rw [hpc]; rfl
    obtain ⟨hon, hx, hosr⟩ := hat
    have hmatch : s.sm.x = s.sm.y ↔ c.Matched := by rw [hx, hy]; exact compared_address c
    by_cases hm : c.Matched
    · refine .inl (h.stays hline trivial hstep ?_)
      rw [Sm.step_eq hline] at hstep
      simp only [Sm.exec, Condition.holds, hmatch.mpr hm, ne_eq, not_true, decide_false] at hstep
      cases hstep
      refine ⟨hy, ?_⟩
      simp only [Cycle.Sampling, Sm.advance, hpc, Program.next, boardRegisters]
      exact ⟨hon, hm, hosr⟩
    · have hlog : traces (past ++ [(c, 0)]) ++ Phase.waiting.log =
          traces past ++ (Phase.sampling c).log := by
        simp [traces_snoc, Cycle.trace, hm, Phase.log]
      refine .inr (.inl (h.internal hline trivial hstep hlog rfl id ?_))
      rw [Sm.step_eq hline] at hstep
      simp only [Sm.exec, Condition.holds, ne_eq, hmatch, hm, not_false_eq_true, decide_true] at hstep
      cases hstep
      exact ⟨hy, by simp [Waiting]⟩
  case «13» =>
    have hline : boardRegisters.code[s.sm.pc]? = some (.mov .isr false .osr, sXack) := by rw [hpc]; rfl
    refine .inl (h.stays hline trivial hstep ?_)
    rw [Sm.step_eq hline] at hstep
    cases hstep
    obtain ⟨hon, hm, hosr⟩ := hat
    refine ⟨hy, ?_⟩
    simp only [Cycle.Sampling, Sm.write, Sm.advance, hpc, Program.next, boardRegisters]
    exact ⟨hon, hm, hosr, hosr⟩
  case «14» =>
    have hline : boardRegisters.code[s.sm.pc]? = some (.set .x fifoRegPrefetch, sXack) := by
      rw [hpc]; rfl
    refine .inl (h.stays hline trivial hstep ?_)
    rw [Sm.step_eq hline] at hstep
    cases hstep
    obtain ⟨hon, hm, hosr, hisr⟩ := hat
    refine ⟨hy, ?_⟩
    simp only [Cycle.Sampling, Sm.writeSet, Sm.write, Sm.advance, hpc, Program.next, boardRegisters]
    exact ⟨hon, hm, hosr, hisr, trivial⟩
  case «15» =>
    have hline : boardRegisters.code[s.sm.pc]? = some (.shiftIn .x 2, sXack) := by rw [hpc]; rfl
    refine .inl (h.stays hline trivial hstep ?_)
    rw [Sm.step_eq hline] at hstep
    cases hstep
    obtain ⟨hon, hm, hosr, hisr, hx⟩ := hat
    refine ⟨hy, ?_⟩
    simp only [Cycle.Sampling, Sm.advance, hpc, Program.next, boardRegisters]
    refine ⟨hon, hm, hosr, ?_⟩
    show FifoWord.ofRaw (boardRegisters.shifted s.sm.isr s.sm.x 2) = _
    rw [hisr, hx]
    exact prefetch_word c
  case «16» =>
    have hline : boardRegisters.code[s.sm.pc]? = some (.push, sXack) := by rw [hpc]; rfl
    obtain ⟨hon, hm, hosr, hisr⟩ := hat
    rw [Sm.step_eq hline] at hstep
    obtain ⟨-, hsm⟩ := Option.ite_none_right_eq_some.mp hstep
    cases hsm
    refine .inr (.inr ⟨?_, ?_, h.tx, hy, ?_⟩)
    · show s.log ++ s.recorded _ = _
      simp [RegisterPort.recorded, hline, h.log, hisr, Phase.log]
    · refine ⟨s.queue, s.sm.isr, ?_, h.queued, hisr⟩
      show s.irq.toList ++ (s.sm.rx ++ [s.sm.isr]) = _
      rw [← List.append_assoc]
      rfl
    · simp only [Cycle.Asking, Sm.advance, hpc, Program.next, boardRegisters]
      exact ⟨hon, hm, hosr⟩

lemma Cycle.Asking.on {c : Cycle} {bus : BusPhase} {sm : Sm} (h : c.Asking bus sm) :
    (sm.pc = 17 ∨ sm.pc = 18) ∧ c.On bus ∧ c.Matched := by
  unfold Cycle.Asking at h
  split at h
  next hpc => exact ⟨.inl hpc, h.1, h.2.1⟩
  next hpc => exact ⟨.inr hpc, h.1, h.2.1⟩
  · exact h.elim

/-- Restoring the address is all that is left to do before the pull. -/
lemma asking_restores {c : Cycle} (hpc : s.sm.pc = 17) (hat : c.Asking s.bus s.sm)
    (hstep : s.sm.step boardRegisters (s.inputs noise) = some sm) :
    boardRegisters.code[s.sm.pc]? = some (.mov .isr false .osr, sXack) ∧ sm.y = s.sm.y ∧
      c.Asking s.bus sm := by
  have hline : boardRegisters.code[s.sm.pc]? = some (.mov .isr false .osr, sXack) := by rw [hpc]; rfl
  rw [Sm.step_eq hline] at hstep
  cases hstep
  unfold Cycle.Asking at hat
  rw [hpc] at hat
  refine ⟨hline, rfl, ?_⟩
  simp only [Cycle.Asking, Sm.write, Sm.advance, hpc, Program.next, boardRegisters]
  exact hat

/-- Without an answer the state machine stops at the pull. -/
lemma Handshake.asking_moves {c : Cycle} (h : Handshake s past (.asking c))
    (hstep : s.sm.step boardRegisters (s.inputs noise) = some sm) :
    Handshake (s.drive sm) past (.asking c) := by
  obtain ⟨hy, hat⟩ := h.position
  rcases hat.on.1 with hpc | hpc
  · obtain ⟨hline, hsmy, hasking⟩ := asking_restores hpc hat hstep
    exact h.stays hline trivial hstep ⟨hsmy.trans hy, hasking⟩
  · have hline : boardRegisters.code[s.sm.pc]? = some (.pull, sXack) := by rw [hpc]; rfl
    have htx : s.sm.tx = [] := h.tx
    rw [Sm.step_eq hline] at hstep
    simp only [Sm.exec, htx] at hstep
    cases hstep

/-- The answer is taken in the cycle it was given for. -/
lemma Handshake.answered_moves {c : Cycle} {w : Word} (h : Handshake s past (.answered c w))
    (hstep : s.sm.step boardRegisters (s.inputs noise) = some sm) :
    Handshake (s.drive sm) past (.answered c w) ∨ Handshake (s.drive sm) past (.ending c w) := by
  obtain ⟨hy, hat⟩ := h.position
  obtain ⟨hcases, hon, hm⟩ := hat.on
  rcases hcases with hpc | hpc
  · obtain ⟨hline, hsmy, hasking⟩ := asking_restores hpc hat hstep
    exact .inl (h.stays hline trivial hstep ⟨hsmy.trans hy, hasking⟩)
  · have hline : boardRegisters.code[s.sm.pc]? = some (.pull, sXack) := by rw [hpc]; rfl
    have htx : s.sm.tx = [w] := h.tx
    have hisr : s.sm.isr = c.addressWord := by
      unfold Cycle.Asking at hat
      rw [hpc] at hat
      exact hat.2.2
    rw [Sm.step_eq hline] at hstep
    simp only [Sm.exec, htx] at hstep
    cases hstep
    refine .inr ⟨?_, h.queued, rfl, hy, hm, ?_⟩
    · show s.log ++ s.recorded _ = _
      simp only [RegisterPort.recorded, hline, Option.map_some]
      simp [hpc, boardRegisters, h.log, Phase.log, Sm.advance]
    · simp only [Cycle.Ending, Sm.advance, hpc, Program.next, boardRegisters]
      exact ⟨hon, hisr⟩

lemma Cycle.Ending.pc {c : Cycle} {bus : BusPhase} {sm : Sm} (h : c.Ending bus sm) :
    19 ≤ sm.pc ∧ sm.pc ≤ 31 := by
  by_contra hout
  unfold Cycle.Ending at h
  split at h <;> omega

/-- A read waits for RD/, a write for READY; both leave with their last word. -/
lemma Handshake.ending_moves {c : Cycle} {w : Word} (h : Handshake s past (.ending c w))
    (hrd : s.sm.pc = 19 → s.bus.ale = false)
    (hstep : s.sm.step boardRegisters (s.inputs noise) = some sm) :
    Handshake (s.drive sm) past (.ending c w) ∨
      Handshake (s.drive sm) (past ++ [(c, w)]) .waiting := by
  obtain ⟨hy, hm, hat⟩ := h.position
  obtain ⟨hlow, hhigh⟩ := hat.pc
  unfold Cycle.Ending at hat
  interval_cases hpc : s.sm.pc
  case «19» =>
    have hline : boardRegisters.code[s.sm.pc]? = some (.jmp .pin 27, sXack) := by rw [hpc]; rfl
    refine .inl (h.stays hline trivial hstep ?_)
    obtain ⟨hon, hisr⟩ := hat
    have hbus : s.bus = .transfer c := by
      rcases hon with hbus | hbus
      · have hale := hrd rfl
        rw [hbus] at hale
        cases hale
      · exact hbus
    rw [Sm.step_eq hline] at hstep
    obtain ⟨address, written⟩ := c
    cases written with
    | none =>
      have hpin : Condition.pin.holds s.sm boardRegisters (s.inputs noise) = false := by
        show s.bus.rd = false
        rw [hbus]
        rfl
      simp only [Sm.exec, hpin, Bool.false_eq_true, if_false] at hstep
      cases hstep
      refine ⟨hy, hm, ?_⟩
      simp only [Cycle.Ending, Sm.advance, hpc, Program.next, boardRegisters]
      exact ⟨hbus, trivial, hisr⟩
    | some byte =>
      have hpin : Condition.pin.holds s.sm boardRegisters (s.inputs noise) = true := by
        show s.bus.rd = true
        rw [hbus]
        rfl
      simp only [Sm.exec, hpin, if_true] at hstep
      cases hstep
      exact ⟨hy, hm, hbus, by simp, hisr⟩
  case «20» =>
    have hline : boardRegisters.code[s.sm.pc]? = some (.out .pins dataSize, sBoth) := by rw [hpc]; rfl
    refine .inl (h.stays hline trivial hstep ?_)
    rw [Sm.step_eq hline] at hstep
    cases hstep
    refine ⟨hy, hm, ?_⟩
    simp only [Cycle.Ending, Sm.write, Sm.advance, hpc, Program.next, boardRegisters]
    exact hat
  case «21» =>
    have hline : boardRegisters.code[s.sm.pc]? = some (.out .pindirs dataSize, sBoth) := by
      rw [hpc]; rfl
    refine .inl (h.stays hline trivial hstep ?_)
    rw [Sm.step_eq hline] at hstep
    cases hstep
    refine ⟨hy, hm, ?_⟩
    simp only [Cycle.Ending, Sm.write, Sm.advance, hpc, Program.next, boardRegisters]
    exact ⟨.inl hat.1, hat.2⟩
  case «22» =>
    have hline : boardRegisters.code[s.sm.pc]? = some (.wait true rdPin, sExtio) := by rw [hpc]; rfl
    refine .inl (h.stays hline trivial hstep ?_)
    obtain ⟨hlevel, rfl⟩ := step_wait hline hstep
    obtain ⟨hbus, hread, hisr⟩ := hat
    have hidle : s.bus = .idle := by
      rcases hbus with hbus | hbus
      · have hhigh : s.bus.rd = true := hlevel
        obtain ⟨address, written⟩ := c
        cases hread
        rw [hbus] at hhigh
        cases hhigh
      · exact hbus
    refine ⟨hy, hm, ?_⟩
    simp only [Cycle.Ending, Sm.advance, hpc, Program.next, boardRegisters]
    exact ⟨hidle, hread, hisr⟩
  case «23» =>
    have hline : boardRegisters.code[s.sm.pc]? = some (.set .x fifoRegReadCommit, sExtio) := by
      rw [hpc]; rfl
    refine .inl (h.stays hline trivial hstep ?_)
    rw [Sm.step_eq hline] at hstep
    cases hstep
    refine ⟨hy, hm, ?_⟩
    simp only [Cycle.Ending, Sm.writeSet, Sm.write, Sm.advance, hpc, Program.next, boardRegisters]
    exact ⟨hat.1, hat.2.1, hat.2.2, trivial⟩
  case «24» =>
    have hline : boardRegisters.code[s.sm.pc]? = some (.nop, sExtio) := by rw [hpc]; rfl
    refine .inl (h.stays hline trivial hstep ?_)
    rw [Sm.step_eq hline] at hstep
    cases hstep
    refine ⟨hy, hm, ?_⟩
    simp only [Cycle.Ending, Sm.advance, hpc, Program.next, boardRegisters]
    exact hat
  case «25» =>
    have hline : boardRegisters.code[s.sm.pc]? = some (.shiftIn .x 2, sExtio) := by rw [hpc]; rfl
    refine .inl (h.stays hline trivial hstep ?_)
    rw [Sm.step_eq hline] at hstep
    cases hstep
    obtain ⟨-, hread, hisr, hx⟩ := hat
    refine ⟨hy, hm, ?_⟩
    simp only [Cycle.Ending, Sm.advance, hpc, Program.next, boardRegisters]
    show FifoWord.ofRaw (boardRegisters.shifted s.sm.isr s.sm.x 2) = _
    rw [hisr, hx, Cycle.final, hread]
    exact readCommit_word c
  case «26» =>
    have hline : boardRegisters.code[s.sm.pc]? = some (.push, sNone) := by rw [hpc]; rfl
    rw [Sm.step_eq hline] at hstep
    obtain ⟨-, hsm⟩ := Option.ite_none_right_eq_some.mp hstep
    cases hsm
    have hisr : FifoWord.ofRaw s.sm.isr = c.final := hat
    obtain ⟨hqueue, hpending⟩ := h.queued
    have hirq : s.irq.toList ++ s.sm.rx = [] := hqueue
    refine .inr ⟨?_, .inr ⟨s.sm.isr, c, ?_, hpending, hm, hisr⟩, h.tx, hy, ?_⟩
    · show s.log ++ s.recorded _ = _
      simp [RegisterPort.recorded, hline, h.log, hisr, Phase.log, traces_snoc, Cycle.trace, hm]
    · show s.irq.toList ++ (s.sm.rx ++ [s.sm.isr]) = _
      rw [← List.append_assoc, hirq]
      rfl
    · simp [Waiting, RegisterPort.drive, Sm.advance, hpc, Program.next, boardRegisters]
  case «27» =>
    have hline : boardRegisters.code[s.sm.pc]? = some (.wait true readyPin, sExtio) := by
      rw [hpc]; rfl
    refine .inl (h.stays hline trivial hstep ?_)
    obtain ⟨-, rfl⟩ := step_wait hline hstep
    refine ⟨hy, hm, ?_⟩
    simp only [Cycle.Ending, Sm.advance, hpc, Program.next, boardRegisters]
    exact hat
  case «28» =>
    have hline : boardRegisters.code[s.sm.pc]? = some (.set .x fifoRegWrite, sExtio) := by
      rw [hpc]; rfl
    refine .inl (h.stays hline trivial hstep ?_)
    rw [Sm.step_eq hline] at hstep
    cases hstep
    refine ⟨hy, hm, ?_⟩
    simp only [Cycle.Ending, Sm.writeSet, Sm.write, Sm.advance, hpc, Program.next, boardRegisters]
    exact ⟨hat.1, hat.2.1, hat.2.2, trivial⟩
  case «29» =>
    have hline : boardRegisters.code[s.sm.pc]? = some (.shiftIn .pins dataSize, sExtio) := by
      rw [hpc]; rfl
    refine .inl (h.stays hline trivial hstep ?_)
    rw [Sm.step_eq hline] at hstep
    cases hstep
    obtain ⟨hbus, hwrite, hisr, hx⟩ := hat
    refine ⟨hy, hm, ?_⟩
    simp only [Cycle.Ending, Sm.advance, hpc, Program.next, boardRegisters]
    refine ⟨hbus, hwrite, hx, noise, ?_⟩
    show boardRegisters.shifted s.sm.isr (s.bus.lines noise) 8 = _
    rw [hisr]
    rfl
  case «30» =>
    have hline : boardRegisters.code[s.sm.pc]? = some (.shiftIn .x 2, sExtio) := by rw [hpc]; rfl
    refine .inl (h.stays hline trivial hstep ?_)
    rw [Sm.step_eq hline] at hstep
    cases hstep
    obtain ⟨hbus, hwrite, hx, noise', hisr⟩ := hat
    refine ⟨hy, hm, ?_⟩
    simp only [Cycle.Ending, Sm.advance, hpc, Program.next, boardRegisters]
    refine ⟨hbus, ?_⟩
    show FifoWord.ofRaw (boardRegisters.shifted s.sm.isr s.sm.x 2) = _
    rw [hisr, hx, hbus]
    obtain ⟨address, written⟩ := c
    cases written with
    | none => exact absurd rfl hwrite
    | some byte => exact write_word address byte noise'
  case «31» =>
    have hline : boardRegisters.code[s.sm.pc]? = some (.jmp .always 26, sNone) := by rw [hpc]; rfl
    refine .inl (h.stays hline trivial hstep ?_)
    rw [Sm.step_eq hline] at hstep
    cases hstep
    exact ⟨hy, hm, hat.2⟩

lemma Handshake.sm_moves {phase : Phase} (h : Handshake s past phase)
    (hrd : s.sm.pc = 19 → s.bus.ale = false)
    (hstep : s.sm.step boardRegisters (s.inputs noise) = some sm) : (s.drive sm).InStep := by
  cases phase with
  | masked =>
    have hpc : s.sm.pc = 0 := h.position
    have hline : boardRegisters.code[s.sm.pc]? = some (.pull, sNone) := by rw [hpc]; rfl
    have htx : s.sm.tx = [dmaRegisterBitmask] := h.tx
    rw [Sm.step_eq hline] at hstep
    simp only [Sm.exec, htx] at hstep
    cases hstep
    refine ⟨past, .preamble, ?_, h.queued, rfl, ?_, rfl⟩
    · show s.log ++ s.recorded _ = _
      simp only [RegisterPort.recorded, hline, Option.map_some]
      simp [hpc, boardRegisters, h.log, Phase.log]
    · simp [RegisterPort.drive, Sm.advance, hpc, Program.next, boardRegisters]
  | preamble =>
    obtain ⟨hpc, hosr⟩ := h.position
    have hline : boardRegisters.code[s.sm.pc]? = some (.out .y registerSize, sNone) := by
      rw [hpc]; rfl
    refine ⟨past, .waiting, h.internal hline trivial hstep rfl rfl id ?_⟩
    rw [Sm.step_eq hline] at hstep
    cases hstep
    constructor
    · show low 12 s.sm.osr = _
      rw [hosr]
      decide
    · simp [Waiting, Sm.write, Sm.advance, hpc, Program.next, boardRegisters]
  | waiting => exact ⟨past, .waiting, h.waiting_moves hstep⟩
  | sampling c =>
    rcases h.sampling_moves hstep with hnext | hnext | hnext
    · exact ⟨_, _, hnext⟩
    · exact ⟨_, _, hnext⟩
    · exact ⟨_, _, hnext⟩
  | asking c => exact ⟨_, _, h.asking_moves hstep⟩
  | answered c w =>
    rcases h.answered_moves hstep with hnext | hnext
    · exact ⟨_, _, hnext⟩
    · exact ⟨_, _, hnext⟩
  | ending c w =>
    rcases h.ending_moves hrd hstep with hnext | hnext
    · exact ⟨_, _, hnext⟩
    · exact ⟨_, _, hnext⟩

end PicoV9k.Port
