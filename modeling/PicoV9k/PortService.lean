import PicoV9k.PortHandshake
import PicoV9k.HostAccesses

/-!
# What the 8088 reads

The register port with the whole of core 1 behind it. Whatever the order of bus
cycles, handler and worker, core 1 meets the accesses of the bus cycles in their
order, and the byte it answered with is the one on the data lines.
-/
namespace PicoV9k.Port
open PicoV9k.Bus PicoV9k.Pio PicoV9k.Storage PicoV9k.Mgmt PicoV9k.Sasi PicoV9k.Runs

variable {Io σ : Type} {n : ℕ} (reg : Registry Io σ)

def accessOf : BusLabel Io σ → Option FifoEvent
  | .fifo event => some event
  | .worker _ | .service _ => none

/-- The byte core 1 answers an access with. -/
def answerOf (b : Bridge σ n) : BusLabel Io σ → Option Byte
  | .fifo event => (b.isr event).2
  | .worker _ | .service _ => none

/-- The answers along a run. -/
def answers : Bridge σ n → List (BusLabel Io σ) → List Byte
  | _, [] => []
  | b, label :: labels =>
    (answerOf b label).toList ++ ((b.step reg label).map fun b' => answers b' labels).getD []

/-- The accesses a bus cycle asks core 1 for. -/
def Cycle.accesses (c : Cycle) : List FifoEvent :=
  if c.Matched then [.prefetch (regOfAddress c.address.toNat), c.final.event] else []

/-- Apart from the handler core 1 takes steps of its worker and serves the console. -/
def RegisterPort.CoreOne (s : RegisterPort σ n) : Move σ n → Prop
  | .core1 bridge => ∃ label, accessOf label = none ∧ s.bridge.step reg label = some bridge
  | _ => True

def Happening.access? : Happening → Option FifoEvent
  | .pushed word => some word.event
  | _ => none

def Happening.supplied? : Happening → Option Word
  | .supplied w => some w
  | _ => none

def Happening.consumed? : Happening → Option Word
  | .consumed w => some w
  | _ => none

/-- Core 1 has met the accesses in the record, but for those that wait, and the words supplied are
its answers. -/
def Serviced (s₀ s : RegisterPort σ n) : Prop :=
  ∃ labels, Run (Bridge.step reg) s₀.bridge labels s.bridge ∧
    labels.filterMap accessOf ++ s.queue.map FifoEvent.ofRaw = s.log.filterMap Happening.access? ∧
    (answers reg s₀.bridge labels).map payload = s.log.filterMap Happening.supplied?

variable {reg}

lemma answers_snoc {b b' : Bridge σ n} {labels : List (BusLabel Io σ)}
    (h : Run (Bridge.step reg) b labels b') (label : BusLabel Io σ) :
    answers reg b (labels ++ [label]) = answers reg b labels ++ (answerOf b' label).toList := by
  induction h with
  | nil b =>
    simp only [answers, List.nil_append]
    cases b.step reg label <;> simp
  | cons _ hs _ ih => simp [answers, hs, ih]

variable {s s' s₀ : RegisterPort σ n}

lemma Serviced.extend (h : Serviced reg s₀ s) (label : BusLabel Io σ)
    (hs : s.bridge.step reg label = some s'.bridge)
    (haccess : (accessOf label).toList ++ s'.queue.map FifoEvent.ofRaw = s.queue.map FifoEvent.ofRaw)
    (hlog : s'.log.filterMap Happening.access? = s.log.filterMap Happening.access?)
    (hanswer : s'.log.filterMap Happening.supplied? =
      s.log.filterMap Happening.supplied? ++ ((answerOf s.bridge label).toList).map payload) :
    Serviced reg s₀ s' := by
  obtain ⟨labels, hrun, hmet, hsupplied⟩ := h
  refine ⟨labels ++ [label], hrun.append (.cons trivial hs (.nil _)), ?_, ?_⟩
  · have hlast : [label].filterMap accessOf = (accessOf label).toList := by
      cases h : accessOf label <;> simp [h]
    rw [hlog, ← hmet, ← haccess, List.filterMap_append, hlast, List.append_assoc]
  · rw [answers_snoc hrun, List.map_append, hsupplied, hanswer]

/-- Core 1 rests; the record and the queue grow by the same accesses. -/
lemma Serviced.rest (h : Serviced reg s₀ s) (hb : s'.bridge = s.bridge) (words : List FifoEvent)
    (hqueue : s'.queue.map FifoEvent.ofRaw = s.queue.map FifoEvent.ofRaw ++ words)
    (hlog : s'.log.filterMap Happening.access? = s.log.filterMap Happening.access? ++ words)
    (hsupplied : s'.log.filterMap Happening.supplied? = s.log.filterMap Happening.supplied?) :
    Serviced reg s₀ s' := by
  obtain ⟨labels, hrun, hmet, hgiven⟩ := h
  refine ⟨labels, hb ▸ hrun, ?_, ?_⟩
  · rw [hqueue, hlog, ← hmet, List.append_assoc]
  · rw [hgiven, hsupplied]

/-- What an instruction pushes goes to the queue and into the record. -/
lemma drive_queue {noise : Word} {sm : Sm} (hstep : s.sm.step boardRegisters (s.inputs noise) = some sm) :
    (s.drive sm).queue.map FifoEvent.ofRaw =
        s.queue.map FifoEvent.ofRaw ++ (s.recorded sm).filterMap Happening.access? ∧
      (s.recorded sm).filterMap Happening.supplied? = [] := by
  have hkept (hrx : sm.rx = s.sm.rx) (hrecorded : (s.recorded sm).filterMap Happening.access? = []) :
      (s.drive sm).queue.map FifoEvent.ofRaw =
        s.queue.map FifoEvent.ofRaw ++ (s.recorded sm).filterMap Happening.access? := by
    rw [hrecorded, List.append_nil]
    show (s.irq.toList ++ sm.rx).map _ = _
    rw [hrx]
    rfl
  obtain ⟨⟨instr, side⟩, hline, hexec⟩ := Option.bind_eq_some_iff.mp hstep
  cases instr with
  | push =>
    obtain ⟨-, hsm⟩ := Option.ite_none_right_eq_some.mp hexec
    cases hsm
    have hrecorded (sm' : Sm) : s.recorded sm' = [.pushed (.ofRaw s.sm.isr)] := by
      simp only [RegisterPort.recorded, hline, Option.map_some]
    rw [hrecorded]
    refine ⟨?_, rfl⟩
    show (s.irq.toList ++ (s.sm.rx ++ [s.sm.isr])).map _ = _
    rw [← List.append_assoc, List.map_append]
    exact congrArg (_ ++ [·]) (event_ofRaw s.sm.isr)
  | pull =>
    have hrecorded : (s.recorded sm).filterMap Happening.access? = [] ∧
        (s.recorded sm).filterMap Happening.supplied? = [] := by
      simp only [RegisterPort.recorded, hline, Option.map_some]
      split <;> exact ⟨rfl, rfl⟩
    refine ⟨hkept ?_ hrecorded.1, hrecorded.2⟩
    simp only [Sm.exec] at hexec
    split at hexec
    · cases hexec
    · cases hexec
      rfl
  | _ =>
    obtain ⟨-, hrx, hrecorded⟩ := step_internal hline trivial hstep
    rw [hrecorded] at hkept ⊢
    exact ⟨hkept hrx rfl, rfl⟩

lemma Serviced.serve (h : Serviced reg s₀ s) (hin : s.InStep) (hstep : s.serve = some s') :
    Serviced reg s₀ s' := by
  obtain ⟨w, hirq, hqueue⟩ := RegisterPort.serve_irq hstep
  have htx : s.sm.tx.length < fifoDepth := lt_of_le_of_lt hin.agreed.tx (by decide)
  simp only [RegisterPort.serve, hirq, Option.map_some] at hstep
  have hnext := Option.some.inj hstep
  have hmet : (accessOf (.fifo (.ofRaw w) : BusLabel Io σ)).toList ++ s.sm.rx.map FifoEvent.ofRaw =
      s.queue.map FifoEvent.ofRaw := by
    rw [hqueue]
    rfl
  cases hanswer : (s.bridge.isr (.ofRaw w)).2 with
  | none =>
    simp only [hanswer] at hnext
    subst hnext
    refine h.extend (.fifo (.ofRaw w)) rfl hmet rfl ?_
    simp [answerOf, hanswer]
  | some data =>
    simp only [hanswer, RegisterPort.putIsrSafe, htx, if_true] at hnext
    subst hnext
    refine h.extend (.fifo (.ofRaw w)) rfl hmet ?_ ?_
    · simp [Happening.access?]
    · simp [answerOf, hanswer, Happening.supplied?]

lemma Serviced.step (h : Serviced reg s₀ s) (hin : s.InStep) {m : Move σ n} (hcore : s.CoreOne reg m)
    (hstep : s.step m = some s') : Serviced reg s₀ s' := by
  have hquiet (hb : s'.bridge = s.bridge) (hq : s'.queue = s.queue) {es : List Happening}
      (hlog : s'.log = s.log ++ es) (hes : es.filterMap Happening.access? = [] ∧
        es.filterMap Happening.supplied? = []) : Serviced reg s₀ s' := by
    refine h.rest hb [] (by rw [hq, List.append_nil]) ?_ ?_
    · rw [hlog, List.filterMap_append, hes.1]
    · rw [hlog, List.filterMap_append, hes.2, List.append_nil]
  cases m with
  | sm noise =>
    obtain ⟨sm, hsm, rfl⟩ := Option.map_eq_some_iff.mp hstep
    obtain ⟨hqueue, hsupplied⟩ := drive_queue hsm
    refine h.rest rfl _ hqueue List.filterMap_append ?_
    show (s.log ++ s.recorded sm).filterMap _ = _
    rw [List.filterMap_append, hsupplied, List.append_nil]
  | take =>
    obtain ⟨w, rx, hirq, hrx, rfl⟩ := RegisterPort.take_eq hstep
    refine hquiet rfl ?_ (List.append_nil _).symm ⟨rfl, rfl⟩
    simp only [RegisterPort.queue, hirq, hrx]
    rfl
  | serve => exact h.serve hin hstep
  | begin c =>
    obtain ⟨-, hs⟩ := Option.ite_none_right_eq_some.mp hstep
    cases hs
    exact hquiet rfl rfl rfl ⟨rfl, rfl⟩
  | strobe =>
    simp only [RegisterPort.step] at hstep
    split at hstep <;> cases hstep
    exact hquiet rfl rfl (List.append_nil _).symm ⟨rfl, rfl⟩
  | finish =>
    simp only [RegisterPort.step] at hstep
    split at hstep
    · obtain ⟨-, hs⟩ := Option.ite_none_right_eq_some.mp hstep
      cases hs
      exact hquiet rfl rfl (List.append_nil _).symm ⟨rfl, rfl⟩
    · cases hstep
  | clock5 level =>
    cases hstep
    exact hquiet rfl rfl (List.append_nil _).symm ⟨rfl, rfl⟩
  | ready level =>
    simp only [RegisterPort.step] at hstep
    split at hstep <;> cases hstep
    exact hquiet rfl rfl (List.append_nil _).symm ⟨rfl, rfl⟩
  | core1 bridge =>
    obtain ⟨label, hnone, hlabel⟩ := hcore
    obtain ⟨-, hs⟩ := Option.ite_none_right_eq_some.mp hstep
    cases hs
    have hanswer : answerOf s.bridge label = none := by
      cases label with
      | fifo event => cases hnone
      | _ => rfl
    refine h.extend label hlabel ?_ rfl ?_
    · rw [hnone]
      rfl
    · rw [hanswer]
      exact (List.append_nil _).symm

/-- EXTIO/ is driven: the card has the data bus. -/
def RegisterPort.extio (s : RegisterPort σ n) : Bool := (boardRegisters.side s.sm.pc).getLsbD 1

/-- Where the word `w` is that the state machine took last. -/
def Carries (w : Word) (sm : Sm) : Prop :=
  (sm.pc = 19 ∨ sm.pc = 20 → sm.osr = w) ∧
    (sm.pc = 21 → sm.outPins = low 8 w ∧ sm.osr = w >>> 8) ∧
    (22 ≤ sm.pc ∧ sm.pc ≤ 25 → sm.outPins = low 8 w ∧ sm.outDirs = low 8 (w >>> 8))

def RegisterPort.Driving (s : RegisterPort σ n) : Prop :=
  ∀ w, (s.log.filterMap Happening.consumed?).getLast? = some w → Carries w s.sm

lemma jump_target {pc : ℕ} {cond : Condition} {target : ℕ} {side : BitVec 2}
    (h : boardRegisters.code[pc]? = some (.jmp cond target, side)) :
    target = 2 ∨ target = 26 ∨ target = 27 := by
  have hmem := List.mem_of_getElem? h
  simp [boardRegisters] at hmem
  omega

/-- A step to one of the instructions that drive the data bus comes from the one before. -/
lemma step_driving {inputs : Inputs} {sm sm' : Sm}
    (hstep : sm.step boardRegisters inputs = some sm') (hpc : 19 ≤ sm'.pc ∧ sm'.pc ≤ 25) :
    sm'.pc = sm.pc + 1 := by
  have hnext {sm₁ : Sm} (h : some (sm₁.advance boardRegisters) = some sm') (hpc₁ : sm₁.pc = sm.pc) :
      sm'.pc = sm.pc + 1 := by
    cases h
    simp only [Sm.advance, Program.next, hpc₁] at hpc ⊢
    split
    next hwrap =>
      rw [if_pos hwrap] at hpc
      exact absurd hpc.1 (by decide)
    · rfl
  obtain ⟨⟨instr, side⟩, hline, hexec⟩ := Option.bind_eq_some_iff.mp hstep
  cases instr with
  | pull =>
    simp only [Sm.exec] at hexec
    split at hexec
    · cases hexec
    · exact hnext hexec rfl
  | push => exact hnext (Option.ite_none_right_eq_some.mp hexec).2 rfl
  | out dst bits => exact hnext hexec (by cases dst <;> rfl)
  | shiftIn src bits => exact hnext hexec rfl
  | mov dst invert src => exact hnext hexec (by cases dst <;> rfl)
  | set dst value => exact hnext hexec (by cases dst <;> rfl)
  | wait level gpio => exact hnext (Option.ite_none_right_eq_some.mp hexec).2 rfl
  | jmp cond target =>
    simp only [Sm.exec] at hexec
    split at hexec
    · cases hexec
      have htarget := jump_target hline
      dsimp only at hpc
      omega
    · exact hnext hexec rfl
  | nop => exact hnext hexec rfl

/-- The instruction leaves the output shift register and the data lines alone. -/
def KeepsData : Instr → Prop
  | .pull | .out _ _ | .mov _ _ _ => False
  | .set dst _ => dst = .x
  | _ => True

lemma step_keepsData {inputs : Inputs} {sm sm' : Sm} {instr : Instr} {side : BitVec 2}
    (hline : boardRegisters.code[sm.pc]? = some (instr, side)) (hkeeps : KeepsData instr)
    (hstep : sm.step boardRegisters inputs = some sm') :
    sm'.osr = sm.osr ∧ sm'.outPins = sm.outPins ∧ sm'.outDirs = sm.outDirs := by
  rw [Sm.step_eq hline] at hstep
  cases instr with
  | pull | out | mov => cases hkeeps
  | push =>
    obtain ⟨-, hsm⟩ := Option.ite_none_right_eq_some.mp hstep
    cases hsm
    exact ⟨rfl, rfl, rfl⟩
  | shiftIn src bits =>
    cases hstep
    exact ⟨rfl, rfl, rfl⟩
  | set dst value =>
    cases hkeeps
    cases hstep
    exact ⟨rfl, rfl, rfl⟩
  | wait level gpio =>
    obtain ⟨-, hsm⟩ := Option.ite_none_right_eq_some.mp hstep
    cases hsm
    exact ⟨rfl, rfl, rfl⟩
  | jmp cond target =>
    simp only [Sm.exec] at hstep
    split at hstep <;> cases hstep <;> exact ⟨rfl, rfl, rfl⟩
  | nop =>
    cases hstep
    exact ⟨rfl, rfl, rfl⟩

/-- What an instruction between the answer and the end of the cycle does with the answer. -/
lemma carries_step {inputs : Inputs} {sm sm' : Sm} {w : Word} (h : Carries w sm) (hpc : sm.pc ≠ 18)
    (hstep : sm.step boardRegisters inputs = some sm') : Carries w sm' := by
  by_cases hdrive : 19 ≤ sm'.pc ∧ sm'.pc ≤ 25
  · have hnext := step_driving hstep hdrive
    have hlate (hp : 22 ≤ sm.pc) (hlt : sm.pc ≤ 24) {instr : Instr} {side : BitVec 2}
        (hline : boardRegisters.code[sm.pc]? = some (instr, side)) (hkeeps : KeepsData instr) :
        Carries w sm' := by
      obtain ⟨hpins, hdirs⟩ := h.2.2 ⟨hp, hlt.trans (by decide)⟩
      obtain ⟨-, hpins', hdirs'⟩ := step_keepsData hline hkeeps hstep
      refine ⟨fun h19 => ?_, fun h21 => ?_, fun _ => ⟨hpins'.trans hpins, hdirs'.trans hdirs⟩⟩ <;> omega
    have hfrom : sm.pc = 19 ∨ sm.pc = 20 ∨ sm.pc = 21 ∨ sm.pc = 22 ∨ sm.pc = 23 ∨ sm.pc = 24 := by omega
    rcases hfrom with hp | hp | hp | hp | hp | hp
    · have hline : boardRegisters.code[sm.pc]? = some (.jmp .pin 27, sXack) := by rw [hp]; rfl
      obtain ⟨hosr, -, -⟩ := step_keepsData hline trivial hstep
      refine ⟨fun _ => hosr.trans (h.1 (.inl hp)), fun h21 => ?_, fun h22 => ?_⟩ <;> omega
    · have hline : boardRegisters.code[sm.pc]? = some (.out .pins dataSize, sBoth) := by rw [hp]; rfl
      have hosr := h.1 (.inr hp)
      rw [Sm.step_eq hline] at hstep
      cases hstep
      have hpins : low dataSize sm.osr = low 8 w ∧ sm.osr >>> dataSize = w >>> 8 := by
        rw [hosr]
        exact ⟨rfl, rfl⟩
      refine ⟨fun h19 => ?_, fun _ => hpins, fun h22 => ?_⟩ <;> omega
    · have hline : boardRegisters.code[sm.pc]? = some (.out .pindirs dataSize, sBoth) := by rw [hp]; rfl
      obtain ⟨hpins, hosr⟩ := h.2.1 hp
      rw [Sm.step_eq hline] at hstep
      cases hstep
      refine ⟨fun h19 => ?_, fun h21 => ?_, fun _ => ⟨hpins, congrArg (low 8) hosr⟩⟩ <;> omega
    · have hline : boardRegisters.code[sm.pc]? = some (.wait true rdPin, sExtio) := by rw [hp]; rfl
      exact hlate (by omega) (by omega) hline trivial
    · have hline : boardRegisters.code[sm.pc]? = some (.set .x fifoRegReadCommit, sExtio) := by rw [hp]; rfl
      exact hlate (by omega) (by omega) hline rfl
    · have hline : boardRegisters.code[sm.pc]? = some (.nop, sExtio) := by rw [hp]; rfl
      exact hlate (by omega) (by omega) hline trivial
  · refine ⟨?_, ?_, ?_⟩ <;> intro hp <;> omega

lemma pull_pc {pc : ℕ} {side : BitVec 2} (h : boardRegisters.code[pc]? = some (.pull, side)) :
    pc = 0 ∨ pc = 18 := by
  obtain ⟨hlt, hinstr⟩ := List.getElem?_eq_some_iff.mp h
  have hsize : pc < 32 := hlt
  interval_cases pc <;> first | exact .inl rfl | exact .inr rfl | cases hinstr

/-- Only the pull in the middle of a cycle is recorded. -/
lemma recorded_consumed {noise : Word} {sm : Sm}
    (hstep : s.sm.step boardRegisters (s.inputs noise) = some sm) :
    (s.recorded sm).filterMap Happening.consumed? = if s.sm.pc = 18 then [sm.osr] else [] := by
  obtain ⟨⟨instr, side⟩, hline, -⟩ := Option.bind_eq_some_iff.mp hstep
  have hother (hne : instr ≠ .pull) : s.sm.pc ≠ 18 := by
    intro hp
    rw [hp] at hline
    cases hline
    exact hne rfl
  unfold RegisterPort.recorded
  rw [hline, Option.map_some]
  cases instr with
  | pull =>
    rcases pull_pc hline with hp | hp
    · rw [hp]
      rfl
    · rw [hp]
      rfl
  | _ =>
    rw [if_neg (hother (by simp))]
    rfl

/-- The handler supplies words and touches nothing else. -/
lemma serve_keeps (hstep : s.serve = some s') :
    s'.log.filterMap Happening.consumed? = s.log.filterMap Happening.consumed? ∧
      s'.sm.pc = s.sm.pc ∧ s'.sm.osr = s.sm.osr ∧ s'.sm.outPins = s.sm.outPins ∧
        s'.sm.outDirs = s.sm.outDirs := by
  obtain ⟨w, -, heq⟩ := Option.map_eq_some_iff.mp hstep
  subst heq
  dsimp only
  split
  · simp only [RegisterPort.putIsrSafe]
    split
    · simp [Happening.consumed?]
    · exact ⟨rfl, rfl, rfl, rfl, rfl⟩
  · exact ⟨rfl, rfl, rfl, rfl, rfl⟩

lemma RegisterPort.Driving.step (h : s.Driving) {m : Move σ n} (hstep : s.step m = some s') :
    s'.Driving := by
  have hsame (hlog : s'.log.filterMap Happening.consumed? = s.log.filterMap Happening.consumed?)
      (hsm : s'.sm.pc = s.sm.pc ∧ s'.sm.osr = s.sm.osr ∧ s'.sm.outPins = s.sm.outPins ∧
        s'.sm.outDirs = s.sm.outDirs) : s'.Driving := by
    intro w hw
    obtain ⟨hpc, hosr, hpins, hdirs⟩ := hsm
    rw [hlog] at hw
    have hcarries := h w hw
    unfold Carries at hcarries ⊢
    rwa [hpc, hosr, hpins, hdirs]
  cases m with
  | sm noise =>
    obtain ⟨sm, hsm, rfl⟩ := Option.map_eq_some_iff.mp hstep
    intro w hw
    have hlog : (s.drive sm).log.filterMap Happening.consumed? =
        s.log.filterMap Happening.consumed? ++ if s.sm.pc = 18 then [sm.osr] else [] := by
      rw [← recorded_consumed hsm]
      exact List.filterMap_append
    rw [hlog] at hw
    by_cases hp : s.sm.pc = 18
    · rw [if_pos hp, List.getLast?_concat] at hw
      cases hw
      have hline : boardRegisters.code[s.sm.pc]? = some (.pull, sXack) := by rw [hp]; rfl
      rw [Sm.step_eq hline] at hsm
      simp only [Sm.exec] at hsm
      split at hsm <;> cases hsm
      have hpc : (boardRegisters.next s.sm.pc) = 19 := by rw [hp]; rfl
      refine ⟨fun _ => rfl, fun h21 => ?_, fun h22 => ?_⟩
      · exact absurd (hpc.symm.trans h21) (by decide)
      · have hle : 22 ≤ boardRegisters.next s.sm.pc := h22.1
        omega
    · rw [if_neg hp, List.append_nil] at hw
      exact carries_step (h w hw) hp hsm
  | take =>
    obtain ⟨w, rx, -, -, rfl⟩ := RegisterPort.take_eq hstep
    exact hsame rfl ⟨rfl, rfl, rfl, rfl⟩
  | serve =>
    have hserved := serve_keeps hstep
    exact hsame hserved.1 hserved.2
  | begin c =>
    obtain ⟨-, hs⟩ := Option.ite_none_right_eq_some.mp hstep
    cases hs
    refine hsame ?_ ⟨rfl, rfl, rfl, rfl⟩
    simp [Happening.consumed?]
  | strobe =>
    simp only [RegisterPort.step] at hstep
    split at hstep <;> cases hstep
    exact hsame rfl ⟨rfl, rfl, rfl, rfl⟩
  | finish =>
    simp only [RegisterPort.step] at hstep
    split at hstep
    · obtain ⟨-, hs⟩ := Option.ite_none_right_eq_some.mp hstep
      cases hs
      exact hsame rfl ⟨rfl, rfl, rfl, rfl⟩
    · cases hstep
  | clock5 level =>
    cases hstep
    exact hsame rfl ⟨rfl, rfl, rfl, rfl⟩
  | ready level =>
    simp only [RegisterPort.step] at hstep
    split at hstep <;> cases hstep
    exact hsame rfl ⟨rfl, rfl, rfl, rfl⟩
  | core1 bridge =>
    obtain ⟨-, hs⟩ := Option.ite_none_right_eq_some.mp hstep
    cases hs
    exact hsame rfl ⟨rfl, rfl, rfl, rfl⟩

lemma access_cycle (c : Cycle) (w : Word) :
    (c.trace w).filterMap Happening.access? = c.accesses ∧
      (c.trace w).filterMap Happening.supplied? = (c.trace w).filterMap Happening.consumed? := by
  unfold Cycle.trace Cycle.accesses
  split <;> exact ⟨rfl, rfl⟩

/-- The record of finished cycles. -/
lemma traces_record (past : List (Cycle × Word)) :
    (traces past).filterMap Happening.cycle? = past.map Prod.fst ∧
      (traces past).filterMap Happening.access? = (past.map Prod.fst).flatMap Cycle.accesses ∧
      (traces past).filterMap Happening.supplied? = (traces past).filterMap Happening.consumed? := by
  induction past with
  | nil => exact ⟨rfl, rfl, rfl⟩
  | cons p past ih =>
    have hcons : traces (p :: past) = p.1.trace p.2 ++ traces past := List.flatMap_cons
    obtain ⟨haccess, hsupplied⟩ := access_cycle p.1 p.2
    have hcycle : (p.1.trace p.2).filterMap Happening.cycle? = [p.1] := by
      unfold Cycle.trace
      split <;> rfl
    simp only [hcons, List.filterMap_append, hcycle, haccess, hsupplied, ih.1, ih.2.1, ih.2.2,
      List.map_cons, List.flatMap_cons]
    exact ⟨rfl, trivial, trivial⟩

/-- The accesses in the record are the beginning of what the cycles ask for, and every word taken was
supplied. -/
lemma Handshake.record {phase : Phase} (h : Handshake s past phase) :
    s.log.filterMap Happening.access? <+: (s.log.filterMap Happening.cycle?).flatMap Cycle.accesses ∧
      s.log.filterMap Happening.consumed? <+: s.log.filterMap Happening.supplied? := by
  obtain ⟨hcycles, haccess, hsupplied⟩ := traces_record past
  have hnow (c : Cycle) (hm : c.Matched) :
      [.prefetch (regOfAddress c.address.toNat)] <+: [c].flatMap Cycle.accesses := by
    rw [List.flatMap_singleton, Cycle.accesses, if_pos hm]
    exact ⟨[c.final.event], rfl⟩
  have hat := h.position
  simp only [h.log, List.filterMap_append, hcycles, haccess, hsupplied, List.flatMap_append,
    List.prefix_append_right_inj]
  cases phase with
  | masked | preamble | waiting => exact ⟨List.prefix_refl _, List.prefix_refl _⟩
  | sampling c => exact ⟨List.nil_prefix, List.prefix_refl _⟩
  | asking c => exact ⟨hnow c hat.2.on.2.2, List.prefix_refl _⟩
  | answered c w => exact ⟨hnow c hat.2.on.2.2, List.nil_prefix⟩
  | ending c w => exact ⟨hnow c hat.2.1, List.prefix_refl _⟩

lemma payload_lines (b : Byte) : low 8 (payload b) = b.setWidth 32 ∧ low 8 (payload b >>> 8) = 0xFF := by
  revert b
  decide

/-- The port has served `cycles`, and core 1 has taken the steps `labels` meanwhile. In the end no
access is outstanding; while the 8088 reads, the answer to its access is on the data lines. -/
structure Serves (reg : Registry Io σ) (s₀ s : RegisterPort σ n) (cycles : List Cycle)
    (labels : List (BusLabel Io σ)) : Prop where
  run : Run (Bridge.step reg) s₀.bridge labels s.bridge
  accesses : labels.filterMap accessOf <+: cycles.flatMap Cycle.accesses
  taken : s.log.filterMap Happening.consumed? <+: (answers reg s₀.bridge labels).map payload
  settled : s.bus = .idle → s.Rests → s.queue = [] →
    labels.filterMap accessOf = cycles.flatMap Cycle.accesses ∧
      s.log.filterMap Happening.consumed? = (answers reg s₀.bridge labels).map payload
  lines : s.Rests → s.bus.rd = false → s.extio = true → ∃ c b, s.bus = .transfer c ∧
    (labels.filterMap accessOf).getLast? = some (.prefetch (regOfAddress c.address.toNat)) ∧
    (answers reg s₀.bridge labels).getLast? = some b ∧
    s.sm.outPins = b.setWidth 32 ∧ s.sm.outDirs = 0xFF

/-- The state machine drives the data bus and waits for RD/ to rise. -/
lemma Handshake.reading {phase : Phase} (h : Handshake s past phase) (hrest : s.Rests)
    (hrd : s.bus.rd = false) (hextio : s.extio = true) :
    ∃ c w, phase = .ending c w ∧ s.bus = .transfer c ∧ s.sm.pc = 22 := by
  have hside {pc : ℕ} (hpc : s.sm.pc = pc) : (boardRegisters.side pc).getLsbD 1 = true := hpc ▸ hextio
  rcases h.rests hrest with ⟨rfl, ⟨hpc, -⟩ | ⟨hpc, -⟩ | hpc⟩ | ⟨c, rfl, hpc⟩ |
    ⟨c, w, ⟨rfl, -, hpc⟩ | ⟨rfl, -, hpc⟩⟩
  · exact absurd (hside hpc) (by decide)
  · exact absurd (hside hpc) (by decide)
  · exact absurd (hside hpc) (by decide)
  · exact absurd (hside hpc) (by decide)
  · have hat := h.position.2.2
    unfold Cycle.Ending at hat
    rw [hpc] at hat
    rcases hat.1 with hbus | hbus
    · exact ⟨c, w, rfl, hbus, hpc⟩
    · rw [hbus] at hrd
      cases hrd
  · have hat := h.position.2.2
    unfold Cycle.Ending at hat
    rw [hpc] at hat
    obtain ⟨hbus, hwritten, -⟩ := hat
    rw [hbus] at hrd
    rcases c with ⟨a, _ | byte⟩
    · exact absurd rfl hwritten
    · cases hrd

/-- Between two bus cycles, with nothing left for the handler, core 1 has met every access of every
cycle and the bytes the port took are its answers; while the 8088 reads a register, the answer to
that access is on the data lines. -/
theorem port_serves_bridge {moves : List (Move σ n)} (hstart : s.Started)
    (hrun : Guarded RegisterPort.step (fun s m => s.InTime m ∧ s.CoreOne reg m) s moves s') :
    ∃ labels, Serves reg s s' (moves.filterMap Move.cycle?) labels := by
  have hstep (t : RegisterPort σ n) (m : Move σ n) (t' : RegisterPort σ n)
      (ht : (t.InStep ∧ t.Driving) ∧ Serviced reg s t) (hm : t.InTime m ∧ t.CoreOne reg m)
      (hnext : t.step m = some t') : (t'.InStep ∧ t'.Driving) ∧ Serviced reg s t' :=
    ⟨⟨ht.1.1.step hm.1 hnext, ht.1.2.step hnext⟩, ht.2.step ht.1.1 hm.2 hnext⟩
  have hfirst : (s.InStep ∧ s.Driving) ∧ Serviced reg s s := by
    refine ⟨⟨hstart.inStep, fun w hw => ?_⟩, [], .nil _, ?_, ?_⟩
    · rw [hstart.log] at hw
      cases hw
    · rw [hstart.log, RegisterPort.queue, hstart.irq, hstart.rx]
      rfl
    · rw [hstart.log]
      rfl
  obtain ⟨⟨⟨past, phase, h⟩, hdriving⟩, labels, hbridge, hmet, hsupplied⟩ := hrun.invariant hstep hfirst
  have hcycles : s'.log.filterMap Happening.cycle? = moves.filterMap Move.cycle? := by
    rw [run_cycles (hrun.mono fun _ _ hm => hm.1), hstart.log]
    rfl
  obtain ⟨haccess, htaken⟩ := h.record
  rw [hcycles] at haccess
  refine ⟨labels, hbridge, ?_, hsupplied ▸ htaken, fun hidle hrest hqueue => ?_, fun hrest hrd hextio => ?_⟩
  · exact (List.prefix_append _ _).trans (hmet ▸ haccess)
  · have hlog := h.settled hidle hrest
    obtain ⟨hpast, hall, hsame⟩ := traces_record past
    rw [hqueue, List.map_nil, List.append_nil] at hmet
    rw [hmet, hsupplied, ← hcycles, hlog, hpast, hall, hsame]
    exact ⟨rfl, rfl⟩
  · obtain ⟨c, w, rfl, hbus, hpc⟩ := h.reading hrest hrd hextio
    have hqueue : s'.queue = [] := h.queued.1
    rw [hqueue, List.map_nil, List.append_nil] at hmet
    have hlog := h.log
    have hlast (f : Happening → Option Word) (hw : (Phase.log (.ending c w)).filterMap f = [w]) :
        (s'.log.filterMap f).getLast? = some w := by
      rw [hlog, List.filterMap_append, hw, List.getLast?_concat]
    have hconsumed := hlast Happening.consumed? rfl
    have hgiven := hlast Happening.supplied? rfl
    obtain ⟨-, -, hlines⟩ := hdriving w hconsumed
    obtain ⟨hpins, hdirs⟩ := hlines (by omega)
    rw [← hsupplied, List.getLast?_map] at hgiven
    obtain ⟨b, hb, rfl⟩ := Option.map_eq_some_iff.mp hgiven
    refine ⟨c, b, hbus, ?_, hb, hpins.trans (payload_lines b).1, hdirs.trans (payload_lines b).2⟩
    rw [hmet, hlog, List.filterMap_append]
    exact List.getLast?_concat

/-- Every move but those of core 1. -/
def Move.fromOutside : Move σ n → Bool
  | .core1 _ => false
  | _ => true

lemma coreOne_of_outside {m : Move σ n} (h : m.fromOutside = true) : s.CoreOne reg m := by
  cases m with
  | core1 bridge => cases h
  | _ => trivial

/-- No storage service registered. -/
def nobody : Registry Unit Unit := fun _ => none

def readWriteServed : List (Move Unit 8) := readThenWrite ++ [.take, .serve]

/-- STATUS is read, DATA and a cell outside the window are written, and the worker takes the byte. -/
theorem port_serves_bridge_byteTaken : ∃ (s : RegisterPort Unit 8) (labels : List (BusLabel Unit Unit)),
    Serves nobody powerUp s [⟨0xEF321, none⟩, ⟨0xEF311, some 0x5A⟩, ⟨0x40000, some 0xA5⟩] labels ∧
      s.bridge.queue = [] := by
  let turn : BusLabel Unit Unit := .worker ⟨(), fun _ => .ok⟩
  have hruns : (follow RegisterPort.step (fun s m => s.InTime m ∧ m.fromOutside = true) powerUp
      readWriteServed).bind (fun s => (s.bridge.step nobody turn).map
        fun b => (s.bridge.pendingPrefetch, b.pendingPrefetch, b.queue)) = some (0, 0, []) := by
    decide +kernel
  obtain ⟨s, hs, hturn⟩ := Option.bind_eq_some_iff.mp hruns
  obtain ⟨bridge, hbridge, heq⟩ := Option.map_eq_some_iff.mp hturn
  obtain ⟨hbefore, hrest⟩ := Prod.mk.inj heq
  obtain ⟨hafter, hqueue⟩ := Prod.mk.inj hrest
  have hserved : Guarded RegisterPort.step (fun s m => s.InTime m ∧ s.CoreOne nobody m) powerUp
      readWriteServed s := (Guarded.of_follow hs).mono fun _ _ hm => ⟨hm.1, coreOne_of_outside hm.2⟩
  have hcore : s.step (.core1 bridge) = some { s with bridge := bridge } := if_pos (hafter.trans hbefore.symm)
  have hadmitted : s.InTime (.core1 bridge) ∧ s.CoreOne nobody (.core1 bridge) :=
    ⟨trivial, turn, rfl, hbridge⟩
  have hcycles : (readWriteServed ++ [Move.core1 bridge]).filterMap Move.cycle? =
      [⟨0xEF321, none⟩, ⟨0xEF311, some 0x5A⟩, ⟨0x40000, some 0xA5⟩] := by
    have hserving : readWriteServed.filterMap Move.cycle? =
        [⟨0xEF321, none⟩, ⟨0xEF311, some 0x5A⟩, ⟨0x40000, some 0xA5⟩] := by decide +kernel
    rw [List.filterMap_append, hserving]
    rfl
  obtain ⟨labels, hserves⟩ := port_serves_bridge powerUp_started
    (hserved.append (.cons hadmitted hcore (.nil _)))
  exact ⟨_, labels, hcycles ▸ hserves, hqueue⟩

end PicoV9k.Port
