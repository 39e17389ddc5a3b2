import PicoV9k.PortPhases

/-!
# The handshake of the register port

The handler and the bus keep the phases too, so they hold along every run: the
state machine and the handler never get out of step, whatever the 8088 does and
however late the handler is.
-/
namespace PicoV9k.Port
open PicoV9k.Bus PicoV9k.Pio PicoV9k.Sasi PicoV9k.Runs

variable {σ : Type} {n : ℕ} {s : RegisterPort σ n} {past : List (Cycle × Word)}

lemma RegisterPort.take_eq {s' : RegisterPort σ n} (h : s.take = some s') :
    ∃ w rx, s.irq = none ∧ s.sm.rx = w :: rx ∧
      s' = { s with irq := some w, sm := { s.sm with rx := rx } } := by
  unfold RegisterPort.take at h
  split at h
  next w rx hirq hrx => exact ⟨w, rx, hirq, hrx, (Option.some.inj h).symm⟩
  · cases h

/-- Taking a word out of the FIFO is no change of phase. -/
lemma Handshake.take {phase : Phase} {s' : RegisterPort σ n} (h : Handshake s past phase)
    (hstep : s.take = some s') : Handshake s' past phase := by
  obtain ⟨w, rx, hirq, hrx, rfl⟩ := RegisterPort.take_eq hstep
  refine ⟨h.log, ?_, h.tx, ?_⟩
  · have hqueue : s.queue = w :: rx := by rw [RegisterPort.queue, hirq, hrx]; rfl
    have hqueued := h.queued
    rw [hqueue] at hqueued
    exact hqueued
  · have hat := h.position
    cases phase <;> exact hat

/-- The last word of a cycle is handled without an answer. -/
lemma serve_final {c : Cycle} {w : Word} {s' : RegisterPort σ n} (hm : c.Matched)
    (hw : FifoWord.ofRaw w = c.final) (hirq : s.irq = some w) (hstep : s.serve = some s') :
    ∃ bridge : Bridge σ n, bridge.pendingPrefetch = s.bridge.pendingPrefetch - 1 ∧
      s' = { s with bridge := bridge, irq := none } := by
  have hisr : (s.bridge.isr (.ofRaw w)).1.pendingPrefetch = s.bridge.pendingPrefetch - 1 ∧
      (s.bridge.isr (.ofRaw w)).2 = none := by
    rw [event_ofRaw, hw, Cycle.final]
    cases c.written with
    | none => exact isr_readCommits (regOfAddress_inside hm)
    | some byte => exact isr_writes (regOfAddress_inside hm)
  simp only [RegisterPort.serve, hirq, Option.map_some, hisr.2] at hstep
  exact ⟨_, hisr.1, (Option.some.inj hstep).symm⟩

/-- A prefetch is counted and answered. -/
lemma serve_prefetch {c : Cycle} {w : Word} {s' : RegisterPort σ n} (hm : c.Matched)
    (hw : FifoWord.ofRaw w = .prefetch c.address.toNat) (hirq : s.irq = some w) (htx : s.sm.tx = [])
    (hstep : s.serve = some s') :
    ∃ (bridge : Bridge σ n) (answer : Word),
      bridge.pendingPrefetch = s.bridge.pendingPrefetch + 1 ∧
      s' = { s with
        bridge := bridge
        irq := none
        sm := { s.sm with tx := [answer] }
        log := s.log ++ [.supplied answer] } := by
  obtain ⟨hpending, data, hdata⟩ := isr_prefetches (s := s.bridge) (regOfAddress_inside hm)
  have hevent : FifoEvent.ofRaw w = .prefetch (regOfAddress c.address.toNat) := by
    rw [event_ofRaw, hw]
    rfl
  simp only [RegisterPort.serve, hirq, Option.map_some, hevent, hdata, RegisterPort.putIsrSafe, htx,
    List.length_nil, List.nil_append] at hstep
  exact ⟨_, payload data, hpending, (Option.some.inj hstep).symm⟩

lemma RegisterPort.serve_irq {s' : RegisterPort σ n} (h : s.serve = some s') :
    ∃ w, s.irq = some w ∧ s.queue = w :: s.sm.rx := by
  obtain ⟨w, hirq, -⟩ := Option.map_eq_some_iff.mp h
  exact ⟨w, hirq, by rw [RegisterPort.queue, hirq]; rfl⟩

/-- A backlog of one word is worked off, which leaves none. -/
lemma Backlog.served {s' : RegisterPort σ n} {back : List Word}
    (h : Backlog back s.bridge.pendingPrefetch) {w : Word} {rest : List Word} (hirq : s.irq = some w)
    (hback : back = w :: rest) (hstep : s.serve = some s') :
    rest = [] ∧ ∃ bridge : Bridge σ n, bridge.pendingPrefetch = 0 ∧
      s' = { s with bridge := bridge, irq := none } := by
  rcases h with ⟨hnil, -⟩ | ⟨w', c, hone, hpending, hm, hw⟩
  · rw [hnil] at hback
    cases hback
  · rw [hone] at hback
    cases hback
    obtain ⟨bridge, hbridge, rfl⟩ := serve_final hm hw hirq hstep
    exact ⟨rfl, bridge, by rw [hbridge, hpending], rfl⟩

/-- While nothing is asked for, the handler can only work off the backlog. -/
lemma Handshake.serve_backlog {phase : Phase} {s' : RegisterPort σ n} (h : Handshake s past phase)
    (hphase : ∀ q p, phase.Queued q p ↔ Backlog q p) (hstep : s.serve = some s') :
    Handshake s' past phase := by
  obtain ⟨w, hirq, hqueue⟩ := RegisterPort.serve_irq hstep
  obtain ⟨hrx, bridge, hbridge, rfl⟩ := ((hphase _ _).mp h.queued).served hirq hqueue hstep
  exact ⟨h.log, (hphase _ _).mpr (.inl ⟨hrx, hbridge⟩), h.tx, h.position⟩

/-- The handler works off the backlog of an asking state machine first, then it answers. -/
lemma Handshake.serve_asking {c : Cycle} {s' : RegisterPort σ n} (h : Handshake s past (.asking c))
    (hstep : s.serve = some s') :
    (∃ answer, Handshake s' past (.answered c answer)) ∨
      s.queue.length = 2 ∧ Handshake s' past (.asking c) ∧ s'.queue.length = 1 := by
  obtain ⟨w, hirq, hqueue⟩ := RegisterPort.serve_irq hstep
  obtain ⟨back, p, hback, hbacklog, hp⟩ := h.queued
  have hsplit : back ++ [p] = w :: s.sm.rx := hback.symm.trans hqueue
  obtain ⟨hy, hat⟩ := h.position
  cases back with
  | nil =>
    rw [List.nil_append] at hsplit
    injection hsplit with hhead hrx
    subst hhead
    have hpending : s.bridge.pendingPrefetch = 0 := by
      rcases hbacklog with ⟨-, hzero⟩ | ⟨w', c', hone, -⟩
      · exact hzero
      · cases hone
    obtain ⟨bridge, answer, hbridge, rfl⟩ := serve_prefetch hat.on.2.2 hp hirq h.tx hstep
    refine .inl ⟨answer, ?_, ⟨hrx.symm, by rw [hbridge, hpending]⟩, rfl, hy, hat⟩
    show s.log ++ [.supplied answer] = _
    rw [h.log, List.append_assoc]
    rfl
  | cons w' rest =>
    rw [List.cons_append] at hsplit
    injection hsplit with hhead hrx
    subst hhead
    obtain ⟨hrest, bridge, hbridge, rfl⟩ := hbacklog.served hirq rfl hstep
    subst hrest
    refine .inr ⟨by rw [hback]; rfl, ⟨h.log, ⟨[], p, hrx.symm, .inl ⟨rfl, hbridge⟩, hp⟩, h.tx, hy, hat⟩, ?_⟩
    show s.sm.rx.length = 1
    rw [← hrx]
    rfl

lemma Handshake.serve {phase : Phase} {s' : RegisterPort σ n} (h : Handshake s past phase)
    (hstep : s.serve = some s') : s'.InStep := by
  cases phase with
  | masked => exact ⟨_, _, h.serve_backlog (fun _ _ => Iff.rfl) hstep⟩
  | preamble => exact ⟨_, _, h.serve_backlog (fun _ _ => Iff.rfl) hstep⟩
  | waiting => exact ⟨_, _, h.serve_backlog (fun _ _ => Iff.rfl) hstep⟩
  | sampling c => exact ⟨_, _, h.serve_backlog (fun _ _ => Iff.rfl) hstep⟩
  | asking c =>
    rcases h.serve_asking hstep with ⟨answer, hanswered⟩ | ⟨-, hasking, -⟩
    · exact ⟨_, _, hanswered⟩
    · exact ⟨_, _, hasking⟩
  | answered c w =>
    obtain ⟨w', hirq, hqueue⟩ := RegisterPort.serve_irq hstep
    cases h.queued.1.symm.trans hqueue
  | ending c w =>
    obtain ⟨w', hirq, hqueue⟩ := RegisterPort.serve_irq hstep
    cases h.queued.1.symm.trans hqueue

lemma Waiting.pc {bus : BusPhase} {sm : Sm} (h : Waiting bus sm) : 2 ≤ sm.pc ∧ sm.pc ≤ 6 := by
  by_contra hout
  unfold Waiting at h
  split at h <;> omega

lemma Phase.At.pc_lt {phase : Phase} {bus : BusPhase} {sm : Sm} (h : phase.At bus sm) : sm.pc < 32 := by
  cases phase with
  | masked =>
    have hpc : sm.pc = 0 := h
    omega
  | preamble =>
    have hpc := h.1
    omega
  | waiting =>
    have hpc := h.2.pc
    omega
  | sampling c =>
    have hpc := h.2.pc
    omega
  | asking c =>
    have hpc := h.2.on.1
    omega
  | answered c w =>
    have hpc := h.2.on.1
    omega
  | ending c w =>
    have hpc := h.2.2.pc
    omega

/-- Where the state machine can rest while the receive FIFO has room, and on what. -/
lemma RegisterPort.Rests.stall (h : s.Rests) (hpc : s.sm.pc < 32) (hrx : s.sm.rx.length < fifoDepth) :
    (s.sm.pc = 4 ∧ s.clock5 = true) ∨ (s.sm.pc = 5 ∧ s.bus.ale = true) ∨
      (s.sm.pc = 6 ∧ s.bus.ale = false) ∨ (s.sm.pc = 22 ∧ s.bus.rd = false) ∨
      (s.sm.pc = 27 ∧ s.ready = false) ∨ ((s.sm.pc = 0 ∨ s.sm.pc = 18) ∧ s.sm.tx = []) := by
  have hstep : (boardRegisters.code[s.sm.pc]?).bind
    (fun line => s.sm.exec boardRegisters (s.inputs 0) line.1) = none := h
  interval_cases hp : s.sm.pc
  all_goals simp [boardRegisters, Sm.exec, RegisterPort.inputs, RegisterPort.gpio, hrx] at hstep ⊢
  all_goals try exact hstep
  all_goals
    split at hstep
    · assumption
    · cases hstep

lemma Backlog.length_le {queue : List Word} {pending : ℕ} (h : Backlog queue pending) :
    queue.length ≤ 1 ∧ pending ≤ 1 := by
  rcases h with ⟨rfl, rfl⟩ | ⟨w, c, rfl, rfl, -⟩
  · exact ⟨Nat.zero_le _, Nat.zero_le _⟩
  · exact ⟨le_refl _, le_refl _⟩

/-- At most two words are with the handler or on their way to it. -/
lemma Handshake.queue_le {phase : Phase} (h : Handshake s past phase) :
    s.queue.length ≤ 2 ∧ s.bridge.pendingPrefetch ≤ 1 := by
  have hqueued := h.queued
  cases phase with
  | asking c =>
    obtain ⟨back, w, hqueue, hback, -⟩ := hqueued
    have hlength := hback.length_le
    rw [hqueue, List.length_append, List.length_singleton]
    omega
  | answered c w =>
    rw [hqueued.1, hqueued.2]
    simp
  | ending c w =>
    rw [hqueued.1, hqueued.2]
    simp
  | _ =>
    have hlength := Backlog.length_le hqueued
    omega

lemma Handshake.rx_le {phase : Phase} (h : Handshake s past phase) : s.sm.rx.length ≤ 2 := by
  have hqueue := h.queue_le.1
  rw [RegisterPort.queue, List.length_append] at hqueue
  omega

/-- The state machine rests between cycles, for the answer, or for the end of the transfer. -/
lemma Handshake.rests {phase : Phase} (h : Handshake s past phase) (hrest : s.Rests) :
    (phase = .waiting ∧
        (s.sm.pc = 4 ∧ s.clock5 = true ∨ s.sm.pc = 5 ∧ s.bus.ale = true ∨ s.sm.pc = 6)) ∨
      (∃ c, phase = .asking c ∧ s.sm.pc = 18) ∨
      ∃ c w, phase = .ending c w ∧ s.bus.rd = false ∧ s.sm.pc = 22 ∨
        phase = .ending c w ∧ s.ready = false ∧ s.sm.pc = 27 := by
  have hstall := hrest.stall h.position.pc_lt (lt_of_le_of_lt h.rx_le (by decide))
  have hat := h.position
  cases phase with
  | masked =>
    have hpc : s.sm.pc = 0 := hat
    have hmask : s.sm.tx = [dmaRegisterBitmask] := h.tx
    simp [hpc, hmask] at hstall
  | preamble => simp [hat.1] at hstall
  | waiting =>
    have hpc := hat.2.pc
    refine .inl ⟨rfl, ?_⟩
    rcases hstall with h4 | h5 | h6 | ⟨h22, -⟩ | ⟨h27, -⟩ | ⟨hpull, -⟩
    · exact .inl h4
    · exact .inr (.inl h5)
    · exact .inr (.inr h6.1)
    all_goals omega
  | sampling c =>
    have hpc := hat.2.pc
    rcases hstall with ⟨h4, -⟩ | ⟨h5, -⟩ | ⟨h6, hale⟩ | ⟨h22, -⟩ | ⟨h27, -⟩ | ⟨hpull, -⟩
    case inr.inr.inl =>
      -- ALE is high until the address was sampled
      have hpos := hat.2
      unfold Cycle.Sampling at hpos
      rw [h6] at hpos
      rw [hpos.1] at hale
      cases hale
    all_goals omega
  | asking c =>
    have hpc := hat.2.on.1
    refine .inr (.inl ⟨c, rfl, ?_⟩)
    rcases hstall with ⟨h4, -⟩ | ⟨h5, -⟩ | ⟨h6, -⟩ | ⟨h22, -⟩ | ⟨h27, -⟩ | ⟨hpull, -⟩
    all_goals omega
  | answered c w =>
    have hpc := hat.2.on.1
    have hanswer : s.sm.tx = [w] := h.tx
    rcases hstall with ⟨h4, -⟩ | ⟨h5, -⟩ | ⟨h6, -⟩ | ⟨h22, -⟩ | ⟨h27, -⟩ | ⟨-, hempty⟩
    case inr.inr.inr.inr.inr =>
      rw [hanswer] at hempty
      cases hempty
    all_goals omega
  | ending c w =>
    have hpc := hat.2.2.pc
    refine .inr (.inr ⟨c, w, ?_⟩)
    rcases hstall with ⟨h4, -⟩ | ⟨h5, -⟩ | ⟨h6, -⟩ | ⟨h22, hrd⟩ | ⟨h27, hready⟩ | ⟨hpull, -⟩
    case inr.inr.inr.inl => exact .inl ⟨rfl, hrd, h22⟩
    case inr.inr.inr.inr.inl => exact .inr ⟨rfl, hready, h27⟩
    all_goals omega

/-- A cycle begins where the state machine waits for ALE. -/
lemma Handshake.begin {phase : Phase} (h : Handshake s past phase) (hrest : s.Rests)
    (hidle : s.bus = .idle) (hclock : s.clock5 = false) (c : Cycle) :
    Handshake { s with bus := .address c, log := s.log ++ [.begun c] } past (.sampling c) := by
  rcases h.rests hrest with ⟨rfl, hpos⟩ | ⟨c', rfl, -⟩ | ⟨c', w, ⟨rfl, hrd, -⟩ | ⟨rfl, -, hpc⟩⟩
  · have hpc : s.sm.pc = 6 := by
      rcases hpos with ⟨-, hhigh⟩ | ⟨-, hale⟩ | hpc
      · rw [hclock] at hhigh
        cases hhigh
      · rw [hidle] at hale
        cases hale
      · exact hpc
    obtain ⟨hy, hat⟩ := h.position
    unfold Waiting at hat
    rw [hpc] at hat
    refine ⟨?_, h.queued, h.tx, hy, ?_⟩
    · rw [h.log]
      simp [Phase.log]
    · simp only [Cycle.Sampling, hpc]
      exact ⟨trivial, hat.1⟩
  · rcases h.position.2.on.2.1 with hbus | hbus
    · rw [hidle] at hbus
      cases hbus
    · rw [hidle] at hbus
      cases hbus
  · rw [hidle] at hrd
    cases hrd
  · have hat := h.position.2.2
    unfold Cycle.Ending at hat
    rw [hpc] at hat
    rw [hidle] at hat
    cases hat.1

lemma Cycle.On.strobe {c c' : Cycle} {bus : BusPhase} (h : c.On bus) (hbus : bus = .address c') :
    c.On (.transfer c') := by
  rcases h with h | h
  · rw [hbus] at h
    cases h
    exact .inr rfl
  · rw [hbus] at h
    cases h

lemma Waiting.lowered {bus bus' : BusPhase} {sm : Sm} (h : Waiting bus sm) (hale : bus'.ale = false) :
    Waiting bus' sm := by
  have hpc := h.pc
  unfold Waiting at *
  obtain ⟨hlow, hhigh⟩ := hpc
  interval_cases sm.pc
  case «6» => exact ⟨h.1, hale⟩
  all_goals exact h

lemma Cycle.Sampling.strobe {c c' : Cycle} {bus : BusPhase} {sm : Sm} (h : c.Sampling bus sm)
    (hbus : bus = .address c') (hsampled : 8 < sm.pc) : c.Sampling (.transfer c') sm := by
  have hpc := h.pc
  unfold Cycle.Sampling at *
  obtain ⟨-, hhigh⟩ := hpc
  interval_cases sm.pc
  all_goals exact ⟨h.1.strobe hbus, h.2⟩

lemma Cycle.Asking.strobe {c c' : Cycle} {bus : BusPhase} {sm : Sm} (h : c.Asking bus sm)
    (hbus : bus = .address c') : c.Asking (.transfer c') sm := by
  have hpc := h.on.1
  unfold Cycle.Asking at *
  rcases hpc with hpc | hpc
  · rw [hpc] at h ⊢
    exact ⟨h.1.strobe hbus, h.2⟩
  · rw [hpc] at h ⊢
    exact ⟨h.1.strobe hbus, h.2⟩

/-- After the branch on RD/ the address is gone. -/
lemma Cycle.Ending.strobe {c c' : Cycle} {bus : BusPhase} {sm : Sm} (h : c.Ending bus sm)
    (hbus : bus = .address c') : c.Ending (.transfer c') sm := by
  have hpc := h.pc
  unfold Cycle.Ending at *
  obtain ⟨hlow, hhigh⟩ := hpc
  rw [hbus] at h
  interval_cases sm.pc
  case «19» => exact ⟨h.1.strobe rfl, h.2⟩
  case «22» => rcases h.1 with hbus | hbus <;> cases hbus
  case «26» => exact h
  all_goals cases h.1

/-- The address may go once it was sampled. -/
lemma Handshake.strobe {phase : Phase} (h : Handshake s past phase) {c' : Cycle}
    (hbus : s.bus = .address c') (hsampled : s.sm.pc < 6 ∨ 8 < s.sm.pc) :
    Handshake { s with bus := .transfer c' } past phase := by
  refine ⟨h.log, h.queued, h.tx, ?_⟩
  have hat := h.position
  cases phase with
  | masked => exact hat
  | preamble => exact hat
  | waiting => exact ⟨hat.1, hat.2.lowered rfl⟩
  | sampling c =>
    have hpc := hat.2.pc
    exact ⟨hat.1, hat.2.strobe hbus (by omega)⟩
  | asking c => exact ⟨hat.1, hat.2.strobe hbus⟩
  | answered c w => exact ⟨hat.1, hat.2.strobe hbus⟩
  | ending c w => exact ⟨hat.1, hat.2.1, hat.2.2.strobe hbus⟩

/-- A cycle ends unless the state machine holds it. -/
lemma Handshake.finish {phase : Phase} (h : Handshake s past phase) (hrest : s.Rests)
    (hready : s.ready = true) (hxack : s.xack = false) :
    Handshake { s with bus := .idle } past phase := by
  refine ⟨h.log, h.queued, h.tx, ?_⟩
  have hat := h.position
  rcases h.rests hrest with ⟨rfl, -⟩ | ⟨c, rfl, hpc⟩ | ⟨c, w, ⟨rfl, -, hpc⟩ | ⟨rfl, hlow, -⟩⟩
  · exact ⟨hat.1, hat.2.lowered rfl⟩
  · rw [RegisterPort.xack, hpc] at hxack
    cases hxack
  · refine ⟨hat.1, hat.2.1, ?_⟩
    have hpos := hat.2.2
    unfold Cycle.Ending at *
    rw [hpc] at hpos ⊢
    exact ⟨.inr rfl, hpos.2⟩
  · rw [hready] at hlow
    cases hlow

lemma RegisterPort.InStep.step {m : Move σ n} {s' : RegisterPort σ n} (h : s.InStep)
    (hm : s.InTime m) (hstep : s.step m = some s') : s'.InStep := by
  obtain ⟨past, phase, h⟩ := h
  cases m with
  | sm noise =>
    obtain ⟨sm, hsm, rfl⟩ := Option.map_eq_some_iff.mp hstep
    exact h.sm_moves hm hsm
  | take => exact ⟨past, phase, h.take hstep⟩
  | serve => exact h.serve hstep
  | begin c =>
    obtain ⟨⟨hidle, hclock⟩, hs⟩ := Option.ite_none_right_eq_some.mp hstep
    cases hs
    exact ⟨past, .sampling c, h.begin hm hidle hclock c⟩
  | strobe =>
    simp only [RegisterPort.step] at hstep
    split at hstep
    next c hbus =>
      cases hstep
      exact ⟨past, phase, h.strobe hbus hm⟩
    · cases hstep
  | finish =>
    simp only [RegisterPort.step] at hstep
    split at hstep
    · obtain ⟨⟨hready, hxack⟩, hs⟩ := Option.ite_none_right_eq_some.mp hstep
      cases hs
      exact ⟨past, phase, h.finish hm hready (Bool.eq_false_of_not_eq_true hxack)⟩
    · cases hstep
  | clock5 level =>
    cases hstep
    exact ⟨past, phase, h.log, h.queued, h.tx, h.position⟩
  | ready level =>
    simp only [RegisterPort.step] at hstep
    split at hstep
    · cases hstep
    · cases hstep
      exact ⟨past, phase, h.log, h.queued, h.tx, h.position⟩
  | core1 bridge =>
    obtain ⟨hpending, hs⟩ := Option.ite_none_right_eq_some.mp hstep
    cases hs
    refine ⟨past, phase, h.log, ?_, h.tx, h.position⟩
    show phase.Queued s.queue bridge.pendingPrefetch
    rw [hpending]
    exact h.queued

/-- The state machine and the handler agree on every cycle so far: the record is that of the finished
cycles and the beginning of one more. A state machine that waits for its answer gets it from the
handler alone. -/
structure RegisterPort.Agreed (s : RegisterPort σ n) : Prop where
  log : ∃ (past : List (Cycle × Word)) (c : Cycle) (w : Word) (now : List Happening),
    s.log = traces past ++ now ∧ now <+: c.trace w
  settled : s.bus = .idle → s.Rests → ∃ past, s.log = traces past
  answered : s.sm.Starved boardRegisters → ∃ k ≤ 4, ∃ w, (RegisterPort.handler^[k] s).sm.tx = [w]
  rx : s.sm.rx.length ≤ 2
  tx : s.sm.tx.length ≤ 1
  pending : s.bridge.pendingPrefetch ≤ 1

lemma Handshake.now {phase : Phase} (h : Handshake s past phase) :
    ∃ c w, phase.log <+: Cycle.trace c w := by
  have hat := h.position
  cases phase with
  | sampling c => exact ⟨c, 0, by simp [Phase.log, Cycle.trace]⟩
  | asking c => exact ⟨c, 0, by simp [Phase.log, Cycle.trace, hat.2.on.2.2]⟩
  | answered c w => exact ⟨c, w, by simp [Phase.log, Cycle.trace, hat.2.on.2.2]⟩
  | ending c w => exact ⟨c, w, by simp [Phase.log, Cycle.trace, hat.2.1]⟩
  | _ => exact ⟨⟨0, none⟩, 0, List.nil_prefix⟩

lemma Handshake.settled {phase : Phase} (h : Handshake s past phase) (hidle : s.bus = .idle)
    (hrest : s.Rests) : s.log = traces past := by
  have hlog := h.log
  rcases h.rests hrest with ⟨rfl, -⟩ | ⟨c, rfl, -⟩ | ⟨c, w, ⟨rfl, hrd, -⟩ | ⟨rfl, -, hpc⟩⟩
  · simpa [Phase.log] using hlog
  · rcases h.position.2.on.2.1 with hbus | hbus <;> rw [hidle] at hbus <;> cases hbus
  · rw [hidle] at hrd
    cases hrd
  · have hat := h.position.2.2
    unfold Cycle.Ending at hat
    rw [hpc, hidle] at hat
    cases hat.1

lemma starved_pc (h : s.sm.Starved boardRegisters) : s.sm.pc = 0 ∨ s.sm.pc = 18 := by
  have hpull := h.1
  have hlt : s.sm.pc < 32 := by
    by_contra hge
    rw [List.getElem?_eq_none (by simpa [boardRegisters] using hge)] at hpull
    cases hpull
  interval_cases s.sm.pc
  case «0» => exact .inl rfl
  case «18» => exact .inr rfl
  all_goals cases hpull

/-- A word in the FIFO is taken when the handler is free. -/
lemma handler_take {w : Word} {rx : List Word} (hirq : s.irq = none) (hrx : s.sm.rx = w :: rx) :
    s.take = some s.handler := by
  simp [RegisterPort.handler, RegisterPort.serve, RegisterPort.take, hirq, hrx]

lemma handler_serve {w : Word} (hirq : s.irq = some w) : s.serve = some s.handler := by
  simp [RegisterPort.handler, RegisterPort.serve, hirq]

/-- Two handler moves at most deal with the word in front. -/
lemma Handshake.front {phase : Phase} (h : Handshake s past phase) {w : Word} {rest : List Word}
    (hqueue : s.queue = w :: rest) :
    ∃ k ≤ 2, ∃ s₁ : RegisterPort σ n, Handshake s₁ past phase ∧ s₁.queue = s.queue ∧
      s₁.serve = some (RegisterPort.handler^[k] s) := by
  cases hirq : s.irq with
  | some w' => exact ⟨1, by decide, s, h, rfl, handler_serve hirq⟩
  | none =>
    have hrx : s.sm.rx = w :: rest := by
      rw [RegisterPort.queue, hirq] at hqueue
      exact hqueue
    have htake := handler_take hirq hrx
    obtain ⟨w', rx, -, hrx', heq⟩ := RegisterPort.take_eq htake
    refine ⟨2, le_refl _, s.handler, h.take htake, ?_, ?_⟩
    · rw [heq, RegisterPort.queue, RegisterPort.queue, hirq, hrx']
      rfl
    · exact handler_serve (by rw [heq])

/-- The handler alone comes to the prefetch and answers it. -/
lemma Handshake.answer_comes {c : Cycle} (h : Handshake s past (.asking c)) :
    ∃ k ≤ 4, ∃ w, (RegisterPort.handler^[k] s).sm.tx = [w] := by
  have hfront : ∀ {s : RegisterPort σ n}, Handshake s past (.asking c) →
      ∃ k ≤ 2, (∃ w, (RegisterPort.handler^[k] s).sm.tx = [w]) ∨ s.queue.length = 2 ∧
        Handshake (RegisterPort.handler^[k] s) past (.asking c) ∧
        (RegisterPort.handler^[k] s).queue.length = 1 := by
    intro s h
    obtain ⟨back, p, hqueue, -⟩ := h.queued
    obtain ⟨w, rest, hcons⟩ : ∃ w rest, s.queue = w :: rest := by
      rw [hqueue]
      cases back with
      | nil => exact ⟨p, [], rfl⟩
      | cons w back => exact ⟨w, back ++ [p], rfl⟩
    obtain ⟨k, hk, s₁, h₁, hqueue₁, hserve⟩ := h.front hcons
    refine ⟨k, hk, ?_⟩
    rcases h₁.serve_asking hserve with ⟨answer, hanswered⟩ | ⟨hlength, hasking, hone⟩
    · exact .inl ⟨answer, hanswered.tx⟩
    · rw [hqueue₁] at hlength
      exact .inr ⟨hlength, hasking, hone⟩
  obtain ⟨k, hk, hdone | ⟨-, hagain, hone⟩⟩ := hfront h
  · exact ⟨k, by omega, hdone⟩
  · obtain ⟨k', hk', ⟨w, htx⟩ | ⟨htwo, -⟩⟩ := hfront hagain
    · refine ⟨k' + k, by omega, w, ?_⟩
      rw [Function.iterate_add_apply]
      exact htx
    · omega

lemma RegisterPort.InStep.agreed (h : s.InStep) : s.Agreed := by
  obtain ⟨past, phase, h⟩ := h
  obtain ⟨c, w, hnow⟩ := h.now
  refine ⟨⟨past, c, w, phase.log, h.log, hnow⟩, fun hidle hrest => ⟨past, h.settled hidle hrest⟩,
    fun hstarved => ?_, h.rx_le, ?_, h.queue_le.2⟩
  · have hpc := starved_pc hstarved
    have hempty := hstarved.2
    have hat := h.position
    have htx := h.tx
    rw [hempty] at htx
    cases phase with
    | masked => cases htx
    | preamble =>
      have hone := hat.1
      omega
    | waiting =>
      have hlow := hat.2.pc
      omega
    | sampling c =>
      have hlow := hat.2.pc
      omega
    | asking c => exact h.answer_comes
    | answered c w => cases htx
    | ending c w =>
      have hlow := hat.2.2.pc
      omega
  · rw [h.tx]
    cases phase <;> simp [Phase.tx]

def Happening.cycle? : Happening → Option Cycle
  | .begun c => some c
  | _ => none

def Move.cycle? : Move σ n → Option Cycle
  | .begin c => some c
  | _ => none

lemma recorded_cycles (s : RegisterPort σ n) (sm : Sm) :
    (s.recorded sm).filterMap Happening.cycle? = [] := by
  unfold RegisterPort.recorded
  split
  · rfl
  · split <;> rfl
  · rfl

lemma serve_cycles {s' : RegisterPort σ n} (h : s.serve = some s') :
    s'.log.filterMap Happening.cycle? = s.log.filterMap Happening.cycle? := by
  obtain ⟨w, -, heq⟩ := Option.map_eq_some_iff.mp h
  subst heq
  dsimp only
  split
  · simp only [RegisterPort.putIsrSafe]
    split
    · simp [Happening.cycle?]
    · rfl
  · rfl

/-- Only the beginning of a cycle is recorded as one. -/
lemma step_cycles {m : Move σ n} {s' : RegisterPort σ n} (hstep : s.step m = some s') :
    s'.log.filterMap Happening.cycle? = s.log.filterMap Happening.cycle? ++ m.cycle?.toList := by
  cases m with
  | sm noise =>
    obtain ⟨sm, -, rfl⟩ := Option.map_eq_some_iff.mp hstep
    simp [RegisterPort.drive, recorded_cycles, Move.cycle?]
  | take =>
    obtain ⟨w, rx, -, -, rfl⟩ := RegisterPort.take_eq hstep
    simp [Move.cycle?]
  | serve => simp [serve_cycles hstep, Move.cycle?]
  | begin c =>
    obtain ⟨-, hs⟩ := Option.ite_none_right_eq_some.mp hstep
    cases hs
    simp [Happening.cycle?, Move.cycle?]
  | strobe =>
    simp only [RegisterPort.step] at hstep
    split at hstep
    · cases hstep
      simp [Move.cycle?]
    · cases hstep
  | finish =>
    simp only [RegisterPort.step] at hstep
    split at hstep
    · obtain ⟨-, hs⟩ := Option.ite_none_right_eq_some.mp hstep
      cases hs
      simp [Move.cycle?]
    · cases hstep
  | clock5 level =>
    cases hstep
    simp [Move.cycle?]
  | ready level =>
    simp only [RegisterPort.step] at hstep
    split at hstep
    · cases hstep
    · cases hstep
      simp [Move.cycle?]
  | core1 bridge =>
    obtain ⟨-, hs⟩ := Option.ite_none_right_eq_some.mp hstep
    cases hs
    simp [Move.cycle?]

lemma run_cycles {s s' : RegisterPort σ n} {moves : List (Move σ n)}
    (hrun : Guarded RegisterPort.step RegisterPort.InTime s moves s') :
    s'.log.filterMap Happening.cycle? =
      s.log.filterMap Happening.cycle? ++ moves.filterMap Move.cycle? := by
  induction hrun with
  | nil s => simp
  | @cons s s₁ s' m moves _ hstep _ ih =>
    rw [ih, step_cycles hstep, List.append_assoc, List.filterMap_cons]
    cases m.cycle? <;> simp

/-- Whatever the 8088 does and however late the handler is, every cycle of the run in the window puts
its prefetch word and its last word into the FIFO, decoded as what it was, and takes the one byte that
was supplied for it; the other cycles leave nothing. -/
theorem registerPort_agrees {s s' : RegisterPort σ n} {moves : List (Move σ n)} (hstart : s.Started)
    (hrun : Guarded RegisterPort.step RegisterPort.InTime s moves s') :
    s'.Agreed ∧ s'.log.filterMap Happening.cycle? = moves.filterMap Move.cycle? := by
  constructor
  · exact (hrun.invariant (fun _ _ _ hs hm hstep => hs.step hm hstep) hstart.inStep).agreed
  · rw [run_cycles hrun, hstart.log]
    rfl

/-- Power-up, with the mask in the FIFO. -/
def powerUp : RegisterPort Unit 8 where
  sm := ⟨0, 0, 0, 0, 0, [dmaRegisterBitmask], [], 0, 0, 0⟩
  bus := .idle
  clock5 := false
  ready := true
  bridge := .initial (fun _ => 0) (.initial ()) (.initial (by decide))
  irq := none
  log := []

def instructions (k : ℕ) : List (Move Unit 8) := List.replicate k (.sm 0xABCDEF01)

/-- STATUS is read, a byte is written to DATA before the handler saw the end of the read, and memory
is written. -/
def readThenWrite : List (Move Unit 8) := List.flatten [
  instructions 6,
  [.begin ⟨0xEF321, none⟩], instructions 12, [.take, .serve, .strobe], instructions 4, [.finish],
  instructions 9,
  [.begin ⟨0xEF311, some 0x5A⟩], instructions 12, [.take, .serve, .take, .serve, .strobe],
  instructions 12, [.finish],
  [.begin ⟨0x40000, some 0xA5⟩], instructions 10, [.strobe], instructions 1, [.finish]]

lemma powerUp_started : powerUp.Started := ⟨.inl ⟨rfl, rfl⟩, rfl, rfl, rfl, rfl⟩

/-- A read, a write and a cycle elsewhere. -/
theorem registerPort_agrees_readThenWrite : ∃ s : RegisterPort Unit 8,
    follow RegisterPort.step RegisterPort.InTime powerUp readThenWrite = some s ∧ s.Agreed ∧
      s.log.filterMap Happening.cycle? =
        [⟨0xEF321, none⟩, ⟨0xEF311, some 0x5A⟩, ⟨0x40000, some 0xA5⟩] := by
  have hruns : (follow RegisterPort.step RegisterPort.InTime powerUp readThenWrite).isSome = true := by
    decide +kernel
  obtain ⟨s, hs⟩ := Option.isSome_iff_exists.mp hruns
  have hcycles : readThenWrite.filterMap Move.cycle? =
      [⟨0xEF321, none⟩, ⟨0xEF311, some 0x5A⟩, ⟨0x40000, some 0xA5⟩] := by decide +kernel
  rw [← hcycles]
  exact ⟨s, hs, registerPort_agrees powerUp_started (.of_follow hs)⟩

end PicoV9k.Port
