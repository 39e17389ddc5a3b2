import PicoV9k.CellHistory
import PicoV9k.DmaExactness
import PicoV9k.SasiWriteSix

/-!
# What a DMA call does to memory

The bus cycles of the card and the stores of the 8088 form one history of Victor
RAM. A call that is undisturbed and returns true has the effect on memory that the
sector loops rely on: the window of a write holds the buffer, the buffer of a read
holds the window, and everything else is as the 8088 left it.
-/
namespace PicoV9k.Dma
open PicoV9k.Bus PicoV9k.Pio PicoV9k.Scripts PicoV9k.Runs PicoV9k.Cells

abbrev RamAccess := Access (BitVec 20) Byte

def BusCycle.access : BusCycle → RamAccess
  | .write latched driven => .store latched (driven.setWidth 8)
  | .read latched _ byte => .load latched byte

/-- The strobes move with `set pins` only. -/
lemma step_setPins {prog : Program} {inputs : Inputs} {sm sm' : Sm} (h : sm.step prog inputs = some sm') :
    sm'.setPins = sm.setPins ∨ .set .pins sm'.setPins ∈ prog.code.map Prod.fst := by
  obtain ⟨⟨instr, side⟩, hline, hexec⟩ := Option.bind_eq_some_iff.mp h
  have hmem : instr ∈ prog.code.map Prod.fst :=
    List.mem_map.mpr ⟨_, List.mem_of_getElem? hline, rfl⟩
  cases instr with
  | pull =>
    simp only [Sm.exec] at hexec
    split at hexec
    · cases hexec
    · cases hexec
      exact .inl rfl
  | push =>
    obtain ⟨-, hexec⟩ := Option.ite_none_right_eq_some.mp hexec
    cases hexec
    exact .inl rfl
  | out dst bits =>
    cases hexec
    cases dst <;> exact .inl rfl
  | shiftIn src bits =>
    simp only [Sm.exec] at hexec
    split at hexec
    · obtain ⟨-, hexec⟩ := Option.ite_none_right_eq_some.mp hexec
      cases hexec
      exact .inl rfl
    · cases hexec
      exact .inl rfl
  | mov dst invert src =>
    cases hexec
    cases dst <;> exact .inl rfl
  | set dst value =>
    cases hexec
    cases dst with
    | pins => exact .inr hmem
    | _ => exact .inl rfl
  | wait level gpio =>
    cases (Option.ite_none_right_eq_some.mp hexec).2
    exact .inl rfl
  | jmp cond target =>
    simp only [Sm.exec] at hexec
    split at hexec <;> cases hexec <;> exact .inl rfl
  | nop =>
    cases hexec
    exact .inl rfl

/-- The instruction does not pull RD/ and WR/ low at once. -/
def oneStrobe : Instr → Bool
  | .set .pins v => v.getLsbD rdBit || v.getLsbD wrBit
  | _ => true

lemma dmaMaster_strobes {v : Word} (h : .set .pins v ∈ dmaMaster.code.map Prod.fst) :
    v.getLsbD rdBit = true ∨ v.getLsbD wrBit = true := by
  have hall : (dmaMaster.code.map Prod.fst).all oneStrobe = true := by decide
  exact Bool.or_eq_true _ _ ▸ List.all_eq_true.mp hall _ h

/-- The two strobes never fall together. -/
lemma strobes_apart {s : Engine} {noise : Byte} {gpio : ℕ → Bool} {sm : Sm}
    (h : s.card.sm.step dmaMaster ⟨(s.dataLines noise).setWidth 32, gpio⟩ = some sm) :
    fell wrBit s.card.sm.setPins sm.setPins = false ∨ fell rdBit s.card.sm.setPins sm.setPins = false := by
  rcases step_setPins h with hsame | hset
  · exact .inl (hsame ▸ fell_same _)
  · rcases dmaMaster_strobes hset with hrd | hwr
    · exact .inr (fell_of_high hrd)
    · exact .inl (fell_of_high hwr)

/-- The accesses to RAM since a call began, those of the card marked: they explain the memory and
the bytes that were read, and are the cycles in the record and the stores of the 8088. -/
structure Accounts (ram : BitVec 20 → Byte) (cycles : List BusCycle) (cpu : List RamAccess)
    (ram' : BitVec 20 → Byte) (log : List (Bool × RamAccess)) : Prop where
  memory : ram' = replay ram (log.map Prod.snd)
  faithful : Faithful ram (log.map Prod.snd)
  card : (log.filter fun x => x.1).map Prod.snd = cycles.map BusCycle.access
  cpu : (log.filter fun x => !x.1).map Prod.snd = cpu

lemma Accounts.start (ram : BitVec 20 → Byte) : Accounts ram [] [] ram [] := ⟨rfl, trivial, rfl, rfl⟩

/-- The card adds a cycle. -/
lemma Accounts.cycle {ram ram' ram'' : BitVec 20 → Byte} {cycles : List BusCycle} {cpu : List RamAccess}
    {log : List (Bool × RamAccess)} (h : Accounts ram cycles cpu ram' log) (x : BusCycle)
    (hmem : ram'' = replay ram' [x.access]) (hfaithful : Faithful ram' [x.access]) :
    Accounts ram (cycles ++ [x]) cpu ram'' (log ++ [(true, x.access)]) := by
  refine ⟨?_, ?_, ?_, ?_⟩
  · rw [hmem, h.memory, List.map_append, replay_append]
    rfl
  · rw [List.map_append]
    exact faithful_append h.faithful (h.memory ▸ hfaithful)
  · simp [h.card]
  · simp [h.cpu]

/-- The 8088 adds a store. -/
lemma Accounts.store {ram ram' : BitVec 20 → Byte} {cycles : List BusCycle} {cpu : List RamAccess}
    {log : List (Bool × RamAccess)} (h : Accounts ram cycles cpu ram' log) (address : BitVec 20)
    (byte : Byte) : Accounts ram cycles (cpu ++ [.store address byte])
      (Function.update ram' address byte) (log ++ [(false, .store address byte)]) := by
  refine ⟨?_, ?_, ?_, ?_⟩
  · rw [h.memory, List.map_append, replay_append]
    rfl
  · rw [List.map_append]
    exact faithful_append h.faithful trivial
  · simp [h.card]
  · simp [h.cpu]

/-- One instruction of the state machine. -/
lemma Accounts.drive {ram : BitVec 20 → Byte} {cpu : List RamAccess} {s : Engine}
    {log : List (Bool × RamAccess)} (h : Accounts ram s.card.cycles cpu s.ram log) {noise : Byte}
    {gpio : ℕ → Bool} {sm : Sm}
    (hstep : s.card.sm.step dmaMaster ⟨(s.dataLines noise).setWidth 32, gpio⟩ = some sm) :
    ∃ log', Accounts ram (s.drive sm).card.cycles cpu (s.drive sm).ram log' := by
  unfold Engine.drive
  dsimp only
  split
  · cases hwr : fell wrBit s.card.sm.setPins sm.setPins with
    | false =>
      cases hrd : fell rdBit s.card.sm.setPins sm.setPins with
      | false => exact ⟨log, by simpa using h⟩
      | true =>
        set latch := if sm.setPins.getLsbD aleBit then sm.outPins.setWidth 20 else s.card.latch
        let x : BusCycle := .read latch (sm.outPins.setWidth 20) (s.ram latch)
        have hread := h.cycle x (rfl : s.ram = s.ram) ⟨rfl, trivial⟩
        exact ⟨log ++ [(true, x.access)], by simpa using hread⟩
    | true =>
      have hrd := (strobes_apart hstep).resolve_left (by rw [hwr]; decide)
      set latch := if sm.setPins.getLsbD aleBit then sm.outPins.setWidth 20 else s.card.latch
      let x : BusCycle := .write latch (sm.outPins.setWidth 20)
      have hmem : Function.update s.ram latch ((sm.outPins.setWidth 20).setWidth 8) = replay s.ram [x.access] :=
        rfl
      have hwrite := h.cycle x hmem trivial
      exact ⟨log ++ [(true, x.access)], by simpa [hrd] using hwrite⟩
  · exact ⟨log, h⟩

/-- An action of the code that touches neither memory nor the record of bus cycles and calls. -/
def Aside (β : Type) (u : Engine → β × Engine) : Prop :=
  ∀ s, (u s).2.ram = s.ram ∧ (u s).2.card.cycles = s.card.cycles ∧ (u s).2.card.history = s.card.history

abbrev AsideCode {α : Type} (c : Code α) : Prop := c.Each Aside

lemma aside_read {β : Type} (f : Engine → β) : AsideCode (Script.read f) :=
  .act (fun _ => ⟨rfl, rfl, rfl⟩) fun _ => trivial

/-- A store that leaves both alone. -/
lemma aside_update {g : Card → Card} (hcycles : ∀ c, (g c).cycles = c.cycles)
    (hhistory : ∀ c, (g c).history = c.history) : AsideCode (update g) :=
  .act (fun s => ⟨rfl, hcycles s.card, hhistory s.card⟩) fun _ => trivial

lemma aside_pollUntil (ready : Engine → Bool) (wait : Wait) : AsideCode (pollUntil ready wait) := by
  refine .iterate (fun _ => (aside_read ready).bind fun now => ?_) ()
  cases now with
  | true => exact .pure _
  | false =>
    refine Script.Each.bind (.act (fun s => ?_) fun _ => trivial) fun late => .pure _
    by_cases hlate : s.late = true <;> simp [hlate, Card.logTimeout]

lemma aside_waitForClock5RisingEdge (wait : Wait) : AsideCode (waitForClock5RisingEdge wait) := by
  refine (aside_pollUntil _ wait).bind fun fallen => ?_
  cases fallen with
  | true => exact aside_pollUntil _ wait
  | false => exact .pure _

lemma aside_startDmaControl : AsideCode startDmaControl := by
  have hplain {g : Card → Card} {c : Unit → Code Bool} (hg : ∀ c, (g c).cycles = c.cycles ∧
      (g c).history = c.history) (hc : ∀ u, AsideCode (c u)) : AsideCode (update g >>= c) :=
    (aside_update (fun c => (hg c).1) fun c => (hg c).2).bind hc
  have hobtain : AsideCode obtainDmaMaster := by
    refine (aside_waitForClock5RisingEdge _).bind fun clocked => ?_
    cases clocked with
    | false => exact .pure _
    | true =>
      refine hplain (fun _ => ⟨rfl, rfl⟩) fun _ => (aside_pollUntil _ _).bind fun hlda => ?_
      cases hlda with
      | true => exact hplain (fun _ => ⟨rfl, rfl⟩) fun _ => .pure _
      | false => exact hplain (fun _ => ⟨rfl, rfl⟩) fun _ => .pure _
  refine hobtain.bind fun obtained => ?_
  cases obtained with
  | false => exact .pure _
  | true =>
    exact hplain (fun _ => ⟨rfl, rfl⟩) fun _ => hplain (fun _ => ⟨rfl, rfl⟩) fun _ =>
      hplain (fun _ => ⟨rfl, rfl⟩) fun _ => hplain (fun _ => ⟨rfl, rfl⟩) fun _ => .pure _

lemma aside_restoreRegisterBus : AsideCode restoreRegisterBusAfterDma := by
  have hplain {g : Card → Card} {c : Unit → Code Unit} (hg : ∀ c, (g c).cycles = c.cycles ∧
      (g c).history = c.history) (hc : ∀ u, AsideCode (c u)) : AsideCode (update g >>= c) :=
    (aside_update (fun c => (hg c).1) fun c => (hg c).2).bind hc
  refine hplain (fun _ => ⟨rfl, rfl⟩) fun _ => hplain (fun _ => ⟨rfl, rfl⟩) fun _ =>
    hplain (fun _ => ⟨rfl, rfl⟩) fun _ => (aside_waitForClock5RisingEdge _).bind fun _ => ?_
  exact hplain (fun _ => ⟨rfl, rfl⟩) fun _ => hplain (fun _ => ⟨rfl, rfl⟩) fun _ =>
    (aside_pollUntil _ _).bind fun _ => .pure _

lemma put_records (card : Card) (word : Word) :
    (card.put word).cycles = card.cycles ∧ (card.put word).history = card.history := by
  unfold Card.put
  split <;> exact ⟨rfl, rfl⟩

lemma aside_pioSmPutTimeout (word : Word) : AsideCode (pioSmPutTimeout word) := by
  refine (aside_pollUntil _ _).bind fun room => ?_
  cases room with
  | false => exact .pure _
  | true =>
    exact (aside_update (fun c => (put_records c word).1) fun c => (put_records c word).2).bind fun _ => .pure _

lemma aside_pioSmGetTimeout : AsideCode pioSmGetTimeout := by
  refine (aside_pollUntil _ _).bind fun present => ?_
  cases present with
  | false => exact .pure _
  | true => exact Script.Each.bind (.act (fun _ => ⟨rfl, rfl, rfl⟩) fun _ => trivial) fun _ => .pure _

lemma aside_settle : AsideCode settle :=
  .iterate (fun _ => (aside_read _).bind fun _ => .pure _) ()

lemma aside_writeBatch (data : ℕ → Byte) (length start : Word) (batch : ℕ) :
    AsideCode (writeBatch data length start batch) := by
  refine .iterate (fun i => ?_) 0
  split
  · dsimp only
    split
    · exact .pure _
    · refine (aside_pioSmPutTimeout _).bind fun first => ?_
      cases first with
      | false => exact .pure _
      | true => exact (aside_pioSmPutTimeout _).bind fun _ => .pure _
  · exact .pure _

lemma aside_readBatch (data : ℕ → Byte) (length start : Word) (batch : ℕ) :
    AsideCode (readBatch data length start batch) := by
  refine .iterate (fun loc => ?_) (0, data)
  dsimp only
  split
  · split
    · exact .pure _
    · refine (aside_pioSmPutTimeout _).bind fun first => ?_
      cases first with
      | false => exact .pure _
      | true =>
        refine (aside_pioSmPutTimeout _).bind fun second => ?_
        cases second with
        | false => exact .pure _
        | true => exact aside_pioSmGetTimeout.bind fun _ => .pure _
  · exact .pure _

lemma aside_dmaWrite (data : Option (ℕ → Byte)) (length start : Word) :
    AsideCode (dmaWriteToVictorRam data length start) := by
  unfold dmaWriteToVictorRam
  cases data with
  | none => exact .pure _
  | some data =>
    dsimp only
    split
    · exact .pure _
    · refine .iterate (fun batch => ?_) 0
      split
      · refine aside_startDmaControl.bind fun started => ?_
        cases started with
        | false => exact .pure _
        | true =>
          refine (aside_writeBatch _ _ _ _).bind fun stuck => ?_
          cases stuck with
          | true => exact aside_restoreRegisterBus.bind fun _ => .pure _
          | false =>
            refine (aside_pollUntil _ _).bind fun drained => ?_
            cases drained with
            | false => exact aside_restoreRegisterBus.bind fun _ => .pure _
            | true => exact aside_settle.bind fun _ => aside_restoreRegisterBus.bind fun _ => .pure _
      · exact .pure _

lemma aside_dmaRead (data : Option (ℕ → Byte)) (length start : Word) :
    AsideCode (dmaReadFromVictorRam data length start) := by
  unfold dmaReadFromVictorRam
  cases data with
  | none => exact .pure _
  | some data =>
    dsimp only
    split
    · exact .pure _
    · refine .iterate (fun loc => ?_) (0, data)
      split
      · refine aside_startDmaControl.bind fun started => ?_
        cases started with
        | false => exact .pure _
        | true =>
          refine (aside_readBatch _ _ _ _).bind fun r => ?_
          obtain ⟨stuck, data⟩ := r
          cases stuck with
          | true => exact aside_restoreRegisterBus.bind fun _ => .pure _
          | false =>
            refine (aside_pollUntil _ _).bind fun drained => ?_
            cases drained with
            | false => exact aside_restoreRegisterBus.bind fun _ => .pure _
            | true => exact aside_settle.bind fun _ => aside_restoreRegisterBus.bind fun _ => .pure _
      · exact .pure _

/-- The stores of the 8088. -/
def cpuStores : Move Call Event → List RamAccess
  | .env (.cpu address byte) => [.store address byte]
  | _ => []

/-- Where a call stands: not begun, at work, or recorded with the cycles that happened. -/
inductive Stage (c : Call) (past : List Entry) (m : Machine Engine) : List BusCycle → Prop
  | called (hcode : m.code = callBody c) (hoff : m.shared.card.smEnabled = false)
      (hpast : m.shared.card.history = past) : Stage c past m []
  | working {α : Type} (work : Code α) (close : α → Code Unit) (hcode : m.code = work.bind close)
      (hwork : AsideCode work) (hclose : ∀ a, ∃ ok data, close a = update (Card.record · c ok data))
      (hpast : m.shared.card.history = past) : Stage c past m m.shared.card.cycles
  | recorded (e : Entry) (hcode : m.code = .ret ()) (hcall : e.call = c)
      (hcycles : e.cycles = m.shared.card.cycles) (hpast : m.shared.card.history = past ++ [e]) :
      Stage c past m m.shared.card.cycles

lemma callBody_begin {c : Call} {s s' : Engine} {code : Code Unit}
    (h : (callBody c).step s = some (code, s')) : Stage c s.card.history ⟨s', code⟩ [] ∧ s'.ram = s.ram := by
  have hwrite (data : ℕ → Byte) (ok : Bool) : ∃ ok' data',
      update (Card.record · c ok data) = update (Card.record · c ok' data') := ⟨ok, data, rfl⟩
  unfold callBody at h
  cases hw : c.write with
  | true =>
    rw [hw] at h
    cases h
    exact ⟨.working _ (fun ok => update (Card.record · c ok (c.data.getD fun _ => 0))) rfl
      (aside_dmaWrite c.data c.length c.start) (fun ok => hwrite _ ok) rfl, rfl⟩
  | false =>
    rw [hw] at h
    cases h
    exact ⟨.working _ (fun r => update (Card.record · c r.1 r.2)) rfl
      (aside_dmaRead c.data c.length c.start) (fun r => hwrite r.2 r.1) rfl, rfl⟩

/-- The code goes on: memory is left alone and the stage moves on. -/
lemma Stage.core {c : Call} {past : List Entry} {m m' : Machine Engine} {cycles : List BusCycle}
    (h : Stage c past m cycles) (hstep : engineStep m .core = some m') :
    Stage c past m' cycles ∧ m'.shared.ram = m.shared.ram := by
  obtain ⟨⟨code, s'⟩, hs, rfl⟩ := Option.map_eq_some_iff.mp hstep
  cases h with
  | called hcode hoff hpast =>
    rw [hcode] at hs
    exact hpast ▸ callBody_begin hs
  | recorded e hcode hcall hcycles hpast =>
    rw [hcode] at hs
    cases hs
  | working work close hcode hwork hclose hpast =>
    rcases Script.ret_or_step work m.shared with ⟨a, rfl⟩ | ⟨work', t, hwstep⟩
    · obtain ⟨ok, data, hrecord⟩ := hclose a
      rw [hcode] at hs
      have hs' : (update (Card.record · c ok data)).step m.shared = some (code, s') := hrecord ▸ hs
      cases hs'
      exact ⟨.recorded _ rfl rfl rfl (congrArg (· ++ _) hpast), rfl⟩
    · have hbind := Script.step_bind (f := close) hwstep
      rw [← hcode, hs] at hbind
      cases hbind
      have hwork' := hwork.step hwstep
      rcases hwork.moved hwstep with hsame | ⟨β, u, hu, hsame⟩
      · subst hsame
        exact ⟨.working work' close rfl hwork' hclose hpast, rfl⟩
      · obtain ⟨hram, hcyc, hhist⟩ := hu m.shared
        rw [← hsame] at hram hcyc hhist
        exact ⟨hcyc ▸ .working work' close rfl hwork' hclose (hhist.trans hpast), hram⟩

/-- What one event does to the card and to memory. -/
inductive Eventful (s : Engine) (e : Event) : Engine → Prop
  | pio {noise : Byte} {gpio : ℕ → Bool} {sm : Sm} (henabled : s.card.smEnabled = true)
      (hstep : s.card.sm.step dmaMaster ⟨(s.dataLines noise).setWidth 32, gpio⟩ = some sm)
      (hstores : cpuStores (.env e) = []) : Eventful s e (s.drive sm)
  | lines {s' : Engine} (hcard : s'.card = s.card) (hram : s'.ram = s.ram)
      (hstores : cpuStores (.env e) = []) : Eventful s e s'
  | store {s' : Engine} (address : BitVec 20) (byte : Byte) (hcard : s'.card = s.card)
      (hram : s'.ram = Function.update s.ram address byte)
      (hstores : cpuStores (.env e) = [.store address byte]) : Eventful s e s'

lemma event_eventful {s s' : Engine} {e : Event} (h : s.event e = some s') : Eventful s e s' := by
  cases e with
  | pio gpio noise =>
    obtain ⟨henabled, hstep⟩ := Option.ite_none_right_eq_some.mp h
    obtain ⟨sm, hsm, rfl⟩ := Option.map_eq_some_iff.mp hstep
    exact .pio henabled hsm rfl
  | clock5 level | time level =>
    cases h
    exact .lines rfl rfl rfl
  | hlda level =>
    obtain ⟨-, hstep⟩ := Option.ite_none_right_eq_some.mp h
    cases hstep
    exact .lines rfl rfl rfl
  | cpu address byte =>
    simp only [Engine.event] at h
    split at h
    · cases h
    · cases h
      exact .store address byte rfl rfl rfl

lemma Stage.lines {c : Call} {past : List Entry} {m : Machine Engine} {cycles : List BusCycle}
    (h : Stage c past m cycles) {s : Engine} (hcard : s.card = m.shared.card) :
    Stage c past ⟨s, m.code⟩ cycles := by
  cases h with
  | called hcode hoff hpast => exact .called hcode (hcard ▸ hoff) (hcard ▸ hpast)
  | working work close hcode hwork hclose hpast =>
    exact hcard ▸ .working work close hcode hwork hclose (hcard ▸ hpast)
  | recorded e hcode hcall hcycles hpast =>
    exact hcard ▸ .recorded e hcode hcall (hcard ▸ hcycles) (hcard ▸ hpast)

/-- An instruction of the state machine happens only while the call is at work. -/
lemma Stage.pio {c : Call} {past : List Entry} {m : Machine Engine} {cycles : List BusCycle}
    (h : Stage c past m cycles) (hsteady : Steady m) (henabled : m.shared.card.smEnabled = true)
    (sm : Sm) : cycles = m.shared.card.cycles ∧
      Stage c past ⟨m.shared.drive sm, m.code⟩ (m.shared.drive sm).card.cycles := by
  cases h with
  | called hcode hoff hpast => exact absurd (henabled.symm.trans hoff) (by decide)
  | recorded e hcode hcall hcycles hpast =>
    exact absurd (henabled.symm.trans (hsteady.finished hcode).1) (by decide)
  | working work close hcode hwork hclose hpast =>
    exact ⟨rfl, .working work close hcode hwork hclose ((drive_records _ sm).history.trans hpast)⟩

/-- During a call memory is explained by the cycles of the call and the stores of the 8088. -/
def InCall (c : Call) (past : List Entry) (ram : BitVec 20 → Byte) (cpu : List RamAccess)
    (m : Machine Engine) : Prop :=
  Steady m ∧ ∃ cycles log, Stage c past m cycles ∧ Accounts ram cycles cpu m.shared.ram log

def isCall : Move Call Event → Bool
  | .call _ => true
  | _ => false

lemma steady_step {m m' : Machine Engine} {move : Move Call Event} (h : Steady m)
    (hstep : engineStep m move = some m') : Steady m' := by
  have hrun : EngineRun m [move] m' := .cons trivial hstep (.nil m')
  refine Machine.run_verified (fun c s hs => callBody_outline c s hs) (hrun.mono fun _ move _ => ?_) h
  cases move <;> trivial

theorem InCall.step {c : Call} {past : List Entry} {ram : BitVec 20 → Byte} {cpu : List RamAccess}
    {m m' : Machine Engine} {move : Move Call Event} (h : InCall c past ram cpu m)
    (hmove : isCall move = false) (hstep : engineStep m move = some m') :
    InCall c past ram (cpu ++ cpuStores move) m' := by
  obtain ⟨hsteady, cycles, log, hstage, haccounts⟩ := h
  refine ⟨steady_step hsteady hstep, ?_⟩
  cases move with
  | call c => cases hmove
  | core =>
    obtain ⟨hstage', hram⟩ := hstage.core hstep
    have hnone : cpuStores .core = [] := rfl
    rw [hnone, List.append_nil]
    exact ⟨cycles, log, hstage', by rw [hram]; exact haccounts⟩
  | env e =>
    obtain ⟨s, hs, rfl⟩ := Option.map_eq_some_iff.mp hstep
    cases event_eventful hs with
    | pio henabled hsm hstores =>
      obtain ⟨rfl, hstage'⟩ := hstage.pio hsteady henabled _
      obtain ⟨log', haccounts'⟩ := haccounts.drive hsm
      rw [hstores, List.append_nil]
      exact ⟨_, log', hstage', haccounts'⟩
    | lines hcard hram hstores =>
      rw [hstores, List.append_nil]
      exact ⟨cycles, log, hstage.lines hcard, by rw [hram]; exact haccounts⟩
    | store address byte hcard hram hstores =>
      rw [hstores]
      exact ⟨cycles, _, hstage.lines hcard, by rw [hram]; exact haccounts.store address byte⟩

theorem InCall.run {c : Call} {past : List Entry} {ram : BitVec 20 → Byte} {cpu : List RamAccess}
    {m m' : Machine Engine} {moves : List (Move Call Event)} {guard : Machine Engine → Move Call Event → Prop}
    (hguard : ∀ m move, guard m move → isCall move = false)
    (hrun : Guarded engineStep guard m moves m') (h : InCall c past ram cpu m) :
    InCall c past ram (cpu ++ moves.flatMap cpuStores) m' := by
  induction hrun generalizing cpu with
  | nil m => simpa using h
  | cons hg hs _ ih =>
    have hnext := ih (h.step (hguard _ _ hg) hs)
    rwa [List.append_assoc, ← List.flatMap_cons] at hnext

/-- The 8088 stores nothing into the window while the call runs. -/
def Call.Spares (c : Call) : Move Call Event → Prop
  | .call _ => False
  | .env (.cpu address _) => ∀ i < c.length.toNat, address ≠ c.addr i
  | _ => True

/-- Memory by the number of the cell. -/
def cells (ram : BitVec 20 → Byte) (a : ℕ) : Byte := ram (BitVec.ofNat 20 a)

lemma addr_injective {c : Call} {i j : ℕ} (hi : i < 2 ^ 20) (hj : j < 2 ^ 20) (h : c.addr i = c.addr j) :
    i = j := by
  have hnat := congrArg BitVec.toNat h
  simp only [Call.addr, BitVec.toNat_ofNat] at hnat
  omega

lemma addr_eq {c : Call} {i a : ℕ} (ha : a < Sasi.ramSize) :
    BitVec.ofNat 20 a = c.addr i ↔ (c.start.toNat + i) % Sasi.ramSize = a := by
  have hlt : a % 2 ^ 20 = a := Nat.mod_eq_of_lt ha
  constructor
  · intro h
    have hnat := congrArg BitVec.toNat h
    simp only [Call.addr, BitVec.toNat_ofNat] at hnat
    exact hnat.symm.trans hlt
  · intro h
    apply BitVec.eq_of_toNat_eq
    simp only [Call.addr, BitVec.toNat_ofNat]
    exact hlt.trans h.symm

lemma driven_byte {c : Call} (hwrite : c.write = true) (i : ℕ) : (c.driven i).setWidth 8 = c.byte i := by
  apply BitVec.eq_of_getLsbD_eq
  intro j hj
  simp [Call.driven, hwrite]

/-- Only the stores of the 8088 matter to a cell that the card does not store to. -/
lemma Accounts.spared {ram ram' : BitVec 20 → Byte} {cycles : List BusCycle} {cpu : List RamAccess}
    {log : List (Bool × RamAccess)} (h : Accounts ram cycles cpu ram' log) {a : BitVec 20}
    (hcard : ∀ x ∈ cycles, x.access.storeAt a = none) : ram' a = replay ram cpu a := by
  have hmarked : ∀ x ∈ log, x.1 = true → x.2.storeAt a = none := by
    intro x hx hmark
    have hmem : x.2 ∈ cycles.map BusCycle.access :=
      h.card ▸ List.mem_map_of_mem (List.mem_filter.mpr ⟨hx, hmark⟩)
    obtain ⟨y, hy, hxy⟩ := List.mem_map.mp hmem
    exact hxy ▸ hcard y hy
  rw [h.memory, ← h.cpu]
  apply replay_congr
  clear h hcard
  induction log with
  | nil => rfl
  | cons x log ih =>
    have hrest := ih fun y hy => hmarked y (List.mem_cons_of_mem _ hy)
    obtain ⟨mark, x⟩ := x
    cases mark with
    | true =>
      have hx : x.storeAt a = none := hmarked (true, x) (List.mem_cons_self ..) rfl
      simpa [hx] using hrest
    | false => simp [List.filterMap_cons, hrest]

/-- An access in the history is one of the card or one of the 8088. -/
lemma Accounts.cases {ram ram' : BitVec 20 → Byte} {cycles : List BusCycle} {cpu : List RamAccess}
    {log : List (Bool × RamAccess)} (h : Accounts ram cycles cpu ram' log) {x : RamAccess}
    (hx : x ∈ log.map Prod.snd) : x ∈ cycles.map BusCycle.access ∨ x ∈ cpu := by
  obtain ⟨⟨mark, y⟩, hy, rfl⟩ := List.mem_map.mp hx
  cases mark with
  | true => exact .inl (h.card ▸ List.mem_map.mpr ⟨_, List.mem_filter.mpr ⟨hy, rfl⟩, rfl⟩)
  | false => exact .inr (h.cpu ▸ List.mem_map.mpr ⟨_, List.mem_filter.mpr ⟨hy, rfl⟩, rfl⟩)

lemma Accounts.cycle_mem {ram ram' : BitVec 20 → Byte} {cycles : List BusCycle} {cpu : List RamAccess}
    {log : List (Bool × RamAccess)} (h : Accounts ram cycles cpu ram' log) {x : BusCycle}
    (hx : x ∈ cycles) : x.access ∈ log.map Prod.snd := by
  have hmem : x.access ∈ (log.filter fun x => x.1).map Prod.snd := h.card ▸ List.mem_map_of_mem hx
  obtain ⟨y, hy, hxy⟩ := List.mem_map.mp hmem
  exact List.mem_map.mpr ⟨y, (List.mem_filter.mp hy).1, hxy⟩

lemma spares_stores {c : Call} {m m' : Machine Engine} {moves : List (Move Call Event)}
    (h : Guarded engineStep (fun _ move => c.Spares move) m moves m') {i : ℕ} (hi : i < c.length.toNat) :
    ∀ x ∈ moves.flatMap cpuStores, x.storeAt (c.addr i) = none := by
  induction h with
  | nil m => simp
  | @cons m m₁ m₂ move moves hg _ _ ih =>
    intro x hx
    rcases List.mem_append.mp (List.flatMap_cons ▸ hx) with hx | hx
    · cases move with
      | env event =>
        cases event with
        | cpu address byte =>
          rw [List.mem_singleton.mp hx]
          exact if_neg (hg i hi)
        | _ => cases hx
      | _ => cases hx
    · exact ih x hx

/-- A finished call is in the record, with its cycles. -/
lemma Stage.finished {c : Call} {past : List Entry} {m : Machine Engine} {cycles : List BusCycle}
    (h : Stage c past m cycles) (hcode : m.code = .ret ()) :
    ∃ e, m.shared.card.history = past ++ [e] ∧ e.call = c ∧ e.cycles = cycles := by
  cases h with
  | recorded e _ hcall hcycles hpast => exact ⟨e, hpast, hcall, hcycles⟩
  | called hcall hoff hpast =>
    rw [hcode] at hcall
    cases hcall
  | working work close hwork _ hclose _ =>
    rw [hcode] at hwork
    cases work with
    | ret a =>
      obtain ⟨ok, data, ha⟩ := hclose a
      have hret : Script.ret () = update (Card.record · c ok data) := hwork.trans ha
      cases hret
    | act u k => cases hwork
    | loop body i k => cases hwork

section Windows

variable {c : Call} {ram ram' : BitVec 20 → Byte} {data : ℕ → Byte} {cpu : List RamAccess}
  {log : List (Bool × RamAccess)}

/-- The cycles of a call that moved all of its buffer. -/
abbrev Call.allCycles (c : Call) (data : ℕ → Byte) : List BusCycle :=
  (List.range c.length.toNat).map fun i => c.cycle i (data i)

lemma cycle_storeAt (hwrite : c.write = true) (i : ℕ) (byte : Byte) (a : BitVec 20) :
    (c.cycle i byte).access.storeAt a = if c.addr i = a then some (c.byte i) else none := by
  rw [Call.cycle, if_pos hwrite, BusCycle.access, Access.storeAt, driven_byte hwrite]

/-- After a write each cell of the window holds its byte of the buffer. -/
lemma Accounts.window (h : Accounts ram (c.allCycles data) cpu ram' log) (hwrite : c.write = true)
    (hlen : c.length.toNat ≤ 2 ^ 20)
    (hspare : ∀ i < c.length.toNat, ∀ x ∈ cpu, x.storeAt (c.addr i) = none) {i : ℕ}
    (hi : i < c.length.toNat) : ram' (c.addr i) = c.byte i := by
  rw [h.memory]
  refine replay_stored ⟨_, h.cycle_mem (List.mem_map.mpr ⟨i, List.mem_range.mpr hi, rfl⟩), ?_⟩
    fun x hx w hw => ?_
  · rw [cycle_storeAt hwrite, if_pos rfl]
  · rcases h.cases hx with hx | hx
    · obtain ⟨y, hy, rfl⟩ := List.mem_map.mp hx
      obtain ⟨j, hj, rfl⟩ := List.mem_map.mp hy
      have hj' := List.mem_range.mp hj
      rw [cycle_storeAt hwrite] at hw
      split at hw
      next heq =>
        cases hw
        rw [addr_injective (by omega) (by omega) heq]
      · cases hw
    · rw [hspare i hi x hx] at hw
      cases hw

/-- A write leaves every cell outside its window to the 8088. -/
lemma Accounts.outside (h : Accounts ram (c.allCycles data) cpu ram' log) (hwrite : c.write = true)
    {a : BitVec 20} (ha : ∀ i < c.length.toNat, a ≠ c.addr i) : ram' a = replay ram cpu a := by
  refine h.spared fun x hx => ?_
  obtain ⟨i, hi, rfl⟩ := List.mem_map.mp hx
  rw [cycle_storeAt hwrite, if_neg (ha i (List.mem_range.mp hi)).symm]

lemma read_access (hread : c.write = false) (i : ℕ) (byte : Byte) :
    (c.cycle i byte).access = .load (c.addr i) byte := by
  rw [Call.cycle, hread, if_neg Bool.false_ne_true]
  rfl

/-- A read leaves all of memory to the 8088. -/
lemma Accounts.unchanged (h : Accounts ram (c.allCycles data) cpu ram' log) (hread : c.write = false) :
    ram' = replay ram cpu := by
  funext a
  refine h.spared fun x hx => ?_
  obtain ⟨i, -, rfl⟩ := List.mem_map.mp hx
  rw [read_access hread]
  rfl

/-- After a read the buffer holds the window. -/
lemma Accounts.bytes (h : Accounts ram (c.allCycles data) cpu ram' log) (hread : c.write = false)
    (hspare : ∀ i < c.length.toNat, ∀ x ∈ cpu, x.storeAt (c.addr i) = none) {i : ℕ}
    (hi : i < c.length.toNat) : data i = ram (c.addr i) := by
  have hmem := h.cycle_mem (List.mem_map.mpr ⟨i, List.mem_range.mpr hi, rfl⟩)
  rw [read_access hread] at hmem
  refine h.faithful.load hmem fun x hx => ?_
  rcases h.cases hx with hx | hx
  · obtain ⟨y, hy, rfl⟩ := List.mem_map.mp hx
    obtain ⟨j, -, rfl⟩ := List.mem_map.mp hy
    rw [read_access hread]
    rfl
  · exact hspare i hi x hx

/-- The effect of a write on memory is that of the model of the sector loops. -/
lemma Accounts.written (h : Accounts ram (c.allCycles data) cpu ram' log) (hwrite : c.write = true)
    (hlen : c.length.toNat ≤ 2 ^ 20)
    (hspare : ∀ i < c.length.toNat, ∀ x ∈ cpu, x.storeAt (c.addr i) = none) {a : ℕ}
    (ha : a < Sasi.ramSize) : cells ram' a =
      (Sasi.dmaWriteToVictorRam .ok (cells (replay ram cpu)) c.start.toNat c.length.toNat c.byte).1 a := by
  have hwin {i : ℕ} (hi : i < c.length.toNat) : i < Sasi.ramSize := lt_of_lt_of_le hi hlen
  show cells ram' a = Wrap.write Sasi.ramSize (cells (replay ram cpu)) c.start.toNat c.length.toNat c.byte a
  by_cases hin : Wrap.InWindow Sasi.ramSize c.start.toNat c.length.toNat a
  · have haddr := (addr_eq (c := c) ha).mpr (Wrap.add_offset hin.1)
    rw [Wrap.write, if_pos hin, cells, haddr]
    exact h.window hwrite hlen hspare hin.2
  · rw [Wrap.write_outside hin]
    refine h.outside hwrite fun i hi heq => hin ⟨ha, ?_⟩
    rw [← (addr_eq ha).mp heq, Wrap.offset_add _ (hwin hi)]
    exact hi

end Windows

/-- What a finished call did to memory, `left` being the memory as the 8088 alone leaves it: the
effect of `dma_write_to_victor_ram` and `dma_read_from_victor_ram` on which the sector loops rely. -/
structure MovedMemory (e : Entry) (ram left ram' : ℕ → Byte) : Prop where
  write : e.call.write = true → ∀ a < Sasi.ramSize, ram' a =
    (Sasi.dmaWriteToVictorRam .ok left e.call.start.toNat e.call.length.toNat e.call.byte).1 a
  read : e.call.write = false → ram' = left ∧
    ∃ bytes, Sasi.dmaReadFromVictorRam .ok ram e.call.start.toNat = some bytes ∧
      ∀ i < e.call.length.toNat, e.data i = bytes i

/-- While a call runs the 8088 may store outside its window. Then an undisturbed call that returns
true has written its buffer into the window or read the window into its buffer, and has left every
other cell to the 8088. -/
theorem dma_call_moves_memory {c : Call} {before moves : List (Move Call Event)} {m₀ m₁ m₂ : Machine Engine}
    (hreach : EngineRun engine before m₀) (hcall : engineStep m₀ (.call c) = some m₁)
    (hrun : Guarded engineStep (fun _ move => c.Spares move) m₁ moves m₂) (hret : m₂.code = .ret ())
    (hlen : c.length.toNat ≤ 2 ^ 20) :
    ∃ e, m₂.shared.card.history = m₀.shared.card.history ++ [e] ∧ e.call = c ∧
      (e.ok = true → e.Undisturbed → MovedMemory e (cells m₀.shared.ram)
        (cells (replay m₀.shared.ram (moves.flatMap cpuStores))) (cells m₂.shared.ram)) := by
  have hsteady := run_steady hreach
  have hspare := fun i (hi : i < c.length.toNat) => spares_stores hrun hi
  have hstart : InCall c m₀.shared.card.history m₀.shared.ram [] m₁ := by
    refine ⟨steady_step hsteady hcall, [], [], ?_, ?_⟩ <;> simp only [engineStep, Machine.step] at hcall
    · split at hcall
      next hcode =>
        cases hcall
        exact .called rfl (hsteady.finished hcode).1 rfl
      · cases hcall
    · split at hcall <;> cases hcall
      exact .start _
  have hguard : ∀ (m : Machine Engine) move, c.Spares move → isCall move = false := by
    intro _ move h
    cases move with
    | call c => exact h.elim
    | _ => rfl
  obtain ⟨hsteady₂, cycles, log, hstage, haccounts⟩ := hstart.run hguard hrun
  obtain ⟨e, hhistory, rfl, rfl⟩ := hstage.finished hret
  refine ⟨e, hhistory, rfl, fun hok hund => ?_⟩
  have hkept : Kept m₂.shared := Script.Safe.invariant hsteady₂
  have hcycles := (hkept e (hhistory ▸ List.mem_append_right _ (List.mem_singleton_self e))).cycles hok hund.1
  rw [covered_eq, if_pos hund.2] at hcycles
  rw [hcycles, List.nil_append] at haccounts
  refine ⟨fun hwrite a ha => haccounts.written hwrite hlen hspare ha, fun hread => ⟨?_, _, rfl, ?_⟩⟩
  · rw [haccounts.unchanged hread]
  · intro i hi
    have haddr := (addr_eq (c := e.call) (i := i) (Nat.mod_lt _ (by decide : 0 < Sasi.ramSize))).mpr rfl
    rw [haccounts.bytes hread hspare hi, ← haddr]
    rfl

instance (c : Call) : (move : Move Call Event) → Decidable (c.Spares move)
  | .call _ => isFalse id
  | .env (.cpu address _) => inferInstanceAs (Decidable (∀ i < c.length.toNat, address ≠ c.addr i))
  | .core | .env (.pio _ _) | .env (.clock5 _) | .env (.time _) | .env (.hlda _) => isTrue trivial

/-- The 8088 stores a byte elsewhere while it still has the bus, and one byte is written. -/
def sparingMoves : List (Move Call Event) := .env (.cpu 0x999 7) :: writeByteRun.tail

theorem dma_call_moves_memory_byte : ∃ (m : Machine Engine) (e : Entry),
    follow engineStep (fun _ move => writeByte.Spares move) ⟨Engine.initial, callBody writeByte⟩
      sparingMoves = some m ∧ m.shared.card.history = [e] ∧ e.ok = true ∧
      MovedMemory e (cells fun _ => 0) (cells (replay (fun _ => 0) [.store 0x999 7])) (cells m.shared.ram) := by
  have hfollow : (follow engineStep (fun _ move => writeByte.Spares move)
      ⟨Engine.initial, callBody writeByte⟩ sparingMoves).map (fun m => (m.code, m.shared.card.history)) =
        some (.ret (), [⟨writeByte, true, fun _ => 0x5A, [[0x801, 0x45A]], [.write 0x400 0x45A], [], [0]⟩]) :=
    rfl
  obtain ⟨m, hm, hend⟩ := Option.map_eq_some_iff.mp hfollow
  obtain ⟨hcode, hhistory⟩ := Prod.mk.inj hend
  have hcall : engineStep engine (.call writeByte) = some ⟨Engine.initial, callBody writeByte⟩ := rfl
  obtain ⟨e, he, -, hmoved⟩ := dma_call_moves_memory (.nil engine) hcall (.of_follow hm) hcode
    (by decide)
  have hentry : [e] = [_] := he.symm.trans hhistory
  cases hentry
  exact ⟨m, _, hm, hhistory, rfl, hmoved rfl ⟨fun pc hpc => .inl (List.mem_singleton.mp hpc), by decide⟩⟩

end PicoV9k.Dma
