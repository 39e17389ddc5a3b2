import PicoV9k.DmaAlignment

/-!
# Transfers under interference

The assertions that hold between the actions of `dma.c`, whatever the state
machine, the clocks and the 8088 do meanwhile, and an outline of each function
against them.
-/
namespace PicoV9k.Dma
open PicoV9k.Bus PicoV9k.Pio PicoV9k.Scripts

abbrev Rely : Engine → Engine → Prop := EnvRel Engine.event fun _ _ => True

/-- A word is pushed only by an owner of the bus. -/
def PushesOwned (s s' : Engine) : Prop :=
  s.card.sm.tx.length < s'.card.sm.tx.length → s.card.hold = true ∧ s.card.granted = true

/-- What one event can do: a step of the state machine, or something outside the card. -/
inductive Affects (s : Engine) : Engine → Prop
  | pio (noise : Byte) (gpio : ℕ → Bool) (sm : Sm) (henabled : s.card.smEnabled = true)
      (hstep : s.card.sm.step dmaMaster ⟨(s.dataLines noise).setWidth 32, gpio⟩ = some sm) :
      Affects s (s.drive sm)
  | outside (clock5 hlda late : Bool) (ram : BitVec 20 → Byte)
      (hhlda : hlda = s.hlda ∨ s.card.hold = hlda) (hram : s.hlda = true → ram = s.ram) :
      Affects s ⟨s.card, clock5, hlda, late, ram⟩

lemma affects_of_rely {s s' : Engine} (h : Rely s s') : Affects s s' := by
  obtain ⟨event, -, hstep⟩ := h
  cases event with
  | pio gpio noise =>
    obtain ⟨henabled, hstep⟩ := Option.ite_none_right_eq_some.mp hstep
    obtain ⟨sm, hsm, rfl⟩ := Option.map_eq_some_iff.mp hstep
    exact .pio noise gpio sm henabled hsm
  | clock5 level =>
    cases hstep
    exact .outside level s.hlda s.late s.ram (.inl rfl) fun _ => rfl
  | time late =>
    cases hstep
    exact .outside s.clock5 s.hlda late s.ram (.inl rfl) fun _ => rfl
  | hlda level =>
    obtain ⟨hhold, hstep⟩ := Option.ite_none_right_eq_some.mp hstep
    cases hstep
    exact .outside s.clock5 level s.late s.ram (.inr hhold) fun _ => rfl
  | cpu address byte =>
    simp only [Engine.event] at hstep
    split at hstep
    · cases hstep
    next hhlda =>
      cases hstep
      exact .outside s.clock5 s.hlda s.late _ (.inl rfl) fun h => absurd h hhlda

/-- What a step of the state machine leaves as it is. -/
structure SameRecords (c c' : Card) : Prop where
  smEnabled : c'.smEnabled = c.smEnabled
  strobes : c'.strobes = c.strobes
  hold : c'.hold = c.hold
  granted : c'.granted = c.granted
  tenure : c'.tenure = c.tenure
  tenures : c'.tenures = c.tenures
  timeouts : c'.timeouts = c.timeouts
  resumes : c'.resumes = c.resumes
  history : c'.history = c.history

lemma drive_records (s : Engine) (sm : Sm) : SameRecords s.card (s.drive sm).card := by
  unfold Engine.drive
  split <;> exact ⟨rfl, rfl, rfl, rfl, rfl, rfl, rfl, rfl, rfl⟩

lemma drive_sm (s : Engine) (sm : Sm) : (s.drive sm).card.sm = sm := by
  unfold Engine.drive
  split <;> rfl

lemma drive_hlda (s : Engine) (sm : Sm) : (s.drive sm).hlda = s.hlda := by
  unfold Engine.drive
  split <;> rfl

lemma Affects.card {s s' : Engine} (h : Affects s s') (hoff : s.card.smEnabled = false) :
    s'.card = s.card := by
  cases h with
  | pio _ _ _ henabled => exact absurd (hoff.symm.trans henabled) Bool.false_ne_true
  | outside => rfl

lemma Affects.hlda {s s' : Engine} (h : Affects s s') (hhold : s.card.hold = true)
    (hhlda : s.hlda = true) : s'.hlda = true := by
  cases h with
  | pio _ _ sm => rw [drive_hlda, hhlda]
  | outside _ hlda _ _ hnew =>
    rcases hnew with hnew | hnew
    · exact hnew.trans hhlda
    · exact hnew.symm.trans hhold

/-- The waits that only log their timeout. -/
def Wait.Releases : Wait → Prop
  | .releaseClock5 | .releaseHlda => True
  | _ => False

/-- The instructions at which the state machine may resume: at T0, behind the strobe of a cycle of
which nothing is read, or anywhere behind the strobe for a write. -/
def Call.Clean (c : Call) (pc : ℕ) : Prop :=
  pc = 0 ∨ (16 ≤ pc ∧ pc ≤ 20) ∨ pc = 27 ∨ (c.write = true ∧ 22 ≤ pc ∧ pc ≤ 26)

/-- The number of bytes the batches of a call go through. -/
def Call.covered (c : Call) : ℕ := min c.length.toNat (dmaBatchSize * fullBatchCount c.length)

structure Entry.Sound (e : Entry) : Prop where
  small : ∀ t ∈ e.tenures, t.length ≤ 2 * dmaBatchSize
  buffered : e.ok = true → e.call.data ≠ none
  reached : e.call.data ≠ none → e.ok = false → e.call.covered ≠ 0
  result : e.call.data ≠ none → (e.ok = true ↔ ∀ w ∈ e.timeouts, w.Releases)
  words : e.ok = true → e.tenures.flatten = (List.range (2 * e.call.covered)).map e.call.word
  cycles : e.ok = true → (∀ pc ∈ e.resumes, e.call.Clean pc) →
    e.cycles = (List.range e.call.covered).map fun i => e.call.cycle i (e.data i)

/-- Every call so far was sound. -/
def Kept (s : Engine) : Prop := ∀ e ∈ s.card.history, e.Sound

abbrev EnginePoint := Script.Point Rely Kept

abbrev Outline {α : Type} (p : EnginePoint) (c : Code α) (q : α → EnginePoint) : Prop :=
  Script.Triple PushesOwned p c q

/-- The state machine is off and `P` holds of the card; with `seen`, HLDA answers HOLD. -/
def offPoint (P : Card → Prop) (seen : Bool) : EnginePoint where
  holds s := s.card.smEnabled = false ∧ P s.card ∧ Kept s ∧
    (seen = true → s.card.hold = true ∧ s.hlda = true)
  stable s s' h hs := by
    obtain ⟨hoff, hP, hkept, hseen⟩ := h
    have haffects := affects_of_rely hs
    have hcard := haffects.card hoff
    refine ⟨by rw [hcard]; exact hoff, by rw [hcard]; exact hP, by rw [Kept, hcard]; exact hkept, ?_⟩
    intro hs
    obtain ⟨hhold, hhlda⟩ := hseen hs
    exact ⟨by rw [hcard]; exact hhold, haffects.hlda hhold hhlda⟩
  safe _ h := h.2.2.1

/-- A store of the code that pushes nothing. -/
lemma update_outline {g : Card → Card} {p : EnginePoint} {q : Unit → EnginePoint}
    (htx : ∀ c, (g c).sm.tx.length ≤ c.sm.tx.length)
    (h : ∀ s, p.holds s → (q ()).holds { s with card := g s.card }) : Outline p (update g) q :=
  Script.Triple.modify (fun s _ hlt => absurd hlt (Nat.not_lt_of_le (htx s.card))) h

lemma pushesOwned_refl (s : Engine) : PushesOwned s s := fun h => absurd h (Nat.lt_irrefl _)

/-- A wait ends because what it waits for is there, or with its timeout in the log. -/
lemma pollUntil_outline {ready : Engine → Bool} {wait : Wait} {p q r : EnginePoint}
    (hq : ∀ s, p.holds s → ready s = true → q.holds s)
    (hr : ∀ s, p.holds s → r.holds { s with card := s.card.logTimeout wait }) :
    Outline p (pollUntil ready wait) (fun b => if b then q else r) := by
  refine Script.Triple.iterate (fun _ => p) () fun _ => ?_
  refine Script.Triple.bind (m := fun now => if now then q else p) ?_ fun now => ?_
  · refine Script.Triple.read pushesOwned_refl fun s hs => ?_
    cases hready : ready s with
    | true => exact hq s hs hready
    | false => exact hs
  · cases now with
    | true => exact Script.Triple.ret fun s hs => hs
    | false =>
      refine Script.Triple.bind (m := fun late => if late then r else p) ?_ fun late => ?_
      · refine Script.Triple.act (fun s _ hlt => ?_) fun s hs => ?_
        · refine absurd hlt ?_
          by_cases hlate : s.late = true <;> simp [hlate, Card.logTimeout]
        · by_cases hlate : s.late = true
          · show (if s.late = true then r else p).holds (if s.late = true then _ else s)
            rw [if_pos hlate, if_pos hlate]
            exact hr s hs
          · show (if s.late = true then r else p).holds (if s.late = true then _ else s)
            rw [if_neg hlate, if_neg hlate]
            exact hs
      · cases late with
        | true => exact Script.Triple.ret fun s hs => hs
        | false => exact Script.Triple.ret fun s hs => hs

/-- The register port is as the call found it, the FIFOs of the engine are empty. -/
structure Ready (c : Card) : Prop where
  tx : c.sm.tx = []
  rx : c.sm.rx = []
  regEnabled : c.regEnabled = true
  pending : c.resumes ≠ [] → c.fifoPendingPrefetch = 0
  tenure : c.tenure = []

/-- The bus belongs to the 8088. -/
structure Idle (c : Card) : Prop extends Ready c where
  hold : c.hold = false
  granted : c.granted = false

/-- Between two tenures: the first `n` bytes went over the bus, `got` of them were read. -/
structure Books (c : Call) (n : ℕ) (got : List Byte) (card : Card) : Prop where
  small : ∀ t ∈ card.tenures, t.length ≤ 2 * dmaBatchSize
  words : card.tenures.flatten = (List.range (2 * n)).map c.word
  timeouts : ∀ w ∈ card.timeouts, w.Releases
  fresh : card.resumes = [] → n = 0 ∧ card.cycles = [] ∧ got = []
  done : (∀ pc ∈ card.resumes, c.Clean pc) →
    card.cycles.map BusCycle.shape = (List.range n).map (fun i => (c.write, c.addr i, c.driven i)) ∧
      (c.write = false → card.cycles.map BusCycle.byte = got) ∧ (card.resumes ≠ [] → card.sm.pc = 0)

/-- A wait timed out, and not one that only logs it. -/
structure Failed (card : Card) : Prop where
  small : ∀ t ∈ card.tenures, t.length ≤ 2 * dmaBatchSize
  timeouts : ∃ w ∈ card.timeouts, ¬ w.Releases

/-- `P` reads only what the end of a tenure leaves alone. -/
def Recorded (P : Card → Prop) : Prop :=
  ∀ c c' : Card, c'.sm.pc = c.sm.pc → c'.cycles = c.cycles → c'.resumes = c.resumes →
    c'.tenures = c.tenures →
    (c'.timeouts = c.timeouts ∨ ∃ w : Wait, w.Releases ∧ c'.timeouts = c.timeouts ++ [w]) → P c → P c'

lemma books_recorded (c : Call) (n : ℕ) (got : List Byte) : Recorded (Books c n got) := by
  intro card card' hpc hcycles hresumes htenures htimeouts h
  refine ⟨htenures ▸ h.small, htenures ▸ h.words, ?_, ?_, ?_⟩
  · rcases htimeouts with heq | ⟨w, hw, heq⟩
    · exact heq ▸ h.timeouts
    · intro w' hw'
      rw [heq] at hw'
      rcases List.mem_append.mp hw' with hw' | hw'
      · exact h.timeouts w' hw'
      · rw [List.mem_singleton.mp hw']
        exact hw
  · rw [hresumes, hcycles]
    exact h.fresh
  · rw [hresumes, hcycles, hpc]
    exact h.done

lemma failed_recorded : Recorded Failed := by
  intro card card' _ _ _ htenures htimeouts h
  obtain ⟨w, hw, hbad⟩ := h.timeouts
  refine ⟨htenures ▸ h.small, w, ?_, hbad⟩
  rcases htimeouts with heq | ⟨_, _, heq⟩
  · exact heq ▸ hw
  · exact heq ▸ List.mem_append_left _ hw

/-- The end of a wait that decides about the call. -/
lemma Books.failed {c : Call} {n : ℕ} {got : List Byte} {card : Card} (h : Books c n got card) {w : Wait}
    (hw : ¬ w.Releases) : Failed (card.logTimeout w) :=
  ⟨h.small, w, List.mem_append_right _ (List.mem_singleton_self w), hw⟩

/-- A wait in between while the state machine is off. -/
lemma waitForPinLevel_outline {pin : Pin} {level : Bool} {wait : Wait} {P Q : Card → Prop}
    {seen : Bool} (hQ : ∀ card, P card → Q (card.logTimeout wait)) :
    Outline (offPoint P seen) (waitForPinLevel pin level wait)
      (fun b => if b then offPoint P seen else offPoint Q seen) :=
  pollUntil_outline (fun _ h _ => h) fun s h => ⟨h.1, hQ s.card h.2.1, h.2.2.1, h.2.2.2⟩

lemma waitForClock5RisingEdge_outline {wait : Wait} {P Q : Card → Prop} {seen : Bool}
    (hQ : ∀ card, P card → Q (card.logTimeout wait)) :
    Outline (offPoint P seen) (waitForClock5RisingEdge wait)
      (fun b => if b then offPoint P seen else offPoint Q seen) := by
  refine Script.Triple.bind (waitForPinLevel_outline hQ) fun fallen => ?_
  cases fallen with
  | true => exact waitForPinLevel_outline hQ
  | false => exact Script.Triple.ret fun _ h => h

/-- The FIFOs of the engine are empty and its tenure is in the record. -/
structure Drained (c : Card) : Prop where
  tx : c.sm.tx = []
  rx : c.sm.rx = []
  tenure : c.tenure = []

/-- The same wait where only a release waits for it. -/
lemma Recorded.logs {P Q : Card → Prop} (hP : Recorded P) {wait : Wait} (hwait : wait.Releases)
    (hQ : ∀ card, Q card → Q (card.logTimeout wait)) (card : Card) (h : P card ∧ Q card) :
    P (card.logTimeout wait) ∧ Q (card.logTimeout wait) :=
  ⟨hP card _ rfl rfl rfl rfl (.inr ⟨wait, hwait, rfl⟩) h.1, hQ card h.2⟩

lemma restoreRegisterBusAfterDma_outline {P : Card → Prop} (hP : Recorded P) {p : EnginePoint}
    (hpark : ∀ s, p.holds s → p.holds { s with card := s.card.parkStrobes })
    (hdisable : ∀ s, p.holds s → P s.card.disable) :
    Outline p restoreRegisterBusAfterDma
      (fun _ => offPoint (fun card => P card ∧ Idle card) false) := by
  have hsame : ∀ card card' : Card, card'.sm.pc = card.sm.pc → card'.cycles = card.cycles →
      card'.resumes = card.resumes → card'.tenures = card.tenures → card'.timeouts = card.timeouts →
      P card → P card' := fun _ _ h1 h2 h3 h4 h5 => hP _ _ h1 h2 h3 h4 (.inl h5)
  refine Script.Triple.bind (m := fun _ => p) (update_outline (fun _ => Nat.le_refl _) hpark) fun _ => ?_
  refine Script.Triple.bind (m := fun _ => offPoint (fun card => P card ∧ card.tenure = []) false)
    (update_outline (fun _ => Nat.le_refl _) fun s hs =>
      ⟨rfl, ⟨hdisable s hs, rfl⟩, p.safe s hs, fun h => absurd h Bool.false_ne_true⟩) fun _ => ?_
  refine Script.Triple.bind (m := fun _ => offPoint (fun card => P card ∧ Drained card) false)
    (update_outline (fun _ => Nat.zero_le _) fun s hs =>
      ⟨hs.1, ⟨hsame s.card _ rfl rfl rfl rfl rfl hs.2.1.1, rfl, rfl, hs.2.1.2⟩, hs.2.2⟩) fun _ => ?_
  refine Script.Triple.bind (waitForClock5RisingEdge_outline (Q := fun card => P card ∧ Drained card)
    (hP.logs trivial fun _ h => ⟨h.tx, h.rx, h.tenure⟩)) fun b => ?_
  rw [ite_self]
  refine Script.Triple.bind (m := fun _ => offPoint (fun card => P card ∧ Ready card) false)
    (update_outline (fun _ => Nat.le_refl _) fun s hs =>
      ⟨hs.1, ⟨hsame s.card _ rfl rfl rfl rfl rfl hs.2.1.1,
        ⟨hs.2.1.2.tx, hs.2.1.2.rx, rfl, fun _ => rfl, hs.2.1.2.tenure⟩⟩, hs.2.2⟩) fun _ => ?_
  refine Script.Triple.bind (m := fun _ => offPoint (fun card => P card ∧ Idle card) false)
    (update_outline (fun _ => Nat.le_refl _) fun s hs =>
      ⟨hs.1, ⟨hsame s.card _ rfl rfl rfl rfl rfl hs.2.1.1,
        ⟨⟨hs.2.1.2.tx, hs.2.1.2.rx, hs.2.1.2.regEnabled, hs.2.1.2.pending, hs.2.1.2.tenure⟩, rfl, rfl⟩⟩,
        hs.2.2.1, fun h => absurd h Bool.false_ne_true⟩) fun _ => ?_
  refine Script.Triple.bind (waitForPinLevel_outline (Q := fun card => P card ∧ Idle card)
    (hP.logs trivial fun _ h => ⟨⟨h.tx, h.rx, h.regEnabled, h.pending, h.tenure⟩, h.hold, h.granted⟩))
    fun b => ?_
  rw [ite_self]
  exact Script.Triple.ret fun _ h => h

/-- The card owns the bus and its state machine has taken `k` words of the batch number `b`. -/
structure OnBus (c : Call) (b k : ℕ) (got : List Byte) (s : Engine) : Prop where
  enabled : s.card.smEnabled = true
  strobes : s.card.strobes = true
  hold : s.card.hold = true
  granted : s.card.granted = true
  small : ∀ t ∈ s.card.tenures, t.length ≤ 2 * dmaBatchSize
  words : s.card.tenures.flatten = (List.range (2 * (dmaBatchSize * b))).map c.word
  tenure : s.card.tenure =
    (List.range' (2 * (dmaBatchSize * b)) (k - 2 * (dmaBatchSize * b))).map c.word
  lower : 2 * (dmaBatchSize * b) ≤ k
  upper : k ≤ 2 * (dmaBatchSize * (b + 1))
  timeouts : ∀ w ∈ s.card.timeouts, w.Releases
  resumes : s.card.resumes ≠ []
  aligned : (∀ pc ∈ s.card.resumes, c.Clean pc) → Aligned c k got s

/-- Memory stays as it is while the card owns the bus. -/
lemma Aligned.outside {c : Call} {k : ℕ} {got : List Byte} {s : Engine} (h : Aligned c k got s)
    (clock5 hlda late : Bool) : Aligned c k got ⟨s.card, clock5, hlda, late, s.ram⟩ :=
  ⟨h.shapes, h.position, h.bytes⟩

lemma OnBus.affected {c : Call} {b k : ℕ} {got : List Byte} {s s' : Engine} (h : OnBus c b k got s)
    (hhlda : s.hlda = true) (haffects : Affects s s') : OnBus c b k got s' := by
  cases haffects with
  | pio noise gpio sm henabled hstep =>
    have hrec := drive_records s sm
    refine ⟨hrec.smEnabled ▸ h.enabled, hrec.strobes ▸ h.strobes, hrec.hold ▸ h.hold,
      hrec.granted ▸ h.granted, hrec.tenures ▸ h.small, hrec.tenures ▸ h.words, hrec.tenure ▸ h.tenure,
      h.lower, h.upper, hrec.timeouts ▸ h.timeouts, hrec.resumes ▸ h.resumes, ?_⟩
    rw [hrec.resumes]
    exact fun hclean => (h.aligned hclean).pio h.strobes hstep
  | outside clock5 hlda late ram _ hram =>
    rw [hram hhlda]
    exact ⟨h.enabled, h.strobes, h.hold, h.granted, h.small, h.words, h.tenure, h.lower, h.upper,
      h.timeouts, h.resumes, fun hclean => (h.aligned hclean).outside clock5 hlda late⟩

lemma Affects.kept {s s' : Engine} (h : Affects s s') (hkept : Kept s) : Kept s' := by
  cases h with
  | pio _ _ sm =>
    rw [Kept, (drive_records s sm).history]
    exact hkept
  | outside => exact hkept

/-- What the code knows of the FIFOs and the state machine cannot take back. -/
structure Monotone (R : Sm → Prop) : Prop where
  step : ∀ sm sm' : Sm, sm'.tx <:+ sm.tx → sm.rx <+: sm'.rx → R sm → R sm'

lemma Affects.monotone {s s' : Engine} (h : Affects s s') {R : Sm → Prop} (hR : Monotone R)
    (hs : R s.card.sm) : R s'.card.sm := by
  cases h with
  | pio _ _ sm _ hstep =>
    rw [drive_sm]
    obtain ⟨htx, hrx⟩ := Sm.step_fifos hstep
    exact hR.step _ _ htx hrx hs
  | outside => exact hs

def busPoint (c : Call) (b k : ℕ) (got : List Byte) (R : Sm → Prop) (hR : Monotone R) : EnginePoint where
  holds s := OnBus c b k got s ∧ s.hlda = true ∧ R s.card.sm ∧ Kept s
  stable s s' h hs := by
    obtain ⟨hbus, hhlda, hsm, hkept⟩ := h
    have haffects := affects_of_rely hs
    exact ⟨hbus.affected hhlda haffects, haffects.hlda hbus.hold hhlda, haffects.monotone hR hsm,
      haffects.kept hkept⟩
  safe _ h := h.2.2.2

def anything (_ : Sm) : Prop := True

lemma anything_monotone : Monotone anything := ⟨fun _ _ _ _ h => h⟩

abbrev onBus (c : Call) (b k : ℕ) (got : List Byte) : EnginePoint :=
  busPoint c b k got anything anything_monotone

/-- From a clean instruction the state machine comes to T0 without a strobe. -/
lemma Call.Clean.start {c : Call} {latch : BitVec 20} {sm : Sm} (h : c.Clean sm.pc) (hquiet : Quiet sm) :
    c.At 0 0 latch sm := by
  rcases h with hpc | ⟨hlo, hhi⟩ | hpc | ⟨hwrite, hlo, hhi⟩
  · simp only [Call.At, hpc]
    exact ⟨trivial, hquiet⟩
  · interval_cases hpc : sm.pc <;> simp only [Call.At, hpc]
  · simp only [Call.At, hpc]
  · have hread : c.write = false → sm.setPins.getLsbD rdBit = false ∧ sm.setPins.getLsbD aleBit = false :=
      fun h => absurd (hwrite.symm.trans h) (by decide)
    interval_cases hpc : sm.pc <;> simp only [Call.At, hpc] <;> exact ⟨trivial, hread⟩

/-- For a read no byte is on its way there. -/
lemma Call.Clean.settled {c : Call} {pc : ℕ} (h : c.Clean pc) (hread : c.write = false) :
    ¬ (22 ≤ pc ∧ pc ≤ 26) := by
  rcases h with hpc | ⟨hlo, hhi⟩ | hpc | ⟨hwrite, -⟩
  · omega
  · omega
  · omega
  · exact absurd (hwrite.symm.trans hread) (by decide)

/-- The state machine resumes at the start of the stream. -/
lemma Books.resume {c : Call} {n : ℕ} {got : List Byte} {s : Engine} (h : Books c n got s.card)
    (htx : s.card.sm.tx = []) (hrx : s.card.sm.rx = []) (hset : s.card.sm.setPins = 0b0111)
    (hclean : ∀ pc ∈ s.card.resumes ++ [s.card.sm.pc], c.Clean pc) : Aligned c (2 * n) got s := by
  obtain ⟨hshapes, hbytes, hpc⟩ := h.done fun pc hpc => hclean pc (List.mem_append_left _ hpc)
  have hlen : s.card.cycles.length = n := by
    have := congrArg List.length hshapes
    simpa using this
  have hquiet : Quiet s.card.sm := by
    rw [Quiet, hset]
    exact ⟨by decide, by decide⟩
  have hhere : c.Clean s.card.sm.pc := hclean _ (List.mem_append_right _ (List.mem_singleton_self _))
  refine ⟨by rw [hlen]; exact hshapes, ⟨2 * n, Nat.le_refl _, ?_, ?_⟩, fun hread => ?_⟩
  · rw [htx, Nat.sub_self]
    rfl
  · rw [hlen]
    by_cases hfresh : s.card.resumes = []
    · obtain ⟨rfl, -, -⟩ := h.fresh hfresh
      exact hhere.start hquiet
    · simp only [Call.At, hpc hfresh]
      exact ⟨trivial, hquiet⟩
  · rw [hbytes hread, hrx, Engine.inFlight, if_neg (hhere.settled hread)]
    simp

lemma Ready.assertHold {card : Card} (h : Ready card) : Ready card.assertHold :=
  ⟨h.tx, h.rx, h.regEnabled, h.pending, h.tenure⟩

lemma Ready.logTimeout {card : Card} (h : Ready card) (w : Wait) : Ready (card.logTimeout w) :=
  ⟨h.tx, h.rx, h.regEnabled, h.pending, h.tenure⟩

lemma Idle.logTimeout {card : Card} (h : Idle card) (w : Wait) : Idle (card.logTimeout w) :=
  ⟨h.toReady.logTimeout w, h.hold, h.granted⟩

lemma Books.same {c : Call} {n : ℕ} {got : List Byte} {card card' : Card} (h : Books c n got card)
    (hpc : card'.sm.pc = card.sm.pc) (hcycles : card'.cycles = card.cycles)
    (hresumes : card'.resumes = card.resumes) (htenures : card'.tenures = card.tenures)
    (htimeouts : card'.timeouts = card.timeouts) : Books c n got card' :=
  books_recorded c n got card card' hpc hcycles hresumes htenures (.inl htimeouts) h

/-- HOLD is asserted and answered, or the bus stays with the 8088. -/
lemma obtainDmaMaster_outline {c : Call} {n : ℕ} {got : List Byte} :
    Outline (offPoint (fun card => Books c n got card ∧ Idle card) false) obtainDmaMaster
      (fun b => if b then offPoint (fun card => (Books c n got card ∧ Ready card) ∧ card.granted = true) true
        else offPoint (fun card => Failed card ∧ Idle card) false) := by
  refine Script.Triple.bind (waitForClock5RisingEdge_outline (Q := fun card => Failed card ∧ Idle card)
    fun card h => ⟨h.1.failed id, h.2.logTimeout _⟩) fun clocked => ?_
  cases clocked with
  | false => exact Script.Triple.ret fun _ h => h
  | true =>
    refine Script.Triple.bind (m := fun _ => offPoint (fun card =>
      (Books c n got card ∧ Ready card) ∧ card.hold = true) false) (update_outline (fun _ => Nat.le_refl _)
        fun s hs => ⟨hs.1, ⟨⟨hs.2.1.1.same rfl rfl rfl rfl rfl, hs.2.1.2.toReady.assertHold⟩, rfl⟩, hs.2.2.1,
          fun h => absurd h Bool.false_ne_true⟩)
      fun _ => ?_
    refine Script.Triple.bind (m := fun b => if b then
        offPoint (fun card => (Books c n got card ∧ Ready card) ∧ card.hold = true) true
      else offPoint (fun card => Failed card ∧ Ready card) false) ?_ fun hlda => ?_
    · refine pollUntil_outline (fun s hs hready => ?_) fun s hs => ?_
      · exact ⟨hs.1, hs.2.1, hs.2.2.1, fun _ => ⟨hs.2.1.2, of_decide_eq_true hready⟩⟩
      · exact ⟨hs.1, ⟨hs.2.1.1.1.failed id, hs.2.1.1.2.logTimeout _⟩, hs.2.2⟩
    · cases hlda with
      | true =>
        refine Script.Triple.bind (m := fun _ => offPoint (fun card =>
          (Books c n got card ∧ Ready card) ∧ card.granted = true) true) (update_outline
            (fun _ => Nat.le_refl _) fun s hs => ?_) fun _ => Script.Triple.ret fun _ h => h
        obtain ⟨hoff, ⟨⟨hbooks, hready⟩, hhold⟩, hkept, hseen⟩ := hs
        exact ⟨hoff, ⟨⟨hbooks.same rfl rfl rfl rfl rfl,
          ⟨hready.tx, hready.rx, hready.regEnabled, hready.pending, hready.tenure⟩⟩, rfl⟩, hkept, hseen⟩
      | false =>
        refine Script.Triple.bind (m := fun _ => offPoint (fun card => Failed card ∧ Idle card) false)
          (update_outline (fun _ => Nat.le_refl _) fun s hs => ?_) fun _ => Script.Triple.ret fun _ h => h
        obtain ⟨hoff, ⟨hfailed, hready⟩, hkept, -⟩ := hs
        exact ⟨hoff, ⟨⟨hfailed.small, hfailed.timeouts⟩,
          ⟨⟨hready.tx, hready.rx, hready.regEnabled, hready.pending, hready.tenure⟩, rfl, rfl⟩⟩, hkept,
          fun h => absurd h Bool.false_ne_true⟩

/-- The state machine is enabled at the start of the batch, or the bus stays with the 8088. -/
lemma startDmaControl_outline {c : Call} {b : ℕ} {got : List Byte} :
    Outline (offPoint (fun card => Books c (dmaBatchSize * b) got card ∧ Idle card) false) startDmaControl
      (fun ok => if ok then onBus c b (2 * (dmaBatchSize * b)) got
        else offPoint (fun card => Failed card ∧ Idle card) false) := by
  refine Script.Triple.bind obtainDmaMaster_outline fun obtained => ?_
  cases obtained with
  | false => exact Script.Triple.ret fun _ h => h
  | true =>
    refine Script.Triple.bind (m := fun _ => offPoint (fun card =>
      Books c (dmaBatchSize * b) got card ∧ card.granted = true) true)
      (update_outline (fun _ => Nat.le_refl _) fun s hs =>
        ⟨hs.1, ⟨hs.2.1.1.1.same rfl rfl rfl rfl rfl, hs.2.1.2⟩, hs.2.2⟩) fun _ => ?_
    refine Script.Triple.bind (m := fun _ => offPoint (fun card =>
      (Books c (dmaBatchSize * b) got card ∧ card.granted = true) ∧ card.strobes = true ∧
        card.sm.setPins = 0b0111) true)
      (update_outline (fun _ => Nat.le_refl _) fun s hs =>
        ⟨hs.1, ⟨⟨hs.2.1.1.same rfl rfl rfl rfl rfl, hs.2.1.2⟩, rfl, rfl⟩, hs.2.2⟩) fun _ => ?_
    refine Script.Triple.bind (m := fun _ => offPoint (fun card =>
      ((Books c (dmaBatchSize * b) got card ∧ card.granted = true) ∧ card.strobes = true ∧
        card.sm.setPins = 0b0111) ∧ card.sm.tx = [] ∧ card.sm.rx = []) true)
      (update_outline (fun _ => Nat.zero_le _) fun s hs =>
        ⟨hs.1, ⟨⟨⟨hs.2.1.1.1.same rfl rfl rfl rfl rfl, hs.2.1.1.2⟩, hs.2.1.2⟩, rfl, rfl⟩, hs.2.2⟩) fun _ => ?_
    refine Script.Triple.bind (m := fun _ => onBus c b (2 * (dmaBatchSize * b)) got)
      (update_outline (fun _ => Nat.le_refl _) fun s hs => ?_) fun _ => Script.Triple.ret fun _ h => h
    obtain ⟨-, ⟨⟨⟨hbooks, hgranted⟩, hstrobes, hset⟩, htx, hrx⟩, hkept, hseen⟩ := hs
    refine ⟨⟨rfl, hstrobes, (hseen rfl).1, hgranted, hbooks.small, hbooks.words, ?_, Nat.le_refl _, ?_,
      hbooks.timeouts, ?_, fun hclean => ?_⟩, (hseen rfl).2, trivial, hkept⟩
    · rw [Nat.sub_self]
      rfl
    · exact Nat.mul_le_mul_left _ (Nat.mul_le_mul_left _ (Nat.le_succ b))
    · exact List.concat_ne_nil _ _
    · have halign := hbooks.resume htx hrx hset hclean
      exact ⟨halign.shapes, halign.position, halign.bytes⟩

/-- A wait of the batch timed out. -/
def abortPoint : EnginePoint where
  holds s := s.card.smEnabled = true ∧ Failed s.card.disable ∧ Kept s
  stable s s' h hs := by
    have haffects := affects_of_rely hs
    cases haffects with
    | pio _ _ sm =>
      have hrec := drive_records s sm
      refine ⟨hrec.smEnabled ▸ h.1, ⟨?_, ?_⟩, (affects_of_rely hs).kept h.2.2⟩
      · show ∀ t ∈ (s.drive sm).card.tenures ++ [(s.drive sm).card.tenure], _
        rw [hrec.tenures, hrec.tenure]
        exact h.2.1.small
      · show ∃ w ∈ (s.drive sm).card.timeouts, _
        rw [hrec.timeouts]
        exact h.2.1.timeouts
    | outside => exact h
  safe _ h := h.2.2

lemma OnBus.small_disable {c : Call} {b k : ℕ} {got : List Byte} {s : Engine} (h : OnBus c b k got s) :
    ∀ t ∈ s.card.disable.tenures, t.length ≤ 2 * dmaBatchSize := by
  intro t ht
  rcases List.mem_append.mp ht with ht | ht
  · exact h.small t ht
  · have hupper := h.upper
    rw [List.mem_singleton.mp ht, h.tenure, List.length_map, List.length_range']
    unfold dmaBatchSize at hupper ⊢
    omega

lemma OnBus.abort {c : Call} {b k : ℕ} {got : List Byte} {s : Engine} (h : OnBus c b k got s)
    {w : Wait} (hw : ¬ w.Releases) : Failed (s.card.logTimeout w).disable :=
  ⟨h.small_disable, w, List.mem_append_right _ (List.mem_singleton_self w), hw⟩

/-- A wait during the batch. -/
lemma pollUntil_onBus {c : Call} {b k : ℕ} {got : List Byte} {ready : Engine → Bool} {wait : Wait}
    {R : Sm → Prop} (hR : Monotone R) (hready : ∀ s, ready s = true → R s.card.sm)
    (hwait : ¬ wait.Releases) :
    Outline (onBus c b k got) (pollUntil ready wait)
      (fun now => if now then busPoint c b k got R hR else abortPoint) :=
  pollUntil_outline (fun s hs hnow => ⟨hs.1, hs.2.1, hready s hnow, hs.2.2.2⟩) fun _ hs =>
    ⟨hs.1.enabled, hs.1.abort hwait, hs.2.2.2⟩

def hasRoom (sm : Sm) : Prop := sm.tx.length < fifoDepth

lemma hasRoom_monotone : Monotone hasRoom :=
  ⟨fun _ _ htx _ h => Nat.lt_of_le_of_lt htx.length_le h⟩

def hasWord (sm : Sm) : Prop := sm.rx ≠ []

lemma hasWord_monotone : Monotone hasWord :=
  ⟨fun _ _ _ hrx h hempty => h (List.prefix_nil.mp (hempty ▸ hrx))⟩

lemma Aligned.put {c : Call} {k : ℕ} {got : List Byte} {s : Engine} (h : Aligned c k got s)
    (hroom : hasRoom s.card.sm) :
    Aligned c (k + 1) got { s with card := s.card.put (c.word k) } := by
  obtain ⟨p, hpk, htx, hat⟩ := h.position
  have hput : s.card.put (c.word k) = { s.card with
      sm := { s.card.sm with tx := s.card.sm.tx ++ [c.word k] }
      tenure := s.card.tenure ++ [c.word k] } := if_pos hroom
  rw [hput]
  refine ⟨h.shapes, ⟨p, Nat.le_succ_of_le hpk, ?_, hat⟩, h.bytes⟩
  show s.card.sm.tx ++ [c.word k] = _
  rw [htx, Nat.succ_sub hpk, List.range'_concat, List.map_append, List.map_singleton]
  congr 3
  omega

lemma OnBus.put {c : Call} {b k : ℕ} {got : List Byte} {s : Engine} (h : OnBus c b k got s)
    (hroom : hasRoom s.card.sm) (hk : k < 2 * (dmaBatchSize * (b + 1))) :
    OnBus c b (k + 1) got { s with card := s.card.put (c.word k) } := by
  have hput : s.card.put (c.word k) = { s.card with
      sm := { s.card.sm with tx := s.card.sm.tx ++ [c.word k] }
      tenure := s.card.tenure ++ [c.word k] } := if_pos hroom
  have haligned := h.aligned
  refine ⟨by rw [hput]; exact h.enabled, by rw [hput]; exact h.strobes, by rw [hput]; exact h.hold,
    by rw [hput]; exact h.granted, by rw [hput]; exact h.small, by rw [hput]; exact h.words, ?_,
    Nat.le_succ_of_le h.lower, hk, by rw [hput]; exact h.timeouts, by rw [hput]; exact h.resumes, ?_⟩
  · rw [hput]
    show s.card.tenure ++ [c.word k] = _
    have hlower := h.lower
    rw [h.tenure, Nat.succ_sub hlower, List.range'_concat, List.map_append, List.map_singleton]
    congr 3
    omega
  · intro hclean
    have hresumes : (s.card.put (c.word k)).resumes = s.card.resumes := by rw [hput]
    exact (haligned fun pc hpc => hclean pc (hresumes ▸ hpc)).put hroom

lemma put_history (card : Card) (word : Word) : (card.put word).history = card.history := by
  unfold Card.put
  split <;> rfl

lemma pioSmPutTimeout_outline {c : Call} {b k : ℕ} {got : List Byte}
    (hk : k < 2 * (dmaBatchSize * (b + 1))) :
    Outline (onBus c b k got) (pioSmPutTimeout (c.word k))
      (fun ok => if ok then onBus c b (k + 1) got else abortPoint) := by
  refine Script.Triple.bind (pollUntil_onBus hasRoom_monotone
    (fun s h => (of_decide_eq_true h : s.card.sm.tx.length < fifoDepth)) id)
    fun room => ?_
  cases room with
  | false => exact Script.Triple.ret fun _ h => h
  | true =>
    refine Script.Triple.bind (m := fun _ => onBus c b (k + 1) got)
      (Script.Triple.modify (fun s hs _ => ⟨hs.1.hold, hs.1.granted⟩) fun s hs =>
        ⟨hs.1.put hs.2.2.1 hk, hs.2.1, trivial, ?_⟩) fun _ => Script.Triple.ret fun _ h => h
    show ∀ e ∈ (s.card.put (c.word k)).history, _
    rw [put_history]
    exact hs.2.2.2

lemma OnBus.get {c : Call} {b k : ℕ} {got : List Byte} {s : Engine} (h : OnBus c b k got s)
    (hrx : hasWord s.card.sm) :
    OnBus c b k (got ++ [(s.card.sm.rx.headD 0).setWidth 8]) { s with card := { s.card with
      sm := { s.card.sm with rx := s.card.sm.rx.tail } } } := by
  refine ⟨h.enabled, h.strobes, h.hold, h.granted, h.small, h.words, h.tenure, h.lower, h.upper,
    h.timeouts, h.resumes, fun hclean => ?_⟩
  have halign := h.aligned hclean
  refine ⟨halign.shapes, halign.position, fun hread => (halign.bytes hread).trans ?_⟩
  cases hcons : s.card.sm.rx with
  | nil => exact absurd hcons hrx
  | cons w rest =>
    show got ++ (w.setWidth 8 :: rest.map fun w : Word => w.setWidth 8) ++ s.inFlight =
      (got ++ [w.setWidth 8]) ++ (rest.map fun w : Word => w.setWidth 8) ++ s.inFlight
    rw [List.append_assoc got [_], List.singleton_append]

lemma pioSmGetTimeout_outline {c : Call} {b k : ℕ} {got : List Byte} :
    Outline (onBus c b k got) pioSmGetTimeout (fun r => match r with
      | some word => onBus c b k (got ++ [word.setWidth 8])
      | none => abortPoint) := by
  refine Script.Triple.bind (pollUntil_onBus hasWord_monotone
    (fun s h => (of_decide_eq_true h : s.card.sm.rx ≠ [])) id)
    fun present => ?_
  cases present with
  | false => exact Script.Triple.ret fun _ h => h
  | true =>
    refine Script.Triple.bind (m := fun word => onBus c b k (got ++ [word.setWidth 8]))
      (Script.Triple.act (fun s _ hlt => absurd hlt (Nat.lt_irrefl _)) fun s hs =>
        ⟨hs.1.get hs.2.2.1, hs.2.1, trivial, hs.2.2.2⟩) fun _ => Script.Triple.ret fun _ h => h

/-- The state machine has taken all words of a batch and waits for the next. -/
def restPoint (c : Call) (n : ℕ) (got : List Byte) : EnginePoint where
  holds s := s.card.sm.Starved dmaMaster ∧ Books c n got s.card.disable ∧ Kept s
  stable s s' h hs := by
    have haffects := affects_of_rely hs
    cases haffects with
    | pio _ _ sm _ hstep =>
      rw [h.1.stalls] at hstep
      cases hstep
    | outside => exact h
  safe _ h := h.2.2

lemma starved_pc {sm : Sm} (hlt : sm.pc < 28) (h : sm.Starved dmaMaster) : sm.pc = 0 ∨ sm.pc = 5 := by
  have hall : ∀ pc < 28, (dmaMaster.code[pc]?).map Prod.fst = some .pull → pc = 0 ∨ pc = 5 := by decide
  exact hall sm.pc hlt h.1

/-- With every word taken in pairs, the last cycle is over. -/
lemma Aligned.rested {c : Call} {n : ℕ} {got : List Byte} {s : Engine} (h : Aligned c (2 * n) got s)
    (hstarved : s.card.sm.Starved dmaMaster) (hgot : c.write = false → got.length = n) :
    s.card.cycles.map BusCycle.shape = (List.range n).map (fun i => (c.write, c.addr i, c.driven i)) ∧
      (c.write = false → s.card.cycles.map BusCycle.byte = got) ∧ s.card.sm.pc = 0 := by
  obtain ⟨p, hpk, htx, hat⟩ := h.position
  have hp : p = 2 * n := by
    have hlen := congrArg List.length htx
    rw [hstarved.2, List.length_map, List.length_range', List.length_nil] at hlen
    omega
  have hpc : s.card.sm.pc = 0 ∧ s.card.cycles.length = n := by
    unfold Call.At at hat
    rcases starved_pc h.position.choose_spec.2.2.pc_lt hstarved with hpc | hpc
    · rw [hpc] at hat
      exact ⟨hpc, by have := hat.1; omega⟩
    · rw [hpc] at hat
      have := hat.1
      omega
  refine ⟨hpc.2 ▸ h.shapes, fun hread => ?_, hpc.1⟩
  have hbytes := h.bytes hread
  have hlen := congrArg List.length hbytes
  simp only [List.length_map, List.length_append, hgot hread, hpc.2] at hlen
  have hrx : s.card.sm.rx.map (fun w : Word => w.setWidth 8) = [] :=
    List.eq_nil_of_length_eq_zero (by rw [List.length_map]; omega)
  have hflight : s.inFlight = [] := List.eq_nil_of_length_eq_zero (by omega)
  rw [hbytes, hrx, hflight, List.append_nil, List.append_nil]

lemma OnBus.rested {c : Call} {b n : ℕ} {got : List Byte} {s : Engine} (h : OnBus c b (2 * n) got s)
    (hstarved : s.card.sm.Starved dmaMaster) (hgot : c.write = false → got.length = n) :
    Books c n got s.card.disable := by
  refine ⟨h.small_disable, ?_, h.timeouts, fun hfresh => absurd hfresh h.resumes, fun hclean => ?_⟩
  · show (s.card.tenures ++ [s.card.tenure]).flatten = _
    have hlower := h.lower
    have happend := List.range'_append_1 (s := 0) (m := 2 * (dmaBatchSize * b))
      (n := 2 * n - 2 * (dmaBatchSize * b))
    rw [Nat.zero_add, Nat.add_sub_cancel' hlower] at happend
    rw [List.flatten_append, List.flatten_singleton, h.words, h.tenure, ← List.map_append,
      List.range_eq_range', List.range_eq_range', happend]
  · obtain ⟨hshapes, hbytes, hpc⟩ := (h.aligned hclean).rested hstarved hgot
    exact ⟨hshapes, hbytes, fun _ => hpc⟩

lemma settle_outline {c : Call} {b n : ℕ} {got : List Byte} (hgot : c.write = false → got.length = n) :
    Outline (onBus c b (2 * n) got) settle (fun _ => restPoint c n got) := by
  refine Script.Triple.iterate (fun _ => onBus c b (2 * n) got) () fun _ => ?_
  refine Script.Triple.bind
    (m := fun rested => if rested then restPoint c n got else onBus c b (2 * n) got) ?_ fun rested => ?_
  · refine Script.Triple.read pushesOwned_refl fun s hs => ?_
    by_cases hstarved : s.card.sm.Starved dmaMaster
    · rw [if_pos (decide_eq_true hstarved)]
      exact ⟨hstarved, hs.1.rested hstarved hgot, hs.2.2.2⟩
    · rw [if_neg (by rw [decide_eq_true_eq]; exact hstarved)]
      exact hs
  · cases rested with
    | true => exact Script.Triple.ret fun _ h => h
    | false => exact Script.Triple.ret fun _ h => h

lemma releaseDmaMaster_outline {c : Call} {n : ℕ} {got : List Byte} :
    Outline (restPoint c n got) releaseDmaMaster
      (fun _ => offPoint (fun card => Books c n got card ∧ Idle card) false) :=
  restoreRegisterBusAfterDma_outline (books_recorded c n got)
    (fun _ h => ⟨h.1, h.2.1.same rfl rfl rfl rfl rfl, h.2.2⟩) fun _ h => h.2.1

lemma abortDmaTransfer_outline :
    Outline abortPoint abortDmaTransfer (fun _ => offPoint (fun card => Failed card ∧ Idle card) false) :=
  restoreRegisterBusAfterDma_outline failed_recorded (fun _ h => ⟨h.1, ⟨h.2.1.small, h.2.1.timeouts⟩, h.2.2⟩)
    fun _ h => h.2.1

end PicoV9k.Dma
