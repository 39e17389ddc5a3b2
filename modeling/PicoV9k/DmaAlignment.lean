import PicoV9k.DmaEngine

/-!
# The state machine against the words of a call

The words of a call form a stream, two for each byte. `Call.At` says what the
state machine holds at each instruction when it takes this stream two words at a
time; while it does, every bus cycle is the next one of the call.
-/
namespace PicoV9k.Dma
open PicoV9k.Bus PicoV9k.Pio PicoV9k.Scripts

def Call.byte (c : Call) : ℕ → Byte := c.data.getD fun _ => 0

/-- `(start + i) mod 2^20`. -/
def Call.addr (c : Call) (i : ℕ) : BitVec 20 := BitVec.ofNat 20 (c.start.toNat + i)

/-- The twenty lines when the strobe falls: a write has its byte on the low eight. -/
def Call.driven (c : Call) (i : ℕ) : BitVec 20 :=
  if c.write then (c.addr i &&& 0xFFF00) ||| (c.byte i).setWidth 20 else c.addr i

/-- The cycle for one byte. -/
def Call.cycle (c : Call) (i : ℕ) (byte : Byte) : BusCycle :=
  if c.write then .write (c.addr i) (c.driven i) else .read (c.addr i) (c.driven i) byte

/-- The word number `j` of the call. -/
def Call.word (c : Call) (j : ℕ) : Word :=
  let addr := victorAddr c.start (j / 2)
  if j % 2 = 0 then fifoT1 addr c.write
  else if c.write then fifoT2Write addr (c.byte (j / 2)) else fifoT2Read

lemma Call.word_even (c : Call) (i : ℕ) : c.word (2 * i) = fifoT1 (victorAddr c.start i) c.write := by
  simp [Call.word]

lemma Call.word_odd (c : Call) (i : ℕ) : c.word (2 * i + 1) =
    if c.write then fifoT2Write (victorAddr c.start i) (c.byte i) else fifoT2Read := by
  have hdiv : (2 * i + 1) / 2 = i := by omega
  simp [Call.word, hdiv]

lemma mask20_getLsbD {j : ℕ} (hj : j < 20) : (0xFFFFF : Word).getLsbD j = true := by
  interval_cases j <;> decide

lemma maskHigh_getLsbD {j : ℕ} (hj : j < 20) :
    (0xFFF00 : Word).getLsbD j = (0xFFF00 : BitVec 20).getLsbD j := by
  interval_cases j <;> decide

lemma victorAddr_low (start : Word) (i : ℕ) :
    (victorAddr start i).setWidth 20 = BitVec.ofNat 20 (start.toNat + i) := by
  have hmask : ∀ w : Word, (w &&& 0xFFFFF).setWidth 20 = w.setWidth 20 := by
    intro w
    apply BitVec.eq_of_getLsbD_eq
    intro j hj
    simp only [BitVec.getLsbD_setWidth, BitVec.getLsbD_and, mask20_getLsbD hj, Bool.and_true]
  rw [victorAddr, hmask]
  apply BitVec.eq_of_toNat_eq
  simp only [BitVec.toNat_setWidth, BitVec.toNat_add, BitVec.toNat_ofNat]
  omega

lemma fifoT1_flag (addr : Word) (write : Bool) : low 1 (fifoT1 addr write) = 0 ↔ write = false := by
  have hbit : (low 1 (fifoT1 addr write)).getLsbD 0 = write := by
    rw [low_getLsbD, fifoT1, BitVec.getLsbD_or, BitVec.getLsbD_shiftLeft]
    cases write <;> simp
  constructor
  · intro h
    rw [h] at hbit
    rw [← hbit]
    rfl
  · intro h
    apply BitVec.eq_of_getLsbD_eq
    intro j hj
    rw [low_getLsbD]
    rw [low_getLsbD] at hbit
    cases j with
    | zero =>
      rw [hbit, h]
      rfl
    | succ j => simp

lemma fifoT1_addr (addr : Word) (write : Bool) :
    (low 20 (fifoT1 addr write >>> 1)).setWidth 20 = addr.setWidth 20 := by
  apply BitVec.eq_of_getLsbD_eq
  intro j hj
  have hflag : (if write then (1 : Word) else 0).getLsbD (1 + j) = false := by
    cases write with
    | false => simp
    | true => simp
  simp only [BitVec.getLsbD_setWidth, low_getLsbD, BitVec.getLsbD_ushiftRight, fifoT1,
    BitVec.getLsbD_or, BitVec.getLsbD_shiftLeft, BitVec.getLsbD_and, hflag, Bool.or_false]
  rw [show 1 + j - 1 = j by omega, mask20_getLsbD hj]
  simp [hj, show 1 + j < 32 by omega]

lemma fifoT2_driven (addr : Word) (byte : Byte) : (low 20 (fifoT2Write addr byte)).setWidth 20 =
    (addr.setWidth 20 &&& 0xFFF00) ||| byte.setWidth 20 := by
  apply BitVec.eq_of_getLsbD_eq
  intro j hj
  simp only [BitVec.getLsbD_setWidth, low_getLsbD, fifoT2Write, BitVec.getLsbD_or,
    BitVec.getLsbD_and, maskHigh_getLsbD hj]
  simp [hj, show j < 32 by omega]

/-- RD/ and WR/ are inactive. -/
def Quiet (sm : Sm) : Prop := sm.setPins.getLsbD rdBit = true ∧ sm.setPins.getLsbD wrBit = true

/-- What the state machine holds at its instruction after `m` cycles and `p` words of the call, up
to the strobe of the next cycle. Behind the strobe only the byte of a read is still to come. -/
def Call.At (c : Call) (m p : ℕ) (latch : BitVec 20) (sm : Sm) : Prop :=
  match sm.pc with
  | 0 => p = 2 * m ∧ Quiet sm
  | 1 => p = 2 * m + 1 ∧ Quiet sm ∧ sm.osr = c.word (2 * m)
  | 2 | 3 => p = 2 * m + 1 ∧ Quiet sm ∧ (sm.x = 0 ↔ c.write = false) ∧ sm.osr = c.word (2 * m) >>> 1
  | 4 | 5 => p = 2 * m + 1 ∧ Quiet sm ∧ (sm.x = 0 ↔ c.write = false) ∧ sm.outPins.setWidth 20 = c.addr m
  | 6 | 7 | 8 => p = 2 * m + 2 ∧ Quiet sm ∧ (sm.x = 0 ↔ c.write = false) ∧
      sm.outPins.setWidth 20 = c.addr m ∧ sm.osr = c.word (2 * m + 1)
  | 9 | 10 | 11 => p = 2 * m + 2 ∧ Quiet sm ∧ (sm.x = 0 ↔ c.write = false) ∧
      sm.outPins.setWidth 20 = c.addr m ∧ sm.osr = c.word (2 * m + 1) ∧ latch = c.addr m
  | 12 | 13 => p = 2 * m + 2 ∧ Quiet sm ∧ (sm.x = 0 ↔ c.write = false) ∧
      sm.outPins.setWidth 20 = c.addr m ∧ sm.osr = c.word (2 * m + 1) ∧ latch = c.addr m ∧
      sm.setPins.getLsbD aleBit = false
  | 14 => p = 2 * m + 2 ∧ Quiet sm ∧ c.write = true ∧ sm.osr = c.word (2 * m + 1) ∧ latch = c.addr m ∧
      sm.setPins.getLsbD aleBit = false
  | 15 => p = 2 * m + 2 ∧ Quiet sm ∧ c.write = true ∧ sm.outPins.setWidth 20 = c.driven m ∧
      latch = c.addr m
  | 21 => p = 2 * m + 2 ∧ Quiet sm ∧ c.write = false ∧ sm.outPins.setWidth 20 = c.addr m ∧
      latch = c.addr m
  | 16 | 17 | 18 | 19 | 20 | 27 => p = 2 * m
  | 22 | 23 | 24 | 25 | 26 => p = 2 * m ∧
      (c.write = false → sm.setPins.getLsbD rdBit = false ∧ sm.setPins.getLsbD aleBit = false)
  | _ => False

def BusCycle.shape : BusCycle → Bool × BitVec 20 × BitVec 20
  | .write latched driven => (true, latched, driven)
  | .read latched driven _ => (false, latched, driven)

def BusCycle.byte : BusCycle → Byte
  | .write _ driven => driven.setWidth 8
  | .read _ _ byte => byte

/-- The byte of a read whose strobe has fallen and that is not in the FIFO yet. -/
def Engine.inFlight (s : Engine) : List Byte :=
  if 22 ≤ s.card.sm.pc ∧ s.card.sm.pc ≤ 26 then [s.ram s.card.latch] else []

/-- After `k` words of the call, of which `got` bytes were fetched, the bus saw the next cycles of
the call, and the state machine and the FIFOs hold the rest. -/
structure Aligned (c : Call) (k : ℕ) (got : List Byte) (s : Engine) : Prop where
  shapes : s.card.cycles.map BusCycle.shape =
    (List.range s.card.cycles.length).map fun i => (c.write, c.addr i, c.driven i)
  position : ∃ p ≤ k, s.card.sm.tx = (List.range' p (k - p)).map c.word ∧
    c.At s.card.cycles.length p s.card.latch s.card.sm
  bytes : c.write = false →
    s.card.cycles.map BusCycle.byte = got ++ s.card.sm.rx.map (·.setWidth 8) ++ s.inFlight

lemma Call.At.pc_lt {c : Call} {m p : ℕ} {latch : BitVec 20} {sm : Sm} (h : c.At m p latch sm) :
    sm.pc < 28 := by
  by_contra hlt
  unfold Call.At at h
  split at h <;> omega

lemma fell_of_high {bit : ℕ} {before after : Word} (h : after.getLsbD bit = true) :
    fell bit before after = false := by
  simp only [fell, h, Bool.not_true, Bool.and_false]

lemma fell_of_low {bit : ℕ} {before after : Word} (hbefore : before.getLsbD bit = true)
    (hafter : after.getLsbD bit = false) : fell bit before after = true := by
  simp only [fell, hbefore, hafter, Bool.not_false, Bool.and_true]

lemma fell_same {bit : ℕ} (w : Word) : fell bit w w = false := by
  cases hbit : w.getLsbD bit <;> simp [fell, hbit]

/-- A step under which no strobe falls. -/
lemma Engine.drive_silent {s : Engine} {sm : Sm} (hstrobes : s.card.strobes = true)
    (hwr : fell wrBit s.card.sm.setPins sm.setPins = false)
    (hrd : fell rdBit s.card.sm.setPins sm.setPins = false) :
    s.drive sm = { s with card := { s.card with
      sm := sm
      latch := if sm.setPins.getLsbD aleBit then sm.outPins.setWidth 20 else s.card.latch } } := by
  simp [Engine.drive, hstrobes, hwr, hrd]

/-- A step under which no strobe falls and nothing is received. -/
lemma Aligned.silent {c : Call} {k : ℕ} {got : List Byte} {s : Engine} {sm : Sm} (h : Aligned c k got s)
    (hstrobes : s.card.strobes = true) (hwr : fell wrBit s.card.sm.setPins sm.setPins = false)
    (hrd : fell rdBit s.card.sm.setPins sm.setPins = false) (hrx : sm.rx = s.card.sm.rx)
    (hflight : (22 ≤ sm.pc ∧ sm.pc ≤ 26) ↔ (22 ≤ s.card.sm.pc ∧ s.card.sm.pc ≤ 26))
    (hale : c.write = false → 22 ≤ sm.pc ∧ sm.pc ≤ 26 → sm.setPins.getLsbD aleBit = false)
    (hpos : ∃ p ≤ k, sm.tx = (List.range' p (k - p)).map c.word ∧ c.At s.card.cycles.length p
      (if sm.setPins.getLsbD aleBit then sm.outPins.setWidth 20 else s.card.latch) sm) :
    Aligned c k got (s.drive sm) := by
  rw [Engine.drive_silent hstrobes hwr hrd]
  refine ⟨h.shapes, hpos, fun hread => ?_⟩
  refine (h.bytes hread).trans ?_
  show _ = got ++ sm.rx.map _ ++ _
  rw [hrx]
  congr 1
  simp only [Engine.inFlight, hflight]
  by_cases hin : 22 ≤ s.card.sm.pc ∧ s.card.sm.pc ≤ 26
  · rw [if_pos hin, if_pos hin, hale hread (hflight.mpr hin)]
    rfl
  · rw [if_neg hin, if_neg hin]

/-- A step that leaves the strobes alone and that a fallen read strobe does not wait behind. -/
lemma Aligned.ahead {c : Call} {k : ℕ} {got : List Byte} {s : Engine} {sm : Sm} (h : Aligned c k got s)
    (hstrobes : s.card.strobes = true) (hset : sm.setPins = s.card.sm.setPins)
    (hrx : sm.rx = s.card.sm.rx) (hbefore : ¬ (22 ≤ s.card.sm.pc ∧ s.card.sm.pc ≤ 26))
    (hafter : ¬ (22 ≤ sm.pc ∧ sm.pc ≤ 26))
    (hpos : ∃ p ≤ k, sm.tx = (List.range' p (k - p)).map c.word ∧ c.At s.card.cycles.length p
      (if sm.setPins.getLsbD aleBit then sm.outPins.setWidth 20 else s.card.latch) sm) :
    Aligned c k got (s.drive sm) := by
  have hsame : ∀ bit, fell bit s.card.sm.setPins sm.setPins = false := by
    intro bit
    rw [hset]
    exact fell_same _
  apply h.silent hstrobes (hsame _) (hsame _) hrx _ _ hpos
  · exact iff_of_false hafter hbefore
  · intro _ hin
    exact absurd hin hafter

lemma step_wait {inputs : Inputs} {sm sm' : Sm} {level : Bool} {gpio : ℕ}
    (hline : dmaMaster.code[sm.pc]? = some (.wait level gpio, 0))
    (hstep : sm.step dmaMaster inputs = some sm') : sm' = sm.advance dmaMaster := by
  rw [Sm.step_eq hline] at hstep
  exact (Option.some.inj (Option.ite_none_right_eq_some.mp hstep).2).symm

/-- The next word of the stream leaves the FIFO. -/
lemma stream_pull {c : Call} {p k : ℕ} {w : Word} {rest : List Word}
    (h : w :: rest = (List.range' p (k - p)).map c.word) :
    p + 1 ≤ k ∧ w = c.word p ∧ rest = (List.range' (p + 1) (k - (p + 1))).map c.word := by
  obtain ⟨n, hn⟩ : ∃ n, k - p = n + 1 := by
    cases hk : k - p with
    | zero =>
      rw [hk] at h
      cases h
    | succ n => exact ⟨n, rfl⟩
  rw [hn, List.range'_succ, List.map_cons] at h
  injection h with hw hrest
  refine ⟨by omega, hw, ?_⟩
  rw [hrest, show k - (p + 1) = n by omega]

lemma step_pull {inputs : Inputs} {sm sm' : Sm} (hline : dmaMaster.code[sm.pc]? = some (.pull, 0))
    (hstep : sm.step dmaMaster inputs = some sm') :
    ∃ w tx, sm.tx = w :: tx ∧ sm' = { sm with osr := w, tx := tx }.advance dmaMaster := by
  rw [Sm.step_eq hline] at hstep
  simp only [Sm.exec] at hstep
  split at hstep
  · cases hstep
  next w tx htx => exact ⟨w, tx, htx, (Option.some.inj hstep).symm⟩

lemma low8_pushed (isr : Word) (byte : Byte) :
    (dmaMaster.shifted isr (byte.setWidth 32) 8).setWidth 8 = byte := by
  apply BitVec.eq_of_getLsbD_eq
  intro j hj
  simp only [Program.shifted, dmaMaster, Bool.false_eq_true, if_false, BitVec.getLsbD_setWidth,
    BitVec.getLsbD_or, BitVec.getLsbD_shiftLeft, low_getLsbD]
  simp [hj, show j < 32 by omega]

lemma Engine.drive_write {s : Engine} {sm : Sm} (hstrobes : s.card.strobes = true)
    (hwr : fell wrBit s.card.sm.setPins sm.setPins = true)
    (hrd : fell rdBit s.card.sm.setPins sm.setPins = false) (hale : sm.setPins.getLsbD aleBit = false) :
    (s.drive sm).card = { s.card with
      sm := sm, cycles := s.card.cycles ++ [.write s.card.latch (sm.outPins.setWidth 20)] } := by
  simp [Engine.drive, hstrobes, hwr, hrd, hale]

lemma Engine.drive_read {s : Engine} {sm : Sm} (hstrobes : s.card.strobes = true)
    (hwr : fell wrBit s.card.sm.setPins sm.setPins = false)
    (hrd : fell rdBit s.card.sm.setPins sm.setPins = true) (hale : sm.setPins.getLsbD aleBit = false) :
    s.drive sm = { s with card := { s.card with
      sm := sm
      cycles := s.card.cycles ++
        [.read s.card.latch (sm.outPins.setWidth 20) (s.ram s.card.latch)] } } := by
  simp [Engine.drive, hstrobes, hwr, hrd, hale]

/-- One more cycle of the call. -/
lemma shapes_snoc {c : Call} {cycles : List BusCycle} {cycle : BusCycle}
    (h : cycles.map BusCycle.shape =
      (List.range cycles.length).map fun i => (c.write, c.addr i, c.driven i))
    (hcycle : cycle.shape = (c.write, c.addr cycles.length, c.driven cycles.length)) :
    (cycles ++ [cycle]).map BusCycle.shape =
      (List.range (cycles ++ [cycle]).length).map fun i => (c.write, c.addr i, c.driven i) := by
  rw [List.map_append, h, List.length_append, List.length_singleton, List.range_succ, List.map_append,
    List.map_singleton, List.map_singleton, hcycle]

/-- The state machine takes the stream two words at a time. -/
lemma Aligned.pio {c : Call} {k : ℕ} {got : List Byte} {s : Engine} {noise : Byte} {gpio : ℕ → Bool}
    {sm : Sm} (h : Aligned c k got s) (hstrobes : s.card.strobes = true)
    (hstep : s.card.sm.step dmaMaster ⟨(s.dataLines noise).setWidth 32, gpio⟩ = some sm) :
    Aligned c k got (s.drive sm) := by
  obtain ⟨p, hpk, htx, hat⟩ := h.position
  have hlt := hat.pc_lt
  unfold Call.At at hat
  interval_cases hpc : s.card.sm.pc
  case «0» =>
    obtain ⟨w, tx, hw, rfl⟩ := step_pull (by rw [hpc]; rfl) hstep
    obtain ⟨hle, rfl, hrest⟩ := stream_pull (hw.symm.trans htx)
    refine h.ahead hstrobes rfl rfl (by omega) ?_ ⟨p + 1, hle, hrest, ?_⟩
    · simp [Sm.advance, hpc, Program.next, dmaMaster]
    · simp only [Call.At, Sm.advance, hpc, Program.next, dmaMaster]
      obtain ⟨rfl, hq⟩ := hat
      exact ⟨rfl, hq, rfl⟩
  case «1» =>
    rw [Sm.step_eq (show dmaMaster.code[s.card.sm.pc]? = some (.out .x 1, 0) by rw [hpc]; rfl)] at hstep
    cases hstep
    refine h.ahead hstrobes rfl rfl (by omega) ?_ ⟨p, hpk, htx, ?_⟩
    · simp [Sm.write, Sm.advance, hpc, Program.next, dmaMaster]
    · simp only [Call.At, Sm.write, Sm.advance, hpc, Program.next, dmaMaster]
      obtain ⟨hp, hq, hosr⟩ := hat
      refine ⟨hp, hq, ?_, by rw [hosr]⟩
      rw [hosr, Call.word_even]
      exact fifoT1_flag _ _
  case «2» =>
    rw [Sm.step_eq (show dmaMaster.code[s.card.sm.pc]? = some (.mov .pindirs true .null, 0) by rw [hpc]; rfl)] at hstep
    cases hstep
    refine h.ahead hstrobes rfl rfl (by omega) ?_ ⟨p, hpk, htx, ?_⟩
    · simp [Sm.write, Sm.advance, hpc, Program.next, dmaMaster]
    · simp only [Call.At, Sm.write, Sm.advance, hpc, Program.next, dmaMaster]
      exact hat
  case «3» =>
    rw [Sm.step_eq (show dmaMaster.code[s.card.sm.pc]? = some (.out .pins addressBusSize, 0) by rw [hpc]; rfl)] at hstep
    cases hstep
    refine h.ahead hstrobes rfl rfl (by omega) ?_ ⟨p, hpk, htx, ?_⟩
    · simp [Sm.write, Sm.advance, hpc, Program.next, dmaMaster]
    · simp only [Call.At, Sm.write, Sm.advance, hpc, Program.next, dmaMaster]
      obtain ⟨hp, hq, hx, hosr⟩ := hat
      refine ⟨hp, hq, hx, ?_⟩
      rw [hosr, Call.word_even, fifoT1_addr, victorAddr_low]
      rfl
  case «4» =>
    rw [Sm.step_eq (show dmaMaster.code[s.card.sm.pc]? = some (.mov .pindirs true .null, 0) by rw [hpc]; rfl)] at hstep
    cases hstep
    refine h.ahead hstrobes rfl rfl (by omega) ?_ ⟨p, hpk, htx, ?_⟩
    · simp [Sm.write, Sm.advance, hpc, Program.next, dmaMaster]
    · simp only [Call.At, Sm.write, Sm.advance, hpc, Program.next, dmaMaster]
      exact hat
  case «5» =>
    obtain ⟨w, tx, hw, rfl⟩ := step_pull (by rw [hpc]; rfl) hstep
    obtain ⟨hle, rfl, hrest⟩ := stream_pull (hw.symm.trans htx)
    refine h.ahead hstrobes rfl rfl (by omega) ?_ ⟨p + 1, hle, hrest, ?_⟩
    · simp [Sm.advance, hpc, Program.next, dmaMaster]
    · simp only [Call.At, Sm.advance, hpc, Program.next, dmaMaster]
      obtain ⟨rfl, hq, hx, hout⟩ := hat
      exact ⟨rfl, hq, hx, hout, rfl⟩
  case «6» =>
    obtain rfl := step_wait (by rw [hpc]; rfl) hstep
    refine h.ahead hstrobes rfl rfl (by omega) ?_ ⟨p, hpk, htx, ?_⟩
    · simp [Sm.advance, hpc, Program.next, dmaMaster]
    · simp only [Call.At, Sm.advance, hpc, Program.next, dmaMaster]
      exact hat
  case «7» =>
    obtain rfl := step_wait (by rw [hpc]; rfl) hstep
    refine h.ahead hstrobes rfl rfl (by omega) ?_ ⟨p, hpk, htx, ?_⟩
    · simp [Sm.advance, hpc, Program.next, dmaMaster]
    · simp only [Call.At, Sm.advance, hpc, Program.next, dmaMaster]
      exact hat
  case «8» =>
    rw [Sm.step_eq (show dmaMaster.code[s.card.sm.pc]? = some (.set .pins 0b1111, 0) by rw [hpc]; rfl)] at hstep
    cases hstep
    refine h.silent hstrobes (fell_of_high (show (0b1111 : Word).getLsbD wrBit = true by decide))
      (fell_of_high (show (0b1111 : Word).getLsbD rdBit = true by decide)) rfl ?_ ?_ ⟨p, hpk, htx, ?_⟩
    · simp [Sm.writeSet, Sm.advance, hpc, Program.next, dmaMaster]
    · simp [Sm.writeSet, Sm.advance, hpc, Program.next, dmaMaster]
    · simp only [Call.At, Sm.writeSet, Sm.advance, hpc, Program.next, dmaMaster]
      obtain ⟨hp, hq, hx, hout, hosr⟩ := hat
      exact ⟨hp, ⟨show (0b1111 : Word).getLsbD rdBit = true by decide,
        show (0b1111 : Word).getLsbD wrBit = true by decide⟩, hx, hout, hosr, hout⟩
  case «9» =>
    obtain rfl := step_wait (by rw [hpc]; rfl) hstep
    refine h.ahead hstrobes rfl rfl (by omega) ?_ ⟨p, hpk, htx, ?_⟩
    · simp [Sm.advance, hpc, Program.next, dmaMaster]
    · simp only [Call.At, Sm.advance, hpc, Program.next, dmaMaster]
      obtain ⟨hp, hq, hx, hout, hosr, hlatch⟩ := hat
      refine ⟨hp, hq, hx, hout, hosr, ?_⟩
      split
      · exact hout
      · exact hlatch
  case «10» =>
    obtain rfl := step_wait (by rw [hpc]; rfl) hstep
    refine h.ahead hstrobes rfl rfl (by omega) ?_ ⟨p, hpk, htx, ?_⟩
    · simp [Sm.advance, hpc, Program.next, dmaMaster]
    · simp only [Call.At, Sm.advance, hpc, Program.next, dmaMaster]
      obtain ⟨hp, hq, hx, hout, hosr, hlatch⟩ := hat
      refine ⟨hp, hq, hx, hout, hosr, ?_⟩
      split
      · exact hout
      · exact hlatch
  case «11» =>
    rw [Sm.step_eq (show dmaMaster.code[s.card.sm.pc]? = some (.set .pins 0b0111, 0) by rw [hpc]; rfl)] at hstep
    cases hstep
    refine h.silent hstrobes (fell_of_high (show (0b0111 : Word).getLsbD wrBit = true by decide))
      (fell_of_high (show (0b0111 : Word).getLsbD rdBit = true by decide)) rfl ?_ ?_ ⟨p, hpk, htx, ?_⟩
    · simp [Sm.writeSet, Sm.advance, hpc, Program.next, dmaMaster]
    · simp [Sm.writeSet, Sm.advance, hpc, Program.next, dmaMaster]
    · simp only [Call.At, Sm.writeSet, Sm.advance, hpc, Program.next, dmaMaster]
      obtain ⟨hp, hq, hx, hout, hosr, hlatch⟩ := hat
      exact ⟨hp, ⟨show (0b0111 : Word).getLsbD rdBit = true by decide,
        show (0b0111 : Word).getLsbD wrBit = true by decide⟩, hx, hout, hosr, hlatch,
        show (0b0111 : Word).getLsbD aleBit = false by decide⟩
  case «12» =>
    obtain rfl := step_wait (by rw [hpc]; rfl) hstep
    refine h.ahead hstrobes rfl rfl (by omega) ?_ ⟨p, hpk, htx, ?_⟩
    · simp [Sm.advance, hpc, Program.next, dmaMaster]
    · simp only [Call.At, Sm.advance, hpc, Program.next, dmaMaster]
      obtain ⟨hp, hq, hx, hout, hosr, hlatch, hale⟩ := hat
      refine ⟨hp, hq, hx, hout, hosr, ?_, hale⟩
      rw [hale]
      exact hlatch
  case «13» =>
    obtain ⟨hp, hq, hx, hout, hosr, hlatch, hale⟩ := hat
    rw [Sm.step_eq (show dmaMaster.code[s.card.sm.pc]? = some (.jmp .xZero 21, 0) by rw [hpc]; rfl)] at hstep
    by_cases hx0 : s.card.sm.x = 0
    · have hread := hx.mp hx0
      simp only [Sm.exec, Condition.holds, hx0, decide_true, if_true] at hstep
      cases hstep
      refine h.ahead hstrobes rfl rfl (by omega) ?_ ⟨p, hpk, htx, ?_⟩
      · simp
      · simp only [Call.At]
        exact ⟨hp, hq, hread, hout, by rw [hale]; exact hlatch⟩
    · have hwrite : c.write = true := by
        rw [← Bool.not_eq_false]
        exact fun hread => hx0 (hx.mpr hread)
      simp only [Sm.exec, Condition.holds, hx0, decide_false, Bool.false_eq_true, if_false] at hstep
      cases hstep
      refine h.ahead hstrobes rfl rfl (by omega) ?_ ⟨p, hpk, htx, ?_⟩
      · simp [Sm.advance, hpc, Program.next, dmaMaster]
      · simp only [Call.At, Sm.advance, hpc, Program.next, dmaMaster]
        exact ⟨hp, hq, hwrite, hosr, by rw [hale]; exact hlatch, hale⟩
  case «14» =>
    rw [Sm.step_eq (show dmaMaster.code[s.card.sm.pc]? = some (.out .pins addressBusSize, 0) by rw [hpc]; rfl)] at hstep
    cases hstep
    refine h.ahead hstrobes rfl rfl (by omega) ?_ ⟨p, hpk, htx, ?_⟩
    · simp [Sm.write, Sm.advance, hpc, Program.next, dmaMaster]
    · simp only [Call.At, Sm.write, Sm.advance, hpc, Program.next, dmaMaster]
      obtain ⟨hp, hq, hwrite, hosr, hlatch, hale⟩ := hat
      refine ⟨hp, hq, hwrite, ?_, by rw [hale]; exact hlatch⟩
      rw [hosr, Call.word_odd, if_pos hwrite, fifoT2_driven, victorAddr_low, Call.driven, if_pos hwrite]
      rfl
  case «15» =>
    -- WR/ falls
    obtain ⟨hp, hq, hwrite, hout, hlatch⟩ := hat
    rw [Sm.step_eq (show dmaMaster.code[s.card.sm.pc]? = some (.set .pins 0b0101, 0) by rw [hpc]; rfl)] at hstep
    cases hstep
    have hdrive : (s.drive ((s.card.sm.writeSet 0b0101 .pins).advance dmaMaster)).card = _ :=
      Engine.drive_write hstrobes (fell_of_low hq.2 (show (0b0101 : Word).getLsbD wrBit = false by decide))
      (fell_of_high (show (0b0101 : Word).getLsbD rdBit = true by decide))
      (show (0b0101 : Word).getLsbD aleBit = false by decide)
    refine ⟨?_, ⟨p, hpk, ?_, ?_⟩, fun hread => absurd (hwrite.symm.trans hread) (by decide)⟩
    · rw [hdrive]
      refine shapes_snoc h.shapes ?_
      rw [hwrite, ← hlatch, ← hout]
      rfl
    · rw [hdrive]
      exact htx
    · rw [hdrive]
      simp only [Call.At, Sm.writeSet, Sm.advance, hpc, Program.next, dmaMaster, List.length_append,
        List.length_singleton]
      exact hp
  case «16» =>
    obtain rfl := step_wait (by rw [hpc]; rfl) hstep
    refine h.ahead hstrobes rfl rfl (by omega) ?_ ⟨p, hpk, htx, ?_⟩
    · simp [Sm.advance, hpc, Program.next, dmaMaster]
    · simp only [Call.At, Sm.advance, hpc, Program.next, dmaMaster]
      exact hat
  case «17» =>
    obtain rfl := step_wait (by rw [hpc]; rfl) hstep
    refine h.ahead hstrobes rfl rfl (by omega) ?_ ⟨p, hpk, htx, ?_⟩
    · simp [Sm.advance, hpc, Program.next, dmaMaster]
    · simp only [Call.At, Sm.advance, hpc, Program.next, dmaMaster]
      exact hat
  case «18» =>
    obtain rfl := step_wait (by rw [hpc]; rfl) hstep
    refine h.ahead hstrobes rfl rfl (by omega) ?_ ⟨p, hpk, htx, ?_⟩
    · simp [Sm.advance, hpc, Program.next, dmaMaster]
    · simp only [Call.At, Sm.advance, hpc, Program.next, dmaMaster]
      exact hat
  case «19» =>
    obtain rfl := step_wait (by rw [hpc]; rfl) hstep
    refine h.ahead hstrobes rfl rfl (by omega) ?_ ⟨p, hpk, htx, ?_⟩
    · simp [Sm.advance, hpc, Program.next, dmaMaster]
    · simp only [Call.At, Sm.advance, hpc, Program.next, dmaMaster]
      exact hat
  case «20» =>
    rw [Sm.step_eq (show dmaMaster.code[s.card.sm.pc]? = some (.set .pins 0b0111, 0) by rw [hpc]; rfl)] at hstep
    cases hstep
    refine h.silent hstrobes (fell_of_high (show (0b0111 : Word).getLsbD wrBit = true by decide))
      (fell_of_high (show (0b0111 : Word).getLsbD rdBit = true by decide)) rfl ?_ ?_ ⟨p, hpk, htx, ?_⟩
    · simp [Sm.writeSet, Sm.advance, hpc, Program.next, dmaMaster]
    · simp [Sm.writeSet, Sm.advance, hpc, Program.next, dmaMaster]
    · simp only [Call.At, Sm.writeSet, Sm.advance, hpc, Program.next, dmaMaster]
      exact ⟨hat, show (0b0111 : Word).getLsbD rdBit = true by decide,
        show (0b0111 : Word).getLsbD wrBit = true by decide⟩
  case «21» =>
    -- RD/ falls
    obtain ⟨hp, hq, hread, hout, hlatch⟩ := hat
    rw [Sm.step_eq (show dmaMaster.code[s.card.sm.pc]? = some (.set .pins 0b0010, 0) by rw [hpc]; rfl)] at hstep
    cases hstep
    have hdrive : s.drive ((s.card.sm.writeSet 0b0010 .pins).advance dmaMaster) = _ :=
      Engine.drive_read hstrobes (fell_of_high (show (0b0010 : Word).getLsbD wrBit = true by decide))
      (fell_of_low hq.1 (show (0b0010 : Word).getLsbD rdBit = false by decide))
      (show (0b0010 : Word).getLsbD aleBit = false by decide)
    rw [hdrive]
    refine ⟨?_, ⟨p, hpk, htx, ?_⟩, fun _ => ?_⟩
    · refine shapes_snoc h.shapes ?_
      rw [Call.driven, hread, if_neg Bool.false_ne_true, ← hlatch]
      show (false, s.card.latch, s.card.sm.outPins.setWidth 20) = _
      rw [hout, hlatch]
    · simp only [Call.At, Sm.writeSet, Sm.advance, hpc, Program.next, dmaMaster, List.length_append,
        List.length_singleton]
      exact ⟨hp, fun _ => ⟨show (0b0010 : Word).getLsbD rdBit = false by decide,
        show (0b0010 : Word).getLsbD aleBit = false by decide⟩⟩
    · have hbytes := h.bytes hread
      simp only [Engine.inFlight, hpc] at hbytes
      rw [List.map_append, hbytes]
      simp [Engine.inFlight, Sm.writeSet, Sm.advance, hpc, Program.next, dmaMaster, BusCycle.byte]
  case «22» =>
    rw [Sm.step_eq (show dmaMaster.code[s.card.sm.pc]? = some (.out .pindirs addressBusSize, 0) by
      rw [hpc]; rfl)] at hstep
    cases hstep
    refine h.silent hstrobes (fell_same _) (fell_same _) rfl ?_ (fun hread _ => (hat.2 hread).2)
      ⟨p, hpk, htx, ?_⟩
    · simp [Sm.write, Sm.advance, hpc, Program.next, dmaMaster]
    · simp only [Call.At, Sm.write, Sm.advance, hpc, Program.next, dmaMaster]
      exact hat
  case «23» =>
    obtain rfl := step_wait (by rw [hpc]; rfl) hstep
    refine h.silent hstrobes (fell_same _) (fell_same _) rfl ?_ (fun hread _ => (hat.2 hread).2)
      ⟨p, hpk, htx, ?_⟩
    · simp [Sm.advance, hpc, Program.next, dmaMaster]
    · simp only [Call.At, Sm.advance, hpc, Program.next, dmaMaster]
      exact hat
  case «24» =>
    obtain rfl := step_wait (by rw [hpc]; rfl) hstep
    refine h.silent hstrobes (fell_same _) (fell_same _) rfl ?_ (fun hread _ => (hat.2 hread).2)
      ⟨p, hpk, htx, ?_⟩
    · simp [Sm.advance, hpc, Program.next, dmaMaster]
    · simp only [Call.At, Sm.advance, hpc, Program.next, dmaMaster]
      exact hat
  case «25» =>
    obtain rfl := step_wait (by rw [hpc]; rfl) hstep
    refine h.silent hstrobes (fell_same _) (fell_same _) rfl ?_ (fun hread _ => (hat.2 hread).2)
      ⟨p, hpk, htx, ?_⟩
    · simp [Sm.advance, hpc, Program.next, dmaMaster]
    · simp only [Call.At, Sm.advance, hpc, Program.next, dmaMaster]
      exact hat
  case «26» =>
    -- the byte goes into the FIFO
    rw [Sm.step_eq (show dmaMaster.code[s.card.sm.pc]? = some (.shiftIn .pins dataSize, 0) by
      rw [hpc]; rfl)] at hstep
    simp only [Sm.exec, show dmaMaster.autopush = true from rfl, if_true] at hstep
    obtain ⟨-, hstep⟩ := Option.ite_none_right_eq_some.mp hstep
    have hsm := Option.some.inj hstep
    have hset : sm.setPins = s.card.sm.setPins := by rw [← hsm]; rfl
    rw [Engine.drive_silent hstrobes (by rw [hset]; exact fell_same _) (by rw [hset]; exact fell_same _)]
    subst hsm
    refine ⟨h.shapes, ⟨p, hpk, htx, ?_⟩, fun hread => ?_⟩
    · simp only [Call.At, Sm.advance, hpc, Program.next, dmaMaster]
      exact hat.1
    · have hbytes := h.bytes hread
      simp only [Engine.inFlight, hpc] at hbytes
      rw [hbytes]
      have hlines : s.dataLines noise = s.ram s.card.latch :=
        if_neg (by rw [(hat.2 hread).1]; exact Bool.false_ne_true)
      have hnext : dmaMaster.next 26 = 27 := rfl
      simp [Engine.inFlight, Sm.read, hlines, Sm.advance, hpc, hnext, low8_pushed]
  case «27» =>
    rw [Sm.step_eq (show dmaMaster.code[s.card.sm.pc]? = some (.jmp .always 19, 0) by rw [hpc]; rfl)] at hstep
    simp only [Sm.exec, Condition.holds, if_true] at hstep
    cases hstep
    refine h.ahead hstrobes rfl rfl (by omega) ?_ ⟨p, hpk, htx, ?_⟩
    · simp
    · simp only [Call.At]
      exact hat

end PicoV9k.Dma
