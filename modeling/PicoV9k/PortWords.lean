import PicoV9k.RegisterPort

/-!
# Words of the register port

What the state machine shifts together out of the sampled lines, and what the C
helpers decode from it.
-/
namespace PicoV9k.Port
open PicoV9k.Bus PicoV9k.Pio PicoV9k.Sasi

/-- The address as it stands in the input shift register after sampling. -/
def Cycle.addressWord (c : Cycle) : Word := c.address.setWidth 32 <<< 12

lemma shifted_bit (isr w : Word) {bits : ℕ} (hbits : bits ≤ 32) {j : ℕ} (hj : j < 32) :
    (boardRegisters.shifted isr w bits).getLsbD j =
      if j < 32 - bits then isr.getLsbD (bits + j) else w.getLsbD (j - (32 - bits)) := by
  simp only [Program.shifted, boardRegisters, if_true, BitVec.getLsbD_or, BitVec.getLsbD_ushiftRight,
    BitVec.getLsbD_shiftLeft, low_getLsbD]
  split
  next hlt => simp [hlt]
  next hge =>
    have hshift : j - (32 - bits) < bits := by omega
    rw [BitVec.getLsbD_of_ge isr _ (by omega), decide_eq_true hj, decide_eq_true hshift,
      decide_eq_false hge]
    simp

lemma addressWord_bit (c : Cycle) {j : ℕ} (hj : j < 32) :
    c.addressWord.getLsbD j = if j < 12 then false else c.address.getLsbD (j - 12) := by
  simp only [Cycle.addressWord, BitVec.getLsbD_shiftLeft, BitVec.getLsbD_setWidth]
  split
  next hlt => simp [hlt]
  next hge => simp [hj, hge, show j - 12 < 32 by omega]

lemma sampled_address (c : Cycle) (noise : Word) :
    boardRegisters.shifted 0 ((BusPhase.address c).lines noise) 20 = c.addressWord := by
  apply BitVec.eq_of_getLsbD_eq
  intro j hj
  rw [shifted_bit _ _ (by decide) hj, addressWord_bit c hj]
  by_cases hlt : j < 12
  · simp [hlt]
  · rw [if_neg hlt, if_neg hlt]
    simp only [BusPhase.lines, BitVec.getLsbD_or, BitVec.getLsbD_setWidth, BitVec.getLsbD_shiftLeft]
    simp [show j - 12 < 32 by omega, show j - 12 < 20 by omega]

/-- The twelve upper address bits are those of the window exactly for a matched cycle. -/
lemma compared_address (c : Cycle) :
    boardRegisters.shifted c.addressWord 0 20 = dmaRegisterBitmask ↔ c.Matched := by
  have hupper : boardRegisters.shifted c.addressWord 0 20 = (c.address >>> 8).setWidth 32 := by
    apply BitVec.eq_of_getLsbD_eq
    intro j hj
    rw [shifted_bit _ _ (by decide) hj, BitVec.getLsbD_setWidth, BitVec.getLsbD_ushiftRight]
    by_cases hlt : j < 12
    · rw [if_pos hlt, addressWord_bit c (by omega), if_neg (by omega), show 20 + j - 12 = 8 + j by omega]
      simp [hj]
    · rw [if_neg hlt, BitVec.getLsbD_of_ge _ _ (show 20 ≤ 8 + j by omega)]
      simp
  rw [hupper, ← BitVec.toNat_inj, BitVec.toNat_setWidth, BitVec.toNat_ushiftRight,
    Nat.shiftRight_eq_div_pow]
  have hlt := c.address.isLt
  show c.address.toNat / 2 ^ 8 % 2 ^ 32 = 0xEF3 ↔
    0xEF300 ≤ c.address.toNat ∧ c.address.toNat < 0xEF300 + 0x100
  omega

lemma fifoPayloadType_eq {raw : Word} {k : ℕ} (h : ∀ j < 2, raw.getLsbD (30 + j) = k.testBit j)
    (hk : k < 4) : fifoPayloadType raw = k := by
  have htop : raw >>> 30 = BitVec.ofNat 32 k := by
    apply BitVec.eq_of_getLsbD_eq
    intro j hj
    rw [BitVec.getLsbD_ushiftRight, BitVec.getLsbD_ofNat]
    by_cases hlt : j < 2
    · simp [h j hlt, hj]
    · have hpow : k < 2 ^ j := lt_of_lt_of_le hk (Nat.pow_le_pow_right (show 0 < 2 by omega) (show 2 ≤ j by omega))
      rw [BitVec.getLsbD_of_ge _ _ (show 32 ≤ 30 + j by omega), Nat.testBit_lt_two_pow hpow]
      simp
  rw [fifoPayloadType, htop, BitVec.toNat_ofNat]
  omega

lemma addressField_eq {raw : Word} {a : BitVec 20} {offset : ℕ}
    (h : ∀ j < 20, raw.getLsbD (offset + j) = a.getLsbD j) :
    (raw >>> offset).toNat % 2 ^ 20 = a.toNat := by
  rw [← BitVec.toNat_setWidth]
  congr 1
  apply BitVec.eq_of_getLsbD_eq
  intro j hj
  rw [BitVec.getLsbD_setWidth, BitVec.getLsbD_ushiftRight, h j hj]
  simp [hj]

/-- Two flag bits in front of the address. -/
lemma tagged_address (c : Cycle) {flag : Word} (hflag : flag.toNat < 4) :
    fifoPayloadType (boardRegisters.shifted c.addressWord flag 2) = flag.toNat ∧
      boardFifoReadAddress (boardRegisters.shifted c.addressWord flag 2) = c.address.toNat := by
  constructor
  · refine fifoPayloadType_eq (fun j hj => ?_) hflag
    rw [shifted_bit _ _ (by decide) (by omega), if_neg (by omega), show 30 + j - (32 - 2) = j by omega]
    rfl
  · refine addressField_eq fun j hj => ?_
    rw [shifted_bit _ _ (by decide) (by omega), if_pos (by omega), addressWord_bit c (by omega),
      if_neg (by omega), show 2 + (10 + j) - 12 = j by omega]

lemma prefetch_word (c : Cycle) :
    FifoWord.ofRaw (boardRegisters.shifted c.addressWord fifoRegPrefetch 2) =
      .prefetch c.address.toNat := by
  obtain ⟨htype, haddress⟩ := tagged_address c (show fifoRegPrefetch.toNat < 4 by decide)
  simp only [FifoWord.ofRaw, htype, haddress]
  rfl

lemma readCommit_word (c : Cycle) :
    FifoWord.ofRaw (boardRegisters.shifted c.addressWord fifoRegReadCommit 2) =
      .readCommit c.address.toNat := by
  obtain ⟨htype, haddress⟩ := tagged_address c (show fifoRegReadCommit.toNat < 4 by decide)
  simp only [FifoWord.ofRaw, htype, haddress]
  rfl

/-- The data byte goes between the address and the flags. -/
lemma write_word (a : BitVec 20) (byte : Byte) (noise : Word) :
    FifoWord.ofRaw (boardRegisters.shifted (boardRegisters.shifted (Cycle.addressWord ⟨a, some byte⟩)
      ((BusPhase.transfer ⟨a, some byte⟩).lines noise) 8) fifoRegWrite 2) = .write a.toNat byte := by
  set raw := boardRegisters.shifted (boardRegisters.shifted (Cycle.addressWord ⟨a, some byte⟩)
    ((BusPhase.transfer ⟨a, some byte⟩).lines noise) 8) fifoRegWrite 2 with hraw
  have htype : fifoPayloadType raw = 2 := by
    refine fifoPayloadType_eq (fun j hj => ?_) (by decide)
    rw [hraw, shifted_bit _ _ (by decide) (by omega), if_neg (by omega),
      show 30 + j - (32 - 2) = j by omega]
    interval_cases j <;> decide
  have haddress : dmaFifoWriteAddress raw = a.toNat := by
    refine addressField_eq fun j hj => ?_
    rw [hraw, shifted_bit _ _ (by decide) (by omega), if_pos (by omega),
      shifted_bit _ _ (by decide) (by omega), if_pos (by omega), addressWord_bit _ (by omega),
      if_neg (by omega), show 8 + (2 + (2 + j)) - 12 = j by omega]
  have hdata : dmaFifoWriteData raw = byte := by
    apply BitVec.eq_of_getLsbD_eq
    intro j hj
    rw [dmaFifoWriteData, BitVec.getLsbD_setWidth, BitVec.getLsbD_ushiftRight, hraw,
      shifted_bit _ _ (by decide) (by omega), if_pos (by omega),
      shifted_bit _ _ (by decide) (by omega), if_neg (by omega),
      show 2 + (22 + j) - (32 - 8) = j by omega]
    simp only [BusPhase.lines, BitVec.getLsbD_or, BitVec.getLsbD_setWidth, BitVec.getLsbD_shiftLeft]
    simp [hj, show j < 32 by omega]
  simp only [FifoWord.ofRaw, htype, haddress, hdata]

def FifoWord.event : FifoWord → FifoEvent
  | .prefetch address => .prefetch (regOfAddress address)
  | .readCommit address => .readCommit (regOfAddress address)
  | .write address data => .write (regOfAddress address) data
  | .unknown => .unknown

lemma event_ofRaw (raw : Word) : FifoEvent.ofRaw raw = (FifoWord.ofRaw raw).event := by
  unfold FifoEvent.ofRaw FifoWord.ofRaw
  rcases fifoPayloadType raw with _ | _ | _ | _
  · rfl
  · rfl
  · rfl
  · rfl

lemma regOfAddress_inside {c : Cycle} (h : c.Matched) : regOfAddress c.address.toNat ≠ .outside := by
  have hinside : ¬ (c.address.toNat < dmaRegisterBase ∨ dmaRegisterBase + 0x100 ≤ c.address.toNat) := by
    rw [Cycle.Matched] at h
    omega
  rw [regOfAddress, if_neg hinside]
  split <;> simp

variable {σ : Type} {n : ℕ}

/-- A prefetch in the window is counted and answered. -/
lemma isr_prefetches {s : Bridge σ n} {reg : Reg} (h : reg ≠ .outside) :
    (s.isr (.prefetch reg)).1.pendingPrefetch = s.pendingPrefetch + 1 ∧
      ∃ data, (s.isr (.prefetch reg)).2 = some data := by
  cases reg with
  | outside => exact absurd rfl h
  | _ => exact ⟨rfl, _, rfl⟩

lemma enqueue_pending (s : Bridge σ n) (event : FifoEvent) :
    (s.enqueue event).pendingPrefetch = s.pendingPrefetch := by
  simp only [Bridge.enqueue]
  split <;> rfl

/-- The end of a cycle is counted and not answered. -/
lemma isr_readCommits {s : Bridge σ n} {reg : Reg} (h : reg ≠ .outside) :
    (s.isr (.readCommit reg)).1.pendingPrefetch = s.pendingPrefetch - 1 ∧
      (s.isr (.readCommit reg)).2 = none := by
  cases reg with
  | outside => exact absurd rfl h
  | data => exact ⟨enqueue_pending _ _, rfl⟩
  | _ => exact ⟨rfl, rfl⟩

lemma isr_writes {s : Bridge σ n} {reg : Reg} {data : Byte} (h : reg ≠ .outside) :
    (s.isr (.write reg data)).1.pendingPrefetch = s.pendingPrefetch - 1 ∧
      (s.isr (.write reg data)).2 = none := by
  have hwrite : ∀ s : Bridge σ n, (s.regWrite reg data).pendingPrefetch = s.pendingPrefetch - 1 := by
    intro s
    simp only [Bridge.regWrite]
    split
    · exact enqueue_pending _ _
    · rfl
  cases reg with
  | outside => exact absurd rfl h
  | _ => exact ⟨hwrite _, rfl⟩

end PicoV9k.Port
