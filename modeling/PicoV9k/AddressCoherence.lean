import PicoV9k.HostAccesses

/-!
# The address register and its cells

`dma_address` is kept twice, in the controller and in the three cells the host reads.
The handler writes both at once, a command writes the register and then its cells, and
everything else leaves them alone.
-/
namespace PicoV9k.Sasi
open PicoV9k.Bus PicoV9k.Storage PicoV9k.Mgmt PicoV9k.Runs

variable {Io σ : Type} {n : ℕ}

/-- The address register beside its cells. -/
structure Addressing where
  register : DmaAddress
  low : Byte
  mid : Byte
  high : Byte
  deriving DecidableEq, Repr

def Card.addressing (c : Card σ) : Addressing :=
  ⟨c.dma.dmaAddress, c.cache.addrL, c.cache.addrM, c.cache.addrH⟩

/-- The cells repeat the register, which has no more than twenty bits. -/
structure Addressing.Coherent (a : Addressing) : Prop where
  low : a.low = a.register.low
  mid : a.mid = a.register.mid
  high : a.high = a.register.high
  nibble : a.register.high &&& 0x0F = a.register.high
  top : a.register.top = 0

/-- The cells show the low, the middle and the four high bits of the address. -/
structure Card.AddressShown (c : Card σ) : Prop where
  low : c.cache.addrL.toNat = c.dma.dmaAddress.full % 2 ^ 8
  mid : c.cache.addrM.toNat = c.dma.dmaAddress.full / 2 ^ 8 % 2 ^ 8
  high : c.cache.addrH.toNat = c.dma.dmaAddress.full / 2 ^ 16
  bound : c.dma.dmaAddress.full < 2 ^ 20

lemma nibble_lt : ∀ b : Byte, b &&& 0x0F = b → b.toNat < 2 ^ 4 := by decide

lemma nibble_and : ∀ b : Byte, b &&& 0x0F &&& 0x0F = b &&& 0x0F := by decide

lemma nibble_of_lt : ∀ b : Byte, b.toNat < 2 ^ 4 → b &&& 0x0F = b := by decide

lemma Addressing.Coherent.full {a : Addressing} (h : a.Coherent) :
    a.register.full = a.low.toNat + 2 ^ 8 * a.mid.toNat + 2 ^ 16 * a.high.toNat := by
  have htop : a.register.top.toNat = 0 := by rw [h.top]; rfl
  unfold DmaAddress.full
  rw [htop, h.low, h.mid, h.high]
  omega

lemma Addressing.Coherent.bound {a : Addressing} (h : a.Coherent) : a.register.full < ramSize := by
  have hhigh : a.high.toNat < 2 ^ 4 := nibble_lt a.high (h.high ▸ h.nibble)
  have hlow := a.low.isLt
  have hmid := a.mid.isLt
  rw [h.full]
  unfold ramSize
  omega

lemma Addressing.Coherent.shown {c : Card σ} (h : c.addressing.Coherent) : c.AddressShown := by
  have hfull : c.dma.dmaAddress.full =
      c.cache.addrL.toNat + 2 ^ 8 * c.cache.addrM.toNat + 2 ^ 16 * c.cache.addrH.toNat := h.full
  have hlow := c.cache.addrL.isLt
  have hmid := c.cache.addrM.isLt
  refine ⟨?_, ?_, ?_, h.bound⟩
  · omega
  · omega
  · omega

/-- The register with its cells after a store of both. -/
def Addressing.ofFull (full : ℕ) : Addressing :=
  ⟨.ofFull full, (DmaAddress.ofFull full).low, (DmaAddress.ofFull full).mid,
    (DmaAddress.ofFull full).high &&& 0x0F⟩

lemma setAddress_addressing (c : Card σ) (full : ℕ) :
    (c.setDmaAddress full).cachedSyncDmaAddress.addressing = .ofFull full := rfl

lemma ofFull_coherent {full : ℕ} (h : full < ramSize) : (Addressing.ofFull full).Coherent := by
  have h20 : full < 2 ^ 20 := h
  have hhigh : (BitVec.ofNat 8 (full / 2 ^ 16)).toNat < 2 ^ 4 := by
    rw [BitVec.toNat_ofNat]
    omega
  have hnibble := nibble_of_lt _ hhigh
  exact ⟨rfl, rfl, hnibble, hnibble, ofFull_top h⟩

lemma ofFull_full {full : ℕ} (h : full < ramSize) : (Addressing.ofFull full).register.full = full :=
  DmaAddress.full_ofFull (h.trans (by decide))

lemma addressed_coherent {c : Card σ} (h : c.addressing.Coherent) {target : Reg}
    (ht : Reg.addressByte target = true) (data : Byte) : (c.addressed target data).addressing.Coherent := by
  cases target with
  | addrL => exact ⟨rfl, h.mid, h.high, h.nibble, h.top⟩
  | addrM => exact ⟨h.low, rfl, h.high, h.nibble, h.top⟩
  | addrH => exact ⟨h.low, h.mid, rfl, nibble_and data, h.top⟩
  | _ => cases ht

lemma TransferFrame.addressing {c c' : Card σ} (h : TransferFrame c c') : c'.addressing = c.addressing := by
  have hregister : c'.dma.dmaAddress = c.dma.dmaAddress := (congrArg Registers.dmaAddress h.dma :)
  have hlow : c'.cache.addrL = c.cache.addrL := (congrArg CachedRegs.addrL h.cells :)
  have hmid : c'.cache.addrM = c.cache.addrM := (congrArg CachedRegs.addrM h.cells :)
  have hhigh : c'.cache.addrH = c.cache.addrH := (congrArg CachedRegs.addrH h.cells :)
  simp only [Card.addressing, hregister, hlow, hmid, hhigh]

lemma enterStatus_addressing (c : Card σ) (b : Byte) :
    (sasiEnterStatusPhase c b).addressing = c.addressing := rfl

lemma dataTaken_addressing (c : Card σ) : c.dataTaken.addressing = c.addressing := by
  unfold Card.dataTaken CachedRegs.dataRead
  split
  · rfl
  · split <;> rfl

lemma predicted_addressing (c : Card σ) (data : Byte) : (c.predicted data).addressing = c.addressing := by
  unfold Card.predicted CachedRegs.predictControl
  dsimp only
  split
  · rfl
  · split
    · rfl
    · split <;> rfl

/-- A write of one of the three address registers. -/
def isAddressWrite : FifoEvent → Bool
  | .write target _ => Reg.addressByte target
  | _ => false

/-- Only a write of an address register moves the address, and then its cells with it. -/
theorem isr_addressing (b : Bridge σ n) (event : FifoEvent) :
    (b.isr event).1.card.addressing = b.card.addressing ∨
      ∃ target data, event = .write target data ∧ Reg.addressByte target = true ∧
        (b.isr event).1.card = b.card.addressed target data := by
  cases event with
  | prefetch target => exact .inl (by cases target <;> rfl)
  | readCommit target =>
    refine .inl ?_
    cases target with
    | data =>
      rw [isr_commit_data, enqueue_card]
      exact dataTaken_addressing b.card
    | _ => rfl
  | write target data =>
    cases target with
    | control =>
      refine .inl ?_
      by_cases hr : hasBit data dmaResetBit = true
      · rw [isr_write_reset b hr, enqueue_card]
        rfl
      · rw [isr_write_control b (Bool.eq_false_iff.mpr hr), enqueue_card]
        exact predicted_addressing b.card data
    | data =>
      rw [isr_write_data, enqueue_card]
      exact .inl rfl
    | status | statusAlias =>
      refine .inl ?_
      show (((Bridge.tick b).writeThrough _ data).enqueue _).card.addressing = _
      rw [enqueue_card]
      rfl
    | addrL | addrM | addrH =>
      exact .inr ⟨_, data, rfl, rfl, congrArg Bridge.card (isr_write_address b data rfl)⟩
    | _ => exact .inl rfl
  | unknown => exact .inl rfl

lemma isr_coherent {b : Bridge σ n} (h : b.card.addressing.Coherent) (event : FifoEvent) :
    (b.isr event).1.card.addressing.Coherent := by
  rcases isr_addressing b event with heq | ⟨target, data, _, ht, hcard⟩
  · rw [heq]
    exact h
  · rw [hcard]
    exact addressed_coherent h ht data

end PicoV9k.Sasi
