import PicoV9k.HandshakeStage

/-!
# The script against the stages

`Follows` checks a script of accesses against the stage the host has brought about,
as one checks a program against a session type: each access is allowed where it
stands, and each complete CDB is that of the next command to be issued. The boot
handshake of any list of commands follows from a free bus.
-/
namespace PicoV9k.Sasi
open PicoV9k.Bus PicoV9k.Storage

/-- The command as the controller is to find it: target, bytes and programmed address. -/
structure BootStep.Issued (cmd : BootStep) (target : Byte) (cdb : List Byte) (a : DmaAddress) :
    Prop where
  target : target = sasiExtractTargetId cmd.selection
  cdb : cdb = cmd.cdb
  address : cmd.mode ≠ .none → a.full = cmd.dmaAddr.toNat

/-- The phase a stage shows; a running command shows its own. -/
def Stage.phase : Stage → Byte
  | .free _ => phaseIdle
  | .selected _ => phaseBsy
  | .command .. | .executing .. | .stranded => phaseCommand
  | .status .. => phaseStatus
  | .message _ => phaseMessage

lemma Stage.phase_masked (h : Stage) : h.phase &&& statusMask = h.phase := by
  have hall : ∀ b ∈ [phaseIdle, phaseBsy, phaseCommand, phaseStatus, phaseMessage],
      b &&& statusMask = b := by decide
  apply hall
  cases h <;> simp [Stage.phase]

lemma Stage.phase_busy {h : Stage} (hb : h.Busy) : h.phase = phaseCommand := by
  cases h <;> first | rfl | exact hb.elim

/-- `Follows script todo h a`: from stage `h`, with `a` in the address registers, the script
issues the commands `todo`. -/
def Follows : List Access → List BootStep → Stage → DmaAddress → Prop
  | [], todo, h, _ => todo = [] ∧ ∃ last, h = .free last
  | .control data :: rest, todo, h, a =>
    (hasBit data dmaResetBit = false ∧ hasBit data dmaSelectBit = false) ∧
      ((∃ last, h = .free last ∧ Follows rest todo (.free last) a) ∨
        ∃ target, h = .selected target ∧ Follows rest todo (.command target []) a)
  | .address target data :: rest, todo, h, a =>
    (∃ last, h = .free last) ∧ Reg.addressByte target = true ∧
      Follows rest todo h (DmaAddress.store a target data)
  | .readAddress target :: rest, todo, h, a =>
    (∃ last, h = .free last) ∧ Reg.addressByte target = true ∧ Follows rest todo h a
  | .await phase :: rest, todo, h, a =>
    (¬ h.Busy → phase = h.phase ∧ Follows rest todo h a) ∧
      (h.Busy → phase = phaseStatus ∧
        ∀ τ v a', a'.top = 0 → Follows rest todo (.status τ v) a')
  | .target data :: rest, todo, h, a =>
    (∃ last, h = .free last) ∧ Follows rest todo (.free (some data)) a
  | .select data :: rest, todo, h, a =>
    (hasBit data dmaResetBit = false ∧ hasBit data dmaSelectBit = true) ∧
      ∃ b, h = .free (some b) ∧ Follows rest todo (.selected (sasiExtractTargetId b)) a
  | .cdb data :: rest, todo, h, a =>
    ∃ target bytes, h = .command target bytes ∧
      ((bytes.length + 1 < cdbLength ∧ Follows rest todo (.command target (bytes ++ [data])) a) ∨
        (bytes.length + 1 = cdbLength ∧ ∃ cmd todo', todo = cmd :: todo' ∧
          cmd.Issued target (bytes ++ [data]) a ∧
          ∀ τ, Follows rest todo' (.executing target (bytes ++ [data]) τ) a))
  | .readData :: rest, todo, h, a =>
    (∃ τ v, h = .status τ v ∧ Follows rest todo (.message v) a) ∨
      ∃ v, h = .message v ∧ Follows rest todo (.free none) a

/-- A host that waits for a command to end waits for its status phase. -/
lemma Follows.of_busy {script : List Access} {todo : List BootStep} {h : Stage} {a : DmaAddress}
    (hf : Follows script todo h a) (hb : h.Busy) :
    ∃ rest, script = .await phaseStatus :: rest ∧
      ∀ τ v a', a'.top = 0 → Follows rest todo (.status τ v) a' := by
  cases script with
  | nil =>
    obtain ⟨last, rfl⟩ := hf.2
    exact hb.elim
  | cons x rest =>
    cases x with
    | await phase =>
      obtain ⟨rfl, hrest⟩ := hf.2 hb
      exact ⟨rest, rfl, hrest⟩
    | control data =>
      rcases hf.2 with ⟨last, rfl, _⟩ | ⟨t, rfl, _⟩
      · exact hb.elim
      · exact hb.elim
    | address t data =>
      obtain ⟨last, rfl⟩ := hf.1
      exact hb.elim
    | readAddress t =>
      obtain ⟨last, rfl⟩ := hf.1
      exact hb.elim
    | target data =>
      obtain ⟨last, rfl⟩ := hf.1
      exact hb.elim
    | select data =>
      obtain ⟨b, rfl, _⟩ := hf.2
      exact hb.elim
    | cdb data =>
      obtain ⟨t, bytes, rfl, _⟩ := hf
      exact hb.elim
    | readData =>
      rcases hf with ⟨τ, v, rfl, _⟩ | ⟨v, rfl, _⟩
      · exact hb.elim
      · exact hb.elim

/-- The end of a command leaves the script where it is. -/
lemma Follows.status {script : List Access} {todo : List BootStep} {h : Stage} {a a' : DmaAddress}
    (hf : Follows script todo h a) (hb : h.Busy) (τ : ℕ) (v : Byte) (ha : a'.top = 0) :
    Follows script todo (.status τ v) a' := by
  obtain ⟨rest, rfl, hrest⟩ := hf.of_busy hb
  exact ⟨fun _ => ⟨rfl, hrest τ v a' ha⟩, fun hbusy => hbusy.elim⟩

lemma Follows.busy {script : List Access} {todo : List BootStep} {h h' : Stage} {a a' : DmaAddress}
    (hf : Follows script todo h a) (hb : h.Busy) (hb' : h'.Busy) : Follows script todo h' a' := by
  obtain ⟨rest, rfl, hrest⟩ := hf.of_busy hb
  exact ⟨fun hn => absurd hb' hn, fun _ => ⟨rfl, hrest⟩⟩

/-- The three address bytes of a configuration are the address it is given. -/
lemma writeDmaAddress_full (a : DmaAddress) (ha : a.top = 0) (addr : BitVec 20) :
    (DmaAddress.store (DmaAddress.store (DmaAddress.store a .addrL (addr.setWidth 8)) .addrM
      ((addr >>> 8).setWidth 8)) .addrH ((addr >>> 16).setWidth 8 &&& 0x0F)).full = addr.toNat := by
  have hlt := addr.isLt
  have hmask (b : Byte) : (b &&& 0x0F &&& 0x0F).toNat = b.toNat % 16 := by revert b; decide
  have hzero : (0 : Byte).toNat = 0 := rfl
  simp only [DmaAddress.store, DmaAddress.full, ha, hmask, hzero, BitVec.toNat_setWidth,
    BitVec.toNat_ushiftRight, Nat.shiftRight_eq_div_pow]
  omega

lemma store_top (a : DmaAddress) (target : Reg) (data : Byte) :
    (DmaAddress.store a target data).top = a.top := by
  cases target <;> rfl

lemma controlBase_bits : ∀ mode : DmaMode, hasBit (controlBaseForMode mode) dmaResetBit = false ∧
    hasBit (controlBaseForMode mode) dmaSelectBit = false ∧
    hasBit (controlBaseForMode mode ||| dmaSelectBit) dmaResetBit = false ∧
    hasBit (controlBaseForMode mode ||| dmaSelectBit) dmaSelectBit = true := by
  intro mode
  cases mode <;> decide

section Handshake

variable {cmd : BootStep} {rest : List Access} {todo : List BootStep} {a : DmaAddress}

lemma selection_follows (last : Option Byte)
    (hrest : Follows rest todo (.command (sasiExtractTargetId cmd.selection) []) a) :
    Follows ([.await phaseIdle, .target cmd.selection,
      .select (controlBaseForMode cmd.mode ||| dmaSelectBit), .await phaseBsy,
      .control (controlBaseForMode cmd.mode)] ++ rest) todo (.free last) a := by
  obtain ⟨hr, hs, hr', hs'⟩ := controlBase_bits cmd.mode
  refine ⟨fun _ => ⟨rfl, ⟨last, rfl⟩, ⟨hr', hs'⟩, cmd.selection, rfl,
    fun _ => ⟨rfl, ⟨hr, hs⟩, ?_⟩, ?_⟩, ?_⟩
  · exact .inr ⟨_, rfl, hrest⟩
  · exact fun hb => hb.elim
  · exact fun hb => hb.elim

/-- The CDB bytes, with those of `done` already written. -/
lemma cdb_follows {target : Byte} (bytes done : List Byte) (hne : bytes ≠ [])
    (hlen : done.length + bytes.length = cdbLength) (hissued : cmd.Issued target (done ++ bytes) a)
    (hrest : ∀ τ, Follows rest todo (.executing target (done ++ bytes) τ) a) :
    Follows ((bytes.flatMap fun b => [.await phaseCommand, .cdb b]) ++ rest) (cmd :: todo)
      (.command target done) a := by
  induction bytes generalizing done with
  | nil => exact absurd rfl hne
  | cons b bytes ih =>
    refine ⟨fun _ => ⟨rfl, target, done, rfl, ?_⟩, fun hb => hb.elim⟩
    cases bytes with
    | nil => exact .inr ⟨hlen, cmd, todo, rfl, hissued, hrest⟩
    | cons b' bytes =>
      have happ : done ++ b :: b' :: bytes = (done ++ [b]) ++ b' :: bytes := by simp
      rw [happ] at hissued hrest
      have hlen' : (done ++ [b]).length + (b' :: bytes).length = cdbLength := by
        simp only [List.length_append, List.length_cons, List.length_nil] at hlen ⊢
        omega
      refine .inl ⟨?_, ih (done ++ [b]) (List.cons_ne_nil _ _) hlen' hissued hrest⟩
      simp only [List.length_cons] at hlen
      omega

lemma completion_follows {target : Byte} {cdb : List Byte} (τ : ℕ)
    (hrest : ∀ a', a'.top = 0 → Follows rest todo (.free none) a') :
    Follows ([.await phaseStatus, .readData, .await phaseMessage, .readData] ++ rest) todo
      (.executing target cdb τ) a := by
  refine ⟨fun hb => absurd trivial hb, fun _ => ⟨rfl, fun τ v a' ha' => .inl ⟨τ, v, rfl, ?_⟩⟩⟩
  exact ⟨fun _ => ⟨rfl, .inr ⟨v, rfl, hrest a' ha'⟩⟩, fun hb => hb.elim⟩

lemma checkDmaAddress_follows (last : Option Byte) (h : Follows rest todo (.free last) a) :
    Follows (checkDmaAddress cmd ++ rest) todo (.free last) a := by
  unfold checkDmaAddress
  split
  · exact h
  · exact ⟨⟨last, rfl⟩, rfl, ⟨last, rfl⟩, rfl, ⟨last, rfl⟩, rfl, h⟩

lemma configureDmaMode_follows (last : Option Byte) (ha : a.top = 0)
    (hrest : ∀ a', a'.top = 0 → (cmd.mode ≠ .none → a'.full = cmd.dmaAddr.toNat) →
      Follows rest todo (.free last) a') :
    Follows (configureDmaMode cmd ++ rest) todo (.free last) a := by
  have hcontrol {d : Byte} {r : List Access} {x : DmaAddress}
      (hd : hasBit d dmaResetBit = false ∧ hasBit d dmaSelectBit = false)
      (h : Follows r todo (.free last) x) : Follows (.control d :: r) todo (.free last) x :=
    ⟨hd, .inl ⟨last, rfl, h⟩⟩
  have hwrite {r : List Access} (h : Follows r todo (.free last)
      (DmaAddress.store (DmaAddress.store (DmaAddress.store a .addrL (cmd.dmaAddr.setWidth 8)) .addrM
        ((cmd.dmaAddr >>> 8).setWidth 8)) .addrH ((cmd.dmaAddr >>> 16).setWidth 8 &&& 0x0F))) :
      Follows (writeDmaAddress cmd.dmaAddr ++ r) todo (.free last) a :=
    ⟨⟨last, rfl⟩, rfl, ⟨last, rfl⟩, rfl, ⟨last, rfl⟩, rfl, h⟩
  have hdone := hrest _ (by simpa only [store_top] using ha) fun _ => writeDmaAddress_full a ha cmd.dmaAddr
  unfold configureDmaMode
  cases hmode : cmd.mode with
  | none =>
    have hrest' := hrest a ha fun h => absurd hmode h
    exact hcontrol (by decide) (hcontrol (by decide) hrest')
  | devToHost =>
    refine hcontrol (by decide) (hcontrol (by decide) ?_)
    exact hwrite (hcontrol (by decide) (hcontrol (by decide) hdone))
  | hostToDev =>
    refine hcontrol (by decide) (hcontrol (by decide) ?_)
    exact hwrite (hcontrol (by decide) (hcontrol (by decide) hdone))

lemma runBootStep_follows (last : Option Byte) (ha : a.top = 0)
    (hrest : ∀ a', a'.top = 0 → Follows rest todo (.free none) a') :
    Follows (runBootStep cmd ++ rest) (cmd :: todo) (.free last) a := by
  have hne : cmd.cdb ≠ [] := by
    intro h
    have := cmd.cdb_length
    rw [h] at this
    cases this
  simp only [runBootStep, List.append_assoc]
  refine configureDmaMode_follows last ha fun a' ha' hfull => checkDmaAddress_follows last ?_
  refine selection_follows last (cdb_follows cmd.cdb [] hne ?_ ⟨rfl, rfl, hfull⟩ fun τ => ?_)
  · rw [cmd.cdb_length]; rfl
  · exact completion_follows τ fun a'' ha'' => checkDmaAddress_follows none (hrest a'' ha'')

end Handshake

/-- The handshake of every list of commands fits a free bus. -/
theorem bootSteps_follow (cmds : List BootStep) (last : Option Byte) {a : DmaAddress}
    (ha : a.top = 0) : Follows (cmds.flatMap runBootStep) cmds (.free last) a := by
  induction cmds generalizing last a with
  | nil => exact ⟨rfl, last, rfl⟩
  | cons cmd cmds ih => exact runBootStep_follows last ha fun a' ha' => ih none ha'

end PicoV9k.Sasi
