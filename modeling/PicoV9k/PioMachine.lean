import Mathlib.Tactic

/-!
# PIO state machines

The programmable I/O blocks of the RP2350, as far as a program without autopull
uses them: one state machine with its two shift registers, its scratch registers
and two FIFOs of four words. A step executes one instruction; an instruction that
stalls admits no step. Pads are seen through the three windows an instruction can
address: the OUT group, the SET group and the side-set group.
-/
namespace PicoV9k.Pio

abbrev Word := BitVec 32

abbrev fifoDepth : ℕ := 4

inductive Source
  | pins | null | x | y | isr | osr
  deriving DecidableEq, Repr

inductive Target
  | pins | pindirs | x | y | isr | osr
  deriving DecidableEq, Repr

inductive Condition
  | always | xZero | xNeY | pin
  deriving DecidableEq, Repr

/-- `push` and `pull` are the blocking ones; delays only take time and are left out. -/
inductive Instr
  | pull
  | push
  | out (dst : Target) (bits : ℕ)
  | shiftIn (src : Source) (bits : ℕ)
  | mov (dst : Target) (invert : Bool) (src : Source)
  | set (dst : Target) (value : Word)
  | wait (level : Bool) (gpio : ℕ)
  | jmp (cond : Condition) (target : ℕ)
  | nop
  deriving DecidableEq, Repr

/-- The instructions, each with its side-set value, and the configuration of the state machine. -/
structure Program where
  code : List (Instr × BitVec 2)
  wrapTarget : ℕ
  wrap : ℕ
  shiftInRight : Bool
  autopush : Bool
  jmpPin : ℕ

/-- `outPins` and `outDirs` are the levels and directions of the OUT group, `setPins` the levels of
the SET group. -/
structure Sm where
  pc : ℕ
  x : Word
  y : Word
  isr : Word
  osr : Word
  tx : List Word
  rx : List Word
  outPins : Word
  outDirs : Word
  setPins : Word

/-- What the pads show: the bits from the IN base up, and each single GPIO. -/
structure Inputs where
  inPins : Word
  gpio : ℕ → Bool

/-- The lowest bits of a word. -/
def low (bits : ℕ) (w : Word) : Word := w &&& BitVec.ofNat 32 (2 ^ bits - 1)

def Sm.read (sm : Sm) (inputs : Inputs) : Source → Word
  | .pins => inputs.inPins
  | .null => 0
  | .x => sm.x
  | .y => sm.y
  | .isr => sm.isr
  | .osr => sm.osr

def Sm.write (sm : Sm) (w : Word) : Target → Sm
  | .pins => { sm with outPins := w }
  | .pindirs => { sm with outDirs := w }
  | .x => { sm with x := w }
  | .y => { sm with y := w }
  | .isr => { sm with isr := w }
  | .osr => { sm with osr := w }

/-- `set pins` addresses the SET group, not the OUT group. -/
def Sm.writeSet (sm : Sm) (w : Word) : Target → Sm
  | .pins => { sm with setPins := w }
  | dst => sm.write w dst

/-- The shift register after `bits` bits of `w` came in. -/
def Program.shifted (prog : Program) (isr w : Word) (bits : ℕ) : Word :=
  if prog.shiftInRight then (isr >>> bits) ||| (low bits w <<< (32 - bits))
  else (isr <<< bits) ||| low bits w

def Condition.holds (sm : Sm) (prog : Program) (inputs : Inputs) : Condition → Bool
  | .always => true
  | .xZero => sm.x = 0
  | .xNeY => sm.x ≠ sm.y
  | .pin => inputs.gpio prog.jmpPin

/-- The instruction after the one at `pc`. -/
def Program.next (prog : Program) (pc : ℕ) : ℕ := if pc = prog.wrap then prog.wrapTarget else pc + 1

def Sm.advance (sm : Sm) (prog : Program) : Sm := { sm with pc := prog.next sm.pc }

/-- The effect of an instruction, `none` while it stalls. The shift count of `shiftIn` has reached
the push threshold whenever autopush is on. -/
def Sm.exec (prog : Program) (inputs : Inputs) (sm : Sm) : Instr → Option Sm
  | .pull => match sm.tx with
    | [] => none
    | w :: tx => some ({ sm with osr := w, tx := tx }.advance prog)
  | .push =>
    if sm.rx.length < fifoDepth then
      some ({ sm with rx := sm.rx ++ [sm.isr], isr := 0 }.advance prog)
    else none
  | .out dst bits =>
    some (({ sm with osr := sm.osr >>> bits }.write (low bits sm.osr) dst).advance prog)
  | .shiftIn src bits =>
    let isr := prog.shifted sm.isr (sm.read inputs src) bits
    if prog.autopush then
      if sm.rx.length < fifoDepth then
        some ({ sm with rx := sm.rx ++ [isr], isr := 0 }.advance prog)
      else none
    else some ({ sm with isr := isr }.advance prog)
  | .mov dst invert src =>
    let w := sm.read inputs src
    some ((sm.write (if invert then ~~~w else w) dst).advance prog)
  | .set dst value => some ((sm.writeSet value dst).advance prog)
  | .wait level gpio => if inputs.gpio gpio = level then some (sm.advance prog) else none
  | .jmp cond target =>
    some (if cond.holds sm prog inputs then { sm with pc := target } else sm.advance prog)
  | .nop => some (sm.advance prog)

/-- One step of a state machine that is enabled. -/
def Sm.step (prog : Program) (inputs : Inputs) (sm : Sm) : Option Sm :=
  (prog.code[sm.pc]?).bind fun line => sm.exec prog inputs line.1

/-- The side-set value of the instruction that executes or stalls at present. -/
def Program.side (prog : Program) (pc : ℕ) : BitVec 2 := ((prog.code[pc]?).map Prod.snd).getD 0

/-- The state machine waits for a word from the processor. -/
def Sm.Starved (prog : Program) (sm : Sm) : Prop :=
  (prog.code[sm.pc]?).map Prod.fst = some .pull ∧ sm.tx = []

instance (prog : Program) (sm : Sm) : Decidable (sm.Starved prog) :=
  inferInstanceAs (Decidable (_ ∧ _))

lemma low_getLsbD (bits : ℕ) (w : Word) (j : ℕ) :
    (low bits w).getLsbD j = (w.getLsbD j && decide (j < bits)) := by
  by_cases hj : j < 32
  · have hmask : (BitVec.ofNat 32 (2 ^ bits - 1)).getLsbD j = decide (j < bits) := by
      rw [BitVec.getLsbD_ofNat, Nat.testBit_two_pow_sub_one]
      simp only [hj, decide_true, Bool.true_and]
    simp only [low, BitVec.getLsbD_and, hmask]
  · rw [BitVec.getLsbD_of_ge _ _ (by omega), BitVec.getLsbD_of_ge w _ (by omega), Bool.false_and]

lemma Sm.step_eq {prog : Program} {inputs : Inputs} {sm : Sm} {instr : Instr} {side : BitVec 2}
    (h : prog.code[sm.pc]? = some (instr, side)) : sm.step prog inputs = sm.exec prog inputs instr := by
  simp only [Sm.step, h, Option.bind_some]

lemma Sm.Starved.stalls {prog : Program} {sm : Sm} (h : sm.Starved prog) (inputs : Inputs) :
    sm.step prog inputs = none := by
  obtain ⟨hinstr, htx⟩ := h
  obtain ⟨⟨instr, side⟩, hline, hpull⟩ := Option.map_eq_some_iff.mp hinstr
  cases hpull
  rw [Sm.step_eq hline]
  simp only [Sm.exec, htx]

@[simp] lemma Sm.advance_tx (sm : Sm) (prog : Program) : (sm.advance prog).tx = sm.tx := rfl

@[simp] lemma Sm.advance_rx (sm : Sm) (prog : Program) : (sm.advance prog).rx = sm.rx := rfl

lemma Sm.write_fifos (sm : Sm) (w : Word) (dst : Target) :
    (sm.write w dst).tx = sm.tx ∧ (sm.write w dst).rx = sm.rx := by
  cases dst <;> exact ⟨rfl, rfl⟩

lemma Sm.writeSet_fifos (sm : Sm) (w : Word) (dst : Target) :
    (sm.writeSet w dst).tx = sm.tx ∧ (sm.writeSet w dst).rx = sm.rx := by
  cases dst <;> exact ⟨rfl, rfl⟩

/-- A state machine only takes words from one FIFO and only adds words to the other. -/
lemma Sm.step_fifos {prog : Program} {inputs : Inputs} {sm sm' : Sm}
    (h : sm.step prog inputs = some sm') : sm'.tx <:+ sm.tx ∧ sm.rx <+: sm'.rx := by
  obtain ⟨⟨instr, side⟩, -, hexec⟩ := Option.bind_eq_some_iff.mp h
  have hkept : ∀ {sm₁ : Sm}, some (sm₁.advance prog) = some sm' → sm₁.tx = sm.tx ∧ sm₁.rx = sm.rx →
      sm'.tx <:+ sm.tx ∧ sm.rx <+: sm'.rx := by
    intro sm₁ heq hfifos
    cases heq
    rw [Sm.advance_tx, Sm.advance_rx, hfifos.1, hfifos.2]
    exact ⟨List.suffix_refl _, List.prefix_refl _⟩
  cases instr with
  | pull =>
    simp only [Sm.exec] at hexec
    split at hexec
    · cases hexec
    next w tx htx =>
      cases hexec
      exact ⟨htx ▸ List.suffix_cons w tx, List.prefix_refl _⟩
  | push =>
    obtain ⟨-, hexec⟩ := Option.ite_none_right_eq_some.mp hexec
    cases hexec
    exact ⟨List.suffix_refl _, List.prefix_append _ _⟩
  | out dst bits => exact hkept hexec (Sm.write_fifos _ _ _)
  | shiftIn src bits =>
    simp only [Sm.exec] at hexec
    split at hexec
    · obtain ⟨-, hexec⟩ := Option.ite_none_right_eq_some.mp hexec
      cases hexec
      exact ⟨List.suffix_refl _, List.prefix_append _ _⟩
    · exact hkept hexec ⟨rfl, rfl⟩
  | mov dst invert src => exact hkept hexec (Sm.write_fifos _ _ _)
  | set dst value => exact hkept hexec (Sm.writeSet_fifos _ _ _)
  | wait level gpio => exact hkept (Option.ite_none_right_eq_some.mp hexec).2 ⟨rfl, rfl⟩
  | jmp cond target =>
    simp only [Sm.exec] at hexec
    split at hexec
    · cases hexec
      exact ⟨List.suffix_refl _, List.prefix_refl _⟩
    · exact hkept hexec ⟨rfl, rfl⟩
  | nop => exact hkept hexec ⟨rfl, rfl⟩

end PicoV9k.Pio
