import PicoV9k.TextScreen

/-!
# The output translator of the Victor client

`dmaterm.c`: the VT100 parser in front of the screen, with the `int` parameters of the
source, and what the main loop does with a response byte and with an overflow. Whatever
arrives, the cursor, the stores and the parameter index stay in bounds.
-/
namespace PicoV9k.Terminal
open PicoV9k.Bus

/-- `int` of the small-model compiler. -/
abbrev CInt := BitVec 16

abbrev outNormal : ℕ := 0
abbrev outEsc : ℕ := 1
abbrev outCsi : ℕ := 2

abbrev esc : Byte := 0x1B

/-- The screen with the statics of the translator and the cursor flag that the keyboard side reads. -/
structure Client where
  screen : Screen
  outState : ℕ
  csiPriv : Bool
  csiSeen : Bool
  csiNi : ℕ
  csiParam : ℕ → CInt
  cursorHidden : Bool

/-- A parameter as a one-based position on an axis of `size` cells, counted from zero. -/
def clamp (p : CInt) (size : ℤ) : Byte :=
  let r := p.toInt
  let r := if r < 1 then 1 else r
  let r := if size < r then size else r
  BitVec.ofInt 8 (r - 1)

/-- One round of the SGR loop. -/
def sgrBits (a : Byte) (p : CInt) : Byte :=
  let a := if p = 7 then a ||| aRev else a
  if p = 4 then a ||| aUl else a

def csiDispatch (c : Client) (f : Byte) : Client :=
  if f = ascii 'J' then
    if c.csiParam 0 = 2 then { c with screen := scrClear c.screen } else c
  else if f = ascii 'H' then
    if ¬ c.csiSeen ∨ c.csiNi = 0 ∧ c.csiParam 0 = 0 then { c with screen := { c.screen with scrX := 0, scrY := 0 } }
    else { c with screen :=
      { c.screen with scrY := clamp (c.csiParam 0) rows, scrX := clamp (c.csiParam 1) cols } }
  else if f = ascii 'l' then
    if c.csiPriv ∧ c.csiParam 0 = 25 then { c with cursorHidden := true } else c
  else if f = ascii 'h' then
    if c.csiPriv ∧ c.csiParam 0 = 25 then { c with cursorHidden := false } else c
  else if f = ascii 'm' then
    { c with screen :=
      { c.screen with scrAttr := (List.range (c.csiNi + 1)).foldl (fun a i => sgrBits a (c.csiParam i)) 0 } }
  else c

def isFinal (b : Byte) : Prop := 0x40 ≤ b.toNat ∧ b.toNat ≤ 0x7E

def isDigit (b : Byte) : Prop := (ascii '0').toNat ≤ b.toNat ∧ b.toNat ≤ (ascii '9').toNat

instance (b : Byte) : Decidable (isFinal b) := inferInstanceAs (Decidable (_ ∧ _))

instance (b : Byte) : Decidable (isDigit b) := inferInstanceAs (Decidable (_ ∧ _))

/-- `param * 10 + digit`, which wraps. -/
def Client.digit (c : Client) (b : Byte) : CInt := c.csiParam c.csiNi * 10 + (b - ascii '0').setWidth 16

/-- A byte inside a sequence. -/
def Client.collect (c : Client) (b : Byte) : Client :=
  if isFinal b then { csiDispatch c b with outState := outNormal }
  else if isDigit b then
    { c with csiParam := Function.update c.csiParam c.csiNi (c.digit b), csiSeen := true }
  else if b = ascii ';' then
    let ni := if c.csiNi < 7 then c.csiNi + 1 else c.csiNi
    { c with csiNi := ni, csiParam := Function.update c.csiParam ni 0, csiSeen := true }
  else if b = ascii '?' then { c with csiPriv := true }
  else c

def emit (c : Client) (b : Byte) : Client :=
  if c.outState = outNormal then
    if b = esc then { c with outState := outEsc } else { c with screen := scrPutc c.screen b }
  else if c.outState = outEsc then
    if b = ascii '[' then
      { c with
        outState := outCsi
        csiPriv := false
        csiSeen := false
        csiNi := 0
        csiParam := fun _ => 0 }
    else { c with outState := outNormal }
  else if c.outState = outCsi then c.collect b
  else { c with outState := outNormal }

def Client.puts (c : Client) (text : String) : Client := { c with screen := scrPuts c.screen text }

def Client.newline (c : Client) : Client :=
  { c with screen := scrPutc (scrPutc c.screen 0x0D) 0x0A }

/-- The statics at program start, with the screen taken over from DOS. -/
def Client.opened (cell : ℕ → Cell) : Client := ⟨scrOpen cell, outNormal, false, false, 0, fun _ => 0, false⟩

def Client.started (cell : ℕ → Cell) : Client :=
  ((Client.opened cell).puts "v9k DMA terminal - type 'exit' to quit.").newline

/-- The overflow branch of the main loop; `session_settle` only touches the channel. -/
def Client.overflow (c : Client) : Client := (c.puts "[overflow]").newline

/-- What the main loop gets from the channel. -/
inductive Arrival
  | byte (b : Byte)
  | overflow
  deriving DecidableEq, Repr

def Client.take (c : Client) : Arrival → Client
  | .byte b => emit c b
  | .overflow => c.overflow

structure Client.Bounded (c : Client) : Prop where
  screen : c.screen.Bounded
  ni : c.csiNi < 8
  state : c.outState = outNormal ∨ c.outState = outEsc ∨ c.outState = outCsi

/-- However a parameter wrapped, the clamped position is on the axis. -/
lemma clamp_lt (p : CInt) {size : ℕ} (hpos : 0 < size) (hsize : size ≤ 255) : (clamp p size).toNat < size := by
  have hrange : ∃ k : ℕ, k < size ∧ (if (size : ℤ) < (if p.toInt < 1 then 1 else p.toInt) then (size : ℤ)
      else (if p.toInt < 1 then 1 else p.toInt)) - 1 = k := by
    refine ⟨(((if (size : ℤ) < (if p.toInt < 1 then 1 else p.toInt) then (size : ℤ)
      else (if p.toInt < 1 then 1 else p.toInt)) - 1).toNat), ?_⟩
    split <;> split <;> omega
  obtain ⟨k, hk, heq⟩ := hrange
  unfold clamp
  dsimp only
  rw [heq, BitVec.ofInt_natCast, BitVec.toNat_ofNat, Nat.mod_eq_of_lt (by omega)]
  exact hk

lemma csiDispatch_screen {c : Client} (h : c.screen.Bounded) (f : Byte) : (csiDispatch c f).screen.Bounded := by
  have hzero : (0 : Byte).toNat < cols ∧ (0 : Byte).toNat < rows := by decide
  unfold csiDispatch
  split
  · split
    · exact scrClear_bounded h.written
    · exact h
  · split
    · split
      · exact ⟨hzero.1, hzero.2, h.written⟩
      · exact ⟨clamp_lt _ (by decide) (by decide), clamp_lt _ (by decide) (by decide), h.written⟩
    · split
      · split <;> exact h
      · split
        · split <;> exact h
        · split
          · exact ⟨h.x, h.y, h.written⟩
          · exact h

lemma csiDispatch_csiNi (c : Client) (f : Byte) : (csiDispatch c f).csiNi = c.csiNi := by
  unfold csiDispatch
  split
  · split <;> rfl
  · split
    · split <;> rfl
    · split
      · split <;> rfl
      · split
        · split <;> rfl
        · split <;> rfl

lemma Client.collect_bounded {c : Client} (h : c.Bounded) (b : Byte) : (c.collect b).Bounded := by
  have hni := h.ni
  unfold Client.collect
  split
  · refine ⟨csiDispatch_screen h.screen b, ?_, .inl rfl⟩
    show (csiDispatch c b).csiNi < 8
    rw [csiDispatch_csiNi]
    exact hni
  · split
    · exact ⟨h.screen, hni, h.state⟩
    · split
      · refine ⟨h.screen, ?_, h.state⟩
        show (if c.csiNi < 7 then c.csiNi + 1 else c.csiNi) < 8
        split <;> omega
      · split
        · exact ⟨h.screen, hni, h.state⟩
        · exact h

theorem emit_bounded {c : Client} (h : c.Bounded) (b : Byte) : (emit c b).Bounded := by
  unfold emit
  split
  · split
    · exact ⟨h.screen, h.ni, .inr (.inl rfl)⟩
    · exact ⟨scrPutc_bounded h.screen b, h.ni, h.state⟩
  · split
    · split
      · exact ⟨h.screen, Nat.zero_lt_succ _, .inr (.inr rfl)⟩
      · exact ⟨h.screen, h.ni, .inl rfl⟩
    · split
      · exact c.collect_bounded h b
      · exact ⟨h.screen, h.ni, .inl rfl⟩

lemma Client.Bounded.puts {c : Client} (h : c.Bounded) (text : String) : (c.puts text).Bounded :=
  ⟨foldl_scrPutc_bounded h.screen _, h.ni, h.state⟩

lemma Client.Bounded.newline {c : Client} (h : c.Bounded) : c.newline.Bounded :=
  ⟨scrPutc_bounded (scrPutc_bounded h.screen 0x0D) 0x0A, h.ni, h.state⟩

lemma started_bounded (cell : ℕ → Cell) : (Client.started cell).Bounded := by
  have hopened : (Client.opened cell).Bounded := ⟨scrOpen_bounded cell, Nat.zero_lt_succ _, .inl rfl⟩
  exact (hopened.puts _).newline

lemma Client.Bounded.take {c : Client} (h : c.Bounded) (a : Arrival) : (c.take a).Bounded := by
  cases a with
  | byte b => exact emit_bounded h b
  | overflow => exact (h.puts _).newline

/-- Whatever arrives, and with overflows anywhere in it. -/
theorem client_bounded (cell : ℕ → Cell) (arrivals : List Arrival) :
    ((arrivals.foldl Client.take (.started cell)).screen.scrX.toNat < 80 ∧
      (arrivals.foldl Client.take (.started cell)).screen.scrY.toNat < 25 ∧
      (arrivals.foldl Client.take (.started cell)).csiNi < 8 ∧
      (arrivals.foldl Client.take (.started cell)).outState ∈ [0, 1, 2]) ∧
    ∀ i ∈ (arrivals.foldl Client.take (.started cell)).screen.vram.written, i < 2000 := by
  have hrun : ∀ (c : Client), c.Bounded → (arrivals.foldl Client.take c).Bounded := by
    induction arrivals with
    | nil => exact fun c h => h
    | cons a arrivals ih => exact fun c h => ih _ (h.take a)
  have h := hrun _ (started_bounded cell)
  refine ⟨⟨h.screen.x, h.screen.y, h.ni, ?_⟩, h.screen.written⟩
  rcases h.state with hstate | hstate | hstate <;> rw [hstate] <;> decide

end PicoV9k.Terminal
