import PicoV9k.VtasmClient

/-!
# The two clients agree

The assembly translator follows the C one byte for byte, as long as no parameter needs more
than a byte and no sequence more than eight parameters. The parser variables that the assembly
client does not initialise are first read after a sequence has set them.
-/
namespace PicoV9k.Terminal
open PicoV9k.Bus

def Vtasm.Machine.screen (m : Vtasm.Machine) : Screen := ⟨m.vram, m.scrX, m.scrY, m.scrAttr⟩

def Vtasm.Machine.setScreen (m : Vtasm.Machine) (s : Screen) : Vtasm.Machine :=
  { m with vram := s.vram, scrX := s.scrX, scrY := s.scrY, scrAttr := s.scrAttr }

@[simp] lemma setScreen_screen (m : Vtasm.Machine) (s : Screen) : (m.setScreen s).screen = s := rfl

lemma next_offset {di : Vtasm.Word} {i : ℕ} (hdi : di.toNat = 2 * i) (hi : i < 2048) :
    (di + 2).toNat = 2 * (i + 1) := by
  have htwo : (2 : Vtasm.Word).toNat = 2 := rfl
  rw [BitVec.toNat_add, htwo]
  omega

/-- The string store is the loop over the cells. -/
lemma repStosw_eq (n : ℕ) (v : Vram) {di : Vtasm.Word} {i : ℕ} (hdi : di.toNat = 2 * i) (hn : i + n ≤ 2048) :
    (Vtasm.repStosw blankCell n (v, di)).1 = v.blank i n := by
  induction n generalizing v di i with
  | zero => rfl
  | succ n ih =>
    have hstore : Vtasm.storeWord v di blankCell = v.store i blankCell := by
      unfold Vtasm.storeWord
      rw [hdi, Nat.mul_div_cancel_left i Nat.two_pos]
    unfold Vtasm.repStosw Vram.blank
    rw [hstore]
    exact ih _ (next_offset hdi (by omega)) (by omega)

/-- The string move is the loop that raises the rows. -/
lemma repMovsw_eq (n : ℕ) (v : Vram) {si di : Vtasm.Word} {i : ℕ} (hsi : si.toNat = 2 * (i + cols))
    (hdi : di.toNat = 2 * i) (hn : i + cols + n ≤ 2048) :
    (Vtasm.repMovsw n (v, si, di)).1 = v.raise i n ∧ (Vtasm.repMovsw n (v, si, di)).2.2.toNat = 2 * (i + n) := by
  induction n generalizing v si di i with
  | zero => exact ⟨rfl, hdi⟩
  | succ n ih =>
    have hstore : Vtasm.storeWord v di (v.cell (si.toNat / 2)) = v.store i (v.cell (i + cols)) := by
      unfold Vtasm.storeWord
      rw [hdi, hsi, Nat.mul_div_cancel_left i Nat.two_pos, Nat.mul_div_cancel_left (i + cols) Nat.two_pos]
    have hsi' : (si + 2).toNat = 2 * (i + 1 + cols) := by
      rw [next_offset hsi (by omega)]
      omega
    obtain ⟨hcells, hend⟩ := ih (v.store i (v.cell (i + cols))) hsi' (next_offset hdi (by omega)) (by omega)
    unfold Vtasm.repMovsw Vram.raise
    rw [hstore]
    exact ⟨hcells, hend.trans (by omega)⟩

lemma stosw_agrees (m : Vtasm.Machine) {n : ℕ} (hn : 0 + n ≤ 2048) :
    { m with vram := (Vtasm.repStosw blankCell n (m.vram, 0)).1, scrX := 0, scrY := 0 } =
      m.setScreen { m.screen with vram := m.screen.vram.blank 0 n, scrX := 0, scrY := 0 } := by
  rw [repStosw_eq n m.vram (i := 0) rfl hn]
  rfl

lemma scrClear_agrees (m : Vtasm.Machine) : Vtasm.scrClear m = m.setScreen (scrClear m.screen) :=
  stosw_agrees m (n := rows * cols) (by decide)

lemma movsw_agrees (m : Vtasm.Machine) {n : ℕ} (hn : 0 + cols + n ≤ 2048) :
    { m with vram :=
      (Vtasm.repStosw blankCell cols
        ((Vtasm.repMovsw n (m.vram, BitVec.ofNat 16 (cols * 2), 0)).1,
          (Vtasm.repMovsw n (m.vram, BitVec.ofNat 16 (cols * 2), 0)).2.2)).1 } =
      m.setScreen { m.screen with vram := (m.screen.vram.raise 0 n).blank n cols } := by
  have hsi : (BitVec.ofNat 16 (cols * 2) : Vtasm.Word).toNat = 2 * (0 + cols) := by decide
  have hdi : (0 : Vtasm.Word).toNat = 2 * 0 := rfl
  obtain ⟨hcells, hend⟩ := repMovsw_eq n m.vram hsi hdi hn
  rw [hcells, repStosw_eq cols _ (i := n) (hend.trans (by rw [Nat.zero_add])) (by omega)]
  rfl

lemma scrScroll_agrees (m : Vtasm.Machine) : Vtasm.scrScroll m = m.setScreen (scrScroll m.screen) :=
  movsw_agrees m (n := (rows - 1) * cols) (by decide)

/-- A byte in a word. -/
lemma byte_toNat (b : Byte) : (b.setWidth 16).toNat = b.toNat := by
  have := b.isLt
  rw [BitVec.toNat_setWidth]
  omega

lemma putGlyph_offset {s : Screen} (h : s.Bounded) :
    ((s.scrY.setWidth 16 * 80 + s.scrX.setWidth 16 : Vtasm.Word) <<< 1).toNat / 2 = s.cursor := by
  have hx := h.x
  have hy := h.y
  have heighty : (80 : Vtasm.Word).toNat = 80 := rfl
  unfold Screen.cursor
  rw [lineOff_eq _ hy, BitVec.toNat_shiftLeft, BitVec.toNat_add, BitVec.toNat_mul, byte_toNat, byte_toNat, heighty,
    Nat.shiftLeft_eq]
  simp only [cols, rows] at *
  omega

lemma putc_agrees {m : Vtasm.Machine} (h : m.screen.Bounded) (al : Byte) :
    Vtasm.scrPutc m al = m.setScreen (scrPutc m.screen al) := by
  unfold Vtasm.scrPutc scrPutc
  by_cases hcr : al = 0x0D
  · rw [if_pos hcr, if_pos hcr]
    rfl
  rw [if_neg hcr, if_neg hcr]
  by_cases hlf : al = 0x0A
  · rw [if_pos hlf, if_pos hlf]
    by_cases hrow : rows - 1 ≤ m.scrY.toNat
    · have hlast : ¬ m.screen.scrY.toNat < rows - 1 := Nat.not_lt.mpr hrow
      rw [if_pos hrow, if_neg hlast]
      exact scrScroll_agrees m
    · have hmore : m.screen.scrY.toNat < rows - 1 := Nat.lt_of_not_le hrow
      rw [if_neg hrow, if_pos hmore]
      rfl
  rw [if_neg hlf, if_neg hlf]
  by_cases hbs : al = 0x08
  · rw [if_pos hbs, if_pos hbs]
    by_cases hcol : m.scrX = 0
    · have hzero : ¬ 0 < m.screen.scrX.toNat := by
        show ¬ 0 < m.scrX.toNat
        rw [hcol]
        exact Nat.lt_irrefl 0
      rw [if_pos hcol, if_neg hzero]
      rfl
    · have hpos : 0 < m.screen.scrX.toNat := Nat.pos_of_ne_zero fun h0 => hcol (BitVec.eq_of_toNat_eq h0)
      rw [if_neg hcol, if_pos hpos]
      rfl
  rw [if_neg hbs, if_neg hbs]
  by_cases hctl : al.toNat < 0x20
  · rw [if_pos hctl, if_pos hctl]
    rfl
  rw [if_neg hctl, if_neg hctl]
  have hstore : Vtasm.storeWord m.vram ((m.scrY.setWidth 16 * 80 + m.scrX.setWidth 16 : Vtasm.Word) <<< 1)
      (m.screen.glyph al) = m.vram.store m.screen.cursor (m.screen.glyph al) := by
    unfold Vtasm.storeWord
    rw [← putGlyph_offset h]
    rfl
  unfold Vtasm.putGlyph
  by_cases hmargin : cols - 1 ≤ m.scrX.toNat
  · have hlast : ¬ m.screen.scrX.toNat < cols - 1 := Nat.not_lt.mpr hmargin
    refine (if_pos hmargin).trans ?_
    dsimp only
    rw [if_neg hlast]
    exact congrArg (fun v => { m with vram := v }) hstore
  · have hmore : m.screen.scrX.toNat < cols - 1 := Nat.lt_of_not_le hmargin
    refine (if_neg hmargin).trans ?_
    dsimp only
    rw [if_pos hmore]
    exact congrArg (fun v => { m with vram := v, scrX := m.scrX + 1 }) hstore

/-- A flag in a byte. -/
def flag (b : Bool) : Byte := if b then 1 else 0

/-- The parser variables of the two clients hold the same. -/
structure SameCsi (c : Client) (m : Vtasm.Machine) : Prop where
  priv : m.csiPriv = flag c.csiPriv
  seen : m.csiSeen = flag c.csiSeen
  ni : m.csiNi.toNat = c.csiNi
  param : ∀ i < 8, c.csiParam i = (m.csiParam i).setWidth 16

lemma flag_zero (b : Bool) : flag b = 0 ↔ ¬ b := by cases b <;> decide

lemma param_eq_iff (p k : Byte) : (p.setWidth 16 : CInt) = k.setWidth 16 ↔ p = k := by
  constructor
  · intro h
    have hlow := congrArg (BitVec.setWidth 8) h
    rwa [BitVec.setWidth_setWidth_of_le _ (by decide), BitVec.setWidth_setWidth_of_le _ (by decide),
      BitVec.setWidth_eq, BitVec.setWidth_eq] at hlow
  · rintro rfl
    rfl

lemma SameCsi.param_iff {c : Client} {m : Vtasm.Machine} (h : SameCsi c m) {i : ℕ} (hi : i < 8) (k : Byte) :
    c.csiParam i = k.setWidth 16 ↔ m.csiParam i = k := by
  rw [h.param i hi]
  exact param_eq_iff _ k

lemma clamp_agrees : ∀ p : Byte, clamp (p.setWidth 16) rows = Vtasm.clamp p (BitVec.ofNat 8 rows) ∧
    clamp (p.setWidth 16) cols = Vtasm.clamp p (BitVec.ofNat 8 cols) := by decide +kernel

/-- The attribute that a parameter stands for. -/
def sgrMark (p : Byte) : Byte := if p = 7 then aRev else if p = 4 then aUl else 0

lemma marked (a p : Byte) : (if p = 4 then (if p = 7 then a ||| aRev else a) ||| aUl
    else if p = 7 then a ||| aRev else a) = a ||| sgrMark p := by
  unfold sgrMark
  by_cases h7 : p = 7
  · subst h7
    rfl
  · rw [if_neg h7, if_neg h7]
    by_cases h4 : p = 4
    · rw [if_pos h4, if_pos h4]
    · rw [if_neg h4, if_neg h4]
      exact BitVec.or_zero.symm

lemma sgrBits_mark (a p : Byte) : sgrBits a (p.setWidth 16) = a ||| sgrMark p := by
  have hseven : (p.setWidth 16 : CInt) = 7 ↔ p = 7 := param_eq_iff p 7
  have hfour : (p.setWidth 16 : CInt) = 4 ↔ p = 4 := param_eq_iff p 4
  unfold sgrBits
  dsimp only
  simp only [hseven, hfour]
  exact marked a p

lemma sgrLoop_first (param : ℕ → Byte) (dl : Byte) :
    Vtasm.sgrLoop param 0 dl = dl ||| sgrMark (param 0) := marked dl (param 0)

lemma sgrLoop_next (param : ℕ → Byte) (bx : ℕ) (dl : Byte) :
    Vtasm.sgrLoop param (bx + 1) dl = Vtasm.sgrLoop param bx (dl ||| sgrMark (param (bx + 1))) :=
  congrArg (Vtasm.sgrLoop param bx) (marked dl (param (bx + 1)))

/-- From the last parameter to the first the bits add up to the same. -/
lemma sgrLoop_eq (param : ℕ → Byte) (n : ℕ) (dl : Byte) : Vtasm.sgrLoop param n dl =
    (List.range (n + 1)).foldl (fun a i => a ||| sgrMark (param i)) dl := by
  have hlast (l : List ℕ) (a b : Byte) : l.foldl (fun a i => a ||| sgrMark (param i)) (a ||| b) =
      l.foldl (fun a i => a ||| sgrMark (param i)) a ||| b := by
    induction l generalizing a with
    | nil => rfl
    | cons i l ih =>
      simp only [List.foldl_cons]
      rw [← ih, BitVec.or_assoc, BitVec.or_comm b, ← BitVec.or_assoc]
  induction n generalizing dl with
  | zero => exact sgrLoop_first param dl
  | succ n ih =>
    rw [sgrLoop_next, List.range_succ, List.foldl_append, ih, hlast]
    rfl

lemma sgr_agrees {c : Client} {m : Vtasm.Machine} (h : SameCsi c m) (hni : c.csiNi < 8) :
    Vtasm.sgrLoop m.csiParam m.csiNi.toNat 0 =
      (List.range (c.csiNi + 1)).foldl (fun a i => sgrBits a (c.csiParam i)) 0 := by
  rw [sgrLoop_eq, h.ni]
  have hbits : ∀ (l : List ℕ) (a : Byte), (∀ i ∈ l, i < 8) →
      l.foldl (fun a i => a ||| sgrMark (m.csiParam i)) a = l.foldl (fun a i => sgrBits a (c.csiParam i)) a := by
    intro l
    induction l with
    | nil => exact fun a _ => rfl
    | cons i l ih =>
      intro a hl
      simp only [List.foldl_cons]
      rw [h.param i (hl i List.mem_cons_self), sgrBits_mark]
      exact ih _ fun j hj => hl j (List.mem_cons_of_mem _ hj)
  refine hbits _ 0 fun i hi => ?_
  have := List.mem_range.mp hi
  omega

/-- One byte keeps the parameters small enough for the assembly client: a value fits a byte, and
no more than eight are opened. -/
def Client.Fits (c : Client) (b : Byte) : Prop :=
  c.outState = outCsi → (isDigit b → (c.csiParam c.csiNi).toNat * 10 + (b - ascii '0').toNat ≤ 255) ∧
    (b = ascii ';' → c.csiNi < 7)

instance (c : Client) (b : Byte) : Decidable (c.Fits b) := inferInstanceAs (Decidable (_ → _ ∧ _))

def Client.Fitting : Client → List Byte → Prop
  | _, [] => True
  | c, b :: stream => c.Fits b ∧ (emit c b).Fitting stream

instance Client.decidableFitting : (c : Client) → (stream : List Byte) → Decidable (c.Fitting stream)
  | _, [] => isTrue trivial
  | c, b :: stream =>
    have := Client.decidableFitting (emit c b) stream
    inferInstanceAs (Decidable (_ ∧ _))

/-- The clients show and hold the same; outside a sequence the parser variables count only if
they were `known` to be the same before. -/
structure Agrees (known : Prop) (c : Client) (m : Vtasm.Machine) : Prop where
  screen : m.screen = c.screen
  hidden : m.cursorHidden = flag c.cursorHidden
  state : m.outState.toNat = c.outState
  csi : known ∨ c.outState = outCsi → SameCsi c m
  bounded : c.Bounded

section Step

variable {known : Prop} {c : Client} {m : Vtasm.Machine}

/-- Agreement on what a final byte may change. -/
structure Dispatched (c : Client) (m : Vtasm.Machine) : Prop where
  screen : m.screen = c.screen
  hidden : m.cursorHidden = flag c.cursorHidden
  csi : SameCsi c m

lemma dispatched_setScreen (h : Dispatched c m) (s : Screen) : Dispatched { c with screen := s } (m.setScreen s) :=
  ⟨rfl, h.hidden, h.csi.priv, h.csi.seen, h.csi.ni, h.csi.param⟩

/-- Two tests one after the other, as one. -/
lemma mode_split {p q r : Prop} [Decidable p] [Decidable q] [Decidable r] (h : p ↔ ¬ q ∧ r)
    (on off : Vtasm.Machine) : (if q then off else if r then on else off) = if p then on else off := by
  by_cases hq : q
  · rw [if_pos hq, if_neg fun hp => (h.mp hp).1 hq]
  · rw [if_neg hq]
    by_cases hr : r
    · rw [if_pos hr, if_pos (h.mpr ⟨hq, hr⟩)]
    · rw [if_neg hr, if_neg fun hp => hr (h.mp hp).2]

lemma csiDispatch_agrees (h : Dispatched c m) (hni : c.csiNi < 8) (f : Byte) :
    Dispatched (csiDispatch c f) (Vtasm.csiDispatch m f) := by
  have hcsi := h.csi
  have hparam (k : Byte) : c.csiParam 0 = k.setWidth 16 ↔ m.csiParam 0 = k := hcsi.param_iff (by decide) k
  have hpriv : m.csiPriv = 0 ↔ ¬ c.csiPriv := by rw [hcsi.priv, flag_zero]
  have hseen : m.csiSeen = 0 ↔ ¬ c.csiSeen := by rw [hcsi.seen, flag_zero]
  have hfirst : m.csiNi = 0 ↔ c.csiNi = 0 := by
    rw [← hcsi.ni]
    exact ⟨fun h0 => congrArg BitVec.toNat h0, fun h0 => BitVec.eq_of_toNat_eq h0⟩
  unfold csiDispatch Vtasm.csiDispatch
  by_cases hJ : f = ascii 'J'
  · rw [if_pos hJ, if_pos hJ]
    have htwo : c.csiParam 0 = 2 ↔ m.csiParam 0 = 2 := hparam 2
    by_cases h2 : m.csiParam 0 = 2
    · rw [if_pos h2, if_pos (htwo.mpr h2), scrClear_agrees, h.screen]
      exact dispatched_setScreen h _
    · rw [if_neg h2, if_neg (mt htwo.mp h2)]
      exact h
  rw [if_neg hJ, if_neg hJ]
  by_cases hH : f = ascii 'H'
  · rw [if_pos hH, if_pos hH]
    have hzero : c.csiParam 0 = 0 ↔ m.csiParam 0 = 0 := hparam 0
    have hhome : (m.csiSeen = 0 ∨ m.csiNi = 0 ∧ m.csiParam 0 = 0) ↔
        (¬ c.csiSeen ∨ c.csiNi = 0 ∧ c.csiParam 0 = 0) := by rw [hseen, hfirst, hzero]
    by_cases hhere : m.csiSeen = 0 ∨ m.csiNi = 0 ∧ m.csiParam 0 = 0
    · rw [if_pos hhere, if_pos (hhome.mp hhere), ← h.screen]
      exact dispatched_setScreen h { m.screen with scrX := 0, scrY := 0 }
    · rw [if_neg hhere, if_neg (mt hhome.mpr hhere), hcsi.param 0 (by decide), hcsi.param 1 (by decide),
        (clamp_agrees _).1, (clamp_agrees _).2, ← h.screen]
      exact dispatched_setScreen h { m.screen with scrY := _, scrX := _ }
  rw [if_neg hH, if_neg hH]
  have h25 : c.csiParam 0 = 25 ↔ m.csiParam 0 = 25 := hparam 25
  have hmode : (c.csiPriv ∧ c.csiParam 0 = 25) ↔ (¬ m.csiPriv = 0 ∧ m.csiParam 0 = 25) := by
    rw [hpriv, not_not, h25]
  by_cases hl : f = ascii 'l'
  · rw [if_pos hl, if_pos hl, mode_split hmode]
    split
    · exact ⟨h.screen, rfl, hcsi.priv, hcsi.seen, hcsi.ni, hcsi.param⟩
    · exact h
  rw [if_neg hl, if_neg hl]
  by_cases hh : f = ascii 'h'
  · rw [if_pos hh, if_pos hh, mode_split hmode]
    split
    · exact ⟨h.screen, rfl, hcsi.priv, hcsi.seen, hcsi.ni, hcsi.param⟩
    · exact h
  rw [if_neg hh, if_neg hh]
  by_cases hm : f = ascii 'm'
  · rw [if_pos hm, if_pos hm, sgr_agrees hcsi hni, ← h.screen]
    exact dispatched_setScreen h { m.screen with scrAttr := _ }
  rw [if_neg hm, if_neg hm]
  -- the private quit request is no business of the C client
  by_cases hq : f = ascii 'q'
  · rw [if_pos hq]
    split
    · exact ⟨h.screen, h.hidden, hcsi.priv, hcsi.seen, hcsi.ni, hcsi.param⟩
    · exact h
  · rw [if_neg hq]
    exact h

/-- Without a carry out of the byte both clients compute the same value. -/
lemma digit_agrees {p b : Byte} (h : p.toNat * 10 + (b - ascii '0').toNat ≤ 255) :
    (p.setWidth 16 * 10 + (b - ascii '0').setWidth 16 : CInt) = (Vtasm.digit p b).setWidth 16 := by
  have hten : (10 : CInt).toNat = 10 := rfl
  have hten' : (10 : Vtasm.Word).toNat = 10 := rfl
  apply BitVec.eq_of_toNat_eq
  unfold Vtasm.digit
  dsimp only
  rw [byte_toNat, BitVec.toNat_add, BitVec.toNat_mul, byte_toNat, byte_toNat, hten, BitVec.toNat_add,
    BitVec.toNat_setWidth, BitVec.toNat_mul, byte_toNat, hten']
  have hproduct : p.toNat * 10 % 2 ^ 16 = p.toNat * 10 := Nat.mod_eq_of_lt (by omega)
  have hlow : p.toNat * 10 % 2 ^ 8 = p.toNat * 10 := Nat.mod_eq_of_lt (by omega)
  rw [hproduct, hlow, Nat.mod_eq_of_lt (by omega), Nat.mod_eq_of_lt (by omega)]

lemma Agrees.collect (h : Agrees known c m) (hstate : c.outState = outCsi) {b : Byte} (hfits : c.Fits b) :
    Agrees known (c.collect b) (Vtasm.collect m b) := by
  have hbounded := c.collect_bounded h.bounded b
  have hcsi := h.csi (.inr hstate)
  have hni := h.bounded.ni
  obtain ⟨hdigit, hsemi⟩ := hfits hstate
  unfold Client.collect at hbounded ⊢
  unfold Vtasm.collect
  by_cases hfinal : isFinal b
  · rw [if_pos hfinal] at hbounded
    rw [if_pos hfinal, if_pos hfinal]
    obtain ⟨hscreen, hhidden, hsame⟩ := csiDispatch_agrees ⟨h.screen, h.hidden, hcsi⟩ hni b
    exact ⟨hscreen, hhidden, rfl, fun _ => ⟨hsame.priv, hsame.seen, hsame.ni, hsame.param⟩, hbounded⟩
  rw [if_neg hfinal] at hbounded
  rw [if_neg hfinal, if_neg hfinal]
  by_cases hd : isDigit b
  · rw [if_pos hd] at hbounded
    rw [if_pos hd, if_pos hd]
    have hvalue : c.digit b = (Vtasm.digit (m.csiParam m.csiNi.toNat) b).setWidth 16 := by
      have hsmall := hdigit hd
      rw [hcsi.param _ hni, byte_toNat] at hsmall
      unfold Client.digit
      rw [hcsi.param _ hni, hcsi.ni]
      exact digit_agrees hsmall
    refine ⟨h.screen, h.hidden, h.state, fun _ => ⟨hcsi.priv, rfl, hcsi.ni, fun i hi => ?_⟩, hbounded⟩
    show Function.update c.csiParam c.csiNi (c.digit b) i =
      (Function.update m.csiParam m.csiNi.toNat (Vtasm.digit (m.csiParam m.csiNi.toNat) b) i).setWidth 16
    rw [hvalue, hcsi.ni]
    by_cases hat : i = c.csiNi
    · rw [hat, Function.update_self, Function.update_self]
    · rw [Function.update_of_ne hat, Function.update_of_ne hat]
      exact hcsi.param i hi
  rw [if_neg hd] at hbounded
  rw [if_neg hd, if_neg hd]
  by_cases hs : b = ascii ';'
  · rw [if_pos hs] at hbounded
    rw [if_pos hs, if_pos hs]
    have hmore := hsemi hs
    have hbelow : ¬ 7 ≤ m.csiNi.toNat := by
      rw [hcsi.ni]
      omega
    have hnext : (m.csiNi + 1).toNat = c.csiNi + 1 := by
      rw [succ_toNat (by rw [hcsi.ni]; exact hni : m.csiNi.toNat < 8) (by decide), hcsi.ni]
    rw [if_neg hbelow]
    refine ⟨h.screen, h.hidden, h.state, fun _ => ⟨hcsi.priv, rfl, ?_, fun i hi => ?_⟩, hbounded⟩
    · show (m.csiNi + 1).toNat = if c.csiNi < 7 then c.csiNi + 1 else c.csiNi
      rw [if_pos hmore, hnext]
    · show Function.update c.csiParam (if c.csiNi < 7 then c.csiNi + 1 else c.csiNi) 0 i =
        (Function.update m.csiParam (m.csiNi + 1).toNat 0 i).setWidth 16
      rw [if_pos hmore, hnext]
      by_cases hat : i = c.csiNi + 1
      · rw [hat, Function.update_self, Function.update_self]
        rfl
      · rw [Function.update_of_ne hat, Function.update_of_ne hat]
        exact hcsi.param i hi
  rw [if_neg hs] at hbounded
  rw [if_neg hs, if_neg hs]
  by_cases hq : b = ascii '?'
  · rw [if_pos hq] at hbounded
    rw [if_pos hq, if_pos hq]
    exact ⟨h.screen, h.hidden, h.state, fun _ => ⟨rfl, hcsi.seen, hcsi.ni, hcsi.param⟩, hbounded⟩
  · rw [if_neg hq, if_neg hq]
    exact h

/-- One byte of the stream. -/
theorem Agrees.emit (h : Agrees known c m) {b : Byte} (hfits : c.Fits b) :
    Agrees known (emit c b) (Vtasm.emit m b) := by
  have hbounded := emit_bounded h.bounded b
  have hstate (k : ℕ) (v : Byte) (hv : v.toNat = k) : m.outState = v ↔ c.outState = k := by
    rw [← h.state, ← hv]
    exact ⟨fun heq => congrArg BitVec.toNat heq, fun heq => BitVec.eq_of_toNat_eq heq⟩
  unfold Terminal.emit at hbounded ⊢
  unfold Vtasm.emit
  by_cases hnormal : c.outState = outNormal
  · have hknown (hk : known ∨ c.outState = outCsi) : known :=
      hk.resolve_right fun hcsi => absurd (hnormal.symm.trans hcsi) (by decide)
    rw [if_pos hnormal] at hbounded
    rw [if_pos hnormal, if_pos ((hstate 0 0 rfl).mpr hnormal)]
    by_cases hesc : b = esc
    · rw [if_pos hesc] at hbounded
      rw [if_pos hesc, if_pos hesc]
      refine ⟨h.screen, h.hidden, rfl, fun hk => ?_, hbounded⟩
      have hcsi := h.csi (.inl (hk.resolve_right (by decide : ¬ outEsc = outCsi)))
      exact ⟨hcsi.priv, hcsi.seen, hcsi.ni, hcsi.param⟩
    · rw [if_neg hesc] at hbounded
      have hscreen : m.screen.Bounded := h.screen ▸ h.bounded.screen
      rw [if_neg hesc, if_neg hesc, putc_agrees hscreen b, h.screen]
      refine ⟨rfl, h.hidden, h.state, fun hk => ?_, hbounded⟩
      have hcsi := h.csi (.inl (hknown hk))
      exact ⟨hcsi.priv, hcsi.seen, hcsi.ni, hcsi.param⟩
  rw [if_neg hnormal] at hbounded
  rw [if_neg hnormal, if_neg (mt (hstate 0 0 rfl).mp hnormal)]
  by_cases hescape : c.outState = outEsc
  · rw [if_pos hescape] at hbounded
    rw [if_pos hescape, if_pos ((hstate 1 1 rfl).mpr hescape)]
    by_cases hopen : b = ascii '['
    · rw [if_pos hopen] at hbounded
      rw [if_pos hopen, if_pos hopen]
      exact ⟨h.screen, h.hidden, rfl, fun _ => ⟨rfl, rfl, rfl, fun _ _ => rfl⟩, hbounded⟩
    · rw [if_neg hopen] at hbounded
      rw [if_neg hopen, if_neg hopen]
      refine ⟨h.screen, h.hidden, rfl, fun hk => ?_, hbounded⟩
      have hcsi := h.csi (.inl (hk.resolve_right (by decide : ¬ outNormal = outCsi)))
      exact ⟨hcsi.priv, hcsi.seen, hcsi.ni, hcsi.param⟩
  rw [if_neg hescape, if_neg (mt (hstate 1 1 rfl).mp hescape)]
  have hcsi : c.outState = outCsi := (h.bounded.state.resolve_left hnormal).resolve_left hescape
  rw [if_pos hcsi]
  exact h.collect hcsi hfits

end Step

/-- The assembly client found its parser variables zeroed, as the C compiler's start code leaves
its own. -/
structure Vtasm.Leftover.Zeroed (l : Vtasm.Leftover) : Prop where
  priv : l.csiPriv = 0
  seen : l.csiSeen = 0
  ni : l.csiNi = 0
  param : ∀ i < 8, l.csiParam i = 0

lemma opened_agrees (l : Vtasm.Leftover) : Agrees l.Zeroed (.opened l.cell) (.opened l) := by
  have hclear := scrClear_agrees
    ⟨⟨l.cell, []⟩, 0, 0, 0, 0, 0, l.csiPriv, l.csiSeen, l.csiNi, l.csiParam, 0⟩
  unfold Vtasm.Machine.opened
  rw [hclear]
  refine ⟨setScreen_screen _ _, rfl, rfl, fun hk => ?_, scrOpen_bounded l.cell, Nat.zero_lt_succ _, .inl rfl⟩
  have hzero := hk.resolve_right (by decide : ¬ outNormal = outCsi)
  refine ⟨hzero.priv, hzero.seen, congrArg BitVec.toNat hzero.ni, fun i hi => ?_⟩
  show (0 : CInt) = (l.csiParam i).setWidth 16
  rw [hzero.param i hi]
  rfl

/-- A sequence has been opened on the way. -/
def Client.Introduced (c : Client) (stream : List Byte) : Prop :=
  ∃ taken, taken <+: stream ∧ (taken.foldl emit c).outState = outCsi

lemma Agrees.run {known : Prop} {c : Client} {m : Vtasm.Machine} (h : Agrees known c m) (stream : List Byte)
    (hfit : c.Fitting stream) :
    Agrees (known ∨ c.Introduced stream) (stream.foldl Terminal.emit c) (stream.foldl Vtasm.emit m) := by
  induction stream generalizing known c m with
  | nil =>
    refine ⟨h.screen, h.hidden, h.state, fun hk => ?_, h.bounded⟩
    rcases hk with (hknown | ⟨taken, hprefix, hcsi⟩) | hcsi
    · exact h.csi (.inl hknown)
    · rw [List.prefix_nil.mp hprefix] at hcsi
      exact h.csi (.inr hcsi)
    · exact h.csi (.inr hcsi)
  | cons b stream ih =>
    have hnow : Agrees (known ∨ c.outState = outCsi) c m :=
      ⟨h.screen, h.hidden, h.state, fun hk => h.csi (hk.elim id .inr), h.bounded⟩
    obtain ⟨hscreen, hhidden, hstate, hsame, hbounded⟩ := ih (hnow.emit hfit.1) hfit.2
    refine ⟨hscreen, hhidden, hstate, fun hk => hsame ?_, hbounded⟩
    rcases hk with (hknown | ⟨taken, hprefix, hcsi⟩) | hcsi
    · exact .inl (.inl (.inl hknown))
    · cases taken with
      | nil => exact .inl (.inl (.inr hcsi))
      | cons first taken =>
        obtain ⟨rfl, hrest⟩ := List.cons_prefix_cons.mp hprefix
        exact .inl (.inr ⟨taken, hrest, hcsi⟩)
    · exact .inr hcsi

/-- Both clients, started on a cleared screen and fed the same stream, show the same cells, cursor
and attributes and are in the same mode and parser state. -/
theorem renderers_agree (l : Vtasm.Leftover) (stream : List Byte) (h : (Client.opened l.cell).Fitting stream) :
    Agrees (l.Zeroed ∨ (Client.opened l.cell).Introduced stream)
      (stream.foldl emit (.opened l.cell)) (stream.foldl Vtasm.emit (.opened l)) :=
  (opened_agrees l).run stream h

/-- The menu draws a marked letter in the second row and hides the cursor. -/
theorem renderers_agree_menu :
    let l : Vtasm.Leftover := ⟨fun _ => 0x1234, 0xFF, 0xFF, 0xFF, fun _ => 0xFF⟩
    let stream := [esc, 0x5B, 0x32, 0x3B, 0x33, 0x48, esc, 0x5B, 0x37, 0x3B, 0x34, 0x6D, 0x41,
      esc, 0x5B, 0x3F, 0x32, 0x35, 0x6C]
    let c := stream.foldl emit (.opened l.cell)
    let m := stream.foldl Vtasm.emit (.opened l)
    m.screen = c.screen ∧ m.cursorHidden = 1 ∧ SameCsi c m ∧ m.vram.cell 82 = 0xA0A5 := by
  dsimp only
  have h := renderers_agree ⟨fun _ => 0x1234, 0xFF, 0xFF, 0xFF, fun _ => 0xFF⟩
    [esc, 0x5B, 0x32, 0x3B, 0x33, 0x48, esc, 0x5B, 0x37, 0x3B, 0x34, 0x6D, 0x41, esc, 0x5B, 0x3F, 0x32, 0x35, 0x6C]
    (by decide +kernel)
  have hopened : [esc, 0x5B] <+: [esc, 0x5B, 0x32, 0x3B, 0x33, 0x48, esc, 0x5B, 0x37, 0x3B, 0x34, 0x6D, 0x41,
      esc, 0x5B, 0x3F, 0x32, 0x35, 0x6C] := by decide
  refine ⟨h.screen, by decide +kernel, h.csi (.inl (.inr ⟨_, hopened, rfl⟩)), by decide +kernel⟩

end PicoV9k.Terminal
