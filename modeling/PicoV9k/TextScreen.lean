import PicoV9k.DmaRegisters

/-!
# The text screen of the Victor client

`dmaterm.c`, the direct screen layer: character cells in VRAM, a cursor that is clamped
at the right margin and the scroll on the bottom row. Every store notes its cell index.
-/
namespace PicoV9k.Terminal
open PicoV9k.Bus

abbrev Cell := BitVec 16

abbrev cols : ℕ := 80
abbrev rows : ℕ := 25
abbrev charBase : Cell := 0x64
abbrev aRev : Byte := 0x80
abbrev aUl : Byte := 0x20
abbrev blankCell : Cell := 0x20 + charBase

def ascii (c : Char) : Byte := BitVec.ofNat 8 c.toNat

/-- The cells of the VRAM segment; `written` is instrumentation, the latest store first. -/
structure Vram where
  cell : ℕ → Cell
  written : List ℕ

def Vram.store (v : Vram) (i : ℕ) (c : Cell) : Vram := ⟨Function.update v.cell i c, i :: v.written⟩

/-- `vram[i] = BLANK_CELL` for `n` cells from `i` on. -/
def Vram.blank (v : Vram) (i : ℕ) : ℕ → Vram
  | 0 => v
  | n + 1 => Vram.blank (v.store i blankCell) (i + 1) n

/-- `vram[i] = vram[i + COLS]` for `n` cells from `i` on. -/
def Vram.raise (v : Vram) (i : ℕ) : ℕ → Vram
  | 0 => v
  | n + 1 => Vram.raise (v.store i (v.cell (i + cols))) (i + 1) n

def lineOff : List ℕ :=
  [0, 80, 160, 240, 320,
   400, 480, 560, 640, 720,
   800, 880, 960, 1040, 1120,
   1200, 1280, 1360, 1440, 1520,
   1600, 1680, 1760, 1840, 1920]

structure Screen where
  vram : Vram
  scrX : Byte
  scrY : Byte
  scrAttr : Byte

def scrClear (s : Screen) : Screen := { s with vram := s.vram.blank 0 (rows * cols), scrX := 0, scrY := 0 }

def scrScroll (s : Screen) : Screen :=
  { s with vram := (s.vram.raise 0 ((rows - 1) * cols)).blank ((rows - 1) * cols) cols }

/-- The cell under the cursor. -/
def Screen.cursor (s : Screen) : ℕ := lineOff.getD s.scrY.toNat 0 + s.scrX.toNat

/-- A glyph with the current attributes. -/
def Screen.glyph (s : Screen) (b : Byte) : Cell :=
  (b.setWidth 16 + charBase) ||| (s.scrAttr.setWidth 16 <<< 8)

def scrPutc (s : Screen) (b : Byte) : Screen :=
  if b = 0x0D then { s with scrX := 0 }
  else if b = 0x0A then
    if s.scrY.toNat < rows - 1 then { s with scrY := s.scrY + 1 } else scrScroll s
  else if b = 0x08 then
    if 0 < s.scrX.toNat then { s with scrX := s.scrX - 1 } else s
  else if b.toNat < 0x20 then s
  else
    let s := { s with vram := s.vram.store s.cursor (s.glyph b) }
    if s.scrX.toNat < cols - 1 then { s with scrX := s.scrX + 1 } else s

def scrPuts (s : Screen) (text : String) : Screen := (text.toList.map ascii).foldl scrPutc s

/-- `scr_open` over whatever VRAM shows. -/
def scrOpen (cell : ℕ → Cell) : Screen := scrClear ⟨⟨cell, []⟩, 0, 0, 0⟩

/-- The cursor is on the page and every store was. -/
structure Screen.Bounded (s : Screen) : Prop where
  x : s.scrX.toNat < cols
  y : s.scrY.toNat < rows
  written : ∀ i ∈ s.vram.written, i < rows * cols

lemma lineOff_eq : ∀ y < rows, lineOff.getD y 0 = y * cols := by decide

lemma Screen.Bounded.cursor_lt {s : Screen} (h : s.Bounded) : s.cursor < rows * cols := by
  have hx := h.x
  have hy := h.y
  unfold Screen.cursor
  rw [lineOff_eq _ hy]
  simp only [cols, rows] at *
  omega

lemma Vram.blank_written (v : Vram) (i n : ℕ) :
    ∀ j ∈ (v.blank i n).written, j ∈ v.written ∨ j < i + n := by
  induction n generalizing v i with
  | zero => exact fun j hj => .inl hj
  | succ n ih =>
    intro j hj
    rcases ih _ _ j hj with hj | hj
    · rcases List.mem_cons.mp hj with rfl | hj
      · exact .inr (by omega)
      · exact .inl hj
    · exact .inr (by omega)

lemma Vram.raise_written (v : Vram) (i n : ℕ) :
    ∀ j ∈ (v.raise i n).written, j ∈ v.written ∨ j < i + n := by
  induction n generalizing v i with
  | zero => exact fun j hj => .inl hj
  | succ n ih =>
    intro j hj
    rcases ih _ _ j hj with hj | hj
    · rcases List.mem_cons.mp hj with rfl | hj
      · exact .inr (by omega)
      · exact .inl hj
    · exact .inr (by omega)

lemma scrClear_bounded {s : Screen} (h : ∀ i ∈ s.vram.written, i < rows * cols) : (scrClear s).Bounded := by
  have hzero : (0 : Byte).toNat < cols ∧ (0 : Byte).toNat < rows := by decide
  refine ⟨hzero.1, hzero.2, fun i hi => ?_⟩
  rcases s.vram.blank_written 0 (rows * cols) i hi with hi | hi
  · exact h i hi
  · simpa using hi

lemma scrScroll_bounded {s : Screen} (h : s.Bounded) : (scrScroll s).Bounded := by
  refine ⟨h.x, h.y, fun i hi => ?_⟩
  rcases Vram.blank_written _ _ cols i hi with hi | hi
  · rcases s.vram.raise_written 0 _ i hi with hi | hi
    · exact h.written i hi
    · simp only [cols, rows] at *
      omega
  · simpa [cols, rows] using hi

lemma succ_toNat {b : Byte} {bound : ℕ} (h : b.toNat < bound) (hb : bound ≤ 255) :
    (b + 1).toNat = b.toNat + 1 := by
  have hone : (1 : Byte).toNat = 1 := rfl
  rw [BitVec.toNat_add, hone]
  omega

lemma pred_toNat {b : Byte} (h : 0 < b.toNat) : (b - 1).toNat = b.toNat - 1 := by
  have hlt := b.isLt
  have hone : (1 : Byte).toNat = 1 := rfl
  rw [BitVec.toNat_sub, hone]
  omega

theorem scrPutc_bounded {s : Screen} (h : s.Bounded) (b : Byte) : (scrPutc s b).Bounded := by
  have hx := h.x
  have hy := h.y
  unfold scrPutc
  split
  · have hzero : (0 : Byte).toNat < cols := by decide
    exact ⟨hzero, hy, h.written⟩
  · split
    · split
      next hrow =>
        refine ⟨hx, ?_, h.written⟩
        rw [succ_toNat hrow (by decide)]
        simp only [rows] at *
        omega
      · exact scrScroll_bounded h
    · split
      · split
        next hpos =>
          refine ⟨?_, hy, h.written⟩
          rw [pred_toNat hpos]
          omega
        · exact h
      · split
        · exact h
        · have hstore : ∀ i ∈ (s.vram.store s.cursor (s.glyph b)).written, i < rows * cols := by
            intro i hi
            rcases List.mem_cons.mp hi with rfl | hi
            · exact h.cursor_lt
            · exact h.written i hi
          dsimp only
          split
          next hcol =>
            refine ⟨?_, hy, hstore⟩
            rw [succ_toNat hcol (by decide)]
            simp only [cols] at *
            omega
          · exact ⟨hx, hy, hstore⟩

lemma foldl_scrPutc_bounded {s : Screen} (h : s.Bounded) (bytes : List Byte) :
    (bytes.foldl scrPutc s).Bounded := by
  induction bytes generalizing s with
  | nil => exact h
  | cons b bytes ih => exact ih (scrPutc_bounded h b)

lemma scrOpen_bounded (cell : ℕ → Cell) : (scrOpen cell).Bounded :=
  scrClear_bounded fun _ hi => absurd hi List.not_mem_nil

end PicoV9k.Terminal
