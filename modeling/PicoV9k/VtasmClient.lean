import PicoV9k.VtParser

/-!
# The assembly client

`viaterm_dma.asm`, the output translator and the screen layer, routine by routine: the
variables are bytes, `AL` is the argument of each routine, and VRAM is addressed by the
byte offset in `DI`. A jump to another routine's end is a tail call.
-/
namespace PicoV9k.Terminal.Vtasm
open PicoV9k.Bus

abbrev Word := BitVec 16

/-- The variables in `.bss`; `scr_scroll` and the others find VRAM behind `VRAM_SEG`. -/
structure Machine where
  vram : Vram
  scrX : Byte
  scrY : Byte
  scrAttr : Byte
  cursorHidden : Byte
  outState : Byte
  csiPriv : Byte
  csiSeen : Byte
  csiNi : Byte
  csiParam : ℕ → Byte
  quitReq : Byte

/-- `mov [es:di], dx`, for an even offset. -/
def storeWord (v : Vram) (di dx : Word) : Vram := v.store (di.toNat / 2) dx

/-- `rep stosw` with the counter in `CX`. -/
def repStosw (ax : Word) : ℕ → Vram × Word → Vram × Word
  | 0, r => r
  | cx + 1, (v, di) => repStosw ax cx (storeWord v di ax, di + 2)

/-- `rep movsw` inside VRAM. -/
def repMovsw : ℕ → Vram × Word × Word → Vram × Word × Word
  | 0, r => r
  | cx + 1, (v, si, di) => repMovsw cx (storeWord v di (v.cell (si.toNat / 2)), si + 2, di + 2)

def scrClear (m : Machine) : Machine :=
  { m with
    vram := (repStosw blankCell (rows * cols) (m.vram, 0)).1
    scrX := 0
    scrY := 0 }

def scrScroll (m : Machine) : Machine :=
  let r := repMovsw ((rows - 1) * cols) (m.vram, BitVec.ofNat 16 (cols * 2), 0)
  { m with vram := (repStosw blankCell cols (r.1, r.2.2)).1 }

/-- `.p_ctl` behind the comparison: the cell in `DX`, its offset in `DI`. -/
def putGlyph (m : Machine) (al : Byte) : Machine :=
  let ax : Word := al.setWidth 16 + charBase
  let dx := ax ||| (m.scrAttr.setWidth 16 <<< 8)
  let ax : Word := m.scrY.setWidth 16 * 80
  let ax := ax + m.scrX.setWidth 16
  let di := ax <<< 1
  let m := { m with vram := storeWord m.vram di dx }
  if cols - 1 ≤ m.scrX.toNat then m else { m with scrX := m.scrX + 1 }

def scrPutc (m : Machine) (al : Byte) : Machine :=
  if al = 0x0D then { m with scrX := 0 }
  else if al = 0x0A then
    if rows - 1 ≤ m.scrY.toNat then scrScroll m else { m with scrY := m.scrY + 1 }
  else if al = 0x08 then
    if m.scrX = 0 then m else { m with scrX := m.scrX - 1 }
  else if al.toNat < 0x20 then m
  else putGlyph m al

def scrPuts (m : Machine) (text : String) : Machine := (text.toList.map ascii).foldl scrPutc m

/-- `.c_r1` and `.c_c1`: zero counts as one, and more than `size` as `size`. -/
def clamp (al : Byte) (size : Byte) : Byte :=
  let al := if al = 0 then 1 else al
  let al := if al.toNat ≤ size.toNat then al else size
  al - 1

/-- `.c_mlp`, from the last parameter in `BX` down to the first, with the bits in `DL`. -/
def sgrLoop (param : ℕ → Byte) : ℕ → Byte → Byte
  | bx, dl =>
    let al := param bx
    let dl := if al = 7 then dl ||| aRev else dl
    let dl := if al = 4 then dl ||| aUl else dl
    match bx with
    | 0 => dl
    | bx + 1 => sgrLoop param bx dl

/-- The cursor is parked and shown by the CRTC, which is not modelled. -/
def csiDispatch (m : Machine) (al : Byte) : Machine :=
  if al = ascii 'J' then
    if m.csiParam 0 = 2 then scrClear m else m
  else if al = ascii 'H' then
    if m.csiSeen = 0 ∨ m.csiNi = 0 ∧ m.csiParam 0 = 0 then { m with scrX := 0, scrY := 0 }
    else { m with
      scrY := clamp (m.csiParam 0) (BitVec.ofNat 8 rows)
      scrX := clamp (m.csiParam 1) (BitVec.ofNat 8 cols) }
  else if al = ascii 'l' then
    if m.csiPriv = 0 then m else if m.csiParam 0 = 25 then { m with cursorHidden := 1 } else m
  else if al = ascii 'h' then
    if m.csiPriv = 0 then m else if m.csiParam 0 = 25 then { m with cursorHidden := 0 } else m
  else if al = ascii 'm' then { m with scrAttr := sgrLoop m.csiParam m.csiNi.toNat 0 }
  else if al = ascii 'q' then
    if m.csiParam 0 = 86 then { m with quitReq := 1 } else m
  else m

/-- `mul dl` leaves the product in `AX`; the digit is added to `AL`. -/
def digit (param al : Byte) : Byte :=
  let ax : Word := param.setWidth 16 * 10
  ax.setWidth 8 + (al - ascii '0')

/-- `.st_csi`, with the same two ranges of bytes as in the C client. -/
def collect (m : Machine) (al : Byte) : Machine :=
  if isFinal al then { csiDispatch m al with outState := 0 }
  else if isDigit al then
    let bx := m.csiNi.toNat
    { m with csiParam := Function.update m.csiParam bx (digit (m.csiParam bx) al), csiSeen := 1 }
  else if al = ascii ';' then
    if 7 ≤ m.csiNi.toNat then { m with csiSeen := 1 }
    else
      let ni := m.csiNi + 1
      { m with csiNi := ni, csiParam := Function.update m.csiParam ni.toNat 0, csiSeen := 1 }
  else if al = ascii '?' then { m with csiPriv := 1 }
  else m

/-- `rep stosw` clears the eight parameter bytes. -/
def emit (m : Machine) (al : Byte) : Machine :=
  if m.outState = 0 then
    if al = esc then { m with outState := 1 } else scrPutc m al
  else if m.outState = 1 then
    if al = ascii '[' then
      { m with
        outState := 2
        csiPriv := 0
        csiSeen := 0
        csiNi := 0
        csiParam := fun _ => 0 }
    else { m with outState := 0 }
  else collect m al

/-- What `start` leaves alone: the screen it finds and the parser variables it does not set. -/
structure Leftover where
  cell : ℕ → Cell
  csiPriv : Byte
  csiSeen : Byte
  csiNi : Byte
  csiParam : ℕ → Byte

def Machine.opened (l : Leftover) : Machine :=
  scrClear ⟨⟨l.cell, []⟩, 0, 0, 0, 0, 0, l.csiPriv, l.csiSeen, l.csiNi, l.csiParam, 0⟩

def Machine.newline (m : Machine) : Machine := scrPutc (scrPutc m 0x0D) 0x0A

def Machine.started (l : Leftover) : Machine :=
  (scrPuts (.opened l) "v9k DMA terminal (asm) - type 'exit' or Alt+C to quit.").newline

/-- The overflow branch of `mainloop`: the firmware is back in its command line. -/
def Machine.overflow (m : Machine) : Machine :=
  { (scrPuts m "[overflow]").newline with cursorHidden := 0 }

def Machine.take (m : Machine) : Arrival → Machine
  | .byte b => emit m b
  | .overflow => m.overflow

end PicoV9k.Terminal.Vtasm
