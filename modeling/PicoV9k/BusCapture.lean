import PicoV9k.ConsoleNumbers

/-!
# The bus capture

`buscap.c`: 4096 samples of GPIO0-31, decoded into one line per edge of the watched
signals or, in wide mode, into one line per access framed by XACK.
-/
namespace PicoV9k.Console
open PicoV9k.Bus PicoV9k.Mgmt

abbrev Sample := BitVec 32

def capSamples : ℕ := 4096

def rd (v : Sample) : Bool := v.getLsbD 21
def wr (v : Sample) : Bool := v.getLsbD 22
def dtr (v : Sample) : Bool := v.getLsbD 23
def ale (v : Sample) : Bool := v.getLsbD 24
def hold (v : Sample) : Bool := v.getLsbD 25
def xack (v : Sample) : Bool := v.getLsbD 26
def extio (v : Sample) : Bool := v.getLsbD 27
def ready (v : Sample) : Bool := v.getLsbD 28
def hlda (v : Sample) : Bool := v.getLsbD 29

def maskBd : Sample := 0x000001FE

def dataBus (v : Sample) : ℕ := ((v &&& maskBd) >>> 1).toNat

def watch : Sample := 0x3FE001FE

/-- The samples that differ from the last one listed, at most `limit` of them, from sample `i` on. -/
def edgesFrom : ℕ → ℕ → Sample → List Sample → List (ℕ × Sample)
  | 0, _, _, _ => []
  | _ + 1, _, _, [] => []
  | limit + 1, i, prev, v :: rest =>
    if (v ^^^ prev) &&& watch = 0 then edgesFrom (limit + 1) (i + 1) prev rest
    else (i, v) :: edgesFrom limit (i + 1) v rest

/-- The first sample of a window is always listed. -/
def edges (limit i : ℕ) (window : List Sample) : List (ℕ × Sample) :=
  edgesFrom limit i (~~~ window.headD 0) window

def signal (name : String) (high : Bool) : Line := ascii name ++ decimal high.toNat

def edgeLine (nsPer : ℕ) (time : ℕ → Line) (edge : ℕ × Sample) : Line :=
  time (edge.1 * nsPer) ++ ascii "ns BD=" ++ hex 2 (dataBus edge.2) ++ signal " RD=" (rd edge.2) ++
    signal " WR=" (wr edge.2) ++ signal " ALE=" (ale edge.2) ++ signal " XACK=" (xack edge.2) ++
    signal " EXTIO=" (extio edge.2) ++ signal " RDY=" (ready edge.2) ++ signal " DTR=" (dtr edge.2) ++
    signal " HLD=" (hold edge.2) ++ signal " HLDA=" (hlda edge.2)

/-- `print_edges`. -/
def printEdges (nsPer : ℕ) (samples : List Sample) (lo hi : ℕ) : List Line :=
  (edges 40 lo ((samples.drop lo).take (hi - lo))).map
    (edgeLine nsPer fun t => ascii "  " ++ spaced 7 t)

/-- What is seen of RD and WR during an access; a rise at sample 0 would count as none. -/
structure Seen where
  rdLow : Bool
  wrLow : Bool
  rdRise : ℕ

def Seen.see (a : Seen) (i : ℕ) (v : Sample) : Seen where
  rdLow := a.rdLow || !rd v
  wrLow := a.wrLow || !wr v
  rdRise := if rd v ∧ a.rdLow ∧ a.rdRise = 0 then i else a.rdRise

/-- Samples with XACK asserted: where they end, what was seen, and what follows. -/
def during (i : ℕ) (a : Seen) : List Sample → ℕ × Seen × List Sample
  | [] => (i, a, [])
  | v :: rest => if xack v then (i, a, v :: rest) else during (i + 1) (a.see i v) rest

/-- RD may rise shortly after the access. -/
def lateRise (i : ℕ) (a : Seen) : List Sample → Seen
  | [] => a
  | v :: rest =>
    if a.rdLow ∧ a.rdRise = 0 then lateRise (i + 1) (if rd v then { a with rdRise := i } else a) rest
    else a

structure BusAccess where
  start : ℕ
  stop : ℕ
  seen : Seen

/-- At most `budget` accesses from sample `i` on; one that the window cuts off is left out. -/
def accessesFrom : ℕ → ℕ → List Sample → List BusAccess
  | 0, _, _ => []
  | budget + 1, i, samples =>
    let start := i + (samples.takeWhile xack).length
    let r := during start ⟨false, false, 0⟩ (samples.dropWhile xack)
    if r.2.2 = [] then []
    else ⟨start, r.1, lateRise r.1 r.2.1 (r.2.2.take 64)⟩ :: accessesFrom budget r.1 r.2.2

/-- XACK must be seen idle first. -/
def accesses (samples : List Sample) : List BusAccess :=
  accessesFrom 40 (samples.takeWhile fun v => !xack v).length (samples.dropWhile fun v => !xack v)

/-- Where the host latches the data. -/
def BusAccess.latch (a : BusAccess) : ℕ := (if a.seen.rdRise = 0 then a.stop else a.seen.rdRise) - 1

def accessLine (nsPer : ℕ) (samples : List Sample) (acc : ℕ) (a : BusAccess) : Line :=
  ascii "#" ++ padded 0x30 2 (decimal acc) ++ ascii " t=" ++ spaced 7 (a.start * nsPer) ++ ascii "ns dur=" ++
    spaced 5 ((a.stop - a.start) * nsPer) ++ ascii "ns " ++ ascii (if a.seen.rdLow then "R" else "-") ++
    ascii (if a.seen.wrLow then "W" else "-") ++ ascii " mid=" ++
    hex 2 (dataBus (samples.getD ((a.start + a.stop) / 2) 0)) ++ ascii " latch=" ++
    hex 2 (dataBus (samples.getD a.latch 0)) ++ signal " e=" (extio (samples.getD a.latch 0)) ++
    signal " r=" (ready (samples.getD a.latch 0))

/-- A read of another value than the expected one is shown in full. -/
def accessLines (nsPer : ℕ) (samples : List Sample) (expect : ℤ) (acc : ℕ) (a : BusAccess) : List Line :=
  accessLine nsPer samples acc a ::
    if 0 ≤ expect ∧ a.seen.rdLow ∧ (dataBus (samples.getD a.latch 0) : ℤ) ≠ expect then
      printEdges nsPer samples (a.start - 12)
        (min ((if a.seen.rdRise = 0 then a.stop else a.seen.rdRise) + 64) samples.length)
    else []

/-- How a capture ends. -/
inductive Capture
  | noProgramSpace
  | noDmaChannel
  | timeout
  | captured (samples : List Sample)

def wideLines (samples : List Sample) (expect : ℤ) : List Line :=
  ((accesses samples).zipIdx.flatMap fun a => accessLines 40 samples expect a.2 a.1) ++
    [decimal (accesses samples).length ++ ascii " accesses in " ++ decimal (capSamples * 40 / 1000) ++ ascii "us"]

def edgeLines (samples : List Sample) : List Line :=
  let listed := edges 120 0 samples
  listed.map (edgeLine 10 (spaced 5)) ++ if 120 ≤ listed.length then [ascii "... (edge list capped)"] else []

end PicoV9k.Console
