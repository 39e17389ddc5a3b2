import PicoV9k.TerminalAgreement

/-!
# After an overflow

The channel reset puts the firmware back into its command line with a new output stream. A
client has recovered if no continuation tells it from one that starts on the screen it has.
Neither client leaves a sequence that the overflow cut, and only the assembly client leaves
the menu's keyboard mode.
-/
namespace PicoV9k.Terminal
open PicoV9k.Bus

lemma newline_scrX (s : Screen) : (scrPutc (scrPutc s 0x0D) 0x0A).scrX = 0 := by
  have hcr : scrPutc s 0x0D = { s with scrX := 0 } := rfl
  rw [hcr]
  unfold scrPutc
  rw [if_neg (by decide), if_pos rfl]
  split <;> rfl

/-- At the left margin a letter moves the cursor. -/
lemma letter_scrX {s : Screen} (h : s.scrX = 0) : (scrPutc s 0x41).scrX = 1 := by
  unfold scrPutc
  rw [if_neg (by decide), if_neg (by decide), if_neg (by decide), if_neg (by decide)]
  dsimp only
  rw [h, if_pos (by decide)]
  rfl

/-- The client that starts on this screen. -/
def Client.fresh (c : Client) : Client := ⟨c.screen, outNormal, false, false, 0, fun _ => 0, false⟩

/-- After an overflow, the screen and the keyboard mode are for good those of a fresh client. -/
def Client.Recovers (c : Client) : Prop :=
  ∀ later : List Byte, (later.foldl emit c.overflow).screen = (later.foldl emit c.overflow.fresh).screen ∧
    (later.foldl emit c.overflow).cursorHidden = (later.foldl emit c.overflow.fresh).cursorHidden

/-- Outside a sequence the parser variables do not matter. -/
structure Client.Alike (c c' : Client) : Prop where
  screen : c.screen = c'.screen
  hidden : c.cursorHidden = c'.cursorHidden
  state : c.outState = c'.outState
  csi : c.outState = outCsi → c = c'

lemma Client.Alike.emit {c c' : Client} (h : c.Alike c') (b : Byte) :
    (Terminal.emit c b).Alike (Terminal.emit c' b) := by
  by_cases hcsi : c.outState = outCsi
  · rw [h.csi hcsi]
    exact ⟨rfl, rfl, rfl, fun _ => rfl⟩
  unfold Terminal.emit
  rw [← h.state]
  by_cases hnormal : c.outState = outNormal
  · rw [if_pos hnormal, if_pos hnormal]
    by_cases hesc : b = esc
    · rw [if_pos hesc, if_pos hesc]
      exact ⟨h.screen, h.hidden, rfl, fun (hk : outEsc = outCsi) => absurd hk (by decide)⟩
    · rw [if_neg hesc, if_neg hesc]
      exact ⟨congrArg (fun s => scrPutc s b) h.screen, h.hidden, rfl, fun hk => absurd hk hcsi⟩
  rw [if_neg hnormal, if_neg hnormal]
  by_cases hescape : c.outState = outEsc
  · rw [if_pos hescape, if_pos hescape]
    by_cases hopen : b = ascii '['
    · rw [if_pos hopen, if_pos hopen, h.screen, h.hidden]
      exact ⟨rfl, rfl, rfl, fun _ => rfl⟩
    · rw [if_neg hopen, if_neg hopen]
      exact ⟨h.screen, h.hidden, rfl, fun (hk : outNormal = outCsi) => absurd hk (by decide)⟩
  · rw [if_neg hescape, if_neg hescape, if_neg hcsi, if_neg hcsi]
    exact ⟨h.screen, h.hidden, rfl, fun (hk : outNormal = outCsi) => absurd hk (by decide)⟩

/-- The report ends at the left margin and leaves the rest alone. -/
lemma Client.overflow_scrX (c : Client) : c.overflow.screen.scrX = 0 := newline_scrX (c.puts "[overflow]").screen

lemma Client.overflow_outState (c : Client) : c.overflow.outState = c.outState := by
  simp only [Client.overflow, Client.newline, Client.puts]

lemma Client.overflow_cursorHidden (c : Client) : c.overflow.cursorHidden = c.cursorHidden := by
  simp only [Client.overflow, Client.newline, Client.puts]

/-- Anywhere but in the normal state a letter is swallowed. -/
lemma emit_swallowed {c : Client} (h : c.outState ≠ outNormal) : (emit c 0x41).screen = c.screen := by
  have hquiet : (csiDispatch c 0x41).screen = c.screen := rfl
  unfold emit
  rw [if_neg h]
  split
  · rfl
  · split
    · unfold Client.collect
      rw [if_pos (by decide)]
      exact hquiet
    · rfl

theorem Client.recovers_iff (c : Client) : c.Recovers ↔ c.outState = outNormal ∧ c.cursorHidden = false := by
  have hmargin := c.overflow_scrX
  have hstate := c.overflow_outState
  have hhidden := c.overflow_cursorHidden
  unfold Client.Recovers
  generalize c.overflow = c' at hmargin hstate hhidden ⊢
  rw [← hstate, ← hhidden]
  constructor
  · intro h
    refine ⟨?_, (h []).2⟩
    by_contra hcut
    -- the letter moves the fresh client's cursor only
    have hshown : (emit c' 0x41).screen.scrX = (scrPutc c'.screen 0x41).scrX := congrArg Screen.scrX (h [0x41]).1
    rw [emit_swallowed hcut, hmargin, letter_scrX hmargin] at hshown
    exact absurd hshown (by decide)
  · rintro ⟨hnormal, hshown⟩ later
    have halike : c'.Alike c'.fresh :=
      ⟨rfl, hshown, hnormal, fun hk => absurd (hnormal.symm.trans hk) (by decide)⟩
    have hlater := List.foldl_rel (l := later) halike fun b _ _ _ h => h.emit b
    exact ⟨hlater.screen, hlater.hidden⟩

namespace Vtasm

def Machine.fresh (m : Machine) : Machine :=
  { m with
    cursorHidden := 0
    outState := 0
    csiPriv := 0
    csiSeen := 0
    csiNi := 0
    csiParam := fun _ => 0 }

def Machine.Recovers (m : Machine) : Prop :=
  ∀ later : List Byte, (later.foldl emit m.overflow).screen = (later.foldl emit m.overflow.fresh).screen ∧
    (later.foldl emit m.overflow).cursorHidden = (later.foldl emit m.overflow.fresh).cursorHidden

/-- The same machine with other parser variables. -/
def Machine.withCsi (m : Machine) (l : Leftover) : Machine :=
  { m with csiPriv := l.csiPriv, csiSeen := l.csiSeen, csiNi := l.csiNi, csiParam := l.csiParam }

/-- The screen layer does not touch the parser. -/
lemma scrPutc_withCsi (m : Machine) (l : Leftover) (al : Byte) :
    scrPutc (m.withCsi l) al = (scrPutc m al).withCsi l := by
  have hx : (m.withCsi l).scrX = m.scrX := rfl
  have hy : (m.withCsi l).scrY = m.scrY := rfl
  unfold scrPutc
  rw [hx, hy]
  split
  · rfl
  · split
    · split
      · unfold scrScroll Machine.withCsi
        dsimp only
      · rfl
    · split
      · split <;> rfl
      · split
        · rfl
        · unfold putGlyph
          rw [hx]
          dsimp only
          split <;> rfl

lemma scrPutc_outState (m : Machine) (al : Byte) : (scrPutc m al).outState = m.outState := by
  unfold scrPutc putGlyph
  split
  · rfl
  · split
    · split <;> rfl
    · split
      · split <;> rfl
      · split
        · rfl
        · dsimp only
          split <;> rfl

lemma overflow_outState (m : Machine) : m.overflow.outState = m.outState := by
  have hputs (text : List Byte) (m : Machine) : (text.foldl scrPutc m).outState = m.outState := by
    induction text generalizing m with
    | nil => rfl
    | cons al text ih => exact (ih _).trans (scrPutc_outState m al)
  unfold Machine.overflow Machine.newline scrPuts
  dsimp only
  rw [scrPutc_outState, scrPutc_outState, hputs]

lemma newline_scrX (m : Machine) : m.newline.scrX = 0 := by
  have hcr : scrPutc m 0x0D = { m with scrX := 0 } := rfl
  unfold Machine.newline
  rw [hcr]
  unfold scrPutc
  rw [if_neg (by decide), if_pos rfl]
  split <;> rfl

lemma overflow_scrX (m : Machine) : m.overflow.scrX = 0 := by
  unfold Machine.overflow
  dsimp only
  exact newline_scrX (scrPuts m "[overflow]")

lemma letter_scrX {m : Machine} (h : m.scrX = 0) : (scrPutc m 0x41).scrX = 1 := by
  unfold scrPutc putGlyph
  rw [if_neg (by decide), if_neg (by decide), if_neg (by decide), if_neg (by decide)]
  dsimp only
  rw [h, if_neg (by decide)]
  rfl

/-- Two machines that differ in the parser variables, and not even there inside a sequence;
every state but the first two is the inside of one. -/
structure Machine.Alike (m m' : Machine) : Prop where
  csi : ∃ l, m' = m.withCsi l
  inside : m.outState ≠ 0 → m.outState ≠ 1 → m' = m

lemma Machine.Alike.emit {m m' : Machine} (h : m.Alike m') (al : Byte) :
    (Vtasm.emit m al).Alike (Vtasm.emit m' al) := by
  obtain ⟨⟨l, rfl⟩, hinside⟩ := h
  have hstate : (m.withCsi l).outState = m.outState := rfl
  by_cases hnormal : m.outState = 0
  · unfold Vtasm.emit
    rw [hstate, if_pos hnormal, if_pos hnormal]
    by_cases hesc : al = esc
    · rw [if_pos hesc, if_pos hesc]
      exact ⟨⟨l, rfl⟩, fun _ h1 => absurd rfl h1⟩
    · rw [if_neg hesc, if_neg hesc]
      exact ⟨⟨l, scrPutc_withCsi m l al⟩, fun h0 => absurd ((scrPutc_outState m al).trans hnormal) h0⟩
  by_cases hescape : m.outState = 1
  · unfold Vtasm.emit
    rw [hstate, if_neg hnormal, if_neg hnormal, if_pos hescape, if_pos hescape]
    by_cases hopen : al = ascii '['
    · rw [if_pos hopen, if_pos hopen]
      exact ⟨⟨⟨l.cell, 0, 0, 0, fun _ => 0⟩, rfl⟩, fun _ _ => rfl⟩
    · rw [if_neg hopen, if_neg hopen]
      exact ⟨⟨l, rfl⟩, fun h0 => absurd rfl h0⟩
  · rw [hinside hnormal hescape]
    exact ⟨⟨⟨l.cell, _, _, _, _⟩, rfl⟩, fun _ _ => rfl⟩

lemma emit_swallowed {m : Machine} (h : m.outState ≠ 0) : (emit m 0x41).screen = m.screen := by
  have hquiet : (csiDispatch m 0x41).screen = m.screen := rfl
  unfold emit
  rw [if_neg h]
  split
  · rfl
  · unfold collect
    rw [if_pos (by decide)]
    exact hquiet

theorem Machine.recovers_iff (m : Machine) : m.Recovers ↔ m.outState = 0 := by
  have hmargin := overflow_scrX m
  have hstate := overflow_outState m
  have hhidden : m.overflow.cursorHidden = 0 := rfl
  unfold Machine.Recovers
  generalize m.overflow = m' at hmargin hstate hhidden ⊢
  rw [← hstate]
  constructor
  · intro h
    by_contra hcut
    have hshown : (Vtasm.emit m' 0x41).screen.scrX = (scrPutc m'.fresh 0x41).scrX :=
      congrArg Screen.scrX (h [0x41]).1
    have hstays : m'.screen.scrX = 0 := hmargin
    have hmoves : (scrPutc m'.fresh 0x41).scrX = 1 := letter_scrX hmargin
    rw [emit_swallowed hcut, hstays, hmoves] at hshown
    exact absurd hshown (by decide)
  · intro hnormal later
    have hfresh : m'.fresh = m'.withCsi ⟨fun _ => 0, 0, 0, 0, fun _ => 0⟩ := by
      obtain ⟨⟩ := m'
      obtain rfl : _ = 0 := hhidden
      obtain rfl : _ = 0 := hnormal
      rfl
    have halike : m'.Alike m'.fresh := ⟨⟨_, hfresh⟩, fun h0 => absurd hnormal h0⟩
    obtain ⟨l, hlater⟩ := (List.foldl_rel (l := later) halike fun al _ _ _ h => h.emit al).csi
    rw [hlater]
    exact ⟨rfl, rfl⟩

end Vtasm

/-- Wherever the overflow cuts the output, the clients recover exactly if it was not inside a
sequence and, for the C client, if the menu was not up. -/
theorem overflow_recovers (cell : ℕ → Cell) (l : Vtasm.Leftover) (cut : List Arrival) :
    ((cut.foldl Client.take (.started cell)).Recovers ↔
      (cut.foldl Client.take (.started cell)).outState = outNormal ∧
        (cut.foldl Client.take (.started cell)).cursorHidden = false) ∧
    ((cut.foldl Vtasm.Machine.take (.started l)).Recovers ↔
      (cut.foldl Vtasm.Machine.take (.started l)).outState = 0) :=
  ⟨Client.recovers_iff _, Vtasm.Machine.recovers_iff _⟩

/-- Cut behind an escape byte, and in the menu. -/
theorem overflow_unrecovered :
    let cell := fun _ => blankCell
    let menu := [esc, 0x5B, 0x3F, 0x32, 0x35, 0x6C].map Arrival.byte
    ¬ ([Arrival.byte esc].foldl Client.take (.started cell)).Recovers ∧
      ¬ ([Arrival.byte esc].foldl Vtasm.Machine.take (.started ⟨cell, 0, 0, 0, fun _ => 0⟩)).Recovers ∧
      ¬ (menu.foldl Client.take (.started cell)).Recovers := by
  dsimp only
  rw [Client.recovers_iff, Client.recovers_iff, Vtasm.Machine.recovers_iff]
  decide +kernel

end PicoV9k.Terminal
