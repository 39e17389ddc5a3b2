import PicoV9k.DmaOwnership

/-!
# Exactness of the bus cycles

A call that succeeds performs exactly its own bus cycles if its state machine
resumed at a clean instruction each time; an abort that stops it elsewhere shifts
the words of the next call.
-/
namespace PicoV9k.Dma
open PicoV9k.Bus PicoV9k.Pio PicoV9k.Scripts PicoV9k.Runs

/-- The cycles of the call, each once and in order, with the bytes of its buffer. -/
def Entry.Exact (e : Entry) : Prop :=
  e.cycles = (List.range e.call.length.toNat).map fun i => e.call.cycle i (e.data i)

/-- Each time the call took the bus over, the state machine stood at a clean instruction, and the
batches of the call do not wrap. -/
def Entry.Undisturbed (e : Entry) : Prop :=
  (∀ pc ∈ e.resumes, e.call.Clean pc) ∧ e.call.length.toNat ≤ 2 ^ 32 - 128

/-- In every run an undisturbed call that returns true is exact, and no cycle happens between calls. -/
theorem cycles_exact {m : Machine Engine} {moves : List (Move Call Event)}
    (h : EngineRun engine moves m) :
    (∀ e ∈ m.shared.card.history, e.ok = true → e.Undisturbed → e.Exact) ∧
      (m.code = .ret () → ∀ (event : Event) (m' : Machine Engine), engineStep m (.env event) = some m' →
        m'.shared.card.cycles = m.shared.card.cycles) := by
  have hsteady := run_steady h
  refine ⟨fun e he hok hundisturbed => ?_, fun hcode event m' hstep => ?_⟩
  · have hkept : Kept m.shared := Script.Safe.invariant hsteady
    have hcycles := (hkept e he).cycles hok hundisturbed.1
    rw [covered_eq, if_pos hundisturbed.2] at hcycles
    exact hcycles
  · obtain ⟨s, hs, rfl⟩ := Option.map_eq_some_iff.mp hstep
    rw [(affects_of_rely ⟨event, trivial, hs⟩).card (hsteady.finished hcode).1]

theorem cycles_exact_byte : ∃ m, EngineRun engine writeByteRun m ∧
    ∃ e ∈ m.shared.card.history, e.ok = true ∧ e.Undisturbed ∧ e.Exact := by
  have hfollow : (follow engineStep (fun _ _ => True) engine writeByteRun).map
      (fun m => m.shared.card.history) = some [⟨writeByte, true, fun _ => 0x5A, [[0x801, 0x45A]],
        [.write 0x400 0x45A], [], [0]⟩] := rfl
  obtain ⟨m, hm, hhistory⟩ := Option.map_eq_some_iff.mp hfollow
  have hrun : EngineRun engine writeByteRun m := Guarded.of_follow hm
  have hmem : (⟨writeByte, true, fun _ => 0x5A, [[0x801, 0x45A]], [.write 0x400 0x45A], [], [0]⟩ : Entry) ∈
      m.shared.card.history := hhistory ▸ List.mem_singleton_self _
  have hundisturbed : Entry.Undisturbed
      ⟨writeByte, true, fun _ => 0x5A, [[0x801, 0x45A]], [.write 0x400 0x45A], [], [0]⟩ :=
    ⟨fun pc hpc => .inl (List.mem_singleton.mp hpc), by decide⟩
  exact ⟨m, hrun, _, hmem, rfl, hundisturbed, (cycles_exact hrun).1 _ hmem rfl hundisturbed⟩

def readByte : Call := ⟨false, some fun _ => 0, 1, 0x500⟩

/-- The read times out while the state machine stands behind its first word; then a byte is written
without a timeout. -/
def abortedRun : List (Move Call Event) :=
  .call readByte :: cores 10 ++ clock5 true :: cores 10 ++ hlda true :: cores 20 ++ pioHigh 1 ++
    .env (.time true) :: cores 14 ++
  .env (.time false) :: hlda false :: clock5 false ::
  .call writeByte :: cores 10 ++ clock5 true :: cores 10 ++ hlda true :: cores 20 ++
    (pioHigh 6 ++ pioLow :: pioHigh 10 ++ pioLow :: pioHigh 9) ++
    cores 10 ++ clock5 false :: cores 10 ++ clock5 true :: cores 10 ++ hlda false :: cores 5

set_option maxRecDepth 2000 in
/-- The write returns true; the only cycle on the bus is a read at the address of the call before. -/
theorem aborted_run_writes_nothing : ∃ m, EngineRun engine abortedRun m ∧
    ∃ e ∈ m.shared.card.history, e.call = writeByte ∧ e.ok = true ∧
      e.cycles = [.read 0x500 0x500 0] ∧ ¬ e.Exact := by
  have hfollow : (follow engineStep (fun _ _ => True) engine abortedRun).map
      (fun m => m.shared.card.history) = some
        [⟨readByte, false, fun _ => 0, [[0xA00, 0xFFF00]], [],
          [.rxEmpty, .releaseClock5, .releaseHlda], [0]⟩,
        ⟨writeByte, true, fun _ => 0x5A, [[0x801, 0x45A]], [.read 0x500 0x500 0], [], [1]⟩] := rfl
  obtain ⟨m, hm, hhistory⟩ := Option.map_eq_some_iff.mp hfollow
  refine ⟨m, Guarded.of_follow hm, _, hhistory ▸ List.mem_cons_of_mem _ (List.mem_singleton_self _), rfl, rfl,
    rfl, fun hexact => ?_⟩
  have hcycles : [BusCycle.read 0x500 0x500 0] = [BusCycle.write 0x400 0x45A] := hexact
  cases hcycles

end PicoV9k.Dma
