import PicoV9k.DmaCalls

/-!
# Ownership of the bus

Whatever the waits of a call end with, the bus is given back; and a call moves
each byte once exactly when the number of its batches does not wrap.
-/
namespace PicoV9k.Dma
open PicoV9k.Bus PicoV9k.Pio PicoV9k.Scripts PicoV9k.Runs

/-- HOLD is released, the state machine is off with empty FIFOs, the register port is on, and its
count of prefetches was reset if the call had the bus. -/
structure Card.GivenBack (c : Card) : Prop where
  hold : c.hold = false
  smEnabled : c.smEnabled = false
  tx : c.sm.tx = []
  rx : c.sm.rx = []
  regEnabled : c.regEnabled = true
  pending : c.resumes ≠ [] → c.fifoPendingPrefetch = 0

/-- A tenure has at most the two words of each byte of a batch, a call that succeeds has the words of
every byte once and in order, and a call fails exactly with a wait that decides about it. -/
structure Entry.Meets (e : Entry) : Prop where
  small : ∀ t ∈ e.tenures, t.length ≤ 2 * dmaBatchSize
  covers : e.ok = true → e.tenures.flatten = (List.range (2 * e.call.length.toNat)).map e.call.word
  result : e.call.data ≠ none → (e.ok = true ↔ ∀ w ∈ e.timeouts, w.Releases)

lemma Steady.finished {m : Machine Engine} (h : Steady m) (hcode : m.code = .ret ()) :
    idlePoint.holds m.shared := by
  have hsafe : (Script.ret () : Code Unit).Safe Rely PushesOwned Kept (fun _ => idlePoint.holds) m.shared :=
    hcode ▸ h
  exact (hsafe m.shared .refl).2

lemma Steady.pushes {m m' : Machine Engine} {move : Move Call Event} (h : Steady m)
    (hstep : engineStep m move = some m') : PushesOwned m.shared m'.shared := by
  cases move with
  | core =>
    obtain ⟨r, hr, rfl⟩ := Option.map_eq_some_iff.mp hstep
    exact Script.Safe.guarantee pushesOwned_refl h hr
  | call c =>
    simp only [engineStep, Machine.step] at hstep
    split at hstep
    · cases hstep
      exact pushesOwned_refl _
    · cases hstep
  | env event =>
    obtain ⟨s, hs, rfl⟩ := Option.map_eq_some_iff.mp hstep
    intro hlt
    -- the state machine only takes words
    cases affects_of_rely ⟨event, trivial, hs⟩ with
    | pio _ _ sm _ hsm =>
      rw [drive_sm] at hlt
      exact absurd (Sm.step_fifos hsm).1.length_le (Nat.not_le_of_lt hlt)
    | outside => exact absurd hlt (Nat.lt_irrefl _)

lemma Entry.Sound.meets_iff {e : Entry} (h : e.Sound) :
    e.Meets ↔ e.call.data = none ∨ e.call.length.toNat ≤ 2 ^ 32 - 128 := by
  have hcovered := covered_eq e.call
  constructor
  · intro hm
    by_cases hdata : e.call.data = none
    · exact .inl hdata
    · right
      by_contra hlong
      rw [if_neg hlong] at hcovered
      -- the call returned at once
      have hok : e.ok = true := by
        cases hok : e.ok with
        | true => rfl
        | false => exact absurd hcovered (h.reached hdata hok)
      have hwords := (hm.covers hok).symm.trans (h.words hok)
      have hlen := congrArg List.length hwords
      simp only [List.length_map, List.length_range, hcovered] at hlen
      omega
  · intro hcond
    refine ⟨h.small, fun hok => ?_, h.result⟩
    have hshort : e.call.length.toNat ≤ 2 ^ 32 - 128 := by
      rcases hcond with hdata | hshort
      · exact absurd hdata (h.buffered hok)
      · exact hshort
    rw [h.words hok, hcovered, if_pos hshort]

/-- In every run the bus is given back after each call, no word is pushed without it, and the calls
do what they promise, but for those whose number of batches wraps. -/
theorem bus_given_back {m : Machine Engine} {moves : List (Move Call Event)}
    (h : EngineRun engine moves m) :
    (m.code = .ret () → m.shared.card.GivenBack) ∧
      (∀ (move : Move Call Event) (m' : Machine Engine), engineStep m move = some m' →
        PushesOwned m.shared m'.shared) ∧
      ∀ e ∈ m.shared.card.history,
        e.Meets ↔ e.call.data = none ∨ e.call.length.toNat ≤ 2 ^ 32 - 128 := by
  have hsteady := run_steady h
  refine ⟨fun hcode => ?_, fun _ _ hstep => hsteady.pushes hstep, fun e he => ?_⟩
  · obtain ⟨hoff, hidle, -, -⟩ := hsteady.finished hcode
    exact ⟨hidle.hold, hoff, hidle.tx, hidle.rx, hidle.regEnabled, hidle.pending⟩
  · have hkept : Kept m.shared := Script.Safe.invariant hsteady
    exact (hkept e he).meets_iff

def cores (n : ℕ) : List (Move Call Event) := List.replicate n .core

def clock5 (level : Bool) : Move Call Event := .env (.clock5 level)

def hlda (level : Bool) : Move Call Event := .env (.hlda level)

/-- The state machine executes `n` instructions while every line it waits for is high, or one while
the clock is low. -/
def pioHigh (n : ℕ) : List (Move Call Event) := List.replicate n (.env (.pio (fun _ => true) 0))

def pioLow : Move Call Event := .env (.pio (fun gpio => gpio ≠ clock5Pin) 0)

def writeByte : Call := ⟨true, some fun _ => 0x5A, 1, 0x400⟩

/-- A write of one byte at `0x00400`. -/
def writeByteRun : List (Move Call Event) :=
  .call writeByte :: cores 10 ++ clock5 true :: cores 10 ++ hlda true :: cores 20 ++
    (pioHigh 7 ++ pioLow :: pioHigh 10 ++ pioLow :: pioHigh 2) ++
    cores 10 ++ clock5 false :: cores 10 ++ clock5 true :: cores 10 ++ hlda false :: cores 5

/-- The record at the end of a run. -/
def recordAfter (moves : List (Move Call Event)) : Option (List (Bool × List (List Word) × List BusCycle)) :=
  (follow engineStep (fun _ _ => True) engine moves).map fun m =>
    m.shared.card.history.map fun e => (e.ok, e.tenures, e.cycles)

lemma run_of_record {moves : List (Move Call Event)} {r : List (Bool × List (List Word) × List BusCycle)}
    (h : recordAfter moves = some r) : ∃ m, EngineRun engine moves m ∧
      m.shared.card.history.map (fun e => (e.ok, e.tenures, e.cycles)) = r := by
  obtain ⟨m, hm, hr⟩ := Option.map_eq_some_iff.mp h
  exact ⟨m, Guarded.of_follow hm, hr⟩

theorem bus_given_back_byte : ∃ m, EngineRun engine writeByteRun m ∧
    m.shared.card.history.map (fun e => (e.ok, e.tenures, e.cycles)) =
      [(true, [[0x801, 0x45A]], [.write 0x400 0x45A])] ∧
    ∀ e ∈ m.shared.card.history,
      e.Meets ↔ e.call.data = none ∨ e.call.length.toNat ≤ 2 ^ 32 - 128 := by
  obtain ⟨m, hrun, hrecord⟩ := run_of_record (show recordAfter writeByteRun = some _ from rfl)
  exact ⟨m, hrun, hrecord, (bus_given_back hrun).2.2⟩

def longestCall : Call := ⟨true, some fun _ => 0x5A, 0xFFFFFFFF, 0⟩

/-- The longest length a call can be given: it returns true without a tenure. -/
theorem longest_call_moves_nothing : ∃ m, EngineRun engine [.call longestCall, .core, .core, .core] m ∧
    ∃ e ∈ m.shared.card.history, e.call = longestCall ∧ e.ok = true ∧ e.tenures = [] ∧
      e.tenures.flatten ≠ (List.range (2 * e.call.length.toNat)).map e.call.word := by
  have hfollow : (follow engineStep (fun _ _ => True) engine
      [.call longestCall, .core, .core, .core]).map (fun m => m.shared.card.history) =
        some [⟨longestCall, true, fun _ => 0x5A, [], [], [], []⟩] := rfl
  obtain ⟨m, hm, hhistory⟩ := Option.map_eq_some_iff.mp hfollow
  refine ⟨m, Guarded.of_follow hm, _, hhistory ▸ List.mem_singleton_self _, rfl, rfl, rfl, fun hwords => ?_⟩
  have hlen := congrArg List.length hwords
  simp [longestCall] at hlen

end PicoV9k.Dma
