import PicoV9k.MgmtStream
import PicoV9k.MgmtConsole

/-!
# The command ring

Victor command writes against the passes of `mgmt_con_poll`, with no reset in between.
Core 0 pops what the ring accepted, in order, and the ring refuses a byte only when it
is full. A pass shows CMD_FULL for a refused byte only if its pump, which runs behind
the loop that empties the ring, still finds a key there.
-/
namespace PicoV9k.Mgmt
open PicoV9k.Bus PicoV9k.Rings PicoV9k.Scripts PicoV9k.Runs

variable {n : ℕ} {K : Type}

/-- The record of one command write. -/
def Desk.note (d : Desk K) (full : Bool) (data : Byte) : Desk K :=
  if full then { d with rejected := d.rejected + 1 } else { d with accepted := d.accepted ++ [data] }

/-- A bus access of the Victor to the management registers. -/
def deskStep (s : Shared n (Desk K)) : Access → Option (Shared n (Desk K))
  | .read _ => some s
  | .write reg data => some
    { chan := (mgmtChanRegWrite s.chan reg data).1
      side := if reg = .mgmtCmd then s.side.note (decide s.chan.cmd.IsFull) data else s.side }

def NoReset (_ : Shared n (Desk K)) : Access → Prop
  | .read _ => True
  | .write reg _ => reg ≠ .mgmtStatus

abbrev KeyMoves : Shared n (Desk K) → Shared n (Desk K) → Prop := EnvRel deskStep NoReset

/-- What the Victor's accesses leave of the command side. -/
inductive KeyMoved (s s' : Shared n (Desk K)) : Prop
  | quiet (hcmd : s'.chan.cmd = s.chan.cmd) (hdrop : s'.chan.cmdDrop = s.chan.cmdDrop)
      (hside : s'.side = s.side)
  | accept (data : Byte) (hroom : ¬ s.chan.cmd.IsFull) (hcmd : s'.chan.cmd = s.chan.cmd.push data)
      (hdrop : s'.chan.cmdDrop = s.chan.cmdDrop)
      (hside : s'.side = { s.side with accepted := s.side.accepted ++ [data] })
  | reject (hfull : s.chan.cmd.IsFull) (hcmd : s'.chan.cmd = s.chan.cmd)
      (hdrop : s'.chan.cmdDrop = s.chan.cmdDrop + 1)
      (hside : s'.side = { s.side with rejected := s.side.rejected + 1 })

/-- The fields core 0 alone writes while no reset is asked for. -/
structure SameFlags (c c' : MgmtChan n) : Prop where
  seen : c'.cmdDropSeen = c.cmdDropSeen
  full : c'.cmdFull = c.cmdFull
  status : c'.status = c.status
  reset : c'.resetReq = c.resetReq

lemma keyMoved_of_moves {s s' : Shared n (Desk K)} (h : KeyMoves s s') :
    KeyMoved s s' ∧ SameFlags s.chan s'.chan := by
  obtain ⟨access, hno, hstep⟩ := h
  cases access with
  | read reg =>
    cases hstep
    exact ⟨.quiet rfl rfl rfl, rfl, rfl, rfl, rfl⟩
  | write reg data =>
    cases hstep
    have hne : reg ≠ .mgmtStatus := hno
    by_cases hreg : reg = .mgmtCmd
    · subst hreg
      by_cases hfull : s.chan.cmd.IsFull
      · refine ⟨.reject hfull ?_ ?_ ?_, ?_, ?_, ?_, ?_⟩ <;> simp [mgmtChanRegWrite, Desk.note, hfull]
      · refine ⟨.accept data hfull ?_ ?_ ?_, ?_, ?_, ?_, ?_⟩ <;>
          simp [mgmtChanRegWrite, Desk.note, hfull]
    · simp only [mgmtChanRegWrite_eq, hreg, hne]
      exact ⟨.quiet rfl rfl rfl, rfl, rfl, rfl, by simp⟩

/-- The ring and its record between two actions of core 0; `hand` is a byte popped and
not yet recorded, `noted` the number of refused bytes core 0 has taken note of. -/
structure Keys (hand : List Byte) (noted : ℕ) (s : Shared n (Desk K)) : Prop where
  order : s.side.popped ++ hand ++ s.chan.cmd.contents = s.side.accepted
  reset : s.chan.resetReq = false
  count : s.chan.cmdDrop = BitVec.ofNat 32 s.side.rejected
  noted_le : noted ≤ s.side.rejected
  seen : s.chan.cmdDropSeen = BitVec.ofNat 32 noted

variable {hand : List Byte} {noted : ℕ}

lemma Keys.moved {s s' : Shared n (Desk K)} (hs : Keys hand noted s) (h : KeyMoves s s') :
    Keys hand noted s' := by
  obtain ⟨hmoved, hflags⟩ := keyMoved_of_moves h
  have hreset := hflags.reset.trans hs.reset
  have hseen := hflags.seen.trans hs.seen
  cases hmoved with
  | quiet hcmd hdrop hside =>
    refine ⟨?_, hreset, ?_, hside ▸ hs.noted_le, hseen⟩
    · rw [hcmd, hside, hs.order]
    · rw [hdrop, hside, hs.count]
  | accept data hroom hcmd hdrop hside =>
    refine ⟨?_, hreset, ?_, hside ▸ hs.noted_le, hseen⟩
    · rw [hcmd, hside, Ring.contents_push hroom, ← List.append_assoc, hs.order]
    · rw [hdrop, hside, hs.count]
  | reject hfull hcmd hdrop hside =>
    refine ⟨?_, hreset, ?_, ?_, hseen⟩
    · rw [hcmd, hside, hs.order]
    · rw [hdrop, hside, hs.count, BitVec.ofNat_add]
      rfl
    · rw [hside]
      exact Nat.le_succ_of_le hs.noted_le

/-- Core 0 has popped what the ring accepted, in order, but for a byte in its hand. -/
def Accounted (s : Shared n (Desk K)) : Prop :=
  ∃ hand : List Byte, hand.length ≤ 1 ∧ s.side.popped ++ hand ++ s.chan.cmd.contents = s.side.accepted

abbrev KeyPoint (n : ℕ) (K : Type) := Script.Point (KeyMoves (n := n) (K := K)) Accounted

/-- At most one byte in hand, and CMD_FULL as given. -/
def keyPoint (hand : List Byte) (hhand : hand.length ≤ 1) (noted : ℕ) (full : Bool) : KeyPoint n K where
  holds s := Keys hand noted s ∧ s.chan.cmdFull = full
  stable := fun _ _ hs h => ⟨hs.1.moved h, (keyMoved_of_moves h).2.full.trans hs.2⟩
  safe := fun _ hs => ⟨hand, hhand, hs.1.order⟩

/-- Between two keys. -/
abbrev freePoint (noted : ℕ) (full : Bool) : KeyPoint n K := keyPoint [] (by simp) noted full

/-- The oldest byte of the ring is `b`. -/
def offeredPoint (b : Byte) (noted : ℕ) (full : Bool) : KeyPoint n K where
  holds s := (Keys [] noted s ∧ s.chan.cmdFull = full) ∧ b ∈ s.chan.cmd.contents.head?
  stable := by
    rintro s s' ⟨hs, hb⟩ h
    refine ⟨(freePoint noted full).stable s s' hs h, ?_⟩
    cases (keyMoved_of_moves h).1 with
    | quiet hcmd _ _ | reject _ hcmd _ _ => exact hcmd ▸ hb
    | accept data hroom hcmd _ _ =>
      rw [hcmd, Ring.contents_push hroom, List.head?_append]
      exact Option.mem_def.mpr (by rw [Option.mem_def.mp hb]; rfl)
  safe := fun s hs => (freePoint noted full).safe s hs.1

/-- What the transport and the engines leave alone. -/
structure SameKeys (s s' : Shared n (Desk K)) : Prop where
  cmd : s'.chan.cmd = s.chan.cmd
  drop : s'.chan.cmdDrop = s.chan.cmdDrop
  seen : s'.chan.cmdDropSeen = s.chan.cmdDropSeen
  full : s'.chan.cmdFull = s.chan.cmdFull
  reset : s'.chan.resetReq = s.chan.resetReq
  accepted : s'.side.accepted = s.side.accepted
  popped : s'.side.popped = s.side.popped
  rejected : s'.side.rejected = s.side.rejected

lemma SameKeys.keys {s s' : Shared n (Desk K)} (h : SameKeys s s') (hs : Keys hand noted s) :
    Keys hand noted s' where
  order := by rw [h.popped, h.cmd, h.accepted, hs.order]
  reset := h.reset.trans hs.reset
  count := by rw [h.drop, h.rejected, hs.count]
  noted_le := h.rejected ▸ hs.noted_le
  seen := h.seen.trans hs.seen

/-- An action that leaves the command side alone. -/
def Aside (β : Type) (u : Shared n (Desk K) → β × Shared n (Desk K)) : Prop :=
  ∀ s, SameKeys s (u s).2

/-- Any assertion about the keys holds through a script of such actions. -/
lemma triple_aside {α : Type} {c : Script (Shared n (Desk K)) α} (h : c.Each Aside)
    (hhand : hand.length ≤ 1) (full : Bool) :
    Script.Triple (fun _ _ => True) (keyPoint hand hhand noted full) c
      fun _ => keyPoint hand hhand noted full := by
  refine Script.Triple.of_each (fun β u (hu : Aside β u) s hs => ⟨trivial, ?_⟩) h
  exact ⟨(hu s).keys hs.1, (hu s).full.trans hs.2⟩

lemma sameKeys_refl (s : Shared n (Desk K)) : SameKeys s s := ⟨rfl, rfl, rfl, rfl, rfl, rfl, rfl, rfl⟩

section Transport

variable {α : Type}

lemma each_now {f : MgmtChan n → Script (Shared n (Desk K)) α} (h : ∀ c, (f c).Each Aside) :
    (now >>= f).Each Aside := .act sameKeys_refl h

lemma each_onChan {g : MgmtChan n → MgmtChan n}
    (h : ∀ c, (g c).cmd = c.cmd ∧ (g c).cmdDrop = c.cmdDrop ∧ (g c).cmdDropSeen = c.cmdDropSeen ∧
      (g c).cmdFull = c.cmdFull ∧ (g c).resetReq = c.resetReq) :
    (onChan g : Script (Shared n (Desk K)) Unit).Each Aside := by
  refine .act (fun s => ?_) fun _ => .pure ()
  obtain ⟨hcmd, hdrop, hseen, hfull, hreset⟩ := h s.chan
  exact ⟨hcmd, hdrop, hseen, hfull, hreset, rfl, rfl, rfl⟩

lemma each_onDesk {g : Desk K → Desk K}
    (h : ∀ d, (g d).accepted = d.accepted ∧ (g d).popped = d.popped ∧ (g d).rejected = d.rejected) :
    (onDesk g : Script (Shared n (Desk K)) Unit).Each Aside := by
  refine .act (fun s => ?_) fun _ => .pure ()
  obtain ⟨haccepted, hpopped, hrejected⟩ := h s.side
  exact ⟨rfl, rfl, rfl, rfl, rfl, haccepted, hpopped, hrejected⟩

lemma mgmtChanPublish_aside : (mgmtChanPublish : Script (Shared n (Desk K)) Unit).Each Aside := by
  refine each_now fun c => ?_
  split
  · split
    · exact .bind (each_onChan fun _ => ⟨rfl, rfl, rfl, rfl, rfl⟩) fun _ =>
        each_onChan fun _ => ⟨rfl, rfl, rfl, rfl, rfl⟩
    · split
      · exact each_onChan fun _ => ⟨rfl, rfl, rfl, rfl, rfl⟩
      · exact .pure ()
  · exact .pure ()

/-- Neither the transport nor an engine touches the command side. -/
lemma transport_aside : TransportRules fun c : Script (Shared n (Desk K)) _ => c.Each Aside where
  ret := Script.Each.pure
  seq := .bind
  loop := .iterate
  now := .act sameKeys_refl fun _ => .pure _
  publish := mgmtChanPublish_aside
  desk := .act sameKeys_refl fun _ => .pure _
  latch := each_onChan fun _ => ⟨rfl, rfl, rfl, rfl, rfl⟩
  push _ := each_onChan fun _ => ⟨rfl, rfl, rfl, rfl, rfl⟩
  engine _ h := each_onDesk h

end Transport

section Pass

variable {full : Bool} {α : Type} {post : α → Shared n (Desk K) → Prop} {s : Shared n (Desk K)}

abbrev KeySafe (c : Script (Shared n (Desk K)) α) (post : α → Shared n (Desk K) → Prop)
    (s : Shared n (Desk K)) : Prop :=
  c.Safe KeyMoves (fun _ _ => True) Accounted post s

lemma key_now {f : MgmtChan n → Script (Shared n (Desk K)) α} (p : KeyPoint n K) (hs : p.holds s)
    (h : ∀ t, p.holds t → KeySafe (f t.chan) post t) : KeySafe (now >>= f) post s :=
  Script.Safe.act p hs (fun _ _ => trivial) h

/-- The byte a pop delivers is recorded before the next one is popped. -/
lemma popKey_safe (hs : (freePoint noted full).holds s) :
    KeySafe popKey (fun _ t => (freePoint noted full).holds t) s := by
  have hpop : KeySafe mgmtChanCmdPop
      (fun key t => (keyPoint key.toList (by cases key <;> simp) noted full).holds t) s := by
    refine key_now (freePoint noted full) hs fun t ht => ?_
    split
    next hempty => exact Script.Safe.ret (freePoint noted full) ht fun _ h => h
    next hempty =>
      have hhead := congrArg List.head? (Ring.contents_pop hempty)
      refine key_now (offeredPoint t.chan.cmd.peek noted full) ⟨ht, hhead⟩ fun t' ht' => ?_
      obtain ⟨hkeys, hoffered⟩ := ht'
      have hsome : ¬ t'.chan.cmd.IsEmpty := by
        intro hempty
        rw [Ring.isEmpty_iff.mp hempty] at hoffered
        cases hoffered
      have hfirst : t'.chan.cmd.peek = t.chan.cmd.peek := by
        rw [Ring.contents_pop hsome] at hoffered
        exact Option.some.inj hoffered
      rw [hfirst]
      refine Script.Safe.act (offeredPoint t.chan.cmd.peek noted full) ⟨hkeys, hoffered⟩
        (fun _ _ => trivial) fun u hu => ?_
      obtain ⟨⟨hk, hf⟩, hb⟩ := hu
      refine Script.Safe.ret (keyPoint [t.chan.cmd.peek] (by simp) noted full) ⟨?_, hf⟩ fun _ h => h
      have hrest : ¬ u.chan.cmd.IsEmpty := by
        intro hempty
        rw [Ring.isEmpty_iff.mp hempty] at hb
        cases hb
      have horder := hk.order
      rw [Ring.contents_pop hrest] at horder hb
      rw [Option.some.inj hb] at horder
      exact ⟨by simpa using horder, hk.reset, hk.count, hk.noted_le, hk.seen⟩
  refine Script.Safe.bind hpop fun key t ht => ?_
  cases key with
  | none => exact Script.Safe.ret (freePoint noted full) ht fun _ h => h
  | some b =>
    refine Script.Safe.act (keyPoint [b] (by simp) noted full) ht (fun _ _ => trivial) fun u hu => ?_
    obtain ⟨hk, hf⟩ := hu
    refine Script.Safe.ret (freePoint noted full) ⟨?_, hf⟩ fun _ h => h
    exact ⟨by simpa using hk.order, hk.reset, hk.count, hk.noted_le, hk.seen⟩

lemma aside_safe {c : Script (Shared n (Desk K)) α} (h : c.Each Aside)
    (hs : (freePoint noted full).holds s) :
    KeySafe c (fun _ t => (freePoint noted full).holds t) s :=
  triple_aside h (by simp) full s hs

lemma free_end {a : α} (hs : (freePoint noted full).holds s) :
    KeySafe (pure a) (fun _ t => (freePoint noted full).holds t) s :=
  Script.Safe.ret (freePoint noted full) hs fun _ h => h

/-- A loop over the keys, for whichever rounds. -/
lemma keyLoop_safe {body : Unit → Script (Shared n (Desk K)) (Unit ⊕ Unit)}
    (hbody : ∀ t, (freePoint noted full).holds t →
      KeySafe (body ()) (fun _ t => (freePoint noted full).holds t) t)
    (hs : (freePoint noted full).holds s) :
    KeySafe (.iterate body ()) (fun _ t => (freePoint noted full).holds t) s := by
  refine Script.Safe.iterate (fun _ t => (freePoint noted full).holds t) hs (fun _ t ht => ?_)
    fun _ _ ht => free_end ht
  refine (hbody t ht).weaken fun r t' ht' => ?_
  cases r with
  | inl x => exact ht'
  | inr y => exact ht'

lemma menuPass_safe (con : Console K) (hs : (freePoint noted full).holds s) :
    KeySafe (menuPass con) (fun _ t => (freePoint noted full).holds t) s := by
  refine Script.Safe.bind (keyLoop_safe (fun t ht => ?_) hs) fun _ t ht => ?_
  · refine Script.Safe.bind (popKey_safe ht) fun key t ht => ?_
    cases key with
    | none => exact free_end ht
    | some b => exact Script.Safe.bind (aside_safe (transport_aside.onEngine _) ht) fun _ _ ht => free_end ht
  · exact aside_safe (.bind (transport_aside.onEngine _) fun _ => each_onDesk fun _ => ⟨rfl, rfl, rfl⟩) ht

lemma linePass_safe (con : Console K) (blob : List Byte) (hs : (freePoint noted full).holds s) :
    KeySafe (linePass con blob) (fun _ t => (freePoint noted full).holds t) s := by
  have hloop : ∀ t : Shared n (Desk K), (freePoint noted full).holds t →
      KeySafe (.iterate (lineRound con blob) ()) (fun _ t => (freePoint noted full).holds t) t := by
    intro t ht
    refine keyLoop_safe (fun t ht => ?_) ht
    refine Script.Safe.bind (popKey_safe ht) fun key t ht => ?_
    cases key with
    | none => exact free_end ht
    | some b =>
      dsimp only
      split
      · exact Script.Safe.bind (aside_safe (transport_aside.sendBlob blob) ht) fun _ _ ht => free_end ht
      · refine Script.Safe.bind (aside_safe (transport_aside.lineKey con b) ht) fun _ t ht => ?_
        refine Script.Safe.bind (aside_safe (transport_aside.lineDone con) ht) fun entered t ht => ?_
        cases entered with
        | true => exact free_end ht
        | false => exact free_end ht
  refine Script.Safe.act (freePoint noted full) hs (fun _ _ => trivial) fun t ht => ?_
  change KeySafe (if t.side.wasMenu then _ else _) _ t
  split
  · refine Script.Safe.bind (aside_safe (each_onDesk fun _ => ⟨rfl, rfl, rfl⟩) ht) fun _ t ht => ?_
    exact Script.Safe.bind (aside_safe (transport_aside.respWrite _) ht) fun _ t ht => hloop t ht
  · exact hloop t ht

/-- No reset is pending, so none is serviced. -/
lemma mgmtConReset_safe (con : Console K) (hs : (freePoint noted full).holds s) :
    KeySafe (mgmtConReset con) (fun _ t => (freePoint noted full).holds t) s := by
  have htake : KeySafe mgmtChanTakeReset (fun done t => done = false ∧ (freePoint noted full).holds t) s := by
    refine key_now (freePoint noted full) hs fun t ht => ?_
    rw [if_pos (by simp [ht.1.reset])]
    exact Script.Safe.ret (freePoint noted full) ht fun _ h => ⟨rfl, h⟩
  refine Script.Safe.bind htake fun done t ht => ?_
  obtain ⟨rfl, ht⟩ := ht
  exact free_end ht

/-- The pump from its test of the ring on. -/
def pumpTest : Script (Shared n (Desk K)) Unit := do
  let c ← now
  if c.cmd.IsEmpty then
    onChan fun c => { c with cmdFull := false }
  Script.iterate pumpRound 0
  onChan fun c => c.statusStore

/-- The pump once it has read the count of refused bytes. -/
def pumpFold (c : MgmtChan n) : Script (Shared n (Desk K)) Unit := do
  if c.cmdDrop ≠ c.cmdDropSeen then
    onChan fun c => { c with cmdDropSeen := c.cmdDrop, cmdFull := true }
  pumpTest

lemma mgmtChanPump_eq : (mgmtChanPump : Script (Shared n (Desk K)) Unit) = now >>= pumpFold := rfl

lemma statusBits_cmdFull (o f r p : Bool) : hasBit (statusBits o f r p) mgmtChanCmdFull = f := by
  revert o f r p
  decide

/-- The STATUS cell shows CMD_FULL as core 0 has it. -/
def shownPoint (noted : ℕ) (full : Bool) : KeyPoint n K where
  holds s := (freePoint noted full).holds s ∧ hasBit s.chan.status mgmtChanCmdFull = full
  stable := fun s s' hs h => by
    refine ⟨(freePoint noted full).stable s s' hs.1 h, ?_⟩
    rw [(keyMoved_of_moves h).2.status]
    exact hs.2
  safe := fun s hs => (freePoint noted full).safe s hs.1

/-- Behind the test of the ring the flag is only shown. -/
lemma pumpTail_safe (hs : (freePoint noted full).holds s) :
    KeySafe (do Script.iterate pumpRound 0; onChan fun c => c.statusStore)
      (fun _ t => (shownPoint noted full).holds t) s := by
  refine Script.Safe.bind (aside_safe (.iterate transport_aside.pumpRound 0) hs) fun _ t ht => ?_
  refine Script.Safe.act (freePoint noted full) ht (fun _ _ => trivial) fun t ht => ?_
  obtain ⟨hk, hf⟩ := ht
  refine Script.Safe.ret (shownPoint noted full) ⟨⟨?_, hf⟩, ?_⟩ fun _ h => h
  · exact ⟨hk.order, hk.reset, hk.count, hk.noted_le, hk.seen⟩
  · exact (statusBits_cmdFull _ _ _ _).trans hf

/-- What is left of the pump once it has read the ring at `q`. -/
lemma pumpRest_safe {q : Shared n (Desk K)} (hq : (freePoint noted full).holds q) :
    KeySafe (do
        if q.chan.cmd.IsEmpty then
          onChan fun c => { c with cmdFull := false }
        Script.iterate pumpRound 0
        onChan fun c => c.statusStore)
      (fun _ t => (shownPoint noted (full && !decide q.chan.cmd.IsEmpty)).holds t) q := by
  split
  next hempty =>
    refine Script.Safe.act (freePoint noted full) hq (fun _ _ => trivial) fun t ht => ?_
    have hcleared : (freePoint noted false).holds
        { t with chan := { t.chan with cmdFull := false } } :=
      ⟨⟨ht.1.order, ht.1.reset, ht.1.count, ht.1.noted_le, ht.1.seen⟩, rfl⟩
    rw [decide_eq_true hempty, Bool.not_true, Bool.and_false]
    exact pumpTail_safe hcleared
  next hempty =>
    rw [decide_eq_false hempty, Bool.not_false, Bool.and_true]
    exact pumpTail_safe hq

end Pass

/-- A pass from `s` to `t` whose pump reads the count of refused bytes in `p` and tests
the ring in `q`. -/
structure Pass (con : Console K) (blob : List Byte) (s p q t : Shared n (Desk K)) : Prop where
  reads : Script.Execution KeyMoves (mgmtConPoll con blob, s) (mgmtChanPump, p)
  tests : ∃ c, mgmtChanPump.step p = some (c, p) ∧ Script.Execution KeyMoves (c, p) (pumpTest, q)
  ends : ∃ c, pumpTest.step q = some (c, q) ∧ Script.Execution KeyMoves (c, q) (.ret (), t)

section Passes

variable {full : Bool} {s t : Shared n (Desk K)}

lemma KeyPoint.after {p : KeyPoint n K} (hs : p.holds s) (h : Script.Interference KeyMoves s t) :
    p.holds t := Script.Point.interference p hs h

lemma rejected_mono (h : Script.Interference (KeyMoves (n := n) (K := K)) s t) :
    s.side.rejected ≤ t.side.rejected := by
  induction h with
  | refl => exact le_refl _
  | tail _ hstep ih =>
    refine ih.trans ?_
    cases (keyMoved_of_moves hstep).1 with
    | quiet _ _ hside | accept _ _ _ _ hside => simp [hside]
    | reject _ _ _ hside => simp [hside]

/-- The last part of the pump, from the test of the ring on. -/
lemma pumpTest_execution (hs : (freePoint noted full).holds s)
    (h : Script.Execution KeyMoves (pumpTest, s) (.ret (), t)) :
    ∃ q, Script.Interference KeyMoves s q ∧
      (∃ c, pumpTest.step q = some (c, q) ∧ Script.Execution KeyMoves (c, q) (.ret (), t)) ∧
      (shownPoint noted (full && !decide q.chan.cmd.IsEmpty)).holds t := by
  obtain ⟨q, hinter, hrest⟩ := Script.Execution.act h
  refine ⟨q, hinter, ⟨_, rfl, hrest⟩, ?_⟩
  have hq := KeyPoint.after hs hinter
  exact (((pumpRest_safe hq).execution hrest) t .refl).2

/-- The pump takes note of what was refused before it read the count, and of nothing else. -/
lemma mgmtChanPump_execution (hs : (freePoint noted full).holds s)
    (h : Script.Execution KeyMoves (mgmtChanPump, s) (.ret (), t)) :
    ∃ p q noted', Script.Interference KeyMoves s p ∧
      (∃ c, mgmtChanPump.step p = some (c, p) ∧ Script.Execution KeyMoves (c, p) (pumpTest, q)) ∧
      (∃ c, pumpTest.step q = some (c, q) ∧ Script.Execution KeyMoves (c, q) (.ret (), t)) ∧
      p.side.rejected ≤ noted' ∧
      (shownPoint noted' ((full || decide (p.chan.cmdDrop ≠ p.chan.cmdDropSeen)) &&
        !decide q.chan.cmd.IsEmpty)).holds t := by
  rw [mgmtChanPump_eq] at h
  obtain ⟨p, hinter, hfold⟩ := Script.Execution.act h
  have hfold : Script.Execution KeyMoves (pumpFold p.chan, p) (.ret (), t) := hfold
  have hp := KeyPoint.after hs hinter
  by_cases hunnoted : p.chan.cmdDrop ≠ p.chan.cmdDropSeen
  · have hcode : pumpFold p.chan = onChan (fun c => { c with cmdDropSeen := c.cmdDrop, cmdFull := true })
        >>= fun _ => pumpTest (K := K) := if_pos hunnoted
    have hsplit := hfold
    rw [hcode] at hsplit
    obtain ⟨p', hwait, htest⟩ := Script.Execution.act hsplit
    have hp' := (KeyPoint.after hp hwait).1
    have hnoted : (freePoint p'.side.rejected true).holds
        { p' with chan := { p'.chan with cmdDropSeen := p'.chan.cmdDrop, cmdFull := true } } :=
      ⟨⟨hp'.order, hp'.reset, hp'.count, le_refl _, hp'.count⟩, rfl⟩
    obtain ⟨q, hq, hrest, hshown⟩ := pumpTest_execution hnoted htest
    refine ⟨p, q, p'.side.rejected, hinter, ⟨pumpFold p.chan, rfl, ?_⟩, hrest, rejected_mono hwait, ?_⟩
    · rw [hcode]
      refine (Script.Execution.of_interference _ hwait).trans (.head (.script rfl) ?_)
      exact Script.Execution.of_interference _ hq
    · rw [decide_eq_true hunnoted, Bool.or_true]
      exact hshown
  · have hcode : pumpFold p.chan = pumpTest (K := K) := if_neg hunnoted
    have htest := hfold
    rw [hcode] at htest
    have heq : p.chan.cmdDropSeen = BitVec.ofNat 32 p.side.rejected :=
      (not_not.mp hunnoted).symm.trans hp.1.count
    have hnoted : (freePoint p.side.rejected full).holds p :=
      ⟨⟨hp.1.order, hp.1.reset, hp.1.count, le_refl _, heq⟩, hp.2⟩
    obtain ⟨q, hq, hrest, hshown⟩ := pumpTest_execution hnoted htest
    refine ⟨p, q, p.side.rejected, hinter, ⟨pumpFold p.chan, rfl, ?_⟩, hrest, le_refl _, ?_⟩
    · rw [hcode]
      exact Script.Execution.of_interference _ hq
    · rw [decide_eq_false hunnoted, Bool.or_false]
      exact hshown

/-- Everything a pass does before its pump leaves the count and the flag alone. -/
lemma mgmtConPoll_execution (con : Console K) (blob : List Byte) (hs : (freePoint noted full).holds s)
    (h : Script.Execution KeyMoves (mgmtConPoll con blob, s) (.ret (), t)) :
    ∃ r, (freePoint noted full).holds r ∧
      Script.Execution KeyMoves (mgmtConPoll con blob, s) (mgmtChanPump, r) ∧
      Script.Execution KeyMoves (mgmtChanPump, r) (.ret (), t) := by
  obtain ⟨_, a, hreset, hpass⟩ := Script.Execution.bind h
  have ha := (((mgmtConReset_safe con hs).execution hreset) a .refl).2
  obtain ⟨b, hab, hpass⟩ := Script.Execution.act hpass
  have hb := KeyPoint.after ha hab
  have hstart : Script.Execution KeyMoves (mgmtConPoll con blob, s)
      (if con.viaActive b.side.engine then do menuPass con; mgmtChanPump
        else do linePass con blob; mgmtChanPump, b) := by
    refine (Script.Execution.bind_left hreset _).trans ?_
    exact (Script.Execution.of_interference _ hab).tail (.script rfl)
  have hpass : Script.Execution KeyMoves
      (if con.viaActive b.side.engine then do menuPass con; mgmtChanPump
        else do linePass con blob; mgmtChanPump, b) (.ret (), t) := hpass
  split at hpass
  next hmenu =>
    rw [if_pos hmenu] at hstart
    obtain ⟨_, r, hkeys, hpump⟩ := Script.Execution.bind hpass
    have hr := (((menuPass_safe con hb).execution hkeys) r .refl).2
    exact ⟨r, hr, hstart.trans (Script.Execution.bind_left hkeys _), hpump⟩
  next hmenu =>
    rw [if_neg hmenu] at hstart
    obtain ⟨_, r, hkeys, hpump⟩ := Script.Execution.bind hpass
    have hr := (((linePass_safe con blob hb).execution hkeys) r .refl).2
    exact ⟨r, hr, hstart.trans (Script.Execution.bind_left hkeys _), hpump⟩

/-- Some number of refused bytes is noted, and CMD_FULL is up or down. -/
def Idle (s : Shared n (Desk K)) : Prop := ∃ noted full, (freePoint noted full).holds s

lemma mgmtChanPump_idle (hs : (freePoint noted full).holds s) :
    KeySafe mgmtChanPump (fun _ t => Idle t) s := by
  have htest : ∀ {noted full} {s : Shared n (Desk K)}, (freePoint noted full).holds s →
      KeySafe pumpTest (fun _ t => Idle t) s := by
    intro noted full s hs
    refine key_now (freePoint noted full) hs fun q hq => (pumpRest_safe hq).weaken fun _ t ht => ?_
    exact ⟨_, _, ht.1⟩
  rw [mgmtChanPump_eq]
  refine key_now (freePoint noted full) hs fun p hp => ?_
  unfold pumpFold
  split
  · refine Script.Safe.act (freePoint noted full) hp (fun _ _ => trivial) fun p' hp' => ?_
    have hk := hp'.1
    have hnoted : (freePoint p'.side.rejected true).holds
        { p' with chan := { p'.chan with cmdDropSeen := p'.chan.cmdDrop, cmdFull := true } } :=
      ⟨⟨hk.order, hk.reset, hk.count, le_refl _, hk.count⟩, rfl⟩
    exact htest hnoted
  · exact htest hp

lemma loopBody_safe (con : Console K) (blob : List Byte) (call : LoopCall K) (hs : Idle s) :
    KeySafe (loopBody con blob call) (fun _ t => Idle t) s := by
  obtain ⟨noted, full, hs⟩ := hs
  cases call with
  | tuiPoll engine =>
    have haside : (loopBody con blob (.tuiPoll engine) : Script (Shared n (Desk K)) Unit).Each Aside :=
      each_onDesk (g := fun d => { d with engine := engine }) fun _ => ⟨rfl, rfl, rfl⟩
    exact (aside_safe haside hs).weaken fun _ t ht => ⟨noted, full, ht⟩
  | mgmtConPoll =>
    refine Script.Safe.bind (mgmtConReset_safe con hs) fun _ t ht => ?_
    refine Script.Safe.act (freePoint noted full) ht (fun _ _ => trivial) fun t ht => ?_
    change KeySafe (if con.viaActive t.side.engine then do menuPass con; mgmtChanPump
      else do linePass con blob; mgmtChanPump) _ t
    split
    · exact Script.Safe.bind (menuPass_safe con ht) fun _ _ ht => mgmtChanPump_idle ht
    · exact Script.Safe.bind (linePass_safe con blob ht) fun _ _ ht => mgmtChanPump_idle ht

end Passes

/-- Power-up, with any line engine and menu. -/
def loopStart (hn : 0 < n) (line : MtuiLine) (engine : K) : Machine (Shared n (Desk K)) :=
  ⟨⟨.initial hn, ⟨line, engine, false, [], [], 0⟩⟩, pure ()⟩

abbrev loopStep (con : Console K) (blob : List Byte) :
    Machine (Shared n (Desk K)) → Move (LoopCall K) Access → Option (Machine (Shared n (Desk K))) :=
  Machine.step (loopBody con blob) deskStep

lemma loopStart_verified (hn : 0 < n) (line : MtuiLine) (engine : K) :
    (loopStart hn line engine).Verified KeyMoves (fun _ _ => True) Accounted Idle := by
  have hidle : (freePoint 0 false).holds (loopStart hn line engine).shared :=
    ⟨⟨rfl, rfl, rfl, le_refl 0, rfl⟩, rfl⟩
  exact Script.Safe.ret (freePoint 0 false) hidle fun _ h => ⟨0, false, h⟩

/-- In every interleaving core 0 has popped the bytes the ring accepted, in order; a byte is
refused only by a full ring; and a pass ends with CMD_FULL shown for the bytes refused before
its pump read their count, and with their count noted, exactly if the pump then finds a key
in the ring. -/
theorem cmdRing_reports (con : Console K) (blob : List Byte) (hn : 0 < n) (line : MtuiLine) (engine : K)
    {moves : List (Move (LoopCall K) Access)} {m : Machine (Shared n (Desk K))}
    (hrun : Guarded (loopStep con blob) (Move.Admits NoReset) (loopStart hn line engine) moves m) :
    Accounted m.shared ∧
    (∀ data s', deskStep m.shared (.write .mgmtCmd data) = some s' →
      (s'.chan.cmd.contents = m.shared.chan.cmd.contents ++ [data] ∧
        s'.side.accepted = m.shared.side.accepted ++ [data] ∧
        s'.side.rejected = m.shared.side.rejected) ∨
      (m.shared.chan.cmd.contents.length + 1 = cmdRingSz ∧
        s'.chan.cmd.contents = m.shared.chan.cmd.contents ∧
        s'.side.accepted = m.shared.side.accepted ∧
        s'.side.rejected = m.shared.side.rejected + 1)) ∧
    (m.code = .ret () →
      m.shared.side.popped ++ m.shared.chan.cmd.contents = m.shared.side.accepted ∧
      ∀ t, Script.Execution KeyMoves (mgmtConPoll con blob, m.shared) (.ret (), t) →
        ∃ p q noted, Pass con blob m.shared p q t ∧
          p.side.rejected ≤ noted ∧ noted ≤ t.side.rejected ∧
          t.chan.cmdDropSeen = BitVec.ofNat 32 noted ∧
          (hasBit t.chan.status mgmtChanCmdFull = true ↔
            ¬ q.chan.cmd.IsEmpty ∧
              (BitVec.ofNat 32 p.side.rejected ≠ m.shared.chan.cmdDropSeen ∨
                m.shared.chan.cmdFull = true))) := by
  have hverified := Machine.run_verified (fun call _ hs => loopBody_safe con blob call hs) hrun
    (loopStart_verified hn line engine)
  refine ⟨Script.Safe.invariant hverified, fun data s' hstep => ?_, fun hidle => ?_⟩
  · cases hstep
    by_cases hfull : m.shared.chan.cmd.IsFull
    · exact .inr ⟨Ring.isFull_iff.mp hfull, by simp [mgmtChanRegWrite, Desk.note, hfull]⟩
    · exact .inl (by simp [mgmtChanRegWrite, Desk.note, hfull, Ring.contents_push hfull])
  · rw [Machine.Verified, hidle] at hverified
    obtain ⟨noted, full, hm⟩ := (hverified m.shared .refl).2
    refine ⟨by simpa using hm.1.order, fun t hpass => ?_⟩
    obtain ⟨r, hr, hreads, hpump⟩ := mgmtConPoll_execution con blob hm hpass
    obtain ⟨p, q, noted', hrp, htests, hends, hle, hshown⟩ := mgmtChanPump_execution hr hpump
    have hp := KeyPoint.after hr hrp
    have hkeys := hshown.1.1
    refine ⟨p, q, noted', ⟨hreads.trans (Script.Execution.of_interference _ hrp), htests, hends⟩, hle,
      hkeys.noted_le, hkeys.seen, ?_⟩
    rw [hshown.2, hp.1.count, hp.1.seen, ← hm.1.seen, ← hm.2]
    simp [and_comm, or_comm]

/-- No menu, and a line engine that keeps quiet. -/
def quietConsole : Console Unit where
  viaActive _ := false
  abortVia := id
  feedVia _ k := ([], k)
  pollVia k := ([], k)
  enterVia k := (false, [], k)
  lineFeed _ line k := (line, [], k)

instance (s : Shared n (Desk K)) : (access : Access) → Decidable (NoReset s access)
  | .read _ => isTrue trivial
  | .write reg _ => inferInstanceAs (Decidable (reg ≠ .mgmtStatus))

instance (m : Machine (Shared n (Desk K))) :
    (move : Move (LoopCall K) Access) → Decidable (move.Admits NoReset m)
  | .env access => inferInstanceAs (Decidable (NoReset m.shared access))
  | .core | .call _ => isTrue trivial

/-- One key more than the ring takes. -/
def burst : List (Move (LoopCall Unit) Access) := List.replicate cmdRingSz (.env (.write .mgmtCmd 1))

def quietStart : Machine (Shared 2 (Desk Unit)) := loopStart (by decide) ⟨0, false, false, false⟩ ()

def afterBurst : Option (Machine (Shared 2 (Desk Unit))) :=
  follow (loopStep quietConsole []) (Move.Admits NoReset) quietStart burst

def finished : Script (Shared 2 (Desk Unit)) Unit → Bool
  | .ret _ => true
  | _ => false

lemma finished_iff {c : Script (Shared 2 (Desk Unit)) Unit} (h : finished c = true) : c = .ret () := by
  cases c with
  | ret a => rfl
  | act u k => cases h
  | loop body i k => cases h

/-- A pass after the burst: whether it ends, the bytes refused before it, and STATUS at its end. -/
def passAfter (turns : List (Option Access)) : Option (Bool × ℕ × Byte) :=
  afterBurst.bind fun m =>
    (Script.play deskStep turns (mgmtConPoll quietConsole [], m.shared)).map fun x =>
      (finished m.code && finished x.1, m.shared.side.rejected, x.2.chan.status)

/-- Turns of the Victor that are no resets. -/
lemma passAfter_execution {turns : List (Option Access)} {r : ℕ} {status : Byte}
    (hno : ∀ access ∈ turns.filterMap id, ∀ s : Shared 2 (Desk Unit), NoReset s access)
    (h : passAfter turns = some (true, r, status)) :
    ∃ m t, Guarded (loopStep quietConsole []) (Move.Admits NoReset) quietStart burst m ∧
      m.code = .ret () ∧
      Script.Execution KeyMoves (mgmtConPoll quietConsole [], m.shared) (.ret (), t) ∧
      m.shared.side.rejected = r ∧ t.chan.status = status := by
  obtain ⟨m, hm, hplay⟩ := Option.bind_eq_some_iff.mp h
  obtain ⟨⟨c, t⟩, ht, heq⟩ := Option.map_eq_some_iff.mp hplay
  simp only [Prod.mk.injEq, Bool.and_eq_true] at heq
  obtain ⟨⟨hidle, hended⟩, hr, hstatus⟩ := heq
  have hexec := Script.Execution.of_play hno ht
  rw [finished_iff hended] at hexec
  exact ⟨m, t, Guarded.of_follow hm, finished_iff hidle, hexec, hr, hstatus⟩

/-- The pass drains the ring before its pump takes note of the refused byte, and the flag
is cleared as soon as it is set. -/
theorem cmdRing_unreported :
    ∃ m t, Guarded (loopStep quietConsole []) (Move.Admits NoReset) quietStart burst m ∧
      m.code = .ret () ∧
      Script.Execution KeyMoves (mgmtConPoll quietConsole [], m.shared) (.ret (), t) ∧
      m.shared.side.rejected = 1 ∧ hasBit t.chan.status mgmtChanCmdFull = false := by
  have hpass : passAfter (List.replicate 454 none) = some (true, 1, 0xD0) := by decide +kernel
  obtain ⟨m, t, hrun, hidle, hexec, hr, hstatus⟩ := passAfter_execution (by simp) hpass
  refine ⟨m, t, hrun, hidle, hexec, hr, ?_⟩
  rw [hstatus]
  decide

/-- A key that arrives between the last pop and the pump's test keeps CMD_FULL up. -/
def lateKey : List (Option Access) :=
  List.replicate 447 none ++ some (.write .mgmtCmd 1) :: List.replicate 6 none

theorem cmdRing_reports_late :
    ∃ m t, Guarded (loopStep quietConsole []) (Move.Admits NoReset) quietStart burst m ∧
      Script.Execution KeyMoves (mgmtConPoll quietConsole [], m.shared) (.ret (), t) ∧
      m.shared.side.rejected = 1 ∧ hasBit t.chan.status mgmtChanCmdFull = true ∧
      ∃ p q, Pass quietConsole [] m.shared p q t ∧ ¬ q.chan.cmd.IsEmpty := by
  have hpass : passAfter lateKey = some (true, 1, 0xD4) := by decide +kernel
  have hno : ∀ access ∈ lateKey.filterMap id, ∀ s : Shared 2 (Desk Unit), NoReset s access := by
    have hturns : lateKey.filterMap id = [.write .mgmtCmd 1] := by decide +kernel
    rw [hturns]
    simp [NoReset]
  obtain ⟨m, t, hrun, hidle, hexec, hr, hstatus⟩ := passAfter_execution hno hpass
  have hshown : hasBit t.chan.status mgmtChanCmdFull = true := by
    rw [hstatus]
    decide
  have hreports := cmdRing_reports quietConsole [] (by decide) ⟨0, false, false, false⟩ () hrun
  obtain ⟨p, q, noted, hp, _, _, _, hiff⟩ := (hreports.2.2 hidle).2 t hexec
  exact ⟨m, t, hrun, hexec, hr, hshown, p, q, hp, (hiff.mp hshown).1⟩

end PicoV9k.Mgmt
