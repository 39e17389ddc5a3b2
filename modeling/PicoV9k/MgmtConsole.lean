import PicoV9k.MgmtChannel

/-!
# The management console

`mgmt_con.c`: one pass of core 0 over the command ring. The line engine and the menu
behind it are parameters; they reach the channel only through the transport, so each
of their calls is given as what it writes there.
-/
namespace PicoV9k.Mgmt
open PicoV9k.Bus PicoV9k.Scripts

/-- The fields of `mtui_line_t` the console looks at. -/
structure MtuiLine where
  len : ℕ
  overflow : Bool
  lastCr : Bool
  done : Bool

/-- The line engine and the menu, over the rest `K` of their state. -/
structure Console (K : Type) where
  viaActive : K → Bool
  abortVia : K → K
  feedVia : Byte → K → List (List Byte) × K
  pollVia : K → List (List Byte) × K
  enterVia : K → Bool × List (List Byte) × K
  lineFeed : Byte → MtuiLine → K → MtuiLine × List (List Byte) × K

/-- The console, with a record of the command bytes the ring took, of those core 0
popped, and of how many found no room. -/
structure Desk (K : Type) where
  line : MtuiLine
  engine : K
  wasMenu : Bool
  accepted : List Byte
  popped : List Byte
  rejected : ℕ

variable {n : ℕ} {K : Type}

def desk : Script (Shared n (Desk K)) (Desk K) := .read (·.side)

def onDesk (g : Desk K → Desk K) : Script (Shared n (Desk K)) Unit :=
  .modify fun s => { s with side := g s.side }

def ascii (text : String) : List Byte := text.toList.map fun ch => BitVec.ofNat 8 ch.toNat

/-- `mc_tp_write`, once for each write of an engine call. -/
def mcTpWrite : List (List Byte) → Script (Shared n (Desk K)) Unit
  | [] => pure ()
  | buf :: writes => do
    mgmtChanRespWrite buf
    mcTpWrite writes

/-- A call of the menu. -/
def onEngine (f : K → List (List Byte) × K) : Script (Shared n (Desk K)) Unit := do
  let d ← desk
  onDesk fun d => { d with engine := (f d.engine).2 }
  mcTpWrite (f d.engine).1

def mtuiLineFeed (con : Console K) (b : Byte) : Script (Shared n (Desk K)) Unit := do
  let d ← desk
  let r := con.lineFeed b d.line d.engine
  onDesk fun d => { d with line := r.1, engine := r.2.2 }
  mcTpWrite r.2.1

def mcLineReset (line : MtuiLine) : MtuiLine := { line with len := 0, overflow := false, lastCr := false }

def mgmtConSendBlob (blob : List Byte) : Script (Shared n (Desk K)) Unit := do
  let sum : BitVec 32 := blob.foldl (fun sum b => sum + b.setWidth 32) 0
  let headed ← mgmtChanBlobSend [0xA5, 0x5A, BitVec.ofNat 8 blob.length, BitVec.ofNat 8 (blob.length >>> 8)]
  if headed then
    let sent ← mgmtChanBlobSend blob
    if sent then
      let _ ← mgmtChanBlobSend [sum.setWidth 8, (sum >>> 8).setWidth 8]

/-- `mgmt_chan_cmd_pop` into the loop variable. -/
def popKey : Script (Shared n (Desk K)) (Option Byte) := do
  let key ← mgmtChanCmdPop
  match key with
  | none => pure none
  | some b =>
    onDesk fun d => { d with popped := d.popped ++ [b] }
    pure (some b)

/-- While the menu owns the channel the bytes are its keys. -/
def menuRound (con : Console K) (_ : Unit) : Script (Shared n (Desk K)) (Unit ⊕ Unit) := do
  let key ← popKey
  match key with
  | none => return .inr ()
  | some b =>
    onEngine (con.feedVia b)
    return .inl ()

def menuPass (con : Console K) : Script (Shared n (Desk K)) Unit := do
  Script.iterate (menuRound con) ()
  onEngine con.pollVia
  onDesk fun d => { d with wasMenu := true }

/-- The echo of one key, and the key to the line engine. -/
def lineKey (con : Console K) (b : Byte) : Script (Shared n (Desk K)) Unit := do
  let d ← desk
  if b = 0x0D ∨ b = 0x0A then
    mgmtChanRespWrite (ascii "\r\n")
    mtuiLineFeed con 0x0D
  else if b = 0x7F ∨ b = 0x08 then
    if 0 < d.line.len then
      mgmtChanRespWrite [0x08, 0x20, 0x08]
    mtuiLineFeed con b
  else if 32 ≤ b ∧ b < 127 ∧ d.line.len < 95 then
    mgmtChanRespWrite [b]
    mtuiLineFeed con b

/-- A finished line may be the `menu` command; the result says that the menu is up. -/
def lineDone (con : Console K) : Script (Shared n (Desk K)) Bool := do
  let d ← desk
  if d.line.done then
    onDesk fun d => { d with line := { d.line with done := false }, engine := (con.enterVia d.engine).2.2 }
    mcTpWrite (con.enterVia d.engine).2.1
    if (con.enterVia d.engine).1 then pure true
    else
      mgmtChanRespWrite (ascii "ERR menu busy\r\n")
      mgmtChanRespWrite (ascii "v9k> ")
      pure false
  else pure false

/-- One key of the line loop, which ends on an empty ring or on entering the menu. -/
def lineRound (con : Console K) (blob : List Byte) (_ : Unit) :
    Script (Shared n (Desk K)) (Unit ⊕ Unit) := do
  let key ← popKey
  match key with
  | none => return .inr ()
  | some b =>
    if b = 0x1C then
      mgmtConSendBlob blob
      return .inl ()
    else
      lineKey con b
      let entered ← lineDone con
      if entered then return .inr () else return .inl ()

def linePass (con : Console K) (blob : List Byte) : Script (Shared n (Desk K)) Unit := do
  let d ← desk
  if d.wasMenu then
    onDesk fun d => { d with wasMenu := false, line := mcLineReset d.line }
    mgmtChanRespWrite (ascii "v9k> ")
  Script.iterate (lineRound con blob) ()

/-- A serviced reset drops the half-typed line and the menu. -/
def mgmtConReset (con : Console K) : Script (Shared n (Desk K)) Unit := do
  let done ← mgmtChanTakeReset
  if done then
    onDesk fun d =>
      { d with line := mcLineReset d.line, engine := con.abortVia d.engine, wasMenu := false }

def mgmtConPoll (con : Console K) (blob : List Byte) : Script (Shared n (Desk K)) Unit := do
  mgmtConReset con
  let d ← desk
  if con.viaActive d.engine then
    menuPass con
    mgmtChanPump
  else
    linePass con blob
    mgmtChanPump

/-- The main loop of core 0: a pass, or `tui_poll`, which may move the menu to the other console. -/
inductive LoopCall (K : Type)
  | mgmtConPoll
  | tuiPoll (engine : K)

def loopBody (con : Console K) (blob : List Byte) : LoopCall K → Script (Shared n (Desk K)) Unit
  | .mgmtConPoll => mgmtConPoll con blob
  | .tuiPoll engine => onDesk fun d => { d with engine := engine }

/-- A property of scripts that reads, sequencing, loops and the publish step have. -/
structure PumpRules (Good : {α : Type} → Script (Shared n (Desk K)) α → Prop) : Prop where
  ret : ∀ {α : Type} (a : α), Good (pure a : Script (Shared n (Desk K)) α)
  seq : ∀ {α β : Type} {c : Script (Shared n (Desk K)) α} {f : α → Script (Shared n (Desk K)) β},
    Good c → (∀ a, Good (f a)) → Good (c >>= f)
  loop : ∀ {σ β : Type} {body : σ → Script (Shared n (Desk K)) (σ ⊕ β)},
    (∀ x, Good (body x)) → ∀ i, Good (Script.iterate body i)
  now : Good now
  publish : Good mgmtChanPublish

/-- The stores of the transport and of the engines have it too. -/
structure TransportRules (Good : {α : Type} → Script (Shared n (Desk K)) α → Prop) : Prop
    extends PumpRules Good where
  desk : Good desk
  latch : Good latchOverflow
  push : ∀ b, Good (respPush b)
  engine : ∀ g : Desk K → Desk K,
    (∀ d, (g d).accepted = d.accepted ∧ (g d).popped = d.popped ∧ (g d).rejected = d.rejected) →
      Good (onDesk g)

section Rules

variable {Good : {α : Type} → Script (Shared n (Desk K)) α → Prop}

lemma PumpRules.pumpRound (h : PumpRules Good) (i : ℕ) : Good (pumpRound i) := by
  have hspin (spins : ℕ) : Good (ackSpinRound spins) := by
    refine h.seq h.now fun c => ?_
    split
    · exact h.ret _
    · exact h.ret _
  unfold Mgmt.pumpRound
  split
  · exact h.ret _
  · refine h.seq h.publish fun _ => h.seq h.now fun c => ?_
    split
    · exact h.ret _
    · refine h.seq (h.loop hspin 0) fun _ => h.seq h.now fun c => ?_
      split
      · exact h.ret _
      · exact h.ret _

lemma TransportRules.respRoomRound (h : TransportRules Good) (checkReset : Bool) (spins : ℕ) :
    Good (respRoomRound checkReset spins) := by
  refine h.seq h.now fun c => ?_
  split
  · exact h.ret _
  · split
    · exact h.ret _
    · refine h.seq h.publish fun _ => h.seq h.now fun c => ?_
      split
      · exact h.ret _
      · split
        · exact h.seq h.latch fun _ => h.ret _
        · exact h.ret _

lemma TransportRules.respWrite (h : TransportRules Good) (buf : List Byte) :
    Good (mgmtChanRespWrite buf) := by
  induction buf with
  | nil => exact h.ret ()
  | cons b buf ih =>
    refine h.seq h.now fun c => ?_
    split
    · exact h.ret ()
    · refine h.seq (h.loop (h.respRoomRound false) 0) fun r => ?_
      split
      · exact h.seq (h.push b) fun _ => ih
      · exact h.ret ()

lemma TransportRules.blobCopy (h : TransportRules Good) (buf : List Byte) : Good (blobCopy buf) := by
  induction buf with
  | nil => exact h.ret true
  | cons b buf ih =>
    refine h.seq (h.loop (h.respRoomRound true) 0) fun r => ?_
    split
    · exact h.seq (h.push b) fun _ => ih
    · exact h.ret false

lemma TransportRules.blobDrainRound (h : TransportRules Good) (spins : ℕ) : Good (blobDrainRound spins) := by
  refine h.seq h.now fun c => ?_
  split
  · exact h.ret _
  · refine h.seq h.now fun c => ?_
    split
    · exact h.ret _
    · refine h.seq h.now fun c => h.seq h.publish fun _ => h.seq h.now fun c' => ?_
      split
      · exact h.ret _
      · split
        · exact h.seq h.latch fun _ => h.ret _
        · exact h.ret _

lemma TransportRules.blobSend (h : TransportRules Good) (buf : List Byte) : Good (mgmtChanBlobSend buf) := by
  refine h.seq h.now fun c => ?_
  split
  · exact h.ret false
  · refine h.seq (h.blobCopy buf) fun copied => ?_
    split
    · exact h.loop h.blobDrainRound 0
    · exact h.ret false

lemma TransportRules.sendBlob (h : TransportRules Good) (blob : List Byte) : Good (mgmtConSendBlob blob) := by
  refine h.seq (h.blobSend _) fun headed => ?_
  split
  · refine h.seq (h.blobSend blob) fun sent => ?_
    split
    · exact h.seq (h.blobSend _) fun _ => h.ret ()
    · exact h.ret ()
  · exact h.ret ()

lemma TransportRules.tpWrite (h : TransportRules Good) (writes : List (List Byte)) :
    Good (mcTpWrite writes) := by
  induction writes with
  | nil => exact h.ret ()
  | cons buf writes ih => exact h.seq (h.respWrite buf) fun _ => ih

lemma TransportRules.onEngine (h : TransportRules Good) (f : K → List (List Byte) × K) : Good (onEngine f) :=
  h.seq h.desk fun _ => h.seq (h.engine _ fun _ => ⟨rfl, rfl, rfl⟩) fun _ => h.tpWrite _

lemma TransportRules.lineFeed (h : TransportRules Good) (con : Console K) (b : Byte) :
    Good (mtuiLineFeed con b) :=
  h.seq h.desk fun _ => h.seq (h.engine _ fun _ => ⟨rfl, rfl, rfl⟩) fun _ => h.tpWrite _

lemma TransportRules.lineKey (h : TransportRules Good) (con : Console K) (b : Byte) : Good (lineKey con b) := by
  refine h.seq h.desk fun d => ?_
  split
  · exact h.seq (h.respWrite _) fun _ => h.lineFeed con _
  · split
    · split
      · exact h.seq (h.respWrite _) fun _ => h.lineFeed con b
      · exact h.lineFeed con b
    · split
      · exact h.seq (h.respWrite _) fun _ => h.lineFeed con b
      · exact h.ret ()

lemma TransportRules.lineDone (h : TransportRules Good) (con : Console K) : Good (lineDone con) := by
  refine h.seq h.desk fun d => ?_
  split
  · refine h.seq (h.engine _ fun _ => ⟨rfl, rfl, rfl⟩) fun _ => h.seq (h.tpWrite _) fun _ => ?_
    split
    · exact h.ret true
    · exact h.seq (h.respWrite _) fun _ => h.seq (h.respWrite _) fun _ => h.ret false
  · exact h.ret false

end Rules

end PicoV9k.Mgmt
