import PicoV9k.SessionPasses

/-!
# Sessions are separated

Whenever no settle begins with a zero as the last byte written to CMD, the reset separates the
sessions, in every interleaving. In the menu the client may write a zero behind an ESC, and then
it takes the echo of that byte for the end of the reset.
-/
namespace PicoV9k.Dmaterm
open PicoV9k.Bus PicoV9k.Rings PicoV9k.Mgmt PicoV9k.Scripts PicoV9k.Runs

variable {n : ℕ} {K : Type}

lemma Session.start_books {c : MgmtChan n} {d : Desk K} (hpopped : d.popped = []) (cell : ℕ → Terminal.Cell)
    (line : ℕ → Byte) : Books ⟨⟨c, d⟩, Session.start c cell line⟩ where
  ring := List.length_replicate
  fifo := List.length_replicate
  stamps t ht := by
    simp only [World.ledger, Session.start, List.mem_replicate, List.not_mem_nil, false_or, or_false] at ht
    rcases ht with ht | ht
    · exact ht.2
    · exact ht.2
  consumed p hp := by cases hp
  flushed p hp := by cases hp
  taken p hp := by cases hp
  complete := by
    rw [hpopped]
    rfl

lemma start_verified (con : Console K) {c : MgmtChan n} (hreset : c.resetReq = false) (line : MtuiLine)
    (engine : K) (wasMenu : Bool) (cell : ℕ → Terminal.Cell) (shadow : ℕ → Byte) :
    (start c line engine wasMenu cell shadow).Verified Moves (fun _ _ => True) Separated
      (deskPoint n con).holds := by
  have hkept : Kept (start c line engine wasMenu cell shadow).shared := by
    exact {
      books := Session.start_books rfl cell shadow
      echo := fun _ => by simp [start, Session.start]
      untyped := fun ht => by cases ht
      shaking := fun hs => by cases hs
      hushed := fun hh => by cases hh.1
      pending := fun hr => absurd (hreset.symm.trans hr) (by decide)
      done := fun _ => ⟨rfl, fun hw => by cases hw⟩
      offered := fun _ => rfl
      reading := fun hr => by cases hr }
  exact Script.Safe.ret (deskPoint n con) ⟨hkept, rfl, fun hh => by cases hh.1⟩ fun _ h => h

/-- In every interleaving in which no settle begins with a zero as the last byte written to CMD, the
sessions are separated: whatever the client finds at the start, provided the abort takes the menu down. -/
theorem sessions_separated (con : Console K) (hcon : ∀ k, con.viaActive (con.abortVia k) = false)
    (blob : List Byte) {c : MgmtChan n} (hreset : c.resetReq = false) (line : MtuiLine) (engine : K)
    (wasMenu : Bool) (cell : ℕ → Terminal.Cell) (shadow : ℕ → Byte) {moves : List (Move Unit Input)}
    {m : Machine (World n K)}
    (hrun : Guarded (sessionStep con blob) (Move.Admits LastNonzero)
      (start c line engine wasMenu cell shadow) moves m) : Separated m.shared := by
  have hverified := Machine.run_verified (fun _ x hx => desk_poll hcon blob hx) hrun
    (start_verified con hreset line engine wasMenu cell shadow)
  exact Script.Safe.invariant hverified

/-- Every line is the menu command. The menu hides the cursor with its first frame and redraws the
screen with its third. -/
def menuConsole : Console (Option ℕ) where
  viaActive k := k.isSome
  abortVia _ := none
  feedVia _ k := ([], k)
  pollVia k :=
    (if k = some 0 then [[0x1B, 0x5B, 0x3F, 0x32, 0x35, 0x6C]]
      else if k = some 2 then [List.replicate 1025 0x20] else [], k.map (· + 1))
  enterVia _ := (true, [], some 0)
  lineFeed b line k := ({ line with done := decide (b = 0x0D) }, [], k)

/-- The channel of the firmware at power-up. -/
def menuStart : Machine (World 1024 (Option ℕ)) :=
  start (.initial (by decide)) ⟨0, false, false, false⟩ none false (fun _ => 0) fun _ => 0

def access (k : ℕ) : List (Move Unit Input) := List.replicate k (.env .access)

def turns (k : ℕ) : List (Move Unit Input) := List.replicate k .core

/-- The client takes some bytes, core 0 publishing them one by one. -/
def deliveries (k : ℕ) : List (Move Unit Input) := (List.replicate k (access 5 ++ turns 8)).flatten

/-- Detection, the STATUS write, a pass that services the reset, and the echo. -/
def settleMoves : List (Move Unit Input) := access 7 ++ .call () :: turns 20 ++ access 1

/-- The CR brings up the menu, and a pass paints its first frame. -/
def menuMoves : List (Move Unit Input) :=
  settleMoves ++ access 2 ++ .call () :: turns 29 ++ deliveries 2 ++ .call () :: turns 39 ++ deliveries 6

/-- ESC with a NUL behind it, and the pass that feeds them to the menu. -/
def zeroMoves : List (Move Unit Input) :=
  menuMoves ++ .env (.key 0x1B (some 0)) :: access 2 ++ .call () :: turns 28

instance decidableLastNonzero (x : World n K) (input : Input) : Decidable (LastNonzero x input) :=
  inferInstanceAs (Decidable (_ → _))

instance decidableAdmitsLast (m : Machine (World n K)) :
    (move : Move Unit Input) → Decidable (move.Admits LastNonzero m)
  | .env input => decidableLastNonzero m.shared input
  | .core | .call _ => isTrue trivial

def afterMoves (moves : List (Move Unit Input)) : Option (Machine (World 1024 (Option ℕ))) :=
  follow (sessionStep menuConsole []) (Move.Admits LastNonzero) menuStart moves

/-- The client has seen the echo, and the channel is as a reset leaves it. -/
theorem sessions_separated_opening :
    ∃ m, Guarded (sessionStep menuConsole []) (Move.Admits LastNonzero) menuStart settleMoves m ∧
      m.shared.mode = .seeding true ∧ m.shared.chan.served = m.shared.chan.ack ∧
      m.shared.ledger.flushed = [(0, 1), (0, 1)] := by
  have hend : (afterMoves settleMoves).map (fun m => (m.shared.mode, m.shared.ledger.flushed)) =
      some (.seeding true, [(0, 1), (0, 1)]) := by decide +kernel
  obtain ⟨m, hm, hmode⟩ := Option.map_eq_some_iff.mp hend
  obtain ⟨hmode, hflushed⟩ := Prod.mk.inj hmode
  have hrun := Guarded.of_follow hm
  have hseparated := sessions_separated menuConsole (fun _ => rfl) [] rfl ⟨0, false, false, false⟩ none false
    (fun _ => 0) (fun _ => 0) hrun
  exact ⟨m, hrun, hmode, (hseparated.seeded true hmode).1, hflushed⟩

/-- What core 0 does by itself. -/
def Alone {α : Type} (c : Script (Shared n (Desk K)) α) (x : World n K) (d : Script (Shared n (Desk K)) α)
    (y : World n K) : Prop :=
  Script.Execution (fun _ _ : World n K => False) (c.watch Session.observe, x) (d.watch Session.observe, y)

section Alone

variable {α β : Type} {x y z : World n K}

lemma store_self (x : World n K) : x.store x.shared = x := by rw [World.store, observe_self]

lemma Alone.trans {c d e : Script (Shared n (Desk K)) α} (h : Alone c x d y) (h' : Alone d y e z) :
    Alone c x e z := Relation.ReflTransGen.trans h h'

lemma Alone.step {c d : Script (Shared n (Desk K)) α} {s : Shared n (Desk K)}
    (h : c.step x.shared = some (d, s)) : Alone c x d (x.store s) := by
  refine .single (.script ?_)
  rw [Script.step_watch observe_self, h]
  rfl

lemma Alone.look {c d : Script (Shared n (Desk K)) α} (h : c.step x.shared = some (d, x.shared)) :
    Alone c x d x := by
  have hstep := Alone.step h
  rwa [store_self] at hstep

lemma Alone.bind {c d : Script (Shared n (Desk K)) α} (h : Alone c x d y)
    (k : α → Script (Shared n (Desk K)) β) : Alone (c >>= k) x (d >>= k) y := by
  unfold Alone
  rw [Script.watch_bind, Script.watch_bind]
  exact Script.Execution.bind_left h _

/-- The machine takes the same way. -/
lemma Alone.run (con : Console K) (blob : List Byte) {c d : Script (Shared n (Desk K)) Unit}
    (h : Alone c x d y) :
    ∃ moves, Run (sessionStep con blob) ⟨x, c.watch Session.observe⟩ moves ⟨y, d.watch Session.observe⟩ := by
  have hrun : ∀ a b : Script (World n K) Unit × World n K,
      Script.Execution (fun _ _ : World n K => False) a b →
        ∃ moves, Run (sessionStep con blob) ⟨a.2, a.1⟩ moves ⟨b.2, b.1⟩ := by
    intro a b hab
    induction hab with
    | refl => exact ⟨[], .nil _⟩
    | tail _ hturn ih =>
      obtain ⟨moves, hmoves⟩ := ih
      cases hturn with
      | env _ henv => cases henv
      | script hstep =>
        refine ⟨moves ++ [.core], hmoves.append (.cons trivial ?_ (.nil _))⟩
        simp only [sessionStep, Machine.step, hstep, Option.map_some]
  exact hrun _ _ h

lemma alone_last {σ : Type} {body : σ → Script (Shared n (Desk K)) (σ ⊕ β)} {i : σ} {b : β}
    (h : Alone (body i) x (pure (.inr b)) y) : Alone (Script.iterate body i) x (pure b) y := by
  have hentry : Alone (Script.iterate body i) x (body i >>= Script.again body Script.ret) x := Alone.look rfl
  exact hentry.trans (h.bind (Script.again body Script.ret))

lemma alone_next {σ : Type} {body : σ → Script (Shared n (Desk K)) (σ ⊕ β)} {i j : σ}
    (h : Alone (body i) x (pure (.inl j)) y) : Alone (Script.iterate body i) x (Script.iterate body j) y := by
  have hentry : Alone (Script.iterate body i) x (body i >>= Script.again body Script.ret) x := Alone.look rfl
  exact hentry.trans (h.bind (Script.again body Script.ret))

/-- Reading the channel in front of a script. -/
lemma alone_now {k : MgmtChan n → Script (Shared n (Desk K)) α} {d : Script (Shared n (Desk K)) α}
    (h : k x.chan = d) : Alone (now >>= k) x d x := Alone.look (congrArg some (Prod.ext h rfl))

lemma alone_onChan {g : MgmtChan n → MgmtChan n} {k : Unit → Script (Shared n (Desk K)) α} :
    Alone (onChan g >>= k) x (k ()) (x.store ⟨g x.chan, x.shared.side⟩) := Alone.step rfl

lemma round_room (checkReset : Bool) (spins : ℕ) (hroom : ¬ x.chan.resp.IsFull) :
    Alone (respRoomRound checkReset spins) x (pure (.inr .room)) x := alone_now (if_pos hroom)

/-- A round on a full FIFO, behind its publish step. -/
def fullRest (spins : ℕ) : Script (Shared n (Desk K)) (ℕ ⊕ Room) := do
  let c ← now
  if ¬ c.resp.IsFull then return .inr .room
  else if mgmtSpinMax ≤ spins + 1 then
    latchOverflow
    return .inr .gaveUp
  else return .inl (spins + 1)

lemma round_full (spins : ℕ) (hfull : x.chan.resp.IsFull) (h : Alone mgmtChanPublish x (pure ()) y) :
    Alone (respRoomRound false spins) x (fullRest spins) y := by
  have hpublish : Alone (mgmtChanPublish >>= fun _ => fullRest spins) x (fullRest spins) y :=
    h.bind fun _ => fullRest spins
  refine (alone_now ?_).trans hpublish
  rw [if_neg (not_not.mpr hfull), if_neg (by simp)]
  rfl

lemma alone_publish_waiting (h : x.chan.served ≠ x.chan.ack) : Alone mgmtChanPublish x (pure ()) x :=
  alone_now (if_neg h)

lemma round_spin {spins : ℕ} (hfull : x.chan.resp.IsFull) (hwaits : x.chan.served ≠ x.chan.ack)
    (hspins : spins + 1 < mgmtSpinMax) : Alone (respRoomRound false spins) x (pure (.inl (spins + 1))) x := by
  refine (round_full spins hfull (alone_publish_waiting hwaits)).trans (alone_now ?_)
  rw [if_neg (not_not.mpr hfull), if_neg (not_le.mpr hspins)]

/-- The channel with OVERFLOW latched. -/
def World.latched (x : World n K) : World n K :=
  x.store ⟨MgmtChan.statusStore { x.chan with overflow := true }, x.shared.side⟩

lemma round_gaveUp {spins : ℕ} (hfull : x.chan.resp.IsFull) (hwaits : x.chan.served ≠ x.chan.ack)
    (hspins : mgmtSpinMax ≤ spins + 1) :
    Alone (respRoomRound false spins) x (pure (.inr .gaveUp)) x.latched := by
  have hlatch : Alone (latchOverflow >>= fun _ => (pure (.inr .gaveUp) : Script (Shared n (Desk K)) (ℕ ⊕ Room)))
      x (pure (.inr .gaveUp)) x.latched := alone_onChan
  refine (round_full spins hfull (alone_publish_waiting hwaits)).trans ((alone_now ?_).trans hlatch)
  rw [if_neg (not_not.mpr hfull), if_pos hspins]

/-- A client that never acknowledges makes the wait give up. -/
lemma alone_gaveUp (hfull : x.chan.resp.IsFull) (hwaits : x.chan.served ≠ x.chan.ack) :
    Alone (respRoom false) x (pure .gaveUp) x.latched := by
  have hspins : ∀ spins < mgmtSpinMax,
      Alone (respRoom false) x (Script.iterate (respRoomRound false) spins) x := by
    intro spins
    induction spins with
    | zero => exact fun _ => .refl
    | succ spins ih => exact fun h => (ih (by omega)).trans (alone_next (round_spin hfull hwaits h))
  exact (hspins (mgmtSpinMax - 1) (by decide)).trans (alone_last (round_gaveUp hfull hwaits (by decide)))

/-- The channel with its next byte announced. -/
def World.published (x : World n K) : World n K :=
  let y := x.store ⟨MgmtChan.takeNext x.chan, x.shared.side⟩
  y.store ⟨MgmtChan.announce y.chan, y.shared.side⟩

lemma alone_publish (hacked : x.chan.served = x.chan.ack) (hsome : ¬ x.chan.resp.IsEmpty) :
    Alone mgmtChanPublish x (pure ()) x.published := by
  have hstores : Alone (onChan MgmtChan.takeNext >>= fun _ => onChan MgmtChan.announce) x (pure ()) x.published :=
    alone_onChan.trans (Alone.step rfl)
  refine (alone_now ?_).trans hstores
  rw [if_pos hacked, if_pos hsome]

/-- The wait for room that a publish step ends. -/
lemma alone_roomMade (hfull : x.chan.resp.IsFull) (hacked : x.chan.served = x.chan.ack)
    (hsome : ¬ x.chan.resp.IsEmpty) (hroom : ¬ x.published.chan.resp.IsFull) :
    Alone (respRoom false) x (pure .room) x.published := by
  refine alone_last ((round_full 0 hfull (alone_publish hacked hsome)).trans (alone_now ?_))
  rw [if_pos hroom]

/-- One byte of `mgmt_chan_resp_write`, by how the wait for room ends. -/
lemma alone_write (b : Byte) (buf : List Byte) {r : Room} (hlatched : x.chan.overflow = false)
    (h : Alone (respRoom false) x (pure r) y) :
    Alone (mgmtChanRespWrite (b :: buf)) x
      (if r = .room then respPush b >>= fun _ => mgmtChanRespWrite buf else pure ()) y := by
  have hrest : Alone (respRoom false >>= fun r =>
      if r = .room then respPush b >>= fun _ => mgmtChanRespWrite buf else pure ()) x
      (if r = .room then respPush b >>= fun _ => mgmtChanRespWrite buf else pure ()) y := h.bind _
  refine (alone_now ?_).trans hrest
  rw [hlatched]
  rfl

def World.pushed (x : World n K) (b : Byte) : World n K :=
  x.store ⟨{ x.chan with resp := x.chan.resp.push b }, x.shared.side⟩

lemma alone_pushed {b : Byte} {buf : List Byte} (hlatched : x.chan.overflow = false)
    (h : Alone (respRoom false) x (pure .room) y) :
    Alone (mgmtChanRespWrite (b :: buf)) x (mgmtChanRespWrite buf) (y.pushed b) := by
  have hwrite := alone_write b buf hlatched h
  rw [if_pos rfl] at hwrite
  exact hwrite.trans alone_onChan

/-- The client has not moved, and `j` bytes wait in the FIFO. -/
structure Filling (x y : World n K) (j : ℕ) : Prop where
  client : y.record.client = x.record.client
  echo : y.chan.cmdEcho = x.chan.cmdEcho
  latched : y.chan.overflow = false
  waiting : y.chan.resp.contents.length = j

lemma Filling.pushed {j : ℕ} (h : Filling x y j) (hroom : ¬ y.chan.resp.IsFull) (b : Byte) :
    Filling x (y.pushed b) (j + 1) := by
  refine ⟨h.client, h.echo, h.latched, ?_⟩
  have hpushed := congrArg List.length (Ring.contents_push hroom b)
  rw [List.length_append, h.waiting] at hpushed
  exact hpushed

/-- The FIFO takes bytes while it has room. -/
lemma alone_fill (rest : List Byte) (bs : List Byte) {j : ℕ} (h : Filling x y j)
    (hacked : y.chan.served = y.chan.ack) (hroom : j + bs.length < n) :
    ∃ z, Alone (mgmtChanRespWrite (bs ++ rest)) y (mgmtChanRespWrite rest) z ∧
      Filling x z (j + bs.length) ∧ z.chan.served = z.chan.ack := by
  induction bs generalizing y j with
  | nil => exact ⟨y, .refl, h, hacked⟩
  | cons b bs ih =>
    rw [List.length_cons] at hroom
    have hfree : ¬ y.chan.resp.IsFull := by
      rw [Ring.isFull_iff, h.waiting]
      omega
    obtain ⟨z, hz, hfilling, hlast⟩ := ih (h.pushed hfree b) hacked (by omega)
    refine ⟨z, (alone_pushed h.latched (alone_last (round_room false 0 hfree))).trans hz, ?_, hlast⟩
    rw [List.length_cons, Nat.add_comm bs.length 1, ← Nat.add_assoc]
    exact hfilling

/-- A full FIFO gives one byte to the client and takes the next. -/
lemma Filling.published (h : Filling x y (n - 1)) (hn : 2 ≤ n) (hacked : y.chan.served = y.chan.ack) :
    y.chan.resp.IsFull ∧ ¬ y.chan.resp.IsEmpty ∧ ¬ y.published.chan.resp.IsFull ∧
      Filling x y.published (n - 2) ∧ y.published.chan.served ≠ y.published.chan.ack := by
  have hfull : y.chan.resp.IsFull := by
    rw [Ring.isFull_iff, h.waiting]
    omega
  have hsome : ¬ y.chan.resp.IsEmpty := by
    rw [Ring.isEmpty_iff, ← List.length_eq_zero_iff, h.waiting]
    omega
  have hpopped : y.published.chan.resp.contents.length = n - 2 := by
    have hlen := congrArg List.length (Ring.contents_pop hsome)
    rw [List.length_cons, h.waiting] at hlen
    change y.chan.resp.pop.contents.length = n - 2
    omega
  have hroom : ¬ y.published.chan.resp.IsFull := by
    rw [Ring.isFull_iff, hpopped]
    omega
  refine ⟨hfull, hsome, hroom, ⟨h.client, h.echo, h.latched, hpopped⟩, ?_⟩
  change y.chan.served + 1 ≠ y.chan.ack
  rw [hacked]
  exact succ_ne _

/-- A write of more than a FIFO to a client that does not read latches OVERFLOW. -/
lemma alone_overflow {buf : List Byte} (hn : 2 ≤ n) (hbuf : n < buf.length) (hempty : x.chan.resp.contents = [])
    (hacked : x.chan.served = x.chan.ack) (hlatched : x.chan.overflow = false) :
    ∃ y, Alone (mgmtChanRespWrite buf) x (pure ()) y ∧ y.record.client = x.record.client ∧
      y.chan.cmdEcho = x.chan.cmdEcho ∧ y.chan.served ≠ y.chan.ack ∧
      hasBit y.chan.status mgmtChanOverflow = true := by
  obtain ⟨b, b', rest, hsplit⟩ : ∃ b b' rest, buf = buf.take (n - 1) ++ b :: b' :: rest := by
    have hlen : 2 ≤ (buf.drop (n - 1)).length := by
      rw [List.length_drop]
      omega
    match hrest : buf.drop (n - 1), hlen with
    | b :: b' :: rest, _ => exact ⟨b, b', rest, by rw [← hrest, List.take_append_drop]⟩
  have hstart : Filling x x 0 := ⟨rfl, rfl, hlatched, by rw [hempty]; rfl⟩
  have htake : (buf.take (n - 1)).length = n - 1 := by
    rw [List.length_take]
    omega
  obtain ⟨y, hfill, hfull, hacked⟩ :=
    alone_fill (b :: b' :: rest) (buf.take (n - 1)) hstart hacked (by omega)
  rw [← hsplit] at hfill
  rw [htake, Nat.zero_add] at hfull
  obtain ⟨hisFull, hsome, hroom, hpublished, hwaits⟩ := hfull.published hn hacked
  have hpush := hpublished.pushed hroom b
  have hagain : (y.published.pushed b).chan.resp.IsFull := by
    rw [Ring.isFull_iff, hpush.waiting]
    omega
  have hone : Alone (mgmtChanRespWrite (b :: b' :: rest)) y (mgmtChanRespWrite (b' :: rest))
      (y.published.pushed b) := alone_pushed hfull.latched (alone_roomMade hisFull hacked hsome hroom)
  have hlast := alone_write b' rest hpush.latched
    (alone_gaveUp (x := y.published.pushed b) hagain hwaits)
  refine ⟨_, hfill.trans (hone.trans hlast), hpush.client, hpush.echo, hwaits, ?_⟩
  exact statusBits_overflow _ _ _ _

/-- An idle menu pass on a silent ring is one engine call. -/
lemma alone_menuPass (con : Console K) {buf : List Byte} {engine : K} (hn : 2 ≤ n) (hbuf : n < buf.length)
    (hcmd : x.chan.cmd.IsEmpty) (hempty : x.chan.resp.contents = []) (hacked : x.chan.served = x.chan.ack)
    (hlatched : x.chan.overflow = false) (hpaint : con.pollVia x.shared.side.engine = ([buf], engine)) :
    ∃ d y, Alone (menuPass con) x d y ∧ y.record.client = x.record.client ∧
      y.chan.cmdEcho = x.chan.cmdEcho ∧ y.chan.served ≠ y.chan.ack ∧
      hasBit y.chan.status mgmtChanOverflow = true := by
  have hkeys : Alone (Script.iterate (menuRound con) ()) x (pure ()) x := by
    have hpop : Alone mgmtChanCmdPop x (pure none) x := alone_now (if_pos hcmd)
    exact alone_last ((hpop.bind _).bind _)
  have hpainted := hkeys.bind fun _ => onEngine con.pollVia >>= fun _ => onDesk fun d => { d with wasMenu := true }
  let z : World n K := x.store ⟨x.chan, { x.shared.side with engine := engine }⟩
  have hcall : Alone (onEngine con.pollVia) x (mcTpWrite [buf]) z := by
    have hlook : Alone (onEngine con.pollVia) x (do
        onDesk fun d => { d with engine := (con.pollVia d.engine).2 }
        mcTpWrite (con.pollVia x.shared.side.engine).1) x := Alone.look rfl
    have hstore : Alone (do
        onDesk fun d => { d with engine := (con.pollVia d.engine).2 }
        mcTpWrite (con.pollVia x.shared.side.engine).1) x (mcTpWrite (con.pollVia x.shared.side.engine).1)
        (x.store ⟨x.chan, { x.shared.side with engine := (con.pollVia x.shared.side.engine).2 }⟩) :=
      Alone.step rfl
    rw [hpaint] at hlook hstore
    exact hlook.trans hstore
  obtain ⟨y, hwrite, hclient, hecho, hwaits, hover⟩ :=
    alone_overflow (x := z) hn hbuf hempty hacked hlatched
  have hrest := (hcall.trans (hwrite.bind fun _ => mcTpWrite [])).bind
    fun _ => onDesk fun d => { d with wasMenu := true }
  exact ⟨_, y, hpainted.trans hrest, hclient, hecho, hwaits, hover⟩

/-- The pass around it. -/
lemma alone_poll (con : Console K) (blob : List Byte) {buf : List Byte} {engine : K} (hn : 2 ≤ n)
    (hbuf : n < buf.length) (hreset : x.chan.resetReq = false)
    (hmenu : con.viaActive x.shared.side.engine = true) (hcmd : x.chan.cmd.IsEmpty)
    (hempty : x.chan.resp.contents = []) (hacked : x.chan.served = x.chan.ack)
    (hlatched : x.chan.overflow = false) (hpaint : con.pollVia x.shared.side.engine = ([buf], engine)) :
    ∃ d y, Alone (mgmtConPoll con blob) x d y ∧ y.record.client = x.record.client ∧
      y.chan.cmdEcho = x.chan.cmdEcho ∧ y.chan.served ≠ y.chan.ack ∧
      hasBit y.chan.status mgmtChanOverflow = true := by
  have htake : Alone mgmtChanTakeReset x (pure false) x := alone_now (if_pos (by simp [hreset]))
  have hstart : Alone (mgmtConPoll con blob) x (menuPass con >>= fun _ => mgmtChanPump) x := by
    refine ((htake.bind _).bind _).trans (Alone.look ?_)
    exact congrArg some (Prod.ext (if_pos hmenu) rfl)
  obtain ⟨d, y, hpass, hclient, hecho, hwaits, hover⟩ :=
    alone_menuPass con hn hbuf hcmd hempty hacked hlatched hpaint
  exact ⟨_, y, hstart.trans (hpass.bind fun _ => mgmtChanPump), hclient, hecho, hwaits, hover⟩

end Alone

/-- The three accesses of the settle that follows an overflow. -/
lemma settles_at_once (con : Console K) (blob : List Byte) {x : World n K} (code : Script (World n K) Unit)
    (hmode : x.mode = .sending []) (hecho : x.chan.cmdEcho = 0xFF)
    (hover : hasBit x.chan.status mgmtChanOverflow = true) (hwaits : x.chan.served ≠ x.chan.ack) :
    ∃ m, Run (sessionStep con blob) ⟨x, code⟩ (access 3) m ∧ ¬ Separated m.shared := by
  let y : World n K := { x with record := { x.record with client :=
    { x.record.client with mode := .settle false, term := x.record.client.term.overflow } } }
  let z : World n K := y.writeStatus (.waiting false)
  have hpoll : accessStep x = some y := by
    unfold accessStep
    rw [hmode]
    exact congrArg some (if_pos hover)
  have hwait : accessStep z = some (z.goto (.seeding false)) := congrArg some (if_pos hecho)
  refine ⟨⟨z.goto (.seeding false), code⟩, ?_, fun h => hwaits (h.seeded false rfl).1⟩
  have hfirst : sessionStep con blob ⟨x, code⟩ (.env .access) = some ⟨y, code⟩ :=
    congrArg (Option.map fun s => (⟨s, code⟩ : Machine (World n K))) hpoll
  have hwrite : sessionStep con blob ⟨y, code⟩ (.env .access) = some ⟨z, code⟩ := rfl
  have hlast : sessionStep con blob ⟨z, code⟩ (.env .access) = some ⟨z.goto (.seeding false), code⟩ :=
    congrArg (Option.map fun s => (⟨s, code⟩ : Machine (World n K))) hwait
  exact .cons trivial hfirst (.cons trivial hwrite (.cons trivial hlast (.nil _)))

def idle : Script (World n K) Unit → Bool
  | .ret _ => true
  | _ => false

lemma idle_iff {c : Script (World n K) Unit} (h : idle c = true) : c = pure () := by
  cases c with
  | ret a => rfl
  | act u k => cases h
  | loop body i k => cases h

/-- The menu is up and the channel idle, and the echo is that of the zero. -/
def Brink (m : Machine (World 1024 (Option ℕ))) : Prop :=
  (idle m.code = true ∧ m.shared.mode = .sending [] ∧ m.shared.chan.cmdEcho = 0xFF) ∧
    (m.shared.chan.resetReq = false ∧ m.shared.shared.side.engine = some 2 ∧ m.shared.chan.cmd.IsEmpty) ∧
    m.shared.chan.resp.IsEmpty ∧ m.shared.chan.served = m.shared.chan.ack ∧ m.shared.chan.overflow = false

instance decidableBrink (m : Machine (World 1024 (Option ℕ))) : Decidable (Brink m) :=
  inferInstanceAs (Decidable (_ ∧ _))

/-- Behind the zero the next frame overflows a client that has stopped reading, and the settle
that follows takes the old echo for the end of its reset: it seeds its phase with a byte unread. -/
theorem sessions_mixed :
    ∃ moves m, Run (sessionStep menuConsole []) menuStart moves m ∧ ¬ Separated m.shared := by
  have hend : (afterMoves zeroMoves).any (fun m => decide (Brink m)) = true := by decide +kernel
  obtain ⟨⟨x, code⟩, hm, hbrink⟩ := (Option.any_eq_true _ _).mp hend
  obtain ⟨⟨hcode, hmode, hecho⟩, ⟨hreset, hengine, hcmd⟩, hempty, hacked, hlatched⟩ := of_decide_eq_true hbrink
  have hcode : code = pure () := idle_iff hcode
  subst hcode
  have hfirst : Run (sessionStep menuConsole []) menuStart zeroMoves ⟨x, pure ()⟩ :=
    (Guarded.of_follow hm).mono fun _ _ _ => trivial
  have hpaint : menuConsole.pollVia x.shared.side.engine = ([List.replicate 1025 0x20], some 3) := by
    rw [hengine]
    rfl
  have hmenu : menuConsole.viaActive x.shared.side.engine = true := by
    rw [hengine]
    rfl
  obtain ⟨d, y, hpass, hclient, hstays, hwaits, hover⟩ :=
    alone_poll menuConsole [] (by decide) (by rw [List.length_replicate]; decide) hreset hmenu hcmd
      (Ring.isEmpty_iff.mp hempty) hacked hlatched hpaint
  obtain ⟨moves, hmoves⟩ := hpass.run menuConsole []
  obtain ⟨m, hsettle, hmixed⟩ := settles_at_once menuConsole [] (d.watch Session.observe)
    ((congrArg Client.mode hclient).trans hmode) (hstays.trans hecho) hover hwaits
  exact ⟨zeroMoves ++ .call () :: moves ++ access 3, m,
    (hfirst.append (.cons trivial rfl hmoves)).append hsettle, hmixed⟩

end PicoV9k.Dmaterm
