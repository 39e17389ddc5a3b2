import PicoV9k.SessionHandshake

/-!
# Passes under the handshake

Core 0 publishes, pops and writes only in a session in which the client has written something, and
a serviced reset leaves the channel silent. Every action of `mgmt_con_poll` keeps the handshake.
-/
namespace PicoV9k.Dmaterm
open PicoV9k.Bus PicoV9k.Rings PicoV9k.Mgmt PicoV9k.Scripts PicoV9k.Runs

variable {n : ℕ} {K : Type}

/-- The world after a store of core 0. -/
def World.store (x : World n K) (s : Shared n (Desk K)) : World n K := ⟨s, x.record.observe x.shared s⟩

lemma observe_self (s : Shared n (Desk K)) (r : Session) : r.observe s s = r := by
  simp [Session.observe, Ledger.observe]

section Store

variable {x : World n K} {s : Shared n (Desk K)}

@[simp] lemma store_chan : (x.store s).chan = s.chan := rfl

@[simp] lemma store_side : (x.store s).shared.side = s.side := rfl

@[simp] lemma store_mode : (x.store s).mode = x.mode := rfl

@[simp] lemma store_queued :
    (x.store s).ledger.queued = x.ledger.queued.drop (x.chan.cmd.length - s.chan.cmd.length) := rfl

@[simp] lemma store_fifo :
    (x.store s).ledger.fifo = x.ledger.fifo.drop (x.chan.resp.length - s.chan.resp.length) ++
      List.replicate (s.chan.resp.length - x.chan.resp.length) x.ledger.serviced := rfl

@[simp] lemma store_settles : (x.store s).ledger.settles = x.ledger.settles := rfl

@[simp] lemma store_typed : (x.store s).ledger.typed = x.ledger.typed := rfl

@[simp] lemma store_lastCmd : (x.store s).ledger.lastCmd = x.ledger.lastCmd := rfl

@[simp] lemma store_taken : (x.store s).ledger.taken = x.ledger.taken := rfl

/-- No reset ends with the store. -/
def KeepsReset (x : World n K) (s : Shared n (Desk K)) : Prop :=
  x.chan.resetReq = true → s.chan.resetReq = true

lemma KeepsReset.not_ended (h : KeepsReset x s) : ¬ (x.shared.chan.resetReq = true ∧ s.chan.resetReq = false) :=
  fun hr => absurd ((h hr.1).symm.trans hr.2) (by decide)

lemma store_serviced (h : KeepsReset x s) : (x.store s).ledger.serviced = x.ledger.serviced :=
  if_neg h.not_ended

lemma store_flushed (h : KeepsReset x s) : (x.store s).ledger.flushed = x.ledger.flushed := by
  simp only [World.store, Session.observe, Ledger.observe, h.not_ended, if_false, List.append_nil]

lemma store_consumed (h : s.side.popped = x.shared.side.popped) :
    (x.store s).ledger.consumed = x.ledger.consumed := by
  simp only [World.store, Session.observe, Ledger.observe, h, lt_irrefl, if_false, List.append_nil]

lemma store_lifted (h : KeepsReset x s) (hpopped : s.side.popped = x.shared.side.popped) :
    (x.store s).ledger.lifted =
      x.ledger.lifted ++ x.ledger.queued.take (x.chan.cmd.length - s.chan.cmd.length) := by
  simp only [World.store, Session.observe, Ledger.observe, h.not_ended, hpopped, lt_irrefl, or_self, if_false]

lemma store_staged (h : KeepsReset x s) (hphase : s.chan.phase = x.chan.phase) :
    (x.store s).ledger.staged =
      x.ledger.staged ++ x.ledger.fifo.take (x.chan.resp.length - s.chan.resp.length) := by
  simp only [World.store, Session.observe, Ledger.observe, h.not_ended, hphase, ne_eq, not_true, or_self, if_false]

lemma store_cell (hphase : s.chan.phase = x.chan.phase) : (x.store s).ledger.cell = x.ledger.cell := by
  simp only [World.store, Session.observe, Ledger.observe, hphase, ne_eq, not_true, if_false]

lemma mem_store_staged (h : KeepsReset x s) {t : ℕ} (ht : t ∈ (x.store s).ledger.staged) :
    t ∈ x.ledger.staged ∨ t ∈ x.ledger.fifo := by
  simp only [World.store, Session.observe, Ledger.observe, h.not_ended, or_false] at ht
  split at ht
  · cases ht
  · rcases List.mem_append.mp ht with ht | ht
    · exact .inl ht
    · exact .inr (List.mem_of_mem_take ht)

/-- A store that neither records a pop nor ends a reset moves stamps from one buffer to the next. -/
lemma Books.stored (h : Books x) (hcmd : s.chan.cmd.length ≤ x.chan.cmd.length) (hreset : KeepsReset x s)
    (hpopped : s.side.popped = x.shared.side.popped) : Books (x.store s) where
  ring := by
    rw [store_queued, List.length_drop, h.ring, store_chan]
    omega
  fifo := by
    rw [store_fifo, List.length_append, List.length_drop, List.length_replicate, h.fifo, store_chan]
    omega
  stamps := by
    intro t ht
    rw [store_serviced hreset]
    rw [store_queued, store_lifted hreset hpopped, store_fifo, List.mem_append, List.mem_append] at ht
    rcases ht with ht | (ht | ht) | (ht | ht) | ht
    · exact h.stamps t (.inl (List.mem_of_mem_drop ht))
    · exact h.stamps t (.inr (.inl ht))
    · exact h.stamps t (.inl (List.mem_of_mem_take ht))
    · exact h.stamps t (.inr (.inr (.inl (List.mem_of_mem_drop ht))))
    · exact List.eq_of_mem_replicate ht
    · rcases mem_store_staged hreset ht with ht | ht
      · exact h.stamps t (.inr (.inr (.inr ht)))
      · exact h.stamps t (.inr (.inr (.inl ht)))
  consumed := by
    rw [store_consumed hpopped]
    exact h.consumed
  flushed := by
    rw [store_flushed hreset]
    exact h.flushed
  taken := h.taken
  complete := by
    rw [store_consumed hpopped, store_side, hpopped]
    exact h.complete

/-- What a store that keeps the handshake leaves alone. -/
structure Keeps (x : World n K) (s : Shared n (Desk K)) : Prop where
  cmd : s.chan.cmd.length ≤ x.chan.cmd.length
  reset : s.chan.resetReq = x.chan.resetReq
  echo : s.chan.cmdEcho = x.chan.cmdEcho
  popped : s.side.popped = x.shared.side.popped

lemma Keeps.keepsReset (h : Keeps x s) : KeepsReset x s := fun hr => h.reset.trans hr

lemma Kept.booked (h : Kept x) (hbooks : Books (x.store s)) (hreset : s.chan.resetReq = x.chan.resetReq)
    (hecho : s.chan.cmdEcho = x.chan.cmdEcho) (hsilent : Hushed x → Silent s.chan)
    (hoffers : Offers s.chan → (x.store s).ledger.cell = x.ledger.serviced)
    (hreads : x.mode.reads = true → (x.store s).ledger.cell = x.ledger.serviced) : Kept (x.store s) := by
  have hserviced : (x.store s).ledger.serviced = x.ledger.serviced := store_serviced fun hr => hreset.trans hr
  exact {
    books := hbooks
    echo := fun ht => hecho.trans (h.echo ht)
    untyped := h.untyped
    shaking := h.shaking
    hushed := fun hh => hsilent ⟨hh.1, fun hw => hecho.symm.trans (hh.2 hw)⟩
    pending := by
      intro hreq
      rw [hserviced, store_chan, hecho]
      exact h.pending (hreset.symm.trans hreq)
    done := by
      intro hreq
      rw [hserviced, store_chan, hecho]
      exact h.done (hreset.symm.trans hreq)
    offered := fun ho => (hoffers ho).trans hserviced.symm
    reading := fun hr => (hreads hr).trans hserviced.symm }

lemma Kept.stored (h : Kept x) (hkeeps : Keeps x s) (hsilent : Hushed x → Silent s.chan)
    (hoffers : Offers s.chan → (x.store s).ledger.cell = x.ledger.serviced)
    (hreads : x.mode.reads = true → (x.store s).ledger.cell = x.ledger.serviced) : Kept (x.store s) :=
  h.booked (h.books.stored hkeeps.cmd hkeeps.keepsReset hkeeps.popped) hkeeps.reset hkeeps.echo hsilent hoffers
    hreads

/-- A store between two announcements. -/
lemma Kept.kept (h : Kept x) (hkeeps : Keeps x s) (hphase : s.chan.phase = x.chan.phase)
    (hsilent : Hushed x → Silent s.chan) (hoffers : Offers s.chan → Offers x.chan) : Kept (x.store s) := by
  have hcell := store_cell hphase
  refine h.stored hkeeps hsilent (fun ho => ?_) fun hr => ?_
  · exact hcell.trans (h.offered (hoffers ho))
  · exact hcell.trans (h.reading hr)

end Store

abbrev SessionPoint (n : ℕ) (K : Type) := Script.Point (Moves (n := n) (K := K)) Separated

/-- The handshake and what else no step of the client invalidates. -/
def keptPoint (φ : World n K → Prop) (hφ : ∀ x x', Kept x → Moved x x' → φ x → φ x') :
    SessionPoint n K where
  holds x := Kept x ∧ φ x
  stable := by
    rintro x x' ⟨hkept, hx⟩ hmove
    have hmoved := moved_of_moves hmove
    exact ⟨hkept.moved hmoved, hφ x x' hkept hmoved hx⟩
  safe := fun x h => h.1.separated

/-- Something has been written to CMD in this session; `hand` bytes are popped and not recorded. -/
def livePoint (hand : ℕ) (φ : Ring Byte n → List ℕ → Prop) : SessionPoint n K :=
  keptPoint (fun x => (¬ Hushed x ∧ x.ledger.lifted.length = hand) ∧ φ x.chan.resp x.ledger.staged) <| by
    rintro x x' hkept hmoved ⟨⟨hlive, hhand⟩, hx⟩
    have hbeside := hmoved.beside
    refine ⟨⟨fun hh => hlive (hmoved.hushed hkept hh), ?_⟩, ?_⟩
    · rw [hbeside.lifted]
      exact hhand
    · rw [hbeside.resp, hbeside.staged]
      exact hx

def anyway (_ : Ring Byte n) (_ : List ℕ) : Prop := True

abbrev live (n : ℕ) (K : Type) : SessionPoint n K := livePoint 0 anyway

abbrev SessionSafe {α : Type} (c : Script (Shared n (Desk K)) α) (post : α → World n K → Prop)
    (x : World n K) : Prop :=
  (c.watch Session.observe).Safe Moves (fun _ _ => True) Separated post x

section Rules

variable {α β : Type} {post : β → World n K → Prop} {x : World n K}

lemma safe_read {f : Shared n (Desk K) → α} {k : α → Script (Shared n (Desk K)) β} (p : SessionPoint n K)
    (hx : p.holds x) (h : ∀ y, p.holds y → SessionSafe (k (f y.shared)) post y) :
    SessionSafe (Script.read f >>= k) post x := by
  refine Script.Safe.act p hx (fun _ _ => trivial) fun y hy => ?_
  have hself := observe_self y.shared y.record
  simp only [Script.observe, hself]
  exact h y hy

lemma safe_look {f : Shared n (Desk K) → α} (p : SessionPoint n K) (hx : p.holds x) :
    SessionSafe (Script.read f) (fun _ => p.holds) x := by
  refine Script.Safe.act p hx (fun _ _ => trivial) fun y hy => ?_
  have hself := observe_self y.shared y.record
  simp only [Script.observe, hself]
  exact Script.Safe.ret p hy fun _ hz => hz

lemma safe_store {g : Shared n (Desk K) → Shared n (Desk K)} {k : Unit → Script (Shared n (Desk K)) β}
    (p : SessionPoint n K) (hx : p.holds x)
    (h : ∀ y, p.holds y → SessionSafe (k ()) post (y.store (g y.shared))) :
    SessionSafe (Script.modify g >>= k) post x :=
  Script.Safe.act p hx (fun _ _ => trivial) h

lemma safe_last {g : Shared n (Desk K) → Shared n (Desk K)} {post : Unit → World n K → Prop}
    (p q : SessionPoint n K) (hx : p.holds x) (hq : ∀ y, p.holds y → q.holds (y.store (g y.shared)))
    (hpost : ∀ y, q.holds y → post () y) : SessionSafe (Script.modify g) post x :=
  Script.Safe.act p hx (fun _ _ => trivial) fun y hy => Script.Safe.ret q (hq y hy) hpost

lemma safe_seq {c : Script (Shared n (Desk K)) α} {k : α → Script (Shared n (Desk K)) β}
    {mid : α → World n K → Prop} (h : SessionSafe c mid x) (hk : ∀ a y, mid a y → SessionSafe (k a) post y) :
    SessionSafe (c >>= k) post x := by
  rw [SessionSafe, Script.watch_bind]
  exact Script.Safe.bind h hk

lemma safe_done {a : β} (p : SessionPoint n K) (hx : p.holds x) (hpost : ∀ y, p.holds y → post a y) :
    SessionSafe (pure a) post x :=
  Script.Safe.ret p hx hpost

/-- A loop that keeps one assertion. -/
lemma safe_loop {σ : Type} {body : σ → Script (Shared n (Desk K)) (σ ⊕ β)} (p : SessionPoint n K)
    (h : ∀ i y, p.holds y → SessionSafe (body i) (fun _ => p.holds) y) (i : σ) (hx : p.holds x) :
    SessionSafe (Script.iterate body i) (fun _ => p.holds) x := by
  refine Script.Safe.iterate (fun _ => p.holds) hx (fun j y hy => (h j y hy).weaken fun r z hz => ?_)
    fun _ _ hy => Script.Safe.ret p hy fun _ hz => hz
  cases r with
  | inl _ => exact hz
  | inr _ => exact hz

end Rules

/-- A store into the channel that is no announcement and takes nothing from the command ring. -/
structure Modest (g : MgmtChan n → MgmtChan n) (c : MgmtChan n) : Prop where
  cmd : (g c).cmd = c.cmd
  reset : (g c).resetReq = c.resetReq
  echo : (g c).cmdEcho = c.cmdEcho
  phase : (g c).phase = c.phase
  offers : Offers (g c) → Offers c

lemma offers_statusStore {c : MgmtChan n} (h : Offers c.statusStore) : c.respReady = true := by
  rcases h with hready | hshown
  · exact hready
  · exact (statusBits_ready _ _ _ _).symm.trans hshown

section Publish

variable {x : World n K} {g : MgmtChan n → MgmtChan n} {hand : ℕ}

lemma Modest.keeps (h : Modest g x.chan) : Keeps x ⟨g x.chan, x.shared.side⟩ where
  cmd := (congrArg Ring.length h.cmd).le
  reset := h.reset
  echo := h.echo
  popped := rfl

lemma Modest.lifted (h : Modest g x.chan) :
    (x.store ⟨g x.chan, x.shared.side⟩).ledger.lifted = x.ledger.lifted := by
  rw [store_lifted h.keeps.keepsReset rfl]
  dsimp only
  rw [h.cmd, Nat.sub_self, List.take_zero, List.append_nil]

/-- The client has written something, so the store may show. -/
lemma Modest.live (h : Modest g x.chan) {φ φ' : Ring Byte n → List ℕ → Prop}
    (hx : (livePoint hand φ).holds x)
    (hφ : φ' (g x.chan).resp (x.store ⟨g x.chan, x.shared.side⟩).ledger.staged) :
    (livePoint hand φ').holds (x.store ⟨g x.chan, x.shared.side⟩) := by
  obtain ⟨hkept, ⟨hlive, hhand⟩, _⟩ := hx
  refine ⟨hkept.kept h.keeps h.phase (fun hh => absurd hh hlive) h.offers, ⟨fun hh => hlive ?_, ?_⟩, hφ⟩
  · exact ⟨hh.1, fun hw => h.echo.symm.trans (hh.2 hw)⟩
  · rw [h.lifted]
    exact hhand

/-- The byte that leaves the FIFO is staged. -/
lemma live_takeNext (hx : (livePoint 0 fun r _ => ¬ r.IsEmpty).holds x) :
    (livePoint 0 fun _ staged => staged ≠ []).holds
      (x.store ⟨MgmtChan.takeNext x.chan, x.shared.side⟩) := by
  have hmodest : Modest MgmtChan.takeNext x.chan := ⟨rfl, rfl, rfl, rfl, id⟩
  refine hmodest.live hx ?_
  obtain ⟨hkept, _, hsome⟩ := hx
  have hlen := congrArg List.length (Ring.contents_pop hsome)
  rw [List.length_cons, Ring.contents_length, Ring.contents_length] at hlen
  rw [store_staged hmodest.keeps.keepsReset rfl]
  intro hnone
  have hnone := congrArg List.length hnone
  have htaken : (MgmtChan.takeNext x.chan).resp.length = x.chan.resp.pop.length := rfl
  rw [List.length_append, List.length_take, hkept.books.fifo] at hnone
  dsimp only at hnone
  simp only [htaken, List.length_nil] at hnone
  omega

/-- The announced byte bears the present stamp. -/
lemma live_announce (hx : (livePoint 0 fun _ staged => staged ≠ []).holds x) :
    (live n K).holds (x.store ⟨MgmtChan.announce x.chan, x.shared.side⟩) := by
  obtain ⟨hkept, ⟨hlive, hhand⟩, hstaged⟩ := hx
  have hkeeps : Keeps x ⟨MgmtChan.announce x.chan, x.shared.side⟩ := ⟨le_refl _, rfl, rfl, rfl⟩
  have hcell : (x.store ⟨MgmtChan.announce x.chan, x.shared.side⟩).ledger.cell = x.ledger.serviced := by
    have hflips : x.chan.phase ≠ (MgmtChan.announce x.chan).phase := by
      change x.chan.phase ≠ !x.chan.phase
      simp
    have hsame : x.chan.resp.length - (MgmtChan.announce x.chan).resp.length = 0 := Nat.sub_self _
    have hlast : (x.store ⟨MgmtChan.announce x.chan, x.shared.side⟩).ledger.cell =
        x.ledger.staged.getLastD x.ledger.cell := by
      simp only [World.store, Session.observe, Ledger.observe, hflips, ne_eq, not_false_eq_true, if_true, hsame,
        List.take_zero, List.append_nil]
    rw [hlast, List.getLastD_eq_getLast?, List.getLast?_eq_some_getLast hstaged, Option.getD_some]
    exact hkept.books.stamps _ (.inr (.inr (.inr (List.getLast_mem hstaged))))
  refine ⟨hkept.stored hkeeps (fun hh => absurd hh hlive) (fun _ => hcell) fun _ => hcell, ⟨hlive, ?_⟩, trivial⟩
  rw [store_lifted hkeeps.keepsReset rfl]
  dsimp only
  rw [show x.chan.cmd.length - (MgmtChan.announce x.chan).cmd.length = 0 from Nat.sub_self _, List.take_zero,
    List.append_nil]
  exact hhand

/-- What `mgmt_chan_publish` does once it has read the channel. -/
lemma publish_rest {c : MgmtChan n} (hc : ¬ c.resp.IsEmpty ↔ ¬ x.chan.resp.IsEmpty) (hx : (live n K).holds x) :
    SessionSafe (if c.served = c.ack then
        if ¬ c.resp.IsEmpty then do
          onChan MgmtChan.takeNext
          onChan MgmtChan.announce
        else if c.respReady then
          onChan MgmtChan.dropReady
        else pure ()
      else pure ()) (fun _ => (live n K).holds) x := by
  split
  · split
    next hsome =>
      refine safe_store (livePoint 0 fun r _ => ¬ r.IsEmpty) ⟨hx.1, hx.2.1, hc.mp hsome⟩ fun y hy => ?_
      exact safe_last (livePoint 0 fun _ staged => staged ≠ []) (live n K) (live_takeNext hy)
        (fun z hz => live_announce hz) fun _ hz => hz
    · split
      · refine safe_last (live n K) (live n K) hx (fun y hy => ?_) fun _ hy => hy
        refine Modest.live (g := MgmtChan.dropReady) ⟨rfl, rfl, rfl, rfl, fun ho => ?_⟩ hy trivial
        cases offers_statusStore ho
      · exact safe_done (live n K) hx fun _ hy => hy
  · exact safe_done (live n K) hx fun _ hy => hy

end Publish

lemma live_latch {x : World n K} (hx : (live n K).holds x) :
    SessionSafe latchOverflow (fun _ => (live n K).holds) x := by
  refine safe_last (live n K) (live n K) hx (fun y hy => ?_) fun _ hy => hy
  refine Modest.live (g := fun c => MgmtChan.statusStore { c with overflow := true })
    ⟨rfl, rfl, rfl, rfl, fun ho => ?_⟩ hy trivial
  exact .inl (offers_statusStore (c := { y.chan with overflow := true }) ho)

lemma live_push {x : World n K} (b : Byte) (hx : (live n K).holds x) :
    SessionSafe (respPush b) (fun _ => (live n K).holds) x := by
  refine safe_last (live n K) (live n K) hx (fun y hy => ?_) fun _ hy => hy
  exact Modest.live (g := fun c => { c with resp := c.resp.push b }) ⟨rfl, rfl, rfl, rfl, id⟩ hy trivial

/-- A store into the desk. -/
lemma Kept.desk {x : World n K} (h : Kept x) {d : Desk K} (hpopped : d.popped = x.shared.side.popped) :
    Kept (x.store ⟨x.chan, d⟩) :=
  h.kept ⟨le_refl _, rfl, rfl, hpopped⟩ rfl h.hushed id

lemma lifted_desk {x : World n K} {d : Desk K} (hpopped : d.popped = x.shared.side.popped) :
    (x.store ⟨x.chan, d⟩).ledger.lifted = x.ledger.lifted := by
  have hkeeps : Keeps x ⟨x.chan, d⟩ := ⟨le_refl _, rfl, rfl, hpopped⟩
  rw [store_lifted hkeeps.keepsReset hpopped]
  simp

lemma live_desk {x : World n K} (hx : (live n K).holds x) {d : Desk K}
    (hpopped : d.popped = x.shared.side.popped) : (live n K).holds (x.store ⟨x.chan, d⟩) := by
  obtain ⟨hkept, ⟨hlive, hhand⟩, _⟩ := hx
  refine ⟨hkept.desk hpopped, ⟨hlive, ?_⟩, trivial⟩
  rw [lifted_desk hpopped]
  exact hhand

/-- In a live session the transport and the engines keep it so. -/
lemma live_rules : TransportRules fun c : Script (Shared n (Desk K)) _ =>
    ∀ x, (live n K).holds x → SessionSafe c (fun _ => (live n K).holds) x where
  ret _ _ hx := safe_done (live n K) hx fun _ hy => hy
  seq hc hf x hx := safe_seq (hc x hx) hf
  loop hbody i _ hx := safe_loop (live n K) hbody i hx
  now _ hx := safe_look (live n K) hx
  publish _ hx := safe_read (live n K) hx fun _ hy => publish_rest Iff.rfl hy
  desk _ hx := safe_look (live n K) hx
  latch _ hx := live_latch hx
  push b _ hx := live_push b hx
  engine _ hg _ hx :=
    safe_last (live n K) (live n K) hx (fun y hy => live_desk hy (hg y.shared.side).2.1) fun _ hy => hy

section Pass

variable {con : Console K}

/-- Between two keys: the channel's menu is down and no prompt is due while the channel is hushed. -/
def deskPoint (n : ℕ) (con : Console K) : SessionPoint n K :=
  keptPoint (fun x => x.ledger.lifted.length = 0 ∧
      (Hushed x → con.viaActive x.shared.side.engine = false ∧ x.shared.side.wasMenu = false)) <| by
    rintro x x' hkept hmoved ⟨hhand, hdesk⟩
    have hbeside := hmoved.beside
    refine ⟨?_, fun hh => ?_⟩
    · rw [hbeside.lifted]
      exact hhand
    · rw [hbeside.engine, hbeside.wasMenu]
      exact hdesk (hmoved.hushed hkept hh)

variable {x : World n K}

lemma desk_of_live (hx : (live n K).holds x) : (deskPoint n con).holds x :=
  ⟨hx.1, hx.2.1.2, fun hh => absurd hh hx.2.1.1⟩

/-- The desk is live, or has nothing to do. -/
lemma live_or_silent (hx : (deskPoint n con).holds x) : (live n K).holds x ∨ Hushed x ∧ Silent x.chan := by
  by_cases hh : Hushed x
  · exact .inr ⟨hh, hx.1.hushed hh⟩
  · exact .inl ⟨hx.1, ⟨hh, hx.2.1⟩, trivial⟩

lemma Modest.desk {g : MgmtChan n → MgmtChan n} (h : Modest g x.chan) (hsilent : Silent x.chan → Silent (g x.chan))
    (hx : (deskPoint n con).holds x) : (deskPoint n con).holds (x.store ⟨g x.chan, x.shared.side⟩) := by
  obtain ⟨hkept, hhand, hdesk⟩ := hx
  refine ⟨hkept.kept h.keeps h.phase (fun hh => hsilent (hkept.hushed hh)) h.offers, ?_, fun hh => hdesk ?_⟩
  · rw [h.lifted]
    exact hhand
  · exact ⟨hh.1, fun hw => h.echo.symm.trans (hh.2 hw)⟩

lemma desk_publish (hx : (deskPoint n con).holds x) :
    SessionSafe mgmtChanPublish (fun _ => (deskPoint n con).holds) x := by
  refine safe_read (deskPoint n con) hx fun y hy => ?_
  rcases live_or_silent hy with hlive | ⟨_, hsilent⟩
  · exact (publish_rest Iff.rfl hlive).weaken fun _ z hz => desk_of_live hz
  · have hempty : y.chan.resp.IsEmpty := Ring.isEmpty_iff.mpr hsilent.resp
    rw [if_pos hsilent.served, if_neg (not_not.mpr hempty), hsilent.ready]
    exact safe_done (deskPoint n con) hy fun _ hz => hz

/-- The pump has nothing to do where the desk has not. -/
lemma desk_rules : PumpRules fun c : Script (Shared n (Desk K)) _ =>
    ∀ x, (deskPoint n con).holds x → SessionSafe c (fun _ => (deskPoint n con).holds) x where
  ret _ _ hx := safe_done (deskPoint n con) hx fun _ hy => hy
  seq hc hf x hx := safe_seq (hc x hx) hf
  loop hbody i _ hx := safe_loop (deskPoint n con) hbody i hx
  now _ hx := safe_look (deskPoint n con) hx
  publish _ hx := desk_publish hx

lemma statusBits_overflow (o f r p : Bool) : hasBit (statusBits o f r p) mgmtChanOverflow = o := by
  revert o f r p
  decide

lemma Silent.stored {c : MgmtChan n} (h : Silent c) : Silent c.statusStore where
  served := h.served
  resp := h.resp
  cmd := h.cmd
  ready := h.ready
  shownReady := (statusBits_ready _ _ _ _).trans h.ready
  shownOverflow := (statusBits_overflow _ _ _ _).trans h.overflow
  overflow := h.overflow

lemma desk_pump (hx : (deskPoint n con).holds x) :
    SessionSafe mgmtChanPump (fun _ => (deskPoint n con).holds) x := by
  have htail : ∀ y : World n K, (deskPoint n con).holds y →
      SessionSafe (do Script.iterate pumpRound 0; onChan fun c => c.statusStore)
        (fun _ => (deskPoint n con).holds) y := by
    intro y hy
    refine safe_seq (desk_rules.loop desk_rules.pumpRound 0 y hy) fun _ z hz => ?_
    refine safe_last (deskPoint n con) (deskPoint n con) hz (fun w hw => ?_) fun _ hw => hw
    exact Modest.desk (g := MgmtChan.statusStore)
      ⟨rfl, rfl, rfl, rfl, fun ho => .inl (offers_statusStore ho)⟩ (fun hs => hs.stored) hw
  have hempty : ∀ y : World n K, (deskPoint n con).holds y →
      SessionSafe (do
          let c ← now
          if c.cmd.IsEmpty then
            onChan fun c => { c with cmdFull := false }
          Script.iterate pumpRound 0
          onChan fun c => c.statusStore)
        (fun _ => (deskPoint n con).holds) y := by
    intro y hy
    refine safe_read (deskPoint n con) hy fun z hz => ?_
    split
    · refine safe_store (deskPoint n con) hz fun w hw => htail _ ?_
      exact Modest.desk (g := fun c => { c with cmdFull := false }) ⟨rfl, rfl, rfl, rfl, id⟩
        (fun hs => ⟨hs.1, hs.2, hs.3, hs.4, hs.5, hs.6, hs.7⟩) hw
    · exact htail z hz
  refine safe_read (deskPoint n con) hx fun y hy => ?_
  split
  · refine safe_store (deskPoint n con) hy fun z hz => hempty _ ?_
    exact Modest.desk (g := fun c => { c with cmdDropSeen := c.cmdDrop, cmdFull := true })
      ⟨rfl, rfl, rfl, rfl, id⟩ (fun hs => ⟨hs.1, hs.2, hs.3, hs.4, hs.5, hs.6, hs.7⟩) hz
  · exact hempty y hy

lemma Moved.cmd {x' : World n K} (h : Moved x x') (hsome : ¬ x.chan.cmd.IsEmpty) : ¬ x'.chan.cmd.IsEmpty := by
  cases h with
  | write data mode _ _ _ =>
    simp only [World.writeCmd, mgmtChanRegWrite_eq, true_and]
    split
    next hroom =>
      rw [Ring.isEmpty_iff, Ring.contents_push hroom]
      simp
    · exact hsome
  | _ => exact hsome

/-- A key is in the ring. -/
def keyPoint (n : ℕ) (K : Type) : SessionPoint n K :=
  keptPoint (fun x => (¬ Hushed x ∧ x.ledger.lifted.length = 0) ∧ ¬ x.chan.cmd.IsEmpty) <| by
    rintro x x' hkept hmoved ⟨⟨hlive, hhand⟩, hsome⟩
    refine ⟨⟨fun hh => hlive (hmoved.hushed hkept hh), ?_⟩, hmoved.cmd hsome⟩
    rw [hmoved.beside.lifted]
    exact hhand

/-- The byte leaves the ring. -/
lemma live_pop (hx : (keyPoint n K).holds x) :
    (livePoint 1 anyway).holds (x.store ⟨{ x.chan with cmd := x.chan.cmd.pop }, x.shared.side⟩) := by
  obtain ⟨hkept, ⟨hlive, hhand⟩, hsome⟩ := hx
  have hlen := congrArg List.length (Ring.contents_pop hsome)
  rw [List.length_cons, Ring.contents_length, Ring.contents_length] at hlen
  have hkeeps : Keeps x ⟨{ x.chan with cmd := x.chan.cmd.pop }, x.shared.side⟩ :=
    ⟨by dsimp only; omega, rfl, rfl, rfl⟩
  refine ⟨hkept.kept hkeeps rfl (fun hh => absurd hh hlive) id, ⟨hlive, ?_⟩, trivial⟩
  rw [store_lifted hkeeps.keepsReset rfl, List.length_append, List.length_take, hhand, hkept.books.ring]
  dsimp only
  omega

/-- One byte in hand is one byte recorded. -/
lemma Books.recorded (h : Books x) (hhand : x.ledger.lifted.length = 1) {d : Desk K} {b : Byte}
    (hpopped : d.popped = x.shared.side.popped ++ [b]) : Books (x.store ⟨x.chan, d⟩) := by
  have hgrows : x.shared.side.popped.length < d.popped.length := by
    rw [hpopped, List.length_append]
    exact Nat.lt_succ_self _
  have hreset : KeepsReset x ⟨x.chan, d⟩ := fun hr => hr
  have hlifted : (x.store ⟨x.chan, d⟩).ledger.lifted = [] := by
    simp only [World.store, Session.observe, Ledger.observe, hgrows, true_or, if_true]
  have hconsumed : (x.store ⟨x.chan, d⟩).ledger.consumed =
      x.ledger.consumed ++ x.ledger.lifted.map fun t => (t, x.ledger.serviced) := by
    simp only [World.store, Session.observe, Ledger.observe, hgrows, if_true, Nat.sub_self, List.take_zero,
      List.append_nil]
  refine ⟨?_, ?_, ?_, ?_, ?_, h.taken, ?_⟩
  · simpa using h.ring
  · simpa using h.fifo
  · intro t ht
    rw [store_serviced hreset]
    rw [hlifted, store_staged hreset rfl, store_queued, store_fifo] at ht
    refine h.stamps t ?_
    simp only [Nat.sub_self, List.drop_zero, List.take_zero, List.append_nil, List.replicate_zero,
      List.not_mem_nil, false_or] at ht
    rcases ht with ht | ht | ht
    · exact .inl ht
    · exact .inr (.inr (.inl ht))
    · exact .inr (.inr (.inr ht))
  · intro p hp
    rw [hconsumed] at hp
    rcases List.mem_append.mp hp with hp | hp
    · exact h.consumed p hp
    · obtain ⟨t, ht, rfl⟩ := List.mem_map.mp hp
      exact h.stamps t (.inr (.inl ht))
  · rw [store_flushed hreset]
    exact h.flushed
  · rw [hconsumed, List.length_append, List.length_map, hhand, h.complete, store_side, hpopped,
      List.length_append]
    rfl

/-- The console notes the byte. -/
lemma live_record (b : Byte) (hx : (livePoint 1 anyway).holds x) :
    (live n K).holds (x.store ⟨x.chan, { x.shared.side with popped := x.shared.side.popped ++ [b] }⟩) := by
  obtain ⟨hkept, ⟨hlive, hhand⟩, _⟩ := hx
  have hcell := store_cell (x := x)
    (s := ⟨x.chan, { x.shared.side with popped := x.shared.side.popped ++ [b] }⟩) rfl
  refine ⟨hkept.booked (hkept.books.recorded hhand rfl) rfl rfl (fun hh => absurd hh hlive)
    (fun ho => hcell.trans (hkept.offered ho)) fun hr => hcell.trans (hkept.reading hr), ⟨hlive, ?_⟩, trivial⟩
  simp [World.store, Session.observe, Ledger.observe]

/-- A key is found in a live session only. -/
lemma safe_popKey (p : SessionPoint n K) (hlive : ∀ y, p.holds y → ¬ y.chan.cmd.IsEmpty → (live n K).holds y)
    (hback : ∀ y, (live n K).holds y → p.holds y) (hx : p.holds x) :
    SessionSafe popKey (fun key y => p.holds y ∧ (key ≠ none → (live n K).holds y)) x := by
  have hpop : SessionSafe mgmtChanCmdPop
      (fun key y => if key = none then p.holds y else (livePoint 1 anyway).holds y) x := by
    refine safe_read p hx fun y hy => ?_
    split
    · exact safe_done p hy fun _ hz => hz
    next hsome =>
      have hkey := hlive y hy hsome
      refine safe_read (keyPoint n K) ⟨hkey.1, hkey.2.1, hsome⟩ fun z hz => ?_
      refine safe_store (keyPoint n K) hz fun w hw => ?_
      exact safe_done (livePoint 1 anyway) (live_pop hw) fun _ hv => hv
  refine safe_seq hpop fun key y hy => ?_
  cases key with
  | none => exact safe_done p hy fun z hz => ⟨hz, fun hne => absurd rfl hne⟩
  | some b =>
    refine safe_store (livePoint 1 anyway) hy fun z hz => ?_
    exact safe_done (live n K) (live_record b hz) fun w hw => ⟨hback w hw, fun _ => hw⟩

lemma desk_popKey (hx : (deskPoint n con).holds x) :
    SessionSafe popKey (fun key y => (deskPoint n con).holds y ∧ (key ≠ none → (live n K).holds y)) x := by
  refine safe_popKey (deskPoint n con) (fun y hy hsome => ?_) (fun y hy => desk_of_live hy) hx
  rcases live_or_silent hy with hlive | ⟨_, hsilent⟩
  · exact hlive
  · exact absurd (Ring.isEmpty_iff.mpr hsilent.cmd) hsome

lemma live_menuPass (hx : (live n K).holds x) : SessionSafe (menuPass con) (fun _ => (live n K).holds) x := by
  have hloop : SessionSafe (Script.iterate (menuRound con) ()) (fun _ => (live n K).holds) x := by
    refine safe_loop (live n K) (fun _ y hy => ?_) () hx
    refine safe_seq (safe_popKey (live n K) (fun _ h _ => h) (fun _ h => h) hy) fun key z hz => ?_
    cases key with
    | none => exact safe_done (live n K) hz.1 fun _ hw => hw
    | some b =>
      exact safe_seq (live_rules.onEngine _ z hz.1) fun _ w hw => safe_done (live n K) hw fun _ hv => hv
  refine safe_seq hloop fun _ y hy => ?_
  refine safe_seq (live_rules.onEngine _ y hy) fun _ z hz => ?_
  exact live_rules.engine (fun d => { d with wasMenu := true }) (fun _ => ⟨rfl, rfl, rfl⟩) z hz

lemma desk_lineLoop (blob : List Byte) (hx : (deskPoint n con).holds x) :
    SessionSafe (Script.iterate (lineRound con blob) ()) (fun _ => (deskPoint n con).holds) x := by
  refine safe_loop (deskPoint n con) (fun _ y hy => ?_) () hx
  refine safe_seq (desk_popKey hy) fun key z hz => ?_
  cases key with
  | none => exact safe_done (deskPoint n con) hz.1 fun _ hw => hw
  | some b =>
    have hlive := hz.2 (by simp)
    dsimp only
    split
    · refine safe_seq (live_rules.sendBlob blob z hlive) fun _ w hw => ?_
      exact safe_done (deskPoint n con) (desk_of_live hw) fun _ hv => hv
    · refine safe_seq (live_rules.lineKey con b z hlive) fun _ w hw => ?_
      refine safe_seq (live_rules.lineDone con w hw) fun entered v hv => ?_
      cases entered with
      | true => exact safe_done (deskPoint n con) (desk_of_live hv) fun _ hu => hu
      | false => exact safe_done (deskPoint n con) (desk_of_live hv) fun _ hu => hu

lemma desk_linePass (blob : List Byte) (hx : (deskPoint n con).holds x) :
    SessionSafe (linePass con blob) (fun _ => (deskPoint n con).holds) x := by
  refine safe_read (deskPoint n con) hx fun y hy => ?_
  split
  next hmenu =>
    have hlive : (live n K).holds y := by
      rcases live_or_silent hy with hlive | ⟨hh, _⟩
      · exact hlive
      · exact absurd (hmenu.symm.trans (hy.2.2 hh).2) (by decide)
    refine safe_seq (live_rules.engine (fun d => { d with wasMenu := false, line := mcLineReset d.line })
      (fun _ => ⟨rfl, rfl, rfl⟩) y hlive) fun _ z hz => ?_
    exact safe_seq (live_rules.respWrite _ z hz) fun _ w hw => desk_lineLoop blob (desk_of_live hw)
  · exact desk_lineLoop blob hy

/-- While the client waits it changes nothing. -/
lemma Moved.waiting {x' : World n K} (h : Moved x x') (hwaits : x.mode.waits = true)
    (hecho : x.chan.cmdEcho ≠ 0xFF) : x' = x := by
  cases h with
  | stay => rfl
  | echo _ _ h => exact absurd h hecho
  | turn _ hfrom _ _ _ | write _ _ hfrom _ _ => exact absurd (hfrom.symm.trans hwaits) (by decide)
  | accept _ hfrom _ | acknowledge _ _ _ hfrom _ _ =>
    exact absurd ((waits_of_reads hfrom).symm.trans hwaits) (by decide)
  | settle _ hfrom _ => exact absurd ((waits_of_settles hfrom).1.symm.trans hwaits) (by decide)

/-- Core 0 is at a reset; `req` tells whether the request still stands. -/
structure Servicing (req : Bool) (x : World n K) : Prop where
  waits : x.mode.waits = true
  echo : x.chan.cmdEcho ≠ 0xFF
  typed : x.ledger.typed = false
  books : Books x
  request : x.chan.resetReq = req
  settles : x.ledger.settles = x.ledger.serviced + if req then 1 else 0
  hand : req = false → x.ledger.lifted = []

lemma Servicing.separated {req : Bool} (h : Servicing req x) : Separated x := by
  refine h.books.separated fun first hmode => ?_
  have hwaits := h.waits
  rw [hmode] at hwaits
  cases hwaits

/-- A point inside the reset, at which the channel is as `φ` says. -/
def servicePoint (req : Bool) (φ : MgmtChan n → Prop) : SessionPoint n K where
  holds x := Servicing req x ∧ φ x.chan
  stable := by
    rintro x x' ⟨h, hφ⟩ hmove
    rw [(moved_of_moves hmove).waiting h.waits h.echo]
    exact ⟨h, hφ⟩
  safe := fun _ h => h.1.separated

variable {req : Bool} {φ φ' : MgmtChan n → Prop}

/-- A store of the reset that leaves the request and the echo alone. -/
lemma service_store {c : MgmtChan n} (hx : (servicePoint req φ).holds x)
    (hcmd : c.cmd.length ≤ x.chan.cmd.length) (hkept : req = false → c.cmd = x.chan.cmd)
    (hreset : c.resetReq = x.chan.resetReq) (hecho : c.cmdEcho = x.chan.cmdEcho) (hφ : φ' c) :
    (servicePoint req φ').holds (x.store ⟨c, x.shared.side⟩) := by
  obtain ⟨h, _⟩ := hx
  have hkeeps : KeepsReset x ⟨c, x.shared.side⟩ := fun hr => hreset.trans hr
  refine ⟨⟨h.waits, ?_, h.typed, h.books.stored hcmd hkeeps rfl, hreset.trans h.request, ?_, fun hreq => ?_⟩, hφ⟩
  · rw [store_chan, hecho]
    exact h.echo
  · rw [store_serviced hkeeps]
    exact h.settles
  · rw [store_lifted hkeeps rfl, h.hand hreq, hkept hreq, Nat.sub_self, List.take_zero]
    rfl

/-- Both buffers are empty, and the counters agree. -/
def Flushed (c : MgmtChan n) : Prop := (c.resp.contents = [] ∧ c.served = c.ack) ∧ c.cmd.contents = []

def Cleared (c : MgmtChan n) : Prop := Flushed c ∧ c.overflow = false ∧ c.respReady = false

/-- The request is taken back, and what was flushed is accounted for. -/
lemma service_ended (hx : (servicePoint true Cleared).holds x) :
    (servicePoint false Cleared).holds (x.store ⟨{ x.chan with resetReq := false }, x.shared.side⟩) := by
  obtain ⟨h, hcleared⟩ := hx
  have hended : x.shared.chan.resetReq = true := h.request
  have hqueued : x.ledger.queued = [] := by
    rw [← List.length_eq_zero_iff, h.books.ring, ← Ring.contents_length, hcleared.1.2]
    rfl
  have hfifo : x.ledger.fifo = [] := by
    rw [← List.length_eq_zero_iff, h.books.fifo, ← Ring.contents_length, hcleared.1.1.1]
    rfl
  refine ⟨⟨h.waits, h.echo, h.typed, ?_, rfl, ?_, fun _ => ?_⟩, hcleared⟩
  · constructor
    · simpa using h.books.ring
    · simpa using h.books.fifo
    · intro t ht
      simp [World.store, Session.observe, Ledger.observe, hended, hqueued, hfifo] at ht
    · simpa [World.store, Session.observe, Ledger.observe] using h.books.consumed
    · intro p hp
      simp only [World.store, Session.observe, Ledger.observe, hended, true_and, if_true, Nat.sub_self,
        List.take_zero, List.append_nil] at hp
      rcases List.mem_append.mp hp with hp | hp
      · exact h.books.flushed p hp
      · obtain ⟨t, ht, rfl⟩ := List.mem_map.mp hp
        exact congrArg (· + 1) (h.books.stamps t (.inr (.inl ht)))
    · exact h.books.taken
    · simpa [World.store, Session.observe, Ledger.observe] using h.books.complete
  · have hserviced : (x.store ⟨{ x.chan with resetReq := false }, x.shared.side⟩).ledger.serviced =
        x.ledger.serviced + 1 := if_pos ⟨hended, rfl⟩
    rw [hserviced]
    exact h.settles
  · simp [World.store, Session.observe, Ledger.observe, hended]

lemma waiting_of_waits {mode : Mode} (h : mode.waits = true) :
    mode.untyped = true ∧ mode.shakes = true ∧ mode.reads = false := by
  cases mode with
  | waiting first => exact ⟨rfl, rfl, rfl⟩
  | _ => cases h

/-- The menu may still be up behind the reset. -/
def resetPoint (n : ℕ) (K : Type) : SessionPoint n K :=
  keptPoint (fun x => x.ledger.lifted.length = 0) <| by
    rintro x x' _ hmoved hhand
    rw [hmoved.beside.lifted]
    exact hhand

/-- The echo is armed again on a silent channel. -/
lemma service_echoed (hx : (servicePoint false Silent).holds x) :
    (resetPoint n K).holds (x.store ⟨{ x.chan with cmdEcho := 0xFF }, x.shared.side⟩) := by
  obtain ⟨h, hsilent⟩ := hx
  obtain ⟨huntyped, hshakes, hreads⟩ := waiting_of_waits h.waits
  have hkeeps : KeepsReset x ⟨{ x.chan with cmdEcho := 0xFF }, x.shared.side⟩ := fun hr => hr
  have hserviced := store_serviced hkeeps
  refine ⟨?_, ?_⟩
  · exact {
      books := h.books.stored (le_refl _) hkeeps rfl
      echo := fun ht => absurd (h.typed.symm.trans ht) (by decide)
      untyped := fun _ => huntyped
      shaking := fun _ => h.typed
      hushed := fun _ => ⟨hsilent.1, hsilent.2, hsilent.3, hsilent.4, hsilent.5, hsilent.6, hsilent.7⟩
      pending := fun hr => absurd (h.request.symm.trans hr) (by decide)
      done := fun _ => ⟨h.settles.trans hserviced.symm, fun _ => rfl⟩
      offered := by
        rintro (hready | hshown)
        · exact absurd (hsilent.ready.symm.trans hready) (by decide)
        · exact absurd (hsilent.shownReady.symm.trans hshown) (by decide)
      reading := fun hr => absurd (hreads.symm.trans hr) (by decide) }
  · have hlifted := store_lifted hkeeps rfl
    rw [h.hand rfl, Nat.sub_self, List.take_zero] at hlifted
    exact congrArg List.length hlifted

lemma desk_takeReset (hx : (deskPoint n con).holds x) :
    SessionSafe mgmtChanTakeReset
      (fun done y => if done then (resetPoint n K).holds y else (deskPoint n con).holds y) x := by
  refine safe_read (deskPoint n con) hx fun y hy => ?_
  split
  · exact safe_done (deskPoint n con) hy fun _ hz => by simpa using hz
  next hreq =>
    have hreq : y.chan.resetReq = true := by simpa using hreq
    obtain ⟨hwaits, hecho, hsettles⟩ := hy.1.pending hreq
    have htyped := hy.1.shaking (waiting_of_waits hwaits).2.1
    have hstart : (servicePoint true fun _ => True).holds y :=
      ⟨⟨hwaits, hecho, htyped, hy.1.books, hreq, hsettles, fun h => by cases h⟩, trivial⟩
    refine safe_store (servicePoint true fun _ => True) hstart fun y hy => ?_
    refine safe_read (servicePoint true fun c => c.resp.contents = [] ∧ c.served = c.ack)
      (service_store hy (le_refl _) (fun h => by cases h) rfl rfl ⟨rfl, rfl⟩) fun z hz => ?_
    -- the world stands still while the client waits
    refine safe_store
      (servicePoint true fun c => (c.resp.contents = [] ∧ c.served = c.ack) ∧ c.cmd.head = z.chan.cmd.head)
      ⟨hz.1, hz.2, rfl⟩ fun w hw => ?_
    have hempty : (w.chan.cmd.seek z.chan.cmd.head z.chan.cmd.head_lt).contents = [] :=
      Ring.isEmpty_iff.mp hw.2.2.symm
    have hflushed : (servicePoint true Flushed).holds
        (w.store ⟨{ w.chan with cmd := w.chan.cmd.seek z.chan.cmd.head z.chan.cmd.head_lt }, w.shared.side⟩) := by
      refine service_store hw ?_ (fun h => by cases h) rfl rfl ⟨hw.2.1, hempty⟩
      have hlen := congrArg List.length hempty
      rw [Ring.contents_length] at hlen
      dsimp only
      rw [hlen]
      exact Nat.zero_le _
    refine safe_store (servicePoint true Flushed) hflushed fun y hy => ?_
    refine safe_store (servicePoint true Cleared)
      (service_store hy (le_refl _) (fun _ => rfl) rfl rfl ⟨hy.2, rfl, rfl⟩) fun z hz => ?_
    refine safe_store (servicePoint false Cleared) (service_ended hz) fun y hy => ?_
    obtain ⟨⟨hresp, hserved⟩, hcmd⟩ := hy.2.1
    have hsilent : Silent y.chan.statusStore :=
      ⟨hserved, hresp, hcmd, hy.2.2.2, (statusBits_ready _ _ _ _).trans hy.2.2.2,
        (statusBits_overflow _ _ _ _).trans hy.2.2.1, hy.2.2.1⟩
    refine safe_store (servicePoint false Silent)
      (service_store hy (le_refl _) (fun _ => rfl) rfl rfl hsilent) fun z hz => ?_
    exact safe_done (resetPoint n K) (service_echoed hz) fun _ hw => by simpa using hw

/-- A reset takes the channel's menu down. -/
lemma desk_reset (hcon : ∀ k, con.viaActive (con.abortVia k) = false) (hx : (deskPoint n con).holds x) :
    SessionSafe (mgmtConReset con) (fun _ => (deskPoint n con).holds) x := by
  refine safe_seq (desk_takeReset hx) fun done y hy => ?_
  cases done with
  | false => exact safe_done (deskPoint n con) hy fun _ hz => hz
  | true =>
    refine safe_last (resetPoint n K) (deskPoint n con) hy (fun z hz => ?_) fun _ hz => hz
    refine ⟨hz.1.desk rfl, ?_, fun _ => ⟨hcon _, rfl⟩⟩
    exact (congrArg List.length (lifted_desk rfl)).trans hz.2

lemma desk_poll (hcon : ∀ k, con.viaActive (con.abortVia k) = false) (blob : List Byte)
    (hx : (deskPoint n con).holds x) :
    SessionSafe (mgmtConPoll con blob) (fun _ => (deskPoint n con).holds) x := by
  refine safe_seq (desk_reset hcon hx) fun _ y hy => ?_
  refine safe_read (deskPoint n con) hy fun z hz => ?_
  split
  next hmenu =>
    have hlive : (live n K).holds z := by
      rcases live_or_silent hz with hlive | ⟨hh, _⟩
      · exact hlive
      · exact absurd (hmenu.symm.trans (hz.2.2 hh).1) (by decide)
    exact safe_seq (live_menuPass hlive) fun _ w hw => desk_pump (desk_of_live hw)
  · exact safe_seq (desk_linePass blob hz) fun _ w hw => desk_pump hw

end Pass

end PicoV9k.Dmaterm
