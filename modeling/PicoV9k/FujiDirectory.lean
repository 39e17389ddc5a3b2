import PicoV9k.FujiLink

/-!
# Listing a server directory

`fuji_dir_list` opens the directory, asks for one entry after the other until the end
marker, at most 64 times, and closes it again. Each request is tried up to three times on a
link that may fail on the way there or on the way back.
-/
namespace PicoV9k.FujiBus.Directory
open PicoV9k.Bus PicoV9k.Framing

abbrev fujiDeviceidFujinet : Byte := 0x70
abbrev fujicmdMountHost : Byte := 0xF9
abbrev fujicmdOpenDirectory : Byte := 0xF7
abbrev fujicmdReadDirEntry : Byte := 0xF6
abbrev fujicmdCloseDirectory : Byte := 0xF5

def dirEntryCap : ℕ := 64
def dirEntryMax : ℕ := 128
def dirEntryHeader : ℕ := 12

/-- What one attempt meets: its tag, whether the slave armed for the request, and what it clocks
in after that, if it arms for the reply at all. -/
structure Exchange where
  tag : Byte
  armed : Bool
  reply : Option (ℕ → Byte)

/-- One round of `transact_frame_locked`: the payload of an ACK, or nothing usable. -/
def Exchange.acked (x : Exchange) (frame : List Byte) : Option (List Byte) :=
  if sendRequest frame x.tag = none ∨ ¬ x.armed then none
  else do
    let wire ← x.reply
    let rx := recvReply wire fujiEncMax x.tag
    if rx = [] then none
    else
      let f ← fujiParseFrame rx fujiDecMax
      if f.command ≠ fujicmdAck then none else some f.payload

def transactFrameLocked (frame : List Byte) (attempts : ℕ → Exchange) : Option (List Byte) :=
  if frame = [] then none else (List.range fujiRetries).findSome? fun attempt => (attempts attempt).acked frame

/-- The requests of a listing; the reads are numbered. -/
inductive Request
  | mountHost
  | openDirectory
  | readDirEntry (i : ℕ)
  | closeDirectory
  deriving DecidableEq, Repr

/-- `/`, a NUL and the pattern `*.img`, padded. -/
def dirPath : List Byte := [0x2F, 0x00, 0x2A, 0x2E, 0x69, 0x6D, 0x67] ++ List.replicate (fujiPathLen - 7) 0

def Request.frame : Request → List Byte
  | .mountHost => fujiBuildFrameU8 fujiDeviceidFujinet fujicmdMountHost [0] [] fujiEncU8
  | .openDirectory => fujiBuildFrameU8 fujiDeviceidFujinet fujicmdOpenDirectory [0] dirPath fujiEncU8
  | .readDirEntry _ => fujiBuildFrameU8 fujiDeviceidFujinet fujicmdReadDirEntry [128, 0x80] [] fujiEncU8
  | .closeDirectory => fujiBuildFrame fujiDeviceidFujinet fujicmdCloseDirectory none [] fujiEncMax

abbrev Link := Request → ℕ → Exchange

def Link.answer (env : Link) (q : Request) : Option (List Byte) := transactFrameLocked q.frame (env q)

/-- The host is mounted and the directory opened. -/
def Link.Opened (env : Link) : Prop := env.answer .mountHost ≠ none ∧ env.answer .openDirectory ≠ none

/-- The read is acknowledged, and the reply has room for an entry. -/
def Link.Usable (env : Link) (i : ℕ) : Prop :=
  ∃ payload, env.answer (.readDirEntry i) = some payload ∧ dirEntryHeader ≤ payload.length

/-- What `emit` was called with, the requests made, and the result. -/
structure Listing where
  emitted : List (List Byte × BitVec 32)
  requests : List Request
  ok : Bool

/-- The name up to its first NUL, forced behind the copy, and the size. -/
def dirEntry (ent : List Byte) : List Byte × BitVec 32 :=
  ((ent.drop dirEntryHeader).takeWhile (· ≠ 0),
    fieldValue [ent.getD 6 0, ent.getD 7 0, ent.getD 8 0, ent.getD 9 0])

def endMarker (ent : List Byte) : Prop := ent.getD 0 0 = 0x7F ∧ ent.getD 1 0 = 0x7F

instance (ent : List Byte) : Decidable (endMarker ent) := inferInstanceAs (Decidable (_ ∧ _))

/-- The loop of `fuji_dir_list` with `left` rounds to go; `ent` holds the first bytes of the payload. -/
def dirLoop (env : Link) : ℕ → Listing → Listing
  | 0, s => s
  | left + 1, s =>
    let q := Request.readDirEntry (dirEntryCap - (left + 1))
    let s := { s with requests := s.requests ++ [q] }
    match env.answer q with
    | none => { s with ok := false }
    | some payload =>
      let ent := payload.take dirEntryMax
      if ent.length < dirEntryHeader then { s with ok := false }
      else if endMarker ent then s
      else if hasBit (ent.getD 10 0) 0x01 then dirLoop env left s
      else dirLoop env left { s with emitted := s.emitted ++ [dirEntry ent] }

def fujiDirList (env : Link) : Listing :=
  if env.answer .mountHost = none then ⟨[], [.mountHost], false⟩
  else if env.answer .openDirectory = none then ⟨[], [.mountHost, .openDirectory], false⟩
  else
    let s := dirLoop env dirEntryCap ⟨[], [.mountHost, .openDirectory], true⟩
    { s with requests := s.requests ++ [.closeDirectory] }

/-- A directory entry at the server; the marker is no date, and the name has no NUL. -/
structure DirEntry where
  stamp : Fin 6 → Byte
  size : BitVec 32
  flags : Byte
  media : Byte
  name : List Byte
  dated : ¬ endMarker (List.ofFn stamp)
  noNul : 0 ∉ name

def DirEntry.isDir (e : DirEntry) : Bool := hasBit e.flags 0x01

/-- The reply for an entry, with padding behind the name. -/
def DirEntry.payload (e : DirEntry) (pad : ℕ) : List Byte :=
  List.ofFn e.stamp ++ (paramBytes e.size ++ (e.flags :: e.media :: (e.name ++ List.replicate pad 0)))

/-- What a listing shows of an entry: as much of the name as a reply has room for. -/
def DirEntry.shown (e : DirEntry) : List Byte × BitVec 32 := (e.name.take (dirEntryMax - dirEntryHeader), e.size)

/-- The files of a directory, in its order. -/
def files (dir : List DirEntry) : List (List Byte × BitVec 32) :=
  (dir.filter fun e => ! e.isDir).map DirEntry.shown

/-- Each acknowledged read returns the next entry, and the marker behind the last; acknowledged
replies too short for an entry are possible at any time. -/
structure Serves (dir : List DirEntry) (env : Link) : Prop where
  entry : ∀ i (h : i < dir.length) payload, env.answer (.readDirEntry i) = some payload →
    dirEntryHeader ≤ payload.length → ∃ pad, payload = dir[i].payload pad
  ended : ∀ i payload, dir.length ≤ i → env.answer (.readDirEntry i) = some payload →
    dirEntryHeader ≤ payload.length → endMarker payload

lemma takeWhile_padded {name : List Byte} (h : 0 ∉ name) (pad : ℕ) :
    (name ++ List.replicate pad 0).takeWhile (· ≠ 0) = name := by
  induction name with
  | nil => cases pad <;> rfl
  | cons b name ih =>
    obtain ⟨hb, hname⟩ := not_or.mp (mt List.mem_cons.mpr h)
    have hpos : decide (b ≠ 0) = true := decide_eq_true (Ne.symm hb)
    rw [List.cons_append, List.takeWhile_cons, hpos, if_pos rfl, ih hname]

/-- An entry's reply is read back, whatever its padding. -/
lemma payload_entry (e : DirEntry) (pad : ℕ) :
    let ent := (e.payload pad).take dirEntryMax
    ¬ ent.length < dirEntryHeader ∧ ¬ endMarker ent ∧ hasBit (ent.getD 10 0) 0x01 = e.isDir ∧
      dirEntry ent = e.shown := by
  have hname : ((e.name ++ List.replicate pad 0).take (dirEntryMax - dirEntryHeader)).takeWhile (· ≠ 0) =
      e.name.take (dirEntryMax - dirEntryHeader) := by
    have hcut : 0 ∉ e.name.take (dirEntryMax - dirEntryHeader) := fun h => e.noNul (List.mem_of_mem_take h)
    rw [List.take_append, List.take_replicate]
    exact takeWhile_padded hcut _
  have hent : (e.payload pad).take dirEntryMax = List.ofFn e.stamp ++ (paramBytes e.size ++ (e.flags :: e.media ::
      (e.name ++ List.replicate pad 0).take (dirEntryMax - dirEntryHeader))) := rfl
  dsimp only
  rw [hent]
  refine ⟨?_, e.dated, rfl, ?_⟩
  · simp [paramBytes, dirEntryHeader]
  · have hsize := fieldValue_paramBytes e.size
    exact Prod.ext hname hsize

/-- What a walk has come to behind the first `n` entries: all replies up to there were usable, and the
walk ends well at the cap or at the marker, and badly at the first reply that is not. -/
structure Walked (dir : List DirEntry) (env : Link) (n : ℕ) (r : Listing) : Prop where
  entries : n ≤ dir.length
  cap : n ≤ dirEntryCap
  emitted : r.emitted = files (dir.take n)
  before : ∀ i < n, env.Usable i
  clean : r.ok = true → n = dirEntryCap ∨ n = dir.length ∧ env.Usable n
  broken : r.ok = false → n < dirEntryCap ∧ ¬ env.Usable n

lemma files_next {dir : List DirEntry} {n : ℕ} (h : n < dir.length) :
    files (dir.take (n + 1)) = files (dir.take n) ++ if dir[n].isDir then [] else [dir[n].shown] := by
  unfold files
  rw [List.take_succ_eq_append_getElem h, List.filter_append, List.map_append]
  cases hdir : dir[n].isDir <;> simp [hdir]

variable {dir : List DirEntry} {env : Link}

lemma endMarker_take (payload : List Byte) : endMarker (payload.take dirEntryMax) ↔ endMarker payload := by
  have hget (i : ℕ) (hi : i < dirEntryMax) : (payload.take dirEntryMax).getD i 0 = payload.getD i 0 := by
    rw [List.getD_eq_getElem?_getD, List.getD_eq_getElem?_getD, List.getElem?_take_of_lt hi]
  unfold endMarker
  rw [hget 0 (by decide), hget 1 (by decide)]

/-- Round by round the files come out in order, until one of the exits is taken. -/
lemma dirLoop_walked (h : Serves dir env) {left : ℕ} (hleft : left ≤ dirEntryCap) {s : Listing}
    (hn : dirEntryCap - left ≤ dir.length) (hs : s.emitted = files (dir.take (dirEntryCap - left)))
    (hbefore : ∀ i < dirEntryCap - left, env.Usable i) (hok : s.ok = true) :
    ∃ n, Walked dir env n (dirLoop env left s) := by
  have hgood {r : Listing} (hr : r.ok = true) {P : Prop} (hbad : r.ok = false) : P :=
    absurd (hr.symm.trans hbad) Bool.noConfusion
  induction left generalizing s with
  | zero => exact ⟨dirEntryCap, hn, le_rfl, hs, hbefore, fun _ => .inl rfl, hgood hok⟩
  | succ left ih =>
    have hnext : dirEntryCap - left = dirEntryCap - (left + 1) + 1 := by omega
    have hcap : dirEntryCap - (left + 1) < dirEntryCap := by omega
    rw [hnext] at ih
    unfold dirLoop
    generalize dirEntryCap - (left + 1) = n at hn hs hbefore hcap ih ⊢
    -- a reply that is not usable ends the walk here
    have hstop {r : Listing} (hr : r.ok = false) (hemitted : r.emitted = s.emitted) (hbad : ¬ env.Usable n) :
        Walked dir env n r :=
      ⟨hn, hcap.le, hemitted.trans hs, hbefore, fun hok => absurd (hok.symm.trans hr) Bool.noConfusion,
        fun _ => ⟨hcap, hbad⟩⟩
    dsimp only
    cases hanswer : env.answer (.readDirEntry n) with
    | none =>
      refine ⟨n, hstop rfl rfl fun ⟨payload, hp, _⟩ => ?_⟩
      exact absurd (hanswer.symm.trans hp) nofun
    | some payload =>
      dsimp only
      by_cases hshort : (payload.take dirEntryMax).length < dirEntryHeader
      · rw [if_pos hshort]
        refine ⟨n, hstop rfl rfl fun ⟨p, hp, hlong⟩ => ?_⟩
        rw [Option.some.inj (hp.symm.trans hanswer)] at hlong
        rw [List.length_take] at hshort
        unfold dirEntryMax dirEntryHeader at *
        omega
      rw [if_neg hshort]
      have hlong : dirEntryHeader ≤ payload.length := by
        rw [List.length_take] at hshort
        omega
      have husable : env.Usable n := ⟨payload, hanswer, hlong⟩
      have hbefore' : ∀ i < n + 1, env.Usable i := fun i hi => by
        rcases Nat.lt_succ_iff_lt_or_eq.mp hi with hlt | rfl
        · exact hbefore i hlt
        · exact husable
      rcases Nat.lt_or_ge n dir.length with hmore | hlast
      · -- an entry
        obtain ⟨pad, rfl⟩ := h.entry n hmore payload hanswer hlong
        obtain ⟨-, hdated, hflag, hentry⟩ := payload_entry dir[n] pad
        have hemitted := files_next hmore
        rw [if_neg hdated, hflag, hentry]
        cases hdir : dir[n].isDir with
        | true =>
          rw [hdir, if_pos rfl, List.append_nil] at hemitted
          exact ih (by omega) hmore (hs.trans hemitted.symm) hbefore' hok
        | false =>
          rw [hdir, if_neg Bool.false_ne_true] at hemitted
          exact ih (by omega) hmore ((congrArg (· ++ [dir[n].shown]) hs).trans hemitted.symm) hbefore' hok
      · -- the marker
        have hend := h.ended n payload hlast hanswer hlong
        rw [if_pos ((endMarker_take payload).mpr hend)]
        exact ⟨n, hn, hcap.le, hs, hbefore, fun _ => .inr ⟨le_antisymm hn hlast, husable⟩, hgood hok⟩

/-- A walk ends well exactly if all replies up to the marker or the cap are usable. -/
lemma Walked.ok_iff {n : ℕ} {r : Listing} (h : Walked dir env n r) :
    r.ok = true ↔ ∀ i < dirEntryCap, i ≤ dir.length → env.Usable i := by
  constructor
  · intro hok i hi hin
    rcases h.clean hok with hfull | ⟨hend, hmarker⟩
    · exact h.before i (hfull ▸ hi)
    · rcases Nat.lt_or_ge i n with hlt | hge
      · exact h.before i hlt
      · rwa [le_antisymm (hend ▸ hin) hge]
  · intro husable
    by_contra hbad
    obtain ⟨hcap, hbroken⟩ := h.broken (Bool.eq_false_iff.mpr hbad)
    exact hbroken (husable n hcap h.entries)

/-- The reads are numbered one after the other. -/
lemma dirLoop_requests (env : Link) {left : ℕ} (hleft : left ≤ dirEntryCap) (s : Listing) :
    ∃ k ≤ left, (dirLoop env left s).requests =
      s.requests ++ (List.range' (dirEntryCap - left) k).map .readDirEntry := by
  induction left generalizing s with
  | zero => exact ⟨0, le_rfl, (List.append_nil _).symm⟩
  | succ left ih =>
    have hnext : dirEntryCap - left = dirEntryCap - (left + 1) + 1 := by omega
    rw [hnext] at ih
    unfold dirLoop
    generalize dirEntryCap - (left + 1) = n at ih ⊢
    have hstop : ∃ k ≤ left + 1, s.requests ++ [Request.readDirEntry n] =
        s.requests ++ (List.range' n k).map .readDirEntry := ⟨1, Nat.le_add_left 1 left, rfl⟩
    have hmore (r : Listing) (hr : r.requests = s.requests ++ [Request.readDirEntry n]) :
        ∃ k ≤ left + 1, (dirLoop env left r).requests = s.requests ++ (List.range' n k).map .readDirEntry := by
      obtain ⟨k, hk, heq⟩ := ih (by omega) r
      refine ⟨k + 1, Nat.succ_le_succ hk, ?_⟩
      rw [heq, hr, List.append_assoc]
      rfl
    dsimp only
    cases env.answer (.readDirEntry n) with
    | none => exact hstop
    | some payload =>
      dsimp only
      split
      · exact hstop
      · split
        · exact hstop
        · split
          · exact hmore _ rfl
          · exact hmore _ rfl

/-- A listing succeeds exactly if the directory is opened and every reply up to the marker or the cap
is usable. It emits the files among the first `n` entries, in the server's order; where it succeeds
these are all entries, with the marker behind them, or as many as the cap admits, and where it fails
the next reply is the first that is not usable. It closes the directory exactly if it was opened. -/
theorem fujiDirList_walk (dir : List DirEntry) (env : Link) (h : Serves dir env) :
    ((fujiDirList env).ok = true ↔
      env.Opened ∧ ∀ i < dirEntryCap, i ≤ dir.length → env.Usable i) ∧
    (¬ env.Opened → (fujiDirList env).emitted = []) ∧
    (env.Opened → ∃ n ≤ dirEntryCap, n ≤ dir.length ∧ (fujiDirList env).emitted = files (dir.take n) ∧
      (∀ i < n, env.Usable i) ∧
      ((fujiDirList env).ok = true → n = dirEntryCap ∨
        n = dir.length ∧ ∃ payload, env.answer (.readDirEntry n) = some payload ∧ endMarker payload) ∧
      ((fujiDirList env).ok = false → n < dirEntryCap ∧ ¬ env.Usable n)) ∧
    (.closeDirectory ∈ (fujiDirList env).requests ↔
      .openDirectory ∈ (fujiDirList env).requests ∧ env.answer .openDirectory ≠ none) ∧
    (fujiDirList env).requests.count .closeDirectory ≤ 1 := by
  unfold fujiDirList
  by_cases hmount : env.answer .mountHost = none
  · rw [if_pos hmount]
    have hshut : ¬ env.Opened := fun hopened => hopened.1 hmount
    exact ⟨⟨Bool.noConfusion, fun hall => absurd hall.1 hshut⟩, fun _ => rfl, fun hopened => absurd hopened hshut,
      by simp⟩
  rw [if_neg hmount]
  by_cases hopen : env.answer .openDirectory = none
  · rw [if_pos hopen]
    have hshut : ¬ env.Opened := fun hopened => hopened.2 hopen
    exact ⟨⟨Bool.noConfusion, fun hall => absurd hall.1 hshut⟩, fun _ => rfl, fun hopened => absurd hopened hshut,
      by simp [hopen]⟩
  rw [if_neg hopen]
  have hopened : env.Opened := ⟨hmount, hopen⟩
  obtain ⟨n, hwalked⟩ := dirLoop_walked h (s := ⟨[], [.mountHost, .openDirectory], true⟩) le_rfl (Nat.zero_le _) rfl
    (fun i hi => absurd hi (Nat.not_lt_zero i)) rfl
  obtain ⟨k, -, hrequests⟩ := dirLoop_requests env (s := ⟨[], [.mountHost, .openDirectory], true⟩) le_rfl
  have hreads : Request.closeDirectory ∉ (List.range' (dirEntryCap - dirEntryCap) k).map .readDirEntry := by simp
  dsimp only
  rw [hrequests]
  refine ⟨hwalked.ok_iff.trans (and_iff_right hopened).symm, fun hshut => absurd hopened hshut, fun _ => ?_, ?_, ?_⟩
  · refine ⟨n, hwalked.cap, hwalked.entries, hwalked.emitted, hwalked.before, fun hok => ?_, hwalked.broken⟩
    rcases hwalked.clean hok with hfull | ⟨hend, payload, hpayload, hlong⟩
    · exact .inl hfull
    · exact .inr ⟨hend, payload, hpayload, h.ended n payload hend.ge hpayload hlong⟩
  · simp [hopen]
  · rw [List.count_append, List.count_append, List.count_eq_zero_of_not_mem hreads]
    decide

def servedPayload (dir : List DirEntry) : Request → List Byte
  | .readDirEntry i => (dir[i]?.map fun e => e.payload 0).getD (List.replicate dirEntryHeader 0x7F)
  | _ => []

/-- An acknowledgement on the wire. -/
def served (payload : List Byte) : Exchange :=
  ⟨1, true, some (replyWire (slipFrame (packet fujiDeviceidFujinet fujicmdAck 0 payload)) 1)⟩

def serving (dir : List DirEntry) : Link := fun q _ => served (servedPayload dir q)

lemma request_sent (q : Request) : q.frame ≠ [] ∧ ∀ tag, sendRequest q.frame tag ≠ none := by
  have hsent {frame : List Byte} {cap : ℕ} (h : RequestFits frame cap) :
      frame ≠ [] ∧ ∀ tag, sendRequest frame tag ≠ none := by
    refine ⟨h.nonempty, fun tag => ?_⟩
    obtain ⟨wire, hwire, -⟩ := h.sent tag
    rw [hwire]
    exact Option.some_ne_none wire
  have hcontrol (command : Byte) {params payload : List Byte} (hlow : 1 ≤ params.length) (hhigh : params.length ≤ 4)
      (hpayload : payload.length ≤ fujiPathLen) :=
    hsent (controlFrame_fits fujiDeviceidFujinet command hlow hhigh hpayload)
  have hpath : dirPath.length ≤ fujiPathLen := by
    unfold dirPath
    rw [List.length_append, List.length_replicate]
    decide
  have hempty : ([] : List Byte).length ≤ fujiPathLen := Nat.zero_le _
  cases q with
  | mountHost => exact hcontrol fujicmdMountHost (by decide) (by decide) hempty
  | openDirectory => exact hcontrol fujicmdOpenDirectory (by decide) (by decide) hpath
  | readDirEntry i => exact hcontrol fujicmdReadDirEntry (by decide) (by decide) hempty
  | closeDirectory =>
    have hframe := fujiBuildFrame_fits fujiDeviceidFujinet fujicmdCloseDirectory none (hempty.trans (by decide))
    have hfits : RequestFits (slipFrame (packet fujiDeviceidFujinet fujicmdCloseDirectory 0 [])) fujiEncMax :=
      slipFrame_fits _ _ _ (by decide) (by decide)
    exact hsent (hframe ▸ hfits)

lemma served_acked {frame payload : List Byte} (hsent : ∀ tag, sendRequest frame tag ≠ none)
    (hlen : payload.length ≤ fujiSectorSize) : (served payload).acked frame = some payload := by
  have hbody : fujiHeaderLen + payload.length ≤ fujiDecMax := by
    unfold fujiDecMax fujiMultiSectors
    omega
  have hworst := slipFrame_packet_le fujiDeviceidFujinet fujicmdAck 0 payload
  have hmax : fujiDecMax * 2 + 2 = fujiEncMax ∧ fujiEncMax < 2 ^ 16 := by decide
  have hne : slipFrame (packet fujiDeviceidFujinet fujicmdAck 0 payload) ≠ [] := List.cons_ne_nil _ _
  have hheard := recvReply_replyWire 1 hne (by omega : _ ≤ fujiEncMax) (by omega)
  have hparsed : fujiParseFrame (slipFrame (packet fujiDeviceidFujinet fujicmdAck 0 payload)) fujiDecMax =
      some ⟨fujiDeviceidFujinet, fujicmdAck, [], payload⟩ := by
    rw [fujiParseFrame_packet hbody (by omega) (by decide)]
    exact congrArg (Option.map fun r => FujiFrame.mk fujiDeviceidFujinet fujicmdAck r.1 r.2)
      (readParams_param none payload)
  unfold Exchange.acked served
  rw [if_neg (by simp [hsent]), Option.bind_eq_bind, Option.bind_some]
  dsimp only
  rw [hheard, if_neg hne, hparsed]
  rfl

lemma serving_answer (dir : List DirEntry) {q : Request} (h : (servedPayload dir q).length ≤ fujiSectorSize) :
    (serving dir).answer q = some (servedPayload dir q) := by
  obtain ⟨hne, hsent⟩ := request_sent q
  have hfirst : (List.range fujiRetries).findSome? (fun attempt => (serving dir q attempt).acked q.frame) =
      some (servedPayload dir q) := by
    have hacked := served_acked hsent h
    simp [List.range_succ, fujiRetries, serving, hacked]
  unfold Link.answer transactFrameLocked
  rw [if_neg hne, hfirst]

lemma serving_opened (dir : List DirEntry) : (serving dir).Opened := by
  have hquiet (q : Request) (hq : servedPayload dir q = []) : (serving dir).answer q ≠ none := by
    rw [serving_answer dir (hq ▸ Nat.zero_le _)]
    exact Option.some_ne_none _
  exact ⟨hquiet .mountHost rfl, hquiet .openDirectory rfl⟩

/-- Behind the last entry comes the marker. -/
lemma serving_marker {i : ℕ} (hi : dir.length ≤ i) :
    (serving dir).answer (.readDirEntry i) = some (List.replicate dirEntryHeader 0x7F) := by
  have hpayload : servedPayload dir (.readDirEntry i) = List.replicate dirEntryHeader 0x7F := by
    simp [servedPayload, hi]
  rw [serving_answer dir (hpayload ▸ (by decide)), hpayload]

section Serving

variable (hnames : ∀ e ∈ dir, (e.payload 0).length ≤ fujiSectorSize)
include hnames

lemma serving_read {i : ℕ} (hi : i < dir.length) :
    (serving dir).answer (.readDirEntry i) = some (dir[i].payload 0) := by
  have hpayload : servedPayload dir (.readDirEntry i) = dir[i].payload 0 := by simp [servedPayload, hi]
  rw [serving_answer dir (hpayload ▸ hnames _ (List.getElem_mem hi)), hpayload]

lemma serving_serves : Serves dir (serving dir) := by
  constructor
  · intro i hi payload hanswer _
    exact ⟨0, Option.some.inj (hanswer.symm.trans (serving_read hnames hi))⟩
  · intro i payload hi hanswer _
    rw [← Option.some.inj ((serving_marker hi).symm.trans hanswer)]
    decide

lemma serving_usable {i : ℕ} (hi : i < dir.length) : (serving dir).Usable i := by
  refine ⟨_, serving_read hnames hi, ?_⟩
  simp [DirEntry.payload, paramBytes, dirEntryHeader]

/-- Behind the cap the listing goes no further, and it succeeds all the same. -/
lemma serving_capped (hlong : dirEntryCap < dir.length) :
    (fujiDirList (serving dir)).ok = true ∧ (fujiDirList (serving dir)).emitted = files (dir.take dirEntryCap) ∧
      ∀ i, .readDirEntry i ∈ (fujiDirList (serving dir)).requests → i < dirEntryCap := by
  have hopened := serving_opened dir
  have hrun : fujiDirList (serving dir) =
      let s := dirLoop (serving dir) dirEntryCap ⟨[], [.mountHost, .openDirectory], true⟩
      { s with requests := s.requests ++ [.closeDirectory] } := by
    unfold fujiDirList
    rw [if_neg hopened.1, if_neg hopened.2]
  obtain ⟨n, hwalked⟩ := dirLoop_walked (serving_serves hnames) (s := ⟨[], [.mountHost, .openDirectory], true⟩)
    le_rfl (Nat.zero_le _) rfl (fun i hi => absurd hi (Nat.not_lt_zero i)) rfl
  obtain ⟨k, hk, hrequests⟩ := dirLoop_requests (serving dir) le_rfl ⟨[], [.mountHost, .openDirectory], true⟩
  have hok : (dirLoop (serving dir) dirEntryCap ⟨[], [.mountHost, .openDirectory], true⟩).ok = true :=
    hwalked.ok_iff.mpr fun i hi _ => serving_usable hnames (hi.trans hlong)
  have hfull : n = dirEntryCap := (hwalked.clean hok).resolve_right fun hend => by
    have hcap := hwalked.cap
    omega
  rw [hrun]
  refine ⟨hok, hfull ▸ hwalked.emitted, fun i hi => ?_⟩
  dsimp only at hi
  rw [hrequests, Nat.sub_self] at hi
  simp only [List.mem_append, List.mem_cons, List.mem_map, List.mem_range'_1, List.not_mem_nil, reduceCtorEq,
    Request.readDirEntry.injEq, exists_eq_right, or_false, false_or] at hi
  omega

end Serving

/-- A file `A` of one sector. -/
def sampleFile : DirEntry := ⟨fun _ => 1, 512, 0x00, 0, [0x41], by decide, by decide⟩

def sampleFolder : DirEntry := ⟨fun _ => 1, 0, 0x01, 0, [0x42], by decide, by decide⟩

/-- The link is dead while one of the entries is read. -/
def Link.muted (env : Link) (i : ℕ) : Link := fun q attempt =>
  if q = .readDirEntry i then ⟨1, false, none⟩ else env q attempt

lemma muted_answer (env : Link) (i : ℕ) (q : Request) :
    (env.muted i).answer q = if q = .readDirEntry i then none else env.answer q := by
  unfold Link.answer Link.muted
  split
  next hq =>
    have hdead (x : ℕ) : (Exchange.mk 1 false none).acked q.frame = none := by
      unfold Exchange.acked
      exact if_pos (.inr Bool.false_ne_true)
    unfold transactFrameLocked
    rw [List.findSome?_eq_none_iff.mpr fun x _ => hdead x, ite_self]
  · rfl

lemma Serves.muted {env : Link} (h : Serves dir env) (i : ℕ) : Serves dir (env.muted i) := by
  have hanswer {j : ℕ} {payload : List Byte} (hj : (env.muted i).answer (.readDirEntry j) = some payload) :
      env.answer (.readDirEntry j) = some payload := by
    rw [muted_answer] at hj
    split at hj
    · cases hj
    · exact hj
  exact ⟨fun j hj payload hp => h.entry j hj payload (hanswer hp),
    fun j payload hj hp => h.ended j payload hj (hanswer hp)⟩

/-- A dead read does not keep the directory from being opened. -/
lemma Link.Opened.muted {env : Link} (h : env.Opened) (i : ℕ) : (env.muted i).Opened := by
  have hanswer {q : Request} (hq : q ≠ .readDirEntry i) : (env.muted i).answer q = env.answer q := by
    rw [muted_answer, if_neg hq]
  unfold Link.Opened
  rw [hanswer Request.noConfusion, hanswer Request.noConfusion]
  exact h

lemma muted_dead (env : Link) (i : ℕ) : ¬ (env.muted i).Usable i := by
  rintro ⟨payload, hp, -⟩
  rw [muted_answer, if_pos rfl] at hp
  cases hp

lemma Link.Usable.muted {env : Link} {i j : ℕ} (h : env.Usable j) (hne : j ≠ i) : (env.muted i).Usable j := by
  obtain ⟨payload, hp, hlong⟩ := h
  refine ⟨payload, ?_, hlong⟩
  rw [muted_answer, if_neg (by simpa using hne)]
  exact hp

def sampleDir : List DirEntry := [sampleFile, sampleFolder, sampleFile]

/-- Both files are shown, and only the first if the third read fails. -/
theorem fujiDirList_walk_mixed :
    ((fujiDirList (serving sampleDir)).ok = true ∧ (fujiDirList (serving sampleDir)).emitted = files sampleDir) ∧
    (fujiDirList ((serving sampleDir).muted 2)).ok = false ∧
      (fujiDirList ((serving sampleDir).muted 2)).emitted = [dirEntry (sampleFile.payload 0)] := by
  have hnames : ∀ e ∈ sampleDir, (e.payload 0).length ≤ fujiSectorSize := by decide
  have hserves := serving_serves hnames
  have hlength : sampleDir.length = 3 := rfl
  have hopened := serving_opened sampleDir
  have husable (i : ℕ) (hi : i ≤ sampleDir.length) : (serving sampleDir).Usable i := by
    rcases Nat.lt_or_ge i sampleDir.length with hmore | hlast
    · exact serving_usable hnames hmore
    · exact ⟨_, serving_marker hlast, by decide⟩
  constructor
  · obtain ⟨hok, -, hwalk, -⟩ := fujiDirList_walk sampleDir _ hserves
    have hdone := hok.mpr ⟨hopened, fun i _ hi => husable i hi⟩
    obtain ⟨n, hcap, -, hemitted, -, hclean, -⟩ := hwalk hopened
    have hn : sampleDir.length ≤ n := by
      rcases hclean hdone with hfull | ⟨hend, -⟩
      · exact hfull ▸ (by decide)
      · exact hend.ge
    exact ⟨hdone, by rw [hemitted, List.take_of_length_le hn]⟩
  · obtain ⟨hok, -, hwalk, -⟩ := fujiDirList_walk sampleDir _ (hserves.muted 2)
    have hfailed : (fujiDirList ((serving sampleDir).muted 2)).ok = false :=
      Bool.eq_false_iff.mpr fun hdone => muted_dead _ 2 ((hok.mp hdone).2 2 (by decide) (by decide))
    obtain ⟨n, -, hn, hemitted, hbefore, -, hbroken⟩ := hwalk (hopened.muted 2)
    have hle : n ≤ 2 := Nat.not_lt.mp fun hlt => muted_dead _ 2 (hbefore 2 hlt)
    have htwo : n = 2 := by
      by_contra hne
      exact (hbroken hfailed).2 ((husable n hn).muted hne)
    refine ⟨hfailed, ?_⟩
    rw [hemitted, htwo]
    decide

/-- Of 65 files the listing shows 64 and succeeds, without having met the marker. -/
theorem fujiDirList_capped :
    let dir := List.replicate 65 sampleFile
    let r := fujiDirList (serving dir)
    Serves dir (serving dir) ∧ r.ok = true ∧ r.emitted.length = 64 ∧ (files dir).length = 65 ∧
      ∀ i, .readDirEntry i ∈ r.requests →
        ∀ payload, (serving dir).answer (.readDirEntry i) = some payload → ¬ endMarker payload := by
  have hfiles (k : ℕ) : (files (List.replicate k sampleFile)).length = k := by
    have hfile : sampleFile.isDir = false := rfl
    simp [files, hfile]
  have hnames : ∀ e ∈ List.replicate 65 sampleFile, (e.payload 0).length ≤ fujiSectorSize := fun e he =>
    List.eq_of_mem_replicate he ▸ (by decide)
  have hlength : (List.replicate 65 sampleFile).length = 65 := List.length_replicate
  have hcap : dirEntryCap = 64 := rfl
  obtain ⟨hok, hemitted, hreads⟩ := serving_capped hnames (by omega)
  have hserves := serving_serves hnames
  dsimp only
  generalize hdir : List.replicate 65 sampleFile = dir at *
  refine ⟨hserves, hok, ?_, hdir ▸ hfiles 65, fun i hi payload hpayload => ?_⟩
  · rw [hemitted, ← hdir, List.take_replicate]
    exact hfiles 64
  · have hi' : i < dir.length := by
      have := hreads i hi
      omega
    rw [← Option.some.inj ((serving_read hnames hi').symm.trans hpayload), ← endMarker_take]
    exact (payload_entry dir[i] 0).2.1

end PicoV9k.FujiBus.Directory
