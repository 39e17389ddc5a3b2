import PicoV9k.FujiFrame
import PicoV9k.StorageRouting

/-!
# Sector reads and writes over the FujiNet link

`fuji_blkdev.c` above its SPI glue: a request frame is sent up to three times until
an ACK comes back, a write sends one PUT for each sector, and a read asks for runs of
up to sixteen sectors. The device at the far end parses the frames and applies them;
an attempt may fail on the way there or on the way back.
-/
namespace PicoV9k.FujiBus
open PicoV9k.Bus PicoV9k.Storage

abbrev fujiDeviceidDisk : Byte := 0x31
abbrev diskcmdReadMulti : Byte := 0x72
abbrev diskcmdPut : Byte := 0x50

def fujiRetries : ℕ := 3
def fujiSpiHdr : ℕ := 4
def fujiSpiReqMax : ℕ := 2048

/-- The disks behind the link, each under its device number. -/
abbrev Disks := Byte → ℕ → Sector

def Disks.put (d : Disks) (device : Byte) (sector : ℕ) (data : Sector) : Disks :=
  Function.update d device (Function.update (d device) sector data)

/-- The bytes from a sector on. -/
def Disks.stream (d : Disks) (device : Byte) (sector : ℕ) : ℕ → Byte := fun x =>
  d device (sector + x / 512) ⟨x % 512, Nat.mod_lt x (by decide)⟩

/-- The sector a READ_MULTI parameter asks for first, and how many. -/
def runSector (param : BitVec 32) : ℕ := (param &&& 0x00FFFFFF).toNat
def runCount (param : BitVec 32) : ℕ := (param >>> 24).toNat

/-- A request applied by the device, with the data it holds for the answer. -/
def Disks.serve (d : Disks) (frame : List Byte) : Disks × (ℕ → Byte) :=
  match fujiParseFrame frame fujiDecMax with
  | some ⟨device, command, [param], payload⟩ =>
    if command = diskcmdPut then (d.put device param.toNat fun i => payload.getD i 0, fun _ => 0)
    else if command = diskcmdReadMulti then (d, d.stream device (runSector param))
    else (d, fun _ => 0)
  | _ => (d, fun _ => 0)

/-- One attempt at a request: not sent, sent but without a usable ACK in return (the device may
have applied it all the same), or acknowledged with `len` bytes of data. -/
inductive Attempt
  | unsent
  | unheard (applied : Bool)
  | acked (len : ℕ)
  deriving DecidableEq

/-- What `send_request` clocks out: header, frame and padding to a multiple of four. -/
def requestLength (frame : List Byte) : ℕ := (fujiSpiHdr + frame.length + 3) / 4 * 4

/-- The retry loop of `transact_frame_locked`, with `left` attempts to go; it delivers the payload
of the ACK. -/
def transactLoop (frame : List Byte) (attempts : ℕ → Attempt) : ℕ → Disks → Disks × Option (List Byte)
  | 0, d => (d, none)
  | left + 1, d =>
    if fujiSpiReqMax < requestLength frame then transactLoop frame attempts left d
    else match attempts (fujiRetries - (left + 1)) with
      | .unsent => transactLoop frame attempts left d
      | .unheard applied =>
        transactLoop frame attempts left (if applied then (d.serve frame).1 else d)
      | .acked len => ((d.serve frame).1, some ((List.range len).map (d.serve frame).2))

def transactFrameLocked (frame : List Byte) (attempts : ℕ → Attempt) (d : Disks) :
    Disks × Option (List Byte) :=
  if frame = [] then (d, none) else transactLoop frame attempts fujiRetries d

def transact (device command : Byte) (param : BitVec 32) (payload : List Byte)
    (attempts : ℕ → Attempt) (d : Disks) : Disks × Option (List Byte) :=
  transactFrameLocked (fujiBuildFrame device command (some param) payload fujiEncMax) attempts d

def window (buf : ℕ → Byte) (start : ℕ) : List Byte :=
  (List.range fujiSectorSize).map fun i => buf (start + i)

/-- `memcpy` of at most `cap` payload bytes to `start`. -/
def copied (buf : ℕ → Byte) (start cap : ℕ) (payload : List Byte) : ℕ → Byte := fun x =>
  if start ≤ x ∧ x < start + min payload.length cap then payload.getD (x - start) 0 else buf x

/-- A request of `fuji_read` and where its answer goes in the buffer. -/
structure RunRequest where
  param : BitVec 32
  offset : ℕ
  deriving DecidableEq

structure BlockRead where
  disks : Disks
  buf : ℕ → Byte
  requests : List RunRequest
  ok : Bool

/-- `(count << 24) | (sector & 0x00FFFFFF)`. -/
def runParam (count sector : ℕ) : BitVec 32 :=
  (BitVec.ofNat 32 count <<< 24) ||| (BitVec.ofNat 32 sector &&& 0x00FFFFFF)

/-- The loop of `fuji_read` from its request number `run` on; byte offsets are 32-bit products. -/
def fujiReadLoop (device : Byte) (lba sectorCount : ℕ) (env : ℕ → ℕ → Attempt) (run done : ℕ)
    (s : BlockRead) : BlockRead :=
  if h : done < sectorCount then
    let sector := lba + done
    let count := min (sectorCount - done) fujiMultiSectors
    let param := runParam count sector
    let offset := done * fujiSectorSize % 2 ^ 32
    let want := count * fujiSectorSize
    let s := { s with requests := s.requests ++ [RunRequest.mk param offset] }
    match transact device diskcmdReadMulti param [] (env run) s.disks with
    | (d, none) => { s with disks := d, ok := false }
    | (d, some payload) =>
      let s := { s with disks := d, buf := copied s.buf offset want payload }
      if min payload.length want ≠ want then { s with ok := false }
      else fujiReadLoop device lba sectorCount env (run + 1) (done + count) s
  else { s with ok := true }
termination_by sectorCount - done
decreasing_by
  have : 0 < min (sectorCount - done) fujiMultiSectors := by
    unfold fujiMultiSectors
    omega
  omega

def fujiRead (target : Byte) (lba : ℕ) (buf : ℕ → Byte) (sectorCount : ℕ) (env : ℕ → ℕ → Attempt)
    (d : Disks) : BlockRead :=
  fujiReadLoop (fujiDeviceidDisk + target) lba sectorCount env 0 0 ⟨d, buf, [], false⟩

/-- One round of `fuji_write`; byte offsets are 32-bit products here too. -/
@[irreducible] def fujiPutSector (device : Byte) (lba : ℕ) (buf : ℕ → Byte) (s : ℕ) (attempts : ℕ → Attempt)
    (d : Disks) : Disks × Option (List Byte) :=
  transact device diskcmdPut (BitVec.ofNat 32 (lba + s)) (window buf (s * fujiSectorSize % 2 ^ 32)) attempts d

/-- The loop of `fuji_write` with `left` sectors to go. -/
def fujiWriteLoop (device : Byte) (lba : ℕ) (buf : ℕ → Byte) (sectorCount : ℕ)
    (env : ℕ → ℕ → Attempt) : ℕ → Disks → Disks × Bool
  | 0, d => (d, true)
  | left + 1, d =>
    let s := sectorCount - (left + 1)
    match fujiPutSector device lba buf s (env s) d with
    | (d, none) => (d, false)
    | (d, some _) => fujiWriteLoop device lba buf sectorCount env left d

def fujiWrite (target : Byte) (lba : ℕ) (buf : ℕ → Byte) (sectorCount : ℕ) (env : ℕ → ℕ → Attempt)
    (d : Disks) : Disks × Bool :=
  fujiWriteLoop (fujiDeviceidDisk + target) lba buf sectorCount env sectorCount d

/-- The length of the answer of the first acknowledged attempt among the last `left`. -/
def ackWithin (attempts : ℕ → Attempt) : ℕ → Option ℕ
  | 0 => none
  | left + 1 => match attempts (fujiRetries - (left + 1)) with
    | .acked len => some len
    | _ => ackWithin attempts left

def ackLength (attempts : ℕ → Attempt) : Option ℕ := ackWithin attempts fujiRetries

/-- A request with a parameter and at most one sector is built, fits the link and is understood. -/
lemma request_frame (device command : Byte) (param : BitVec 32) {payload : List Byte}
    (h : payload.length ≤ 512) :
    let frame := fujiBuildFrame device command (some param) payload fujiEncMax
    frame ≠ [] ∧ requestLength frame ≤ fujiSpiReqMax ∧
      fujiParseFrame frame fujiDecMax = some ⟨device, command, [param], payload⟩ := by
  have hlen : (packet device command 0x07 (paramBytes param ++ payload)).length ≤ 522 := by
    rw [packet_length, List.length_append]
    have hparam : (paramBytes param).length = 4 := rfl
    unfold fujiHeaderLen
    omega
  have hframe : (slipFrame (packet device command 0x07 (paramBytes param ++ payload))).length ≤ 1046 := by
    have hdouble := slip.encode_length_le (packet device command 0x07 (paramBytes param ++ payload))
    rw [slipFrame_length]
    omega
  have hbuild : fujiBuildFrame device command (some param) payload fujiEncMax =
      slipFrame (packet device command 0x07 (paramBytes param ++ payload)) := by
    have hsmall : ¬ fujiDecMax < fujiHeaderLen + (paramBytes param).length + payload.length := by
      have hparam : (paramBytes param).length = 4 := rfl
      unfold fujiDecMax fujiHeaderLen fujiMultiSectors fujiSectorSize
      omega
    have hcap : ¬ fujiEncMax < (slipFrame (packet device command 0x07
        (paramBytes param ++ payload))).length := by
      have hmax : 1046 ≤ fujiEncMax := by decide
      omega
    unfold fujiBuildFrame
    dsimp only
    rw [fujiFinish_eq, if_neg (not_or.mpr ⟨fun hc => hsmall hc.2, hcap⟩)]
  have hrange : fujiHeaderLen + (paramBytes param ++ payload).length ≤ fujiDecMax := by
    rw [← packet_length device command 0x07]
    exact hlen.trans (by decide)
  have hmax : fujiDecMax < 2 ^ 16 := by decide
  dsimp only
  rw [hbuild]
  refine ⟨List.cons_ne_nil _ _, ?_, ?_⟩
  · unfold requestLength fujiSpiHdr fujiSpiReqMax
    omega
  · rw [fujiParseFrame_packet hrange (by omega) (by decide)]
    have hread := readParams_param (some param) payload
    exact congrArg (Option.map fun r => FujiFrame.mk device command r.1 r.2) hread

lemma Disks.put_put (d : Disks) (device : Byte) (sector : ℕ) (data : Sector) :
    (d.put device sector data).put device sector data = d.put device sector data := by
  unfold put
  rw [Function.update_self, Function.update_idem, Function.update_idem]

/-- A read leaves the disks alone and answers with the first bytes of its run. -/
theorem transact_read (device : Byte) (param : BitVec 32) (attempts : ℕ → Attempt) (d : Disks) :
    transact device diskcmdReadMulti param [] attempts d =
      (d, (ackLength attempts).map fun len => (List.range len).map (d.stream device (runSector param))) := by
  have hempty : ([] : List Byte).length ≤ 512 := Nat.zero_le 512
  obtain ⟨hne, hfits, hparse⟩ := request_frame device diskcmdReadMulti param hempty
  have hserve : d.serve (fujiBuildFrame device diskcmdReadMulti (some param) [] fujiEncMax) =
      (d, d.stream device (runSector param)) := by
    unfold Disks.serve
    rw [hparse]
    rfl
  have hloop (left : ℕ) : transactLoop (fujiBuildFrame device diskcmdReadMulti (some param) [] fujiEncMax)
      attempts left d = (d, (ackWithin attempts left).map fun len =>
        (List.range len).map (d.stream device (runSector param))) := by
    induction left with
    | zero => rfl
    | succ left ih =>
      unfold transactLoop ackWithin
      rw [if_neg (Nat.not_lt.mpr hfits), hserve]
      cases attempts (fujiRetries - (left + 1)) with
      | unsent => exact ih
      | unheard applied => cases applied <;> exact ih
      | acked len => rfl
  unfold transact transactFrameLocked
  rw [if_neg hne]
  exact hloop fujiRetries

/-- A PUT writes its own sector or nothing, and it has written it when it is acknowledged. -/
theorem transact_put (device : Byte) (param : BitVec 32) {payload : List Byte} (h : payload.length ≤ 512)
    (attempts : ℕ → Attempt) (d : Disks) :
    let r := transact device diskcmdPut param payload attempts d
    let written := d.put device param.toNat fun i => payload.getD i 0
    (r.1 = d ∨ r.1 = written) ∧ (r.2.isSome = true → r.1 = written) := by
  obtain ⟨hne, hfits, hparse⟩ := request_frame device diskcmdPut param h
  dsimp only at hne hfits hparse ⊢
  have hserve (d : Disks) : (d.serve (fujiBuildFrame device diskcmdPut (some param) payload fujiEncMax)).1 =
      d.put device param.toNat fun i => payload.getD i 0 := by
    unfold Disks.serve
    rw [hparse]
    rfl
  have hloop (left : ℕ) (d' : Disks) (hd : d' = d ∨ d' = d.put device param.toNat fun i => payload.getD i 0) :
      let r := transactLoop (fujiBuildFrame device diskcmdPut (some param) payload fujiEncMax)
        attempts left d'
      (r.1 = d ∨ r.1 = d.put device param.toNat fun i => payload.getD i 0) ∧
        (r.2.isSome = true → r.1 = d.put device param.toNat fun i => payload.getD i 0) := by
    have hput : d'.put device param.toNat (fun i => payload.getD i 0) =
        d.put device param.toNat fun i => payload.getD i 0 := by
      rcases hd with rfl | rfl
      · rfl
      · exact Disks.put_put d device _ _
    induction left generalizing d' with
    | zero => exact ⟨hd, Bool.noConfusion⟩
    | succ left ih =>
      unfold transactLoop
      rw [if_neg (Nat.not_lt.mpr hfits)]
      cases attempts (fujiRetries - (left + 1)) with
      | unsent => exact ih d' hd hput
      | unheard applied =>
        cases applied with
        | false => exact ih d' hd hput
        | true =>
          refine ih _ (.inr ((hserve d').trans hput)) ?_
          rw [if_pos rfl, hserve, hput]
          exact Disks.put_put d device _ _
      | acked len =>
        have heq := (hserve d').trans hput
        exact ⟨.inr heq, fun _ => heq⟩
  unfold transact transactFrameLocked
  rw [if_neg hne]
  exact hloop fujiRetries d (.inl rfl)

lemma sectorMask_bit {i : ℕ} (h : i < 32) : (16777215#32).getLsbD i = decide (i < 24) := by
  interval_cases i <;> rfl

lemma countMask_bit {i : ℕ} (h : i < 32) : (255#32).getLsbD i = decide (i < 8) := by
  interval_cases i <;> rfl

lemma runParam_low (count sector : BitVec 32) :
    (count <<< 24 ||| sector &&& 16777215#32) &&& 16777215#32 = sector &&& 16777215#32 := by
  apply BitVec.eq_of_getLsbD_eq
  intro i hi
  simp only [BitVec.getLsbD_and, BitVec.getLsbD_or, BitVec.getLsbD_shiftLeft, sectorMask_bit hi]
  by_cases h : i < 24 <;> simp [h]

lemma runParam_high (count sector : BitVec 32) :
    (count <<< 24 ||| sector &&& 16777215#32) >>> 24 = count &&& 255#32 := by
  apply BitVec.eq_of_getLsbD_eq
  intro i hi
  simp only [BitVec.getLsbD_and, BitVec.getLsbD_or, BitVec.getLsbD_shiftLeft,
    BitVec.getLsbD_ushiftRight, countMask_bit hi]
  by_cases h : i < 8
  · have hin : 24 + i < 32 := by omega
    have hclear : (16777215#32).getLsbD (24 + i) = false := by
      rw [sectorMask_bit hin]
      exact decide_eq_false (by omega)
    rw [hclear]
    simp [h]
    omega
  · have hout : decide (24 + i < 32) = false := decide_eq_false (by omega)
    have hclear : (16777215#32).getLsbD (24 + i) = false := BitVec.getLsbD_of_ge _ _ (by omega)
    rw [hout, hclear]
    simp [h]

lemma runSector_runParam (count sector : ℕ) : runSector (runParam count sector) = sector % 2 ^ 24 := by
  have hmask : (16777215#32).toNat = 2 ^ 24 - 1 := rfl
  unfold runSector runParam
  show ((BitVec.ofNat 32 count <<< 24 ||| BitVec.ofNat 32 sector &&& 16777215#32) &&& 16777215#32).toNat = _
  rw [runParam_low, BitVec.toNat_and, BitVec.toNat_ofNat, hmask, Nat.and_two_pow_sub_one_eq_mod]
  omega

lemma runCount_runParam {count : ℕ} (h : count ≤ fujiMultiSectors) (sector : ℕ) :
    runCount (runParam count sector) = count := by
  have hmask : (255#32).toNat = 2 ^ 8 - 1 := rfl
  have hcount : count < 2 ^ 8 := h.trans_lt (by decide)
  unfold runCount runParam
  show ((BitVec.ofNat 32 count <<< 24 ||| BitVec.ofNat 32 sector &&& 16777215#32) >>> 24).toNat = _
  rw [runParam_high, BitVec.toNat_and, BitVec.toNat_ofNat, hmask, Nat.and_two_pow_sub_one_eq_mod]
  omega

/-- How many runs a read of `n` sectors takes. -/
def runsOf (n : ℕ) : ℕ := (n + 15) / 16

def runLength (n j : ℕ) : ℕ := min (n - 16 * j) fujiMultiSectors

/-- The bytes the answer to run `j` must have. -/
def runBytes (n j : ℕ) : ℕ := runLength n j * fujiSectorSize

/-- Run `j` of a read. -/
def runOf (lba n j : ℕ) : RunRequest :=
  ⟨runParam (runLength n j) (lba + 16 * j), 16 * j * fujiSectorSize % 2 ^ 32⟩

/-- Run `j` was acknowledged with at least its bytes. -/
def Delivered (n : ℕ) (env : ℕ → ℕ → Attempt) (j : ℕ) : Prop :=
  ∃ len, ackLength (env j) = some len ∧ runBytes n j ≤ len

variable {device : Byte} {lba n : ℕ} {env : ℕ → ℕ → Attempt}

lemma fujiReadLoop_done {run done : ℕ} (h : n ≤ done) (s : BlockRead) :
    fujiReadLoop device lba n env run done s = { s with ok := true } := by
  unfold fujiReadLoop
  exact dif_neg (Nat.not_lt.mpr h)

/-- The answer to run `j`, of `len` bytes. -/
def runAnswer (device : Byte) (lba n j len : ℕ) (d : Disks) : List Byte :=
  (List.range len).map (d.stream device (runSector (runOf lba n j).param))

lemma fujiReadLoop_stop (device : Byte) (lba : ℕ) {j : ℕ} (h : 16 * j < n) (hd : ¬ Delivered n env j) (s : BlockRead) :
    ∃ buf, fujiReadLoop device lba n env j (16 * j) s =
      { s with requests := s.requests ++ [runOf lba n j], buf := buf, ok := false } := by
  unfold fujiReadLoop
  rw [dif_pos h]
  dsimp only
  rw [transact_read]
  cases hack : ackLength (env j) with
  | none => exact ⟨s.buf, rfl⟩
  | some len =>
    have hshort : min len (runBytes n j) ≠ runBytes n j := by
      intro heq
      exact hd ⟨len, hack, by omega⟩
    dsimp only [Option.map_some]
    rw [List.length_map, List.length_range]
    exact ⟨_, if_pos hshort⟩

lemma fujiReadLoop_next {j len : ℕ} (h : 16 * j < n) (hack : ackLength (env j) = some len)
    (hlen : runBytes n j ≤ len) (s : BlockRead) :
    fujiReadLoop device lba n env j (16 * j) s =
      fujiReadLoop device lba n env (j + 1) (16 * (j + 1))
        { s with
          requests := s.requests ++ [runOf lba n j]
          buf := copied s.buf (runOf lba n j).offset (runBytes n j) (runAnswer device lba n j len s.disks) } := by
  have hgo (t : BlockRead) : fujiReadLoop device lba n env (j + 1) (16 * j + runLength n j) t =
      fujiReadLoop device lba n env (j + 1) (16 * (j + 1)) t := by
    by_cases hfull : 16 * (j + 1) ≤ n
    · have hlen' : runLength n j = 16 := by
        unfold runLength fujiMultiSectors
        omega
      rw [hlen']
      rfl
    · have hend : 16 * j + runLength n j = n := by
        unfold runLength fujiMultiSectors
        omega
      rw [fujiReadLoop_done (by omega), fujiReadLoop_done (by omega)]
  have hwhole : ¬ min len (runBytes n j) ≠ runBytes n j := by
    intro hne
    exact hne (by omega)
  rw [fujiReadLoop, dif_pos h]
  dsimp only
  rw [transact_read, hack]
  dsimp only [Option.map_some]
  rw [List.length_map, List.length_range]
  exact (if_neg hwhole).trans (hgo _)

/-- From run `j` on, run `i` is asked for: every run before it was delivered. -/
def Asked (n : ℕ) (env : ℕ → ℕ → Attempt) (j i : ℕ) : Prop :=
  i < runsOf n ∧ ∀ k, j ≤ k → k < i → Delivered n env k

lemma Asked.next {j i : ℕ} (hd : Delivered n env j) :
    Asked n env (j + 1) i ↔ Asked n env j i := by
  constructor
  · rintro ⟨hrun, hbefore⟩
    refine ⟨hrun, fun k hk hki => ?_⟩
    rcases Nat.eq_or_lt_of_le hk with rfl | hk
    · exact hd
    · exact hbefore k hk hki
  · rintro ⟨hrun, hbefore⟩
    exact ⟨hrun, fun k hk hki => hbefore k (by omega) hki⟩

/-- The loop asks for the runs in order up to the first that is not delivered. -/
theorem fujiReadLoop_requests (device : Byte) (lba : ℕ) {m j : ℕ} (hm : j + m = runsOf n) (s : BlockRead) :
    ∃ k, (∀ i, j ≤ i → (i < j + k ↔ Asked n env j i)) ∧
      (fujiReadLoop device lba n env j (16 * j) s).disks = s.disks ∧
      (fujiReadLoop device lba n env j (16 * j) s).requests =
        s.requests ++ (List.range' j k).map (runOf lba n) ∧
      ((fujiReadLoop device lba n env j (16 * j) s).ok = true ↔
        ∀ i, j ≤ i → i < runsOf n → Delivered n env i) := by
  induction m generalizing j s with
  | zero =>
    have hdone : n ≤ 16 * j := by
      unfold runsOf at hm
      omega
    refine ⟨0, fun i hi => ?_, ?_⟩
    · exact ⟨fun h => by omega, fun h => by have := h.1; omega⟩
    · rw [fujiReadLoop_done hdone]
      exact ⟨rfl, by simp, fun _ i hi hrun => by omega, fun _ => rfl⟩
  | succ m ih =>
    have hgo : 16 * j < n := by
      unfold runsOf at hm
      omega
    by_cases hd : Delivered n env j
    · obtain ⟨len, hack, hlen⟩ := hd
      obtain ⟨k, hasked, hdisks, hrequests, hok⟩ := ih (j := j + 1) (by omega)
        { s with
          requests := s.requests ++ [runOf lba n j]
          buf := copied s.buf (runOf lba n j).offset (runBytes n j) (runAnswer device lba n j len s.disks) }
      rw [fujiReadLoop_next hgo hack hlen]
      refine ⟨k + 1, fun i hi => ?_, hdisks, ?_, ?_⟩
      · rcases Nat.eq_or_lt_of_le hi with rfl | hi
        · exact ⟨fun _ => ⟨by omega, fun _ h h' => by omega⟩, fun _ => by omega⟩
        · rw [← Asked.next ⟨len, hack, hlen⟩, ← hasked i hi]
          omega
      · rw [hrequests, List.range'_succ, List.map_cons, List.append_assoc]
        rfl
      · rw [hok]
        refine ⟨fun h i hi hrun => ?_, fun h i hi hrun => h i (by omega) hrun⟩
        rcases Nat.eq_or_lt_of_le hi with rfl | hi
        · exact ⟨len, hack, hlen⟩
        · exact h i hi hrun
    · obtain ⟨buf, hloop⟩ := fujiReadLoop_stop device lba hgo hd s
      rw [hloop]
      refine ⟨1, fun i hi => ?_, rfl, by simp, fun h => absurd h Bool.false_ne_true, fun h => ?_⟩
      · constructor
        · intro h
          exact ⟨by omega, fun k hk hki => by omega⟩
        · intro h
          by_contra hlt
          exact hd (h.2 j le_rfl (by omega))
      · exact absurd (h j le_rfl (by omega)) hd

/-- A stream seen from a later sector. -/
lemma Disks.stream_later (d : Disks) (device : Byte) (lba k : ℕ) {x : ℕ} (h : 512 * k ≤ x) :
    d.stream device (lba + k) (x - 512 * k) = d.stream device lba x := by
  have hdiv : lba + k + (x - 512 * k) / 512 = lba + x / 512 := by omega
  have hmod : (x - 512 * k) % 512 = x % 512 := by omega
  unfold stream
  simp only [hdiv, hmod]

/-- One delivered run fills its own part of the buffer. -/
lemma copied_run {j len : ℕ} (hlba : lba + 16 * j < 2 ^ 24) (hoff : 16 * j * fujiSectorSize < 2 ^ 32)
    (hlen : runBytes n j ≤ len) (buf : ℕ → Byte) (d : Disks) (x : ℕ) :
    copied buf (runOf lba n j).offset (runBytes n j) (runAnswer device lba n j len d) x =
      if 8192 * j ≤ x ∧ x < 8192 * j + runBytes n j then d.stream device lba x else buf x := by
  have hoffset : (runOf lba n j).offset = 8192 * j := by
    show 16 * j * fujiSectorSize % 2 ^ 32 = 8192 * j
    rw [Nat.mod_eq_of_lt hoff]
    unfold fujiSectorSize
    omega
  have hsector : runSector (runOf lba n j).param = lba + 16 * j :=
    (runSector_runParam _ _).trans (Nat.mod_eq_of_lt hlba)
  have hlength : (runAnswer device lba n j len d).length = len := by
    rw [runAnswer, List.length_map, List.length_range]
  unfold copied
  rw [hoffset, hlength, Nat.min_eq_right hlen]
  refine if_ctx_congr Iff.rfl (fun hx => ?_) fun _ => rfl
  have hget : (runAnswer device lba n j len d).getD (x - 8192 * j) 0 =
      d.stream device (lba + 16 * j) (x - 8192 * j) := by
    have hin : x - 8192 * j < len := by omega
    simp only [runAnswer, List.getD_eq_getElem?_getD, List.getElem?_map, List.getElem?_range hin,
      Option.map_some, Option.getD_some, hsector]
  have hlater := d.stream_later device lba (16 * j) (x := x) (by omega)
  rw [hget, ← hlater]
  congr 1
  omega

/-- A read whose runs are all delivered and all addressed right fills its buffer from the disk. -/
theorem fujiReadLoop_buf (device : Byte) {m j : ℕ} (hm : j + m = runsOf n) (s : BlockRead)
    (hd : ∀ i, j ≤ i → i < runsOf n → Delivered n env i)
    (hright : ∀ i, j ≤ i → i < runsOf n → lba + 16 * i < 2 ^ 24 ∧ 16 * i * fujiSectorSize < 2 ^ 32) (x : ℕ) :
    (fujiReadLoop device lba n env j (16 * j) s).buf x =
      if 8192 * j ≤ x ∧ x < 512 * n then s.disks.stream device lba x else s.buf x := by
  induction m generalizing j s with
  | zero =>
    have hdone : n ≤ 16 * j := by
      unfold runsOf at hm
      omega
    rw [fujiReadLoop_done hdone, if_neg (by omega)]
  | succ m ih =>
    have hgo : 16 * j < n := by
      unfold runsOf at hm
      omega
    obtain ⟨len, hack, hlen⟩ := hd j le_rfl (by omega)
    obtain ⟨hlba, hoff⟩ := hright j le_rfl (by omega)
    have hbytes : runBytes n j = min (512 * n - 8192 * j) 8192 := by
      unfold runBytes runLength fujiMultiSectors fujiSectorSize
      omega
    rw [fujiReadLoop_next hgo hack hlen, ih (by omega) _ (fun i hi => hd i (by omega))
      (fun i hi => hright i (by omega))]
    dsimp only
    rw [copied_run hlba hoff hlen]
    split
    next hx => rw [if_pos (by omega)]
    next hx =>
      split
      next hx' => rw [if_pos (by omega)]
      next hx' => rw [if_neg (by omega)]

lemma Disks.put_self (d : Disks) (device : Byte) (sector : ℕ) (data : Sector) :
    d.put device sector data device sector = data := by
  rw [put, Function.update_self, Function.update_self]

lemma Disks.put_other (d : Disks) {device other : Byte} {sector s : ℕ} (data : Sector)
    (h : other ≠ device ∨ s ≠ sector) : d.put device sector data other s = d other s := by
  unfold put
  by_cases hdev : other = device
  · rw [hdev, Function.update_self, Function.update_of_ne (h.resolve_left fun hne => hne hdev)]
  · rw [Function.update_of_ne hdev]

lemma window_getD (buf : ℕ → Byte) (start : ℕ) (i : Fin 512) :
    (window buf start).getD i 0 = buf (start + i) := by
  have hin : (i : ℕ) < fujiSectorSize := i.isLt
  simp only [window, List.getD_eq_getElem?_getD, List.getElem?_map, List.getElem?_range hin,
    Option.map_some, Option.getD_some]

lemma fujiPutSector_spec (device : Byte) (buf : ℕ → Byte) {s : ℕ} (hs : lba + s < 2 ^ 32) (attempts : ℕ → Attempt)
    (d : Disks) :
    let r := fujiPutSector device lba buf s attempts d
    let written := d.put device (lba + s) fun i => buf (s * fujiSectorSize % 2 ^ 32 + i)
    (r.1 = d ∨ r.1 = written) ∧ (r.2.isSome = true → r.1 = written) := by
  have hsector : (BitVec.ofNat 32 (lba + s)).toNat = lba + s := by
    rw [BitVec.toNat_ofNat]
    exact Nat.mod_eq_of_lt hs
  have hpayload : (window buf (s * fujiSectorSize % 2 ^ 32)).length ≤ 512 := by
    rw [window, List.length_map, List.length_range]
  have hput := transact_put device (BitVec.ofNat 32 (lba + s)) hpayload attempts d
  rw [hsector] at hput
  simp only [window_getD] at hput
  unfold fujiPutSector
  exact hput

lemma fujiWriteLoop_succ (buf : ℕ → Byte) (left : ℕ) (d : Disks) :
    fujiWriteLoop device lba buf n env (left + 1) d =
      match fujiPutSector device lba buf (n - (left + 1)) (env (n - (left + 1))) d with
      | (d, none) => (d, false)
      | (d, some _) => fujiWriteLoop device lba buf n env left d := rfl

/-- A write changes its own sectors only, and a complete one has put every sector. -/
theorem fujiWriteLoop_spec (device : Byte) (env : ℕ → ℕ → Attempt) (buf : ℕ → Byte) {left : ℕ}
    (hleft : left ≤ n) (hrange : lba + n < 2 ^ 32)
    (d : Disks) :
    (∀ other s, (other ≠ device ∨ s < lba + (n - left) ∨ lba + n ≤ s) →
      (fujiWriteLoop device lba buf n env left d).1 other s = d other s) ∧
    ((fujiWriteLoop device lba buf n env left d).2 = true → ∀ s, n - left ≤ s → s < n →
      ∀ i : Fin 512, (fujiWriteLoop device lba buf n env left d).1 device (lba + s) i =
        buf (s * fujiSectorSize % 2 ^ 32 + i)) := by
  induction left generalizing d with
  | zero => exact ⟨fun _ _ _ => rfl, fun _ s hs hn => by omega⟩
  | succ left ih =>
    have hfirst : lba + (n - (left + 1)) < 2 ^ 32 := by omega
    have hput := fujiPutSector_spec device buf hfirst (env (n - (left + 1))) d
    rw [fujiWriteLoop_succ]
    dsimp only at hput
    generalize fujiPutSector device lba buf (n - (left + 1)) (env (n - (left + 1))) d = r at hput
    obtain ⟨d', payload⟩ := r
    obtain ⟨hdisks, hacked⟩ := hput
    dsimp only at hdisks hacked
    have hframe (other : Byte) (s : ℕ) (h : other ≠ device ∨ s < lba + (n - (left + 1)) ∨ lba + n ≤ s) :
        d' other s = d other s := by
      rcases hdisks with rfl | rfl
      · rfl
      · exact d.put_other _ (h.imp_right fun h => by omega)
    cases payload with
    | none => exact ⟨hframe, fun h => absurd h Bool.false_ne_true⟩
    | some payload =>
      have hwritten := hacked rfl
      obtain ⟨hrest, hdone⟩ := ih (by omega) d'
      dsimp only
      refine ⟨fun other s h => ?_, fun hok s hs hn i => ?_⟩
      · rw [hrest other s (h.imp_right fun h => by omega), hframe other s h]
      · rcases Nat.eq_or_lt_of_le hs with rfl | hs
        · rw [hrest device _ (.inr (.inl (by omega))), hwritten, Disks.put_self]
        · exact hdone hok s (by omega) hn i

/-- The sectors the device reads for a request. -/
def RunRequest.sectors (q : RunRequest) : List ℕ := List.range' (runSector q.param) (runCount q.param)

/-- What is expected of a write from `data` and a read of the same range after it: the read gives
back what was written, nothing else was written, and the runs of the read cover the range once, in
order and each at its own place in the buffer, with no other length accepted than the wanted one. -/
structure BlockIo (device : Byte) (lba n : ℕ) (data : ℕ → Byte) (before : Disks) (w : Disks × Bool)
    (env : ℕ → ℕ → Attempt) (r : BlockRead) : Prop where
  readBack : w.2 = true → r.ok = true → ∀ x < 512 * n, r.buf x = data x
  confined : ∀ other s, (other ≠ device ∨ s < lba ∨ lba + n ≤ s) → w.1 other s = before other s
  runs : ∀ q ∈ r.requests, 1 ≤ runCount q.param ∧ runCount q.param ≤ fujiMultiSectors ∧
    lba ≤ runSector q.param ∧ q.offset = 512 * (runSector q.param - lba)
  order : r.requests.flatMap RunRequest.sectors <+: List.range' lba n
  whole : r.ok = true → r.requests.flatMap RunRequest.sectors = List.range' lba n
  lengths : r.ok = true → ∀ j < runsOf n, ackLength (env j) = some (runBytes n j)

lemma runLength_le (n j : ℕ) : runLength n j ≤ fujiMultiSectors := Nat.min_le_right _ _

lemma runOf_sectors (lba n j : ℕ) :
    (runOf lba n j).sectors = List.range' ((lba + 16 * j) % 2 ^ 24) (runLength n j) := by
  unfold RunRequest.sectors runOf
  rw [runSector_runParam, runCount_runParam (runLength_le n j)]

lemma runLength_full {j : ℕ} (h : j + 1 < runsOf n) : runLength n j = 16 := by
  unfold runsOf at h
  unfold runLength fujiMultiSectors
  omega

lemma runLength_pos {j : ℕ} (h : j < runsOf n) : 1 ≤ runLength n j := by
  unfold runsOf at h
  unfold runLength fujiMultiSectors
  omega

/-- Runs addressed right cover the range from its start. -/
lemma sectors_covered {k : ℕ} (hk : k ≤ runsOf n) (hright : ∀ j < k, lba + 16 * j < 2 ^ 24) :
    ((List.range' 0 k).map (runOf lba n)).flatMap RunRequest.sectors =
      List.range' lba (min n (16 * k)) := by
  induction k with
  | zero => simp
  | succ k ih =>
    have hsectors : (runOf lba n k).sectors = List.range' (lba + 16 * k) (runLength n k) := by
      rw [runOf_sectors, Nat.mod_eq_of_lt (hright k (by omega))]
    have hfirst : min n (16 * k) = 16 * k := by
      unfold runsOf at hk
      omega
    have htotal : min n (16 * (k + 1)) = 16 * k + runLength n k := by
      unfold runLength fujiMultiSectors
      omega
    rw [List.range'_concat, List.map_append, List.flatMap_append, ih (by omega) fun j hj => hright j (by omega),
      hfirst, htotal, ← List.range'_append_1]
    simp [hsectors]

/-- In a covering list every run starts where the runs before it end. -/
lemma sector_of_covering {k j : ℕ} (hk : k ≤ runsOf n) (hj : j < k)
    (hcover : ((List.range' 0 k).map (runOf lba n)).flatMap RunRequest.sectors <+: List.range' lba n) :
    (lba + 16 * j) % 2 ^ 24 = lba + 16 * j := by
  have hlength : ∀ i ≤ j, (((List.range' 0 i).map (runOf lba n)).flatMap RunRequest.sectors).length = 16 * i := by
    intro i hi
    induction i with
    | zero => rfl
    | succ i ih =>
      rw [List.range'_concat, List.map_append, List.flatMap_append, List.length_append, ih (by omega)]
      simp only [List.map_cons, List.map_nil, List.flatMap_cons, List.flatMap_nil, List.append_nil,
        runOf_sectors, List.length_range', Nat.zero_add, Nat.one_mul]
      rw [runLength_full (by omega)]
      omega
  have hsplit : List.range' 0 k = List.range' 0 j ++ j :: List.range' (j + 1) (k - (j + 1)) := by
    have hk' : k = j + (1 + (k - (j + 1))) := by omega
    conv_lhs => rw [hk', ← List.range'_append_1, Nat.add_comm 1, List.range'_succ]
    simp
  have hhead : (runOf lba n j).sectors =
      (lba + 16 * j) % 2 ^ 24 :: List.range' ((lba + 16 * j) % 2 ^ 24 + 1) (runLength n j - 1) := by
    have hpos := runLength_pos (n := n) (j := j) (by omega)
    rw [runOf_sectors, ← List.range'_succ]
    congr 1
    omega
  obtain ⟨rest, hrest⟩ := hcover
  rw [hsplit, List.map_append, List.flatMap_append, List.map_cons, List.flatMap_cons, hhead] at hrest
  have hget : _ = (List.range' lba n)[16 * j]? := congrArg (·[16 * j]?) hrest
  rw [List.append_assoc, List.getElem?_append_right (by rw [hlength j le_rfl]), hlength j le_rfl,
    Nat.sub_self] at hget
  have hin : 16 * j < n := by
    unfold runsOf at hk
    omega
  rw [List.getElem?_range' hin] at hget
  simp only [List.cons_append, List.getElem?_cons_zero, Option.some.injEq] at hget
  omega

/-- The run starts below sector 2^24 and below byte 2^32 of the buffer. -/
def RunInReach (lba j : ℕ) : Prop := lba + 16 * j < 2 ^ 24 ∧ 16 * j * fujiSectorSize < 2 ^ 32

/-- Every run that is asked for is in reach, and a read that gets through is not answered with more
than it wanted. -/
def ReadInReach (lba n : ℕ) (env : ℕ → ℕ → Attempt) : Prop :=
  (∀ j, Asked n env 0 j → RunInReach lba j) ∧
    ((∀ j < runsOf n, Delivered n env j) →
      ∀ j < runsOf n, ∀ len, ackLength (env j) = some len → len ≤ runBytes n j)

section

variable {data buf : ℕ → Byte} {before : Disks} {target : Byte} {writeEnv : ℕ → ℕ → Attempt}

lemma runs_in_reach {j : ℕ} (hj : j < runsOf n) (h : RunInReach lba j) :
    1 ≤ runCount (runOf lba n j).param ∧ runCount (runOf lba n j).param ≤ fujiMultiSectors ∧
      lba ≤ runSector (runOf lba n j).param ∧
      (runOf lba n j).offset = 512 * (runSector (runOf lba n j).param - lba) := by
  have hcount : runCount (runOf lba n j).param = runLength n j := runCount_runParam (runLength_le n j) _
  have hsector : runSector (runOf lba n j).param = lba + 16 * j :=
    (runSector_runParam _ _).trans (Nat.mod_eq_of_lt h.1)
  have hoffset : (runOf lba n j).offset = 16 * j * fujiSectorSize := Nat.mod_eq_of_lt h.2
  rw [hcount, hsector, hoffset]
  refine ⟨runLength_pos hj, runLength_le n j, Nat.le_add_right _ _, ?_⟩
  unfold fujiSectorSize
  omega

/-- A run below byte 2^32 keeps all its sectors below it. -/
lemma offset_of_run {s : ℕ} (h : 16 * (s / 16) * fujiSectorSize < 2 ^ 32) : s * fujiSectorSize < 2 ^ 32 := by
  have hs : s < 16 * (s / 16) + 16 := by omega
  have hrun : s / 16 < 2 ^ 19 := by
    have hmul : s / 16 * 8192 < 2 ^ 19 * 8192 := by
      calc s / 16 * 8192 = 16 * (s / 16) * 512 := by ring
        _ < 2 ^ 32 := h
        _ = 2 ^ 19 * 8192 := by norm_num
    exact Nat.lt_of_mul_lt_mul_right hmul
  have hs' : s < 2 ^ 23 := by omega
  calc s * 512 < 2 ^ 23 * 512 := Nat.mul_lt_mul_of_pos_right hs' (by norm_num)
    _ = 2 ^ 32 := by norm_num

/-- In reach a write and a read do what is expected of them. -/
lemma blockIo_of_inReach (hrange : lba + n < 2 ^ 32) (h : ReadInReach lba n env) :
    BlockIo (fujiDeviceidDisk + target) lba n data before (fujiWrite target lba data n writeEnv before) env
      (fujiRead target lba buf n env (fujiWrite target lba data n writeEnv before).1) := by
  obtain ⟨hreach, hlength⟩ := h
  set w := fujiWrite target lba data n writeEnv before with hw
  obtain ⟨hframe, hwritten⟩ := fujiWriteLoop_spec (fujiDeviceidDisk + target) writeEnv data (le_refl n)
    hrange before
  rw [Nat.sub_self, Nat.add_zero] at hframe
  have hm : 0 + runsOf n = runsOf n := Nat.zero_add _
  obtain ⟨k, hasked, _, hrequests, hok⟩ := fujiReadLoop_requests (fujiDeviceidDisk + target)
    lba hm ⟨w.1, buf, [], false⟩
  have hread : fujiRead target lba buf n env w.1 =
      fujiReadLoop (fujiDeviceidDisk + target) lba n env 0 (16 * 0) ⟨w.1, buf, [], false⟩ := rfl
  have hasked' {i : ℕ} (hi : i < k) : Asked n env 0 i := (hasked i (Nat.zero_le i)).mp (by omega)
  have hk : k ≤ runsOf n := by
    by_contra hlt
    have hlast := (hasked' (i := runsOf n) (by omega)).1
    omega
  have hcovered := sectors_covered hk fun j hj => (hreach j (hasked' hj)).1
  rw [← hread, List.nil_append] at hrequests
  rw [← hread] at hok
  have hdelivered (hr : (fujiRead target lba buf n env w.1).ok = true) (j : ℕ) (hj : j < runsOf n) :
      Delivered n env j := hok.mp hr j (Nat.zero_le j) hj
  have hall (hr : (fujiRead target lba buf n env w.1).ok = true) (j : ℕ) (hj : j < runsOf n) :
      RunInReach lba j := hreach j ⟨hj, fun i _ hi => hdelivered hr i (by omega)⟩
  refine ⟨fun hwok hr x hx => ?_, hframe, fun q hq => ?_, ?_, fun hr => ?_, fun hr j hj => ?_⟩
  · have hbuf := fujiReadLoop_buf (fujiDeviceidDisk + target) hm ⟨w.1, buf, [], false⟩
      (fun i _ hi => hdelivered hr i hi) (fun i _ hi => hall hr i hi) x
    have hsector : x / 512 < n := by omega
    have hsmall : x / 512 * fujiSectorSize < 2 ^ 32 := by
      have hlast := (hall hr (x / 512 / 16) (by unfold runsOf; omega)).2
      exact offset_of_run hlast
    rw [hread, hbuf, if_pos ⟨by omega, hx⟩]
    have hstored := hwritten hwok (x / 512) (by omega) hsector ⟨x % 512, Nat.mod_lt x (by decide)⟩
    refine hstored.trans ?_
    rw [Nat.mod_eq_of_lt hsmall]
    congr 1
    unfold fujiSectorSize
    dsimp only
    omega
  · rw [hrequests] at hq
    obtain ⟨i, hi, rfl⟩ := List.mem_map.mp hq
    have hik : i < k := by
      have := (List.mem_range'_1.mp hi).2
      omega
    exact runs_in_reach (hasked' hik).1 (hreach i (hasked' hik))
  · rw [hrequests, hcovered]
    refine ⟨List.range' (lba + min n (16 * k)) (n - min n (16 * k)), ?_⟩
    rw [List.range'_append_1]
    congr 1
    omega
  · have hlast : runsOf n ≤ k := by
      by_contra hlt
      have hmore := (hasked k (Nat.zero_le k)).mpr ⟨by omega, fun i _ hi => hdelivered hr i (by omega)⟩
      omega
    rw [hrequests, hcovered]
    congr 1
    unfold runsOf at hlast
    omega
  · obtain ⟨len, hack, hlen⟩ := hdelivered hr j hj
    have hle := hlength (hdelivered hr) j hj len hack
    rw [hack]
    exact congrArg some (by omega)

/-- Out of reach they do not. -/
lemma inReach_of_blockIo {w : Disks × Bool}
    (h : BlockIo (fujiDeviceidDisk + target) lba n data before w env (fujiRead target lba buf n env w.1)) :
    ReadInReach lba n env := by
  have hm : 0 + runsOf n = runsOf n := Nat.zero_add _
  obtain ⟨k, hasked, _, hrequests, hok⟩ := fujiReadLoop_requests (fujiDeviceidDisk + target)
    lba hm ⟨w.1, buf, [], false⟩
  have hread : fujiRead target lba buf n env w.1 =
      fujiReadLoop (fujiDeviceidDisk + target) lba n env 0 (16 * 0) ⟨w.1, buf, [], false⟩ := rfl
  rw [← hread, List.nil_append] at hrequests
  rw [← hread] at hok
  have hk : k ≤ runsOf n := by
    by_contra hlt
    have hlast := ((hasked (runsOf n) (Nat.zero_le _)).mp (by omega)).1
    omega
  have horder := h.order
  rw [hrequests] at horder
  refine ⟨fun j hj => ?_, fun hd j hj len hack => ?_⟩
  · have hjk : j < k := by
      have := (hasked j (Nat.zero_le j)).mpr hj
      omega
    have hsector := sector_of_covering hk hjk horder
    have hmem : runOf lba n j ∈ (fujiRead target lba buf n env w.1).requests := by
      rw [hrequests]
      exact List.mem_map_of_mem (List.mem_range'_1.mpr ⟨Nat.zero_le j, by omega⟩)
    obtain ⟨_, _, _, hoffset⟩ := h.runs _ hmem
    have hsector' : runSector (runOf lba n j).param = lba + 16 * j := (runSector_runParam _ _).trans hsector
    have hoffset' : 16 * j * fujiSectorSize % 2 ^ 32 = 512 * (lba + 16 * j - lba) := by
      rw [← hsector']
      exact hoffset
    refine ⟨by omega, ?_⟩
    unfold fujiSectorSize at hoffset' ⊢
    omega
  · have hlen := h.lengths (hok.mpr fun i _ hi => hd i hi) j hj
    rw [hack] at hlen
    exact (Option.some.inj hlen).le

/-- A write followed by a read of the same range behaves as expected exactly when every run that is
asked for starts below sector 2^24 (and below byte 2^32 of the buffer) and no answer is too long. -/
theorem blockIo_iff (target : Byte) (data buf : ℕ → Byte) (writeEnv readEnv : ℕ → ℕ → Attempt)
    (before : Disks) (hrange : lba + n < 2 ^ 32) :
    BlockIo (fujiDeviceidDisk + target) lba n data before (fujiWrite target lba data n writeEnv before)
        readEnv (fujiRead target lba buf n readEnv (fujiWrite target lba data n writeEnv before).1) ↔
      ReadInReach lba n readEnv :=
  ⟨inReach_of_blockIo, blockIo_of_inReach hrange⟩

/-- A device that answers every request at once with the wanted length. -/
def prompt : ℕ → ℕ → Attempt := fun _ _ => .acked 512

/-- Disks of zeros. -/
def blankDisks : Disks := fun _ _ _ => 0

/-- A device that misses the first attempt of every run and answers the second. -/
def hesitant (n : ℕ) : ℕ → ℕ → Attempt
  | _, 0 => .unheard false
  | j, _ + 1 => .acked (runBytes n j)

/-- Forty sectors, read in runs of 16, 16 and 8. -/
theorem blockIo_iff_threeRuns :
    BlockIo (fujiDeviceidDisk + 0) 5 40 (fun i => BitVec.ofNat 8 i) blankDisks
      (fujiWrite 0 5 (fun i => BitVec.ofNat 8 i) 40 prompt blankDisks) (hesitant 40)
      (fujiRead 0 5 (fun _ => 0) 40 (hesitant 40)
        (fujiWrite 0 5 (fun i => BitVec.ofNat 8 i) 40 prompt blankDisks).1) := by
  have hruns : runsOf 40 = 3 := by decide
  refine (blockIo_iff 0 _ (fun _ => 0) prompt (hesitant 40) blankDisks (by decide)).mpr ⟨?_, ?_⟩
  · intro j hj
    have hlt : j < 3 := hruns ▸ hj.1
    interval_cases j <;> exact ⟨by decide, by decide⟩
  · intro _ j hj len hack
    rw [hruns] at hj
    have hlen : runBytes 40 j = len := Option.some.inj hack
    exact hlen.ge

/-- One sector beyond the first 2^24: the read asks for sector 0. -/
theorem blockIo_wrongSector :
    ¬ BlockIo (fujiDeviceidDisk + 0) (2 ^ 24) 1 (fun _ => 0xE5) (fun _ _ _ => 0)
      (fujiWrite 0 (2 ^ 24) (fun _ => 0xE5) 1 prompt fun _ _ _ => 0) prompt
      (fujiRead 0 (2 ^ 24) (fun _ => 0) 1 prompt
        (fujiWrite 0 (2 ^ 24) (fun _ => 0xE5) 1 prompt fun _ _ _ => 0).1) := by
  intro h
  have hasked : Asked 1 prompt 0 0 := ⟨by decide, fun k _ hk => absurd hk (Nat.not_lt_zero k)⟩
  have hreach := ((inReach_of_blockIo h).1 0 hasked).1
  exact absurd hreach (by decide)

end

end PicoV9k.FujiBus
