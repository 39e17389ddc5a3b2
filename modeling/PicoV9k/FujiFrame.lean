import PicoV9k.ByteStuffing
import PicoV9k.DmaRegisters

/-!
# FujiBus frames

`fuji_proto.c`: SLIP framing, the six-byte header with its length and checksum, and
the parameter descriptors. Whatever the builders emit is parsed back into the same
device, command, parameters and payload.
-/
namespace PicoV9k.FujiBus
open PicoV9k.Bus PicoV9k.Framing

abbrev fujiSlipEnd : Byte := 0xC0
abbrev fujiSlipEsc : Byte := 0xDB
abbrev fujiSlipEscEnd : Byte := 0xDC
abbrev fujiSlipEscEsc : Byte := 0xDD

abbrev fujiPathLen : ℕ := 256
abbrev fujiSectorSize : ℕ := 512
abbrev fujiMultiSectors : ℕ := 16
abbrev fujiHeaderLen : ℕ := 6
abbrev fujiDecMax : ℕ := fujiHeaderLen + 4 + fujiMultiSectors * fujiSectorSize
abbrev fujiEncMax : ℕ := fujiDecMax * 2 + 2

/-- The scratch buffer of `fuji_build_frame_u8`. -/
abbrev fujiDecU8 : ℕ := fujiHeaderLen + 4 + fujiPathLen

/-- The loop of `fuji_slip_encode`; a byte string stands for the buffer up to the returned
length, so the empty one for the return value 0. -/
def slipEncodeLoop (cap : ℕ) : List Byte → List Byte → List Byte
  | [], out => if cap < out.length + 1 then [] else out ++ [fujiSlipEnd]
  | v :: input, out =>
    if v = fujiSlipEnd ∨ v = fujiSlipEsc then
      if cap < out.length + 2 then []
      else slipEncodeLoop cap input
        (out ++ [fujiSlipEsc, if v = fujiSlipEnd then fujiSlipEscEnd else fujiSlipEscEsc])
    else if cap < out.length + 1 then []
    else slipEncodeLoop cap input (out ++ [v])

def fujiSlipEncode (input : List Byte) (cap : ℕ) : List Byte :=
  if cap < 2 then [] else slipEncodeLoop cap input [fujiSlipEnd]

/-- The loop of `fuji_slip_decode` behind the opening END; a malformed escape is ignored. -/
def slipDecodeLoop (cap : ℕ) : List Byte → List Byte → List Byte
  | [], _ => []
  | v :: input, out =>
    if v = fujiSlipEnd then out
    else if v = fujiSlipEsc then
      match input with
      | [] => []
      | w :: input =>
        if w = fujiSlipEscEnd then
          if cap ≤ out.length then [] else slipDecodeLoop cap input (out ++ [fujiSlipEnd])
        else if w = fujiSlipEscEsc then
          if cap ≤ out.length then [] else slipDecodeLoop cap input (out ++ [fujiSlipEsc])
        else slipDecodeLoop cap input out
    else if cap ≤ out.length then []
    else slipDecodeLoop cap input (out ++ [v])

def fujiSlipDecode (input : List Byte) (cap : ℕ) : List Byte :=
  match input.dropWhile (· ≠ fujiSlipEnd) with
  | [] => []
  | _ :: input => slipDecodeLoop cap input []

/-- The stuffing scheme of SLIP. -/
def slip : Stuffing Byte where
  stop := fujiSlipEnd
  escape := fujiSlipEsc
  stopCode := fujiSlipEscEnd
  escapeCode := fujiSlipEscEsc
  escape_ne := by decide
  code_ne := by decide

/-- A packet between its two delimiters. -/
def slipFrame (packet : List Byte) : List Byte := fujiSlipEnd :: (slip.encode packet ++ [fujiSlipEnd])

lemma slipFrame_length (packet : List Byte) :
    (slipFrame packet).length = (slip.encode packet).length + 2 := by
  simp [slipFrame]

lemma slipEncodeLoop_eq (cap : ℕ) (input out : List Byte) :
    slipEncodeLoop cap input out =
      if cap < out.length + (slip.encode input).length + 1 then []
      else out ++ slip.encode input ++ [fujiSlipEnd] := by
  induction input generalizing out with
  | nil => simp [slipEncodeLoop]
  | cons v input ih =>
    rw [Stuffing.encode_cons, List.length_append]
    unfold slipEncodeLoop
    by_cases hv : v = fujiSlipEnd ∨ v = fujiSlipEsc
    · have hcode : slip.encodeByte v =
          [fujiSlipEsc, if v = fujiSlipEnd then fujiSlipEscEnd else fujiSlipEscEsc] := by
        rcases hv with rfl | rfl <;> rfl
      rw [if_pos hv, ih, hcode]
      split
      next h => rw [if_pos (by simp only [List.length_cons, List.length_nil]; omega)]
      next h =>
        simp only [List.length_append, List.length_cons, List.length_nil, List.append_assoc]
        exact if_congr (by omega) rfl rfl
    · have hcode : slip.encodeByte v = [v] := by
        obtain ⟨hs, he⟩ := not_or.mp hv
        exact (if_neg hs).trans (if_neg he)
      rw [if_neg hv, ih, hcode]
      split
      next h => rw [if_pos (by simp only [List.length_cons, List.length_nil]; omega)]
      next h =>
        simp only [List.length_append, List.length_cons, List.length_nil, List.append_assoc]
        exact if_congr (by omega) rfl rfl

/-- Encoding succeeds exactly when the frame fits. -/
theorem fujiSlipEncode_eq (packet : List Byte) (cap : ℕ) :
    fujiSlipEncode packet cap = if cap < (slipFrame packet).length then [] else slipFrame packet := by
  unfold fujiSlipEncode
  rw [slipFrame_length]
  split
  next h => rw [if_pos (by omega)]
  next h =>
    rw [slipEncodeLoop_eq]
    simp only [List.length_cons, List.length_nil]
    exact if_congr (by omega) rfl rfl

/-- What was decoded behind `out`, if the buffer can hold it. -/
def decodedInto (cap : ℕ) (out : List Byte) : Option (List Byte) → List Byte
  | none => []
  | some l => if cap < out.length + l.length then [] else out ++ l

lemma decodedInto_map (cap : ℕ) (out new : List Byte) (r : Option (List Byte)) :
    decodedInto cap out (r.map (new ++ ·)) =
      if cap < out.length + new.length then [] else decodedInto cap (out ++ new) r := by
  cases r with
  | none => exact (ite_self _).symm
  | some l =>
    simp only [Option.map_some, decodedInto, List.length_append]
    split
    next h =>
      split
      · rfl
      · rw [if_pos (by omega)]
    next h => rw [if_neg (by omega), if_neg (by omega), List.append_assoc]

lemma decodedInto_byte (cap : ℕ) (out : List Byte) (v : Byte) (r : Option (List Byte)) :
    decodedInto cap out (r.map (v :: ·)) =
      if cap ≤ out.length then [] else decodedInto cap (out ++ [v]) r := by
  have h := decodedInto_map cap out [v] r
  exact h.trans (if_congr (by simp only [List.length_singleton]; omega) rfl rfl)

lemma slip_decode_end (input : List Byte) : slip.decode (fujiSlipEsc :: fujiSlipEscEnd :: input) =
    (slip.decode input).map (fujiSlipEnd :: ·) := slip.decode_escape _ input

lemma slip_decode_esc (input : List Byte) : slip.decode (fujiSlipEsc :: fujiSlipEscEsc :: input) =
    (slip.decode input).map (fujiSlipEsc :: ·) := slip.decode_escape _ input

lemma slip_decode_malformed {w : Byte} (hend : w ≠ fujiSlipEscEnd) (hesc : w ≠ fujiSlipEscEsc)
    (input : List Byte) : slip.decode (fujiSlipEsc :: w :: input) = slip.decode input := by
  have hcode : slip.decodeCode w = [] := (if_neg hend).trans (if_neg hesc)
  have h := slip.decode_escape w input
  rw [hcode] at h
  exact h.trans Option.map_id'

/-- The loop keeps what the scheme decodes. -/
lemma slipDecodeLoop_eq (cap : ℕ) (input out : List Byte) (hout : out.length ≤ cap) :
    slipDecodeLoop cap input out = decodedInto cap out (slip.decode input) := by
  have hroom {v : Byte} {out : List Byte} (h : ¬ cap ≤ out.length) : (out ++ [v]).length ≤ cap := by
    simp only [List.length_append, List.length_singleton]
    omega
  fun_induction slipDecodeLoop cap input out with
  | case1 => rfl
  | case2 input out =>
    have h : slip.decode (fujiSlipEnd :: input) = some [] := slip.decode_stop input
    rw [h, decodedInto, if_neg (by simpa using hout), List.append_nil]
  | case3 => rfl
  | case4 out input hfull hne =>
    rw [slip_decode_end, decodedInto_byte, if_pos hfull]
  | case5 out input hfull hne ih =>
    rw [slip_decode_end, decodedInto_byte, if_neg hfull]
    exact ih (hroom hfull)
  | case6 out input hfull hne hne' =>
    rw [slip_decode_esc, decodedInto_byte, if_pos hfull]
  | case7 out input hfull hne hne' ih =>
    rw [slip_decode_esc, decodedInto_byte, if_neg hfull]
    exact ih (hroom hfull)
  | case8 out w input hend hesc hne ih =>
    rw [slip_decode_malformed hend hesc]
    exact ih hout
  | case9 v input out hend hesc hfull =>
    have h := slip.decode_plain hend hesc input
    rw [h, decodedInto_byte, if_pos hfull]
  | case10 v input out hend hesc hfull ih =>
    have h := slip.decode_plain hend hesc input
    rw [h, decodedInto_byte, if_neg hfull]
    exact ih (hroom hfull)

/-- Decoding finds the frame behind whatever holds no END, and reads no further. -/
lemma fujiSlipDecode_found {pre : List Byte} (hpre : fujiSlipEnd ∉ pre) (packet post : List Byte) {cap : ℕ}
    (h : packet.length ≤ cap) : fujiSlipDecode (pre ++ slipFrame packet ++ post) cap = packet := by
  have hskip : (pre ++ slipFrame packet ++ post).dropWhile (· ≠ fujiSlipEnd) =
      fujiSlipEnd :: (slip.encode packet ++ fujiSlipEnd :: post) := by
    have hall : ∀ b ∈ pre, decide (b ≠ fujiSlipEnd) = true := by
      intro b hb
      exact decide_eq_true fun heq => hpre (heq ▸ hb)
    rw [List.append_assoc, List.dropWhile_append_of_pos hall]
    simp [slipFrame]
  have hdecode : slip.decode (slip.encode packet ++ fujiSlipEnd :: post) = some packet :=
    slip.decode_encode packet post
  unfold fujiSlipDecode
  rw [hskip]
  show slipDecodeLoop cap (slip.encode packet ++ fujiSlipEnd :: post) [] = packet
  rw [slipDecodeLoop_eq _ _ _ (Nat.zero_le cap), hdecode, decodedInto]
  exact if_neg (by simpa using h)

theorem fujiSlipDecode_frame (packet : List Byte) {cap : ℕ} (h : packet.length ≤ cap) :
    fujiSlipDecode (slipFrame packet) cap = packet := by
  have hfound := fujiSlipDecode_found List.not_mem_nil packet [] h
  rwa [List.nil_append, List.append_nil] at hfound

/-- The size of an encoding, its delimiters, and that it is found again in the middle of other
traffic. -/
theorem fujiSlip_resync (x : List Byte) (cap : ℕ) :
    ((fujiSlipEncode x cap).length =
      if 2 + x.length + (x.count fujiSlipEnd + x.count fujiSlipEsc) ≤ cap then
        2 + x.length + (x.count fujiSlipEnd + x.count fujiSlipEsc) else 0) ∧
    (fujiSlipEncode x cap ≠ [] → ∃ interior, fujiSlipEncode x cap = fujiSlipEnd :: (interior ++ [fujiSlipEnd]) ∧
      fujiSlipEnd ∉ interior) ∧
    (1 ≤ x.length → fujiSlipEncode x cap ≠ [] → ∀ (pre post : List Byte) (room : ℕ), fujiSlipEnd ∉ pre →
      x.length ≤ room → fujiSlipDecode (pre ++ fujiSlipEncode x cap ++ post) room = x) := by
  have hlen : (slipFrame x).length = 2 + x.length + (x.count fujiSlipEnd + x.count fujiSlipEsc) := by
    have hencode := slip.encode_length x
    have hstop : slip.stop = fujiSlipEnd := rfl
    have hescape : slip.escape = fujiSlipEsc := rfl
    rw [hstop, hescape] at hencode
    rw [slipFrame_length, hencode]
    omega
  have hencoded (hne : fujiSlipEncode x cap ≠ []) : fujiSlipEncode x cap = slipFrame x := by
    rw [fujiSlipEncode_eq] at hne ⊢
    split at hne
    · exact absurd rfl hne
    next hfits => rw [if_neg hfits]
  refine ⟨?_, fun hne => ⟨slip.encode x, hencoded hne, ?_⟩, fun _ hne pre post room hpre hroom => ?_⟩
  · rw [fujiSlipEncode_eq, ← hlen]
    split
    next h => rw [if_neg (by omega), List.length_nil]
    next h => rw [if_pos (by omega)]
  · exact slip.stop_notMem_encode (by decide) (by decide) x
  · rw [hencoded hne]
    exact fujiSlipDecode_found hpre x post hroom

/-- A frame with both escapes between a torn frame and the next one. -/
theorem fujiSlip_resync_shared :
    (fujiSlipEncode [0xC0, 0x01, 0xDB] 7).length = 7 ∧
      (∃ interior, fujiSlipEncode [0xC0, 0x01, 0xDB] 7 = fujiSlipEnd :: (interior ++ [fujiSlipEnd]) ∧
        fujiSlipEnd ∉ interior) ∧
      fujiSlipDecode ([0x55, 0xDC] ++ fujiSlipEncode [0xC0, 0x01, 0xDB] 7 ++ [0xC0, 0x02]) 3 =
        [0xC0, 0x01, 0xDB] := by
  obtain ⟨hlen, hinterior, hdecode⟩ := fujiSlip_resync [0xC0, 0x01, 0xDB] 7
  have hne : fujiSlipEncode [0xC0, 0x01, 0xDB] 7 ≠ [] := by decide
  exact ⟨hlen.trans (by decide), hinterior hne,
    hdecode (by decide) hne [0x55, 0xDC] [0xC0, 0x02] 3 (by decide) (by decide)⟩

/-- One round of `fuji_checksum`: the sixteen-bit sum with its carry folded back. -/
def foldCarry (chk : BitVec 16) (b : Byte) : BitVec 16 :=
  let chk := chk + b.setWidth 16
  (chk >>> 8) + (chk &&& 0xFF)

def fujiChecksum (buf : List Byte) : Byte := (buf.foldl foldCarry 0).setWidth 8

/-- `fuji_finish` on the packet so far, whose length and checksum are not stamped yet. -/
def fujiFinish (dec : List Byte) (deccap : ℕ) (payload : List Byte) (cap : ℕ) : List Byte :=
  if payload ≠ [] ∧ deccap < dec.length + payload.length then []
  else
    let dec := dec ++ payload
    let n := dec.length
    let dec := (dec.set 2 (BitVec.ofNat 8 n)).set 3 (BitVec.ofNat 8 (n / 2 ^ 8))
    let dec := dec.set 4 (fujiChecksum dec)
    fujiSlipEncode dec cap

/-- A 32-bit parameter, low byte first. -/
def paramBytes (param : BitVec 32) : List Byte :=
  [param.setWidth 8, (param >>> 8).setWidth 8, (param >>> 16).setWidth 8, (param >>> 24).setWidth 8]

def fujiBuildFrame (device command : Byte) (param : Option (BitVec 32)) (payload : List Byte)
    (cap : ℕ) : List Byte :=
  match param with
  | some param => fujiFinish ([device, command, 0, 0, 0, 0x07] ++ paramBytes param) fujiDecMax payload cap
  | none => fujiFinish [device, command, 0, 0, 0, 0x00] fujiDecMax payload cap

def fujiBuildFrameU8 (device command : Byte) (params payload : List Byte) (cap : ℕ) : List Byte :=
  if params.length < 1 ∨ 4 < params.length then []
  else
    let dec := [device, command, 0, 0, 0, BitVec.ofNat 8 params.length] ++ params
    fujiFinish dec fujiDecU8 payload cap

def kFieldSize : List ℕ := [0, 1, 1, 1, 1, 2, 2, 4]
def kFieldCount : List ℕ := [0, 1, 2, 3, 4, 1, 2, 1]

structure FujiFrame where
  device : Byte
  command : Byte
  params : List (BitVec 32)
  payload : List Byte
  deriving DecidableEq

/-- Descriptors follow while bit 7 is set; `nd` of at most eight are stored. -/
def readDescriptors (nd : ℕ) (dsc : Byte) : List Byte → Option (List Byte × List Byte)
  | [] => if hasBit dsc 0x80 then none else some ([dsc], [])
  | next :: rest =>
    if hasBit dsc 0x80 then
      if nd < 8 then (readDescriptors (nd + 1) next rest).map fun r => (dsc :: r.1, r.2) else none
    else some ([dsc], next :: rest)

def shiftedByte (b : Byte) (k : ℕ) : BitVec 32 := b.setWidth 32 <<< (8 * k)

/-- The bytes of a field, low byte first. -/
def fieldValue (bytes : List Byte) : BitVec 32 :=
  bytes.zipIdx.foldl (fun v b => v ||| shiftedByte b.1 b.2) 0

/-- `count` fields of `size` bytes; at most four values are kept. -/
def readFields (size : ℕ) : ℕ → List (BitVec 32) → List Byte → Option (List (BitVec 32) × List Byte)
  | 0, params, rest => some (params, rest)
  | count + 1, params, rest =>
    if rest.length < size then none
    else
      let v := fieldValue (rest.take size)
      readFields size count (if params.length < 4 then params ++ [v] else params) (rest.drop size)

def readParams : List Byte → List (BitVec 32) → List Byte → Option (List (BitVec 32) × List Byte)
  | [], params, rest => some (params, rest)
  | dsc :: descrs, params, rest =>
    let fd := (dsc &&& 0x07).toNat
    match readFields (kFieldSize.getD fd 0) (kFieldCount.getD fd 0) params rest with
    | none => none
    | some (params, rest) => readParams descrs params rest

def fujiParseFrame (input : List Byte) (scap : ℕ) : Option FujiFrame :=
  let scratch := fujiSlipDecode input scap
  match scratch with
  | device :: command :: low :: high :: ck1 :: dsc :: rest =>
    if low.toNat + 2 ^ 8 * high.toNat ≠ scratch.length then none
    else if fujiChecksum (device :: command :: low :: high :: 0 :: dsc :: rest) ≠ ck1 then none
    else do
      let (descrs, rest) ← readDescriptors 1 dsc rest
      let (params, payload) ← readParams descrs [] rest
      some ⟨device, command, params, payload⟩
  | _ => none

/-- The stamped packet with its parameters and payload as `body`. -/
def packet (device command dsc : Byte) (body : List Byte) : List Byte :=
  let n := fujiHeaderLen + body.length
  let low := BitVec.ofNat 8 n
  let high := BitVec.ofNat 8 (n / 2 ^ 8)
  device :: command :: low :: high ::
    fujiChecksum (device :: command :: low :: high :: 0 :: dsc :: body) :: dsc :: body

lemma packet_length (device command dsc : Byte) (body : List Byte) :
    (packet device command dsc body).length = fujiHeaderLen + body.length := by
  simp only [packet, List.length_cons, fujiHeaderLen]
  omega

lemma fujiFinish_eq (device command dsc : Byte) (params payload : List Byte) (deccap cap : ℕ) :
    fujiFinish ([device, command, 0, 0, 0, dsc] ++ params) deccap payload cap =
      if payload ≠ [] ∧ deccap < fujiHeaderLen + params.length + payload.length ∨
        cap < (slipFrame (packet device command dsc (params ++ payload))).length then []
      else slipFrame (packet device command dsc (params ++ payload)) := by
  have hlen : ([device, command, 0, 0, 0, dsc] ++ params).length = fujiHeaderLen + params.length :=
    List.length_append
  have htotal : (([device, command, 0, 0, 0, dsc] ++ params) ++ payload).length =
      fujiHeaderLen + (params ++ payload).length := by
    rw [List.append_assoc]
    exact List.length_append
  have hstamped : ∀ n : ℕ, n = fujiHeaderLen + (params ++ payload).length →
      (let dec := ((([device, command, 0, 0, 0, dsc] ++ params) ++ payload).set 2
        (BitVec.ofNat 8 n)).set 3 (BitVec.ofNat 8 (n / 2 ^ 8))
       dec.set 4 (fujiChecksum dec)) = packet device command dsc (params ++ payload) := by
    rintro n rfl
    rw [List.append_assoc]
    rfl
  unfold fujiFinish
  rw [hlen]
  by_cases hfull : payload ≠ [] ∧ deccap < fujiHeaderLen + params.length + payload.length
  · rw [if_pos hfull, if_pos (.inl hfull)]
  · rw [if_neg hfull]
    dsimp only
    rw [hstamped _ htotal, fujiSlipEncode_eq]
    exact if_congr (by simp only [hfull, false_or]) rfl rfl

lemma stampedLength {n : ℕ} (h : n < 2 ^ 16) :
    (BitVec.ofNat 8 n).toNat + 2 ^ 8 * (BitVec.ofNat 8 (n / 2 ^ 8)).toNat = n := by
  simp only [BitVec.toNat_ofNat]
  omega

/-- A packet passes the length and checksum tests. -/
lemma fujiParseFrame_packet {device command dsc : Byte} {body : List Byte} {scap : ℕ}
    (hcap : fujiHeaderLen + body.length ≤ scap) (hlen : fujiHeaderLen + body.length < 2 ^ 16)
    (hlast : hasBit dsc 0x80 = false) :
    fujiParseFrame (slipFrame (packet device command dsc body)) scap =
      (readParams [dsc] [] body).map fun r => ⟨device, command, r.1, r.2⟩ := by
  have hdecode := fujiSlipDecode_frame (packet device command dsc body)
    (packet_length device command dsc body ▸ hcap)
  have hdescr : readDescriptors 1 dsc body = some ([dsc], body) := by
    have hclear : ¬ hasBit dsc 0x80 = true := Bool.eq_false_iff.mp hlast
    cases body with
    | nil => exact if_neg hclear
    | cons next rest => exact if_neg hclear
  have hstamp := stampedLength hlen
  have hn := packet_length device command dsc body
  unfold fujiParseFrame
  rw [hdecode]
  simp only [packet] at hn ⊢
  rw [if_neg (by rw [hn, hstamp]; exact fun h => h rfl), if_neg (fun h => h rfl), hdescr]
  show (readParams [dsc] [] body).bind _ = _
  cases readParams [dsc] [] body <;> rfl

lemma fieldValue_paramBytes (param : BitVec 32) : fieldValue (paramBytes param) = param := by
  have hbytes : fieldValue (paramBytes param) = 0 ||| shiftedByte (param.setWidth 8) 0 |||
      shiftedByte ((param >>> 8).setWidth 8) 1 ||| shiftedByte ((param >>> 16).setWidth 8) 2 |||
      shiftedByte ((param >>> 24).setWidth 8) 3 := rfl
  rw [hbytes]
  apply BitVec.eq_of_getLsbD_eq
  intro i hi
  simp only [shiftedByte, BitVec.getLsbD_or, BitVec.getLsbD_shiftLeft, BitVec.getLsbD_setWidth,
    BitVec.getLsbD_ushiftRight]
  interval_cases i <;> simp

lemma fieldValue_byte (b : Byte) : fieldValue [b] = b.setWidth 32 := by
  have hbyte : fieldValue [b] = 0#32 ||| b.setWidth 32 <<< 0 := rfl
  rw [hbyte, BitVec.shiftLeft_zero, BitVec.zero_or]

/-- As many byte fields as there are parameters, up to the four that are kept. -/
lemma readFields_bytes (params payload : List Byte) (kept : List (BitVec 32))
    (h : kept.length + params.length ≤ 4) :
    readFields 1 params.length kept (params ++ payload) =
      some (kept ++ params.map (·.setWidth 32), payload) := by
  induction params generalizing kept with
  | nil => simp [readFields]
  | cons b params ih =>
    rw [List.length_cons] at h
    have hroom : kept.length < 4 := by omega
    have hkept : (kept ++ [b.setWidth 32]).length + params.length ≤ 4 := by
      simp only [List.length_append, List.length_singleton]
      omega
    have hvalue : fieldValue ((b :: params ++ payload).take 1) = b.setWidth 32 := fieldValue_byte b
    rw [List.length_cons, readFields, if_neg (by simp)]
    dsimp only
    rw [if_pos hroom, hvalue]
    have hrest := ih _ hkept
    simpa using hrest

/-- The descriptor and the bytes of the optional parameter. -/
def paramDescriptor : Option (BitVec 32) → Byte
  | some _ => 0x07
  | none => 0x00

def paramField : Option (BitVec 32) → List Byte
  | some param => paramBytes param
  | none => []

lemma paramDescriptor_last (param : Option (BitVec 32)) : hasBit (paramDescriptor param) 0x80 = false := by
  have hcodes : hasBit 0x07 0x80 = false ∧ hasBit 0x00 0x80 = false := by decide
  cases param with
  | some _ => exact hcodes.1
  | none => exact hcodes.2

lemma readParams_param (param : Option (BitVec 32)) (payload : List Byte) :
    readParams [paramDescriptor param] [] (paramField param ++ payload) = some (param.toList, payload) := by
  cases param with
  | none => rfl
  | some param =>
    have hvalue := fieldValue_paramBytes param
    have hread : readFields 4 1 [] (paramBytes param ++ payload) =
        some ([fieldValue (paramBytes param)], payload) := rfl
    rw [hvalue] at hread
    have hfield : ((0x07 : Byte) &&& 0x07).toNat = 7 ∧ kFieldSize.getD 7 0 = 4 ∧
        kFieldCount.getD 7 0 = 1 := by decide
    obtain ⟨hfd, hsize, hcount⟩ := hfield
    unfold readParams
    dsimp only [paramDescriptor, paramField]
    rw [hfd, hsize, hcount, hread]
    rfl

lemma readParams_bytes {params : List Byte} (hlow : 1 ≤ params.length) (hhigh : params.length ≤ 4)
    (payload : List Byte) : readParams [BitVec.ofNat 8 params.length] [] (params ++ payload) =
      some (params.map (·.setWidth 32), payload) := by
  have hread := readFields_bytes params payload [] (by simpa using hhigh)
  have hfield : ∀ n, 1 ≤ n → n ≤ 4 → ((BitVec.ofNat 8 n : Byte) &&& 0x07).toNat = n ∧
      kFieldSize.getD n 0 = 1 ∧ kFieldCount.getD n 0 = n := by
    intro n h1 h4
    interval_cases n <;> decide
  obtain ⟨hfd, hsize, hcount⟩ := hfield _ hlow hhigh
  unfold readParams
  dsimp only
  rw [hfd, hsize, hcount, hread]
  rfl

lemma fujiBuildFrame_eq (device command : Byte) (param : Option (BitVec 32)) (payload : List Byte)
    (cap : ℕ) : fujiBuildFrame device command param payload cap =
      fujiFinish ([device, command, 0, 0, 0, paramDescriptor param] ++ paramField param) fujiDecMax
        payload cap := by
  cases param <;> rfl

lemma paramField_length (param : Option (BitVec 32)) :
    (paramField param).length = 4 * param.toList.length := by
  cases param <;> rfl

/-- A builder whose parameters are read back as `values`. -/
lemma fujiFinish_roundTrip (device command : Byte) {dsc : Byte} {params payload : List Byte}
    {deccap : ℕ} {values : List (BitVec 32)} (cap : ℕ) (hparams : fujiHeaderLen + params.length ≤ deccap)
    (hmax : deccap ≤ fujiDecMax) (hlast : hasBit dsc 0x80 = false)
    (hread : readParams [dsc] [] (params ++ payload) = some (values, payload)) :
    let frame := fujiFinish ([device, command, 0, 0, 0, dsc] ++ params) deccap payload cap
    (frame ≠ [] → fujiParseFrame frame fujiDecMax = some ⟨device, command, values, payload⟩) ∧
      (frame = [] ↔ deccap < fujiHeaderLen + params.length + payload.length ∨
        cap < (slipFrame (packet device command dsc (params ++ payload))).length) := by
  have hnonempty : slipFrame (packet device command dsc (params ++ payload)) ≠ [] := List.cons_ne_nil _ _
  have hfits : (payload ≠ [] ∧ deccap < fujiHeaderLen + params.length + payload.length) ↔
      deccap < fujiHeaderLen + params.length + payload.length := by
    refine ⟨And.right, fun h => ⟨fun hnil => ?_, h⟩⟩
    rw [hnil, List.length_nil] at h
    omega
  have hmax' : fujiDecMax < 2 ^ 16 := by decide
  dsimp only
  rw [fujiFinish_eq]
  simp only [hfits]
  split
  next hfull => exact ⟨fun h => absurd rfl h, fun _ => hfull, fun _ => rfl⟩
  next hfull =>
    obtain ⟨hpayload, _⟩ := not_or.mp hfull
    refine ⟨fun _ => ?_, fun h => absurd h hnonempty, fun h => absurd h hfull⟩
    have hlen : fujiHeaderLen + (params ++ payload).length ≤ fujiDecMax := by
      rw [List.length_append]
      omega
    rw [fujiParseFrame_packet hlen (by omega) hlast, hread]
    rfl

/-- Whatever the builders emit is parsed back, and they emit nothing only when it does not fit or
the number of byte parameters is out of range. -/
theorem fujiFrame_roundTrip (device command : Byte) (payload : List Byte) (cap : ℕ) :
    (∀ param : Option (BitVec 32),
      let frame := fujiBuildFrame device command param payload cap
      (frame ≠ [] → fujiParseFrame frame fujiDecMax = some ⟨device, command, param.toList, payload⟩) ∧
      (frame = [] ↔ fujiDecMax < fujiHeaderLen + 4 * param.toList.length + payload.length ∨
        cap < (slipFrame (packet device command (paramDescriptor param)
          (paramField param ++ payload))).length)) ∧
    (∀ params : List Byte,
      let frame := fujiBuildFrameU8 device command params payload cap
      (frame ≠ [] → fujiParseFrame frame fujiDecMax =
        some ⟨device, command, params.map (·.setWidth 32), payload⟩) ∧
      (frame = [] ↔ (params.length < 1 ∨ 4 < params.length) ∨
        fujiDecU8 < fujiHeaderLen + params.length + payload.length ∨
        cap < (slipFrame (packet device command (BitVec.ofNat 8 params.length)
          (params ++ payload))).length)) := by
  refine ⟨fun param => ?_, fun params => ?_⟩
  · have hshort : (paramField param).length ≤ 4 := by
      cases param <;> simp [paramField, paramBytes]
    have hparams : fujiHeaderLen + (paramField param).length ≤ fujiDecMax :=
      (Nat.add_le_add_left hshort _).trans (by decide)
    have h := fujiFinish_roundTrip device command cap hparams le_rfl (paramDescriptor_last param)
      (readParams_param param payload)
    rw [fujiBuildFrame_eq, ← paramField_length]
    exact h
  · by_cases hrange : params.length < 1 ∨ 4 < params.length
    · have hnone : fujiBuildFrameU8 device command params payload cap = [] := if_pos hrange
      dsimp only
      rw [hnone]
      exact ⟨fun h => absurd rfl h, fun _ => .inl hrange, fun _ => rfl⟩
    · have hbuild : fujiBuildFrameU8 device command params payload cap =
          fujiFinish ([device, command, 0, 0, 0, BitVec.ofNat 8 params.length] ++ params) fujiDecU8
            payload cap := if_neg hrange
      obtain ⟨hlow, hhigh⟩ := not_or.mp hrange
      have hlast : ∀ n ≤ 4, hasBit (BitVec.ofNat 8 n) 0x80 = false := by decide
      have hparams : fujiHeaderLen + params.length ≤ fujiDecU8 := by
        unfold fujiDecU8 fujiHeaderLen fujiPathLen
        omega
      have h := fujiFinish_roundTrip device command cap hparams (by decide)
        (hlast _ (by omega)) (readParams_bytes (by omega) (by omega) payload)
      dsimp only at h ⊢
      rw [hbuild]
      exact ⟨h.1, by rw [h.2]; simp only [hrange, false_or]⟩

end PicoV9k.FujiBus
