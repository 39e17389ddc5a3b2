import PicoV9k.FujiGrammar

/-!
# The parser on its scratch buffer

`fuji_parse_frame` walks an offset over the decoded bytes. Each read is checked here
against their number, and none ever fails.
-/
namespace PicoV9k.FujiBus
open PicoV9k.Bus PicoV9k.Framing

/-- A frame is turned down, or a byte outside the decoded ones is read. -/
inductive ParseFault
  | reject
  | outOfRange
  deriving DecidableEq

def readAt (scratch : List Byte) (i : ℕ) : Except ParseFault Byte :=
  match scratch[i]? with
  | some b => .ok b
  | none => .error .outOfRange

def foldCarryAt (scratch : List Byte) (chk : BitVec 16) (i : ℕ) : Except ParseFault (BitVec 16) := do
  return foldCarry chk (← readAt scratch i)

/-- `fuji_checksum` over the first `len` bytes. -/
def checksumAt (scratch : List Byte) (len : ℕ) : Except ParseFault Byte := do
  let chk ← (List.range len).foldlM (foldCarryAt scratch) 0
  return chk.setWidth 8

/-- The descriptor loop, with `room` places left in `descrs`. -/
def descriptorsAt (scratch : List Byte) (room : ℕ) (dsc : Byte) (descrs : List Byte) (off : ℕ) :
    Except ParseFault (List Byte × ℕ) :=
  if hasBit dsc 0x80 then
    if scratch.length ≤ off then .error .reject
    else do
      let dsc ← readAt scratch off
      match room with
      | 0 => .error .reject
      | room + 1 => descriptorsAt scratch room dsc (descrs ++ [dsc]) (off + 1)
  else .ok (descrs, off)

def shiftedByteAt (scratch : List Byte) (off : ℕ) (v : BitVec 32) (b : ℕ) :
    Except ParseFault (BitVec 32) := do
  return v ||| shiftedByte (← readAt scratch (off + b)) b

def fieldAt (scratch : List Byte) (off size : ℕ) : Except ParseFault (BitVec 32) :=
  (List.range size).foldlM (shiftedByteAt scratch off) 0

def fieldsAt (scratch : List Byte) (size : ℕ) :
    ℕ → List (BitVec 32) → ℕ → Except ParseFault (List (BitVec 32) × ℕ)
  | 0, params, off => .ok (params, off)
  | count + 1, params, off =>
    if scratch.length < off + size then .error .reject
    else do
      let v ← fieldAt scratch off size
      fieldsAt scratch size count (if params.length < 4 then params ++ [v] else params) (off + size)

def paramsAt (scratch : List Byte) :
    List Byte → List (BitVec 32) → ℕ → Except ParseFault (List (BitVec 32) × ℕ)
  | [], params, off => .ok (params, off)
  | dsc :: descrs, params, off => do
    let fd := (dsc &&& 0x07).toNat
    let (params, off) ← fieldsAt scratch (kFieldSize.getD fd 0) (kFieldCount.getD fd 0) params off
    paramsAt scratch descrs params off

/-- What `fuji_parse_frame` reads once the length and the checksum are right. -/
def frameAt (scratch : List Byte) : Except ParseFault FujiFrame := do
  let device ← readAt scratch 0
  let command ← readAt scratch 1
  let dsc ← readAt scratch 5
  let (descrs, off) ← descriptorsAt scratch 7 dsc [dsc] fujiHeaderLen
  let (params, off) ← paramsAt scratch descrs [] off
  return ⟨device, command, params, scratch.drop off⟩

/-- `fuji_parse_frame` behind the decoder. -/
def fujiParseAt (scratch : List Byte) : Except ParseFault FujiFrame :=
  if scratch.length < fujiHeaderLen then .error .reject
  else do
    let low ← readAt scratch 2
    let high ← readAt scratch 3
    if low.toNat + 2 ^ 8 * high.toNat ≠ scratch.length then .error .reject
    else
      let ck1 ← readAt scratch 4
      let scratch := scratch.set 4 0
      let chk ← checksumAt scratch scratch.length
      if chk ≠ ck1 then .error .reject else frameAt scratch

lemma readAt_ok {scratch : List Byte} {i : ℕ} (h : i < scratch.length) :
    readAt scratch i = .ok (scratch.getD i 0) := by
  unfold readAt
  rw [List.getD_eq_getElem?_getD, List.getElem?_eq_getElem h]
  rfl

lemma take_succ_getD {scratch : List Byte} {i : ℕ} (h : i < scratch.length) :
    scratch.take (i + 1) = scratch.take i ++ [scratch.getD i 0] := by
  rw [List.take_add_one, List.getD_eq_getElem?_getD, List.getElem?_eq_getElem h]
  rfl

lemma foldCarryAt_ok (scratch : List Byte) {len : ℕ} (h : len ≤ scratch.length) :
    (List.range len).foldlM (foldCarryAt scratch) 0 = .ok ((scratch.take len).foldl foldCarry 0) := by
  induction len with
  | zero => rfl
  | succ len ih =>
    rw [List.range_succ, List.foldlM_append, ih (by omega), take_succ_getD h, List.foldl_append]
    show List.foldlM (foldCarryAt scratch) _ [len] = _
    rw [List.foldlM_cons, foldCarryAt, readAt_ok h]
    rfl

lemma checksumAt_ok (scratch : List Byte) :
    checksumAt scratch scratch.length = .ok (fujiChecksum scratch) := by
  unfold checksumAt
  rw [foldCarryAt_ok scratch le_rfl, List.take_length]
  rfl

lemma fieldAt_ok {scratch : List Byte} {off size : ℕ} (h : off + size ≤ scratch.length) :
    fieldAt scratch off size = .ok (fieldValue ((scratch.drop off).take size)) := by
  unfold fieldAt
  induction size with
  | zero => rfl
  | succ size ih =>
    have hbyte : (scratch.drop off).getD size 0 = scratch.getD (off + size) 0 := by
      rw [List.getD_eq_getElem?_getD, List.getElem?_drop, ← List.getD_eq_getElem?_getD]
    have hlen : size < (scratch.drop off).length := by
      rw [List.length_drop]
      omega
    have hsize : ((scratch.drop off).take size).length = size := by
      rw [List.length_take]
      omega
    rw [List.range_succ, List.foldlM_append, ih (by omega), take_succ_getD hlen, fieldValue_append,
      hbyte, hsize]
    show List.foldlM (shiftedByteAt scratch off) _ [size] = _
    rw [List.foldlM_cons, shiftedByteAt, readAt_ok (by omega)]
    rfl

/-- A loop over an offset that follows one over the bytes left. -/
def Follows {α : Type} (scratch : List Byte) (r : Option (α × List Byte)) (e : Except ParseFault (α × ℕ)) :
    Prop :=
  match r with
  | none => e = .error .reject
  | some (a, left) => ∃ off ≤ scratch.length, left = scratch.drop off ∧ e = .ok (a, off)

lemma drop_cons {scratch : List Byte} {off : ℕ} (h : off < scratch.length) :
    scratch.drop off = scratch.getD off 0 :: scratch.drop (off + 1) := by
  rw [List.getD_eq_getElem?_getD, List.getElem?_eq_getElem h]
  exact List.drop_eq_getElem_cons h

lemma readDescriptors_end {nd : ℕ} {dsc : Byte} (h : hasBit dsc 0x80 = true) :
    readDescriptors nd dsc [] = none := if_pos h

lemma descriptorsAt_last {dsc : Byte} (h : hasBit dsc 0x80 = false) (scratch : List Byte) (room : ℕ)
    (descrs : List Byte) (off : ℕ) : descriptorsAt scratch room dsc descrs off = .ok (descrs, off) := by
  have hclear : ¬ hasBit dsc 0x80 = true := Bool.eq_false_iff.mp h
  cases room with
  | zero => exact if_neg hclear
  | succ room => exact if_neg hclear

lemma descriptorsAt_end {scratch : List Byte} {dsc : Byte} {off : ℕ} (h : hasBit dsc 0x80 = true)
    (hoff : scratch.length ≤ off) (room : ℕ) (descrs : List Byte) :
    descriptorsAt scratch room dsc descrs off = .error .reject := by
  cases room with
  | zero => exact (if_pos h).trans (if_pos hoff)
  | succ room => exact (if_pos h).trans (if_pos hoff)

lemma descriptorsAt_follows {scratch : List Byte} {room nd off : ℕ} (hnd : nd + room = 8)
    (hoff : off ≤ scratch.length) (dsc : Byte) (before : List Byte) :
    Follows scratch ((readDescriptors nd dsc (scratch.drop off)).map fun r => (before ++ r.1, r.2))
      (descriptorsAt scratch room dsc (before ++ [dsc]) off) := by
  induction room generalizing nd off dsc before with
  | zero =>
    by_cases hbit : hasBit dsc 0x80 = true
    · by_cases hend : scratch.length ≤ off
      · rw [List.drop_eq_nil_of_le hend, readDescriptors_end hbit, descriptorsAt_end hbit hend]
        rfl
      · rw [drop_cons (by omega), readDescriptors_more hbit, if_neg (by omega), descriptorsAt, if_pos hbit,
          if_neg hend, readAt_ok (by omega)]
        rfl
    · have hclear := Bool.eq_false_iff.mpr hbit
      rw [readDescriptors_last hclear, descriptorsAt_last hclear]
      exact ⟨off, hoff, rfl, rfl⟩
  | succ room ih =>
    by_cases hbit : hasBit dsc 0x80 = true
    · by_cases hend : scratch.length ≤ off
      · rw [List.drop_eq_nil_of_le hend, readDescriptors_end hbit, descriptorsAt_end hbit hend]
        rfl
      · have hrest := ih (show nd + 1 + room = 8 by omega) (show off + 1 ≤ scratch.length by omega)
          (scratch.getD off 0) (before ++ [dsc])
        have hstored : ((fun r : List Byte × List Byte => (before ++ r.1, r.2)) ∘
            fun r : List Byte × List Byte => (dsc :: r.1, r.2)) =
              fun r : List Byte × List Byte => ((before ++ [dsc]) ++ r.1, r.2) := by
          funext r
          simp
        rw [drop_cons (by omega), readDescriptors_more hbit, if_pos (by omega), descriptorsAt, if_pos hbit,
          if_neg hend, readAt_ok (by omega), Option.map_map, hstored]
        exact hrest
    · have hclear := Bool.eq_false_iff.mpr hbit
      rw [readDescriptors_last hclear, descriptorsAt_last hclear]
      exact ⟨off, hoff, rfl, rfl⟩

lemma fieldsAt_follows {scratch : List Byte} (size count : ℕ) {off : ℕ}
    (hoff : off ≤ scratch.length) (params : List (BitVec 32)) :
    Follows scratch (readFields size count params (scratch.drop off))
      (fieldsAt scratch size count params off) := by
  induction count generalizing off params with
  | zero => exact ⟨off, hoff, rfl, rfl⟩
  | succ count ih =>
    have hleft : (scratch.drop off).length = scratch.length - off := List.length_drop
    rw [readFields, fieldsAt]
    by_cases hroom : scratch.length < off + size
    · rw [if_pos (by omega), if_pos hroom]
      rfl
    · rw [if_neg (by omega), if_neg hroom, fieldAt_ok (by omega)]
      dsimp only
      rw [List.drop_drop]
      exact ih (by omega) _

lemma paramsAt_follows {scratch : List Byte} (descrs : List Byte) {off : ℕ}
    (hoff : off ≤ scratch.length) (params : List (BitVec 32)) :
    Follows scratch (readParams descrs params (scratch.drop off)) (paramsAt scratch descrs params off) := by
  induction descrs generalizing off params with
  | nil => exact ⟨off, hoff, rfl, rfl⟩
  | cons dsc descrs ih =>
    have hfields := fieldsAt_follows (kFieldSize.getD (dsc &&& 0x07).toNat 0)
      (kFieldCount.getD (dsc &&& 0x07).toNat 0) hoff params
    rw [readParams, paramsAt]
    dsimp only
    split
    next hnone =>
      rw [hnone] at hfields
      have hreject : fieldsAt scratch (kFieldSize.getD (dsc &&& 0x07).toNat 0)
          (kFieldCount.getD (dsc &&& 0x07).toNat 0) params off = .error .reject := hfields
      rw [hreject]
      rfl
    next values left hsome =>
      rw [hsome] at hfields
      obtain ⟨off', hoff', rfl, heq⟩ := hfields
      rw [heq]
      exact ih hoff' values

/-- The verdict of the parser, of which a fault is never part. -/
def verdict : Option FujiFrame → Except ParseFault FujiFrame
  | none => .error .reject
  | some frame => .ok frame

lemma frameAt_eq (device command low high ck1 dsc : Byte) (rest : List Byte) :
    frameAt (device :: command :: low :: high :: ck1 :: dsc :: rest) =
      verdict ((readDescriptors 1 dsc rest).bind fun r => (readParams r.1 [] r.2).map fun s =>
        ⟨device, command, s.1, s.2⟩) := by
  have hlen : fujiHeaderLen ≤ (device :: command :: low :: high :: ck1 :: dsc :: rest).length := by
    simp [fujiHeaderLen]
  have hdescr := descriptorsAt_follows (show 1 + 7 = 8 from rfl) hlen dsc []
  have hrest : (device :: command :: low :: high :: ck1 :: dsc :: rest).drop fujiHeaderLen = rest := rfl
  have hstored : (fun r : List Byte × List Byte => ([] ++ r.1, r.2)) = id := rfl
  rw [hrest, hstored, Option.map_id, id] at hdescr
  generalize hscratch : device :: command :: low :: high :: ck1 :: dsc :: rest = scratch at hdescr
  have hframe : frameAt scratch = (do
      let (descrs, off) ← descriptorsAt scratch 7 dsc ([] ++ [dsc]) fujiHeaderLen
      let (params, off) ← paramsAt scratch descrs [] off
      return ⟨device, command, params, scratch.drop off⟩) := by
    subst hscratch
    rfl
  rw [hframe]
  cases hread : readDescriptors 1 dsc rest with
  | none =>
    rw [hread] at hdescr
    have hreject : descriptorsAt scratch 7 dsc ([] ++ [dsc]) fujiHeaderLen = .error .reject := hdescr
    rw [hreject]
    rfl
  | some r =>
    obtain ⟨descrs, left⟩ := r
    rw [hread] at hdescr
    obtain ⟨off, hoff, rfl, heq⟩ := hdescr
    have hparams := paramsAt_follows descrs hoff []
    rw [heq]
    show (paramsAt scratch descrs [] off >>= _) = verdict ((readParams descrs [] (scratch.drop off)).map _)
    cases hvalues : readParams descrs [] (scratch.drop off) with
    | none =>
      rw [hvalues] at hparams
      have hreject : paramsAt scratch descrs [] off = .error .reject := hparams
      rw [hreject]
      rfl
    | some s =>
      obtain ⟨values, payload⟩ := s
      rw [hvalues] at hparams
      obtain ⟨off', hoff', rfl, heq'⟩ := hparams
      rw [heq']
      rfl

lemma parsePacket_none {d : List Byte} (h : ¬ Stamped d) : parsePacket d = none := by
  by_contra hsome
  obtain ⟨frame, hframe⟩ := Option.ne_none_iff_exists'.mp hsome
  exact h (stamped_of_parsePacket hframe)

/-- On any decoded bytes the parser stays in range, and its offsets do what reading from the front
does. -/
theorem fujiParseAt_eq (d : List Byte) : fujiParseAt d = verdict (parsePacket d) := by
  by_cases hshort : d.length < fujiHeaderLen
  · rw [parsePacket_none fun h => absurd h.header (by omega)]
    exact if_pos hshort
  · match d, Nat.not_lt.mp hshort with
    | device :: command :: low :: high :: ck1 :: dsc :: rest, hheader =>
      refine (if_neg hshort).trans ?_
      by_cases hlength : low.toNat + 2 ^ 8 * high.toNat ≠
          (device :: command :: low :: high :: ck1 :: dsc :: rest).length
      · have hnone : ¬ Stamped (device :: command :: low :: high :: ck1 :: dsc :: rest) :=
          fun h => hlength h.length
        rw [parsePacket_none hnone]
        exact if_pos hlength
      · refine (if_neg hlength).trans ?_
        have hzero : (device :: command :: low :: high :: ck1 :: dsc :: rest).set 4 0 =
            device :: command :: low :: high :: 0 :: dsc :: rest := rfl
        have hchecksum := checksumAt_ok (device :: command :: low :: high :: 0 :: dsc :: rest)
        rw [← hzero] at hchecksum
        by_cases hck : fujiChecksum (device :: command :: low :: high :: 0 :: dsc :: rest) ≠ ck1
        · have hnone : ¬ Stamped (device :: command :: low :: high :: ck1 :: dsc :: rest) :=
            fun h => hck h.checksum
          rw [parsePacket_none hnone]
          show (checksumAt _ _ >>= _) = _
          rw [hchecksum]
          exact if_pos hck
        · have hstamped : Stamped (device :: command :: low :: high :: ck1 :: dsc :: rest) :=
            ⟨hheader, not_not.mp hlength, not_not.mp hck⟩
          rw [parsePacket_stamped hstamped, ← frameAt_eq device command low high 0 dsc rest]
          show (checksumAt _ _ >>= _) = _
          rw [hchecksum]
          exact if_neg hck

/-- The decoder fills its buffer from the front and never beyond it. -/
lemma fujiSlipDecode_length (input : List Byte) (scap : ℕ) : (fujiSlipDecode input scap).length ≤ scap := by
  by_cases hne : fujiSlipDecode input scap = []
  · rw [hne]
    exact Nat.zero_le scap
  · obtain ⟨_, _, _, _, _, _, _, hcap⟩ := (slipReads_iff hne).mpr rfl
    exact hcap

/-- The bytes of the declared fields can be told apart when there are enough of them. -/
lemma exists_fields (widths : List ℕ) {bytes : List Byte} (h : widths.sum ≤ bytes.length) :
    ∃ (fields : List (List Byte)) (payload : List Byte), fields.map List.length = widths ∧
      bytes = fields.flatten ++ payload := by
  induction widths generalizing bytes with
  | nil => exact ⟨[], bytes, rfl, rfl⟩
  | cons w widths ih =>
    rw [List.sum_cons] at h
    have hrest : widths.sum ≤ (bytes.drop w).length := by
      rw [List.length_drop]
      omega
    obtain ⟨fields, payload, hwidths, heq⟩ := ih hrest
    refine ⟨bytes.take w :: fields, payload, ?_, ?_⟩
    · rw [List.map_cons, hwidths, List.length_take, Nat.min_eq_left (by omega)]
    · rw [List.flatten_cons, List.append_assoc, ← heq, List.take_append_drop]

/-- A stamped packet with a chain of descriptors and bytes enough for their fields. -/
structure Grammatical (d more : List Byte) (last : Byte) (rest : List Byte) : Prop where
  stamped : Stamped d
  chain : Chain more last
  bytes : d.drop 5 = more ++ last :: rest
  enough : ((more ++ [last]).flatMap fieldWidths).sum ≤ rest.length

/-- The parser accepts exactly the frames of the grammar, reports their first four fields and their
payload, and reads no byte outside the packet or its buffer. -/
theorem fujiParseFrame_grammar (input : List Byte) (scap : ℕ) :
    ((fujiParseFrame input scap).isSome = true ↔
      ∃ d more last rest, SlipReads input scap d ∧ Grammatical d more last rest) ∧
    (∀ frame, fujiParseFrame input scap = some frame ↔
      ∃ d more last fields, SlipReads input scap d ∧ Layout d more last fields frame.payload ∧
        Reports d frame fields) ∧
    fujiParseAt (fujiSlipDecode input scap) = verdict (fujiParseFrame input scap) ∧
    (fujiSlipDecode input scap).length ≤ scap := by
  have hiff (frame : FujiFrame) : fujiParseFrame input scap = some frame ↔
      ∃ d more last fields, SlipReads input scap d ∧ Layout d more last fields frame.payload ∧
        Reports d frame fields := by
    rw [fujiParseFrame_eq, parsePacket_iff]
    have hne {d more : List Byte} {last : Byte} {fields : List (List Byte)}
        (h : Layout d more last fields frame.payload) : d ≠ [] := by
      have hheader : 6 ≤ d.length := h.stamped.header
      exact List.ne_nil_of_length_pos (by omega)
    constructor
    · rintro ⟨more, last, fields, hlayout, hreports⟩
      exact ⟨_, more, last, fields, (slipReads_iff (hne hlayout)).mpr rfl, hlayout, hreports⟩
    · rintro ⟨d, more, last, fields, hreads, hlayout, hreports⟩
      rw [(slipReads_iff (hne hlayout)).mp hreads]
      exact ⟨more, last, fields, hlayout, hreports⟩
  refine ⟨?_, hiff, fujiParseAt_eq _, fujiSlipDecode_length input scap⟩
  rw [Option.isSome_iff_exists]
  constructor
  · rintro ⟨frame, hframe⟩
    obtain ⟨d, more, last, fields, hreads, hlayout, _⟩ := (hiff frame).mp hframe
    refine ⟨d, more, last, fields.flatten ++ frame.payload, hreads,
      hlayout.stamped, hlayout.chain, hlayout.bytes, ?_⟩
    rw [← hlayout.widths, List.length_append, List.length_flatten]
    omega
  · rintro ⟨d, more, last, rest, hreads, hstamped, hchain, hbytes, henough⟩
    obtain ⟨fields, payload, hwidths, rfl⟩ := exists_fields _ henough
    let frame : FujiFrame :=
      ⟨d.getD 0 0, d.getD 1 0, (fields.take 4).map fieldValue, payload⟩
    have hparams : frame.params.map BitVec.toNat = (fields.take 4).map littleEndian := by
      have hkeep := keep_littleEndian hwidths
      unfold keep at hkeep
      rwa [List.nil_append, ← List.map_take] at hkeep
    exact ⟨frame, (hiff frame).mpr ⟨d, more, last, fields, hreads,
      ⟨hstamped, hchain, hwidths, hbytes⟩, rfl, rfl, hparams⟩⟩

end PicoV9k.FujiBus
