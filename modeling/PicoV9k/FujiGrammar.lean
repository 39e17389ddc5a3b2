import Mathlib.Data.List.TakeWhile
import Mathlib.Data.Nat.Digits.Defs
import PicoV9k.FujiChecksum

/-!
# The grammar of FujiBus frames

`fuji_parse_frame` loops over descriptors and over the fields they declare. What it
accepts is described here without the loops: a stamped packet is a chain of
descriptors, the bytes of the fields in their order, and a payload.
-/
namespace PicoV9k.FujiBus
open PicoV9k.Bus PicoV9k.Framing

/-- The bytes between the first delimiter and the next, with their escapes replaced. -/
def SlipReads (input : List Byte) (scap : ℕ) (d : List Byte) : Prop :=
  ∃ (before : List Byte) (tokens : List (Token Byte)) (rest : List Byte), fujiSlipEnd ∉ before ∧
    (∀ t ∈ tokens, slip.Legal t) ∧
    input = before ++ fujiSlipEnd :: (tokens.flatMap slip.tokenBytes ++ fujiSlipEnd :: rest) ∧
    d = tokens.flatMap slip.tokenValue ∧ d.length ≤ scap

/-- The decoder returns what it read, or the empty string for a failure. -/
lemma slipReads_iff {input d : List Byte} {scap : ℕ} (hne : d ≠ []) :
    SlipReads input scap d ↔ fujiSlipDecode input scap = d := by
  have hloop (body : List Byte) : slipDecodeLoop scap body [] = d ↔
      slip.decode body = some d ∧ d.length ≤ scap := by
    rw [slipDecodeLoop_eq _ _ _ (Nat.zero_le scap)]
    cases slip.decode body with
    | none => simpa [decodedInto] using hne.symm
    | some l =>
      have hempty : [] ≠ d := hne.symm
      simp only [decodedInto, List.length_nil, Nat.zero_add, List.nil_append, Option.some.injEq]
      split
      next hfull => exact ⟨fun h => absurd h hempty, fun hboth => absurd hfull (Nat.not_lt.mpr (hboth.1 ▸ hboth.2))⟩
      next hfull => exact ⟨fun h => ⟨h, by subst h; omega⟩, And.left⟩
  constructor
  · rintro ⟨before, tokens, rest, hbefore, hlegal, rfl, hd, hcap⟩
    have hskip : (before ++ fujiSlipEnd :: (tokens.flatMap slip.tokenBytes ++ fujiSlipEnd :: rest)).dropWhile
        (· ≠ fujiSlipEnd) = fujiSlipEnd :: (tokens.flatMap slip.tokenBytes ++ fujiSlipEnd :: rest) := by
      rw [List.dropWhile_append_of_pos]
      · exact List.dropWhile_cons_of_neg (by simp)
      · intro b hb
        exact decide_eq_true fun h : b = fujiSlipEnd => hbefore (h ▸ hb)
    unfold fujiSlipDecode
    rw [hskip]
    exact (hloop _).mpr ⟨slip.decode_eq_some.mpr ⟨tokens, rest, hlegal, rfl, hd⟩, hcap⟩
  · intro h
    unfold fujiSlipDecode at h
    have hsplit := List.takeWhile_append_dropWhile (p := (· ≠ fujiSlipEnd)) (l := input)
    have hbefore : fujiSlipEnd ∉ input.takeWhile (· ≠ fujiSlipEnd) := fun hmem => by
      simpa using List.mem_takeWhile_imp hmem
    generalize input.takeWhile (· ≠ fujiSlipEnd) = before at hsplit hbefore
    cases hrest : input.dropWhile (· ≠ fujiSlipEnd) with
    | nil =>
      rw [hrest] at h
      exact absurd h.symm hne
    | cons stop body =>
      have hstop : stop = fujiSlipEnd := by
        have hhead := List.head?_dropWhile_not (· ≠ fujiSlipEnd) input
        rw [hrest] at hhead
        simpa using hhead
      subst hstop
      rw [hrest] at h hsplit
      obtain ⟨hdecode, hcap⟩ := (hloop body).mp h
      obtain ⟨tokens, rest, hlegal, rfl, rfl⟩ := slip.decode_eq_some.mp hdecode
      exact ⟨before, tokens, rest, hbefore, hlegal, hsplit.symm, rfl, hcap⟩

/-- At most eight descriptors, of which all but the last announce another one. -/
structure Chain (more : List Byte) (last : Byte) : Prop where
  bound : more.length + 1 ≤ 8
  more : ∀ dsc ∈ more, hasBit dsc 0x80 = true
  last : hasBit last 0x80 = false

lemma readDescriptors_last {nd : ℕ} {dsc : Byte} (h : hasBit dsc 0x80 = false) (rest : List Byte) :
    readDescriptors nd dsc rest = some ([dsc], rest) := by
  have hclear : ¬ hasBit dsc 0x80 = true := Bool.eq_false_iff.mp h
  cases rest with
  | nil => exact if_neg hclear
  | cons next rest => exact if_neg hclear

lemma readDescriptors_more {nd : ℕ} {dsc : Byte} (h : hasBit dsc 0x80 = true) (next : Byte)
    (rest : List Byte) : readDescriptors nd dsc (next :: rest) =
      if nd < 8 then (readDescriptors (nd + 1) next rest).map fun r => (dsc :: r.1, r.2) else none := by
  rw [readDescriptors, if_pos h]

/-- The loop of the parser once `nd` descriptors are stored, `dsc` being the last of them. -/
lemma readDescriptors_iff {nd : ℕ} {dsc : Byte} {rest descrs left : List Byte} (hnd : nd ≤ 8) :
    readDescriptors nd dsc rest = some (descrs, left) ↔
      ∃ more last, descrs = more ++ [last] ∧ dsc :: rest = more ++ last :: left ∧
        more.length + nd ≤ 8 ∧ (∀ b ∈ more, hasBit b 0x80 = true) ∧ hasBit last 0x80 = false := by
  constructor
  · intro h
    induction rest generalizing nd dsc descrs with
    | nil =>
      by_cases hbit : hasBit dsc 0x80 = true
      · rw [readDescriptors, if_pos hbit] at h
        exact absurd h (by simp)
      · rw [readDescriptors, if_neg hbit] at h
        obtain ⟨rfl, rfl⟩ : [dsc] = descrs ∧ [] = left := by simpa using h
        exact ⟨[], dsc, rfl, rfl, by simpa using hnd, List.forall_mem_nil _, Bool.eq_false_iff.mpr hbit⟩
    | cons next rest ih =>
      by_cases hbit : hasBit dsc 0x80 = true
      · rw [readDescriptors_more hbit] at h
        split at h
        next hroom =>
          obtain ⟨⟨descrs', left'⟩, hrest, heq⟩ := Option.map_eq_some_iff.mp h
          obtain ⟨rfl, rfl⟩ : dsc :: descrs' = descrs ∧ left' = left := by simpa using heq
          obtain ⟨more, last, rfl, hsplit, hlen, hmore, hlast⟩ := ih hroom hrest
          refine ⟨dsc :: more, last, rfl, congrArg (dsc :: ·) hsplit, ?_,
            List.forall_mem_cons.mpr ⟨hbit, hmore⟩, hlast⟩
          rw [List.length_cons]
          omega
        · exact absurd h (by simp)
      · have hclear := Bool.eq_false_iff.mpr hbit
        rw [readDescriptors_last hclear] at h
        obtain ⟨rfl, rfl⟩ : [dsc] = descrs ∧ next :: rest = left := by simpa using h
        exact ⟨[], dsc, rfl, rfl, by simpa using hnd, List.forall_mem_nil _, hclear⟩
  · rintro ⟨more, last, rfl, hsplit, hlen, hmore, hlast⟩
    induction more generalizing nd dsc rest with
    | nil =>
      obtain ⟨rfl, rfl⟩ : dsc = last ∧ rest = left := by simpa using hsplit
      exact readDescriptors_last hlast rest
    | cons b more ih =>
      obtain ⟨rfl, hrest⟩ : dsc = b ∧ rest = more ++ last :: left := by simpa using hsplit
      obtain ⟨hbit, hmore⟩ := List.forall_mem_cons.mp hmore
      rw [List.length_cons] at hlen
      cases rest with
      | nil => exact absurd hrest (by simp)
      | cons next rest =>
        rw [readDescriptors_more hbit, if_pos (by omega), ih (by omega) hrest (by omega) hmore]
        rfl

/-- The widths of the fields that a descriptor declares. -/
def fieldWidths (dsc : Byte) : List ℕ :=
  let fd := (dsc &&& 0x07).toNat
  List.replicate (kFieldCount.getD fd 0) (kFieldSize.getD fd 0)

/-- A field of at most four bytes, low byte first. -/
def littleEndian (bytes : List Byte) : ℕ := Nat.ofDigits 256 (bytes.map BitVec.toNat)

/-- Values are kept while there are fewer than four. -/
def keep (params values : List (BitVec 32)) : List (BitVec 32) := (params ++ values).take 4

lemma keep_nil {params : List (BitVec 32)} (h : params.length ≤ 4) : keep params [] = params := by
  unfold keep
  rw [List.append_nil, List.take_of_length_le h]

lemma keep_length (params values : List (BitVec 32)) : (keep params values).length ≤ 4 :=
  List.length_take_le 4 _

lemma keep_keep (params values more : List (BitVec 32)) :
    keep (keep params values) more = keep params (values ++ more) := by
  unfold keep
  rw [← List.append_assoc]
  generalize params ++ values = l
  have hroom : 4 - min 4 l.length = 4 - l.length := by omega
  rw [List.take_append, List.take_take, Nat.min_self, List.length_take, hroom, List.take_append]

lemma keep_one {params : List (BitVec 32)} (h : params.length ≤ 4) (v : BitVec 32) :
    (if params.length < 4 then params ++ [v] else params) = keep params [v] := by
  unfold keep
  split
  · rw [List.take_of_length_le (by rw [List.length_append, List.length_singleton]; omega)]
  · rw [List.take_append_of_le_length (by omega), List.take_of_length_le h]

/-- The fields of one descriptor. -/
lemma readFields_iff {size count : ℕ} {params values : List (BitVec 32)} {rest left : List Byte}
    (hparams : params.length ≤ 4) :
    readFields size count params rest = some (values, left) ↔
      ∃ fields : List (List Byte), fields.map List.length = List.replicate count size ∧
        rest = fields.flatten ++ left ∧ values = keep params (fields.map fieldValue) := by
  induction count generalizing params rest with
  | zero =>
    rw [readFields, Option.some.injEq, Prod.mk.injEq]
    constructor
    · rintro ⟨rfl, rfl⟩
      exact ⟨[], rfl, rfl, (keep_nil hparams).symm⟩
    · rintro ⟨fields, hwidths, rfl, rfl⟩
      obtain rfl : fields = [] := by simpa using hwidths
      exact ⟨(keep_nil hparams).symm, rfl⟩
  | succ count ih =>
    rw [readFields]
    dsimp only
    rw [keep_one hparams]
    constructor
    · intro h
      split at h
      · exact absurd h (by simp)
      next hroom =>
        obtain ⟨fields, hwidths, hrest, rfl⟩ := (ih (keep_length _ _)).mp h
        refine ⟨rest.take size :: fields, ?_, ?_, keep_keep _ _ _⟩
        · rw [List.map_cons, hwidths, List.length_take, Nat.min_eq_left (by omega), List.replicate_succ]
        · rw [List.flatten_cons, List.append_assoc, ← hrest, List.take_append_drop]
    · rintro ⟨fields, hwidths, rfl, rfl⟩
      cases fields with
      | nil => exact absurd hwidths (by simp [List.replicate_succ])
      | cons field fields =>
        obtain ⟨rfl, hwidths⟩ : field.length = size ∧ fields.map List.length = List.replicate count size := by
          simpa [List.replicate_succ] using hwidths
        rw [List.flatten_cons, List.append_assoc, if_neg (by rw [List.length_append]; omega),
          List.take_left, List.drop_left]
        exact (ih (keep_length _ _)).mpr ⟨fields, hwidths, rfl,
          (keep_keep params [fieldValue field] _).symm⟩

/-- The fields of all descriptors. -/
lemma readParams_iff {descrs : List Byte} {params values : List (BitVec 32)} {rest left : List Byte}
    (hparams : params.length ≤ 4) :
    readParams descrs params rest = some (values, left) ↔
      ∃ fields : List (List Byte), fields.map List.length = descrs.flatMap fieldWidths ∧
        rest = fields.flatten ++ left ∧ values = keep params (fields.map fieldValue) := by
  induction descrs generalizing params rest with
  | nil =>
    rw [readParams, Option.some.injEq, Prod.mk.injEq]
    constructor
    · rintro ⟨rfl, rfl⟩
      exact ⟨[], rfl, rfl, (keep_nil hparams).symm⟩
    · rintro ⟨fields, hwidths, rfl, rfl⟩
      obtain rfl : fields = [] := by simpa using hwidths
      exact ⟨(keep_nil hparams).symm, rfl⟩
  | cons dsc descrs ih =>
    rw [readParams, List.flatMap_cons]
    constructor
    · intro h
      split at h
      · exact absurd h (by simp)
      next params' rest' hread =>
        obtain ⟨first, hfirst, rfl, rfl⟩ := (readFields_iff hparams).mp hread
        obtain ⟨fields, hwidths, rfl, rfl⟩ := (ih (keep_length _ _)).mp h
        refine ⟨first ++ fields, ?_, ?_, ?_⟩
        · rw [List.map_append, hfirst, hwidths]
          rfl
        · rw [List.flatten_append, List.append_assoc]
        · rw [List.map_append, keep_keep]
    · rintro ⟨fields, hwidths, rfl, rfl⟩
      obtain ⟨first, fields, rfl, hfirst, hwidths⟩ := List.map_eq_append_iff.mp hwidths
      have hread : readFields (kFieldSize.getD (dsc &&& 0x07).toNat 0) (kFieldCount.getD (dsc &&& 0x07).toNat 0)
          params (first.flatten ++ (fields.flatten ++ left)) =
            some (keep params (first.map fieldValue), fields.flatten ++ left) :=
        (readFields_iff hparams).mpr ⟨first, hfirst, rfl, rfl⟩
      rw [List.flatten_append, List.append_assoc, hread]
      exact (ih (keep_length _ _)).mpr ⟨fields, hwidths, rfl, by rw [keep_keep, List.map_append]⟩

lemma fieldValue_append (bytes : List Byte) (b : Byte) :
    fieldValue (bytes ++ [b]) = fieldValue bytes ||| shiftedByte b bytes.length := by
  unfold fieldValue
  rw [List.zipIdx_append, List.foldl_append, Nat.zero_add]
  rfl

/-- The shifts of the parser put the bytes of a field in their places. -/
lemma fieldValue_toNat (bytes : List Byte) (h : bytes.length ≤ 4) :
    (fieldValue bytes).toNat = littleEndian bytes := by
  have hpow (n : ℕ) : 256 ^ n = 2 ^ (8 * n) := by
    rw [pow_mul]
    rfl
  induction bytes using List.reverseRecOn with
  | nil => rfl
  | append_singleton bytes b ih =>
    rw [List.length_append, List.length_singleton] at h
    have hvalue := ih (by omega)
    have hbytes : ∀ v ∈ bytes.map BitVec.toNat, v < 256 := by
      intro v hv
      obtain ⟨b, _, rfl⟩ := List.mem_map.mp hv
      exact b.isLt
    have hlow : littleEndian bytes < 2 ^ (8 * bytes.length) := by
      have hlt := Nat.ofDigits_lt_base_pow_length (by decide : 1 < 256) hbytes
      rwa [List.length_map, hpow] at hlt
    have hb := b.isLt
    have hshift : (shiftedByte b bytes.length).toNat = 2 ^ (8 * bytes.length) * b.toNat := by
      have hroom : b.toNat * 2 ^ (8 * bytes.length) < 2 ^ 32 := by
        have hsplit : 2 ^ 32 = 2 ^ (32 - 8 * bytes.length) * 2 ^ (8 * bytes.length) := by
          rw [← pow_add]
          congr 1
          omega
        rw [hsplit]
        refine Nat.mul_lt_mul_of_pos_right (hb.trans_le ?_) (by positivity)
        exact Nat.pow_le_pow_right (by decide) (by omega)
      unfold shiftedByte
      rw [BitVec.toNat_shiftLeft, BitVec.toNat_setWidth, Nat.shiftLeft_eq,
        Nat.mod_eq_of_lt (hb.trans (by decide)), Nat.mod_eq_of_lt hroom, Nat.mul_comm]
    rw [fieldValue_append, BitVec.toNat_or, hvalue, hshift, Nat.or_comm,
      ← Nat.two_pow_add_eq_or_of_lt hlow]
    unfold littleEndian
    rw [List.map_append, Nat.ofDigits_append, List.length_map, hpow]
    simp [Nat.add_comm]

/-- A packet with its descriptors `more ++ [last]`, its fields and its payload told apart. -/
structure Layout (d more : List Byte) (last : Byte) (fields : List (List Byte)) (payload : List Byte) :
    Prop where
  stamped : Stamped d
  chain : Chain more last
  widths : fields.map List.length = (more ++ [last]).flatMap fieldWidths
  bytes : d.drop 5 = more ++ last :: (fields.flatten ++ payload)

/-- What the parser reports about a packet. -/
structure Reports (d : List Byte) (frame : FujiFrame) (fields : List (List Byte)) : Prop where
  device : frame.device = d.getD 0 0
  command : frame.command = d.getD 1 0
  params : frame.params.map BitVec.toNat = (fields.take 4).map littleEndian

/-- The loops of the parser on a packet that passes its tests. -/
lemma parsePacket_stamped {device command low high ck1 dsc : Byte} {rest : List Byte}
    (h : Stamped (device :: command :: low :: high :: ck1 :: dsc :: rest)) :
    parsePacket (device :: command :: low :: high :: ck1 :: dsc :: rest) =
      ((readDescriptors 1 dsc rest).bind fun r => (readParams r.1 [] r.2).map fun s =>
        ⟨device, command, s.1, s.2⟩) := by
  have hlength : low.toNat + 2 ^ 8 * high.toNat =
      (device :: command :: low :: high :: ck1 :: dsc :: rest).length := h.length
  have hchecksum : fujiChecksum (device :: command :: low :: high :: 0 :: dsc :: rest) = ck1 := h.checksum
  unfold parsePacket
  dsimp only
  rw [if_neg (not_not.mpr hlength), if_neg (not_not.mpr hchecksum)]
  cases readDescriptors 1 dsc rest with
  | none => rfl
  | some r =>
    show (readParams r.1 [] r.2).bind _ = (readParams r.1 [] r.2).map _
    cases readParams r.1 [] r.2 <;> rfl

lemma width_le (dsc : Byte) : ∀ n ∈ fieldWidths dsc, n ≤ 4 := by
  intro n hn
  have hsize : ∀ dsc : Byte, kFieldSize.getD (dsc &&& 0x07).toNat 0 ≤ 4 := by decide
  rw [List.eq_of_mem_replicate hn]
  exact hsize dsc

/-- The kept values are those of the first four fields. -/
lemma keep_littleEndian {descrs : List Byte} {fields : List (List Byte)}
    (h : fields.map List.length = descrs.flatMap fieldWidths) :
    (keep [] (fields.map fieldValue)).map BitVec.toNat = (fields.take 4).map littleEndian := by
  unfold keep
  rw [List.nil_append, ← List.map_take, List.map_map]
  apply List.map_congr_left
  intro field hfield
  have hwidth : field.length ∈ descrs.flatMap fieldWidths := by
    rw [← h]
    exact List.mem_map_of_mem (List.mem_of_mem_take hfield)
  obtain ⟨dsc, _, hn⟩ := List.mem_flatMap.mp hwidth
  exact fieldValue_toNat field (width_le dsc _ hn)

/-- The parser accepts the packets with a layout, and reports it. -/
theorem parsePacket_iff {d : List Byte} {frame : FujiFrame} :
    parsePacket d = some frame ↔
      ∃ more last fields, Layout d more last fields frame.payload ∧ Reports d frame fields := by
  constructor
  · intro h
    have hstamped := stamped_of_parsePacket h
    match d, hstamped.header with
    | device :: command :: low :: high :: ck1 :: dsc :: rest, _ =>
      rw [parsePacket_stamped hstamped] at h
      obtain ⟨⟨descrs, left⟩, hdescr, h⟩ := Option.bind_eq_some_iff.mp h
      obtain ⟨⟨values, payload⟩, hfields, rfl⟩ := Option.map_eq_some_iff.mp h
      obtain ⟨more, last, rfl, hsplit, hlen, hmore, hlast⟩ := (readDescriptors_iff (by decide)).mp hdescr
      obtain ⟨fields, hwidths, hleft, rfl⟩ := (readParams_iff (by simp)).mp hfields
      dsimp only at hleft hsplit
      refine ⟨more, last, fields, ⟨hstamped, ⟨hlen, hmore, hlast⟩, hwidths, ?_⟩, rfl, rfl,
        keep_littleEndian hwidths⟩
      rw [← hleft]
      exact hsplit
  · rintro ⟨more, last, fields, ⟨hstamped, hchain, hwidths, hbytes⟩, hdevice, hcommand, hparams⟩
    match d, hstamped.header with
    | device :: command :: low :: high :: ck1 :: dsc :: rest, _ =>
      have hdescr : readDescriptors 1 dsc rest = some (more ++ [last], fields.flatten ++ frame.payload) :=
        (readDescriptors_iff (by decide)).mpr ⟨more, last, rfl, hbytes, hchain.bound, hchain.more, hchain.last⟩
      have hfields : readParams (more ++ [last]) [] (fields.flatten ++ frame.payload) =
          some (keep [] (fields.map fieldValue), frame.payload) :=
        (readParams_iff (by simp)).mpr ⟨fields, hwidths, rfl, rfl⟩
      have hvalues : keep [] (fields.map fieldValue) = frame.params :=
        List.map_injective_iff.mpr (fun _ _ => BitVec.eq_of_toNat_eq) ((keep_littleEndian hwidths).trans hparams.symm)
      rw [parsePacket_stamped hstamped, hdescr]
      show (readParams (more ++ [last]) [] (fields.flatten ++ frame.payload)).map _ = _
      rw [hfields, hvalues]
      obtain ⟨frameDevice, frameCommand, params, payload⟩ := frame
      obtain rfl : frameDevice = device := hdevice
      obtain rfl : frameCommand = command := hcommand
      rfl

end PicoV9k.FujiBus
