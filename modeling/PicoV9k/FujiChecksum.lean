import Mathlib.Algebra.BigOperators.Group.List.Basic
import PicoV9k.EndAroundCarry
import PicoV9k.FujiFrame

/-!
# The FujiBus checksum

`fuji_checksum` is the end-around-carry sum, so a packet with one byte changed is
rejected unless the change is the one exchange that such a sum cannot see.
-/
namespace PicoV9k.FujiBus
open PicoV9k.Bus PicoV9k.Framing

lemma foldCarry_toNat {chk : BitVec 16} (h : chk.toNat ≤ 255) (b : Byte) :
    (foldCarry chk b).toNat = addCarry 255 chk.toNat b.toNat := by
  have hb := b.isLt
  have hsum : (chk + b.setWidth 16).toNat = chk.toNat + b.toNat := by
    rw [BitVec.toNat_add, BitVec.toNat_setWidth]
    omega
  have hhigh : ((chk + b.setWidth 16) >>> 8).toNat = (chk.toNat + b.toNat) / 256 := by
    rw [BitVec.toNat_ushiftRight, hsum, Nat.shiftRight_eq_div_pow]
  have hlow : ((chk + b.setWidth 16) &&& 0xFF).toNat = (chk.toNat + b.toNat) % 256 := by
    have hmask : (0xFF : BitVec 16).toNat = 2 ^ 8 - 1 := rfl
    rw [BitVec.toNat_and, hsum, hmask, Nat.and_two_pow_sub_one_eq_mod]
  unfold foldCarry addCarry
  rw [BitVec.toNat_add, hhigh, hlow]
  omega

lemma foldl_foldCarry (buf : List Byte) (chk : BitVec 16) (h : chk.toNat ≤ 255) :
    (buf.foldl foldCarry chk).toNat = (buf.map BitVec.toNat).foldl (addCarry 255) chk.toNat ∧
      (buf.foldl foldCarry chk).toNat ≤ 255 := by
  induction buf generalizing chk with
  | nil => exact ⟨rfl, h⟩
  | cons b buf ih =>
    have hb := b.isLt
    have hstep := foldCarry_toNat h b
    have hbound : (foldCarry chk b).toNat ≤ 255 := by
      rw [hstep, addCarry_eq h (by omega)]
      exact carryDigit_le (by decide) _
    obtain ⟨hfold, hle⟩ := ih _ hbound
    rw [List.map_cons, List.foldl_cons, List.foldl_cons, ← hstep]
    exact ⟨hfold, hle⟩

/-- The sum of the bytes of a packet. -/
def byteSum (buf : List Byte) : ℕ := (buf.map BitVec.toNat).sum

lemma byteSum_cons (b : Byte) (l : List Byte) : byteSum (b :: l) = b.toNat + byteSum l := rfl

lemma byteSum_eq_zero (buf : List Byte) : byteSum buf = 0 ↔ ∀ b ∈ buf, b = 0 := by
  induction buf with
  | nil => simp [byteSum]
  | cons b buf ih =>
    have hb : b.toNat = 0 ↔ b = 0 := by
      rw [← BitVec.toNat_inj]
      rfl
    rw [byteSum_cons, Nat.add_eq_zero_iff, ih, hb, List.forall_mem_cons]

/-- The checksum is the end-around-carry digit of the sum. -/
lemma fujiChecksum_toNat (buf : List Byte) :
    (fujiChecksum buf).toNat = carryDigit 255 (byteSum buf) := by
  obtain ⟨hfold, hle⟩ := foldl_foldCarry buf 0 (by decide)
  have hbytes : ∀ v ∈ buf.map BitVec.toNat, v ≤ 255 := by
    intro v hv
    obtain ⟨b, _, rfl⟩ := List.mem_map.mp hv
    have hb := b.isLt
    omega
  have htotal := foldl_addCarry (by decide : 0 < 255) _ hbytes 0
  rw [carryDigit_zero, Nat.zero_add] at htotal
  unfold fujiChecksum byteSum
  rw [BitVec.toNat_setWidth, Nat.mod_eq_of_lt (by omega), hfold]
  exact htotal

/-- The length field and the checksum of a decoded packet, as the parser tests them. -/
structure Stamped (d : List Byte) : Prop where
  header : fujiHeaderLen ≤ d.length
  length : (d.getD 2 0).toNat + 2 ^ 8 * (d.getD 3 0).toNat = d.length
  checksum : fujiChecksum (d.set 4 0) = d.getD 4 0

/-- The parser behind the decoder. -/
def parsePacket (scratch : List Byte) : Option FujiFrame :=
  match scratch with
  | device :: command :: low :: high :: ck1 :: dsc :: rest =>
    if low.toNat + 2 ^ 8 * high.toNat ≠ scratch.length then none
    else if fujiChecksum (device :: command :: low :: high :: 0 :: dsc :: rest) ≠ ck1 then none
    else do
      let (descrs, rest) ← readDescriptors 1 dsc rest
      let (params, payload) ← readParams descrs [] rest
      some ⟨device, command, params, payload⟩
  | _ => none

lemma fujiParseFrame_eq (input : List Byte) (scap : ℕ) :
    fujiParseFrame input scap = parsePacket (fujiSlipDecode input scap) := rfl

lemma stamped_of_parsePacket {d : List Byte} {frame : FujiFrame} (h : parsePacket d = some frame) :
    Stamped d := by
  unfold parsePacket at h
  split at h
  next device command low high ck1 dsc rest =>
    split at h
    · exact absurd h (by simp)
    next hlength =>
      split at h
      · exact absurd h (by simp)
      next hchecksum => exact ⟨by simp [fujiHeaderLen], not_not.mp hlength, not_not.mp hchecksum⟩
  · exact absurd h (by simp)

lemma stamped_of_parse {input : List Byte} {scap : ℕ} {frame : FujiFrame}
    (h : fujiParseFrame input scap = some frame) : Stamped (fujiSlipDecode input scap) :=
  stamped_of_parsePacket (fujiParseFrame_eq input scap ▸ h)

/-- Only a stamped packet survives its SLIP encoding. -/
lemma fujiParseFrame_encode_none {d : List Byte} (h : ¬ Stamped d) (cap scap : ℕ) :
    fujiParseFrame (fujiSlipEncode d cap) scap = none := by
  rw [← Option.not_isSome_iff_eq_none, Option.isSome_iff_exists]
  rintro ⟨frame, hframe⟩
  have hstamped := stamped_of_parse hframe
  by_cases hcap : cap < (slipFrame d).length
  · rw [fujiSlipEncode_eq, if_pos hcap] at hstamped
    have hempty : fujiSlipDecode [] scap = [] := rfl
    rw [hempty] at hstamped
    exact absurd hstamped.header (by decide)
  · rw [fujiSlipEncode_eq, if_neg hcap] at hstamped
    by_cases hscap : d.length ≤ scap
    · rw [fujiSlipDecode_frame d hscap] at hstamped
      exact h hstamped
    · have hdecode : slip.decode (slip.encode d ++ [fujiSlipEnd]) = some d := slip.decode_encode d []
      have hshort : fujiSlipDecode (slipFrame d) scap = [] := by
        show slipDecodeLoop scap (slip.encode d ++ [fujiSlipEnd]) [] = []
        rw [slipDecodeLoop_eq _ _ _ (Nat.zero_le scap), hdecode, decodedInto]
        exact if_pos (by simpa using hscap)
      rw [hshort] at hstamped
      exact absurd hstamped.header (by decide)

lemma byteSum_set (l : List Byte) {i : ℕ} (h : i < l.length) (v : Byte) :
    byteSum (l.set i v) + (l.getD i 0).toNat = byteSum l + v.toNat := by
  induction l generalizing i with
  | nil => exact absurd h (Nat.not_lt_zero i)
  | cons b l ih =>
    cases i with
    | zero =>
      simp only [List.set_cons_zero, List.getD_cons_zero, byteSum_cons]
      omega
    | succ i =>
      have hrest := ih (Nat.lt_of_succ_lt_succ h)
      simp only [List.set_cons_succ, List.getD_cons_succ, byteSum_cons]
      omega

/-- Exchanging `0x00` and `0xFF` changes the sum by the modulus. -/
def Exchanges (old new : Byte) : Prop := old = 0x00 ∧ new = 0xFF ∨ old = 0xFF ∧ new = 0x00

instance (old new : Byte) : Decidable (Exchanges old new) := inferInstanceAs (Decidable (_ ∨ _))

/-- Equal checksums of packets that differ in one byte. -/
lemma exchanges_of_checksum {l : List Byte} {i : ℕ} (hi : i < l.length) {v : Byte}
    (hne : v ≠ l.getD i 0) (h : fujiChecksum (l.set i v) = fujiChecksum l) :
    Exchanges (l.getD i 0) v := by
  have hsum := byteSum_set l hi v
  generalize l.getD i 0 = old at hne hsum ⊢
  have hold := old.isLt
  have hv := v.isLt
  have hne' : v.toNat ≠ old.toNat := fun heq => hne (BitVec.toNat_inj.mp heq)
  have hdigit : carryDigit 255 (byteSum (l.set i v)) = carryDigit 255 (byteSum l) := by
    rw [← fujiChecksum_toNat, ← fujiChecksum_toNat, h]
  by_cases hup : old.toNat ≤ v.toNat
  · have hgrow : byteSum (l.set i v) = byteSum l + (v.toNat - old.toNat) := by omega
    rw [hgrow] at hdigit
    obtain hsame | ⟨hfull, _⟩ := carryDigit_injOn (by omega) hdigit
    · omega
    · have hfirst : old.toNat = 0 := by omega
      have hsecond : v.toNat = 255 := by omega
      exact .inl ⟨BitVec.toNat_inj.mp hfirst, BitVec.toNat_inj.mp hsecond⟩
  · have hgrow : byteSum l = byteSum (l.set i v) + (old.toNat - v.toNat) := by omega
    rw [hgrow] at hdigit
    obtain hsame | ⟨hfull, _⟩ := carryDigit_injOn (by omega) hdigit.symm
    · omega
    · have hfirst : old.toNat = 255 := by omega
      have hsecond : v.toNat = 0 := by omega
      exact .inr ⟨BitVec.toNat_inj.mp hfirst, BitVec.toNat_inj.mp hsecond⟩

lemma getD_set_self {l : List Byte} {i : ℕ} (h : i < l.length) (v : Byte) : (l.set i v).getD i 0 = v := by
  simp [List.getD_eq_getElem?_getD, h]

lemma getD_set_of_ne (l : List Byte) {i j : ℕ} (h : i ≠ j) (v : Byte) :
    (l.set i v).getD j 0 = l.getD j 0 := by
  simp [List.getD_eq_getElem?_getD, List.getElem?_set_ne h]

/-- The length and checksum fields are single bytes at fixed places. -/
lemma Stamped.set_eq {d : List Byte} {i : ℕ} {v : Byte} (h : Stamped d) (h' : Stamped (d.set i v))
    (hfield : i = 2 ∨ i = 3 ∨ i = 4) : v = d.getD i 0 := by
  have hheader : 6 ≤ d.length := h.header
  have hlength := h.length
  have hlength' := h'.length
  have hchecksum' := h'.checksum
  rw [List.length_set] at hlength'
  obtain rfl | rfl | rfl := hfield
  · rw [getD_set_self (by omega), getD_set_of_ne d (by decide)] at hlength'
    exact BitVec.toNat_inj.mp (by omega)
  · rw [getD_set_self (by omega), getD_set_of_ne d (by decide)] at hlength'
    exact BitVec.toNat_inj.mp (by omega)
  · rw [getD_set_self (by omega), List.set_set, h.checksum] at hchecksum'
    exact hchecksum'.symm

/-- The other bytes are covered by the sum. -/
lemma Stamped.set_exchanges {d : List Byte} {i : ℕ} {v : Byte} (h : Stamped d)
    (h' : Stamped (d.set i v)) (hi : i < d.length) (hne : v ≠ d.getD i 0) (hslot : i ≠ 4) :
    Exchanges (d.getD i 0) v := by
  have hsame := h'.checksum
  have hi' : i < (d.set 4 0).length := by rwa [List.length_set]
  rw [getD_set_of_ne d hslot, List.set_comm _ _ hslot, ← h.checksum] at hsame
  rw [← getD_set_of_ne d hslot.symm 0] at hne ⊢
  exact exchanges_of_checksum hi' hne hsame

/-- The checksum in closed form, and no changed byte of an accepted packet goes unseen, but for the
exchange of `0x00` and `0xFF` outside the length and checksum fields. -/
theorem fujiChecksum_detects :
    (∀ buf : List Byte, (fujiChecksum buf).toNat =
      if ∀ b ∈ buf, b = 0 then 0 else 1 + ((buf.map BitVec.toNat).sum - 1) % 255) ∧
    ∀ (input : List Byte) (scap : ℕ) (frame : FujiFrame), fujiParseFrame input scap = some frame →
      let d := fujiSlipDecode input scap
      ∀ i < d.length, ∀ v ≠ d.getD i 0,
        ((i = 2 ∨ i = 3 ∨ i = 4) ∨ ¬ Exchanges (d.getD i 0) v) →
          ∀ cap scap', fujiParseFrame (fujiSlipEncode (d.set i v) cap) scap' = none := by
  constructor
  · intro buf
    rw [fujiChecksum_toNat, carryDigit]
    exact if_congr (byteSum_eq_zero buf) rfl rfl
  · intro input scap frame hframe d i hi v hne hplace cap scap'
    have hd : Stamped d := stamped_of_parse hframe
    apply fujiParseFrame_encode_none
    intro hchanged
    by_cases hfield : i = 2 ∨ i = 3 ∨ i = 4
    · exact hne (hd.set_eq hchanged hfield)
    · obtain hfield' | hexchange := hplace
      · exact hfield hfield'
      · exact hexchange (hd.set_exchanges hchanged hi hne (by omega))

/-- The acknowledgement without parameters, its command byte turned into that of the refusal. -/
theorem fujiChecksum_detects_command :
    fujiParseFrame (fujiSlipEncode [0x31, 0x15, 0x06, 0x00, 0x3D, 0x00] fujiEncMax) fujiDecMax = none := by
  have hd : fujiSlipDecode [0xC0, 0x31, 0x06, 0x06, 0x00, 0x3D, 0x00, 0xC0] fujiDecMax =
      [0x31, 0x06, 0x06, 0x00, 0x3D, 0x00] := by decide
  have h := fujiChecksum_detects.2 [0xC0, 0x31, 0x06, 0x06, 0x00, 0x3D, 0x00, 0xC0] fujiDecMax
    ⟨0x31, 0x06, [], []⟩ (by decide)
  dsimp only at h
  rw [hd] at h
  exact h 1 (by decide) 0x15 (by decide) (.inr (by decide)) fujiEncMax fujiDecMax

end PicoV9k.FujiBus
