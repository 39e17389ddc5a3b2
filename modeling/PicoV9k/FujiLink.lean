import PicoV9k.FujiBlocks

/-!
# Frame sizes on the FujiNet link

`send_request` and `recv_reply` put a four-byte header in front of a frame and give up
on one that does not fit its buffer. Stuffing depends on the bytes sent, but its worst
case fits for every sector, every control frame and every answer.
-/
namespace PicoV9k.FujiBus
open PicoV9k.Bus PicoV9k.Framing

abbrev fujicmdAck : Byte := 0x06
abbrev fujiSpiMagicReq : Byte := 0xFB
abbrev fujiSpiMagicRsp : Byte := 0xFA

/-- The static frame buffer of `transact_u8`. -/
abbrev fujiEncU8 : ℕ := fujiDecU8 * 2 + 2

/-- `[magic][len_lo][len_hi][tag]`. -/
def spiHeader (magic tag : Byte) (flen : ℕ) : List Byte :=
  [magic, BitVec.ofNat 8 flen, BitVec.ofNat 8 (flen / 2 ^ 8), tag]

/-- What `send_request` clocks out, unless it refuses the frame. -/
def sendRequest (frame : List Byte) (tag : Byte) : Option (List Byte) :=
  let flen := frame.length
  let total := requestLength frame
  if flen = 0 ∨ fujiSpiReqMax < total then none
  else some (spiHeader fujiSpiMagicReq tag flen ++ frame ++ List.replicate (total - fujiSpiHdr - flen) 0)

/-- `recv_reply` on the bytes the slave clocks in; the empty frame stands for junk. -/
def recvReply (wire : ℕ → Byte) (cap : ℕ) (tag : Byte) : List Byte :=
  let len := (wire 1).toNat + 2 ^ 8 * (wire 2).toNat
  if wire 0 ≠ fujiSpiMagicRsp ∨ wire 3 ≠ tag ∨ len = 0 ∨ cap < len then []
  else (List.range len).map fun i => wire (fujiSpiHdr + i)

/-- The slave's side of a reply. -/
def replyWire (frame : List Byte) (tag : Byte) : ℕ → Byte := fun i =>
  (spiHeader fujiSpiMagicRsp tag frame.length ++ frame).getD i 0

/-- The request of one round of `fuji_write`. -/
def putFrame (device : Byte) (lba : ℕ) (buf : ℕ → Byte) (s : ℕ) : List Byte :=
  fujiBuildFrame device diskcmdPut (some (BitVec.ofNat 32 (lba + s)))
    (window buf (s * fujiSectorSize % 2 ^ 32)) fujiEncMax

lemma slipFrame_packet_le (device command dsc : Byte) (body : List Byte) :
    (slipFrame (packet device command dsc body)).length ≤ (fujiHeaderLen + body.length) * 2 + 2 := by
  have hdouble := slip.encode_length_le (packet device command dsc body)
  rw [packet_length] at hdouble
  rw [slipFrame_length]
  omega

/-- A builder whose buffers allow for the worst case always builds. -/
lemma fujiFinish_fits (device command dsc : Byte) {params payload : List Byte} {deccap cap : ℕ}
    (hdec : fujiHeaderLen + params.length + payload.length ≤ deccap) (hcap : deccap * 2 + 2 ≤ cap) :
    fujiFinish ([device, command, 0, 0, 0, dsc] ++ params) deccap payload cap =
      slipFrame (packet device command dsc (params ++ payload)) := by
  have hworst := slipFrame_packet_le device command dsc (params ++ payload)
  rw [List.length_append] at hworst
  rw [fujiFinish_eq]
  apply if_neg
  rintro (⟨_, hfull⟩ | hfull)
  · omega
  · omega

lemma fujiBuildFrame_fits (device command : Byte) (param : Option (BitVec 32)) {payload : List Byte}
    (h : payload.length ≤ fujiMultiSectors * fujiSectorSize) :
    fujiBuildFrame device command param payload fujiEncMax =
      slipFrame (packet device command (paramDescriptor param) (paramField param ++ payload)) := by
  have hparam : (paramField param).length ≤ 4 := by
    rw [paramField_length]
    cases param <;> simp
  rw [fujiBuildFrame_eq]
  refine fujiFinish_fits device command _ ?_ le_rfl
  unfold fujiDecMax
  omega

lemma fujiBuildFrameU8_fits (device command : Byte) {params payload : List Byte}
    (hlow : 1 ≤ params.length) (hhigh : params.length ≤ 4) (h : payload.length ≤ fujiPathLen) :
    fujiBuildFrameU8 device command params payload fujiEncU8 =
      slipFrame (packet device command (BitVec.ofNat 8 params.length) (params ++ payload)) := by
  unfold fujiBuildFrameU8
  rw [if_neg (by omega)]
  refine fujiFinish_fits device command _ ?_ le_rfl
  unfold fujiDecU8
  omega

/-- A request that the link takes from a buffer of `cap` bytes. -/
structure RequestFits (frame : List Byte) (cap : ℕ) : Prop where
  nonempty : frame ≠ []
  buffer : frame.length ≤ cap
  padded : requestLength frame ≤ fujiSpiReqMax
  sent : ∀ tag, ∃ wire, sendRequest frame tag = some wire ∧ wire.length = requestLength frame

lemma slipFrame_fits {body : List Byte} (device command dsc : Byte) {cap : ℕ}
    (hcap : (fujiHeaderLen + body.length) * 2 + 2 ≤ cap)
    (hlink : (fujiHeaderLen + body.length) * 2 + 2 + fujiSpiHdr ≤ fujiSpiReqMax) :
    RequestFits (slipFrame (packet device command dsc body)) cap := by
  have hworst := slipFrame_packet_le device command dsc body
  have hpos : 0 < (slipFrame (packet device command dsc body)).length := by
    rw [slipFrame_length]
    omega
  generalize slipFrame (packet device command dsc body) = frame at hworst hpos ⊢
  have hpadded : requestLength frame ≤ fujiSpiReqMax := by
    unfold requestLength fujiSpiReqMax fujiSpiHdr at *
    omega
  refine ⟨List.ne_nil_of_length_pos hpos, hworst.trans hcap, hpadded, fun tag => ⟨_, if_neg ?_, ?_⟩⟩
  · omega
  · have hlength : fujiSpiHdr + frame.length ≤ requestLength frame := by
      unfold requestLength
      omega
    simp only [List.length_append, List.length_replicate, spiHeader, List.length_cons, List.length_nil]
    unfold fujiSpiHdr at *
    omega

/-- Every control frame with a parameter fits. -/
lemma controlFrame_fits (device command : Byte) {params payload : List Byte} (hlow : 1 ≤ params.length)
    (hhigh : params.length ≤ 4) (hpayload : payload.length ≤ fujiPathLen) :
    RequestFits (fujiBuildFrameU8 device command params payload fujiEncU8) fujiEncU8 := by
  rw [fujiBuildFrameU8_fits device command hlow hhigh hpayload]
  apply slipFrame_fits
  · rw [List.length_append]
    unfold fujiEncU8 fujiDecU8
    omega
  · rw [List.length_append]
    unfold fujiSpiHdr fujiSpiReqMax fujiHeaderLen fujiPathLen at *
    omega

/-- A reply that fits comes through whatever its bytes are. -/
lemma recvReply_replyWire {frame : List Byte} {cap : ℕ} (tag : Byte) (hne : frame ≠ [])
    (hcap : frame.length ≤ cap) (hlen : frame.length < 2 ^ 16) :
    recvReply (replyWire frame tag) cap tag = frame := by
  have hpos : 0 < frame.length := List.length_pos_of_ne_nil hne
  have hlength : (replyWire frame tag 1).toNat + 2 ^ 8 * (replyWire frame tag 2).toNat = frame.length :=
    stampedLength hlen
  have hmagic : replyWire frame tag 0 = fujiSpiMagicRsp := rfl
  have htag : replyWire frame tag 3 = tag := rfl
  unfold recvReply
  rw [hlength, if_neg (by rw [hmagic, htag]; simp only [ne_eq, not_true_eq_false, false_or]; omega)]
  apply List.ext_getElem
  · rw [List.length_map, List.length_range]
  · intro i hi hi'
    have hskip : replyWire frame tag (fujiSpiHdr + i) = frame.getD i 0 := by
      unfold replyWire spiHeader fujiSpiHdr
      rw [List.getD_eq_getElem?_getD, List.getElem?_append_right (by simp), List.getD_eq_getElem?_getD]
      simp
    rw [List.getElem_map, List.getElem_range, hskip]
    rw [List.getD_eq_getElem?_getD, List.getElem?_eq_getElem hi', Option.getD_some]

/-- Sectors, control frames and answers fit for every content. -/
theorem fujiFrames_fit :
    (∀ (device : Byte) (lba : ℕ) (buf : ℕ → Byte) (s : ℕ), RequestFits (putFrame device lba buf s) fujiEncMax) ∧
    (∀ (device command : Byte) (params payload : List Byte), params.length ≤ 4 →
      payload.length ≤ fujiPathLen →
        (params ≠ [] →
          RequestFits (fujiBuildFrameU8 device command params payload fujiEncU8) fujiEncU8) ∧
        ∀ param, RequestFits (fujiBuildFrame device command param payload fujiEncMax) fujiEncMax) ∧
    (∀ (device : Byte) (param : Option (BitVec 32)) (payload : List Byte),
      payload.length ≤ fujiMultiSectors * fujiSectorSize →
        let ack := packet device fujicmdAck (paramDescriptor param) (paramField param ++ payload)
        let frame := slipFrame ack
        fujiSlipEncode ack fujiEncMax = frame ∧ frame.length ≤ fujiEncMax ∧ frame.length < 2 ^ 16 ∧
          (∀ tag, recvReply (replyWire frame tag) fujiEncMax tag = frame) ∧
          fujiParseFrame frame fujiDecMax = some ⟨device, fujicmdAck, param.toList, payload⟩) := by
  have hparam (param : Option (BitVec 32)) : (paramField param).length ≤ 4 := by
    rw [paramField_length]
    cases param <;> simp
  have hbuild (device command : Byte) (param : Option (BitVec 32)) {payload : List Byte}
      (h : payload.length ≤ 512) :
      RequestFits (fujiBuildFrame device command param payload fujiEncMax) fujiEncMax := by
    have hshort := hparam param
    have hmulti : payload.length ≤ fujiMultiSectors * fujiSectorSize := h.trans (by decide)
    rw [fujiBuildFrame_fits device command param hmulti]
    apply slipFrame_fits
    · rw [List.length_append]
      unfold fujiEncMax fujiDecMax
      omega
    · rw [List.length_append]
      unfold fujiSpiHdr fujiSpiReqMax fujiHeaderLen
      omega
  refine ⟨?_, ?_, ?_⟩
  · intro device lba buf s
    exact hbuild device diskcmdPut _ (by simp [window, fujiSectorSize])
  · intro device command params payload hparams hpayload
    constructor
    · intro hne
      exact controlFrame_fits device command (List.length_pos_of_ne_nil hne) hparams hpayload
    · intro param
      exact hbuild device command param (hpayload.trans (by decide))
  · intro device param payload hpayload
    have hbody : fujiHeaderLen + (paramField param ++ payload).length ≤ fujiDecMax := by
      have hshort := hparam param
      rw [List.length_append]
      unfold fujiDecMax
      omega
    have hworst := slipFrame_packet_le device fujicmdAck (paramDescriptor param) (paramField param ++ payload)
    have hmax : fujiDecMax * 2 + 2 = fujiEncMax ∧ fujiEncMax < 2 ^ 16 := by decide
    have hfits : (slipFrame (packet device fujicmdAck (paramDescriptor param)
        (paramField param ++ payload))).length ≤ fujiEncMax := by omega
    dsimp only
    refine ⟨?_, hfits, by omega, ?_, ?_⟩
    · rw [fujiSlipEncode_eq]
      exact if_neg (by omega)
    · intro tag
      exact recvReply_replyWire tag (List.cons_ne_nil _ _) hfits (by omega)
    · rw [fujiParseFrame_packet hbody (by omega) (paramDescriptor_last param), readParams_param]
      rfl

/-- The longest control frame and the longest answer, with every payload byte escaped. -/
theorem fujiFrames_fit_escaped :
    let path := List.replicate 256 fujiSlipEnd
    let sectors := List.replicate 8192 fujiSlipEsc
    let ack := slipFrame (packet 0x31 fujicmdAck 0x00 sectors)
    RequestFits (fujiBuildFrameU8 0x70 0xE2 [0x01, 0x00, 0x02] path fujiEncU8) fujiEncU8 ∧
      fujiParseFrame ack fujiDecMax = some ⟨0x31, fujicmdAck, [], sectors⟩ := by
  have hpath : (List.replicate 256 fujiSlipEnd).length ≤ fujiPathLen := List.length_replicate.le
  have hsectors : (List.replicate 8192 fujiSlipEsc).length ≤ fujiMultiSectors * fujiSectorSize :=
    List.length_replicate.le
  have hcontrol := (fujiFrames_fit.2.1 0x70 0xE2 [0x01, 0x00, 0x02] _ (by decide) hpath).1
  have hack := fujiFrames_fit.2.2 0x31 none _ hsectors
  exact ⟨hcontrol (by decide), hack.2.2.2.2⟩

end PicoV9k.FujiBus
