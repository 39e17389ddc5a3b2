import Mathlib.Data.List.Basic

/-!
# Byte stuffing

A frame ends at a delimiter. A payload byte that would be taken for the delimiter
or for the escape byte is sent as an escape pair instead, so decoding up to the
first delimiter gives back what was encoded.
-/
namespace PicoV9k.Framing

variable {α : Type*}

/-- The delimiter, the escape byte and the codes that stand for them after an escape. -/
structure Stuffing (α : Type*) where
  stop : α
  escape : α
  stopCode : α
  escapeCode : α
  escape_ne : escape ≠ stop
  code_ne : escapeCode ≠ stopCode

variable [DecidableEq α] (s : Stuffing α)

def Stuffing.encodeByte (v : α) : List α :=
  if v = s.stop then [s.escape, s.stopCode]
  else if v = s.escape then [s.escape, s.escapeCode]
  else [v]

def Stuffing.encode (l : List α) : List α := l.flatMap s.encodeByte

/-- What the byte after an escape stands for; an unknown code stands for nothing. -/
def Stuffing.decodeCode (v : α) : List α :=
  if v = s.stopCode then [s.stop] else if v = s.escapeCode then [s.escape] else []

/-- The payload up to the first delimiter, if there is one. -/
def Stuffing.decode : List α → Option (List α)
  | [] => none
  | v :: rest =>
    if v = s.stop then some []
    else if v = s.escape then
      match rest with
      | [] => none
      | w :: rest => (Stuffing.decode rest).map (s.decodeCode w ++ ·)
    else (Stuffing.decode rest).map (v :: ·)

@[simp] lemma Stuffing.encode_nil : s.encode [] = [] := rfl

lemma Stuffing.encode_cons (v : α) (l : List α) : s.encode (v :: l) = s.encodeByte v ++ s.encode l := rfl

/-- Stuffing at most doubles the length. -/
lemma Stuffing.encode_length_le (l : List α) : (s.encode l).length ≤ 2 * l.length := by
  induction l with
  | nil => exact Nat.le_refl _
  | cons v l ih =>
    have hbyte : (s.encodeByte v).length ≤ 2 := by
      unfold encodeByte
      split
      · simp
      · split <;> simp
    rw [encode_cons, List.length_append, List.length_cons]
    omega

/-- Stuffing adds one byte for each delimiter and each escape byte. -/
lemma Stuffing.encode_length (l : List α) :
    (s.encode l).length = l.length + l.count s.stop + l.count s.escape := by
  induction l with
  | nil => rfl
  | cons v l ih =>
    have hbyte : (s.encodeByte v).length =
        1 + (if v = s.stop then 1 else 0) + (if v = s.escape then 1 else 0) := by
      unfold encodeByte
      by_cases hs : v = s.stop
      · simp [hs, s.escape_ne.symm]
      · by_cases he : v = s.escape
        · simp [he, s.escape_ne]
        · simp [hs, he]
    simp only [encode_cons, List.length_append, List.length_cons, List.count_cons, beq_iff_eq, ih, hbyte]
    omega

/-- No delimiter stands inside a frame. -/
lemma Stuffing.stop_notMem_encode (hstop : s.stopCode ≠ s.stop) (hescape : s.escapeCode ≠ s.stop)
    (l : List α) : s.stop ∉ s.encode l := by
  induction l with
  | nil => exact List.not_mem_nil
  | cons v l ih =>
    rw [encode_cons, List.mem_append, not_or]
    refine ⟨?_, ih⟩
    unfold encodeByte
    split
    · simp [s.escape_ne.symm, hstop.symm]
    · split
      · simp [s.escape_ne.symm, hescape.symm]
      next hv _ => simpa using Ne.symm hv

lemma Stuffing.decode_stop (rest : List α) : s.decode (s.stop :: rest) = some [] := by
  rw [decode.eq_def]
  exact if_pos rfl

lemma Stuffing.decode_escape (w : α) (rest : List α) :
    s.decode (s.escape :: w :: rest) = (s.decode rest).map (s.decodeCode w ++ ·) := by
  rw [decode.eq_def]
  dsimp only
  rw [if_neg s.escape_ne, if_pos rfl]

lemma Stuffing.decode_plain {v : α} (hs : v ≠ s.stop) (he : v ≠ s.escape) (rest : List α) :
    s.decode (v :: rest) = (s.decode rest).map (v :: ·) := by
  rw [decode.eq_def]
  dsimp only
  rw [if_neg hs, if_neg he]

lemma Stuffing.decode_encodeByte (v : α) (rest : List α) :
    s.decode (s.encodeByte v ++ rest) = (s.decode rest).map (v :: ·) := by
  by_cases hs : v = s.stop
  · have hcode : s.decodeCode s.stopCode = [v] := by
      rw [decodeCode, if_pos rfl, hs]
    rw [encodeByte, if_pos hs]
    exact (s.decode_escape s.stopCode rest).trans (by rw [hcode]; rfl)
  · by_cases he : v = s.escape
    · have hcode : s.decodeCode s.escapeCode = [v] := by
        rw [decodeCode, if_neg s.code_ne, if_pos rfl, he]
      rw [encodeByte, if_neg hs, if_pos he]
      exact (s.decode_escape s.escapeCode rest).trans (by rw [hcode]; rfl)
    · rw [encodeByte, if_neg hs, if_neg he]
      exact s.decode_plain hs he rest

/-- Decoding reads exactly the encoded payload, whatever follows its delimiter. -/
theorem Stuffing.decode_encode (l rest : List α) : s.decode (s.encode l ++ s.stop :: rest) = some l := by
  induction l with
  | nil => exact s.decode_stop rest
  | cons v l ih => rw [encode_cons, List.append_assoc, decode_encodeByte, ih, Option.map_some]

/-- What stands between two delimiters: a payload byte, or an escape with the byte behind it. -/
inductive Token (α : Type*)
  | plain (v : α)
  | escaped (w : α)

def Stuffing.Legal : Token α → Prop
  | .plain v => v ≠ s.stop ∧ v ≠ s.escape
  | .escaped _ => True

def Stuffing.tokenBytes : Token α → List α
  | .plain v => [v]
  | .escaped w => [s.escape, w]

/-- An escape with an unknown code stands for nothing. -/
def Stuffing.tokenValue : Token α → List α
  | .plain v => [v]
  | .escaped w => s.decodeCode w

lemma Stuffing.decode_token {t : Token α} (ht : s.Legal t) (rest : List α) :
    s.decode (s.tokenBytes t ++ rest) = (s.decode rest).map (s.tokenValue t ++ ·) := by
  cases t with
  | plain v => exact s.decode_plain ht.1 ht.2 rest
  | escaped w => exact s.decode_escape w rest

/-- Decoding succeeds on the tokens in front of a delimiter, and on nothing else. -/
theorem Stuffing.decode_eq_some {l d : List α} : s.decode l = some d ↔
    ∃ (tokens : List (Token α)) (rest : List α), (∀ t ∈ tokens, s.Legal t) ∧
      l = tokens.flatMap s.tokenBytes ++ s.stop :: rest ∧
      d = tokens.flatMap s.tokenValue := by
  constructor
  · intro h
    fun_induction s.decode l generalizing d with
    | case1 => exact absurd h (by simp)
    | case2 rest =>
      rw [Option.some.injEq] at h
      exact ⟨[], rest, List.forall_mem_nil _, rfl, h.symm⟩
    | case3 => exact absurd h (by simp)
    | case4 w rest hne ih =>
      obtain ⟨d', hd', rfl⟩ := Option.map_eq_some_iff.mp h
      obtain ⟨tokens, rest', hlegal, rfl, rfl⟩ := ih hd'
      exact ⟨.escaped w :: tokens, rest', List.forall_mem_cons.mpr ⟨trivial, hlegal⟩, rfl, rfl⟩
    | case5 v rest hstop hescape ih =>
      obtain ⟨d', hd', rfl⟩ := Option.map_eq_some_iff.mp h
      obtain ⟨tokens, rest', hlegal, rfl, rfl⟩ := ih hd'
      exact ⟨.plain v :: tokens, rest', List.forall_mem_cons.mpr ⟨⟨hstop, hescape⟩, hlegal⟩, rfl, rfl⟩
  · rintro ⟨tokens, rest, hlegal, rfl, rfl⟩
    induction tokens with
    | nil => exact s.decode_stop rest
    | cons t tokens ih =>
      obtain ⟨ht, htokens⟩ := List.forall_mem_cons.mp hlegal
      rw [List.flatMap_cons, List.flatMap_cons, List.append_assoc, s.decode_token ht, ih htokens]
      rfl

end PicoV9k.Framing
