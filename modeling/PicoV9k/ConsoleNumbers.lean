import PicoV9k.MgmtConsole

/-!
# Numbers of the console

What `printf` and `strtoul` make of a number, and that digits are read back.
-/
namespace PicoV9k.Console
open PicoV9k.Bus PicoV9k.Mgmt

abbrev Line := List Byte

def decimalDigit (ch : Char) : Byte := BitVec.ofNat 8 ch.toNat

def hexDigit (ch : Char) : Byte := BitVec.ofNat 8 ch.toUpper.toNat

def decimal (n : ℕ) : Line := (Nat.toDigits 10 n).map decimalDigit

def signed (i : ℤ) : Line := if i < 0 then 0x2D :: decimal i.natAbs else decimal i.natAbs

/-- A field of at least `k` bytes. -/
def padded (fill : Byte) (k : ℕ) (digits : Line) : Line := List.replicate (k - digits.length) fill ++ digits

/-- `%0kX`. -/
def hex (k n : ℕ) : Line := padded 0x30 k ((Nat.toDigits 16 n).map hexDigit)

/-- `%klu`. -/
def spaced (k n : ℕ) : Line := padded 0x20 k (decimal n)

def digitValue (b : Byte) : Option ℕ :=
  if 0x30 ≤ b.toNat ∧ b.toNat ≤ 0x39 then some (b.toNat - 0x30)
  else if 0x41 ≤ b.toNat ∧ b.toNat ≤ 0x5A then some (b.toNat - 0x41 + 10)
  else if 0x61 ≤ b.toNat ∧ b.toNat ≤ 0x7A then some (b.toNat - 0x61 + 10)
  else none

def isDigitOf (base : ℕ) (b : Byte) : Bool := (digitValue b).any (· < base)

/-- The digits in front, with their value, and what follows them. -/
def readDigits (base : ℕ) (s : Line) : ℕ × Line :=
  ((s.takeWhile (isDigitOf base)).foldl (fun n b => base * n + (digitValue b).getD 0) 0,
    s.dropWhile (isDigitOf base))

def isSpace (b : Byte) : Bool := b.toNat == 0x20 || (decide (0x09 ≤ b.toNat) && decide (b.toNat ≤ 0x0D))

/-- `strtoul` for 32-bit longs: the value, and the rest of the string. -/
def strtoul (base : ℕ) (s : Line) : BitVec 32 × Line :=
  let body := s.dropWhile isSpace
  let negative := body.head? == some 0x2D
  let digits := if negative || body.head? == some 0x2B then body.drop 1 else body
  let hexMark := digits.head? == some 0x30 && ((digits.drop 1).head?.any fun b => b == 0x78 || b == 0x58) &&
    (digits.drop 2).head?.any (isDigitOf 16)
  let base' := if base ≠ 0 then base else if hexMark then 16 else if digits.head? == some 0x30 then 8 else 10
  let digits := if (base = 0 ∨ base = 16) ∧ hexMark then digits.drop 2 else digits
  if !digits.head?.any (isDigitOf base') then (0, s)
  else
    let (n, rest) := readDigits base' digits
    let value := if 2 ^ 32 ≤ n then BitVec.allOnes 32 else if negative then -BitVec.ofNat 32 n else BitVec.ofNat 32 n
    (value, rest)

section
variable {base : ℕ} {digit : Char → Byte}

lemma mem_toDigits (hbase : 1 < base) {n : ℕ} {b : Byte} (h : b ∈ (Nat.toDigits base n).map digit) :
    ∃ d < base, b = digit d.digitChar := by
  induction n using Nat.strong_induction_on with
  | h n ih =>
    rw [Nat.toDigits_eq_if hbase] at h
    split at h
    next hn => exact ⟨n, hn, by simpa using h⟩
    next hn =>
      rw [List.map_append, List.mem_append] at h
      rcases h with h | h
      · exact ih (n / base) (Nat.div_lt_self (by omega) hbase) h
      · exact ⟨n % base, Nat.mod_lt n (by omega), by simpa using h⟩

/-- Digits that are told apart give the number back. -/
lemma foldl_toDigits (hbase : 1 < base) (hdigit : ∀ d < base, digitValue (digit d.digitChar) = some d) (n : ℕ) :
    ((Nat.toDigits base n).map digit).foldl (fun n b => base * n + (digitValue b).getD 0) 0 = n := by
  induction n using Nat.strong_induction_on with
  | h n ih =>
    rw [Nat.toDigits_eq_if hbase]
    split
    next hn => simp [hdigit n hn]
    next hn =>
      have hfront := ih (n / base) (Nat.div_lt_self (by omega) hbase)
      have hlast := hdigit (n % base) (Nat.mod_lt n (by omega))
      rw [List.map_append, List.foldl_append, hfront]
      simp [hlast, Nat.div_add_mod]

lemma isDigitOf_toDigits (hbase : 1 < base) (hdigit : ∀ d < base, digitValue (digit d.digitChar) = some d) {n : ℕ}
    {b : Byte} (h : b ∈ (Nat.toDigits base n).map digit) : isDigitOf base b = true := by
  obtain ⟨d, hd, rfl⟩ := mem_toDigits hbase h
  simp [isDigitOf, hdigit d hd, hd]

end

/-- Digits are read up to the first byte that is none. -/
lemma readDigits_append {base : ℕ} {digits rest : Line} (hdigits : ∀ b ∈ digits, isDigitOf base b = true)
    (hrest : rest.head?.any (isDigitOf base) = false) : readDigits base (digits ++ rest) =
      (digits.foldl (fun n b => base * n + (digitValue b).getD 0) 0, rest) := by
  have htake : rest.takeWhile (isDigitOf base) = [] := by cases rest <;> simp_all
  have hdrop : rest.dropWhile (isDigitOf base) = rest := by cases rest <;> simp_all
  rw [readDigits, List.takeWhile_append_of_pos hdigits, List.dropWhile_append_of_pos hdigits, htake, hdrop,
    List.append_nil]

lemma digitValue_decimalDigit : ∀ d < 10, digitValue (decimalDigit d.digitChar) = some d := by decide

lemma digitValue_hexDigit : ∀ d < 16, digitValue (hexDigit d.digitChar) = some d := by decide

@[simp] lemma decimal_ne_nil (n : ℕ) : decimal n ≠ [] := by simp [decimal]

lemma mem_decimal {b : Byte} {n : ℕ} (h : b ∈ decimal n) : 0x30 ≤ b.toNat ∧ b.toNat ≤ 0x39 := by
  have hrange : ∀ d < 10, 0x30 ≤ (decimalDigit d.digitChar).toNat ∧
      (decimalDigit d.digitChar).toNat ≤ 0x39 := by decide
  obtain ⟨d, hd, rfl⟩ := mem_toDigits (by norm_num) h
  exact hrange d hd

lemma mem_hex {b : Byte} {k n : ℕ} (h : b ∈ hex k n) : 0x30 ≤ b.toNat ∧ b.toNat ≤ 0x46 := by
  have hrange : ∀ d < 16, 0x30 ≤ (hexDigit d.digitChar).toNat ∧
      (hexDigit d.digitChar).toNat ≤ 0x46 := by decide
  rcases List.mem_append.mp h with h | h
  · rw [List.eq_of_mem_replicate h]
    decide
  · obtain ⟨d, hd, rfl⟩ := mem_toDigits (by norm_num) h
    exact hrange d hd

theorem readDigits_decimal (n : ℕ) {rest : Line} (hrest : rest.head?.any (isDigitOf 10) = false) :
    readDigits 10 (decimal n ++ rest) = (n, rest) := by
  have hvalue := foldl_toDigits (by norm_num : 1 < 10) digitValue_decimalDigit n
  have hdigits : ∀ b ∈ decimal n, isDigitOf 10 b = true :=
    fun b hb => isDigitOf_toDigits (by norm_num) digitValue_decimalDigit hb
  rw [readDigits_append hdigits hrest, decimal, hvalue]

/-- Zeros in front do not count. -/
theorem readDigits_hex (k n : ℕ) {rest : Line} (hrest : rest.head?.any (isDigitOf 16) = false) :
    readDigits 16 (hex k n ++ rest) = (n, rest) := by
  have hzeros : ∀ j, (List.replicate j (0x30 : Byte)).foldl (fun n b => 16 * n + (digitValue b).getD 0) 0 = 0 := by
    intro j
    induction j with
    | zero => rfl
    | succ j ih => exact ih
  have hdigits : ∀ b ∈ hex k n, isDigitOf 16 b = true := by
    intro b hb
    rcases List.mem_append.mp hb with hb | hb
    · rw [List.eq_of_mem_replicate hb]
      decide
    · exact isDigitOf_toDigits (by norm_num) digitValue_hexDigit hb
  have hvalue := foldl_toDigits (by norm_num : 1 < 16) digitValue_hexDigit n
  rw [readDigits_append hdigits hrest, hex, padded, List.foldl_append, hzeros, hvalue]

end PicoV9k.Console
