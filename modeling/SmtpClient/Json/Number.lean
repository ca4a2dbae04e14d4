import SmtpClient.Json.Scan

/-!
Numbers. Only naturals below `2 ^ 64` are told apart from the rest, but a number whose value is too
large for a double is malformed. A double holds the significand of a number, cut to what fits in
sixty-four bits, times a power of ten, each of the two rounded to fifty-three bits.
-/
namespace SmtpClient.Json

inductive Number where
  | natural (n : Nat)
  | other
  deriving DecidableEq, Repr

/-- The nearest number with fifty-three significant bits, the even one of two. -/
def roundToDouble (n : Nat) : Nat :=
  if n < 1 <<< 53 then n
  else
    let unit := 1 <<< (n.log2 - 52)
    let low := n / unit
    let rest := 2 * (n % unit)
    if unit < rest ∨ rest = unit ∧ low % 2 = 1 then (low + 1) * unit else low * unit

/-- Whether `significand * 10 ^ exponent` goes beyond the largest double. -/
def exceedsDouble (significand : Nat) (exponent : Int) : Bool :=
  if exponent < 0 then false
  else if 308 < exponent then significand ≠ 0
  else
    let power := Nat.pow 10 exponent.toNat
    1 <<< 1024 - 1 <<< 970 ≤ roundToDouble significand * roundToDouble power

/-- Appends decimal digits to a number as long as it stays below `2 ^ 64`. -/
def absorb (n : Nat) : Bytes → Nat × Bytes
  | [] => (n, [])
  | b :: rest =>
    if Bytes.isDigit b ∧ n * 10 + (b.toNat - 48) < Bytes.limit64 then
      absorb (n * 10 + (b.toNat - 48)) rest
    else (n, b :: rest)

def startsWithDigit (input : Bytes) : Bool := input.head?.any Bytes.isDigit

def finishDouble (significand : Nat) (exponent : Int) : Scan Number := fun rest =>
  if exceedsDouble significand exponent then .error .malformed else .ok (.other, rest)

def exponentDigits (significand : Nat) (start : Int) (negative : Bool) : Scan Number
  | [] => .error .truncated
  | input =>
    if !startsWithDigit input then .error .malformed
    else
      let rest := input.dropWhile Bytes.isDigit
      let exponent : Int := ((Bytes.digits? (input.takeWhile Bytes.isDigit)).getD 0 : Nat)
      if exponent ≤ 2147483647 then
        finishDouble significand (if negative then start - exponent else start + exponent) rest
      else if significand ≠ 0 ∧ !negative then .error .malformed
      else .ok (.other, rest)

def exponentPart (significand : Nat) (start : Int) : Scan Number
  | 43 :: rest => exponentDigits significand start false rest
  | 45 :: rest => exponentDigits significand start true rest
  | rest => exponentDigits significand start false rest

def afterDigits (significand : Nat) (exponent : Int) : Scan Number
  | 101 :: rest => exponentPart significand exponent rest
  | 69 :: rest => exponentPart significand exponent rest
  | rest => finishDouble significand exponent rest

/-- The decimals after a point. Those that do not fit any more are passed over. -/
def decimals (significand : Nat) (exponent : Int) : Scan Number := fun input =>
  let (grown, rest) := absorb significand input
  let taken : Int := (input.length - rest.length : Nat)
  if startsWithDigit rest then
    afterDigits grown (exponent - taken) (rest.dropWhile Bytes.isDigit)
  else if taken = 0 then .error (if rest.isEmpty then .truncated else .malformed)
  else afterDigits grown (exponent - taken) rest

/-- What may follow the digits of an integer, of which `dropped` did not fit. -/
def afterInteger (negative : Bool) (significand dropped : Nat) : Scan Number
  | 46 :: rest => decimals significand dropped rest
  | 101 :: rest => exponentPart significand dropped rest
  | 69 :: rest => exponentPart significand dropped rest
  | rest =>
    if dropped ≠ 0 then finishDouble significand dropped rest
    else .ok (if negative then .other else .natural significand, rest)

def unsigned (negative : Bool) : Scan Number
  | [] => .error .truncated
  | 48 :: rest =>
    if startsWithDigit rest then .error .malformed else afterInteger negative 0 0 rest
  | input =>
    if !startsWithDigit input then .error .malformed
    else
      let (significand, rest) := absorb 0 input
      let dropped := rest.takeWhile Bytes.isDigit
      afterInteger negative significand dropped.length (rest.drop dropped.length)

def number : Scan Number
  | 45 :: rest => unsigned true rest
  | input => unsigned false input

theorem length_absorb_le (n : Nat) (input : Bytes) : (absorb n input).2.length ≤ input.length := by
  fun_induction absorb n input with
  | case1 => exact Nat.le_refl _
  | case2 n b rest h ih => exact Nat.le_succ_of_le ih
  | case3 => exact Nat.le_refl _

theorem length_finishDouble_le (n : Nat) (e : Int) (input : Bytes) :
    ∀ r, finishDouble n e input = .ok r → r.2.length ≤ input.length := by
  intro r h
  unfold finishDouble at h
  split at h
  · cases h
  · cases h; exact Nat.le_refl _

theorem length_exponentDigits_le (n : Nat) (e : Int) (negative : Bool) (input : Bytes) :
    ∀ r, exponentDigits n e negative input = .ok r → r.2.length ≤ input.length := by
  intro r h
  have hd := length_dropWhile_le Bytes.isDigit input
  unfold exponentDigits at h
  split at h
  · cases h
  · split at h
    · cases h
    · simp only at h
      split at h
      · exact Nat.le_trans (length_finishDouble_le _ _ _ r h) hd
      · split at h
        · cases h
        · cases h; exact hd

theorem length_exponentPart_le (n : Nat) (e : Int) (input : Bytes) :
    ∀ r, exponentPart n e input = .ok r → r.2.length ≤ input.length := by
  intro r h
  unfold exponentPart at h
  split at h
  · exact Nat.le_succ_of_le (length_exponentDigits_le _ _ _ _ r h)
  · exact Nat.le_succ_of_le (length_exponentDigits_le _ _ _ _ r h)
  · exact length_exponentDigits_le _ _ _ _ r h

theorem length_afterDigits_le (n : Nat) (e : Int) (input : Bytes) :
    ∀ r, afterDigits n e input = .ok r → r.2.length ≤ input.length := by
  intro r h
  unfold afterDigits at h
  split at h
  · exact Nat.le_succ_of_le (length_exponentPart_le _ _ _ r h)
  · exact Nat.le_succ_of_le (length_exponentPart_le _ _ _ r h)
  · exact length_finishDouble_le _ _ _ r h

theorem length_decimals_le (n : Nat) (e : Int) (input : Bytes) :
    ∀ r, decimals n e input = .ok r → r.2.length ≤ input.length := by
  intro r h
  have ha := length_absorb_le n input
  have hd := length_dropWhile_le Bytes.isDigit (absorb n input).2
  simp only [decimals] at h
  split at h
  · exact Nat.le_trans (length_afterDigits_le _ _ _ r h) (Nat.le_trans hd ha)
  · split at h
    · cases h
    · exact Nat.le_trans (length_afterDigits_le _ _ _ r h) ha

theorem length_afterInteger_le (negative : Bool) (n dropped : Nat) (input : Bytes) :
    ∀ r, afterInteger negative n dropped input = .ok r → r.2.length ≤ input.length := by
  intro r h
  unfold afterInteger at h
  split at h
  · exact Nat.le_succ_of_le (length_decimals_le _ _ _ r h)
  · exact Nat.le_succ_of_le (length_exponentPart_le _ _ _ r h)
  · exact Nat.le_succ_of_le (length_exponentPart_le _ _ _ r h)
  · split at h
    · exact length_finishDouble_le _ _ _ r h
    · cases h; exact Nat.le_refl _

theorem length_unsigned_le (negative : Bool) (input : Bytes) :
    ∀ r, unsigned negative input = .ok r → r.2.length ≤ input.length := by
  intro r h
  have ha := length_absorb_le 0 input
  unfold unsigned at h
  split at h
  · cases h
  · split at h
    · cases h
    · exact Nat.le_succ_of_le (length_afterInteger_le _ _ _ _ r h)
  · split at h
    · cases h
    · refine Nat.le_trans (length_afterInteger_le _ _ _ _ r h) ?_
      rw [List.length_drop]
      exact Nat.le_trans (Nat.sub_le _ _) ha

theorem length_number_le (input : Bytes) :
    ∀ r, number input = .ok r → r.2.length ≤ input.length := by
  intro r h
  unfold number at h
  split at h
  · exact Nat.le_succ_of_le (length_unsigned_le _ _ r h)
  · exact length_unsigned_le _ _ r h

def dropSign : Bytes → Bytes
  | 43 :: rest => rest
  | 45 :: rest => rest
  | input => input

def skipExponent (input : Bytes) : Except Fault Bytes :=
  if startsWithDigit (dropSign input) then .ok ((dropSign input).dropWhile Bytes.isDigit)
  else .error .malformed

def skipAfterDigits : Bytes → Except Fault Bytes
  | 101 :: rest => skipExponent rest
  | 69 :: rest => skipExponent rest
  | rest => .ok rest

def skipAfterInteger : Bytes → Except Fault Bytes
  | 46 :: decimals =>
    if startsWithDigit decimals then skipAfterDigits (decimals.dropWhile Bytes.isDigit)
    else .error .malformed
  | rest => skipAfterDigits rest

/-- Passes over a number that nobody reads, after its sign. An end in the middle of it is a fault of
its form. -/
def skipUnsigned : Bytes → Except Fault Bytes
  | [] => .error .malformed
  | b :: rest =>
    if b = 48 then if startsWithDigit rest then .error .malformed else skipAfterInteger rest
    else if Bytes.isDigit b then skipAfterInteger (rest.dropWhile Bytes.isDigit)
    else .error .malformed

def skipNumber : Bytes → Except Fault Bytes
  | 45 :: rest => skipUnsigned rest
  | input => skipUnsigned input

theorem length_dropSign_le (input : Bytes) : (dropSign input).length ≤ input.length := by
  unfold dropSign
  split
  · exact Nat.le_succ _
  · exact Nat.le_succ _
  · exact Nat.le_refl _

theorem length_skipExponent_le {input rest : Bytes} (h : skipExponent input = .ok rest) :
    rest.length ≤ input.length := by
  unfold skipExponent at h
  split at h
  · cases h
    exact Nat.le_trans (length_dropWhile_le _ _) (length_dropSign_le input)
  · cases h

theorem length_skipAfterDigits_le {input rest : Bytes} (h : skipAfterDigits input = .ok rest) :
    rest.length ≤ input.length := by
  unfold skipAfterDigits at h
  split at h
  · exact Nat.le_succ_of_le (length_skipExponent_le h)
  · exact Nat.le_succ_of_le (length_skipExponent_le h)
  · cases h; exact Nat.le_refl _

theorem length_skipAfterInteger_le {input rest : Bytes} (h : skipAfterInteger input = .ok rest) :
    rest.length ≤ input.length := by
  unfold skipAfterInteger at h
  split at h
  · split at h
    · exact Nat.le_succ_of_le
        (Nat.le_trans (length_skipAfterDigits_le h) (length_dropWhile_le _ _))
    · cases h
  · exact length_skipAfterDigits_le h

theorem length_skipUnsigned_lt {input rest : Bytes} (h : skipUnsigned input = .ok rest) :
    rest.length < input.length := by
  unfold skipUnsigned at h
  split at h
  · cases h
  · refine Nat.lt_succ_of_le ?_
    split at h
    · split at h
      · cases h
      · exact length_skipAfterInteger_le h
    · split at h
      · exact Nat.le_trans (length_skipAfterInteger_le h) (length_dropWhile_le _ _)
      · cases h

theorem length_skipNumber_lt {input rest : Bytes} (h : skipNumber input = .ok rest) :
    rest.length < input.length := by
  unfold skipNumber at h
  split at h
  · exact Nat.lt_succ_of_lt (length_skipUnsigned_lt h)
  · exact length_skipUnsigned_lt h

end SmtpClient.Json
