import SmtpClient.Text.Utf8

/-!
Reading JSON from the left. A scan takes the bytes of one piece and gives what follows it. The
first fault decides: the text is malformed, or it ends too early, or it is fine but of another kind
than is wanted.
-/
namespace SmtpClient.Json

inductive Fault where
  | malformed
  | truncated
  | mismatched
  deriving DecidableEq, Repr

abbrev Scan (α : Type) := Bytes → Except Fault (α × Bytes)

def isSpace (b : UInt8) : Bool := b = 32 || b = 9 || b = 10 || b = 13

def skipSpaces (input : Bytes) : Bytes := input.dropWhile isSpace

theorem length_dropWhile_le (p : UInt8 → Bool) (input : Bytes) :
    (input.dropWhile p).length ≤ input.length := (List.dropWhile_sublist p).length_le

theorem length_skipSpaces_le (input : Bytes) : (skipSpaces input).length ≤ input.length :=
  length_dropWhile_le _ _

/-- The rest of a word such as `null` after its first letter. -/
def word : Bytes → Bytes → Except Fault Bytes
  | [], input => .ok input
  | _ :: _, [] => .error .truncated
  | w :: ws, b :: rest => if b = w then word ws rest else .error .malformed

theorem length_word_le {ws input rest : Bytes} (h : word ws input = .ok rest) :
    rest.length ≤ input.length := by
  fun_induction word ws input with
  | case1 => cases h; exact Nat.le_refl _
  | case2 => cases h
  | case3 ws b input ih => exact Nat.le_succ_of_le (ih h)
  | case4 => cases h

def wordOfNull : Bytes := [117, 108, 108]
def wordOfTrue : Bytes := [114, 117, 101]
def wordOfFalse : Bytes := [97, 108, 115, 101]

def hexDigit? (b : UInt8) : Option Nat :=
  if 48 ≤ b ∧ b ≤ 57 then some (b.toNat - 48)
  else if 65 ≤ b ∧ b ≤ 70 then some (b.toNat - 55)
  else if 97 ≤ b ∧ b ≤ 102 then some (b.toNat - 87)
  else none

def hex? (a b c d : UInt8) : Option Nat := do
  let a ← hexDigit? a
  let b ← hexDigit? b
  let c ← hexDigit? c
  let d ← hexDigit? d
  some (((a * 16 + b) * 16 + c) * 16 + d)

def escaped? (b : UInt8) : Option UInt8 :=
  if b = 34 ∨ b = 92 ∨ b = 47 then some b
  else if b = 98 then some 8
  else if b = 102 then some 12
  else if b = 110 then some 10
  else if b = 114 then some 13
  else if b = 116 then some 9
  else none

def before (bs : Bytes) (result : Except Fault (Bytes × Bytes)) : Except Fault (Bytes × Bytes) :=
  result.map fun r => (bs ++ r.1, r.2)

def encodeScalar (n : Nat) : Bytes := String.utf8EncodeChar (Char.ofNat n)

/-- The bytes of a string after its opening quote, with the escapes replaced. Two escapes that are
halves of one character must stand together. -/
def stringBytes : Scan Bytes
  | [] => .error .truncated
  | 34 :: rest => .ok ([], rest)
  | [92] => .error .truncated
  | 92 :: 117 :: a :: b :: c :: d :: rest =>
    match hex? a b c d with
    | none => .error .malformed
    | some high =>
      if 0xDC00 ≤ high ∧ high ≤ 0xDFFF then .error .malformed
      else if high < 0xD800 ∨ 0xDBFF < high then before (encodeScalar high) (stringBytes rest)
      else
        match rest with
        | [] | [92] => .error .truncated
        | 92 :: 117 :: a :: b :: c :: d :: rest =>
          match hex? a b c d with
          | none => .error .malformed
          | some low =>
            if low < 0xDC00 ∨ 0xDFFF < low then .error .malformed
            else before (encodeScalar ((high - 0xD800) * 1024 + (low - 0xDC00) + 0x10000))
              (stringBytes rest)
        | 92 :: 117 :: _ => .error .truncated
        | _ => .error .malformed
  | 92 :: 117 :: _ => .error .truncated
  | 92 :: b :: rest =>
    match escaped? b with
    | none => .error .malformed
    | some e => before [e] (stringBytes rest)
  | b :: rest => if b < 32 then .error .malformed else before [b] (stringBytes rest)

theorem before_eq_ok {bs : Bytes} {result : Except Fault (Bytes × Bytes)} {r : Bytes × Bytes}
    (h : before bs result = .ok r) : ∃ inner, result = .ok inner ∧ inner.2 = r.2 := by
  cases result with
  | error => cases h
  | ok inner => cases h; exact ⟨inner, rfl, rfl⟩

theorem length_stringBytes_lt (input : Bytes) :
    ∀ r, stringBytes input = .ok r → r.2.length < input.length := by
  fun_induction stringBytes input <;> intro r h <;> try contradiction
  -- The closing quote is one byte; every other piece is followed by a shorter scan.
  all_goals first
    | (cases h; exact Nat.lt_succ_self _)
    | (obtain ⟨inner, hi, hr⟩ := before_eq_ok h
       rename_i ih
       have := ih inner hi
       rw [hr] at this
       simp only [List.length_cons]
       omega)

def string : Scan String := fun input =>
  match stringBytes input with
  | .error fault => .error fault
  | .ok (bs, rest) =>
    match Utf8.decode? bs with
    | some text => .ok (text, rest)
    | none => .error .malformed

theorem length_string_lt {input rest : Bytes} {text : String}
    (h : string input = .ok (text, rest)) : rest.length < input.length := by
  unfold string at h
  split at h
  · cases h
  · next bs r hs =>
    split at h
    · cases h
      exact length_stringBytes_lt input _ hs
    · cases h

/-- Passes over a string that nobody reads: only its escapes must have the right form. -/
def skipString : Bytes → Except Fault Bytes
  | [] => .error .truncated
  | 34 :: rest => .ok rest
  | [92] => .error .truncated
  | 92 :: 117 :: a :: b :: c :: d :: rest =>
    if (hex? a b c d).isSome then skipString rest else .error .malformed
  | 92 :: 117 :: _ => .error .truncated
  | 92 :: b :: rest => if (escaped? b).isSome then skipString rest else .error .malformed
  | b :: rest => if b < 32 then .error .malformed else skipString rest

theorem length_skipString_lt {input rest : Bytes} (h : skipString input = .ok rest) :
    rest.length < input.length := by
  fun_induction skipString input <;> try contradiction
  all_goals first
    | (cases h; exact Nat.lt_succ_self _)
    | (rename_i ih
       have := ih h
       simp only [List.length_cons]
       omega)

/-- The name of a member. Only a string can be one. -/
def memberName : Scan String := fun input =>
  match skipSpaces input with
  | [] => .error .truncated
  | 34 :: rest => string rest
  | _ => .error .malformed

theorem length_memberName_lt {input rest : Bytes} {name : String}
    (h : memberName input = .ok (name, rest)) : rest.length < input.length := by
  have hs := length_skipSpaces_le input
  unfold memberName at h
  split at h
  · cases h
  · next hi =>
    rw [hi, List.length_cons] at hs
    have := length_string_lt h
    omega
  · cases h

def colon (input : Bytes) : Except Fault Bytes :=
  match skipSpaces input with
  | [] => .error .truncated
  | 58 :: rest => .ok rest
  | _ => .error .malformed

theorem length_colon_lt {input rest : Bytes} (h : colon input = .ok rest) :
    rest.length < input.length := by
  unfold colon at h
  have hs := length_skipSpaces_le input
  split at h
  · cases h
  · next hi =>
    cases h
    rw [hi] at hs
    exact hs
  · cases h

end SmtpClient.Json
