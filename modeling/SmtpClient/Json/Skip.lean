import SmtpClient.Json.Number

namespace SmtpClient.Json

inductive Frame where
  | list
  | object
  deriving DecidableEq, Repr

def Frame.closer : Frame → UInt8
  | list => 93
  | object => 125

def skipName (input : Bytes) : Except Fault Bytes :=
  match skipSpaces input with
  | [] => .error .truncated
  | 34 :: rest =>
    match skipString rest with
    | .ok rest => colon rest
    | .error fault => .error fault
  | _ => .error .malformed

/-- Where a skip stands: the open brackets, and whether a value has just ended. -/
structure Position where
  frames : List Frame
  ended : Bool

def reach (position : Position) : Except Fault Bytes → Except Fault (Position × Bytes)
  | .ok rest => .ok (position, rest)
  | .error fault => .error fault

def skipToken (frames : List Frame) (input : Bytes) : Except Fault (Position × Bytes) :=
  match skipSpaces input with
  | [] => .error .truncated
  | b :: rest =>
    if b = 110 then reach ⟨frames, true⟩ (word wordOfNull rest)
    else if b = 116 then reach ⟨frames, true⟩ (word wordOfTrue rest)
    else if b = 102 then reach ⟨frames, true⟩ (word wordOfFalse rest)
    else if b = 34 then reach ⟨frames, true⟩ (skipString rest)
    else if b = 91 then
      match skipSpaces rest with
      | 93 :: rest => .ok (⟨frames, true⟩, rest)
      | _ => .ok (⟨.list :: frames, false⟩, rest)
    else if b = 123 then
      match skipSpaces rest with
      | 125 :: rest => .ok (⟨frames, true⟩, rest)
      | _ => reach ⟨.object :: frames, false⟩ (skipName rest)
    else if b = 45 ∨ Bytes.isDigit b then reach ⟨frames, true⟩ (skipNumber (b :: rest))
    else .error .malformed

def skipSeparator (frame : Frame) (frames : List Frame) (input : Bytes) :
    Except Fault (Position × Bytes) :=
  match skipSpaces input with
  | [] => .error .truncated
  | b :: rest =>
    if b = 44 then
      match frame with
      | .list => .ok (⟨.list :: frames, false⟩, rest)
      | .object => reach ⟨.object :: frames, false⟩ (skipName rest)
    else if b = frame.closer then .ok (⟨frames, true⟩, rest)
    else .error .malformed

theorem reach_eq_ok {position next : Position} {result : Except Fault Bytes} {rest : Bytes}
    (h : reach position result = .ok (next, rest)) : result = .ok rest := by
  cases result with
  | error => cases h
  | ok r => cases h; rfl

theorem length_skipName_lt {input rest : Bytes} (h : skipName input = .ok rest) :
    rest.length < input.length := by
  have hs := length_skipSpaces_le input
  unfold skipName at h
  split at h
  · cases h
  · next r hi =>
    rw [hi, List.length_cons] at hs
    split at h
    · next hr =>
      have := length_skipString_lt hr
      have := length_colon_lt h
      omega
    · cases h
  · cases h

theorem length_skipToken_lt {frames : List Frame} {next : Position} {input rest : Bytes}
    (h : skipToken frames input = .ok (next, rest)) : rest.length < input.length := by
  have hs := length_skipSpaces_le input
  unfold skipToken at h
  split at h
  · cases h
  · next b r hi =>
    rw [hi, List.length_cons] at hs
    refine Nat.lt_of_lt_of_le ?_ hs
    -- A word keeps at most what follows its first letter.
    have hw {ws : Bytes} (hr : reach ⟨frames, true⟩ (word ws r) = .ok (next, rest)) :
        rest.length < r.length + 1 :=
      Nat.lt_succ_of_le (length_word_le (reach_eq_ok hr))
    have hb := length_skipSpaces_le r
    repeat' split at h
    · exact hw h
    · exact hw h
    · exact hw h
    · exact Nat.lt_succ_of_lt (length_skipString_lt (reach_eq_ok h))
    · next hr =>
      cases h
      rw [hr, List.length_cons] at hb
      omega
    · cases h
      exact Nat.lt_succ_self _
    · next hr =>
      cases h
      rw [hr, List.length_cons] at hb
      omega
    · exact Nat.lt_succ_of_lt (length_skipName_lt (reach_eq_ok h))
    · exact length_skipNumber_lt (reach_eq_ok h)
    · cases h

theorem length_skipSeparator_lt {frame : Frame} {frames : List Frame} {next : Position}
    {input rest : Bytes} (h : skipSeparator frame frames input = .ok (next, rest)) :
    rest.length < input.length := by
  have hs := length_skipSpaces_le input
  unfold skipSeparator at h
  split at h
  · cases h
  · next b r hi =>
    rw [hi, List.length_cons] at hs
    refine Nat.lt_of_lt_of_le ?_ hs
    repeat' split at h
    · cases h
      exact Nat.lt_succ_self _
    · exact Nat.lt_succ_of_lt (length_skipName_lt (reach_eq_ok h))
    · cases h
      exact Nat.lt_succ_self _
    · cases h

-- The equations `h` show that the input shrinks; the values do not depend on them.
set_option linter.unusedVariables false in
/-- Passes over tokens until no bracket is open and a value has ended. -/
def skipFrom (position : Position) (input : Bytes) : Except Fault Bytes :=
  match position with
  | ⟨[], true⟩ => .ok input
  | ⟨frame :: frames, true⟩ =>
    match h : skipSeparator frame frames input with
    | .error fault => .error fault
    | .ok (next, rest) => skipFrom next rest
  | ⟨frames, false⟩ =>
    match h : skipToken frames input with
    | .error fault => .error fault
    | .ok (next, rest) => skipFrom next rest
  termination_by input.length
  decreasing_by
    · exact length_skipSeparator_lt h
    · exact length_skipToken_lt h

def skipValue (input : Bytes) : Except Fault Bytes := skipFrom ⟨[], false⟩ input

theorem length_skipFrom_le {position : Position} {input rest : Bytes}
    (h : skipFrom position input = .ok rest) : rest.length ≤ input.length := by
  fun_induction skipFrom position input with
  | case1 => cases h; exact Nat.le_refl _
  | case2 => cases h
  | case3 _ _ _ _ _ hs ih => exact Nat.le_trans (ih h) (Nat.le_of_lt (length_skipSeparator_lt hs))
  | case4 => cases h
  | case5 _ _ _ _ hs ih => exact Nat.le_trans (ih h) (Nat.le_of_lt (length_skipToken_lt hs))

end SmtpClient.Json
