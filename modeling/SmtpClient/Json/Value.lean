import SmtpClient.Json.Number
import SmtpClient.Json.Skip

namespace SmtpClient.Json

/-- The fault of a value that begins with `b` and is not of the kind that is wanted. -/
def wrongKind (b : UInt8) (rest : Bytes) : Fault :=
  let faultOf {α : Type} (result : Except Fault α) : Fault :=
    match result with
    | .error fault => fault
    | .ok _ => .mismatched
  if b = 110 then faultOf (word wordOfNull rest)
  else if b = 116 then faultOf (word wordOfTrue rest)
  else if b = 102 then faultOf (word wordOfFalse rest)
  else if b = 45 ∨ Bytes.isDigit b then faultOf (number (b :: rest))
  else if b = 34 then faultOf (string rest)
  else if b = 91 ∨ b = 123 then .mismatched
  else .malformed

def text : Scan String := fun input =>
  match skipSpaces input with
  | [] => .error .truncated
  | b :: rest => if b = 34 then string rest else .error (wrongKind b rest)

def boolean : Scan Bool := fun input =>
  match skipSpaces input with
  | [] => .error .truncated
  | b :: rest =>
    if b = 116 then (word wordOfTrue rest).map (true, ·)
    else if b = 102 then (word wordOfFalse rest).map (false, ·)
    else .error (wrongKind b rest)

def naturalBelow (bound : Nat) : Scan Nat := fun input =>
  match skipSpaces input with
  | [] => .error .truncated
  | b :: rest =>
    if b = 45 ∨ Bytes.isDigit b then
      match number (b :: rest) with
      | .error fault => .error fault
      | .ok (.natural n, rest) => if n < bound then .ok (n, rest) else .error .mismatched
      | .ok (.other, _) => .error .mismatched
    else .error (wrongKind b rest)

def null (input : Bytes) : Except Fault Bytes :=
  match skipSpaces input with
  | [] => .error .truncated
  | b :: rest => if b = 110 then word wordOfNull rest else .error (wrongKind b rest)

def endOfObject (input : Bytes) : Except Fault Bytes :=
  match skipSpaces input with
  | [] => .error .truncated
  | 125 :: rest => .ok rest
  | _ => .error .malformed

/-- One of several named alternatives: its name, or an object in which that name has the value
null. -/
def alternative {α : Type} (ofName? : String → Option α) : Scan α := fun input =>
  match skipSpaces input with
  | [] => .error .truncated
  | b :: rest =>
    if b = 34 then
      match string rest with
      | .error fault => .error fault
      | .ok (name, rest) =>
        match ofName? name with
        | some x => .ok (x, rest)
        | none => .error .mismatched
    else if b = 123 then
      match memberName rest with
      | .error fault => .error fault
      | .ok (name, rest) =>
        match ofName? name with
        | some x => (((colon rest).bind null).bind endOfObject).map (x, ·)
        | none => .error .mismatched
    else .error .malformed

theorem length_text_le (input : Bytes) :
    ∀ r, text input = .ok r → r.2.length ≤ input.length := by
  intro r h
  have hs := length_skipSpaces_le input
  unfold text at h
  split at h
  · cases h
  · next b rest hi =>
    rw [hi, List.length_cons] at hs
    split at h
    · obtain ⟨name, after⟩ := r
      have := length_string_lt h
      show after.length ≤ input.length
      omega
    · cases h

theorem map_eq_ok {α β : Type} {f : α → β} {result : Except Fault α} {y : β}
    (h : result.map f = .ok y) : ∃ x, result = .ok x ∧ f x = y := by
  cases result with
  | error => cases h
  | ok x => cases h; exact ⟨x, rfl, rfl⟩

theorem bind_eq_ok {α β : Type} {f : α → Except Fault β} {result : Except Fault α} {y : β}
    (h : result.bind f = .ok y) : ∃ x, result = .ok x ∧ f x = .ok y := by
  cases result with
  | error => cases h
  | ok x => exact ⟨x, rfl, h⟩

theorem length_boolean_le (input : Bytes) :
    ∀ r, boolean input = .ok r → r.2.length ≤ input.length := by
  intro r h
  have hs := length_skipSpaces_le input
  unfold boolean at h
  split at h
  · cases h
  · next b rest hi =>
    rw [hi, List.length_cons] at hs
    repeat' split at h
    · obtain ⟨x, hx, rfl⟩ := map_eq_ok h
      have := length_word_le hx
      exact Nat.le_trans this (Nat.le_of_succ_le hs)
    · obtain ⟨x, hx, rfl⟩ := map_eq_ok h
      have := length_word_le hx
      exact Nat.le_trans this (Nat.le_of_succ_le hs)
    · cases h

theorem length_naturalBelow_le (bound : Nat) (input : Bytes) :
    ∀ r, naturalBelow bound input = .ok r → r.2.length ≤ input.length := by
  intro r h
  have hs := length_skipSpaces_le input
  unfold naturalBelow at h
  split at h
  · cases h
  · next b rest hi =>
    rw [hi] at hs
    repeat' split at h
    · cases h
    · next hn _ =>
      cases h
      exact Nat.le_trans (length_number_le _ _ hn) hs
    · cases h
    · cases h
    · cases h

theorem length_null_le {input rest : Bytes} (h : null input = .ok rest) :
    rest.length ≤ input.length := by
  have hs := length_skipSpaces_le input
  unfold null at h
  split at h
  · cases h
  · next b r hi =>
    rw [hi, List.length_cons] at hs
    split at h
    · exact Nat.le_trans (length_word_le h) (Nat.le_of_succ_le hs)
    · cases h

theorem length_endOfObject_le {input rest : Bytes} (h : endOfObject input = .ok rest) :
    rest.length ≤ input.length := by
  have hs := length_skipSpaces_le input
  unfold endOfObject at h
  split at h
  · cases h
  · next r hi =>
    rw [hi, List.length_cons] at hs
    cases h
    exact Nat.le_of_succ_le hs
  · cases h

theorem length_alternative_le {α : Type} (ofName? : String → Option α) (input : Bytes) :
    ∀ r, alternative ofName? input = .ok r → r.2.length ≤ input.length := by
  intro r h
  have hs := length_skipSpaces_le input
  unfold alternative at h
  split at h
  · cases h
  · next b rest hi =>
    rw [hi, List.length_cons] at hs
    repeat' split at h
    · cases h
    · next hn _ _ _ =>
      cases h
      have := length_string_lt hn
      simp only
      omega
    · cases h
    · cases h
    · next hn _ _ _ =>
      obtain ⟨x, hx, rfl⟩ := map_eq_ok h
      obtain ⟨y, hy, he⟩ := bind_eq_ok hx
      obtain ⟨z, hz, hnull⟩ := bind_eq_ok hy
      have h1 := length_memberName_lt hn
      have h2 := length_colon_lt hz
      have h3 := length_null_le hnull
      have h4 := length_endOfObject_le he
      simp only
      omega
    · cases h
    · cases h

def hexLetter (n : Nat) : Char := Nat.digitChar (n % 16)

def escapeChar (c : Char) : List Char :=
  if c = '"' then ['\\', '"']
  else if c = '\\' then ['\\', '\\']
  else if c = '\x08' then ['\\', 'b']
  else if c = '\x0c' then ['\\', 'f']
  else if c = '\n' then ['\\', 'n']
  else if c = '\r' then ['\\', 'r']
  else if c = '\t' then ['\\', 't']
  else if c.toNat < 0x20 then
    ['\\', 'u', '0', '0', hexLetter (c.toNat / 16), hexLetter c.toNat]
  else [c]

def quote (text : String) : String :=
  String.ofList ('"' :: text.toList.flatMap escapeChar ++ ['"'])

/-- An object, from the names of its members and their written values. -/
def object (members : List (String × String)) : String :=
  "\x7b" ++ ",".intercalate (members.map fun m => quote m.1 ++ ":" ++ m.2) ++ "\x7d"

end SmtpClient.Json
