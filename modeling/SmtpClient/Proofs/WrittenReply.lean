import SmtpClient.Proofs.ReplyLine
import SmtpClient.Proofs.Utf8

namespace SmtpClient

namespace Bytes

theorem isDigit_of_mem_toDigits {n : Nat} {c : Char} (h : c ∈ Nat.toDigits 10 n) :
    48 ≤ c.toNat ∧ c.toNat ≤ 57 := by
  have hdigit := Nat.isDigit_of_mem_toDigits (by decide) (by decide) h
  simp only [Char.isDigit, Bool.and_eq_true, decide_eq_true_eq] at hdigit
  exact hdigit

/-- A number is written with a byte for each of its digits. -/
theorem encode_toString (n : Nat) :
    Utf8.encode (toString n) = (Nat.toDigits 10 n).map fun c => .ofNat c.toNat := by
  have hdigits : (toString n).toList = Nat.toDigits 10 n := Nat.toList_repr
  rw [Utf8.encode_of_lt, hdigits]
  intro c hc
  rw [hdigits] at hc
  have hle := (isDigit_of_mem_toDigits hc).2
  omega

/-- A number is the value of the digits with which it is written. -/
theorem decimal_encode_toString (n : Nat) : decimal (Utf8.encode (toString n)) = n := by
  have hvalue := foldl_decimal (Utf8.encode (toString n)) 0
  rw [Nat.zero_mul, Nat.zero_add] at hvalue
  rw [← hvalue, encode_toString, List.foldl_map]
  refine Eq.trans ?_ Nat.ofDigitChars_ten_toDigits
  rw [Nat.ofDigitChars_eq_foldl]
  refine List.foldl_ext _ _ 0 fun m c hc => ?_
  have hle := (isDigit_of_mem_toDigits hc).2
  rw [Utf8.toNat_ofNat (by omega), Nat.mul_comm]
  rfl

theorem digits?_encode_toString (n : Nat) : digits? (Utf8.encode (toString n)) = some n := by
  refine (digits?_eq_some_iff _ _).mpr ⟨?_, ?_, decimal_encode_toString n⟩
  · rw [encode_toString]
    simp
  · intro b hb
    rw [encode_toString, List.mem_map] at hb
    obtain ⟨c, hc, rfl⟩ := hb
    have hdigit := isDigit_of_mem_toDigits hc
    have hbyte : (UInt8.ofNat c.toNat).toNat = c.toNat := Utf8.toNat_ofNat (by omega)
    rw [UInt8.le_iff_toNat_le, UInt8.le_iff_toNat_le, hbyte]
    exact hdigit

/-- The digits of a number of sixteen bits write this number. -/
theorem numeral_toString (n : UInt16) : Numeral (Utf8.encode (toString n.toNat)) n := by
  obtain ⟨hne, hdigits, hvalue⟩ :=
    (digits?_eq_some_iff _ _).mp (digits?_encode_toString n.toNat)
  exact ⟨hne, hdigits, hvalue⟩

/-- The numbers of three digits are those from 100 to 999. -/
theorem length_encode_toString_iff (n : Nat) :
    (Utf8.encode (toString n)).length = 3 ↔ 100 ≤ n ∧ n ≤ 999 := by
  have htwo := Nat.length_toDigits_le_iff (b := 10) (n := n) (k := 2) (by decide) (by decide)
  have hthree := Nat.length_toDigits_le_iff (b := 10) (n := n) (k := 3) (by decide) (by decide)
  rw [encode_toString, List.length_map]
  omega

/-- Digits end where a byte comes that is none. -/
theorem digits_unique {digits digits' rest rest' : Bytes} (h : ∀ b ∈ digits, 48 ≤ b ∧ b ≤ 57)
    (h' : ∀ b ∈ digits', 48 ≤ b ∧ b ≤ 57) (hrest : ∀ b ∈ rest.head?, ¬(48 ≤ b ∧ b ≤ 57))
    (hrest' : ∀ b ∈ rest'.head?, ¬(48 ≤ b ∧ b ≤ 57)) (heq : digits ++ rest = digits' ++ rest') :
    digits = digits' ∧ rest = rest' := by
  have hcut {ds later : Bytes} (hds : ∀ b ∈ ds, 48 ≤ b ∧ b ≤ 57)
      (hlater : ∀ b ∈ later.head?, ¬(48 ≤ b ∧ b ≤ 57)) :
      (ds ++ later).takeWhile isDigit = ds := by
    refine (takeWhile_dropWhile_append (fun b hb => (isDigit_iff b).mpr (hds b hb)) ?_).1
    intro b hb
    rw [← Bool.not_eq_true, isDigit_iff]
    exact hlater b hb
  have hsame : digits = digits' := by rw [← hcut h hrest, heq, hcut h' hrest']
  subst hsame
  exact ⟨rfl, List.append_cancel_left heq⟩

end Bytes

namespace EnhancedStatus

theorem encode_render (s : EnhancedStatus) :
    Utf8.encode s.render = Utf8.encode (toString s.category.toNat) ++ Bytes.dot ::
      (Utf8.encode (toString s.subject.toNat) ++ Bytes.dot ::
        Utf8.encode (toString s.detail.toNat)) := by
  have hrender : s.render = toString s.category.toNat ++ "." ++ toString s.subject.toNat ++ "." ++
      toString s.detail.toNat := rfl
  have hdot : Utf8.encode "." = [Bytes.dot] := by decide
  rw [hrender]
  simp only [Utf8.encode_append, hdot, List.append_assoc, List.cons_append, List.nil_append]

/-- A status that is written before a text heads it. -/
theorem heads_render (s : EnhancedStatus) (text : Bytes) :
    Heads (Utf8.encode s.render ++ Bytes.space :: text) s text := by
  rw [encode_render]
  exact .word _ _ _ _ _ s (Bytes.numeral_toString _) (Bytes.numeral_toString _)
    (Bytes.numeral_toString _) (.text text)

/-- A converted text is headed by a status only if the bytes were. -/
theorem Heads.of_decodeLossy {body text : Bytes} {s : EnhancedStatus}
    (h : Heads (Utf8.encode (Utf8.decodeLossy body)) s text) : ∃ text', Heads body s text' := by
  generalize hbytes : Utf8.encode (Utf8.decodeLossy body) = bytes at h
  obtain ⟨a, b, c, behind, text, s, ha, hb, hc, hbehind⟩ := h
  have hascii : ∀ x ∈ a ++ Bytes.dot :: (b ++ Bytes.dot :: c), x.toNat < 0x80 := by
    have hdigits {ds : Bytes} {n : UInt16} (hn : ds.Numeral n) : ∀ x ∈ ds, x.toNat < 0x80 := by
      intro x hx
      have hle := (UInt8.le_iff_toNat_le).mp (hn.digits x hx).2
      exact Nat.lt_of_le_of_lt hle (by decide)
    intro x hx
    simp only [List.mem_append, List.mem_cons] at hx
    rcases hx with hx | rfl | hx | rfl | hx
    · exact hdigits ha x hx
    · decide
    · exact hdigits hb x hx
    · decide
    · exact hdigits hc x hx
  obtain ⟨rest, rfl, hrest⟩ := Utf8.exists_of_encode_decodeLossy hascii hbytes
  cases hbehind with
  | nothing =>
    obtain rfl := Utf8.eq_nil_of_encode_decodeLossy hrest
    exact ⟨[], .word a b c [] [] s ha hb hc .nothing⟩
  | text text =>
    have hspace : ∀ x ∈ [Bytes.space], x.toNat < 0x80 :=
      List.forall_mem_singleton.mpr (by decide)
    obtain ⟨text', rfl, -⟩ := Utf8.exists_of_encode_decodeLossy hspace hrest
    exact ⟨text', .word a b c _ text' s ha hb hc (.text text')⟩

end EnhancedStatus

def BeginsWithStatus (text : String) : Prop :=
  ∃ status rest, EnhancedStatus.Heads (Utf8.encode text) status rest

namespace Reply

def line (r : Reply) : Bytes := Utf8.encode r.render ++ Bytes.crlf

def body (r : Reply) : Bytes :=
  (r.status.elim [] fun s => Utf8.encode s.render ++ [Bytes.space]) ++ Utf8.encode r.text

theorem encode_render (r : Reply) : Utf8.encode r.render =
    Utf8.encode (toString r.code.toNat) ++ (if r.continues then 45 else 32) :: r.body := by
  have hempty : Utf8.encode "" = [] := rfl
  have hspace : Utf8.encode " " = [Bytes.space] := by decide
  have hmark : Utf8.encode (if r.continues then "-" else " ") =
      [if r.continues then 45 else 32] := by
    cases r.continues <;> decide
  rw [render, body]
  cases r.status <;>
    simp only [Option.elim_none, Option.elim_some, Utf8.encode_append, hempty, hspace, hmark,
      List.append_assoc, List.cons_append, List.nil_append]

theorem separated_body (r : Reply) :
    Separated ((if r.continues then 45 else 32) :: r.body) r.continues r.body := by
  cases r.continues
  · exact .space _
  · exact .hyphen _

/-- What follows the code does not begin with a digit. -/
theorem Separated.head_not_digit {rest body : Bytes} {continues : Bool}
    (h : Separated rest continues body) : ∀ b ∈ rest.head?, ¬(48 ≤ b ∧ b ≤ 57) := by
  cases h <;> simp

structure IsWritable (r : Reply) : Prop where
  three_digits : 100 ≤ r.code.toNat ∧ r.code.toNat ≤ 999
  unambiguous : r.status.isSome ∨ ¬BeginsWithStatus r.text

/-- What stands after the mark says the status and the text. -/
theorem IsWritable.says_body {r : Reply} (h : r.IsWritable) :
    Says r.body r.status (Utf8.encode r.text) := by
  have hunambiguous := h.unambiguous
  obtain ⟨code, status, text, continues⟩ := r
  cases status with
  | none =>
    rcases hunambiguous with hsome | hnone
    · cases hsome
    · exact .plain fun s rest hheads => hnone ⟨s, rest, hheads⟩
  | some s =>
    have hbody : body ⟨code, some s, text, continues⟩ =
        Utf8.encode s.render ++ Bytes.space :: Utf8.encode text := by simp [body]
    rw [hbody]
    exact .status s _ (s.heads_render _)

/-- What is read as a text alone is not taken for more when it is read again. -/
theorem Writes.unambiguous {content : Bytes} {r : Reply} (h : Writes content r) :
    r.status.isSome ∨ ¬BeginsWithStatus r.text := by
  obtain ⟨code, rest, body, text, r, hlength, hcode, hrest, hbody, htext⟩ := h
  cases hstatus : r.status with
  | some s => exact Or.inl rfl
  | none =>
    refine Or.inr ?_
    rintro ⟨s, later, hheads⟩
    rw [hstatus] at hbody
    cases hbody with
    | plain hplain =>
      rw [htext] at hheads
      obtain ⟨later', hheads'⟩ := hheads.of_decodeLossy
      exact hplain s later' hheads'

/-- A reply is written by its own line exactly if it is writable. -/
theorem writes_render_iff (r : Reply) : Writes (Utf8.encode r.render) r ↔ r.IsWritable := by
  have hdigits := Bytes.numeral_toString r.code
  constructor
  · intro h
    refine ⟨?_, h.unambiguous⟩
    generalize hcontent : Utf8.encode r.render = content at h
    obtain ⟨code, rest, body, text, r, hlength, hcode, hrest, -, -⟩ := h
    rw [encode_render] at hcontent
    obtain ⟨rfl, -⟩ := Bytes.digits_unique hdigits.digits hcode.digits
      r.separated_body.head_not_digit hrest.head_not_digit hcontent
    exact (Bytes.length_encode_toString_iff _).mp hlength
  · intro h
    rw [encode_render]
    exact .line _ _ r.body (Utf8.encode r.text) r
      ((Bytes.length_encode_toString_iff _).mpr h.three_digits) hdigits r.separated_body h.says_body
      (Utf8.decodeLossy_encode r.text).symm

/-- The line of a reply is read as this reply exactly if it is writable. -/
theorem parse_line_iff (r : Reply) : parse r.line = .ok r ↔ r.IsWritable := by
  have hchomp : r.line.chomp = Utf8.encode r.render := by
    have hline : r.line = Utf8.encode r.render ++ [Bytes.cr] ++ [Bytes.lf] := by
      rw [List.append_assoc]
      rfl
    rw [Bytes.chomp, hline, Bytes.dropLastIf_concat, Bytes.dropLastIf_concat]
  rw [parse_eq_ok_iff, hchomp, writes_render_iff]

/-- How a reply is read from what is written of it. Its line is read as the reply exactly if the
reply is writable, and what was read from a line is writable exactly if its code does not begin with
a zero. The end of the line may be missing where nothing that is written would be taken for it. -/
structure ReadBack (r : Reply) : Prop where
  line_iff : parse r.line = .ok r ↔ r.IsWritable
  again_iff : ∀ line, parse line = .ok r → (parse r.line = .ok r ↔ 100 ≤ r.code.toNat)
  unended : r.render.toList.getLast? ≠ some '\r' → r.render.toList.getLast? ≠ some '\n' →
    parse (Utf8.encode r.render) = parse r.line

/-- Every reply is read back from its line exactly where it is writable, and one that was read from
a line is so unless its code begins with a zero. -/
theorem readBack (r : Reply) : ReadBack r := by
  refine ⟨parse_line_iff r, fun line hline => ?_, fun hcr hlf => ?_⟩
  · have hwrites := (parse_eq_ok_iff line r).mp hline
    rw [parse_line_iff]
    exact ⟨fun h => h.three_digits.1,
      fun h => ⟨⟨h, Nat.le_of_lt_succ hwrites.code_lt⟩, hwrites.unambiguous⟩⟩
  · have hbytes : (Utf8.encode r.render).getLast? ≠ some Bytes.cr ∧
        (Utf8.encode r.render).getLast? ≠ some Bytes.lf :=
      ⟨fun h => hcr (Utf8.getLast?_of_encode (by decide) (by decide) h),
        fun h => hlf (Utf8.getLast?_of_encode (by decide) (by decide) h)⟩
    obtain ⟨hbare, -, hended⟩ := Bytes.chomp_ended hbytes.1 hbytes.2
    exact parse_congr (hbare.trans hended.symm)

def convertedLine : Bytes := Utf8.encode "550-5.1.1 caf" ++ [0xE9] ++ Bytes.crlf

theorem readBack_convertedLine :
    parse convertedLine = .ok ⟨550, some ⟨5, 1, 1⟩, "caf\uFFFD", true⟩ ∧
      parse (line ⟨550, some ⟨5, 1, 1⟩, "caf\uFFFD", true⟩) =
        .ok ⟨550, some ⟨5, 1, 1⟩, "caf\uFFFD", true⟩ := by
  have hline : parse convertedLine = .ok ⟨550, some ⟨5, 1, 1⟩, "caf\uFFFD", true⟩ := by
    rw [parse_eq_ok_iff, ← ofLine?_eq_some_iff]
    decide +kernel
  exact ⟨hline, ((readBack _).again_iff convertedLine hline).mpr (by decide)⟩

end Reply

end SmtpClient
