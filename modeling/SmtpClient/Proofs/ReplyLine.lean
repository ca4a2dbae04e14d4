import Mathlib.Data.List.Basic
import SmtpClient.Proofs.Fields
import SmtpClient.Wire.ReplyLine

/-!
The grammar of a reply line. Without its end a line is three digits and then nothing, or a hyphen
or a space with a body behind it, and the body may begin with a status, three numbers with dots
between them. Reading takes exactly these lines, for what the grammar says that they mean, and
reports every other line as it stands.
-/
namespace SmtpClient

/-- A run of elements ends where one comes that does not belong to it. -/
theorem takeWhile_dropWhile_append {α : Type} {p : α → Bool} {run rest : List α}
    (hrun : ∀ x ∈ run, p x = true) (hrest : ∀ x ∈ rest.head?, p x = false) :
    (run ++ rest).takeWhile p = run ∧ (run ++ rest).dropWhile p = rest := by
  rw [List.takeWhile_append_of_pos hrun, List.dropWhile_append_of_pos hrun]
  cases rest with
  | nil => simp
  | cons x rest => simp [hrest x rfl]

namespace Bytes

inductive Ended (mark : UInt8) : Bytes → Bytes → Prop
  | marked (bs : Bytes) : Ended mark (bs ++ [mark]) bs
  | unmarked (bs : Bytes) (h : bs.getLast? ≠ some mark) : Ended mark bs bs

theorem ended_dropLastIf (mark : UInt8) (bs : Bytes) : Ended mark bs (dropLastIf mark bs) := by
  unfold dropLastIf
  split
  · next h =>
    obtain ⟨before, rfl⟩ := List.getLast?_eq_some_iff.mp h
    rw [List.dropLast_concat]
    exact .marked before
  · next h => exact .unmarked bs h

theorem dropLastIf_concat (mark : UInt8) (bs : Bytes) : dropLastIf mark (bs ++ [mark]) = bs := by
  rw [dropLastIf, if_pos List.getLast?_concat, List.dropLast_concat]

theorem dropLastIf_of_ne {mark : UInt8} {bs : Bytes} (h : bs.getLast? ≠ some mark) :
    dropLastIf mark bs = bs := if_neg h

/-- What ends in neither mark is the same with LF or CR LF behind it. -/
theorem chomp_ended {content : Bytes} (hcr : content.getLast? ≠ some cr)
    (hlf : content.getLast? ≠ some lf) :
    content.chomp = content ∧ (content ++ [lf]).chomp = content ∧
      (content ++ crlf).chomp = content := by
  have hcrlf : content ++ crlf = (content ++ [cr]) ++ [lf] := by
    rw [List.append_assoc]
    rfl
  refine ⟨?_, ?_, ?_⟩
  · rw [chomp, dropLastIf_of_ne hlf, dropLastIf_of_ne hcr]
  · rw [chomp, dropLastIf_concat, dropLastIf_of_ne hcr]
  · rw [chomp, hcrlf, dropLastIf_concat, dropLastIf_concat]

def decimal : Bytes → Nat
  | [] => 0
  | b :: later => (b.toNat - 48) * Nat.pow 10 later.length + decimal later

structure Numeral (bs : Bytes) (n : UInt16) : Prop where
  ne_nil : bs ≠ []
  digits : ∀ b ∈ bs, 48 ≤ b ∧ b ≤ 57
  decimal_eq : decimal bs = n.toNat

theorem isDigit_iff (b : UInt8) : isDigit b = true ↔ 48 ≤ b ∧ b ≤ 57 := by simp [isDigit]

/-- Digits that are read one after the other raise what was read before by a power of ten. -/
theorem foldl_decimal (bs : Bytes) (n : Nat) :
    bs.foldl (fun n b => n * 10 + (b.toNat - 48)) n = n * Nat.pow 10 bs.length + decimal bs := by
  induction bs generalizing n with
  | nil => simp [decimal]
  | cons b later ih =>
    have hpow : Nat.pow 10 (later.length + 1) = Nat.pow 10 later.length * 10 := rfl
    calc
      _ = (n * 10 + (b.toNat - 48)) * Nat.pow 10 later.length + decimal later := ih _
      _ = n * (Nat.pow 10 later.length * 10) +
          ((b.toNat - 48) * Nat.pow 10 later.length + decimal later) := by
        rw [Nat.add_mul, Nat.mul_assoc, Nat.mul_comm 10, Nat.add_assoc]
      _ = _ := by rw [← hpow, ← List.length_cons, decimal]

/-- Digits write a number with no more digits. -/
theorem decimal_lt {bs : Bytes} (h : ∀ b ∈ bs, 48 ≤ b ∧ b ≤ 57) :
    decimal bs < Nat.pow 10 bs.length := by
  induction bs with
  | nil => exact Nat.one_pos
  | cons b later ih =>
    have hlater := ih fun b' hb' => h b' (List.mem_cons_of_mem _ hb')
    have hb : b.toNat - 48 ≤ 9 := by
      have hle : b.toNat ≤ 57 := (h b List.mem_cons_self).2
      omega
    have hmul := Nat.mul_le_mul_right (Nat.pow 10 later.length) hb
    have hpow : Nat.pow 10 (later.length + 1) = Nat.pow 10 later.length * 10 := rfl
    rw [decimal, List.length_cons, hpow]
    omega

/-- Digits are read as the number that they write, and nothing else is read as one. -/
theorem digits?_eq_some_iff (bs : Bytes) (n : Nat) :
    digits? bs = some n ↔ bs ≠ [] ∧ (∀ b ∈ bs, 48 ≤ b ∧ b ≤ 57) ∧ decimal bs = n := by
  have hvalue := foldl_decimal bs 0
  rw [Nat.zero_mul, Nat.zero_add] at hvalue
  rw [digits?, hvalue]
  simp only [← isDigit_iff, ← List.all_eq_true]
  split
  · next h =>
    rw [Bool.or_eq_true, List.isEmpty_iff, Bool.not_eq_true'] at h
    simp only [reduceCtorEq, false_iff, not_and]
    intro hne hall
    simp [hne, hall] at h
  · next h =>
    rw [Bool.or_eq_true, List.isEmpty_iff, Bool.not_eq_true', not_or, Bool.not_eq_false] at h
    simp [h]

/-- A number is read exactly if it is one of sixteen bits. -/
theorem word?_eq_some_iff (bs : Bytes) (n : UInt16) : word? bs = some n ↔ Numeral bs n := by
  unfold word?
  constructor
  · intro h
    split at h
    · next value hdigits =>
      obtain ⟨hne, hall, rfl⟩ := (digits?_eq_some_iff bs value).mp hdigits
      split at h
      · next hlt =>
        refine ⟨hne, hall, ?_⟩
        rw [← Option.some.inj h, UInt16.toNat_ofNat']
        exact (Nat.mod_eq_of_lt hlt).symm
      · cases h
    · cases h
  · intro h
    have hdigits := (digits?_eq_some_iff bs _).mpr ⟨h.ne_nil, h.digits, h.decimal_eq⟩
    rw [hdigits]
    dsimp only
    rw [if_pos n.toNat_lt, UInt16.ofNat_toNat]

theorem Numeral.notMem {bs : Bytes} {n : UInt16} (h : Numeral bs n) {b : UInt8}
    (hb : ¬(48 ≤ b ∧ b ≤ 57)) : b ∉ bs := fun hmem => hb (h.digits b hmem)

/-- Three digits are never too many. -/
theorem exists_numeral {code : Bytes} (hlength : code.length = 3)
    (hdigits : ∀ b ∈ code, 48 ≤ b ∧ b ≤ 57) : ∃ n, Numeral code n := by
  have hlt : decimal code < 1000 := by
    have hlt := decimal_lt hdigits
    rwa [hlength] at hlt
  refine ⟨.ofNat (decimal code), ?_, hdigits, ?_⟩
  · rintro rfl
    cases hlength
  · rw [UInt16.toNat_ofNat']
    omega

end Bytes

inductive Bytes.Behind : Bytes → Bytes → Prop
  | nothing : Behind [] []
  | text (text : Bytes) : Behind (Bytes.space :: text) text

inductive EnhancedStatus.Heads : Bytes → EnhancedStatus → Bytes → Prop
  | word (a b c behind text : Bytes) (status : EnhancedStatus) (ha : a.Numeral status.category)
    (hb : b.Numeral status.subject) (hc : c.Numeral status.detail) (h : behind.Behind text) :
    Heads (a ++ Bytes.dot :: (b ++ Bytes.dot :: c) ++ behind) status text

theorem Bytes.behind_dropWhile (body : Bytes) :
    Behind (body.dropWhile (· ≠ space)) (body.dropWhile (· ≠ space)).tail := by
  have hstop := List.head?_dropWhile_not (fun b => decide (b ≠ space)) body
  cases h : body.dropWhile (· ≠ space) with
  | nil => exact .nothing
  | cons b text =>
    rw [h] at hstop
    obtain rfl : b = space := by simpa using hstop
    exact .text text

/-- A word without spaces is what comes up to the first space. -/
theorem Bytes.Behind.split {word behind text : Bytes} (h : behind.Behind text)
    (hword : space ∉ word) :
    (word ++ behind).takeWhile (· ≠ space) = word ∧
      ((word ++ behind).dropWhile (· ≠ space)).tail = text := by
  have hall : ∀ b ∈ word, decide (b ≠ space) = true := by
    intro b hb
    simp only [decide_eq_true_eq]
    rintro rfl
    exact hword hb
  have hstop : ∀ b ∈ behind.head?, decide (b ≠ space) = false := by
    cases h <;> simp
  obtain ⟨hfirst, hrest⟩ := takeWhile_dropWhile_append hall hstop
  rw [hfirst, hrest]
  cases h <;> exact ⟨rfl, rfl⟩

namespace EnhancedStatus

/-- A status at the beginning of a body is found there: it ends where its word does. -/
theorem Heads.split?_eq {body text : Bytes} {status : EnhancedStatus} (h : Heads body status text) :
    split? body = some (status, text) := by
  obtain ⟨a, b, c, behind, text, status, ha, hb, hc, hbehind⟩ := h
  have hdot {bs : Bytes} {n : UInt16} (hn : bs.Numeral n) : Bytes.dot ∉ bs := hn.notMem (by decide)
  have hspace {bs : Bytes} {n : UInt16} (hn : bs.Numeral n) : Bytes.space ∉ bs :=
    hn.notMem (by decide)
  have hword : Bytes.space ∉ a ++ Bytes.dot :: (b ++ Bytes.dot :: c) := by
    simp only [List.mem_append, List.mem_cons, not_or]
    exact ⟨hspace ha, by decide, hspace hb, by decide, hspace hc⟩
  obtain ⟨hfirst, hrest⟩ := hbehind.split hword
  have hfields : fields Bytes.dot (a ++ Bytes.dot :: (b ++ Bytes.dot :: c)) = [a, b, c] := by
    rw [fields_append (hdot ha), fields_append (hdot hb), fields_of_notMem (hdot hc)]
  rw [split?, hfirst, hfields]
  simp only [(Bytes.word?_eq_some_iff _ _).mpr ha, (Bytes.word?_eq_some_iff _ _).mpr hb,
    (Bytes.word?_eq_some_iff _ _).mpr hc, Option.bind_eq_bind, Option.bind_some, hrest]

/-- What is found as a status stands as the first word of the body. -/
theorem heads_of_split? {body text : Bytes} {status : EnhancedStatus}
    (h : split? body = some (status, text)) : Heads body status text := by
  unfold split? at h
  split at h
  · next a b c hfields =>
    simp only [Option.bind_eq_bind, Option.bind_eq_some_iff, Option.some.injEq,
      Prod.mk.injEq] at h
    obtain ⟨category, ha, subject, hb, detail, hc, rfl, rfl⟩ := h
    have hword := intercalate_fields Bytes.dot (body.takeWhile (· ≠ Bytes.space))
    rw [hfields] at hword
    have hbody : body = a ++ Bytes.dot :: (b ++ Bytes.dot :: c) ++
        body.dropWhile (· ≠ Bytes.space) := by
      calc
        body = body.takeWhile (· ≠ Bytes.space) ++ body.dropWhile (· ≠ Bytes.space) :=
          List.takeWhile_append_dropWhile.symm
        _ = _ := by
          rw [← hword]
          simp
    have hheads := Heads.word a b c _ _ ⟨category, subject, detail⟩
      ((Bytes.word?_eq_some_iff _ _).mp ha) ((Bytes.word?_eq_some_iff _ _).mp hb)
      ((Bytes.word?_eq_some_iff _ _).mp hc) (Bytes.behind_dropWhile body)
    rwa [← hbody] at hheads
  · cases h

end EnhancedStatus

namespace Reply

inductive Separated : Bytes → Bool → Bytes → Prop
  | bare : Separated [] false []
  | hyphen (body : Bytes) : Separated (45 :: body) true body
  | space (body : Bytes) : Separated (32 :: body) false body

inductive Says (body : Bytes) : Option EnhancedStatus → Bytes → Prop
  | status (status : EnhancedStatus) (text : Bytes) (h : EnhancedStatus.Heads body status text) :
    Says body (some status) text
  | plain (h : ∀ status text, ¬EnhancedStatus.Heads body status text) : Says body none body

inductive Writes : Bytes → Reply → Prop
  | line (code rest body text : Bytes) (reply : Reply) (hlength : code.length = 3)
    (hcode : code.Numeral reply.code) (hrest : Separated rest reply.continues body)
    (hbody : Says body reply.status text) (htext : reply.text = Utf8.decodeLossy text) :
    Writes (code ++ rest) reply

def HasForm (content : Bytes) : Prop :=
  ∃ code rest, content = code ++ rest ∧ code.length = 3 ∧ (∀ b ∈ code, 48 ≤ b ∧ b ≤ 57) ∧
    (rest = [] ∨ rest.head? = some 45 ∨ rest.head? = some 32)

def said (body : Bytes) : Option EnhancedStatus × Bytes :=
  match EnhancedStatus.split? body with
  | some (status, text) => (some status, text)
  | none => (none, body)

theorem ofText_eq (code : Code) (continues : Bool) (body : Bytes) :
    ofText code continues body =
      ⟨code, (said body).1, Utf8.decodeLossy (said body).2, continues⟩ := by
  unfold ofText said
  cases EnhancedStatus.split? body <;> rfl

/-- A body says one thing only, and it is found by reading the status. -/
theorem says_iff (body : Bytes) (status : Option EnhancedStatus) (text : Bytes) :
    Says body status text ↔ said body = (status, text) := by
  constructor
  · intro h
    unfold said
    cases h with
    | status status text h => rw [h.split?_eq]
    | plain h =>
      have hnone : EnhancedStatus.split? body = none := by
        rw [Option.eq_none_iff_forall_ne_some]
        rintro ⟨status, text⟩ hsplit
        exact h status text (EnhancedStatus.heads_of_split? hsplit)
      rw [hnone]
  · intro h
    unfold said at h
    split at h
    · next status' text' hsplit =>
      cases h
      exact .status _ _ (EnhancedStatus.heads_of_split? hsplit)
    · next hsplit =>
      cases h
      refine .plain fun status text hheads => ?_
      simp [hheads.split?_eq] at hsplit

/-- A code, a mark and a body are one reply. -/
theorem ofText_eq_iff (code : Code) (continues : Bool) (body : Bytes) (reply : Reply) :
    ofText code continues body = reply ↔ code = reply.code ∧ continues = reply.continues ∧
      ∃ text, Says body reply.status text ∧ reply.text = Utf8.decodeLossy text := by
  obtain ⟨rcode, rstatus, rtext, rcontinues⟩ := reply
  simp only [ofText_eq, mk.injEq, says_iff]
  constructor
  · rintro ⟨rfl, rfl, rfl, rfl⟩
    exact ⟨rfl, rfl, _, rfl, rfl⟩
  · rintro ⟨rfl, rfl, text, hsaid, rfl⟩
    simp [hsaid]

theorem Separated.ofLine?_eq {rest body : Bytes} {continues : Bool}
    (h : Separated rest continues body) {a b c : UInt8} {code : Code}
    (hword : Bytes.word? [a, b, c] = some code) :
    ofLine? (a :: b :: c :: rest) = some (ofText code continues body) := by
  rw [ofLine?, hword]
  cases h <;> rfl

/-- A line is read as a reply exactly if it writes that reply. -/
theorem ofLine?_eq_some_iff (content : Bytes) (reply : Reply) :
    ofLine? content = some reply ↔ Writes content reply := by
  constructor
  · intro h
    unfold ofLine? at h
    split at h
    · next a b c rest =>
      split at h
      · cases h
      · next code hword =>
        have hcode := (Bytes.word?_eq_some_iff _ _).mp hword
        have hline {continues : Bool} {body : Bytes} (hrest : Separated rest continues body)
            (htext : ofText code continues body = reply) :
            Writes (a :: b :: c :: rest) reply := by
          obtain ⟨rfl, rfl, text, hsays, htext⟩ := (ofText_eq_iff _ _ _ _).mp htext
          exact .line [a, b, c] rest body text reply rfl hcode hrest hsays htext
        split at h
        · exact hline .bare (Option.some.inj h)
        · exact hline (.hyphen _) (Option.some.inj h)
        · exact hline (.space _) (Option.some.inj h)
        · cases h
    · cases h
  · rintro ⟨code, rest, body, text, reply, hlength, hcode, hrest, hbody, htext⟩
    obtain ⟨a, b, c, rfl⟩ := List.length_eq_three.mp hlength
    have hword := (Bytes.word?_eq_some_iff _ _).mpr hcode
    rw [List.cons_append, List.cons_append, List.cons_append, List.nil_append,
      hrest.ofLine?_eq hword, Option.some_inj, ofText_eq_iff]
    exact ⟨rfl, rfl, text, hbody, htext⟩

theorem Separated.marked {rest body : Bytes} {continues : Bool}
    (h : Separated rest continues body) :
    rest = [] ∨ rest.head? = some 45 ∨ rest.head? = some 32 := by
  cases h with
  | bare => exact Or.inl rfl
  | hyphen => exact Or.inr (Or.inl rfl)
  | space => exact Or.inr (Or.inr rfl)

/-- After the code stands nothing, or one of the two marks, and then a body follows. -/
theorem exists_separated {rest : Bytes}
    (h : rest = [] ∨ rest.head? = some 45 ∨ rest.head? = some 32) :
    ∃ continues body, Separated rest continues body := by
  cases rest with
  | nil => exact ⟨_, _, .bare⟩
  | cons mark body =>
    rcases h with hnil | hmark | hmark
    · cases hnil
    · obtain rfl : mark = 45 := Option.some.inj hmark
      exact ⟨_, _, .hyphen body⟩
    · obtain rfl : mark = 32 := Option.some.inj hmark
      exact ⟨_, _, .space body⟩

/-- A line has the form of a reply exactly if it is one. -/
theorem hasForm_iff (content : Bytes) : HasForm content ↔ ∃ reply, Writes content reply := by
  constructor
  · rintro ⟨code, rest, rfl, hlength, hdigits, hrest⟩
    obtain ⟨n, hn⟩ := Bytes.exists_numeral hlength hdigits
    obtain ⟨continues, body, hseparated⟩ := exists_separated hrest
    have hsays := (says_iff body _ _).mpr rfl
    exact ⟨⟨n, (said body).1, _, continues⟩,
      .line code rest body _ _ hlength hn hseparated hsays rfl⟩
  · rintro ⟨reply, code, rest, body, text, reply, hlength, hcode, hrest, -, -⟩
    exact ⟨code, rest, rfl, hlength, hcode.digits, hrest.marked⟩

/-- A line is accepted exactly as the reply that it writes, once its end is taken off. -/
theorem parse_eq_ok_iff (line : Bytes) (reply : Reply) :
    parse line = .ok reply ↔ Writes line.chomp reply := by
  rw [← ofLine?_eq_some_iff, parse]
  cases ofLine? line.chomp <;> simp

/-- A line is refused exactly if it does not have the form of a reply, and the error holds its text.
-/
theorem parse_eq_error_iff (line : Bytes) (error : Error) :
    parse line = .error error ↔
      ¬HasForm line.chomp ∧ error = .malformedReply (Utf8.decodeLossy line.chomp) := by
  rw [hasForm_iff]
  simp only [← ofLine?_eq_some_iff]
  rw [parse]
  cases ofLine? line.chomp with
  | some reply => simp
  | none => simp [eq_comm]

theorem Writes.code_lt {content : Bytes} {reply : Reply} (h : Writes content reply) :
    reply.code.toNat < 1000 := by
  obtain ⟨code, rest, body, text, reply, hlength, hcode, -, -, -⟩ := h
  have hlt := Bytes.decimal_lt hcode.digits
  rw [hcode.decimal_eq, hlength] at hlt
  exact hlt

/-- Lines that differ only in how they end are read alike. -/
theorem parse_congr {line line' : Bytes} (h : line.chomp = line'.chomp) :
    parse line = parse line' := by
  rw [parse, parse, h]

/-- How a line is read. Its end, one LF and before it one CR, does not count, and what is left is a
reply as the grammar has it, or else it is reported. -/
structure ReadByGrammar (line unended content : Bytes) : Prop where
  ended : Bytes.Ended Bytes.lf line unended
  chomped : Bytes.Ended Bytes.cr unended content
  accepted_iff : (∃ reply, parse line = .ok reply) ↔ HasForm content
  ok_iff : ∀ reply, parse line = .ok reply ↔ Writes content reply
  error_iff : ∀ error, parse line = .error error ↔
    ¬HasForm content ∧ error = .malformedReply (Utf8.decodeLossy content)
  code_lt : ∀ reply, parse line = .ok reply → reply.code.toNat < 1000
  alike : line.getLast? ≠ some Bytes.cr → line.getLast? ≠ some Bytes.lf →
    parse (line ++ [Bytes.lf]) = parse line ∧ parse (line ++ Bytes.crlf) = parse line

/-- Every line is read by the grammar. -/
theorem readByGrammar_parse (line : Bytes) :
    ∃ unended content, ReadByGrammar line unended content := by
  refine ⟨dropLastIf Bytes.lf line, line.chomp, ?_⟩
  have haccepted : (∃ reply, parse line = .ok reply) ↔ HasForm line.chomp := by
    simp only [parse_eq_ok_iff, hasForm_iff]
  have hcode (reply : Reply) (h : parse line = .ok reply) : reply.code.toNat < 1000 :=
    ((parse_eq_ok_iff line reply).mp h).code_lt
  refine ⟨Bytes.ended_dropLastIf _ _, Bytes.ended_dropLastIf _ _, haccepted,
    parse_eq_ok_iff line, parse_eq_error_iff line, hcode, ?_⟩
  intro hcr hlf
  obtain ⟨hline, hlineLf, hlineCrlf⟩ := Bytes.chomp_ended hcr hlf
  exact ⟨parse_congr (hlineLf.trans hline.symm), parse_congr (hlineCrlf.trans hline.symm)⟩

/-- A status whose third number is too large is a part of the text. -/
example : (parse (Utf8.encode "550-5.1.65536 no\r\n")).toOption =
    some ⟨550, none, "5.1.65536 no", true⟩ := by decide +kernel

end Reply

end SmtpClient
