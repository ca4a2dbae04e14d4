import SmtpClient.Json.Value
import SmtpClient.Proofs.WrittenReply

namespace SmtpClient.Json

theorem skipSpaces_cons {b : UInt8} (h : isSpace b = false) (rest : Bytes) :
    skipSpaces (b :: rest) = b :: rest := by
  rw [skipSpaces, List.dropWhile_cons_of_neg (by simp [h])]

theorem before_before (bs bs' : Bytes) (result : Except Fault (Bytes × Bytes)) :
    before bs (before bs' result) = before (bs ++ bs') result := by
  cases result with
  | error fault => rfl
  | ok r => simp [before, Except.map]

def IsPlain (b : UInt8) : Prop := b ≠ 34 ∧ b ≠ 92 ∧ ¬b < 32

theorem stringBytes_plain {b : UInt8} (h : IsPlain b) (rest : Bytes) :
    stringBytes (b :: rest) = before [b] (stringBytes rest) := by
  obtain ⟨hquote, hescape, hcontrol⟩ := h
  rw [stringBytes]
  · rw [if_neg hcontrol]
  all_goals simp [hquote, hescape]

/-- A letter behind a backslash is read as the byte for which it stands. -/
theorem stringBytes_letter {b e : UInt8} (hb : b ≠ 117) (he : escaped? b = some e) (rest : Bytes) :
    stringBytes (92 :: b :: rest) = before [e] (stringBytes rest) := by
  rw [stringBytes]
  · rw [he]
  all_goals simp [hb]

/-- Four digits behind a backslash are read as the character of that number. -/
theorem stringBytes_number {a b c d : UInt8} {n : Nat} (h : hex? a b c d = some n)
    (hn : n < 0xD800) (rest : Bytes) :
    stringBytes (92 :: 117 :: a :: b :: c :: d :: rest) =
      before (encodeScalar n) (stringBytes rest) := by
  rw [stringBytes.eq_def]
  simp only [h]
  rw [if_neg (by omega), if_pos (by omega)]

theorem stringBytes_append {bs : Bytes} (h : ∀ b ∈ bs, IsPlain b) (rest : Bytes) :
    stringBytes (bs ++ rest) = before bs (stringBytes rest) := by
  induction bs with
  | nil =>
    rw [List.nil_append]
    cases stringBytes rest <;> rfl
  | cons b bs ih =>
    have hlater := ih fun b hb => h b (List.mem_cons_of_mem _ hb)
    rw [List.cons_append, stringBytes_plain (h b List.mem_cons_self), hlater, before_before]
    rfl

/-- A hexadecimal digit is one byte. -/
theorem utf8EncodeChar_hexLetter (n : Nat) :
    String.utf8EncodeChar (hexLetter n) = [.ofNat (hexLetter n).toNat] := by
  have hall : ∀ d < 16, (Nat.digitChar d).toNat < 0x80 := by decide
  exact Utf8.utf8EncodeChar_of_lt (hall _ (Nat.mod_lt _ (by decide)))

/-- A control is told by the last two of its four digits. -/
theorem hex?_hexLetter {n : Nat} (h : n < 32) :
    hex? 48 48 (.ofNat (hexLetter (n / 16)).toNat) (.ofNat (hexLetter n).toNat) = some n := by
  have hall : ∀ n < 32,
      hex? 48 48 (.ofNat (hexLetter (n / 16)).toNat) (.ofNat (hexLetter n).toNat) = some n := by
    decide
  exact hall n h

/-- A character that is not escaped is written in plain bytes. -/
theorem isPlain_of_mem {c : Char} (hquote : c ≠ '"') (hescape : c ≠ '\\') (hcontrol : 32 ≤ c.toNat) :
    ∀ b ∈ String.utf8EncodeChar c, IsPlain b := by
  intro b hmem
  refine ⟨?_, ?_, ?_⟩
  · rintro rfl
    have hc := (Utf8.mem_utf8EncodeChar_iff (by decide) c).mp hmem
    exact hquote (Char.toNat_inj.mp hc)
  · rintro rfl
    have hc := (Utf8.mem_utf8EncodeChar_iff (by decide) c).mp hmem
    exact hescape (Char.toNat_inj.mp hc)
  · intro hb
    have hsmall : b.toNat < 32 := hb
    have hc := (Utf8.mem_utf8EncodeChar_iff (by omega) c).mp hmem
    omega

/-- Every character is read back from its escape, or from itself. -/
theorem stringBytes_escapeChar (c : Char) (rest : Bytes) :
    stringBytes ((escapeChar c).flatMap String.utf8EncodeChar ++ rest) =
      before (String.utf8EncodeChar c) (stringBytes rest) := by
  unfold escapeChar
  iterate 7
    split
    · next hc =>
      subst hc
      exact stringBytes_letter (by decide) (by decide) rest
  split
  · next hc =>
    have hbytes : (['\\', 'u', '0', '0', hexLetter (c.toNat / 16), hexLetter c.toNat] :
        List Char).flatMap String.utf8EncodeChar = [92, 117, 48, 48,
          .ofNat (hexLetter (c.toNat / 16)).toNat, .ofNat (hexLetter c.toNat).toNat] := by
      simp only [List.flatMap_cons, List.flatMap_nil, utf8EncodeChar_hexLetter]
      rfl
    rw [hbytes]
    calc
      _ = before (encodeScalar c.toNat) (stringBytes rest) :=
        stringBytes_number (hex?_hexLetter hc) (by omega) rest
      _ = _ := by rw [encodeScalar, Char.ofNat_toNat]
  · next hquote hescape _ _ _ _ _ hcontrol =>
    rw [List.flatMap_singleton]
    exact stringBytes_append (isPlain_of_mem hquote hescape (Nat.not_lt.mp hcontrol)) rest

/-- The bytes of a text up to the quote behind it. -/
theorem stringBytes_flatMap (cs : List Char) (rest : Bytes) :
    stringBytes ((cs.flatMap escapeChar).flatMap String.utf8EncodeChar ++ 34 :: rest) =
      .ok (cs.flatMap String.utf8EncodeChar, rest) := by
  induction cs with
  | nil => rw [List.flatMap_nil, List.flatMap_nil, List.nil_append, stringBytes]
  | cons c cs ih =>
    rw [List.flatMap_cons, List.flatMap_append, List.append_assoc, stringBytes_escapeChar, ih]
    rfl

/-- A quoted text stands between quotes, with each of its characters escaped on its own. -/
theorem encode_quote (text : String) : Utf8.encode (quote text) =
    34 :: ((text.toList.flatMap escapeChar).flatMap String.utf8EncodeChar ++ [34]) := by
  have hquote : String.utf8EncodeChar '"' = [34] := by decide
  rw [Utf8.encode, quote, String.toList_ofList, List.cons_append, List.flatMap_cons,
    List.flatMap_append, List.flatMap_singleton, hquote]
  rfl

/-- A text that was quoted, after its opening quote. -/
theorem string_quote (text : String) (rest : Bytes) :
    string ((text.toList.flatMap escapeChar).flatMap String.utf8EncodeChar ++ 34 :: rest) =
      .ok (text, rest) := by
  have hdecoded : Utf8.decode? (text.toList.flatMap String.utf8EncodeChar) = some text :=
    Utf8.decode?_encode text
  rw [string, stringBytes_flatMap]
  simp only [hdecoded]

/-- What a scan makes of a quote that it meets. -/
theorem text_quote (written : String) (rest : Bytes) :
    text (Utf8.encode (quote written) ++ rest) = .ok (written, rest) := by
  rw [encode_quote, List.cons_append, List.append_assoc, text, skipSpaces_cons (by decide)]
  exact string_quote written rest

/-- A name that is written is read as the alternative of that name. -/
theorem alternative_quote {α : Type} {ofName? : String → Option α} {name : String} {x : α}
    (h : ofName? name = some x) (rest : Bytes) :
    alternative ofName? (Utf8.encode (quote name) ++ rest) = .ok (x, rest) := by
  rw [encode_quote, List.cons_append, List.append_assoc, alternative, skipSpaces_cons (by decide)]
  dsimp only
  rw [if_pos rfl, List.singleton_append, string_quote]
  simp only [h]

theorem boolean_toString (b : Bool) (rest : Bytes) :
    boolean (Utf8.encode (toString b) ++ rest) = .ok (b, rest) := by
  cases b with
  | true =>
    have hbytes : Utf8.encode (toString true) = 116 :: wordOfTrue := by decide
    rw [hbytes]
    rfl
  | false =>
    have hbytes : Utf8.encode (toString false) = 102 :: wordOfFalse := by decide
    rw [hbytes]
    rfl

inductive EndsMember : Bytes → Prop
  | comma (later : Bytes) : EndsMember (44 :: later)
  | brace (later : Bytes) : EndsMember (125 :: later)

/-- Digits are taken as long as the number stays below the limit, and no further than they go. -/
theorem absorb_append {ds rest : Bytes} (hds : ∀ b ∈ ds, Bytes.isDigit b = true)
    (hrest : EndsMember rest) {m : Nat}
    (hlt : ds.foldl (fun n b => n * 10 + (b.toNat - 48)) m < Bytes.limit64) :
    absorb m (ds ++ rest) = (ds.foldl (fun n b => n * 10 + (b.toNat - 48)) m, rest) := by
  induction ds generalizing m with
  | nil => cases hrest <;> rfl
  | cons b ds ih =>
    rw [List.foldl_cons] at hlt ⊢
    have hsofar : m * 10 + (b.toNat - 48) < Bytes.limit64 := by
      refine Nat.lt_of_le_of_lt ?_ hlt
      rw [Bytes.foldl_decimal]
      have hpow : 1 ≤ Nat.pow 10 ds.length := Nat.one_le_pow _ _ (by decide)
      exact Nat.le_add_right_of_le (Nat.le_mul_of_pos_right _ hpow)
    rw [List.cons_append, absorb, if_pos ⟨hds b List.mem_cons_self, hsofar⟩]
    exact ih (fun b hb => hds b (List.mem_cons_of_mem _ hb)) hlt

theorem afterInteger_endsMember {rest : Bytes} (h : EndsMember rest) (n : Nat) :
    afterInteger false n 0 rest = .ok (.natural n, rest) := by
  cases h <;> rfl

/-- No number but zero begins with a zero. -/
theorem head?_toDigits_ne_zero {n : Nat} (h : 0 < n) : (Nat.toDigits 10 n).head? ≠ some '0' := by
  induction n using Nat.strong_induction_on with
  | _ n ih =>
    by_cases hn : n < 10
    · have hall : ∀ d < 10, 0 < d → Nat.digitChar d ≠ '0' := by decide
      rw [Nat.toDigits_of_lt_base hn, List.head?_cons]
      intro heq
      exact hall n hn h (Option.some.inj heq)
    · rw [Nat.toDigits_of_base_le (by decide) (Nat.not_lt.mp hn),
        List.head?_append_of_ne_nil _ Nat.toDigits_ne_nil]
      exact ih (n / 10) (by omega) (by omega)

theorem isDigit_of_mem_encode_toString {n : Nat} {b : UInt8} (h : b ∈ Utf8.encode (toString n)) :
    Bytes.isDigit b = true := by
  have hdigits := (Bytes.digits?_eq_some_iff _ _).mp (Bytes.digits?_encode_toString n)
  exact (Bytes.isDigit_iff b).mpr (hdigits.2.1 b h)

/-- A positive number is written without a zero in front. -/
theorem exists_digits {n : Nat} (h : 0 < n) :
    ∃ b ds, Utf8.encode (toString n) = b :: ds ∧ b ≠ 48 := by
  obtain ⟨c, cs, hcs⟩ := List.exists_cons_of_ne_nil (Nat.toDigits_ne_nil (b := 10) (n := n))
  have hle := (Bytes.isDigit_of_mem_toDigits (n := n) (c := c) (by simp [hcs])).2
  refine ⟨.ofNat c.toNat, cs.map fun c => .ofNat c.toNat, ?_, fun hzero => ?_⟩
  · rw [Bytes.encode_toString, hcs, List.map_cons]
  · have hc : c.toNat = 48 := by
      rw [← Utf8.toNat_ofNat (show c.toNat < 256 by omega), hzero]
      rfl
    refine head?_toDigits_ne_zero h ?_
    rw [hcs, List.head?_cons]
    exact congrArg some (Char.toNat_inj.mp hc)

/-- A natural number is read to its end, if it has room in sixty-four bits. -/
theorem number_toString {n : Nat} (h : n < Bytes.limit64) {rest : Bytes}
    (hrest : EndsMember rest) :
    number (Utf8.encode (toString n) ++ rest) = .ok (.natural n, rest) := by
  rcases Nat.eq_zero_or_pos n with rfl | hpos
  · have hzero : Utf8.encode (toString 0) = [48] := by decide
    rw [hzero]
    cases hrest <;> rfl
  · obtain ⟨b, ds, hds, hb⟩ := exists_digits hpos
    have hdigits : ∀ b' ∈ b :: ds, Bytes.isDigit b' = true := by
      rw [← hds]
      exact fun b' => isDigit_of_mem_encode_toString
    have hb' := hdigits b List.mem_cons_self
    have hsign : b ≠ 45 := by
      rintro rfl
      revert hb'
      decide
    have hvalue : (b :: ds).foldl (fun n b => n * 10 + (b.toNat - 48)) 0 = n := by
      rw [Bytes.foldl_decimal, ← hds, Bytes.decimal_encode_toString, Nat.zero_mul, Nat.zero_add]
    have habsorb := absorb_append hdigits hrest (m := 0) (by rwa [hvalue])
    rw [hvalue] at habsorb
    have hdropped : rest.takeWhile Bytes.isDigit = [] := by
      cases hrest <;> rfl
    rw [hds, List.cons_append, number, unsigned]
    · have hstarts : startsWithDigit (b :: (ds ++ rest)) = true := by
        simpa [startsWithDigit] using hb'
      rw [← List.cons_append] at hstarts ⊢
      simp only [hstarts, Bool.not_true, Bool.false_eq_true, if_false, habsorb, hdropped]
      exact afterInteger_endsMember hrest n
    all_goals simp [hb, hsign]

/-- A number within its bound is read back, up to what ends the member. -/
theorem naturalBelow_toString {bound n : Nat} (hbound : bound ≤ Bytes.limit64) (h : n < bound)
    {rest : Bytes} (hrest : EndsMember rest) :
    naturalBelow bound (Utf8.encode (toString n) ++ rest) = .ok (n, rest) := by
  have hnumber := number_toString (Nat.lt_of_lt_of_le h hbound) hrest
  obtain ⟨b, ds, hds⟩ : ∃ b ds, Utf8.encode (toString n) = b :: ds :=
    List.exists_cons_of_ne_nil
      ((Bytes.digits?_eq_some_iff _ _).mp (Bytes.digits?_encode_toString n)).1
  have hdigit : Bytes.isDigit b = true := by
    apply isDigit_of_mem_encode_toString (n := n)
    rw [hds]
    exact List.mem_cons_self
  have hspace : isSpace b = false := by
    by_contra hb
    have hcases : b = 32 ∨ b = 9 ∨ b = 10 ∨ b = 13 := by
      rw [Bool.not_eq_false] at hb
      simpa [isSpace, or_assoc] using hb
    rcases hcases with rfl | rfl | rfl | rfl <;> exact absurd hdigit (by decide)
  rw [hds, List.cons_append] at hnumber ⊢
  rw [naturalBelow, skipSpaces_cons hspace]
  dsimp only
  rw [if_pos (Or.inr hdigit), hnumber]
  dsimp only
  rw [if_pos h]

end SmtpClient.Json
