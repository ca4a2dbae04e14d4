import SmtpClient.Proofs.Challenge
import SmtpClient.Proofs.Lines

namespace SmtpClient

namespace Base64

/-- Every letter of base64 has its own number. -/
theorem value?_letter {n : Nat} (h : n < 64) : value? (letter n) = some n := by
  have hall : ∀ n < 64, value? (letter n) = some n := by decide
  exact hall n h

/-- The pad sign is none of the letters. -/
theorem letter_ne_pad {n : Nat} (h : n < 64) : letter n ≠ '=' := by
  have hall : ∀ n < 64, letter n ≠ '=' := by decide
  exact hall n h

/-- A byte from the number that stands for it. -/
theorem ofNat_eq {b : UInt8} {n : Nat} (h : n = b.toNat) : UInt8.ofNat n = b := by
  rw [h, UInt8.ofNat_toNat]

theorem decodeOne?_encode (a : UInt8) :
    decodeOne? (letter (a.toNat / 4)) (letter (a.toNat % 4 * 16)) = some [a] := by
  have ha := a.toNat_lt
  have hbyte : UInt8.ofNat (a.toNat / 4 * 4 + a.toNat % 4 * 16 / 16) = a := ofNat_eq (by omega)
  unfold decodeOne?
  rw [value?_letter (by omega), value?_letter (by omega)]
  simp only [Option.bind_eq_bind, Option.bind_some, hbyte]
  rw [if_pos (by omega)]

theorem decodeTwo?_encode (a b : UInt8) :
    decodeTwo? (letter (a.toNat / 4)) (letter (a.toNat % 4 * 16 + b.toNat / 16))
      (letter (b.toNat % 16 * 4)) = some [a, b] := by
  have ha := a.toNat_lt
  have hb := b.toNat_lt
  have hfirst : UInt8.ofNat (a.toNat / 4 * 4 + (a.toNat % 4 * 16 + b.toNat / 16) / 16) = a :=
    ofNat_eq (by omega)
  have hsecond : UInt8.ofNat ((a.toNat % 4 * 16 + b.toNat / 16) % 16 * 16 +
      b.toNat % 16 * 4 / 4) = b := ofNat_eq (by omega)
  unfold decodeTwo?
  rw [value?_letter (by omega), value?_letter (by omega), value?_letter (by omega)]
  simp only [Option.bind_eq_bind, Option.bind_some, hfirst, hsecond]
  rw [if_pos (by omega)]

/-- Three bytes are read back from the four letters into which their bits were dealt. -/
theorem decodeThree?_encode (a b c : UInt8) :
    decodeThree? (letter (a.toNat / 4)) (letter (a.toNat % 4 * 16 + b.toNat / 16))
      (letter (b.toNat % 16 * 4 + c.toNat / 64)) (letter (c.toNat % 64)) = some [a, b, c] := by
  have ha := a.toNat_lt
  have hb := b.toNat_lt
  have hc := c.toNat_lt
  have hfirst : UInt8.ofNat (a.toNat / 4 * 4 + (a.toNat % 4 * 16 + b.toNat / 16) / 16) = a :=
    ofNat_eq (by omega)
  have hsecond : UInt8.ofNat ((a.toNat % 4 * 16 + b.toNat / 16) % 16 * 16 +
      (b.toNat % 16 * 4 + c.toNat / 64) / 4) = b := ofNat_eq (by omega)
  have hthird : UInt8.ofNat ((b.toNat % 16 * 4 + c.toNat / 64) % 4 * 64 + c.toNat % 64) = c :=
    ofNat_eq (by omega)
  unfold decodeThree?
  rw [value?_letter (by omega), value?_letter (by omega), value?_letter (by omega),
    value?_letter (by omega)]
  simp only [Option.bind_eq_bind, Option.bind_some, hfirst, hsecond, hthird]

/-- A group that does not end in a pad sign holds three bytes, and more groups may follow. -/
theorem decode?_group {a b c d : Char} (h : d ≠ '=') (rest : List Char) :
    decode? (a :: b :: c :: d :: rest) =
      (decodeThree? a b c d).bind fun bytes =>
        (decode? rest).bind fun later => some (bytes ++ later) := by
  rw [decode?]
  · rfl
  · intro _ hd
    exact absurd hd h
  · intro hd
    exact absurd hd h

/-- Bytes are read back from their base64. -/
theorem decode?_encode (bs : Bytes) : decode? (encode bs) = some bs := by
  fun_induction encode bs with
  | case1 => rfl
  | case2 a => exact decodeOne?_encode a
  | case3 a b =>
    rw [decode?]
    · exact decodeTwo?_encode a b
    · intro hpad
      exact absurd hpad (letter_ne_pad (by omega))
  | case4 a b c rest ih =>
    rw [decode?_group (letter_ne_pad (by omega)), decodeThree?_encode, ih]
    rfl

end Base64

def Bytes.cut? (mark : UInt8) (bs : Bytes) : Option (Bytes × Bytes) :=
  if mark ∈ bs then some (bs.takeWhile (· ≠ mark), (bs.dropWhile (· ≠ mark)).tail) else none

/-- A message is cut at its first mark, which stands behind the first piece that has none. -/
theorem Bytes.cut?_append {mark : UInt8} {before : Bytes} (h : mark ∉ before) (rest : Bytes) :
    cut? mark (before ++ mark :: rest) = some (before, rest) := by
  have hbefore : ∀ b ∈ before, decide (b ≠ mark) = true := by
    intro b hb
    rw [decide_eq_true_eq]
    rintro rfl
    exact h hb
  have hends := takeWhile_dropWhile_append hbefore (show ∀ b ∈ (mark :: rest).head?,
    decide (b ≠ mark) = false by simp)
  rw [cut?, if_pos (by simp), hends.1, hends.2, List.tail_cons]

structure Identity where
  /-- The identity to act for, empty for the user's own. -/
  actsFor : String
  user : String
  password : String
  deriving DecidableEq, Repr

namespace Identity

def ofMessage? (message : Bytes) : Option Identity := do
  let (actsFor, rest) ← message.cut? 0
  let (user, password) ← rest.cut? 0
  some ⟨← Utf8.decode? actsFor, ← Utf8.decode? user, ← Utf8.decode? password⟩

def ofLine? (line : Bytes) : Option Identity := do
  let text ← Utf8.decode? (← Bytes.crlf.isSuffixOf? line)
  ofMessage? (← Base64.decode? text.toList)

/-- The line that answers a challenge is read as the message that was put together. -/
theorem ofLine?_passwordResponse (user password : String) :
    ofLine? (passwordResponse user password).render = ofMessage? (plainMessage user password) := by
  have htext : Bytes.crlf.isSuffixOf? (passwordResponse user password).render =
      some (Utf8.encode (String.ofList (Base64.encode (plainMessage user password)))) :=
    List.isSuffixOf?_eq_some_iff_append_eq.mpr (render_passwordResponse user password).symm
  unfold ofLine?
  rw [htext, Option.bind_eq_bind, Option.bind_some, Utf8.decode?_encode]
  simp [Base64.decode?_encode]

/-- A message hangs on no more than the user and the password with a NUL between them. What stands
before the first NUL of these is taken for the user, and the rest for the password. -/
theorem ofMessage?_plainMessage {user password known rest : String} (h : '\x00' ∉ known.toList)
    (hsame : user ++ "\x00" ++ password = known ++ "\x00" ++ rest) :
    ofMessage? (plainMessage user password) = some ⟨"", known, rest⟩ := by
  have hjoin (a b : String) : plainMessage a b = 0 :: Utf8.encode (a ++ "\x00" ++ b) := by
    have hnul : Utf8.encode "\x00" = [0] := by decide
    rw [Utf8.encode_append, Utf8.encode_append, hnul, List.append_assoc]
    rfl
  have hknown : (0 : UInt8) ∉ Utf8.encode known := by
    rwa [Utf8.mem_encode_iff (c := '\x00') (by decide) (by decide)]
  have hmessage : plainMessage user password =
      [] ++ 0 :: (Utf8.encode known ++ 0 :: Utf8.encode rest) := by
    rw [hjoin, hsame, ← hjoin]
    rfl
  unfold ofMessage?
  rw [hmessage, Bytes.cut?_append List.not_mem_nil]
  simp only [Option.bind_eq_bind, Option.bind_some, Bytes.cut?_append hknown,
    Utf8.decode?_encode]
  rfl

/-- The user and the password are read back exactly if the name of the user holds no NUL. -/
theorem ofMessage?_plainMessage_iff (user password : String) :
    ofMessage? (plainMessage user password) = some ⟨"", user, password⟩ ↔
      '\x00' ∉ user.toList := by
  constructor
  · intro hread hnul
    obtain ⟨known, tail, hcut, hknown⟩ := List.eq_append_cons_of_mem hnul
    have huser : user = String.ofList known ++ "\x00" ++ String.ofList tail := by
      rw [← String.toList_inj, hcut]
      simp
    have hshifted : ofMessage? (plainMessage user password) =
        some ⟨"", String.ofList known, String.ofList tail ++ "\x00" ++ password⟩ := by
      refine ofMessage?_plainMessage (by simpa using hknown) ?_
      rw [huser]
      simp only [String.append_assoc]
    rw [hread, Option.some.injEq, Identity.mk.injEq] at hshifted
    have hlength := congrArg (·.toList.length) hshifted.2.1
    simp only [hcut, String.toList_ofList, List.length_append, List.length_cons] at hlength
    omega
  · intro hfree
    exact ofMessage?_plainMessage hfree rfl

/-- A NUL in the password does no harm. -/
example : ofLine? (passwordResponse "alice" "se\x00cret").render =
    some ⟨"", "alice", "se\x00cret"⟩ := by decide +kernel

end Identity

namespace Dialogue

def IsChallenge (settings : Settings) (before : List Call) (call : Call) : Prop :=
  ((start settings).after before).authCode? call = some 334 ∧
    ((start settings).after before).passwordSent = false

instance (settings : Settings) (before : List Call) (call : Call) :
    Decidable (IsChallenge settings before call) :=
  inferInstanceAs (Decidable (_ ∧ _))

/-- Every challenge is answered with one line, in which a server reads the user of the settings and
the password that was given last. -/
def TellsIdentity (settings : Settings) (calls : List Call) : Prop :=
  ∀ before call later, calls = before ++ call :: later → IsChallenge settings before call →
    ∃ password line, lastPassword before = some password ∧
      ((start settings).after before).outputOf call = [.raw line] ∧ line.IsCommandLine ∧
      Identity.ofLine? line = some ⟨"", settings.user, password⟩

/-- The answer to a challenge names the user and the password, exactly if there is no NUL in the name
of the user or no challenge to answer. -/
theorem tellsIdentity_iff (settings : Settings) (calls : List Call) :
    TellsIdentity settings calls ↔
      '\x00' ∉ settings.user.toList ∨ ¬Occurs calls (IsChallenge settings) := by
  constructor
  · intro hall
    by_contra hneither
    obtain ⟨hnul, before, call, later, heq, hchallenge⟩ :
        '\x00' ∈ settings.user.toList ∧ Occurs calls (IsChallenge settings) := by
      simpa only [not_or, not_not] using hneither
    obtain ⟨password, line, hp, hout, -, hread⟩ := hall before call later heq hchallenge
    obtain ⟨given, hgiven, hanswer⟩ := outputOf_challenge hchallenge.1 hchallenge.2
    obtain rfl : given = password := Option.some.inj (hgiven.symm.trans hp)
    have hline : line = (passwordResponse settings.user given).render :=
      congrArg Transmit.data (List.singleton_inj.mp (hout.symm.trans hanswer))
    rw [hline, Identity.ofLine?_passwordResponse, Identity.ofMessage?_plainMessage_iff] at hread
    exact hread hnul
  · intro hfree before call later heq hchallenge
    obtain ⟨password, hp, hanswer⟩ := outputOf_challenge hchallenge.1 hchallenge.2
    refine ⟨password, _, hp, hanswer, isCommandLine_passwordResponse _ _, ?_⟩
    rw [Identity.ofLine?_passwordResponse, Identity.ofMessage?_plainMessage_iff]
    refine hfree.resolve_right fun hnone => hnone ?_
    exact ⟨before, call, later, heq, hchallenge⟩

def twoNames : Settings := { authenticating with user := "alice\x00admin" }

def challenged : List Call :=
  .password "secret" ::
    conversation .greeting ["220 mx ESMTP", "250-mx", "250 AUTH PLAIN", "334 "]

/-- The server takes the rest of the name for the beginning of the password. -/
theorem not_tellsIdentity_of_nul : ¬TellsIdentity twoNames challenged := by
  intro hall
  obtain ⟨password, line, hp, hout, -, hread⟩ :=
    hall challenged.dropLast (.line (Utf8.encode "334 ")) [] rfl (by decide +kernel)
  have hanswer : ((start twoNames).after challenged.dropLast).outputOf
      (.line (Utf8.encode "334 ")) = [.raw (passwordResponse "alice\x00admin" "secret").render] := by
    decide +kernel
  have hline : line = (passwordResponse "alice\x00admin" "secret").render :=
    congrArg Transmit.data (List.singleton_inj.mp (hout.symm.trans hanswer))
  have hshifted : Identity.ofLine? line = some ⟨"", "alice", "admin\x00secret"⟩ := by
    rw [hline]
    decide +kernel
  rw [hread] at hshifted
  revert hshifted
  simp [twoNames]

end Dialogue

end SmtpClient
