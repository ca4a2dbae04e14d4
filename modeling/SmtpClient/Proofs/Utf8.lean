import Mathlib.Data.List.Basic
import Mathlib.Tactic.Ring
import Mathlib.Tactic.SplitIfs
import SmtpClient.Text.Utf8

namespace SmtpClient.Utf8

/-- The last bytes of the character of a number, as many as are owed, with six bits in each. -/
def owedBytes (n : Nat) : Nat → Bytes
  | 0 => []
  | owed + 1 => .ofNat (n / 64 ^ owed % 64 + 0x80) :: owedBytes n owed

theorem toNat_ofNat {b : Nat} (h : b < 256) : (UInt8.ofNat b).toNat = b := by
  rw [UInt8.toNat_ofNat', Nat.mod_eq_of_lt h]

/-- The bytes that are owed complete the character, if the first of them may come next. -/
theorem characters_owedBytes {n owed low high : Nat} (bits : Nat)
    (hlow : low ≤ n / 64 ^ owed % 64 + 0x80) (hhigh : n / 64 ^ owed % 64 + 0x80 ≤ high)
    (rest : Bytes) : characters (.within owed low high bits) (owedBytes n (owed + 1) ++ rest) =
      some (Char.ofNat (bits * 64 ^ (owed + 1) + n % 64 ^ (owed + 1))) ::
        characters .start rest := by
  have hsix (b : Nat) : b % 64 + 0x80 < 256 := by omega
  induction owed generalizing bits low high with
  | zero =>
    rw [owedBytes, List.cons_append, characters, toNat_ofNat (hsix _), step,
      if_pos ⟨hlow, hhigh⟩]
    simp [owedBytes]
  | succ owed ih =>
    have hnext : characters (.within owed 0x80 0xBF (bits * 64 + n / 64 ^ (owed + 1) % 64)) _ = _ :=
      ih _ (by omega) (by omega)
    rw [owedBytes, List.cons_append, characters, toNat_ofNat (hsix _), step,
      if_pos ⟨hlow, hhigh⟩]
    simp only [Nat.add_sub_cancel, List.nil_append]
    rw [hnext]
    congr 3
    rw [Nat.pow_succ 64 (owed + 1), Nat.mod_mul]
    ring

def Leads (n owed b : Nat) : Prop :=
  b < 256 ∧ ∃ low high, first b = ([], .within owed low high (n / 64 ^ (owed + 1))) ∧
    low ≤ n / 64 ^ owed % 64 + 0x80 ∧ n / 64 ^ owed % 64 + 0x80 ≤ high

/-- The bytes of a character are read as this character, whatever comes behind them. -/
theorem Leads.characters_eq {n owed b : Nat} (h : Leads n owed b) (rest : Bytes) :
    characters .start (.ofNat b :: owedBytes n (owed + 1) ++ rest) =
      some (Char.ofNat n) :: characters .start rest := by
  obtain ⟨hb, low, high, hfirst, hlow, hhigh⟩ := h
  rw [List.cons_append, characters, step, toNat_ofNat hb, hfirst, List.nil_append,
    characters_owedBytes _ hlow hhigh, Nat.mul_comm, Nat.div_add_mod]

theorem leads_two {n : Nat} (h : 0x80 ≤ n) (h' : n < 0x800) : Leads n 0 (n / 64 + 0xC0) := by
  refine ⟨by omega, 0x80, 0xBF, ?_, by omega, by omega⟩
  rw [first, if_neg (by omega), if_pos (by omega), Nat.add_sub_cancel, Nat.zero_add, Nat.pow_one]

/-- Which byte may come next depends on the first, so that no number is written in too many bytes
and none of a surrogate. -/
theorem leads_three {n : Nat} (h : 0x800 ≤ n) (h' : n < 0x10000)
    (hvalid : n < 0xD800 ∨ 0xDFFF < n) : Leads n 1 (n / 64 ^ 2 + 0xE0) := by
  refine ⟨by omega, ?_⟩
  rw [first, if_neg (by omega), if_neg (by omega)]
  split
  · next hlead =>
    have hbits : n / 64 ^ 2 = 0 := by omega
    exact ⟨0xA0, 0xBF, by rw [hbits], by omega, by omega⟩
  · split
    · next hlead =>
      have hbits : n / 64 ^ 2 = 13 := by omega
      exact ⟨0x80, 0x9F, by rw [hbits], by omega, by omega⟩
    · rw [if_pos (by omega), Nat.add_sub_cancel]
      exact ⟨0x80, 0xBF, rfl, by omega, by omega⟩

theorem leads_four {n : Nat} (h : 0x10000 ≤ n) (h' : n < 0x110000) :
    Leads n 2 (n / 64 ^ 3 + 0xF0) := by
  refine ⟨by omega, ?_⟩
  rw [first, if_neg (by omega), if_neg (by omega), if_neg (by omega), if_neg (by omega),
    if_neg (by omega)]
  split
  · next hlead =>
    have hbits : n / 64 ^ 3 = 0 := by omega
    exact ⟨0x90, 0xBF, by rw [hbits], by omega, by omega⟩
  · split
    · rw [Nat.add_sub_cancel]
      exact ⟨0x80, 0xBF, rfl, by omega, by omega⟩
    · have hbits : n / 64 ^ 3 = 4 := by omega
      rw [if_pos (by omega)]
      exact ⟨0x80, 0x8F, by rw [hbits], by omega, by omega⟩

/-- A character of ASCII is written as the byte of its number. -/
theorem utf8EncodeChar_of_lt {c : Char} (h : c.toNat < 0x80) :
    String.utf8EncodeChar c = [.ofNat c.toNat] := by
  have hvalue : c.val.toNat = c.toNat := rfl
  unfold String.utf8EncodeChar
  rw [hvalue]
  dsimp only
  rw [if_pos (by omega)]

/-- A longer character is a byte that leads and the bytes that it owes. -/
theorem exists_leads {c : Char} (h : 0x80 ≤ c.toNat) : ∃ owed b, Leads c.toNat owed b ∧
    String.utf8EncodeChar c = .ofNat b :: owedBytes c.toNat (owed + 1) := by
  have hvalid : c.toNat < 0xD800 ∨ 0xDFFF < c.toNat ∧ c.toNat < 0x110000 := c.valid
  have hvalue : c.val.toNat = c.toNat := rfl
  unfold String.utf8EncodeChar
  rw [hvalue]
  generalize c.toNat = n at h hvalid
  dsimp only
  rw [if_neg (by omega)]
  split
  · next htwo =>
    have hlead : n / 64 % 0x20 = n / 64 := Nat.mod_eq_of_lt (by omega)
    refine ⟨0, _, leads_two h (by omega), ?_⟩
    rw [hlead]
    simp [owedBytes]
  · split
    · next hthree =>
      have hlead : n / 4096 % 0x10 = n / 64 ^ 2 := Nat.mod_eq_of_lt (by omega)
      refine ⟨1, _, leads_three (by omega) (by omega) (by omega), ?_⟩
      rw [hlead]
      simp [owedBytes]
    · have hlead : n / 262144 % 0x08 = n / 64 ^ 3 := Nat.mod_eq_of_lt (by omega)
      refine ⟨2, _, leads_four (by omega) (by omega), ?_⟩
      rw [hlead]
      simp [owedBytes]

theorem characters_cons_of_lt {b : UInt8} (h : b.toNat < 0x80) (rest : Bytes) :
    characters .start (b :: rest) = some (Char.ofNat b.toNat) :: characters .start rest := by
  rw [characters, step, first, if_pos (by omega)]
  rfl

/-- The bytes of a character are read as that character. -/
theorem characters_utf8EncodeChar (c : Char) (rest : Bytes) :
    characters .start (String.utf8EncodeChar c ++ rest) = some c :: characters .start rest := by
  by_cases h : c.toNat < 0x80
  · have hbyte : (UInt8.ofNat c.toNat).toNat = c.toNat := toNat_ofNat (by omega)
    rw [utf8EncodeChar_of_lt h, List.singleton_append,
      characters_cons_of_lt (by rwa [hbyte]), hbyte, Char.ofNat_toNat]
  · obtain ⟨owed, b, hleads, hbytes⟩ := exists_leads (Nat.not_lt.mp h)
    rw [hbytes, hleads.characters_eq, Char.ofNat_toNat]

theorem characters_encode (text : String) :
    characters .start (encode text) = text.toList.map some := by
  unfold encode
  induction text.toList with
  | nil => rfl
  | cons c cs ih => rw [List.flatMap_cons, characters_utf8EncodeChar, ih, List.map_cons]

/-- Every text is read back from its bytes. -/
theorem decodeLossy_encode (text : String) : decodeLossy (encode text) = text := by
  have hchars : (fun c : Option Char => c.getD '\uFFFD') ∘ some = id := rfl
  rw [decodeLossy, characters_encode, List.map_map, hchars, List.map_id, String.ofList_toList]

/-- Every text is read back from its bytes. -/
theorem decode?_encode (text : String) : decode? (encode text) = some text := by
  have hchars (cs : List Char) : (cs.map some).mapM id = some cs := by
    induction cs with
    | nil => rfl
    | cons c cs ih =>
      rw [List.map_cons, List.mapM_cons, ih]
      rfl
  rw [decode?, characters_encode, hchars, Option.map_some, String.ofList_toList]

/-- Different texts have different bytes. -/
theorem encode_injective : Function.Injective encode :=
  Function.LeftInverse.injective decodeLossy_encode

theorem encode_append (a b : String) : encode (a ++ b) = encode a ++ encode b := by
  rw [encode, String.toList_append, List.flatMap_append]
  rfl

/-- A text of ASCII has one byte for each character. -/
theorem encode_of_lt {text : String} (h : ∀ c ∈ text.toList, c.toNat < 0x80) :
    encode text = text.toList.map fun c => .ofNat c.toNat := by
  unfold encode
  generalize text.toList = cs at h ⊢
  induction cs with
  | nil => rfl
  | cons c cs ih =>
    rw [List.flatMap_cons, utf8EncodeChar_of_lt (h c List.mem_cons_self),
      ih fun c hc => h c (List.mem_cons_of_mem _ hc)]
    rfl

/-- A byte below 128 stands for the character of that number, and occurs in no other. -/
theorem mem_utf8EncodeChar_iff {b : UInt8} (hb : b.toNat < 128) (c : Char) :
    b ∈ String.utf8EncodeChar c ↔ c.toNat = b.toNat := by
  have hof (n : Nat) : b = UInt8.ofNat n ↔ b.toNat = n % 256 := by
    rw [← UInt8.toNat_inj, UInt8.toNat_ofNat']
  change _ ↔ c.val.toNat = b.toNat
  unfold String.utf8EncodeChar
  dsimp only
  split
  · rw [List.mem_singleton, hof]
    omega
  · simp only [apply_ite (b ∈ ·), List.mem_cons, List.not_mem_nil, or_false, hof]
    split
    · omega
    · split <;> omega

/-- A byte of ASCII stands in the bytes of a text only for its own character. -/
theorem mem_encode_iff {b : UInt8} {c : Char} (hc : c.toNat = b.toNat) (hb : b.toNat < 128)
    (text : String) : b ∈ encode text ↔ c ∈ text.toList := by
  have hsame (c' : Char) : b ∈ String.utf8EncodeChar c' ↔ c' = c := by
    rw [mem_utf8EncodeChar_iff hb, ← hc, Char.toNat_inj]
  rw [encode, List.mem_flatMap]
  constructor
  · rintro ⟨c', hmem, hbyte⟩
    rwa [← (hsame c').mp hbyte]
  · intro hmem
    exact ⟨c, hmem, (hsame c).mpr rfl⟩

/-- A last byte of ASCII is the last character. -/
theorem getLast?_of_encode {b : UInt8} {c : Char} (hc : c.toNat = b.toNat) (hb : b.toNat < 128)
    {text : String} (h : (encode text).getLast? = some b) : text.toList.getLast? = some c := by
  unfold encode at h
  rcases List.eq_nil_or_concat' text.toList with hnil | ⟨cs, c', hcs⟩
  · rw [hnil] at h
    cases h
  · rw [hcs, List.flatMap_append, List.flatMap_singleton,
      List.getLast?_append_of_ne_nil _ String.utf8EncodeChar_ne_nil] at h
    have hmem := (mem_utf8EncodeChar_iff hb c').mp (List.mem_of_getLast? h)
    rw [← hc, Char.toNat_inj] at hmem
    rw [hcs, List.getLast?_concat, hmem]

def Beyond (owed low high bits : Nat) : Prop :=
  ∀ b later, low ≤ b → b ≤ high → later < 64 ^ owed →
    0x80 ≤ (bits * 64 + (b - 0x80)) * 64 ^ owed + later ∧
      ((bits * 64 + (b - 0x80)) * 64 ^ owed + later).isValidChar

/-- A byte beyond ASCII is malformed or begins a character beyond ASCII. -/
theorem first_of_ge {b : Nat} (h : 0x80 ≤ b) : first b = ([none], .start) ∨
    ∃ owed low high bits, first b = ([], .within owed low high bits) ∧
      Beyond owed low high bits := by
  rw [first, if_neg (by omega)]
  split_ifs
  case neg => exact Or.inl rfl
  all_goals
    refine Or.inr ⟨_, _, _, _, rfl, ?_⟩
    intro b' later hlow hhigh hlater
    simp only [Nat.isValidChar]
    omega

/-- A byte that continues a character keeps what it completes beyond ASCII. -/
theorem Beyond.next {owed low high bits b : Nat} (h : Beyond (owed + 1) low high bits)
    (hlow : low ≤ b) (hhigh : b ≤ high) : Beyond owed 0x80 0xBF (bits * 64 + (b - 0x80)) := by
  intro b' later hlow' hhigh' hlater
  have hsix : (b' - 0x80) * 64 ^ owed + later < 64 ^ (owed + 1) := by
    have hmul := Nat.mul_le_mul_right (64 ^ owed) (show b' - 0x80 ≤ 63 by omega)
    rw [Nat.pow_succ]
    omega
  have hvalue := h b _ hlow hhigh hsix
  have hsame : (bits * 64 + (b - 0x80)) * 64 ^ (owed + 1) + ((b' - 0x80) * 64 ^ owed + later) =
      ((bits * 64 + (b - 0x80)) * 64 + (b' - 0x80)) * 64 ^ owed + later := by ring
  rwa [hsame] at hvalue

theorem toNat_charOfNat {n : Nat} (h : n.isValidChar) : (Char.ofNat n).toNat = n := by
  rw [Char.ofNat, dif_pos h]
  rfl

theorem Beyond.exists_characters {owed low high bits : Nat} (h : Beyond owed low high bits)
    (bs : Bytes) : ∃ c later, characters (.within owed low high bits) bs = c :: later ∧
      0x80 ≤ (c.getD '\uFFFD').toNat := by
  induction bs generalizing owed low high bits with
  | nil => exact ⟨none, [], rfl, by decide⟩
  | cons b rest ih =>
    rw [characters]
    by_cases hb : low ≤ b.toNat ∧ b.toNat ≤ high
    · cases owed with
      | zero =>
        obtain ⟨hlarge, hvalid⟩ := h b.toNat 0 hb.1 hb.2 Nat.one_pos
        rw [Nat.pow_zero, Nat.mul_one, Nat.add_zero] at hlarge hvalid
        rw [step, if_pos hb]
        refine ⟨_, _, rfl, ?_⟩
        rwa [Option.getD_some, toNat_charOfNat hvalid]
      | succ owed =>
        rw [step, if_pos hb]
        exact ih (h.next hb.1 hb.2)
    · rw [step.eq_def]
      simp only [if_neg hb]
      exact ⟨none, _, rfl, by decide⟩

theorem characters_cons_of_ge {b : UInt8} (h : 0x80 ≤ b.toNat) (rest : Bytes) :
    ∃ c later, characters .start (b :: rest) = c :: later ∧ 0x80 ≤ (c.getD '\uFFFD').toNat := by
  have hstep : characters .start (b :: rest) =
      (first b.toNat).1 ++ characters (first b.toNat).2 rest := by rw [characters, step]
  rw [hstep]
  rcases first_of_ge h with hfirst | ⟨owed, low, high, bits, hfirst, hbeyond⟩
  · rw [hfirst]
    exact ⟨none, _, rfl, by decide⟩
  · rw [hfirst]
    exact hbeyond.exists_characters rest

/-- How the bytes of a converted text begin: as the bytes themselves, or beyond ASCII. -/
theorem encode_decodeLossy_cons (b : UInt8) (rest : Bytes) :
    encode (decodeLossy (b :: rest)) = b :: encode (decodeLossy rest) ∨
      ∃ b' later, encode (decodeLossy (b :: rest)) = b' :: later ∧ 0x80 ≤ b'.toNat := by
  have hbytes (bs : Bytes) : encode (decodeLossy bs) =
      (characters .start bs).flatMap fun c => String.utf8EncodeChar (c.getD '\uFFFD') := by
    rw [encode, decodeLossy, String.toList_ofList, List.flatMap_map]
  rw [hbytes, hbytes]
  by_cases hb : b.toNat < 0x80
  · have hsame : (Char.ofNat b.toNat).toNat = b.toNat := toNat_charOfNat (Or.inl (by omega))
    refine Or.inl ?_
    rw [characters_cons_of_lt hb, List.flatMap_cons, Option.getD_some,
      utf8EncodeChar_of_lt (by rwa [hsame]), hsame, UInt8.ofNat_toNat, List.singleton_append]
  · obtain ⟨c, later, hc, hlarge⟩ := characters_cons_of_ge (Nat.not_lt.mp hb) rest
    obtain ⟨b', more, hmore⟩ := List.exists_cons_of_ne_nil
      (String.utf8EncodeChar_ne_nil (c := c.getD '\uFFFD'))
    refine Or.inr ⟨b', _, by rw [hc, List.flatMap_cons, hmore, List.cons_append], ?_⟩
    by_contra hsmall
    have hmem : b' ∈ String.utf8EncodeChar (c.getD '\uFFFD') := by simp [hmore]
    rw [mem_utf8EncodeChar_iff (Nat.not_le.mp hsmall)] at hmem
    omega

/-- Conversion makes no text empty. -/
theorem eq_nil_of_encode_decodeLossy {bs : Bytes} (h : encode (decodeLossy bs) = []) :
    bs = [] := by
  cases bs with
  | nil => rfl
  | cons b rest =>
    rcases encode_decodeLossy_cons b rest with hsame | ⟨b', later, hother, -⟩
    · rw [h] at hsame
      cases hsame
    · rw [h] at hother
      cases hother

/-- The ASCII with which a converted text begins is what the bytes begin with. -/
theorem exists_of_encode_decodeLossy {word later bs : Bytes} (hword : ∀ b ∈ word, b.toNat < 0x80)
    (h : encode (decodeLossy bs) = word ++ later) :
    ∃ rest, bs = word ++ rest ∧ encode (decodeLossy rest) = later := by
  induction word generalizing bs with
  | nil => exact ⟨bs, rfl, h⟩
  | cons b word ih =>
    have hb := hword b List.mem_cons_self
    cases bs with
    | nil => cases h
    | cons b' bs =>
      rcases encode_decodeLossy_cons b' bs with hsame | ⟨b'', more, hother, hlarge⟩
      · rw [hsame] at h
        obtain ⟨rfl, hlater⟩ := List.cons.inj h
        obtain ⟨rest, rfl, hrest⟩ := ih (fun b hb => hword b (List.mem_cons_of_mem _ hb)) hlater
        exact ⟨rest, rfl, hrest⟩
      · rw [hother] at h
        obtain ⟨rfl, -⟩ := List.cons.inj h
        omega

end SmtpClient.Utf8
