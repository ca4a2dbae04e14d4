import Mathlib.Data.List.Forall2
import Mathlib.Data.List.TakeWhile
import SmtpClient.Proofs.ReplyLine
import SmtpClient.Server.Capabilities

namespace SmtpClient

def Trimmed (cs content : List Char) : Prop :=
  ∃ before after, cs = before ++ content ++ after ∧ (∀ c ∈ before, isBlank c = true) ∧
    (∀ c ∈ after, isBlank c = true) ∧ (∀ c ∈ content.head?, isBlank c = false) ∧
    ∀ c ∈ content.getLast?, isBlank c = false

theorem trimmed_trim (cs : List Char) : Trimmed cs (trim cs) := by
  have hfront := List.takeWhile_append_dropWhile (p := isBlank) (l := cs)
  generalize hrest : cs.dropWhile isBlank = rest at hfront
  have hback := List.takeWhile_append_dropWhile (p := isBlank) (l := rest.reverse)
  have hcontent : trim cs = (rest.reverse.dropWhile isBlank).reverse := by rw [trim, hrest]
  have hsplit : trim cs ++ (rest.reverse.takeWhile isBlank).reverse = rest := by
    rw [hcontent, ← List.reverse_append, hback, List.reverse_reverse]
  refine ⟨cs.takeWhile isBlank, (rest.reverse.takeWhile isBlank).reverse, ?_, ?_, ?_, ?_, ?_⟩
  · rw [List.append_assoc, hsplit, hfront]
  · exact fun c hc => List.mem_takeWhile_imp hc
  · exact fun c hc => List.mem_takeWhile_imp (List.mem_reverse.mp hc)
  · intro c hc
    have hhead : rest.head? = some c := by
      rw [← hsplit, List.head?_append, hc]
      rfl
    have hstop := List.head?_dropWhile_not isBlank cs
    rw [hrest, hhead] at hstop
    simpa using hstop
  · intro c hc
    rw [hcontent, List.getLast?_reverse] at hc
    have hstop := List.head?_dropWhile_not isBlank rest.reverse
    rw [hc] at hstop
    simpa using hstop

theorem Trimmed.trim_eq {cs content : List Char} (h : Trimmed cs content) : trim cs = content := by
  obtain ⟨before, after, rfl, hbefore, hafter, hhead, hlast⟩ := h
  rw [trim, List.append_assoc]
  by_cases hnil : content = []
  · have hall : ∀ c ∈ before ++ after, isBlank c = true := by
      intro c hc
      exact (List.mem_append.mp hc).elim (hbefore c) (hafter c)
    rw [hnil, List.nil_append, List.dropWhile_eq_nil_iff.mpr hall]
    rfl
  · have hfront : ∀ c ∈ (content ++ after).head?, isBlank c = false := by
      rwa [List.head?_append_of_ne_nil _ hnil]
    have hback : ∀ c ∈ content.reverse.head?, isBlank c = false := by rwa [List.head?_reverse]
    rw [(takeWhile_dropWhile_append hbefore hfront).2, List.reverse_append,
      (takeWhile_dropWhile_append (fun c hc => hafter c (List.mem_reverse.mp hc)) hback).2,
      List.reverse_reverse]

/-- A text has one content without blanks at its ends, and it is the one that `trim` leaves. -/
theorem trimmed_iff (cs content : List Char) : Trimmed cs content ↔ trim cs = content :=
  ⟨Trimmed.trim_eq, fun h => h ▸ trimmed_trim cs⟩

def IsCut (c : Char) : Prop := c = ' ' ∨ c = '='

inductive Cut : List Char → List Char → List Char → Prop
  | whole (keyword : List Char) (h : ∀ c ∈ keyword, ¬IsCut c) : Cut keyword keyword []
  | marked (keyword parameters : List Char) (mark : Char) (h : ∀ c ∈ keyword, ¬IsCut c)
    (hmark : IsCut mark) : Cut (keyword ++ mark :: parameters) keyword parameters

section Cut

variable {p : Char → Bool} (hp : ∀ c, p c = true ↔ ¬IsCut c)
include hp

/-- A text is cut at its first mark, and stays whole where there is none. -/
theorem cut_takeWhile_dropWhile (cs : List Char) :
    Cut cs (cs.takeWhile p) (cs.dropWhile p).tail := by
  have hkeyword : ∀ c ∈ cs.takeWhile p, ¬IsCut c := fun c hc =>
    (hp c).mp (List.mem_takeWhile_imp hc)
  have hsplit := List.takeWhile_append_dropWhile (p := p) (l := cs)
  have hstop := List.head?_dropWhile_not p cs
  generalize cs.takeWhile p = keyword at hkeyword hsplit
  cases hrest : cs.dropWhile p with
  | nil =>
    rw [hrest, List.append_nil] at hsplit
    subst hsplit
    exact .whole keyword hkeyword
  | cons mark parameters =>
    rw [hrest] at hsplit hstop
    subst hsplit
    refine .marked keyword parameters mark hkeyword (not_not.mp fun hmark => ?_)
    rw [← hp] at hmark
    simp [hmark] at hstop

/-- There is only one first mark, so only one way to cut. -/
theorem Cut.unique {cs keyword parameters : List Char} (h : Cut cs keyword parameters) :
    cs.takeWhile p = keyword ∧ (cs.dropWhile p).tail = parameters := by
  have hrun {keyword : List Char} (h : ∀ c ∈ keyword, ¬IsCut c) : ∀ c ∈ keyword, p c = true :=
    fun c hc => (hp c).mpr (h c hc)
  cases h with
  | whole _ h =>
    have hall := hrun h
    rw [List.takeWhile_eq_self_iff.mpr hall, List.dropWhile_eq_nil_iff.mpr hall]
    exact ⟨rfl, rfl⟩
  | marked _ _ mark h hmark =>
    have hstop : ∀ c ∈ (mark :: parameters).head?, p c = false := by
      rintro c ⟨⟩
      rw [← Bool.not_eq_true, hp, not_not]
      exact hmark
    have hends := takeWhile_dropWhile_append (hrun h) hstop
    rw [hends.1, hends.2]
    exact ⟨rfl, rfl⟩

end Cut

/-- A line is cut at the first mark that stands in it between the blanks at its ends. -/
theorem cutLine_eq_iff (text : String) (keyword parameters : List Char) :
    Capabilities.cutLine text = (keyword, parameters) ↔
      Cut (trim text.toList) keyword parameters := by
  have hp (c : Char) : (!(decide (c = ' ') || decide (c = '='))) = true ↔ ¬IsCut c := by
    simp [IsCut]
  rw [Capabilities.cutLine, Prod.mk.injEq]
  constructor
  · rintro ⟨rfl, rfl⟩
    exact cut_takeWhile_dropWhile hp _
  · exact Cut.unique hp

def SameLetter (c d : Char) : Prop :=
  c = d ∨ (c.isLower ∧ c.toNat = d.toNat + 32) ∨ (d.isLower ∧ d.toNat = c.toNat + 32)

theorem isLower_iff_val (c : Char) : c.isLower ↔ c.val ≥ 'a'.val ∧ c.val ≤ 'z'.val := by
  change (decide (c.val ≥ 'a'.val) && decide (c.val ≤ 'z'.val)) = true ↔ _
  rw [Bool.and_eq_true, decide_eq_true_iff, decide_eq_true_iff]

theorem isLower_iff (c : Char) : c.isLower ↔ 97 ≤ c.toNat ∧ c.toNat ≤ 122 := isLower_iff_val c

/-- Capitals stand 32 places before their small letters, and every other character is left as it is.
-/
theorem toNat_toUpper (c : Char) :
    c.toUpper.toNat = if c.isLower then c.toNat - 32 else c.toNat := by
  by_cases h : c.isLower
  · have hbounds := (isLower_iff c).mp h
    have hupper : c.toUpper = ⟨c.val + ('A'.val - 'a'.val), _⟩ := dif_pos ((isLower_iff_val c).mp h)
    have hdistance : ('A'.val - 'a'.val).toNat = 4294967264 := rfl
    rw [if_pos h, ← Char.toNat_val, hupper, UInt32.toNat_add, hdistance, Char.toNat_val]
    omega
  · rw [if_neg h]
    exact congrArg Char.toNat (dif_neg fun hval => h ((isLower_iff_val c).mpr hval))

/-- Compared with a character that is no small letter, sameness of letters is equality in capitals.
-/
theorem sameLetter_iff {c d : Char} (hd : d.isLower = false) : SameLetter c d ↔ c.toUpper = d := by
  rw [SameLetter, ← Char.toNat_inj, ← Char.toNat_inj, toNat_toUpper, hd]
  by_cases hc : c.isLower
  · have hbounds := (isLower_iff c).mp hc
    have hdBounds : ¬(97 ≤ d.toNat ∧ d.toNat ≤ 122) := by
      rw [← isLower_iff, hd]
      exact Bool.false_ne_true
    simp only [hc, true_and, if_true, Bool.false_eq_true, false_and, or_false]
    omega
  · simp [hc]

def SameText (cs ds : List Char) : Prop := List.Forall₂ SameLetter cs ds

/-- Texts are the same but for case exactly if they are equal in capitals. -/
theorem sameText_iff {cs ds : List Char} (h : ds.any Char.isLower = false) :
    SameText cs ds ↔ capitals cs = ds := by
  rw [capitals, ← List.forall₂_eq_eq_eq, List.forall₂_map_left_iff, SameText]
  induction ds generalizing cs with
  | nil => simp
  | cons d ds ih =>
    rw [List.any_cons, Bool.or_eq_false_iff] at h
    rw [List.forall₂_cons_right_iff, List.forall₂_cons_right_iff]
    simp only [sameLetter_iff h.1, ih h.2]

section Keywords

variable {α : Type} {all : List α} {keyword : α → String}

/-- A table of keywords in capitals is searched without regard to case. -/
theorem find?_keyword_eq_some_iff (hall : ∀ a, a ∈ all)
    (hinjective : ∀ a b, (keyword a).toList = (keyword b).toList → a = b)
    (hcapitals : ∀ a, (keyword a).toList.any Char.isLower = false) {cs : List Char} {a : α} :
    (all.find? fun b => (keyword b).toList = capitals cs) = some a ↔
      SameText cs (keyword a).toList := by
  rw [sameText_iff (hcapitals a)]
  constructor
  · intro h
    simpa [eq_comm] using List.find?_some h
  · intro h
    cases hfound : all.find? fun b => (keyword b).toList = capitals cs with
    | none => simpa [h] using List.find?_eq_none.mp hfound a (hall a)
    | some b =>
      have hb : (keyword b).toList = capitals cs := by simpa using List.find?_some hfound
      rw [hinjective b a (hb.trans h)]

end Keywords

/-- An extension is found under its keyword, in whatever case that is written. -/
theorem Extension.ofKeyword?_eq_some_iff {cs : List Char} {e : Extension} :
    ofKeyword? cs = some e ↔ SameText cs e.keyword.toList :=
  find?_keyword_eq_some_iff (fun a => by cases a <;> decide)
    (fun a b h => by cases a <;> cases b <;> first | rfl | exact absurd h (by decide))
    (fun a => by cases a <;> decide)

theorem Mechanism.ofKeyword?_eq_some_iff {cs : List Char} {m : Mechanism} :
    ofKeyword? cs = some m ↔ SameText cs m.keyword.toList :=
  find?_keyword_eq_some_iff (fun a => by cases a <;> decide)
    (fun a b h => by cases a <;> cases b <;> first | rfl | exact absurd h (by decide))
    (fun a => by cases a <;> decide)

def Piece {α : Type} (mark : α) (xs piece : List α) : Prop :=
  mark ∉ piece ∧ ∃ before after, xs = before ++ piece ++ after ∧
    (before = [] ∨ ∃ earlier, before = earlier ++ [mark]) ∧
    (after = [] ∨ ∃ later, after = mark :: later)

section Pieces

variable {α : Type} [BEq α] [LawfulBEq α] {mark : α}

/-- By induction on the number of elements, since a first field leaves what follows its mark. -/
theorem piece_of_mem_fields {xs piece : List α} (h : piece ∈ fields mark xs) :
    Piece mark xs piece := by
  -- on the number of elements, since a first piece leaves what comes after its mark
  induction hn : xs.length using Nat.strongRecOn generalizing xs with
  | ind n ih =>
    by_cases hmark : mark ∈ xs
    · obtain ⟨first, rest, rfl, hfirst⟩ := List.eq_append_cons_of_mem hmark
      rw [fields_append hfirst] at h
      rcases List.mem_cons.mp h with rfl | hrest
      · exact ⟨hfirst, [], mark :: rest, rfl, Or.inl rfl, Or.inr ⟨rest, rfl⟩⟩
      · have hshorter : rest.length < n := by simp at hn; omega
        obtain ⟨hpiece, before, after, rfl, hbefore, hafter⟩ := ih _ hshorter hrest rfl
        refine ⟨hpiece, first ++ mark :: before, after, by simp, Or.inr ?_, hafter⟩
        rcases hbefore with rfl | ⟨earlier, rfl⟩
        · exact ⟨first, rfl⟩
        · exact ⟨first ++ mark :: earlier, by simp⟩
    · rw [fields_of_notMem hmark] at h
      obtain rfl := List.mem_singleton.mp h
      exact ⟨hmark, [], [], by simp, Or.inl rfl, Or.inl rfl⟩

theorem Piece.mem_fields {xs piece : List α} (h : Piece mark xs piece) :
    piece ∈ fields mark xs := by
  obtain ⟨hpiece, before, after, rfl, hbefore, hafter⟩ := h
  have hstart : piece ∈ fields mark (before ++ piece) := by
    rcases hbefore with rfl | ⟨earlier, rfl⟩
    · simp [fields_of_notMem hpiece]
    · simp [fields_append_cons, fields_of_notMem hpiece]
  rcases hafter with rfl | ⟨later, rfl⟩
  · rwa [List.append_nil]
  · rw [fields_append_cons]
    exact List.mem_append_left _ hstart

/-- The fields of a list are its pieces between marks and ends. -/
theorem mem_fields_iff {xs piece : List α} : piece ∈ fields mark xs ↔ Piece mark xs piece :=
  ⟨piece_of_mem_fields, Piece.mem_fields⟩

end Pieces

def Denotes (cs : List Char) (n : Nat) : Prop :=
  ∃ digits, (cs = digits ∨ cs = '+' :: digits) ∧ digits ≠ [] ∧ (∀ c ∈ digits, c.isDigit) ∧
    Nat.ofDigitChars 10 digits 0 = n

theorem withoutPlus_eq_iff {cs digits : List Char} (h : ∀ c ∈ digits, c.isDigit) :
    (if cs.head? = some '+' then cs.tail else cs) = digits ↔ cs = digits ∨ cs = '+' :: digits := by
  cases cs with
  | nil => simp
  | cons c cs =>
    by_cases hplus : c = '+'
    · subst hplus
      have hne : '+' :: cs ≠ digits := by
        rintro rfl
        exact absurd (h '+' List.mem_cons_self) (by decide)
      simp [hne]
    · simp [hplus]

/-- A size is read exactly where digits denote it, and it has room in 64 bits. -/
theorem readSize?_eq_some_iff {cs : List Char} {n : Nat} :
    readSize? cs = some n ↔ Denotes cs n ∧ n < Bytes.limit64 := by
  unfold readSize?
  generalize hdigits : (if cs.head? = some '+' then cs.tail else cs) = digits
  have hdenotes : Denotes cs n ↔ ¬(digits = [] ∨ digits.any (!·.isDigit)) ∧
      Nat.ofDigitChars 10 digits 0 = n := by
    constructor
    · rintro ⟨digits', hcs, hne, hall, hvalue⟩
      obtain rfl := hdigits.symm.trans ((withoutPlus_eq_iff hall).mpr hcs)
      exact ⟨by simpa [hne] using hall, hvalue⟩
    · rintro ⟨hcheck, hvalue⟩
      rw [not_or] at hcheck
      have hall : ∀ c ∈ digits, c.isDigit := by simpa using hcheck.2
      exact ⟨digits, (withoutPlus_eq_iff hall).mp hdigits, hcheck.1, hall, hvalue⟩
  have hvalue : digits.foldl (fun n c => n * 10 + (c.toNat - 48)) 0 =
      Nat.ofDigitChars 10 digits 0 := by
    simp only [Nat.ofDigitChars_eq_foldl, Nat.mul_comm 10]
    rfl
  simp only [hdenotes, hvalue, Option.ite_none_left_eq_some, Option.ite_none_right_eq_some,
    Option.some.injEq]
  constructor
  · rintro ⟨hcheck, hfits, rfl⟩
    exact ⟨⟨hcheck, rfl⟩, hfits⟩
  · rintro ⟨⟨hcheck, rfl⟩, hfits⟩
    exact ⟨hcheck, hfits, rfl⟩

def Names (text : String) (e : Extension) (parameters : List Char) : Prop :=
  ∃ content keyword, Trimmed text.toList content ∧ Cut content keyword parameters ∧
    SameText keyword e.keyword.toList

theorem names_iff {text : String} {e : Extension} {parameters : List Char} :
    Names text e parameters ↔ Extension.ofKeyword? (Capabilities.cutLine text).1 = some e ∧
      (Capabilities.cutLine text).2 = parameters := by
  constructor
  · rintro ⟨content, keyword, hcontent, hcut, hkeyword⟩
    rw [trimmed_iff] at hcontent
    rw [(cutLine_eq_iff text keyword parameters).mpr (hcontent ▸ hcut)]
    exact ⟨Extension.ofKeyword?_eq_some_iff.mpr hkeyword, rfl⟩
  · rintro ⟨hkeyword, rfl⟩
    exact ⟨trim text.toList, (Capabilities.cutLine text).1, trimmed_trim _,
      (cutLine_eq_iff _ _ _).mp rfl, Extension.ofKeyword?_eq_some_iff.mp hkeyword⟩

/-- Parameters that are a limit: a positive number, which fits into 64 bits, between blanks. -/
def NamesLimit (parameters : List Char) (n : Nat) : Prop :=
  ∃ content, Trimmed parameters content ∧ Denotes content n ∧ 0 < n ∧ n < Bytes.limit64

/-- Zero is no limit: SIZE names one exactly where a positive number is read. -/
theorem namesLimit_iff {parameters : List Char} {n : Nat} :
    NamesLimit parameters n ↔ (readSize? (trim parameters)).filter (0 < ·) = some n := by
  rw [Option.filter_eq_some_iff, readSize?_eq_some_iff, decide_eq_true_iff]
  constructor
  · rintro ⟨content, hcontent, hdenotes, hpositive, hfits⟩
    rw [trimmed_iff] at hcontent
    exact ⟨⟨hcontent ▸ hdenotes, hfits⟩, hpositive⟩
  · rintro ⟨⟨hdenotes, hfits⟩, hpositive⟩
    exact ⟨trim parameters, trimmed_trim parameters, hdenotes, hpositive, hfits⟩

def NamesMechanism (parameters : List Char) (m : Mechanism) : Prop :=
  ∃ piece, Piece ' ' parameters piece ∧ SameText piece m.keyword.toList

/-- The mechanisms that a line names are its words that are keywords of one, and others are passed
over. -/
theorem namesMechanism_iff {parameters : List Char} {m : Mechanism} :
    NamesMechanism parameters m ↔
      m ∈ (fields ' ' parameters).filterMap Mechanism.ofKeyword? := by
  simp only [NamesMechanism, List.mem_filterMap, mem_fields_iff, Mechanism.ofKeyword?_eq_some_iff]

end SmtpClient
