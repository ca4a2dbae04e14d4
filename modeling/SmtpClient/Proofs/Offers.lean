import Mathlib.Data.List.Induction
import SmtpClient.Proofs.CapabilityLine

namespace SmtpClient

/-- An extension is put in beside the others. -/
theorem Extension.isIn_addTo (e e' : Extension) (s : ExtensionSet) :
    e.isIn (e'.addTo s) = true ↔ e.isIn s = true ∨ e' = e := by
  rw [isIn, addTo, BitSet.contains_insert]
  cases e <;> cases e' <;> simp [bit, isIn]

theorem Mechanism.isIn_addTo (m m' : Mechanism) (s : MechanismSet) :
    m.isIn (m'.addTo s) = true ↔ m.isIn s = true ∨ m' = m := by
  rw [isIn, addTo, BitSet.contains_insert]
  cases m <;> cases m' <;> simp [bit, isIn]

/-- Mechanisms that are put in one after another are all in, whatever their order. -/
theorem Mechanism.isIn_foldl_addTo (m : Mechanism) (ms : List Mechanism) (s : MechanismSet) :
    m.isIn (ms.foldl (fun s m => m.addTo s) s) = true ↔ m.isIn s = true ∨ m ∈ ms := by
  induction ms generalizing s with
  | nil => simp
  | cons m' later ih =>
    rw [List.foldl_cons, ih, isIn_addTo, List.mem_cons, or_assoc, eq_comm (a := m)]

/-- Two sets are equal if they have the same members. -/
theorem BitSet.ext_of_contains {α : Type} {n : Nat} {all : List α} {bit : α → Nat}
    (hall : List.range n = all.map bit) {s t : BitSet n}
    (h : ∀ a, s.contains (bit a) = t.contains (bit a)) : s = t := by
  have hbits : s.bits = t.bits := by
    refine BitVec.eq_of_getLsbD_eq fun i hi => ?_
    obtain ⟨a, -, rfl⟩ := List.mem_map.mp (hall ▸ List.mem_range.mpr hi)
    exact h a
  cases s
  cases t
  exact congrArg BitSet.mk hbits

/-- A set of extensions is known by what is in it, for no bit stands for anything else. -/
theorem Extension.ext_of_isIn {s t : ExtensionSet} (h : ∀ e, isIn e s = true ↔ isIn e t = true) :
    s = t :=
  BitSet.ext_of_contains (show List.range _ = all.map bit from rfl)
    fun e => Bool.eq_iff_iff.mpr (h e)

theorem Mechanism.ext_of_isIn {s t : MechanismSet} (h : ∀ m, isIn m s = true ↔ isIn m t = true) :
    s = t :=
  BitSet.ext_of_contains (show List.range _ = all.map bit from rfl)
    fun m => Bool.eq_iff_iff.mpr (h m)

theorem Extension.mem_members_iff {e : Extension} {s : ExtensionSet} :
    e ∈ members s ↔ e.isIn s = true := by
  have hall : e ∈ all := by cases e <;> decide
  rw [members, List.mem_filter, and_iff_right hall]

/-- The members come in the order of their bits, each of them once. -/
theorem Extension.pairwise_members (s : ExtensionSet) :
    (members s).Pairwise (·.bit < ·.bit) := by
  have hall : all.Pairwise (·.bit < ·.bit) := by decide
  exact hall.filter _

namespace Capabilities

variable (caps : Capabilities) (text : String) (texts : List String)

def addLines (caps : Capabilities) (texts : List String) : Capabilities := texts.foldl addLine caps

theorem addLines_cons :
    caps.addLines (text :: texts) = (caps.addLine text).addLines texts := rfl

def limit? (text : String) : Option (Option Nat) :=
  if Extension.ofKeyword? (cutLine text).1 = some .size then
    some ((readSize? (trim (cutLine text).2)).filter (0 < ·))
  else none

theorem limit?_eq_of_names {text : String} {parameters : List Char}
    (h : Names text .size parameters) :
    limit? text = some ((readSize? (trim parameters)).filter (0 < ·)) := by
  obtain ⟨hsize, rfl⟩ := names_iff.mp h
  exact if_pos hsize

/-- A line of SIZE sets the limit that its parameters name, or no limit. -/
theorem limit?_eq_some_iff {text : String} {limit : Option Nat} :
    limit? text = some limit ↔ ∃ parameters, Names text .size parameters ∧
      ∀ n, limit = some n ↔ NamesLimit parameters n := by
  constructor
  · intro h
    obtain ⟨hsize, rfl⟩ := Option.ite_none_right_eq_some.mp h |>.imp_right Option.some.inj
    exact ⟨_, names_iff.mpr ⟨hsize, rfl⟩, fun n => namesLimit_iff.symm⟩
  · rintro ⟨parameters, hnames, hlimit⟩
    rw [limit?_eq_of_names hnames, Option.some.injEq]
    exact Option.ext fun n => namesLimit_iff.symm.trans (hlimit n).symm

theorem limit?_eq_none_iff {text : String} :
    limit? text = none ↔ ∀ parameters, ¬Names text .size parameters := by
  simp [limit?, names_iff]

/-- After a line an extension is offered if it was before, or if the line names it. -/
theorem supports_addLine (e : Extension) : (caps.addLine text).supports e = true ↔
    caps.supports e = true ∨ ∃ parameters, Names text e parameters := by
  simp only [names_iff, exists_and_left, exists_eq', and_true]
  rw [addLine]
  split
  · next hnone => simp [hnone]
  · next e' hsome =>
    rw [hsome, Option.some.injEq]
    have hadded : (withParameters { caps with extensions := e'.addTo caps.extensions }
        (cutLine text).2 e').extensions = e'.addTo caps.extensions := by
      cases e' <;> rfl
    rw [supports, hadded]
    exact Extension.isIn_addTo e e' caps.extensions

/-- A line brings the mechanisms among its words if its keyword is AUTH. -/
theorem isIn_mechanisms_addLine (m : Mechanism) : m.isIn (caps.addLine text).mechanisms = true ↔
    m.isIn caps.mechanisms = true ∨
      ∃ parameters, Names text .auth parameters ∧ NamesMechanism parameters m := by
  simp only [names_iff, namesMechanism_iff, and_assoc, exists_and_left, exists_eq_left']
  rw [addLine]
  split
  · next hnone => simp [hnone]
  · next e hsome =>
    rw [hsome, Option.some.injEq]
    by_cases hauth : e = .auth
    · subst hauth
      rw [withParameters, Mechanism.isIn_foldl_addTo]
      simp
    · have hkept : (withParameters { caps with extensions := e.addTo caps.extensions }
          (cutLine text).2 e).mechanisms = caps.mechanisms := by
        cases e <;> first | rfl | exact absurd rfl hauth
      rw [hkept]
      simp [hauth]

/-- A line of SIZE sets the limit anew, and any other line leaves it. -/
theorem sizeLimit_addLine :
    (caps.addLine text).sizeLimit = (limit? text).getD caps.sizeLimit := by
  rw [addLine, limit?]
  split
  · next hnone => simp [hnone]
  · next e hsome =>
    rw [hsome]
    cases e <;> rfl

/-- By induction on the lines: an extension is offered if some line names it. -/
theorem supports_addLines (e : Extension) : (caps.addLines texts).supports e = true ↔
    caps.supports e = true ∨ ∃ text ∈ texts, ∃ parameters, Names text e parameters := by
  induction texts generalizing caps with
  | nil => simp [addLines]
  | cons text texts ih =>
    rw [addLines_cons, ih, supports_addLine, List.exists_mem_cons_iff, or_assoc]

theorem isIn_mechanisms_addLines (m : Mechanism) : m.isIn (caps.addLines texts).mechanisms = true ↔
    m.isIn caps.mechanisms = true ∨
      ∃ text ∈ texts, ∃ parameters, Names text .auth parameters ∧ NamesMechanism parameters m := by
  induction texts generalizing caps with
  | nil => simp [addLines]
  | cons text texts ih =>
    rw [addLines_cons, ih, isIn_mechanisms_addLine, List.exists_mem_cons_iff, or_assoc]

/-- Each line of SIZE replaces the limit of those before it. -/
theorem sizeLimit_addLines : (caps.addLines texts).sizeLimit =
    (texts.filterMap limit?).getLast?.getD caps.sizeLimit := by
  induction texts generalizing caps with
  | nil => rfl
  | cons text texts ih =>
    rw [addLines_cons, ih, sizeLimit_addLine, List.filterMap_cons]
    cases hlimit : limit? text with
    | none => rfl
    | some limit => cases hlater : texts.filterMap limit? <;> simp [List.getLast?_cons]

/-- The last limit is that of a line after which no line of SIZE comes. -/
theorem lastLimit_eq_some_iff {texts : List String} {limit : Option Nat} :
    (texts.filterMap limit?).getLast? = some limit ↔ ∃ before text after,
      texts = before ++ text :: after ∧ limit? text = some limit ∧
        ∀ later ∈ after, limit? later = none := by
  rw [List.getLast?_filterMap, List.findSome?_eq_some_iff]
  constructor
  · rintro ⟨after, text, before, hsplit, hlimit, hafter⟩
    refine ⟨before.reverse, text, after.reverse, ?_, hlimit, by simpa using hafter⟩
    rw [← List.reverse_reverse texts, hsplit]
    simp
  · rintro ⟨before, text, after, rfl, hlimit, hafter⟩
    exact ⟨after.reverse, text, before.reverse, by simp, hlimit, by simpa using hafter⟩

/-- What lines announce, as an account of a set of capabilities. -/
structure Means (texts : List String) (caps : Capabilities) : Prop where
  supports_iff (e : Extension) :
    caps.supports e = true ↔ ∃ text ∈ texts, ∃ parameters, Names text e parameters
  mechanism_iff (m : Mechanism) : m.isIn caps.mechanisms = true ↔
    ∃ text ∈ texts, ∃ parameters, Names text .auth parameters ∧ NamesMechanism parameters m
  /-- The limit is that of the last line of SIZE, and of no line before it. -/
  limit_iff (n : Nat) : caps.sizeLimit = some n ↔ ∃ before text after parameters,
    texts = before ++ text :: after ∧ Names text .size parameters ∧
      (∀ later ∈ after, ∀ parameters, ¬Names later .size parameters) ∧ NamesLimit parameters n
  mem_members_iff (e : Extension) :
    e ∈ Extension.members caps.extensions ↔ caps.supports e = true
  pairwise_members : (Extension.members caps.extensions).Pairwise (·.bit < ·.bit)

/-- What lines announce is what each extension, each mechanism and the last line of SIZE say. -/
theorem means_addLines : Means texts (empty.addLines texts) where
  supports_iff e := by
    have hempty : ¬empty.supports e = true := by
      simp [supports, Extension.isIn, empty, BitSet.contains_empty]
    rw [supports_addLines, or_iff_right hempty]
  mechanism_iff m := by
    have hempty : ¬m.isIn empty.mechanisms = true := by
      simp [Mechanism.isIn, empty, BitSet.contains_empty]
    rw [isIn_mechanisms_addLines, or_iff_right hempty]
  limit_iff n := by
    rw [sizeLimit_addLines, Option.getD_eq_iff]
    simp only [empty, reduceCtorEq, and_false, or_false, lastLimit_eq_some_iff,
      limit?_eq_some_iff, limit?_eq_none_iff]
    constructor
    · rintro ⟨before, text, after, hsplit, ⟨parameters, hsize, hlimit⟩, hlast⟩
      exact ⟨before, text, after, parameters, hsplit, hsize, hlast, (hlimit n).mp rfl⟩
    · rintro ⟨before, text, after, parameters, hsplit, hsize, hlast, hlimit⟩
      refine ⟨before, text, after, hsplit, ⟨parameters, hsize, fun n' => ?_⟩, hlast⟩
      rw [namesLimit_iff] at hlimit ⊢
      rw [hlimit]
  mem_members_iff _ := Extension.mem_members_iff
  pairwise_members := Extension.pairwise_members _

def SameLimits (texts : List String) : Prop :=
  ∀ text ∈ texts, ∀ text' ∈ texts, ∀ parameters parameters',
    Names text .size parameters → Names text' .size parameters' →
      ∀ n, NamesLimit parameters n ↔ NamesLimit parameters' n

theorem sameLimits_iff : SameLimits texts ↔
    ∀ limit ∈ texts.filterMap limit?, ∀ limit' ∈ texts.filterMap limit?, limit = limit' := by
  simp only [List.mem_filterMap]
  constructor
  · rintro h limit ⟨text, htext, hlimit⟩ limit' ⟨text', htext', hlimit'⟩
    obtain ⟨parameters, hsize, hnames⟩ := limit?_eq_some_iff.mp hlimit
    obtain ⟨parameters', hsize', hnames'⟩ := limit?_eq_some_iff.mp hlimit'
    refine Option.ext fun n => ?_
    rw [hnames, hnames']
    exact h text htext text' htext' parameters parameters' hsize hsize' n
  · intro h text htext text' htext' parameters parameters' hsize hsize' n
    have hsame := h _ ⟨text, htext, limit?_eq_of_names hsize⟩
      _ ⟨text', htext', limit?_eq_of_names hsize'⟩
    rw [namesLimit_iff, namesLimit_iff, hsame]

/-- A line changes the extensions, the mechanisms and the limit, and nothing else. -/
theorem exists_addLine_eq : ∃ extensions mechanisms sizeLimit, caps.addLine text =
    { caps with extensions := extensions, mechanisms := mechanisms, sizeLimit := sizeLimit } := by
  rw [addLine]
  split
  · exact ⟨_, _, _, rfl⟩
  · next e _ => cases e <;> exact ⟨_, _, _, rfl⟩

theorem exists_addLines_eq : ∃ extensions mechanisms sizeLimit, caps.addLines texts =
    { caps with extensions := extensions, mechanisms := mechanisms, sizeLimit := sizeLimit } := by
  induction texts generalizing caps with
  | nil => exact ⟨_, _, _, rfl⟩
  | cons text texts ih =>
    obtain ⟨extensions, mechanisms, sizeLimit, hline⟩ := caps.exists_addLine_eq text
    rw [addLines_cons, hline]
    exact ih _

section Order

variable {texts} {other : List String} (h : other.Perm texts)
include h

/-- Whether some line names an extension does not hang on the order. -/
theorem extensions_addLines_of_perm :
    (caps.addLines other).extensions = (caps.addLines texts).extensions := by
  refine Extension.ext_of_isIn fun e => ?_
  change (caps.addLines other).supports e = true ↔ (caps.addLines texts).supports e = true
  simp only [supports_addLines, h.mem_iff]

theorem mechanisms_addLines_of_perm :
    (caps.addLines other).mechanisms = (caps.addLines texts).mechanisms := by
  refine Mechanism.ext_of_isIn fun m => ?_
  simp only [isIn_mechanisms_addLines, h.mem_iff]

/-- Of what lines announce only the limit can hang on their order. -/
theorem addLines_eq_iff_of_perm : caps.addLines other = caps.addLines texts ↔
    (caps.addLines other).sizeLimit = (caps.addLines texts).sizeLimit := by
  refine ⟨congrArg sizeLimit, fun hlimit => ?_⟩
  have hextensions := caps.extensions_addLines_of_perm h
  have hmechanisms := caps.mechanisms_addLines_of_perm h
  obtain ⟨_, _, _, hother⟩ := caps.exists_addLines_eq other
  obtain ⟨_, _, _, htexts⟩ := caps.exists_addLines_eq texts
  rw [hother, htexts] at hextensions hmechanisms hlimit ⊢
  simp only at hextensions hmechanisms hlimit
  rw [hextensions, hmechanisms, hlimit]

/-- Where all lines of SIZE name the same limit, any of them may come last. -/
theorem sizeLimit_addLines_of_perm (hsame : SameLimits texts) :
    (caps.addLines other).sizeLimit = (caps.addLines texts).sizeLimit := by
  have hlimits := h.filterMap limit?
  rw [sizeLimit_addLines, sizeLimit_addLines]
  rw [sameLimits_iff] at hsame
  generalize texts.filterMap limit? = limits at hlimits hsame
  cases limits with
  | nil => rw [hlimits.eq_nil]
  | cons limit later =>
    -- a list of copies of one limit has only itself as a permutation
    have hcopies : limit :: later = List.replicate (later.length + 1) limit :=
      List.eq_replicate_iff.mpr ⟨rfl, fun limit' h' => hsame limit' h' limit List.mem_cons_self⟩
    rw [hcopies] at hlimits ⊢
    rw [List.perm_replicate.mp hlimits]

end Order

/-- Any line can come last. -/
theorem exists_perm_sizeLimit_eq {texts : List String} {text : String} {limit : Option Nat}
    (htext : text ∈ texts) (hlimit : limit? text = some limit) :
    ∃ other, other.Perm texts ∧ (caps.addLines other).sizeLimit = limit := by
  obtain ⟨before, after, rfl⟩ := List.append_of_mem htext
  refine ⟨before ++ after ++ [text], ?_, ?_⟩
  · rw [List.append_assoc]
    exact List.perm_append_singleton text after |>.append_left before
  · rw [sizeLimit_addLines, List.filterMap_append]
    simp [hlimit]

/-- What is offered is the same in every order of the lines. All that they announce is so exactly if
the lines of SIZE agree on the limit. -/
theorem perm_addLines_iff :
    (∀ other : List String, other.Perm texts →
      (caps.addLines other).extensions = (caps.addLines texts).extensions ∧
      (caps.addLines other).mechanisms = (caps.addLines texts).mechanisms) ∧
    ((∀ other : List String, other.Perm texts → caps.addLines other = caps.addLines texts) ↔
      SameLimits texts) := by
  refine ⟨fun other h =>
    ⟨caps.extensions_addLines_of_perm h, caps.mechanisms_addLines_of_perm h⟩, ?_, ?_⟩
  · intro hsame
    rw [sameLimits_iff]
    have hlast : ∀ limit ∈ texts.filterMap limit?, (caps.addLines texts).sizeLimit = limit := by
      intro limit hlimit
      obtain ⟨text, htext, hlimit⟩ := List.mem_filterMap.mp hlimit
      obtain ⟨other, hother, hlast⟩ := caps.exists_perm_sizeLimit_eq htext hlimit
      rw [← hsame other hother, hlast]
    exact fun limit hlimit limit' hlimit' => (hlast limit hlimit).symm.trans (hlast limit' hlimit')
  · exact fun hsame other h =>
      (caps.addLines_eq_iff_of_perm h).mpr (caps.sizeLimit_addLines_of_perm h hsame)

/-- The limit of two lines of SIZE is another when they come the other way round. -/
theorem not_perm_addLines : ¬∀ texts other : List String, other.Perm texts →
    empty.addLines other = empty.addLines texts := by
  intro h
  have hsame := h ["SIZE 1000", "SIZE 2000"] ["SIZE 2000", "SIZE 1000"] (.swap _ _ _)
  exact absurd (congrArg sizeLimit hsame) (by decide +kernel)

end Capabilities

end SmtpClient
