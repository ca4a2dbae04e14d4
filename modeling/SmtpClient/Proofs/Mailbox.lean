import SmtpClient.Mail.Envelope
import SmtpClient.Proofs.Fields

namespace SmtpClient

def NotBlank (text : String) : Prop := ∀ c ∈ text.toList, isBlank c = false

instance (text : String) : Decidable (NotBlank text) := List.decidableBAll _ _

theorem notBlank_append (a b : String) : NotBlank (a ++ b) ↔ NotBlank a ∧ NotBlank b := by
  simp only [NotBlank, String.toList_append, List.forall_mem_append]

/-- A text without blanks and angle brackets that has one at sign, with a name before it and a
domain after it. -/
structure IsMailbox (text : String) : Prop where
  notBlank : NotBlank text
  unbracketed : '<' ∉ text.toList ∧ '>' ∉ text.toList
  oneAt : text.toList.count '@' = 1
  parts : ∀ name domain, text.toList = name ++ '@' :: domain → name ≠ [] ∧ domain ≠ []

namespace AddressFault

/-- Forbidden are the blanks and the angle brackets. -/
theorem any_isForbidden_eq_false_iff (cs : List Char) :
    cs.any isForbidden = false ↔ (∀ c ∈ cs, isBlank c = false) ∧ '<' ∉ cs ∧ '>' ∉ cs := by
  rw [List.any_eq_false]
  simp only [isForbidden, Bool.or_eq_true, decide_eq_true_eq, not_or, Bool.not_eq_true]
  constructor
  · intro h
    refine ⟨fun c hc => (h c hc).2, ?_, ?_⟩
    · intro hopen
      exact (h _ hopen).1.1 rfl
    · intro hclose
      exact (h _ hclose).1.2 rfl
  · rintro ⟨hblank, hopen, hclose⟩ c hc
    refine ⟨⟨?_, ?_⟩, hblank c hc⟩
    · rintro rfl
      exact hopen hc
    · rintro rfl
      exact hclose hc

/-- A text is parted in one way only at its only at sign. -/
theorem isMailbox_of_fields {text : String} {name domain : List Char}
    (hallowed : text.toList.any isForbidden = false)
    (hfields : fields '@' text.toList = [name, domain]) (hname : name ≠ [])
    (hdomain : domain ≠ []) : IsMailbox text := by
  obtain ⟨hblank, hbracket⟩ := (any_isForbidden_eq_false_iff _).mp hallowed
  have hcount : text.toList.count '@' = 1 := by
    have hlength := length_fields '@' text.toList
    rw [hfields] at hlength
    exact (Nat.succ.inj hlength).symm
  refine ⟨hblank, hbracket, hcount, ?_⟩
  intro name' domain' hsplit
  rw [hsplit] at hcount hfields
  rw [fields_of_count hcount] at hfields
  cases hfields
  exact ⟨hname, hdomain⟩

/-- The faults leave the mailboxes, and nothing else. -/
theorem find?_eq_none_iff (text : String) : find? text.toList = none ↔ IsMailbox text := by
  constructor
  · intro h
    unfold find? at h
    split at h
    · cases h
    split at h
    · cases h
    next hallowed =>
    split at h
    · next name domain hfields =>
      split at h
      · cases h
      next hparts =>
      obtain ⟨hname, hdomain⟩ := not_or.mp hparts
      exact isMailbox_of_fields (Bool.eq_false_iff.mpr hallowed) hfields hname hdomain
    · cases h
    · cases h
    · cases h
  · intro h
    have hat : '@' ∈ text.toList := by
      apply List.count_pos_iff.mp
      rw [h.oneAt]
      exact Nat.zero_lt_one
    obtain ⟨name, domain, hsplit, -⟩ := List.eq_append_cons_of_mem hat
    have hallowed := (any_isForbidden_eq_false_iff _).mpr ⟨h.notBlank, h.unbracketed⟩
    have hcount := h.oneAt
    have hparts := h.parts name domain hsplit
    rw [hsplit] at hallowed hcount ⊢
    rw [find?, if_neg (by simp), hallowed, fields_of_count hcount]
    simp [hparts]

end AddressFault

namespace Address

/-- What an address holds was accepted as one. -/
theorem isMailbox (a : Address) : IsMailbox a.text :=
  (AddressFault.find?_eq_none_iff _).mp a.sound

/-- An address is accepted again from its own text. -/
theorem parse_text (a : Address) : parse a.text = .ok a := by
  unfold parse
  split
  · rfl
  · next fault h =>
    rw [a.sound] at h
    cases h

/-- An address that is accepted carries the text it was read from. -/
theorem text_of_parse {text : String} {a : Address} (h : parse text = .ok a) : a.text = text := by
  unfold parse at h
  split at h
  · cases h
    rfl
  · cases h

/-- The texts that are accepted are the mailboxes, and no others. -/
theorem exists_parse_iff (text : String) : (∃ a, parse text = .ok a) ↔ IsMailbox text := by
  constructor
  · rintro ⟨a, h⟩
    rw [← text_of_parse h]
    exact a.isMailbox
  · intro h
    exact ⟨_, parse_text ⟨text, (AddressFault.find?_eq_none_iff text).mpr h⟩⟩

theorem path_eq (a : Address) : a.path = "<" ++ a.text ++ ">" := by simp [path, toString]

theorem notBlank_path (a : Address) : NotBlank a.path := by
  rw [path_eq, notBlank_append, notBlank_append]
  exact ⟨⟨by decide, a.isMailbox.notBlank⟩, by decide⟩

end Address

/-- A URL that was accepted is one word. -/
theorem Reference.notBlank (target : Reference) : NotBlank target.url := by
  have hsound := target.sound
  simp only [isReference, Bool.and_eq_true, Bool.not_eq_true', List.any_eq_false] at hsound
  intro c hc
  simpa using hsound.2 c hc

/-- The URL of an envelope is taken as it is. -/
theorem Envelope.exists_reference {sender : Address} {recipients : List Address} {url : String}
    {e : Envelope} (h : ofReference sender recipients url = .ok e) :
    ∃ target : Reference, target.url = url ∧ e.payload = .reference target := by
  unfold ofReference at h
  split at h
  · next hsound =>
    refine ⟨⟨url, hsound⟩, rfl, ?_⟩
    unfold make at h
    split at h
    · cases h
    · cases h
      rfl
  · cases h

end SmtpClient
