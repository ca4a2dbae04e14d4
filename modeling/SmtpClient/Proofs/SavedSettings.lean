import SmtpClient.Proofs.JsonText
import SmtpClient.Settings.Draft
import SmtpClient.Settings.Saved

namespace SmtpClient

def Timeout.IsWhole (t : Timeout) : Prop := Timeout.ofSeconds t.seconds = t

instance (t : Timeout) : Decidable t.IsWhole := inferInstanceAs (Decidable (_ = _))

theorem Timeout.seconds_ofSeconds (t : Timeout) :
    (Timeout.ofSeconds t.seconds).seconds = t.seconds := by
  change (Duration.ofSeconds (t.seconds % Bytes.limit64)).seconds = t.seconds
  rw [Duration.seconds_ofSeconds, Nat.mod_eq_of_lt t.fits]

theorem Field.ofName?_name (field : Field) : Field.ofName? field.name = some field := by
  cases field <;> rfl

namespace Settings

def inWholeSeconds (s : Settings) : Settings :=
  { s with
    connectTimeout := .ofSeconds s.connectTimeout.seconds
    exchangeTimeout := .ofSeconds s.exchangeTimeout.seconds }

def writeField (s : Settings) : Field → String
  | .host => Json.quote s.host
  | .port => toString s.port.toNat
  | .security => Json.quote s.security.name
  | .requireAuth => toString s.requireAuth
  | .user => Json.quote s.user
  | .clientName => Json.quote s.clientName
  | .connectTimeout => toString s.connectTimeout.seconds
  | .exchangeTimeout => toString s.exchangeTimeout.seconds

def giveField (s t : Settings) : Field → Settings
  | .host => { t with host := s.host }
  | .port => { t with port := s.port }
  | .security => { t with security := s.security }
  | .requireAuth => { t with requireAuth := s.requireAuth }
  | .user => { t with user := s.user }
  | .clientName => { t with clientName := s.clientName }
  | .connectTimeout => { t with connectTimeout := s.inWholeSeconds.connectTimeout }
  | .exchangeTimeout => { t with exchangeTimeout := s.inWholeSeconds.exchangeTimeout }

/-- Each field is read as it was written. -/
theorem readField_writeField (s t : Settings) (field : Field) {rest : Bytes}
    (hrest : Json.EndsMember rest) :
    t.readField field (Utf8.encode (s.writeField field) ++ rest) =
      .ok (s.giveField t field, rest) := by
  have hseconds (t : Timeout) :
      Json.naturalBelow Bytes.limit64 (Utf8.encode (toString t.seconds) ++ rest) =
        .ok (t.seconds, rest) := Json.naturalBelow_toString (Nat.le_refl _) t.fits hrest
  cases field with
  | host | user | clientName =>
    simp only [readField, writeField, Json.text_quote]
    rfl
  | port =>
    have hport : Json.naturalBelow Bytes.limit16 (Utf8.encode (toString s.port.toNat) ++ rest) =
        .ok (s.port.toNat, rest) := Json.naturalBelow_toString (by decide) s.port.toNat_lt hrest
    simp only [readField, writeField, hport]
    simp [Except.map, giveField]
  | security =>
    have hname : Security.all.find? (·.name = s.security.name) = some s.security := by
      cases s.security <;> rfl
    have hsecurity : Json.alternative (fun name => Security.all.find? (·.name = name))
        (Utf8.encode (Json.quote s.security.name) ++ rest) = .ok (s.security, rest) :=
      Json.alternative_quote hname rest
    simp only [readField, writeField, hsecurity]
    rfl
  | requireAuth =>
    simp only [readField, writeField, Json.boolean_toString]
    rfl
  | connectTimeout =>
    simp only [readField, writeField, hseconds]
    rfl
  | exchangeTimeout =>
    simp only [readField, writeField, hseconds]
    rfl

def memberText (s : Settings) (field : Field) : String :=
  Json.quote field.name ++ ":" ++ s.writeField field

def memberBytes (s : Settings) (field : Field) (rest : Bytes) : Bytes :=
  (field.name.toList.flatMap Json.escapeChar).flatMap String.utf8EncodeChar ++
    34 :: 58 :: (Utf8.encode (s.writeField field) ++ rest)

theorem encode_memberText (s : Settings) (field : Field) (rest : Bytes) :
    Utf8.encode (s.memberText field) ++ rest = 34 :: s.memberBytes field rest := by
  have hcolon : Utf8.encode ":" = [58] := by decide
  rw [memberText, Utf8.encode_append, Utf8.encode_append, Json.encode_quote, hcolon]
  simp [memberBytes]

end Settings

namespace Saved

open Json

theorem members_done {p : Progress} {isFirst : Bool} {input rest : Bytes}
    (h : next isFirst input = .ok (.done rest)) : members p isFirst input = .ok (p, rest) := by
  rw [members]
  split
  · next fault hfault => cases h.symm.trans hfault
  · next after hdone =>
    cases h.symm.trans hdone
    rfl
  · next after hname => cases h.symm.trans hname

/-- A member is read by its name, and then the others go on from what it leaves. -/
theorem members_name {p p' : Progress} {isFirst : Bool} {input rest after later : Bytes}
    {name : String} (h : next isFirst input = .ok (.name rest))
    (hs : string rest = .ok (name, after)) (hm : member p name after = .ok (p', later)) :
    members p isFirst input = members p' false later := by
  rw [members]
  split
  · next fault hfault => cases h.symm.trans hfault
  · next after' hdone => cases h.symm.trans hdone
  · next rest' hname =>
    cases h.symm.trans hname
    split
    · next fault hfault => cases hs.symm.trans hfault
    · next name' after' hname' =>
      cases hs.symm.trans hname'
      split
      · next fault hfault => cases hm.symm.trans hfault
      · next p'' later' hmember =>
        cases hm.symm.trans hmember
        rfl

/-- A member whose field has not been met yet. -/
theorem members_member (s : Settings) {p : Progress} {field : Field} (hnew : field ∉ p.met)
    {isFirst : Bool} {input rest : Bytes} (hrest : EndsMember rest)
    (hn : next isFirst input = .ok (.name (s.memberBytes field rest))) :
    members p isFirst input =
      members ⟨s.giveField p.settings field, field :: p.met⟩ false rest := by
  have hname : string (s.memberBytes field rest) =
      .ok (field.name, 58 :: (Utf8.encode (s.writeField field) ++ rest)) := string_quote _ _
  refine members_name hn hname ?_
  have hcolon : colon (58 :: (Utf8.encode (s.writeField field) ++ rest)) =
      .ok (Utf8.encode (s.writeField field) ++ rest) := rfl
  rw [member, field.ofName?_name]
  dsimp only
  rw [if_neg hnew, hcolon, Except.bind, s.readField_writeField _ _ hrest]
  rfl

def laterBytes (s : Settings) : List Field → Bytes
  | [] => [125]
  | field :: later => 44 :: 34 :: s.memberBytes field (laterBytes s later)

theorem endsMember_laterBytes (s : Settings) (later : List Field) :
    EndsMember (laterBytes s later) := by
  cases later with
  | nil => exact .brace []
  | cons field later => exact .comma _

/-- The later members are read in their order, if none of their fields comes twice. -/
theorem members_later (s : Settings) {later : List Field} {p : Progress}
    (hnodup : later.Nodup) (hnew : ∀ field ∈ later, field ∉ p.met) :
    members p false (laterBytes s later) =
      .ok (⟨later.foldl s.giveField p.settings, later.reverse ++ p.met⟩, []) := by
  induction later generalizing p with
  | nil => exact members_done rfl
  | cons field later ih =>
    obtain ⟨hfirst, hlater⟩ := List.nodup_cons.mp hnodup
    have hnext : next false (laterBytes s (field :: later)) =
        .ok (.name (s.memberBytes field (laterBytes s later))) := rfl
    rw [members_member s (hnew field List.mem_cons_self) (endsMember_laterBytes s later) hnext]
    have hrest := ih (p := ⟨s.giveField p.settings field, field :: p.met⟩) hlater ?_
    · rw [hrest]
      simp
    · intro field' hmem hmet
      rcases List.mem_cons.mp hmet with rfl | hmet
      · exact hfirst hmem
      · exact hnew field' (List.mem_cons_of_mem _ hmem) hmet

/-- The members with commas between them are the first member and those that come after one. -/
theorem encode_intercalate (s : Settings) (field : Field) (later : List Field) :
    Utf8.encode (",".intercalate ((field :: later).map s.memberText)) ++ [125] =
      34 :: s.memberBytes field (laterBytes s later) := by
  have hcomma : Utf8.encode "," = [44] := by decide
  induction later generalizing field with
  | nil =>
    rw [List.map_singleton, String.intercalate_singleton, s.encode_memberText]
    rfl
  | cons field' later ih =>
    have hjoin : ",".intercalate ((field :: field' :: later).map s.memberText) =
        s.memberText field ++ "," ++ ",".intercalate ((field' :: later).map s.memberText) :=
      String.intercalate_cons_cons
    rw [hjoin, Utf8.encode_append, Utf8.encode_append, hcomma, List.append_assoc,
      List.append_assoc, ih, s.encode_memberText]
    rfl

end Saved

namespace Settings

/-- The fields in their order are the members of what is saved. -/
theorem save_eq (s : Settings) : s.save =
    123 :: 34 :: s.memberBytes .host (Saved.laterBytes s Field.all.tail) := by
  have hobject : s.save =
      Utf8.encode (Json.object (Field.all.map fun field => (field.name, s.writeField field))) := rfl
  have hmembers : (Field.all.map fun field => (field.name, s.writeField field)).map
      (fun m => Json.quote m.1 ++ ":" ++ m.2) = Field.all.map s.memberText := List.map_map
  have hopen : Utf8.encode "\x7b" = [123] := by decide
  have hclose : Utf8.encode "\x7d" = [125] := by decide
  have hfields : Field.host :: Field.all.tail = Field.all := rfl
  have htexts := Saved.encode_intercalate s .host Field.all.tail
  rw [hfields] at htexts
  rw [hobject, Json.object, hmembers, Utf8.encode_append, Utf8.encode_append, hopen, hclose,
    List.append_assoc, htexts, List.singleton_append]

/-- Every field is given, so nothing is left of the settings that these began with. -/
theorem foldl_giveField (s t : Settings) :
    Field.all.tail.foldl s.giveField (s.giveField t .host) = s.inWholeSeconds := by
  simp only [Field.all, List.tail_cons, List.foldl_cons, List.foldl_nil, giveField]
  rfl

/-- Whatever the settings are, they are loaded in whole seconds. -/
theorem load_save_eq (s : Settings) : load s.save = .ok s.inWholeSeconds := by
  have hlater : ∀ field ∈ Field.all.tail, field ∉ [Field.host] := by decide
  have hmembers : Saved.members ⟨.default, []⟩ true
      (34 :: s.memberBytes .host (Saved.laterBytes s Field.all.tail)) =
        .ok (⟨s.inWholeSeconds, Field.all.tail.reverse ++ [.host]⟩, []) := by
    rw [Saved.members_member s List.not_mem_nil (Saved.endsMember_laterBytes s Field.all.tail) rfl,
      Saved.members_later s (by decide) hlater]
    dsimp only
    rw [foldl_giveField]
  have hvalue : Saved.value s.save = .ok (s.inWholeSeconds, []) := by
    rw [save_eq, Saved.value, Json.skipSpaces_cons (by decide)]
    dsimp only
    rw [if_neg (by decide), if_pos rfl, hmembers]
    rfl
  rw [load, hvalue]
  rfl

/-- What has no part of a second stays as it is. -/
theorem inWholeSeconds_eq_iff (s : Settings) :
    s.inWholeSeconds = s ↔ s.connectTimeout.IsWhole ∧ s.exchangeTimeout.IsWhole := by
  constructor
  · intro h
    exact ⟨congrArg connectTimeout h, congrArg exchangeTimeout h⟩
  · rintro ⟨hconnect, hexchange⟩
    rw [inWholeSeconds, hconnect, hexchange]

/-- How saved settings are loaded again. -/
structure LoadsBack (s : Settings) : Prop where
  load_eq : load s.save = .ok s.inWholeSeconds
  unchanged_iff : load s.save = .ok s ↔ s.connectTimeout.IsWhole ∧ s.exchangeTimeout.IsWhole
  resave_eq : s.inWholeSeconds.save = s.save

/-- Saved settings are loaded as they were, with each timeout cut to its whole seconds. -/
theorem loadsBack (s : Settings) : s.LoadsBack := by
  refine ⟨s.load_save_eq, ?_, ?_⟩
  · rw [s.load_save_eq, Except.ok.injEq, inWholeSeconds_eq_iff]
  · simp only [save, inWholeSeconds, Timeout.seconds_ofSeconds]

def impatient : Settings :=
  ((Draft.ofHost "mx.example.com").choose (.exchangeTimeout (.ofMillis 1500))).finish

/-- The half second is lost. -/
theorem load_save_ne_of_millis : load impatient.save ≠ .ok impatient := by
  rw [load_save_eq, ne_eq, Except.ok.injEq, inWholeSeconds_eq_iff]
  decide

end Settings

end SmtpClient
