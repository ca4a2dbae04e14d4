import SmtpClient.Proofs.Lines

namespace SmtpClient

inductive EnvelopeCommand where
  | mail (sender : Address) (size : Option Nat)
  | rcpt (recipient : Address)
  | burl (target : Reference)
  deriving DecidableEq

namespace EnvelopeCommand

def command : EnvelopeCommand → Command
  | mail sender size => .mail sender size
  | rcpt recipient => .rcpt recipient
  | burl target => .burl target.url

def line (c : EnvelopeCommand) : Bytes := c.command.render

def path? (keyword : String) (word : Bytes) : Option Address := do
  let rest ← (Utf8.encode (keyword ++ "<")).isPrefixOf? word
  let inner ← (Utf8.encode ">").isSuffixOf? rest
  let text ← Utf8.decode? inner
  (Address.parse text).toOption

def size? (word : Bytes) : Option Nat := do
  Bytes.digits? (← (Utf8.encode "SIZE=").isPrefixOf? word)

def reference? (word : Bytes) : Option Reference := do
  let url ← Utf8.decode? word
  if h : isReference url.toList = true then some ⟨url, h⟩ else none

def ofWords? : List Bytes → Option EnvelopeCommand
  | [verb, party] =>
    if verb = Utf8.encode "MAIL" then (path? "FROM:" party).map (mail · none)
    else if verb = Utf8.encode "RCPT" then (path? "TO:" party).map rcpt
    else none
  | [verb, carried, last] =>
    if verb = Utf8.encode "MAIL" then do
      let sender ← path? "FROM:" carried
      let size ← size? last
      some (mail sender (some size))
    else if verb = Utf8.encode "BURL" ∧ last = Utf8.encode "LAST" then
      (reference? carried).map burl
    else none
  | _ => none

def read? (line : Bytes) : Option EnvelopeCommand := do
  ofWords? (fields Bytes.space (← Bytes.crlf.isSuffixOf? line))

/-- The address is read back from the word in which it stands. -/
theorem path?_encode (keyword : String) (a : Address) :
    path? keyword (Utf8.encode (keyword ++ a.path)) = some a := by
  have hword : Utf8.encode (keyword ++ a.path) =
      Utf8.encode (keyword ++ "<") ++ (Utf8.encode a.text ++ Utf8.encode ">") := by
    rw [a.path_eq]
    simp only [Utf8.encode_append, List.append_assoc]
  have hrest := List.isPrefixOf?_eq_some_iff_append_eq.mpr hword.symm
  have hinner : (Utf8.encode ">").isSuffixOf? (Utf8.encode a.text ++ Utf8.encode ">") =
      some (Utf8.encode a.text) := List.isSuffixOf?_eq_some_iff_append_eq.mpr rfl
  unfold path?
  rw [hrest, Option.bind_eq_bind, Option.bind_some, hinner]
  simp [Utf8.decode?_encode, a.parse_text, Except.toOption]

theorem size?_encode (n : Nat) : size? (Utf8.encode ("SIZE=" ++ toString n)) = some n := by
  have hdigits : (Utf8.encode "SIZE=").isPrefixOf? (Utf8.encode ("SIZE=" ++ toString n)) =
      some (Utf8.encode (toString n)) := by
    apply List.isPrefixOf?_eq_some_iff_append_eq.mpr
    exact (Utf8.encode_append _ _).symm
  unfold size?
  rw [hdigits]
  exact Bytes.digits?_encode_toString n

theorem reference?_encode (target : Reference) :
    reference? (Utf8.encode target.url) = some target := by
  unfold reference?
  rw [Utf8.decode?_encode]
  exact dif_pos target.sound

/-- The words of a command make that command again, since each begins in its own way. -/
theorem ofWords?_words (c : EnvelopeCommand) :
    ofWords? (c.command.words.map Utf8.encode) = some c := by
  have hother {verb : String} (hne : verb ≠ "MAIL") : Utf8.encode verb ≠ Utf8.encode "MAIL" :=
    Utf8.encode_injective.ne hne
  cases c with
  | mail sender size =>
    cases size with
    | none =>
      change ofWords? [Utf8.encode "MAIL", Utf8.encode ("FROM:" ++ sender.path)] = _
      rw [ofWords?, if_pos rfl, path?_encode]
      rfl
    | some n =>
      change ofWords? [Utf8.encode "MAIL", Utf8.encode ("FROM:" ++ sender.path),
        Utf8.encode ("SIZE=" ++ toString n)] = _
      rw [ofWords?, if_pos rfl, path?_encode, size?_encode]
      rfl
  | rcpt recipient =>
    change ofWords? [Utf8.encode "RCPT", Utf8.encode ("TO:" ++ recipient.path)] = _
    rw [ofWords?, if_neg (hother (by decide)), if_pos rfl, path?_encode]
    rfl
  | burl target =>
    change ofWords? [Utf8.encode "BURL", Utf8.encode target.url, Utf8.encode "LAST"] = _
    rw [ofWords?, if_neg (hother (by decide)), if_pos ⟨rfl, rfl⟩, reference?_encode]
    rfl

/-- No word has a blank in it: neither an address nor a URL nor a number can bring one. -/
theorem notBlank_words (c : EnvelopeCommand) : ∀ word ∈ c.command.words, NotBlank word := by
  cases c with
  | mail sender size => exact Command.notBlank_mail sender size
  | rcpt recipient => exact Command.notBlank_rcpt recipient
  | burl target => exact Command.notBlank_burl target

theorem words_ne_nil (c : EnvelopeCommand) : c.command.words ≠ [] := by
  cases c <;> exact List.cons_ne_nil _ _

/-- The command is one line, as none of its words holds a line end. -/
theorem isCommandLine_line (c : EnvelopeCommand) : c.line.IsCommandLine := by
  apply (Command.isCommandLine_render_iff c.command).mpr
  intro word hword
  exact (c.notBlank_words word hword).oneLine

def content (c : EnvelopeCommand) : Bytes :=
  [Bytes.space].intercalate (c.command.words.map Utf8.encode)

theorem line_eq (c : EnvelopeCommand) : c.line = c.content ++ Bytes.crlf := rfl

/-- Cut at its spaces, a line is the words of its command. -/
theorem fields_content (c : EnvelopeCommand) :
    fields Bytes.space c.content = c.command.words.map Utf8.encode := by
  apply fields_intercalate
  · intro hnil
    exact c.words_ne_nil (List.map_eq_nil_iff.mp hnil)
  · rw [List.forall_mem_map]
    intro word hword hspace
    have hmem : ' ' ∈ word.toList :=
      (Utf8.mem_encode_iff (by decide) (by decide) word).mp hspace
    have hblank := c.notBlank_words word hword ' ' hmem
    revert hblank
    decide

/-- Reading undoes rendering. -/
theorem read?_line (c : EnvelopeCommand) : read? c.line = some c := by
  have hcontent : Bytes.crlf.isSuffixOf? c.line = some c.content :=
    List.isSuffixOf?_eq_some_iff_append_eq.mpr rfl
  calc
    read? c.line = ofWords? (fields Bytes.space c.content) := by
      unfold read?
      rw [hcontent]
      rfl
    _ = ofWords? (c.command.words.map Utf8.encode) := by rw [fields_content]
    _ = some c := c.ofWords?_words

theorem line_injective : Function.Injective line := by
  intro c c' h
  have hread := c.read?_line
  rw [h, c'.read?_line] at hread
  exact (Option.some.inj hread).symm

/-- A command is one line, which has the words of the command between its spaces and is read as that
command. -/
structure Legible (c : EnvelopeCommand) : Prop where
  line : c.line.IsCommandLine
  words : ∃ content, c.line = content ++ Bytes.crlf ∧
    fields Bytes.space content = c.command.words.map Utf8.encode
  read : read? c.line = some c

/-- Every command of an envelope is a line with its own words, from which it is read. -/
theorem legible (c : EnvelopeCommand) : c.Legible :=
  ⟨c.isCommandLine_line, ⟨c.content, c.line_eq, c.fields_content⟩, c.read?_line⟩

/-- The texts that are accepted as addresses are the mailboxes, and accepted addresses and URLs are
taken as they are. The command for them is one line, has its words between the spaces, and is read
back from it, so no two commands have the same line. -/
theorem uniquely_decodable :
    (∀ text, (∃ a, Address.parse text = .ok a) ↔ IsMailbox text) ∧
      (∀ text a, Address.parse text = .ok a → a.text = text) ∧
      (∀ sender recipients url e, Envelope.ofReference sender recipients url = .ok e →
        ∃ target : Reference, target.url = url ∧ e.payload = .reference target) ∧
      (∀ c : EnvelopeCommand, c.Legible) ∧ Function.Injective line :=
  ⟨Address.exists_parse_iff, fun _ _ h => Address.text_of_parse h,
    fun _ _ _ _ h => Envelope.exists_reference h, legible, line_injective⟩

/-- An address that looks like a size. -/
example : (read? (Utf8.encode "MAIL FROM:<SIZE=1@b> SIZE=2\r\n")).map command =
    some (.mail ⟨"SIZE=1@b", by decide⟩ (some 2)) := by decide

end EnvelopeCommand

end SmtpClient
