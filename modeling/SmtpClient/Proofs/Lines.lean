import SmtpClient.Proofs.Ledger
import SmtpClient.Proofs.Mailbox
import SmtpClient.Proofs.WrittenReply

namespace SmtpClient

namespace Bytes

def Unbroken (bytes : Bytes) : Prop := cr ∉ bytes ∧ lf ∉ bytes

def IsCommandLine (line : Bytes) : Prop := ∃ text, Unbroken text ∧ line = text ++ crlf

theorem unbroken_nil : Unbroken [] := ⟨List.not_mem_nil, List.not_mem_nil⟩

theorem unbroken_append {before after : Bytes} :
    Unbroken (before ++ after) ↔ before.Unbroken ∧ after.Unbroken := by
  simp only [Unbroken, List.mem_append, not_or]
  exact and_and_and_comm

theorem isCommandLine_append_crlf {text : Bytes} :
    IsCommandLine (text ++ crlf) ↔ text.Unbroken := by
  constructor
  · rintro ⟨text', htext, heq⟩
    rwa [List.append_cancel_right heq]
  · intro h
    exact ⟨text, h, rfl⟩

/-- Words stay on one line if each of them does, since they are joined by spaces. -/
theorem unbroken_intercalate {words : List Bytes} :
    Unbroken ([space].intercalate words) ↔ ∀ word ∈ words, word.Unbroken := by
  have hspace : Unbroken [space] := by constructor <;> decide
  induction words with
  | nil => simp [unbroken_nil]
  | cons word later ih =>
    cases later with
    | nil => simp
    | cons next later =>
      have hjoin : [space].intercalate (word :: next :: later) =
          word ++ [space] ++ [space].intercalate (next :: later) := by
        simp [List.intercalate]
      rw [hjoin, unbroken_append, unbroken_append, List.forall_mem_cons]
      constructor
      · rintro ⟨⟨hword, -⟩, hlater⟩
        exact ⟨hword, ih.mp hlater⟩
      · rintro ⟨hword, hlater⟩
        exact ⟨⟨hword, hspace⟩, ih.mpr hlater⟩

end Bytes

def OneLine (text : String) : Prop := '\r' ∉ text.toList ∧ '\n' ∉ text.toList

instance (text : String) : Decidable (OneLine text) := inferInstanceAs (Decidable (_ ∧ _))

/-- CR and LF are ASCII, so a text holds them exactly if its bytes do. -/
theorem unbroken_encode_iff (text : String) : (Utf8.encode text).Unbroken ↔ OneLine text := by
  have hcr : Bytes.cr ∈ Utf8.encode text ↔ '\r' ∈ text.toList :=
    Utf8.mem_encode_iff (by decide) (by decide) text
  have hlf : Bytes.lf ∈ Utf8.encode text ↔ '\n' ∈ text.toList :=
    Utf8.mem_encode_iff (by decide) (by decide) text
  rw [Bytes.Unbroken, OneLine, hcr, hlf]

/-- A text without blanks stays on its line. -/
theorem NotBlank.oneLine {text : String} (h : NotBlank text) : OneLine text := by
  constructor
  all_goals
    intro hmem
    have hblank := h _ hmem
    revert hblank
    decide

theorem notBlank_toString (n : Nat) : NotBlank (toString n) := by
  have hdigits : (toString n).toList = Nat.toDigits 10 n := Nat.toList_repr
  unfold NotBlank
  rw [hdigits]
  intro c hc
  have hdigit := Bytes.isDigit_of_mem_toDigits hc
  simp only [isBlank, blankRanges, List.any_cons, List.any_nil, Bool.or_false, Bool.or_eq_false_iff,
    Bool.and_eq_false_iff, decide_eq_false_iff_not]
  omega

namespace Command

/-- A command is one line exactly if each of its words stays on its line. -/
theorem isCommandLine_render_iff (c : Command) :
    c.render.IsCommandLine ↔ ∀ word ∈ c.words, OneLine word := by
  rw [render, Bytes.isCommandLine_append_crlf, Bytes.unbroken_intercalate, List.forall_mem_map]
  simp only [unbroken_encode_iff]

/-- An address has no blank in it, and neither has a size. -/
theorem notBlank_mail (sender : Address) (size : Option Nat) :
    ∀ word ∈ (mail sender size).words, NotBlank word := by
  have hfrom : NotBlank ("FROM:" ++ sender.path) :=
    (notBlank_append _ _).mpr ⟨by decide, sender.notBlank_path⟩
  cases size with
  | none => simp [words, hfrom, (by decide : NotBlank "MAIL")]
  | some n =>
    have hsize : NotBlank ("SIZE=" ++ toString n) :=
      (notBlank_append _ _).mpr ⟨by decide, notBlank_toString n⟩
    simpa [words, hfrom, (by decide : NotBlank "MAIL")] using hsize

theorem notBlank_rcpt (recipient : Address) :
    ∀ word ∈ (rcpt recipient).words, NotBlank word := by
  have hto : NotBlank ("TO:" ++ recipient.path) :=
    (notBlank_append _ _).mpr ⟨by decide, recipient.notBlank_path⟩
  simp [words, hto, (by decide : NotBlank "RCPT")]

/-- A URL has no blank in it. -/
theorem notBlank_burl (target : Reference) :
    ∀ word ∈ (burl target.url).words, NotBlank word := by
  simp [words, target.notBlank, (by decide : NotBlank "BURL"), (by decide : NotBlank "LAST")]

def isGreeting : Command → Bool
  | helo _ | ehlo _ => true
  | _ => false

inductive Sendable (client : String) : Command → Prop
  | helo : Sendable client (.helo client)
  | ehlo : Sendable client (.ehlo client)
  | startTls : Sendable client .startTls
  | auth (mechanism : Mechanism) : Sendable client (.auth mechanism)
  | mail (sender : Address) (size : Option Nat) : Sendable client (.mail sender size)
  | rcpt (recipient : Address) : Sendable client (.rcpt recipient)
  | payload (p : Payload) : Sendable client p.command
  | quit : Sendable client .quit

/-- Only in a greeting is there a word that may break. -/
theorem Sendable.isCommandLine_iff {client : String} {c : Command} (h : c.Sendable client) :
    c.render.IsCommandLine ↔ (c.isGreeting = true → OneLine client) := by
  rw [isCommandLine_render_iff]
  have hown (hwords : ∀ word ∈ c.words, NotBlank word) (hother : c.isGreeting = false) :
      (∀ word ∈ c.words, OneLine word) ↔ (c.isGreeting = true → OneLine client) :=
    iff_of_true (fun word hword => (hwords word hword).oneLine) (by simp [hother])
  cases h with
  | helo => simp [words, isGreeting, (by decide : OneLine "HELO")]
  | ehlo => simp [words, isGreeting, (by decide : OneLine "EHLO")]
  | startTls => exact hown (by decide) rfl
  | auth mechanism => exact hown (by cases mechanism <;> decide) rfl
  | mail sender size => exact hown (notBlank_mail sender size) rfl
  | rcpt recipient => exact hown (notBlank_rcpt recipient) rfl
  | payload p =>
    cases p with
    | message data => exact hown (by decide : ∀ word ∈ Command.data.words, NotBlank word) rfl
    | reference target => exact hown (notBlank_burl target) rfl
  | quit => exact hown (by decide) rfl

end Command

theorem isCommandLine_quit : Bytes.IsCommandLine Command.quit.render := by
  rw [Command.isCommandLine_render_iff]
  decide

/-- Whatever the password is, its answer is one line, since base64 has no line ends. -/
theorem isCommandLine_passwordResponse (user password : String) :
    Bytes.IsCommandLine (passwordResponse user password).render := by
  have halphabet : (Base64.alphabet.all fun c => c ≠ '\r' && c ≠ '\n') = true := by decide
  rw [passwordResponse, Command.isCommandLine_render_iff, Command.words, List.forall_mem_singleton]
  constructor
  all_goals
    rw [String.toList_ofList]
    intro hmem
    have hletter := List.all_eq_true.mp halphabet _ (Base64.encode_subset_alphabet _ hmem)
    simp at hletter

namespace Transmit

def Lined (t : Transmit) : Prop :=
  ∃ lines : List (Tag × Bytes), t.tags = lines.map (·.1) ∧ t.data = lines.flatMap (·.2) ∧
    t.tags.Pairwise (· < ·) ∧ ∀ line ∈ lines, line.2.IsCommandLine

/-- Commands that are one line each give a batch with a line for every tag. -/
theorem lined_batchOf {issued : Nat} {cs : List Command}
    (h : ∀ c ∈ cs, c.render.IsCommandLine) :
    (Pipeline.batchOf (Pipeline.numbered issued cs)).Lined := by
  refine ⟨(Pipeline.numbered issued cs).map fun q => (q.1, q.2.render), ?_, ?_, ?_, ?_⟩
  · rw [List.map_map]
    rfl
  · rw [List.flatMap_map]
    rfl
  · have htags : (Pipeline.batchOf (Pipeline.numbered issued cs)).tags =
        List.range' (issued + 1) cs.length := Pipeline.map_fst_numbered issued cs
    rw [htags]
    exact List.pairwise_lt_range'
  · intro line hline
    obtain ⟨q, hq, rfl⟩ := List.mem_map.mp hline
    have hc : q.2 ∈ (Pipeline.numbered issued cs).map Prod.snd := List.mem_map_of_mem hq
    rw [Pipeline.map_snd_numbered] at hc
    exact h _ hc

/-- Where there is one tag, the data has to be one line. -/
theorem lined_tagged_iff (tag : Tag) (data : Bytes) :
    (Transmit.tagged tag data).Lined ↔ data.IsCommandLine := by
  constructor
  · rintro ⟨lines, htags, hdata, -, hlines⟩
    obtain ⟨line, rfl, -⟩ := List.map_eq_singleton_iff.mp htags.symm
    have hline : data = line.2 := by simpa [tagged] using hdata
    rw [hline]
    exact hlines line List.mem_cons_self
  · intro h
    exact ⟨[(tag, data)], rfl, by simp [tagged], List.pairwise_singleton _ _, by simpa using h⟩

inductive IsAside : Transmit → Prop
  | line (data : Bytes) (h : data.IsCommandLine) : IsAside (.raw data)
  | body (message : Bytes) : IsAside (.raw (Body.encode message))

end Transmit

namespace Dialogue

inductive Utterance (client : String) (issued : Nat) : List Transmit → Prop
  | nothing : Utterance client issued []
  | aside (t : Transmit) (h : t.IsAside) : Utterance client issued [t]
  | commands (cs : List Command) (hne : cs ≠ []) (h : ∀ c ∈ cs, c.Sendable client) :
    Utterance client issued [Pipeline.batchOf (Pipeline.numbered issued cs)]

def Voices (d next : Dialogue) : Prop :=
  ∃ new, next.outbound = d.outbound ++ new ∧
    Utterance d.settings.clientName d.pipeline.issued new

theorem voices_of_outbound_eq {d next : Dialogue} (h : next.outbound = d.outbound) :
    d.Voices next :=
  ⟨[], by rw [h, List.append_nil], .nothing⟩

theorem voices_send {d : Dialogue} (hw : d.pipeline.waiting = []) {c : Command}
    (hc : c.Sendable d.settings.clientName) : d.Voices (d.send c) := by
  have hone : Transmit.tagged (d.pipeline.issued + 1) c.render =
      Pipeline.batchOf (Pipeline.numbered d.pipeline.issued [c]) := by
    simp [Pipeline.batchOf, Pipeline.numbered, Transmit.tagged]
  rw [send_eq d c hw, hone]
  exact ⟨_, rfl, .commands [c] (List.cons_ne_nil _ _) (by simpa using hc)⟩

/-- A failure puts out a QUIT at most, which is a line of its own. -/
theorem voices_fail (d : Dialogue) (error : Error) (mayQuit : Bool) :
    d.Voices (d.fail error mayQuit).1 := by
  rw [fail_eq]
  refine ⟨d.farewell mayQuit, rfl, ?_⟩
  unfold farewell
  split
  · exact .aside _ (.line _ isCommandLine_quit)
  · exact .nothing

/-- A transaction is made of commands that any client can send. -/
theorem sendable_transaction (client : String) (e : Envelope) (size : Option Nat) :
    ∀ c ∈ transaction e size, c.Sendable client := by
  intro c hc
  rw [transaction_split] at hc
  rcases List.mem_append.mp hc with hparty | hpayload
  · rcases List.mem_cons.mp hparty with rfl | hrcpt
    · exact .mail e.sender size
    · obtain ⟨recipient, -, rfl⟩ := List.mem_map.mp hrcpt
      exact .rcpt recipient
  · rw [List.mem_singleton.mp hpayload]
    exact .payload e.payload

theorem Beginning.voices {d : Dialogue} {r : Outcome} (h : d.Beginning r)
    (hw : d.pipeline.waiting = []) : d.Voices r.1 := by
  cases h with
  | failed error => exact d.voices_fail error true
  | batch e size =>
    rw [sendBatch_eq d e size hw]
    exact ⟨_, rfl, .commands _ (List.cons_ne_nil _ _) (sendable_transaction _ e size)⟩
  | sender e size => exact voices_send hw (.mail e.sender size)

/-- What is said after the greetings are commands of this client, or the beginning of the
transaction. -/
theorem Negotiation.voices {d : Dialogue} {r : Outcome} (h : d.Negotiation r)
    (hw : d.pipeline.waiting = []) : d.Voices r.1 := by
  cases h with
  | failed error => exact d.voices_fail error true
  | startTls => exact voices_send hw .startTls
  | park => exact voices_of_outbound_eq rfl
  | ask => exact voices_of_outbound_eq rfl
  | auth => exact voices_send (d := { d with passwordSent := false }) hw (.auth .plain)
  | begun => exact d.beginTransaction_beginning.voices hw

/-- The answer to a challenge is base64 in a line of its own. -/
theorem voices_sendPassword (d : Dialogue) : d.Voices d.sendPassword.1 := by
  unfold sendPassword
  split
  · exact d.voices_fail _ _
  · split
    · exact d.voices_fail _ _
    · exact ⟨_, rfl, .aside _ (.line _ (isCommandLine_passwordResponse _ _))⟩

theorem voices_sendBody (d : Dialogue) : d.Voices d.sendBody.1 := by
  unfold sendBody
  split
  · next data _ => exact ⟨_, rfl, .aside _ (.body data)⟩
  · exact d.voices_fail _ _

theorem voices_sendNextRecipient {d : Dialogue} (hw : d.pipeline.waiting = []) :
    d.Voices d.sendNextRecipient := by
  unfold sendNextRecipient
  split
  · exact voices_of_outbound_eq rfl
  · next e _ =>
    split
    · next recipient _ =>
      exact voices_send (d := { d with recipientsSent := d.recipientsSent + 1 }) hw
        (.rcpt recipient)
    · exact voices_send hw (.payload e.payload)

theorem voices_act {d : Dialogue} (hw : d.pipeline.waiting = []) (awaited : Awaited)
    (reply : Reply) (text : String) (decision : Decision) :
    d.Voices (d.act awaited reply text decision).1 := by
  cases decision with
  | announce => exact (negotiate_negotiation _).voices hw
  | retry => exact voices_send (d := { d with capabilities := .empty }) hw .helo
  | advance move =>
    cases move with
    | greet =>
      exact voices_send (d := { d with phase := .ready, capabilities := .empty }) hw .ehlo
    | negotiate => exact d.negotiate_negotiation.voices hw
    | encrypt => exact voices_of_outbound_eq rfl
    | sendPassword => exact d.voices_sendPassword
    | beginTransaction => exact (beginTransaction_beginning _).voices hw
    | firstRecipient | nextRecipient =>
      simp only [act, advance]
      split
      · exact voices_of_outbound_eq rfl
      · exact voices_sendNextRecipient hw
    | sendBody => exact d.voices_sendBody
    | quit => exact voices_send (d := { d with succeeded := true }) hw .quit
    | close => exact voices_of_outbound_eq rfl
  | fail refusal =>
    simp only [act]
    split
    · exact voices_of_outbound_eq rfl
    · exact d.voices_fail _ _

theorem Voices.congr {d s next : Dialogue} (h : s.Voices next) (hs : s.settings = d.settings)
    (hi : s.pipeline.issued = d.pipeline.issued) (ho : s.outbound = d.outbound) :
    d.Voices next := by
  unfold Voices at h
  rwa [hs, hi, ho] at h

/-- The reply is counted first, which leaves what was put out as it is. -/
theorem voices_takeLine {d : Dialogue} (h : d.pipeline.Tidy) (line : Bytes) :
    d.Voices (d.takeLine line).1 := by
  have hread := d.takeLine_reading line
  generalize d.takeLine line = r at hread ⊢
  cases hread with
  | closed => exact voices_of_outbound_eq rfl
  | malformed error => exact d.voices_fail _ _
  | unasked reply => exact d.voices_fail _ _
  | held reply awaited =>
    apply voices_of_outbound_eq
    unfold holdLine
    split <;> rfl
  | completed reply awaited hopen hparse hawaited hc =>
    have hpipeline := pipeline_settle hopen hawaited hparse hc
    have hact : Voices (settle { d with replyTexts := [] } awaited reply.code) _ :=
      voices_act (by rw [hpipeline, (tidy_answered h _).waiting_eq]) awaited reply
        (d.replyText reply) (Decision.of awaited reply.code)
    apply hact.congr
    · simp
    · rw [hpipeline, issued_answered]
    · simp

/-- Any call but a poll puts out what the client can say, and nothing else. -/
theorem voices_perform {d : Dialogue} (h : d.pipeline.Tidy) {call : Call} (hpoll : call ≠ .poll) :
    d.Voices (d.perform call).1 := by
  cases call with
  | submit e =>
    apply voices_of_outbound_eq
    rcases d.perform_submit e with ⟨heq, -⟩ | ⟨-, -, requested, asked, heq, -⟩ <;> rw [heq]
  | connected =>
    apply voices_of_outbound_eq
    simp only [perform, connect]
    split <;> rfl
  | line line => exact voices_takeLine h line
  | password text =>
    simp only [perform, givePassword]
    split
    · exact voices_send (d := { d with
        password := some text, parked := false, passwordSent := false }) h.waiting_eq (.auth .plain)
    · exact voices_of_outbound_eq rfl
  | encrypted =>
    simp only [perform, encrypt]
    split
    · exact voices_of_outbound_eq rfl
    · exact voices_send (d := { d with encrypted := true, capabilities := .empty }) h.waiting_eq
        .ehlo
  | cancel =>
    simp only [perform, cancel]
    split
    · exact voices_of_outbound_eq rfl
    · exact d.voices_fail _ _
  | lost error =>
    simp only [perform, disconnect]
    split
    · exact voices_of_outbound_eq rfl
    · split
      · exact voices_of_outbound_eq rfl
      · exact d.voices_fail _ _
  | poll => exact absurd rfl hpoll

/-- What a call puts out is one datum beside the commands, or commands under the next numbers. -/
theorem utterance_outputOf {d : Dialogue} (h : d.pipeline.Tidy) (call : Call) :
    Utterance d.settings.clientName d.pipeline.issued (d.outputOf call) := by
  by_cases hpoll : call = .poll
  · rw [hpoll, outputOf_poll]
    exact .nothing
  · obtain ⟨new, hnew, hsaid⟩ := voices_perform h hpoll
    rwa [outputOf_eq hnew]

/-- What a run puts out is made of data that is no command and of commands of the client. -/
theorem putOut_cases {settings : Settings} {calls : List Call} {t : Transmit}
    (h : t ∈ (start settings).putOut calls) :
    t.IsAside ∨ ∃ issued cs, cs ≠ [] ∧ (∀ c ∈ cs, c.Sendable settings.clientName) ∧
      t = Pipeline.batchOf (Pipeline.numbered issued cs) := by
  obtain ⟨before, call, -, -, hmem⟩ := occurs_of_mem_putOut h
  have hsaid := utterance_outputOf (tidy_after settings before) call
  rw [settings_after] at hsaid
  generalize ((start settings).after before).outputOf call = new at hsaid hmem
  cases hsaid with
  | nothing => cases hmem
  | aside u hu =>
    rw [List.mem_singleton.mp hmem]
    exact Or.inl hu
  | commands cs hne hcs => exact Or.inr ⟨_, cs, hne, hcs, List.mem_singleton.mp hmem⟩

structure Unspoken (d : Dialogue) : Prop where
  pipeline_eq : d.pipeline = .empty
  parked_eq : d.parked = false

def Opens (d next : Dialogue) : Prop :=
  ∃ new, next.outbound = d.outbound ++ new ∧ (next.Unspoken ∧ (∀ t ∈ new, t.tags = []) ∨
    new = [.tagged 1 (Command.ehlo d.settings.clientName).render])

theorem Unspoken.quiet {d next : Dialogue} (h : d.Unspoken)
    (hpipeline : next.pipeline = d.pipeline) (hparked : next.parked = d.parked)
    (ho : next.outbound = d.outbound) : d.Opens next :=
  ⟨[], by rw [ho, List.append_nil],
    Or.inl ⟨⟨hpipeline.trans h.pipeline_eq, hparked.trans h.parked_eq⟩, by simp⟩⟩

theorem Unspoken.fail {d : Dialogue} (h : d.Unspoken) (error : Error) (mayQuit : Bool) :
    d.Opens (d.fail error mayQuit).1 := by
  rw [fail_eq]
  refine ⟨d.farewell mayQuit, rfl, Or.inl ⟨⟨by rw [h.pipeline_eq]; rfl, rfl⟩, ?_⟩⟩
  unfold farewell
  split
  · simp [Transmit.raw]
  · simp

theorem Unspoken.greet {d : Dialogue} (h : d.Unspoken) : d.Opens d.greet := by
  have hw : d.pipeline.waiting = [] := by rw [h.pipeline_eq]; rfl
  have hi : d.pipeline.issued = 0 := by rw [h.pipeline_eq]; rfl
  rw [Dialogue.greet, send_eq { d with capabilities := .empty } _ hw]
  exact ⟨_, rfl, Or.inr (by rw [hi])⟩

/-- A line before the first command leaves all commands unspoken, or it is answered with the
greeting. -/
theorem Unspoken.takeLine {d : Dialogue} (h : d.Unspoken) (line : Bytes) :
    d.Opens (d.takeLine line).1 := by
  have hread := d.takeLine_reading line
  generalize d.takeLine line = r at hread ⊢
  cases hread with
  | closed => exact h.quiet rfl rfl rfl
  | malformed error => exact h.fail _ _
  | unasked reply => exact h.fail _ _
  | held reply awaited =>
    unfold holdLine
    split <;> exact h.quiet rfl rfl rfl
  | completed reply awaited _ _ hawaited =>
    obtain rfl : awaited = .greeting := by
      unfold Dialogue.awaited at hawaited
      rw [h.pipeline_eq] at hawaited
      split at hawaited
      · exact (Option.some.inj hawaited).symm
      · cases hawaited
    have hl := Decision.listed_of .greeting reply.code
    generalize Decision.of .greeting reply.code = decision at hl
    cases hl with
    | greet =>
      have hready : Unspoken { d with replyTexts := [], greetingDue := false, phase := .ready } :=
        ⟨h.pipeline_eq, h.parked_eq⟩
      exact hready.greet
    | fail _ refusal =>
      have hmarked : Unspoken { d with replyTexts := [], greetingDue := false } :=
        ⟨h.pipeline_eq, h.parked_eq⟩
      exact hmarked.fail _ _

/-- Whatever is called before the first command, that command is the greeting. -/
theorem Unspoken.perform {d : Dialogue} (h : d.Unspoken) {call : Call} (hpoll : call ≠ .poll) :
    d.Opens (d.perform call).1 := by
  cases call with
  | submit e =>
    rcases d.perform_submit e with ⟨heq, -⟩ | ⟨-, -, requested, asked, heq, -⟩
    all_goals
      rw [heq]
      exact h.quiet rfl rfl rfl
  | connected =>
    simp only [Dialogue.perform, connect]
    split <;> exact h.quiet rfl rfl rfl
  | line line => exact h.takeLine line
  | password text =>
    have hstored : (d.perform (.password text)).1 = { d with password := some text } :=
      givePassword_of_unparked (by simp [h.parked_eq]) text
    rw [hstored]
    exact h.quiet rfl rfl rfl
  | encrypted =>
    simp only [Dialogue.perform, encrypt]
    split
    · exact h.quiet rfl rfl rfl
    · have hmarked : Unspoken { d with encrypted := true } := ⟨h.pipeline_eq, h.parked_eq⟩
      exact hmarked.greet
  | cancel =>
    simp only [Dialogue.perform, cancel]
    split
    · exact h.quiet rfl rfl rfl
    · exact h.fail _ _
  | lost error =>
    simp only [Dialogue.perform, disconnect]
    split
    · exact h.quiet rfl rfl rfl
    · split
      · exact h.quiet rfl rfl rfl
      · exact h.fail _ _
  | poll => exact absurd rfl hpoll

/-- The first command of a run, if it says any, is the greeting. -/
theorem greeting_mem_putOut (settings : Settings) (calls : List Call) :
    (((start settings).after calls).Unspoken ∧
      ∀ t ∈ (start settings).putOut calls, t.tags = []) ∨
    .tagged 1 (Command.ehlo settings.clientName).render ∈ (start settings).putOut calls := by
  induction calls using List.reverseRecOn with
  | nil => exact Or.inl ⟨⟨rfl, rfl⟩, by simp [start]⟩
  | append_singleton calls call ih =>
    rw [putOut_snoc, after_snoc]
    rcases ih with ⟨hunspoken, huntagged⟩ | hgreeted
    · by_cases hpoll : call = .poll
      · subst hpoll
        refine Or.inl ⟨⟨hunspoken.pipeline_eq, hunspoken.parked_eq⟩, ?_⟩
        rwa [outputOf_poll, List.append_nil]
      · obtain ⟨new, hnew, hcase⟩ := hunspoken.perform hpoll
        rw [outputOf_eq hnew]
        rcases hcase with ⟨hnext, huntagged'⟩ | rfl
        · refine Or.inl ⟨hnext, fun t ht => ?_⟩
          rcases List.mem_append.mp ht with hold | hadded
          · exact huntagged t hold
          · exact huntagged' t hadded
        · rw [settings_after]
          exact Or.inr (List.mem_append_right _ List.mem_cons_self)
    · exact Or.inr (List.mem_append_left _ hgreeted)

def StaysInLines (settings : Settings) (calls : List Call) : Prop :=
  ∀ t ∈ (start settings).putOut calls, t.tags ≠ [] → t.Lined

/-- How a run keeps to lines: data that is no command is a line of its own or a body, and commands
have one line for each tag exactly if the name of the client stays on its line or none is sent. No
address, no reference, no user and no password makes a difference. -/
structure KeepsToLines (settings : Settings) (calls : List Call) : Prop where
  aside : ∀ t ∈ (start settings).putOut calls, t.tags = [] → t.IsAside
  commands_iff : StaysInLines settings calls ↔ OneLine settings.clientName ∨
    ∀ t ∈ (start settings).putOut calls, t.tags = []

/-- In every run, all that is put out keeps to lines, but for the name of the client. -/
theorem keepsToLines_run (settings : Settings) (calls : List Call) :
    KeepsToLines settings calls := by
  refine ⟨?_, ?_, ?_⟩
  · intro t ht htags
    rcases putOut_cases ht with haside | ⟨issued, cs, hne, -, rfl⟩
    · exact haside
    · have hlength := congrArg List.length htags
      rw [Pipeline.batchOf, List.length_map, Pipeline.length_numbered] at hlength
      exact absurd (List.length_eq_zero_iff.mp hlength) hne
  · intro h
    rcases greeting_mem_putOut settings calls with ⟨-, huntagged⟩ | hgreeted
    · exact Or.inr huntagged
    · have hlined := h _ hgreeted (by simp [Transmit.tagged])
      rw [Transmit.lined_tagged_iff, Command.Sendable.ehlo.isCommandLine_iff] at hlined
      exact Or.inl (hlined rfl)
  · rintro (hname | hnone) t ht htags
    · rcases putOut_cases ht with haside | ⟨issued, cs, -, hcs, rfl⟩
      · cases haside <;> exact absurd rfl htags
      · apply Transmit.lined_batchOf
        intro c hc
        exact (hcs c hc).isCommandLine_iff.mpr fun _ => hname
    · exact absurd (hnone t ht) htags

/-- A name with a line end in it breaks the greeting: what follows the line end is read as a
command of its own. -/
theorem not_staysInLines_of_brokenName :
    ¬StaysInLines { Settings.plain with clientName := "client\r\nRSET" }
      (conversation .greeting ["220 mx ESMTP"]) := by
  intro h
  have hlined := h (.tagged 1 (Utf8.encode "EHLO client\r\nRSET\r\n")) (by decide +kernel)
    (by decide)
  rw [Transmit.lined_tagged_iff] at hlined
  obtain ⟨text, ⟨-, hlf⟩, heq⟩ := hlined
  have hcount := congrArg (List.count Bytes.lf) heq
  rw [List.count_append, List.count_eq_zero.mpr hlf] at hcount
  revert hcount
  decide

end Dialogue

end SmtpClient
