import SmtpClient.Proofs.Standing

/-!
What a client says in the course of a submission: the greeting, the greeting again once the
connection is encrypted, the older greeting, authentication, the sender, every recipient, the
payload and the farewell, each at its place and under the next number. `Turn` tells for every place
of a dialogue what was said before it, and a step either says nothing, or the next command, or the
whole transaction, or puts out data that is no command.
-/
namespace SmtpClient

inductive Conveys : List Command → List Transmit → Prop
  | nil : Conveys [] []
  | aside {said : List Command} {ts : List Transmit} (h : Conveys said ts) (t : Transmit)
    (ht : t.tags = []) : Conveys said (ts ++ [t])
  | batch {said : List Command} {ts : List Transmit} (h : Conveys said ts) (c : Command)
    (later : List Command) :
    Conveys (said ++ c :: later)
      (ts ++ [Pipeline.batchOf (Pipeline.numbered said.length (c :: later))])

/-- One command is a batch of its own. -/
theorem Conveys.command {said : List Command} {ts : List Transmit} (h : Conveys said ts)
    (c : Command) : Conveys (said ++ [c]) (ts ++ [.tagged (said.length + 1) c.render]) := by
  have hone : Transmit.tagged (said.length + 1) c.render =
      Pipeline.batchOf (Pipeline.numbered said.length [c]) := by
    simp [Pipeline.batchOf, Pipeline.numbered, Transmit.tagged]
  rw [hone]
  exact h.batch c []

theorem Conveys.tags_eq {said : List Command} {ts : List Transmit} (h : Conveys said ts) :
    ts.flatMap Transmit.tags = List.range' 1 said.length := by
  induction h with
  | nil => rfl
  | aside _ t ht ih => rw [List.flatMap_append, ih, List.flatMap_singleton, ht, List.append_nil]
  | @batch said ts _ c later ih =>
    have htags : (Pipeline.batchOf (Pipeline.numbered said.length (c :: later))).tags =
        List.range' (said.length + 1) (c :: later).length := Pipeline.map_fst_numbered _ _
    have hsplit := List.range'_append_1 (s := 1) (m := said.length) (n := (c :: later).length)
    rw [List.flatMap_append, ih, List.flatMap_singleton, htags, List.length_append, ← hsplit,
      Nat.add_comm 1]

/-- What the tagged transmits hold together is the commands, line after line. -/
theorem Conveys.data_eq {said : List Command} {ts : List Transmit} (h : Conveys said ts) :
    (ts.filter (!·.tags.isEmpty)).flatMap Transmit.data = said.flatMap Command.render := by
  induction h with
  | nil => rfl
  | aside _ t ht ih =>
    rw [List.filter_append, List.flatMap_append, ih, List.filter_cons_of_neg (by simp [ht])]
    exact List.append_nil _
  | @batch said ts _ c later ih =>
    have hdata := Pipeline.data_batchOf_numbered said.length (c :: later)
    rw [List.filter_append, List.flatMap_append, ih, List.filter_cons_of_pos rfl, List.filter_nil,
      List.flatMap_singleton, hdata, List.flatMap_append]

/-- The commands before a transaction: the greeting, the greeting again if the connection becomes
encrypted, the older greeting if the first is not understood, and authentication if it is done. -/
def preamble (client : String) (secured plainly identified : Bool) : List Command :=
  .ehlo client :: (if secured then [.startTls, .ehlo client] else []) ++
    (if plainly then [.helo client] else []) ++ if identified then [.auth .plain] else []

inductive InCourse (settings : Settings) (envelope : Option Envelope) (said : List Command) : Prop
  | opening (secured plainly identified : Bool)
    (h : said <+: preamble settings.clientName secured plainly identified)
  | transaction (secured plainly identified : Bool) (e : Envelope) (size : Option Nat)
    (he : envelope = some e)
    (h : said <+: preamble settings.clientName secured plainly identified ++
      Dialogue.transaction e size ++ [.quit])

def Settings.clearCommands (settings : Settings) : List Command :=
  [.ehlo settings.clientName, .helo settings.clientName, .startTls, .quit]

theorem preamble_identified (client : String) (secured plainly : Bool) :
    preamble client secured plainly true =
      preamble client secured plainly false ++ [.auth .plain] := by
  simp [preamble]

theorem preamble_plainly (client : String) (secured : Bool) :
    preamble client secured true false = preamble client secured false false ++ [.helo client] := by
  simp [preamble]

namespace Dialogue

inductive Aside (d : Dialogue) (events : List Event) : Transmit → Prop
  | response (password : String) (hm : d.mustEncrypt = false) (hp : d.password = some password) :
    Aside d events (.raw (passwordResponse d.settings.user password).render)
  | body (data : Bytes) (hm : d.mustEncrypt = false)
    (hp : d.envelope.map Envelope.payload = some (.message data)) :
    Aside d events (.raw (Body.encode data))
  | farewell (error : Error) (h : events = [.failed error]) :
    Aside d events (.raw Command.quit.render)

inductive Opened (d : Dialogue) : Verb → List Command → Prop
  | hail (secured : Bool) (hs : d.mustEncrypt = true → secured = false) :
    Opened d .ehlo (preamble d.settings.clientName secured false false)
  | secure (hm : d.mustEncrypt = true) :
    Opened d .startTls [.ehlo d.settings.clientName, .startTls]
  | hailPlainly (secured : Bool) (hs : d.mustEncrypt = true → secured = false)
    (hc : d.capabilities = .empty) :
    Opened d .helo (preamble d.settings.clientName secured true false)
  | identify (secured plainly : Bool) (hm : d.mustEncrypt = false) :
    Opened d .auth (preamble d.settings.clientName secured plainly true)

inductive Turn (d : Dialogue) : List Command → Prop
  | silent (phase : Phase) (hp : phase = .disconnected ∨ phase = .connecting)
    (hd : d.Expects phase false []) (hu : d.Untouched) : Turn d []
  | opening (verb : Verb) (said : List Command) (hd : d.Expects .ready false [verb])
    (hu : d.Untouched) (ho : d.Opened verb said) : Turn d said
  | parked (secured plainly : Bool) (hd : d.Expects .ready true []) (hu : d.Untouched)
    (hm : d.mustEncrypt = false) : Turn d (preamble d.settings.clientName secured plainly false)
  | handshake (hd : d.Expects .ready false []) (hu : d.Untouched) (hm : d.mustEncrypt = true)
    (ht : d.replyTexts = []) : Turn d [.ehlo d.settings.clientName, .startTls]
  | sending (secured plainly identified : Bool) (e : Envelope) (size : Option Nat) (c : Command)
    (rest said : List Command) (he : d.envelope = some e) (hm : d.mustEncrypt = false)
    (hs : d.succeeded = false) (hl : e.Leads c rest) (hf : d.Flow e c rest)
    (hsaid : said ++ (if d.batched then [] else rest) =
      preamble d.settings.clientName secured plainly identified ++ transaction e size) :
    Turn d said
  | leaving (secured plainly identified : Bool) (e : Envelope) (size : Option Nat)
    (he : d.envelope = some e) (hm : d.mustEncrypt = false) (hd : d.Expects .ready false [.quit])
    (hs : d.succeeded = true) :
    Turn d (preamble d.settings.clientName secured plainly identified ++ transaction e size ++
      [.quit])
  | closed (said : List Command) (h : d.phase = .closed)
    (hin : InCourse d.settings d.envelope said)
    (hclear : d.mustEncrypt = true → said ⊆ d.settings.clearCommands) : Turn d said

/-- At every turn, what was said is in the order of a submission. -/
theorem Turn.inCourse {d : Dialogue} {said : List Command} (h : d.Turn said) :
    InCourse d.settings d.envelope said := by
  have hsecure : InCourse d.settings d.envelope [.ehlo d.settings.clientName, .startTls] :=
    .opening true false false ⟨[.ehlo d.settings.clientName], rfl⟩
  cases h with
  | silent => exact .opening false false false (List.nil_prefix)
  | opening verb said hd hu ho =>
    cases ho with
    | hail secured => exact .opening secured false false List.prefix_rfl
    | secure => exact hsecure
    | hailPlainly secured => exact .opening secured true false List.prefix_rfl
    | identify secured plainly => exact .opening secured plainly true List.prefix_rfl
  | parked secured plainly => exact .opening secured plainly false List.prefix_rfl
  | handshake => exact hsecure
  | sending secured plainly identified e size c rest said he hm hs hl hf hsaid =>
    refine .transaction secured plainly identified e size he ?_
    rw [← hsaid, List.append_assoc]
    exact List.prefix_append _ _
  | leaving secured plainly identified e size he =>
    exact .transaction secured plainly identified e size he List.prefix_rfl
  | closed _ _ hin => exact hin

/-- Before the connection is encrypted nothing of the transaction is said, nor is authentication. -/
theorem Turn.clear {d : Dialogue} {said : List Command} (h : d.Turn said)
    (hm : d.mustEncrypt = true) : said ⊆ d.settings.clearCommands := by
  have hnot {P : Prop} (hf : d.mustEncrypt = false) : P := by
    rw [hm] at hf
    cases hf
  cases h with
  | silent => exact List.nil_subset _
  | opening verb said hd hu ho =>
    cases ho with
    | hail secured hs =>
      rw [hs hm]
      simp [preamble, Settings.clearCommands]
    | secure => simp [Settings.clearCommands]
    | hailPlainly secured hs =>
      rw [hs hm]
      simp [preamble, Settings.clearCommands]
    | identify secured plainly hf => exact hnot hf
  | parked secured plainly hd hu hf => exact hnot hf
  | handshake => simp [Settings.clearCommands]
  | sending secured plainly identified e size c rest said he hf => exact hnot hf
  | leaving secured plainly identified e size he hf => exact hnot hf
  | closed _ _ _ hclear => exact hclear hm

structure SameTerms (d next : Dialogue) : Prop where
  settings_eq : next.settings = d.settings
  encrypted_eq : next.encrypted = d.encrypted

theorem SameTerms.mustEncrypt_eq {d next : Dialogue} (h : d.SameTerms next) :
    next.mustEncrypt = d.mustEncrypt := by
  rw [mustEncrypt, mustEncrypt, h.settings_eq, h.encrypted_eq]

theorem SameTerms.trans {d next last : Dialogue} (h : d.SameTerms next) (h' : next.SameTerms last) :
    d.SameTerms last :=
  ⟨h'.settings_eq.trans h.settings_eq, h'.encrypted_eq.trans h.encrypted_eq⟩

/-- What the server announces matters only for the older greeting. -/
theorem Opened.congr {d next : Dialogue} {verb : Verb} {said : List Command}
    (h : d.Opened verb said) (hterms : d.SameTerms next)
    (hcaps : verb = .helo → next.capabilities = d.capabilities) : next.Opened verb said := by
  have hm := hterms.mustEncrypt_eq
  have hclient := congrArg Settings.clientName hterms.settings_eq
  cases h with
  | hail secured hs =>
    rw [← hclient]
    exact .hail secured (by rwa [hm])
  | secure hmust =>
    rw [← hclient]
    exact .secure (hm.trans hmust)
  | hailPlainly secured hs hc =>
    rw [← hclient]
    exact .hailPlainly secured (by rwa [hm]) ((hcaps rfl).trans hc)
  | identify secured plainly hf =>
    rw [← hclient]
    exact .identify secured plainly (hm.trans hf)

/-- A change that keeps a dialogue where it stands. What was read of a reply matters only where no
reply is awaited. -/
theorem Turn.congr {d next : Dialogue} {said : List Command} (h : d.Turn said)
    (hsame : d.SameStanding next) (hterms : d.SameTerms next)
    (hcaps : d.awaited = some (.answer .helo) → next.capabilities = d.capabilities)
    (htexts : d.awaited = none → next.replyTexts = d.replyTexts) : next.Turn said := by
  have hm := hterms.mustEncrypt_eq
  have hclient := congrArg Settings.clientName hterms.settings_eq
  cases h with
  | silent phase hp hd hu => exact .silent phase hp (hd.congr hsame) (hu.congr hsame)
  | opening verb said hd hu ho =>
    refine .opening verb said (hd.congr hsame) (hu.congr hsame) (ho.congr hterms fun hhelo => ?_)
    exact hcaps (hhelo ▸ hd.awaited_eq_answer (by simp))
  | parked secured plainly hd hu hf =>
    rw [← hclient]
    exact .parked secured plainly (hd.congr hsame) (hu.congr hsame) (hm.trans hf)
  | handshake hd hu hmust ht =>
    rw [← hclient]
    exact .handshake (hd.congr hsame) (hu.congr hsame) (hm.trans hmust)
      ((htexts (hd.awaited_eq_none (by simp))).trans ht)
  | sending secured plainly identified e size c rest said he hf hs hl hflow hsaid =>
    refine .sending secured plainly identified e size c rest said (hsame.envelope_eq.trans he)
      (hm.trans hf) (hsame.succeeded_eq.trans hs) hl (hflow.congr hsame) ?_
    rw [hsame.batched_eq, hclient]
    exact hsaid
  | leaving secured plainly identified e size he hf hd hs =>
    rw [← hclient]
    exact .leaving secured plainly identified e size (hsame.envelope_eq.trans he) (hm.trans hf)
      (hd.congr hsame) (hsame.succeeded_eq.trans hs)
  | closed said hclosed hin hclear =>
    refine .closed said (hsame.phase_eq.trans hclosed) ?_ ?_
    · rw [hterms.settings_eq, hsame.envelope_eq]
      exact hin
    · rw [hm, hterms.settings_eq]
      exact hclear

structure Told (d : Dialogue) (said : List Command) : Prop where
  issued_eq : d.pipeline.issued = said.length
  turn : d.Turn said

/-- What holds of the commands said wherever a dialogue stands. -/
structure Along (d : Dialogue) (said : List Command) : Prop where
  issued_eq : d.pipeline.issued = said.length
  inCourse : InCourse d.settings d.envelope said
  clear : d.mustEncrypt = true → said ⊆ d.settings.clearCommands

theorem Told.along {d : Dialogue} {said : List Command} (h : d.Told said) : d.Along said :=
  ⟨h.issued_eq, h.turn.inCourse, h.turn.clear⟩

inductive Utters (d : Dialogue) (said : List Command) (r : Outcome) : Prop
  | quiet (h : r.1.Told said) (ho : r.1.outbound = d.outbound)
  | aside (t : Transmit) (h : r.1.Told said) (ho : r.1.outbound = d.outbound ++ [t])
    (ht : d.Aside r.2 t)
  | command (c : Command) (h : r.1.Told (said ++ [c]))
    (ho : r.1.outbound = d.outbound ++ [.tagged (said.length + 1) c.render])
  | transaction (e : Envelope) (size : Option Nat) (h : r.1.Told (said ++ transaction e size))
    (ho : r.1.outbound =
      d.outbound ++ [Pipeline.batchOf (Pipeline.numbered said.length (transaction e size))])

structure Speaks (d : Dialogue) (said : List Command) (r : Outcome) : Prop where
  terms : d.SameTerms r.1
  utters : d.Utters said r

structure Silently (d next : Dialogue) : Prop extends SameTerms d next where
  issued_eq : next.pipeline.issued = d.pipeline.issued
  outbound_eq : next.outbound = d.outbound
  envelope_eq : next.envelope = d.envelope
  password_eq : next.password = d.password

/-- Marks of which none is a term, a number, an output or what a command is made of. -/
theorem silently_of_eq {d next : Dialogue}
    (h : { next with
      phase := d.phase
      greetingDue := d.greetingDue
      parked := d.parked
      capabilities := d.capabilities
      replyTexts := d.replyTexts
      passwordRequested := d.passwordRequested
      passwordSent := d.passwordSent
      authenticated := d.authenticated
      batched := d.batched
      recipientsSent := d.recipientsSent
      succeeded := d.succeeded } = d) : d.Silently next := by
  rw [← h]
  exact ⟨⟨rfl, rfl⟩, rfl, rfl, rfl, rfl⟩

theorem Silently.along {d next : Dialogue} {said : List Command} (h : d.Silently next)
    (ha : d.Along said) : next.Along said := by
  refine ⟨h.issued_eq.trans ha.issued_eq, ?_, ?_⟩
  · rw [h.settings_eq, h.envelope_eq]
    exact ha.inCourse
  · rw [h.toSameTerms.mustEncrypt_eq, h.settings_eq]
    exact ha.clear

theorem Silently.speaks {d next : Dialogue} {said : List Command} {r : Outcome}
    (h : d.Silently next) (hr : next.Speaks said r) : d.Speaks said r := by
  refine ⟨h.toSameTerms.trans hr.terms, ?_⟩
  have hm := h.toSameTerms.mustEncrypt_eq
  cases hr.utters with
  | quiet ht ho => exact .quiet ht (ho.trans h.outbound_eq)
  | aside t ht ho ha =>
    refine .aside t ht (by rw [ho, h.outbound_eq]) ?_
    cases ha with
    | response password hf hp =>
      rw [h.settings_eq]
      exact .response password (hm.symm.trans hf) (h.password_eq.symm.trans hp)
    | body data hf hp =>
      rw [h.envelope_eq] at hp
      exact .body data (hm.symm.trans hf) hp
    | farewell error he => exact .farewell error he
  | command c ht ho => exact .command c ht (by rw [ho, h.outbound_eq])
  | transaction e size ht ho => exact .transaction e size ht (by rw [ho, h.outbound_eq])

theorem silently_settle (d : Dialogue) (awaited : Awaited) (code : Code) :
    d.Silently (settle { d with replyTexts := [] } awaited code) := by
  unfold settle
  split
  · exact ⟨⟨rfl, rfl⟩, rfl, rfl, rfl, rfl⟩
  · split
    · exact ⟨⟨rfl, rfl⟩, rfl, rfl, rfl, rfl⟩
    · exact ⟨⟨rfl, rfl⟩, rfl, rfl, rfl, rfl⟩

/-- A failure says nothing more, but it may leave with an untagged farewell. -/
theorem Along.fail {d : Dialogue} {said : List Command} (h : d.Along said) (error : Error)
    (mayQuit : Bool) : d.Speaks said (d.fail error mayQuit) := by
  rw [fail_eq]
  refine ⟨⟨rfl, rfl⟩, ?_⟩
  have htold : Told { d with
      pipeline := d.pipeline.clear
      phase := .closed
      parked := false
      outbound := d.outbound ++ d.farewell mayQuit } said :=
    ⟨h.issued_eq, .closed said rfl h.inCourse h.clear⟩
  have hfarewell : d.farewell mayQuit = [] ∨ d.farewell mayQuit = [.raw Command.quit.render] := by
    unfold farewell
    split
    · exact Or.inr rfl
    · exact Or.inl rfl
  rcases hfarewell with hnone | hquit
  · refine .quiet htold ?_
    rw [hnone]
    exact List.append_nil _
  · refine .aside (.raw Command.quit.render) htold ?_ (.farewell error rfl)
    rw [hquit]

theorem Along.close {d : Dialogue} {said : List Command} (h : d.Along said) (events : List Event) :
    d.Speaks said (d.close, events) :=
  ⟨⟨rfl, rfl⟩, .quiet ⟨h.issued_eq, .closed said rfl h.inCourse h.clear⟩ rfl⟩

theorem Along.act_fail {d : Dialogue} {said : List Command} (h : d.Along said) (awaited : Awaited)
    (reply : Reply) (text : String) (refusal : Refusal) :
    d.Speaks said (d.act awaited reply text (.fail refusal)) := by
  simp only [act]
  split
  · exact h.close []
  · exact h.fail _ _

/-- A command that is sent is the next that is said, under the next number. -/
theorem told_send {d : Dialogue} {said : List Command} (hi : d.pipeline.issued = said.length)
    (hw : d.pipeline.waiting = []) {c : Command} (hturn : (d.send c).Turn (said ++ [c])) :
    (d.send c).Told (said ++ [c]) ∧
      (d.send c).outbound = d.outbound ++ [.tagged (said.length + 1) c.render] := by
  have hissued : (d.send c).pipeline.issued = (said ++ [c]).length := by
    rw [send_eq d c hw, List.length_append, ← hi]
    rfl
  refine ⟨⟨hissued, hturn⟩, ?_⟩
  rw [send_eq d c hw, ← hi]

/-- A step that sends one command. -/
theorem speaks_send {d : Dialogue} {said : List Command} (hi : d.pipeline.issued = said.length)
    (hw : d.pipeline.waiting = []) {c : Command} (hturn : (d.send c).Turn (said ++ [c]))
    (events : List Event) : d.Speaks said (d.send c, events) := by
  obtain ⟨htold, hout⟩ := told_send hi hw hturn
  exact ⟨⟨rfl, rfl⟩, .command c htold hout⟩

/-- A step that sends a transaction at once. -/
theorem speaks_sendBatch {d : Dialogue} {said : List Command}
    (hi : d.pipeline.issued = said.length) (hw : d.pipeline.waiting = []) {e : Envelope}
    {size : Option Nat} (hturn : (d.sendBatch e size).Turn (said ++ transaction e size)) :
    d.Speaks said (d.sendBatch e size, []) := by
  have hissued : (d.sendBatch e size).pipeline.issued = (said ++ transaction e size).length := by
    rw [sendBatch_eq d e size hw, List.length_append, ← hi]
  refine ⟨⟨rfl, rfl⟩, .transaction e size ⟨hissued, hturn⟩ ?_⟩
  rw [sendBatch_eq d e size hw, ← hi]

structure Idle (d : Dialogue) (said : List Command) : Prop where
  expects : d.Expects .ready false []
  untouched : d.Untouched
  along : d.Along said

theorem Idle.congr {d next : Dialogue} {said : List Command} (h : d.Idle said)
    (hsame : d.SameStanding next) (hsilent : d.Silently next) : next.Idle said :=
  ⟨h.expects.congr hsame, h.untouched.congr hsame, hsilent.along h.along⟩

/-- The next command is said. -/
theorem Idle.speaks_send {d : Dialogue} {said : List Command} (h : d.Idle said) {c : Command}
    (hturn : (d.send c).Turn (said ++ [c])) : d.Speaks said (d.send c, []) :=
  Dialogue.speaks_send h.along.issued_eq h.expects.waiting_eq hturn []

/-- A transaction that begins says all of its commands, or the first of them. -/
theorem Beginning.speaks {d : Dialogue} {r : Outcome} (h : d.Beginning r)
    {secured plainly identified : Bool} (hm : d.mustEncrypt = false)
    (hd : d.Idle (preamble d.settings.clientName secured plainly identified)) :
    d.Speaks (preamble d.settings.clientName secured plainly identified) r := by
  have hu := hd.untouched
  cases h with
  | failed error => exact hd.along.fail error true
  | batch e size he =>
    refine speaks_sendBatch hd.along.issued_eq hd.expects.waiting_eq ?_
    refine .sending secured plainly identified e size (.mail e.sender size) (e.commandsFrom 0) _ he
      hm hu.succeeded_eq (.sender size) (.batch (hd.expects.sendBatch e size) rfl) ?_
    exact List.append_nil _
  | sender e size he =>
    refine hd.speaks_send ?_
    have hflow : (d.send (.mail e.sender size)).Flow e (.mail e.sender size) (e.commandsFrom 0) :=
      .oneByOne (hd.expects.send _) hu.batched_eq
        fun _ => congrArg e.commandsFrom hu.recipientsSent_eq.symm
    refine .sending secured plainly identified e size (.mail e.sender size) (e.commandsFrom 0) _ he
      hm hu.succeeded_eq (.sender size) hflow ?_
    have hbatched : (d.send (.mail e.sender size)).batched = false := hu.batched_eq
    rw [hbatched, if_neg (by simp), transaction_eq, List.append_assoc]
    rfl

/-- Once it has been greeted a dialogue asks for encryption first, and that only if it has said
nothing but the greeting. -/
theorem Negotiation.speaks {d : Dialogue} {r : Outcome} (h : d.Negotiation r)
    {secured plainly : Bool} (hd : d.Idle (preamble d.settings.clientName secured plainly false))
    (hfirst : d.mustEncrypt = true → d.capabilities.supports .startTls = true →
      secured = false ∧ plainly = false) :
    d.Speaks (preamble d.settings.clientName secured plainly false) r := by
  have ha := hd.along
  have hparked : Expects { d with parked := true } .ready true [] :=
    ⟨hd.expects.phase_eq, hd.expects.greetingDue_eq, rfl, hd.expects.waiting_eq,
      hd.expects.inFlight_eq⟩
  have huntouched : Untouched { d with parked := true } :=
    ⟨hd.untouched.batched_eq, hd.untouched.recipientsSent_eq, hd.untouched.succeeded_eq⟩
  cases h with
  | failed error => exact ha.fail error true
  | startTls hm hs =>
    obtain ⟨rfl, rfl⟩ := hfirst hm hs
    refine hd.speaks_send ?_
    exact .opening .startTls _ (hd.expects.send .startTls) (hd.untouched.send .startTls)
      (.secure hm)
  | park hm =>
    exact ⟨⟨rfl, rfl⟩, .quiet ⟨ha.issued_eq, .parked secured plainly hparked huntouched hm⟩ rfl⟩
  | ask hm =>
    refine ⟨⟨rfl, rfl⟩, .quiet ⟨ha.issued_eq, ?_⟩ rfl⟩
    exact .parked secured plainly (hparked.congr (sameStanding_of_eq rfl))
      (huntouched.congr (sameStanding_of_eq rfl)) hm
  | auth hm =>
    have hmark : d.Silently { d with passwordSent := false } := silently_of_eq rfl
    have hready : Idle { d with passwordSent := false } _ := hd.congr (sameStanding_of_eq rfl) hmark
    have hturn : d.startAuth.Turn
        (preamble d.settings.clientName secured plainly false ++ [.auth .plain]) := by
      rw [← preamble_identified]
      exact .opening .auth _ (hready.expects.send _) (hready.untouched.send _)
        (.identify secured plainly hm)
    exact hmark.speaks (hready.speaks_send hturn)
  | begun hm => exact d.beginTransaction_beginning.speaks hm hd

theorem speaks_sendPassword {d : Dialogue} {secured plainly : Bool}
    (hd : d.Expects .ready false [.auth]) (hu : d.Untouched) (hm : d.mustEncrypt = false)
    (ha : d.Along (preamble d.settings.clientName secured plainly true)) :
    d.Speaks (preamble d.settings.clientName secured plainly true) d.sendPassword := by
  unfold sendPassword
  split
  · exact ha.fail _ _
  · split
    · exact ha.fail _ _
    · next password hp =>
      refine ⟨⟨rfl, rfl⟩, .aside _ ⟨ha.issued_eq, ?_⟩ rfl (.response password hm hp)⟩
      exact .opening .auth _ (hd.congr (sameStanding_of_eq rfl))
        (hu.congr (sameStanding_of_eq rfl)) (.identify secured plainly hm)

/-- A complete reply to the greeting of the connection. -/
theorem speaks_reactTo_greeting {d : Dialogue} (hd : d.Expects .connecting false [])
    (hu : d.Untouched) (ha : d.Along []) (reply : Reply) (text : String) {decision : Decision}
    (hl : Decision.Listed reply.code .greeting decision) :
    d.Speaks [] (d.reactTo .greeting reply text decision) := by
  have hsilent := d.silently_settle .greeting reply.code
  cases hl with
  | greet h =>
    let s : Dialogue :=
      { d with replyTexts := [], greetingDue := false, phase := .ready, capabilities := .empty }
    have hready : s.Expects .ready false [] :=
      ⟨rfl, rfl, hd.parked_eq, hd.waiting_eq, hd.inFlight_eq⟩
    have huntouched : s.Untouched := ⟨hu.batched_eq, hu.recipientsSent_eq, hu.succeeded_eq⟩
    have hmark : d.Silently s := silently_of_eq rfl
    have hidle : s.Idle [] := ⟨hready, huntouched, hmark.along ha⟩
    have hturn : (s.send (.ehlo d.settings.clientName)).Turn [.ehlo d.settings.clientName] :=
      .opening .ehlo _ (hready.send _) (huntouched.send _) (.hail false fun _ => rfl)
    exact hmark.speaks (hidle.speaks_send hturn)
  | fail _ refusal => exact hsilent.speaks ((hsilent.along ha).act_fail _ _ _ _)

/-- The server has announced what it can do. -/
theorem Idle.announce {d : Dialogue} {said : List Command} (h : d.Idle said)
    (ho : d.Opened .ehlo said) (caps : Capabilities) :
    d.Speaks said (negotiate { d with capabilities := caps }) := by
  have hmark : d.Silently { d with capabilities := caps } := silently_of_eq rfl
  have hidle : Idle { d with capabilities := caps } said := h.congr (sameStanding_of_eq rfl) hmark
  cases ho with
  | hail secured hs =>
    exact hmark.speaks ((negotiate_negotiation _).speaks hidle fun hm _ => ⟨hs hm, rfl⟩)

/-- The server does not know the newer greeting. -/
theorem Idle.retry {d : Dialogue} {said : List Command} (h : d.Idle said)
    (ho : d.Opened .ehlo said) :
    d.Speaks said (send { d with capabilities := .empty } (.helo d.settings.clientName), []) := by
  have hmark : d.Silently { d with capabilities := .empty } := silently_of_eq rfl
  have hidle : Idle { d with capabilities := .empty } said := h.congr (sameStanding_of_eq rfl) hmark
  cases ho with
  | hail secured hs =>
    refine hmark.speaks (hidle.speaks_send ?_)
    rw [← preamble_plainly]
    exact .opening .helo _ (hidle.expects.send _) (hidle.untouched.send _)
      (.hailPlainly secured hs rfl)

/-- The server knows the older greeting, which announces nothing. -/
theorem Idle.negotiate {d : Dialogue} {said : List Command} (h : d.Idle said)
    (ho : d.Opened .helo said) : d.Speaks said d.negotiate := by
  cases ho with
  | hailPlainly secured hs hc =>
    refine d.negotiate_negotiation.speaks h fun _ hsupports => ?_
    rw [hc] at hsupports
    cases hsupports

/-- The server is ready for the encryption handshake. -/
theorem Idle.awaitHandshake {d : Dialogue} {said : List Command} (h : d.Idle said)
    (ho : d.Opened .startTls said) (ht : d.replyTexts = []) (events : List Event) :
    d.Speaks said (d, events) := by
  cases ho with
  | secure hm =>
    exact ⟨⟨rfl, rfl⟩, .quiet ⟨h.along.issued_eq, .handshake h.expects h.untouched hm ht⟩ rfl⟩

/-- The server knows the user. -/
theorem Idle.beginTransaction {d : Dialogue} {said : List Command} (h : d.Idle said)
    (ho : d.Opened .auth said) :
    d.Speaks said (beginTransaction { d with authenticated := true }) := by
  have hmark : d.Silently { d with authenticated := true } := silently_of_eq rfl
  have hidle : Idle { d with authenticated := true } said := h.congr (sameStanding_of_eq rfl) hmark
  cases ho with
  | identify secured plainly hm =>
    exact hmark.speaks ((beginTransaction_beginning _).speaks hm hidle)

/-- A complete reply to a command before the transaction. -/
theorem speaks_reactTo_opening {d : Dialogue} {verb : Verb} {said : List Command}
    (hd : d.Expects .ready false [verb]) (hu : d.Untouched) (ho : d.Opened verb said)
    (ha : d.Along said) (reply : Reply) (text : String) {decision : Decision}
    (hl : Decision.Listed reply.code (.answer verb) decision) :
    d.Speaks said (d.reactTo (.answer verb) reply text decision) := by
  have hsilent := d.silently_settle (.answer verb) reply.code
  have hfrom := hsilent.along ha
  have hidle (hc : reply.code.isIntermediate = false) :
      (settle { d with replyTexts := [] } (.answer verb) reply.code).Idle said :=
    ⟨hd.settle_answer (by simp) reply.code hc, hu.settle _ _, hfrom⟩
  have hopened : (settle { d with replyTexts := [] } (.answer verb) reply.code).Opened verb said :=
    ho.congr hsilent.toSameTerms fun _ => settle_capabilities _ _ _
  cases hl with
  | sendPassword h =>
    cases ho with
    | identify secured plainly hm =>
      have hmark : d.Silently { d with replyTexts := [] } := silently_of_eq rfl
      rw [reactTo, settle_intermediate d .auth reply.code (by rw [h]; rfl)]
      exact hmark.speaks (speaks_sendPassword (hd.congr (sameStanding_of_eq rfl))
        (hu.congr (sameStanding_of_eq rfl)) hm (hmark.along ha))
  | fail _ refusal => exact hsilent.speaks (hfrom.act_fail _ _ _ _)
  | announce h => exact hsilent.speaks ((hidle (by rw [h]; rfl)).announce hopened _)
  | retry h =>
    have hready := hidle (by rcases h with h | h <;> rw [h] <;> rfl)
    exact hsilent.speaks (hready.retry hopened)
  | negotiate h => exact hsilent.speaks ((hidle (by rw [h]; rfl)).negotiate hopened)
  | encrypt h =>
    have htexts := settle_replyTexts { d with replyTexts := [] } (.answer .startTls) reply.code
    exact hsilent.speaks ((hidle (by rw [h]; rfl)).awaitHandshake hopened htexts _)
  | beginTransaction h => exact hsilent.speaks ((hidle (by rw [h]; rfl)).beginTransaction hopened)
  | firstRecipient | nextRecipient | sendBody | quitAfterData | quitAfterBurl | close => cases ho

/-- The next command of the transaction is the first of those that are left. -/
theorem speaks_sendNextRecipient {d : Dialogue} {secured plainly identified : Bool} {e : Envelope}
    {size : Option Nat} {said : List Command} (he : d.envelope = some e)
    (hm : d.mustEncrypt = false) (hs : d.succeeded = false) (hd : d.Expects .ready false [])
    (hb : d.batched = false) (hi : d.pipeline.issued = said.length)
    (hsaid : said ++ e.commandsFrom d.recipientsSent =
      preamble d.settings.clientName secured plainly identified ++ transaction e size) :
    d.Speaks said (d.sendNextRecipient, []) := by
  obtain ⟨c, rest, hrest, hl⟩ := e.commandsFrom_leads d.recipientsSent
  obtain ⟨named, heq, hnamed⟩ := sendNextRecipient_eq he hrest
  have hmark : d.Silently { d with recipientsSent := named } := silently_of_eq rfl
  have hflow : (Dialogue.send { d with recipientsSent := named } c).Flow e c rest :=
    .oneByOne ((hd.recount named).send c) hb hnamed
  rw [heq]
  refine hmark.speaks (speaks_send (d := { d with recipientsSent := named }) hi hd.waiting_eq ?_ [])
  refine .sending secured plainly identified e size c rest _ he hm hs hl hflow ?_
  have hbatched : (Dialogue.send { d with recipientsSent := named } c).batched = false := hb
  rw [hbatched, if_neg (by simp), List.append_assoc]
  rw [hrest] at hsaid
  exact hsaid

/-- After the sender or a recipient is accepted, the next command has been said already or is said
now. -/
theorem speaks_next {d : Dialogue} {secured plainly identified : Bool} {e : Envelope}
    {size : Option Nat} {c : Command} {rest said : List Command} (he : d.envelope = some e)
    (hm : d.mustEncrypt = false) (hs : d.succeeded = false) (hl : e.Leads c rest)
    (hf : d.Flow e c rest) (hi : d.pipeline.issued = said.length)
    (hsaid : said ++ (if d.batched then [] else rest) =
      preamble d.settings.clientName secured plainly identified ++ transaction e size)
    (hne : rest ≠ []) {verb : Verb} (hv : c.verb = verb) (code : Code)
    (hc : code.isIntermediate = false) :
    let s := settle { d with replyTexts := [] } (.answer verb) code
    d.Speaks said (if s.batched then s else s.sendNextRecipient, []) := by
  intro s
  subst hv
  have hsilent : d.Silently s := d.silently_settle (.answer c.verb) code
  have hse : s.envelope = some e := by simp [s, he]
  have hss : s.succeeded = false := by simp [s, hs]
  have hsb : s.batched = d.batched := by simp [s]
  have hsm : s.mustEncrypt = false := hsilent.toSameTerms.mustEncrypt_eq.trans hm
  have hsi : s.pipeline.issued = said.length := hsilent.issued_eq.trans hi
  have hclient : s.settings.clientName = d.settings.clientName :=
    congrArg Settings.clientName hsilent.settings_eq
  rw [← hclient] at hsaid
  refine hsilent.speaks ?_
  cases hf with
  | oneByOne hd hb hr =>
    have hclear : s.Expects .ready false [] := hd.settle_answer (by simp) code hc
    have hnamed : s.recipientsSent = d.recipientsSent := by simp [s]
    rw [hb, if_neg (by simp), hr hne, ← hnamed] at hsaid
    rw [if_neg (by rw [hsb, hb]; simp)]
    exact speaks_sendNextRecipient hse hsm hss hclear (hsb.trans hb) hsi hsaid
  | batch hd hb =>
    have hleft := hd.settle_answer (by simp) code hc
    obtain ⟨c', rest', rfl, hl'⟩ := hl.next hne
    rw [if_pos (by rw [hsb, hb])]
    refine ⟨⟨rfl, rfl⟩, .quiet ⟨hsi, ?_⟩ rfl⟩
    refine .sending secured plainly identified e size c' rest' said hse hsm hss hl'
      (.batch hleft (hsb.trans hb)) ?_
    rw [hsb, hb, if_pos rfl]
    rw [hb, if_pos rfl] at hsaid
    exact hsaid

/-- A go-ahead is answered with the body, which is no command. -/
theorem speaks_sendBody {d : Dialogue} {said : List Command} (h : d.Told said)
    (hm : d.mustEncrypt = false) : d.Speaks said d.sendBody := by
  unfold sendBody
  split
  · next data hp =>
    have hsame : d.SameStanding (d.put (Body.encode data)) := sameStanding_of_eq rfl
    have hturn : (d.put (Body.encode data)).Turn said :=
      h.turn.congr hsame ⟨rfl, rfl⟩ (fun _ => rfl) fun _ => rfl
    exact ⟨⟨rfl, rfl⟩, .aside _ ⟨h.issued_eq, hturn⟩ rfl (.body data hm hp)⟩
  · exact h.along.fail _ _

/-- A success is followed by the farewell. -/
theorem speaks_succeed {d : Dialogue} {secured plainly identified : Bool} {e : Envelope}
    {size : Option Nat} (he : d.envelope = some e) (hm : d.mustEncrypt = false)
    (hd : d.Expects .ready false [])
    (hi : d.pipeline.issued =
      (preamble d.settings.clientName secured plainly identified ++ transaction e size).length) :
    d.Speaks (preamble d.settings.clientName secured plainly identified ++ transaction e size)
      d.succeed := by
  have hmarked : Expects { d with succeeded := true } .ready false [] :=
    ⟨hd.phase_eq, hd.greetingDue_eq, hd.parked_eq, hd.waiting_eq, hd.inFlight_eq⟩
  have hmark : d.Silently { d with succeeded := true } := silently_of_eq rfl
  refine hmark.speaks (speaks_send (d := { d with succeeded := true }) hi hd.waiting_eq ?_ _)
  exact .leaving secured plainly identified e size he hm (hmarked.send .quit) rfl

/-- A complete reply to a command of the transaction. -/
theorem speaks_reactTo_sending {d : Dialogue} {secured plainly identified : Bool} {e : Envelope}
    {size : Option Nat} {c : Command} {rest said : List Command} (he : d.envelope = some e)
    (hm : d.mustEncrypt = false) (hs : d.succeeded = false) (hl : e.Leads c rest)
    (hf : d.Flow e c rest) (hi : d.pipeline.issued = said.length)
    (hsaid : said ++ (if d.batched then [] else rest) =
      preamble d.settings.clientName secured plainly identified ++ transaction e size)
    {verb : Verb} (hv : c.verb = verb) (reply : Reply) (text : String) {decision : Decision}
    (hd : Decision.Listed reply.code (.answer verb) decision) :
    d.Speaks said (d.reactTo (.answer verb) reply text decision) := by
  have hturn : d.Turn said :=
    .sending secured plainly identified e size c rest said he hm hs hl hf hsaid
  have hsilent := d.silently_settle (.answer verb) reply.code
  have hfrom := hsilent.along ⟨hi, hturn.inCourse, hturn.clear⟩
  have hclient := congrArg Settings.clientName hsilent.settings_eq
  have hmust := hsilent.toSameTerms.mustEncrypt_eq
  cases hl.transactionReply hv hd with
  | accepted move hmove hne hc =>
    have hnext := speaks_next he hm hs hl hf hi hsaid hne hv reply.code hc
    rcases hmove with rfl | rfl <;> exact hnext
  | goAhead hdata _ hc =>
    have hmark : d.Silently { d with replyTexts := [] } := silently_of_eq rfl
    have htold : Told { d with replyTexts := [] } said :=
      ⟨hi, .sending secured plainly identified e size c rest said he hm hs hl
        (hf.congr (sameStanding_of_eq rfl)) hsaid⟩
    subst hdata
    rw [reactTo, settle_intermediate d .data reply.code hc]
    exact hmark.speaks (speaks_sendBody htold hm)
  | taken hrest hc =>
    subst hrest hv
    have hready := hf.settle_last reply.code hc
    have henvelope := settle_envelope { d with replyTexts := [] } (.answer c.verb) reply.code
    obtain rfl : said =
        preamble d.settings.clientName secured plainly identified ++ transaction e size := by
      rw [← hsaid]
      split <;> exact (List.append_nil said).symm
    refine hsilent.speaks ?_
    rw [← hclient] at hfrom ⊢
    exact speaks_succeed (henvelope.trans he) (hmust.trans hm) hready hfrom.issued_eq
  | refused refusal => exact hsilent.speaks (hfrom.act_fail _ _ _ _)

/-- A complete reply, wherever the dialogue stands. -/
theorem Told.reactTo {d : Dialogue} {said : List Command} (h : d.Told said)
    (hopen : d.isFinished = false) {awaited : Awaited} (hw : d.awaited = some awaited)
    (reply : Reply) (text : String) {decision : Decision}
    (hl : Decision.Listed reply.code awaited decision) :
    d.Speaks said (d.reactTo awaited reply text decision) := by
  have hsame {awaited' : Awaited} (hw' : d.awaited = some awaited') : awaited' = awaited :=
    Option.some.inj (hw'.symm.trans hw)
  have ha := h.along
  cases h.turn with
  | silent phase hp hd hu =>
    rcases hp with rfl | rfl
    · simp [hd.awaited_eq_none] at hw
    · obtain rfl := hsame hd.awaited_eq_greeting
      exact speaks_reactTo_greeting hd hu ha reply text hl
  | opening verb said hd hu ho =>
    obtain rfl := hsame (hd.awaited_eq_answer (by simp))
    exact speaks_reactTo_opening hd hu ho ha reply text hl
  | parked secured plainly hd => simp [hd.awaited_eq_none] at hw
  | handshake hd => simp [hd.awaited_eq_none] at hw
  | sending secured plainly identified e size c rest said he hm hs hleads hf hsaid =>
    obtain rfl := hsame hf.awaited_eq
    exact speaks_reactTo_sending he hm hs hleads hf h.issued_eq hsaid rfl reply text hl
  | leaving secured plainly identified e size he hm hd hs =>
    obtain rfl := hsame (hd.awaited_eq_answer (by simp))
    have hsilent := d.silently_settle (.answer .quit) reply.code
    rw [reactTo_leaving hs reply text hl]
    exact hsilent.speaks ((hsilent.along ha).close [])
  | closed _ hclosed => simp [isFinished, hclosed] at hopen

/-- A line of a reply that goes on says nothing. -/
theorem Told.holdLine {d : Dialogue} {said : List Command} (h : d.Told said) (reply : Reply)
    {awaited : Awaited} (hw : d.awaited = some awaited) :
    (d.holdLine reply (Decision.of awaited reply.code)).Told said := by
  have htexts {P : Prop} (hnone : d.awaited = none) : P := by simp [hw] at hnone
  unfold Dialogue.holdLine
  split
  · next hannounce =>
    refine ⟨h.issued_eq, h.turn.congr (sameStanding_of_eq rfl) ⟨rfl, rfl⟩ (fun hhelo => ?_)
      fun hnone => htexts hnone⟩
    have hl := Decision.listed_of awaited reply.code
    rw [hannounce] at hl
    cases hl with
    | announce =>
      rw [hw] at hhelo
      cases hhelo
  · exact ⟨h.issued_eq, h.turn.congr (sameStanding_of_eq rfl) ⟨rfl, rfl⟩ (fun _ => rfl)
      fun hnone => htexts hnone⟩

theorem Told.takeLine {d : Dialogue} {said : List Command} (h : d.Told said) (line : Bytes) :
    d.Speaks said (d.takeLine line) := by
  have hread := d.takeLine_reading line
  generalize d.takeLine line = r at hread ⊢
  cases hread with
  | closed => exact ⟨⟨rfl, rfl⟩, .quiet h rfl⟩
  | malformed error => exact h.along.fail error true
  | unasked reply => exact h.along.fail _ true
  | held reply awaited _ _ hw =>
    have hmark : d.SameTerms (d.holdLine reply (Decision.of awaited reply.code)) ∧
        (d.holdLine reply (Decision.of awaited reply.code)).outbound = d.outbound := by
      unfold Dialogue.holdLine
      split <;> exact ⟨⟨rfl, rfl⟩, rfl⟩
    exact ⟨hmark.1, .quiet (h.holdLine reply hw) hmark.2⟩
  | completed reply awaited hopen _ hw _ =>
    exact h.reactTo hopen hw reply _ (Decision.listed_of awaited reply.code)

/-- Before the connection is there nothing has been said. -/
theorem Turn.of_disconnected {d : Dialogue} {said : List Command} (h : d.Turn said)
    (hp : d.phase = .disconnected) :
    said = [] ∧ d.Expects .disconnected false [] ∧ d.Untouched := by
  cases h with
  | silent phase _ hd hu =>
    obtain rfl : phase = .disconnected := hd.phase_eq.symm.trans hp
    exact ⟨rfl, hd, hu⟩
  | opening verb said hd => simp [hd.phase_eq] at hp
  | parked secured plainly hd => simp [hd.phase_eq] at hp
  | handshake hd => simp [hd.phase_eq] at hp
  | sending secured plainly identified e size c rest said he hm hs hl hf =>
    obtain ⟨phase, verbs, hopen, hd, -⟩ := hf.expects
    rw [hd.phase_eq] at hp
    subst hp
    cases hopen
  | leaving secured plainly identified e size he hm hd => simp [hd.phase_eq] at hp
  | closed _ hclosed => simp [hclosed] at hp

/-- While the password is waited for, authentication is what comes next. -/
theorem Turn.of_parked {d : Dialogue} {said : List Command} (h : d.Turn said)
    (hp : d.parked = true) (hopen : d.isFinished = false) :
    d.Expects .ready true [] ∧ d.Untouched ∧ d.mustEncrypt = false ∧
      ∃ secured plainly, said = preamble d.settings.clientName secured plainly false := by
  cases h with
  | silent phase _ hd => simp [hd.parked_eq] at hp
  | opening verb said hd => simp [hd.parked_eq] at hp
  | parked secured plainly hd hu hm => exact ⟨hd, hu, hm, secured, plainly, rfl⟩
  | handshake hd => simp [hd.parked_eq] at hp
  | sending secured plainly identified e size c rest said he hm hs hl hf =>
    obtain ⟨phase, verbs, -, hd, -⟩ := hf.expects
    simp [hd.parked_eq] at hp
  | leaving secured plainly identified e size he hm hd => simp [hd.parked_eq] at hp
  | closed _ hclosed => simp [isFinished, hclosed] at hopen

/-- A dialogue that is ready and has nothing in flight waits for the encryption handshake. -/
theorem Turn.of_clear {d : Dialogue} {said : List Command} (h : d.Turn said)
    (hd : d.Expects .ready false []) :
    said = [.ehlo d.settings.clientName, .startTls] ∧ d.Untouched ∧ d.mustEncrypt = true ∧
      d.replyTexts = [] := by
  have hidle := hd.awaited_eq_none (by simp)
  cases h with
  | silent phase hp hd' =>
    rcases hp with rfl | rfl
    · have hphase := hd'.phase_eq.symm.trans hd.phase_eq
      cases hphase
    · simp [hd'.awaited_eq_greeting] at hidle
  | opening verb said hd' => simp [hd'.awaited_eq_answer] at hidle
  | parked secured plainly hd' =>
    have hparked := hd'.parked_eq.symm.trans hd.parked_eq
    cases hparked
  | handshake _ hu hm ht => exact ⟨rfl, hu, hm, ht⟩
  | sending secured plainly identified e size c rest said he hm hs hl hf =>
    simp [hf.awaited_eq] at hidle
  | leaving secured plainly identified e size he hm hd' => simp [hd'.awaited_eq_answer] at hidle
  | closed _ hclosed =>
    have hphase := hclosed.symm.trans hd.phase_eq
    cases hphase

end Dialogue

end SmtpClient
