import SmtpClient.Proofs.Operations
import SmtpClient.Proofs.Progress

namespace SmtpClient

def Entry.written? : Entry → Option Bytes
  | writeAttempt data | write data => some data
  | _ => none

def Entry.encrypts : Entry → Bool
  | connect _ _ encrypted => encrypted
  | call c => c = .encrypted
  | _ => false

def Throughout (entries : List Entry) (P : List Entry → Entry → Prop) : Prop :=
  ∀ before e later, entries = before ++ e :: later → P before e

theorem throughout_nil (P : List Entry → Entry → Prop) : Throughout [] P := by
  intro before e later heq
  simp at heq

theorem Throughout.snoc {entries : List Entry} {P : List Entry → Entry → Prop}
    (h : Throughout entries P) {last : Entry} (hlast : P entries last) :
    Throughout (entries ++ [last]) P := by
  intro before e later heq
  rcases List.eq_nil_or_concat later with rfl | ⟨later', last', rfl⟩
  · obtain ⟨rfl, he⟩ := List.append_inj' heq rfl
    cases he
    exact hlast
  · have hsplit : entries ++ [last] = (before ++ e :: later') ++ [last'] := by simpa using heq
    obtain ⟨rfl, -⟩ := List.append_inj' hsplit rfl
    exact h before e later' rfl

/-- New entries that hold whatever stands before them may be added. -/
theorem Throughout.append {entries : List Entry} {P : List Entry → Entry → Prop}
    (h : Throughout entries P) (new : List Entry) (hnew : ∀ e ∈ new, ∀ before, P before e) :
    Throughout (entries ++ new) P := by
  induction new using List.reverseRecOn with
  | nil => rwa [List.append_nil]
  | append_singleton new last ih =>
    rw [← List.append_assoc]
    have hbefore := ih fun e he => hnew e (List.mem_append_left _ he)
    exact hbefore.snoc (hnew last (by simp) _)

def Settings.connection (settings : Settings) : Entry :=
  .connect settings.host settings.port settings.usesImplicitTls

variable {settings : Settings} {upgrade : List Step → Ending}

/-- What an entry owes to those before it. Data is written over a connection that was made, and the
dialogue has put it out; the dialogue is told of the encryption after a handshake that succeeded;
and the connection is shut down as it was. -/
structure Accounted (settings : Settings) (upgrade : List Step → Ending) (before : List Entry)
    (e : Entry) : Prop where
  connected : e.written?.isSome → settings.connection ∈ before
  written : ∀ data, e.written? = some data →
    ∃ t ∈ (Dialogue.start settings).putOut (callsOf before), t.data = data
  secured : e = .call .encrypted → before.getLast? = some (.upgrade settings.host) ∧
    ∃ steps now later,
      (upgrade steps).within settings.exchangeTimeout "TLS handshake" now = (.ok (), later)
  shut : ∀ encrypted, e = .shutdown encrypted → encrypted = before.any Entry.encrypts

theorem accounted_call (before : List Entry) {c : Call} (hc : c ≠ .encrypted) :
    Accounted settings upgrade before (.call c) :=
  ⟨by simp [Entry.written?], by simp [Entry.written?], by simp [hc], by simp⟩

theorem accounted_event (before : List Entry) (e : Event) :
    Accounted settings upgrade before (.event e) :=
  ⟨by simp [Entry.written?], by simp [Entry.written?], by simp, by simp⟩

/-- Data that the dialogue has put out may be written once the connection is made. -/
theorem accounted_written {before : List Entry} {e : Entry} {t : Transmit}
    (he : e.written? = some t.data) (hmade : settings.connection ∈ before)
    (ht : t ∈ (Dialogue.start settings).putOut (callsOf before)) :
    Accounted settings upgrade before e := by
  refine ⟨fun _ => hmade, fun data hdata => ?_, ?_, ?_⟩
  · rw [he] at hdata
    obtain rfl := Option.some.inj hdata
    exact ⟨t, ht, rfl⟩
  · rintro rfl
    cases he
  · rintro encrypted rfl
    cases he

theorem callsOf_append (before later : List Entry) :
    callsOf (before ++ later) = callsOf before ++ callsOf later := List.filterMap_append

/-- What is noted after a call are events, so the entries hold that one call. -/
theorem callsOf_told (c : Call) (noted : List Event) :
    callsOf (Entry.call c :: noted.map .event) = [c] := by
  have hnone : callsOf (noted.map .event) = [] := by
    simp [callsOf, List.filterMap_map, Entry.call?]
  change c :: callsOf (noted.map .event) = [c]
  rw [hnone]

namespace Session

structure Replays (settings : Settings) (upgrade : List Step → Ending) (s : Session) : Prop where
  dialogue_eq : s.dialogue = (Dialogue.start settings).after (callsOf s.entries)
  accounted : Throughout s.entries (Accounted settings upgrade)

variable {s t : Session} {encrypted : Bool}

theorem Replays.settings_eq (h : s.Replays settings upgrade) : s.dialogue.settings = settings := by
  rw [h.dialogue_eq, Dialogue.settings_after]

/-- An entry that is no call leaves the dialogue where it is. -/
theorem Replays.log (h : s.Replays settings upgrade) {e : Entry} (hcall : e.call? = none)
    (he : Accounted settings upgrade s.entries e) : (s.log e).Replays settings upgrade := by
  have hcalls : callsOf (s.log e).entries = callsOf s.entries := by
    rw [entries_log, callsOf_append]
    simp [callsOf, hcall]
  refine ⟨?_, ?_⟩
  · rw [hcalls]
    exact h.dialogue_eq
  · rw [entries_log]
    exact h.accounted.snoc he

/-- A call that is accounted for leads the dialogue on, and so does its entry. -/
theorem Replays.call (h : s.Replays settings upgrade) {c : Call}
    (hc : Accounted settings upgrade s.entries (.call c)) :
    (s.call c).Replays settings upgrade := by
  refine ⟨?_, ?_⟩
  · rw [entries_call, callsOf_append, callsOf_told, Dialogue.after_snoc, ← h.dialogue_eq]
    exact s.call_dialogue c
  · rw [entries_call, List.append_cons]
    refine (h.accounted.snoc hc).append _ fun e he before => ?_
    obtain ⟨event, -, rfl⟩ := List.mem_map.mp he
    exact accounted_event before event

/-- The connection is encrypted by no other call than the one that says so. -/
theorem any_encrypts_call (s : Session) (c : Call) :
    (s.call c).entries.any Entry.encrypts =
      (s.entries.any Entry.encrypts || c = .encrypted) := by
  have hnoted (noted : List Event) : (noted.map Entry.event).any Entry.encrypts = false := by
    simp [Entry.encrypts]
  rw [entries_call, List.any_append, List.any_cons, hnoted, Bool.or_false]
  rfl

structure Connected (settings : Settings) (upgrade : List Step → Ending) (encrypted : Bool)
    (s : Session) : Prop extends Replays settings upgrade s where
  made : settings.connection ∈ s.entries
  encrypts_eq : s.entries.any Entry.encrypts = encrypted

/-- The connection is encrypted from the moment at which the dialogue is told so. -/
theorem Connected.call (h : s.Connected settings upgrade encrypted) {c : Call}
    (hc : Accounted settings upgrade s.entries (.call c)) :
    (s.call c).Connected settings upgrade (encrypted || c = .encrypted) := by
  refine ⟨h.toReplays.call hc, ?_, ?_⟩
  · rw [entries_call]
    exact List.mem_append_left _ h.made
  · rw [any_encrypts_call, h.encrypts_eq]

theorem Connected.tell (h : s.Connected settings upgrade encrypted) {c : Call}
    (hc : c ≠ .encrypted) : (s.call c).Connected settings upgrade encrypted := by
  have hcall := h.call (accounted_call s.entries hc)
  rwa [decide_eq_false hc, Bool.or_false] at hcall

/-- What is done between two operations touches neither the connection nor its encryption. -/
theorem Connected.interlude (h : s.Connected settings upgrade encrypted) (hi : s.Interlude t) :
    t.Connected settings upgrade encrypted ∧ t.encrypted = s.encrypted := by
  cases hi with
  | call c hc => exact ⟨h.tell hc, s.call_encrypted c⟩
  | wait => exact ⟨⟨⟨h.dialogue_eq, h.accounted⟩, h.made, h.encrypts_eq⟩, rfl⟩

theorem Connected.congr (h : s.Connected settings upgrade encrypted)
    (hdialogue : t.dialogue = s.dialogue) (hentries : t.entries = s.entries) :
    t.Connected settings upgrade encrypted := by
  refine ⟨⟨?_, ?_⟩, ?_, ?_⟩
  · rw [hdialogue, hentries]
    exact h.dialogue_eq
  · rw [hentries]
    exact h.accounted
  · rw [hentries]
    exact h.made
  · rw [hentries]
    exact h.encrypts_eq

/-- An entry that is no call and makes no connection encrypted. -/
theorem Connected.log (h : s.Connected settings upgrade encrypted) {e : Entry}
    (hcall : e.call? = none) (hencrypts : e.encrypts = false)
    (he : Accounted settings upgrade s.entries e) :
    (s.log e).Connected settings upgrade encrypted := by
  refine ⟨h.toReplays.log hcall he, ?_, ?_⟩
  · rw [entries_log]
    exact List.mem_append_left _ h.made
  · rw [entries_log, List.any_append, h.encrypts_eq]
    simp [hencrypts]

/-- Data that the dialogue has put out is written, or it is tried. -/
theorem Connected.write (h : s.Connected settings upgrade encrypted) {t : Transmit}
    (ht : t ∈ (Dialogue.start settings).putOut (callsOf s.entries)) :
    (s.write t.data).2.Connected settings upgrade encrypted := by
  have hlog {s : Session} (h : s.Connected settings upgrade encrypted)
      (ht : t ∈ (Dialogue.start settings).putOut (callsOf s.entries)) {e : Entry}
      (he : e.written? = some t.data) (hcall : e.call? = none) (hencrypts : e.encrypts = false) :
      (s.log e).Connected settings upgrade encrypted :=
    h.log hcall hencrypts (accounted_written he h.made ht)
  have htried := hlog h ht (e := .writeAttempt t.data) rfl rfl rfl
  have hcalls : callsOf (s.log (.writeAttempt t.data)).entries = callsOf s.entries := by
    rw [entries_log, callsOf_append]
    exact List.append_nil _
  obtain ⟨hdialogue, -, hentries | hentries | hentries⟩ := s.write_cases t.data
  · rw [← entries_log] at hentries
    exact htried.congr hdialogue hentries
  · rw [← entries_log] at hentries
    exact (hlog h ht (e := .write t.data) rfl rfl rfl).congr hdialogue hentries
  · rw [← entries_log, ← entries_log] at hentries
    rw [← hcalls] at ht
    exact (hlog htried ht (e := .write t.data) rfl rfl rfl).congr hdialogue hentries

/-- The handshake is noted before it is known how it ends. -/
theorem Connected.upgrading (h : s.Connected settings upgrade encrypted) (now : Moment)
    (ended : Bool) :
    Connected settings upgrade encrypted { s.upgrading with now := now, encrypted := ended } := by
  have hentry : Accounted settings upgrade s.entries (.upgrade s.dialogue.settings.host) :=
    ⟨by simp [Entry.written?], by simp [Entry.written?], by simp, by simp⟩
  have hlog := h.log (e := .upgrade s.dialogue.settings.host) rfl rfl hentry
  exact hlog.congr rfl rfl

/-- The dialogue is told of a handshake that has succeeded. -/
theorem Replays.accounted_secured (h : s.Replays settings upgrade) {now : Moment}
    (hok : s.handshake upgrade = (.ok (), now)) :
    Accounted settings upgrade s.upgrading.entries (.call .encrypted) := by
  have hlast : s.upgrading.entries.getLast? = some (.upgrade settings.host) := by
    rw [← h.settings_eq, Session.upgrading, entries_log]
    exact List.getLast?_concat
  rw [handshake, h.settings_eq] at hok
  exact ⟨by simp [Entry.written?], by simp [Entry.written?],
    fun _ => ⟨hlast, s.steps, s.now, now, hok⟩, by simp⟩

/-- Every operation keeps what the trace tells. -/
theorem Connected.operation (h : s.Connected settings upgrade s.encrypted)
    (ho : s.Operation upgrade t) : t.Connected settings upgrade t.encrypted := by
  cases ho with
  | interlude _ hi =>
    obtain ⟨hnext, hencrypted⟩ := h.interlude hi
    rw [hencrypted]
    exact hnext
  | write t later hout =>
    have hpoll := h.tell (c := .poll) (by simp)
    have ht : t ∈ (Dialogue.start settings).putOut (callsOf (s.call .poll).entries) := by
      rw [entries_call, callsOf_append, callsOf_told, Dialogue.putOut_snoc]
      apply List.mem_append_left
      apply List.mem_append_right
      rw [← h.dialogue_eq, hout]
      exact List.mem_cons_self
    rw [((s.call .poll).write_cases t.data).2.1, call_encrypted]
    exact hpoll.write ht
  | secured now _ hok =>
    have hdone := (h.upgrading now true).call (h.accounted_secured hok)
    rw [call_encrypted]
    rwa [decide_eq_true rfl, Bool.or_true] at hdone
  | unsecured now error =>
    have hlost := (h.upgrading now s.encrypted).tell (c := .lost error) (by simp)
    rw [call_encrypted]
    exact hlost

/-- Whatever is done over the connection, the trace goes on to tell whether it is encrypted. -/
theorem Connected.operations (h : s.Connected settings upgrade s.encrypted)
    (ho : s.Operations upgrade t) : t.Connected settings upgrade t.encrypted := by
  induction ho with
  | refl => exact h
  | tail _ hlast ih => exact ih.operation hlast

theorem Connected.interludes (h : s.Connected settings upgrade encrypted)
    (hi : s.Interludes t) : t.Connected settings upgrade encrypted := by
  induction hi with
  | refl => exact h
  | tail _ hlast ih => exact (ih.interlude hlast).1

structure Unconnected (settings : Settings) (upgrade : List Step → Ending) (s : Session) : Prop
    extends Replays settings upgrade s where
  clear : s.entries.any Entry.encrypts = false

theorem Unconnected.tell (h : s.Unconnected settings upgrade) {c : Call} (hc : c ≠ .encrypted) :
    (s.call c).Unconnected settings upgrade := by
  refine ⟨h.toReplays.call (accounted_call s.entries hc), ?_⟩
  rw [any_encrypts_call, h.clear, decide_eq_false hc]
  rfl

theorem unconnected_start (settings : Settings) (password : Option String) (script : Script) :
    (start settings password script).Unconnected settings upgrade := by
  have hfresh : Unconnected settings upgrade
      ⟨.start settings, script.steps, [], false, 0, [], false, none⟩ :=
    ⟨⟨rfl, throughout_nil _⟩, rfl⟩
  cases password with
  | none => exact hfresh
  | some text => exact hfresh.tell (by simp)

/-- Nothing but the entry of the connection tells whether it is encrypted from the start. -/
theorem Unconnected.connect (h : s.Unconnected settings upgrade) :
    (s.log settings.connection).Connected settings upgrade settings.usesImplicitTls := by
  have hentry : Accounted settings upgrade s.entries settings.connection :=
    ⟨by simp [Entry.written?, Settings.connection], by simp [Entry.written?, Settings.connection],
      by simp [Settings.connection], by simp [Settings.connection]⟩
  refine ⟨h.toReplays.log rfl hentry, ?_, ?_⟩
  · rw [entries_log]
    exact List.mem_append_right _ (List.mem_singleton_self _)
  · rw [entries_log, List.any_append, h.clear]
    exact Bool.or_false _

theorem Connected.shutdown (h : s.Connected settings upgrade s.encrypted) (ending : Ending) :
    (s.shutdown ending).Replays settings upgrade := by
  have hshut : Accounted settings upgrade s.entries (.shutdown s.encrypted) := by
    refine ⟨by simp [Entry.written?], by simp [Entry.written?], by simp, ?_⟩
    rintro encrypted heq
    cases heq
    exact h.encrypts_eq.symm
  have hlog := h.toReplays.log (e := .shutdown s.encrypted) rfl hshut
  exact ⟨hlog.dialogue_eq, hlog.accounted⟩

/-- An exchange replays from its trace to its end. -/
theorem Connected.converse {script : Script}
    (h : s.Connected settings script.upgrade s.encrypted) :
    (s.converse script).2.Replays settings script.upgrade := by
  have htold :
      (s.call .connected).Connected settings script.upgrade (s.call .connected).encrypted := by
    rw [call_encrypted]
    exact h.tell (by simp)
  have hended := htold.operations (operations_exchange _)
  unfold Session.converse
  split
  · next ended heq =>
    rw [heq] at hended
    exact hended.toReplays
  · next ended heq =>
    rw [heq] at hended
    exact hended.toReplays
  · next ended heq =>
    rw [heq] at hended
    exact hended.shutdown script.shutdown

/-- A submission replays from its trace, whether or not it gets a connection. -/
theorem Unconnected.drive {script : Script} (h : s.Unconnected settings script.upgrade) :
    (s.drive script).2.Replays settings script.upgrade := by
  obtain rfl := h.settings_eq
  have hmade := h.connect.interludes (interludes_connectWith (s.log s.dialogue.settings.connection)
    (s.now + s.dialogue.settings.connectTimeout.nanos) script.connect script.delays)
  rw [Settings.connection] at hmade
  unfold Session.drive
  dsimp only
  split
  · next ended heq =>
    rw [heq] at hmade
    exact hmade.toReplays
  · next error ended heq =>
    rw [heq] at hmade
    exact hmade.toReplays.call (accounted_call _ (by simp))
  · next connected heq =>
    rw [heq] at hmade
    have hbegun : Connected s.dialogue.settings script.upgrade s.dialogue.settings.usesImplicitTls
        { connected with encrypted := s.dialogue.settings.usesImplicitTls } := hmade.congr rfl rfl
    exact hbegun.converse

/-- Whatever happens, the dialogue of a submission is where the calls of its trace lead, and its
entries are accounted for. -/
theorem replays_run (settings : Settings) (password : Option String)
    (envelope : Except Error Envelope) (script : Script) :
    (run settings password envelope script).2.Replays settings script.upgrade := by
  have hstart : (start settings password script).Unconnected settings script.upgrade :=
    unconnected_start settings password script
  have hrefused (error : Error) :
      ((start settings password script).log (.event (.failed error))).Replays settings
        script.upgrade :=
    hstart.toReplays.log rfl (accounted_event _ _)
  unfold run
  dsimp only
  split
  · next error => exact hrefused error
  · next e =>
    split
    · next error _ => exact hrefused error
    · exact (hstart.tell (c := .submit e) (by simp)).drive

end Session

end SmtpClient
