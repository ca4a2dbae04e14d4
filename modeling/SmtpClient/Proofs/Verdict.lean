import SmtpClient.Proofs.Confidential
import SmtpClient.Proofs.SingleOutcome

namespace SmtpClient

def Entry.event? : Entry → Option Event
  | event e => some e
  | _ => none

def seenOf (entries : List Entry) : List Event := entries.filterMap Entry.event?

def Event.failure? : Event → Option Error
  | failed error => some error
  | _ => none

def Event.ofResult : Except Error Unit → Event
  | .ok _ => succeeded
  | .error error => failed error

def lastFailure (events : List Event) : Option Error := (events.filterMap Event.failure?).getLast?

theorem lastFailure_append (events later : List Event) :
    lastFailure (events ++ later) = (lastFailure later).or (lastFailure events) := by
  rw [lastFailure, List.filterMap_append, List.getLast?_append]
  rfl

theorem seenOf_append (before later : List Entry) :
    seenOf (before ++ later) = seenOf before ++ seenOf later := List.filterMap_append

theorem seenOf_told (c : Call) (noted : List Event) :
    seenOf (Entry.call c :: noted.map .event) = noted := by
  change seenOf (noted.map .event) = noted
  rw [seenOf, List.filterMap_map]
  exact List.filterMap_some

namespace Session

/-- What is kept of the events is the failure that comes last among them. -/
theorem foldl_report_error (s : Session) (es : List Event) :
    (es.foldl report s).error = (lastFailure es).or s.error := by
  induction es generalizing s with
  | nil => rfl
  | cons e later ih =>
    rw [List.foldl_cons, ih, ← List.singleton_append, lastFailure_append, Option.or_assoc]
    cases e <;> rfl

/-- The handshake becomes due when the dialogue asks for it. -/
theorem foldl_report_upgradeDue (s : Session) (es : List Event) :
    (es.foldl report s).upgradeDue.toNat ≤ s.upgradeDue.toNat + es.count .encryptionDue := by
  induction es generalizing s with
  | nil => exact Nat.le_refl _
  | cons e later ih =>
    have hrest := ih (s.report e)
    rw [List.foldl_cons, List.count_cons]
    cases e with
    | encryptionDue =>
      have hone : (s.report .encryptionDue).upgradeDue.toNat = 1 := rfl
      simp only [beq_self_eq_true, if_pos]
      omega
    | _ => exact Nat.le_trans hrest (Nat.add_le_add_left (Nat.le_add_right _ _) _)

/-- What a session has made of what its dialogue has reported: the caller has seen it, the last
failure is kept, and the handshakes that were done or are due have been asked for. -/
structure Attends (settings : Settings) (s : Session) : Prop where
  dialogue_eq : s.dialogue = (Dialogue.start settings).after (callsOf s.entries)
  seen_eq : seenOf s.entries =
    ((Dialogue.start settings).events (callsOf s.entries)).filter Event.isSeen
  error_eq : s.error = lastFailure ((Dialogue.start settings).events (callsOf s.entries))
  orderly : Dialogue.EncryptsWhenDue settings (callsOf s.entries)
  due_le : (callsOf s.entries).count .encrypted + s.upgradeDue.toNat ≤
    ((Dialogue.start settings).events (callsOf s.entries)).count .encryptionDue

variable {settings : Settings} {upgrade : List Step → Ending} {s t : Session}

/-- What is no call and no event changes nothing. -/
theorem Attends.congr (h : s.Attends settings) (hdialogue : t.dialogue = s.dialogue)
    (hcalls : callsOf t.entries = callsOf s.entries) (hseen : seenOf t.entries = seenOf s.entries)
    (herror : t.error = s.error) (hdue : t.upgradeDue.toNat ≤ s.upgradeDue.toNat) :
    t.Attends settings := by
  obtain ⟨hd, hs, he, ho, hcount⟩ := h
  rw [← hdialogue, ← hcalls] at hd
  rw [← hseen, ← hcalls] at hs
  rw [← herror, ← hcalls] at he
  rw [← hcalls] at ho hcount
  exact ⟨hd, hs, he, ho, by omega⟩

/-- A call leaves the session with all that was reported passed on, and with the handshakes that are
due. -/
theorem Attends.call (h : s.Attends settings) {c : Call}
    (hc : c = .encrypted → (callsOf s.entries).count .encrypted + s.upgradeDue.toNat <
      ((Dialogue.start settings).events (callsOf s.entries)).count .encryptionDue) :
    (s.call c).Attends settings := by
  have hcalls : callsOf (s.call c).entries = callsOf s.entries ++ [c] := by
    rw [entries_call, callsOf_append, callsOf_told]
  have hseen : seenOf (s.call c).entries =
      seenOf s.entries ++ (s.dialogue.eventsOf c).filter Event.isSeen := by
    rw [entries_call, seenOf_append, seenOf_told]
  have herror : (s.call c).error = (lastFailure (s.dialogue.eventsOf c)).or s.error :=
    foldl_report_error _ _
  have hdue : (s.call c).upgradeDue.toNat ≤
      s.upgradeDue.toNat + (s.dialogue.eventsOf c).count .encryptionDue :=
    foldl_report_upgradeDue _ _
  have hone : [c].count .encrypted = if c = .encrypted then 1 else 0 := by
    simp [List.count_cons]
  have hbefore := h.due_le
  refine ⟨?_, ?_, ?_, ?_, ?_⟩
  · rw [hcalls, Dialogue.after_snoc, call_dialogue, h.dialogue_eq]
  · rw [hseen, hcalls, Dialogue.events_snoc, List.filter_append, h.seen_eq, h.dialogue_eq]
  · rw [herror, hcalls, Dialogue.events_snoc, lastFailure_append, h.error_eq, h.dialogue_eq]
  · rw [hcalls]
    exact h.orderly.snoc fun heq => by
      have hlt := hc heq
      omega
  · rw [hcalls, Dialogue.events_snoc, List.count_append, List.count_append, hone, ← h.dialogue_eq]
    split
    · next heq =>
      have hlt := hc heq
      omega
    · omega

theorem Attends.tell (h : s.Attends settings) {c : Call} (hc : c ≠ .encrypted) :
    (s.call c).Attends settings := h.call fun heq => absurd heq hc

/-- An entry that is neither a call nor an event. -/
theorem Attends.log (h : s.Attends settings) {e : Entry} (hcall : e.call? = none)
    (hevent : e.event? = none) : (s.log e).Attends settings := by
  refine h.congr rfl ?_ ?_ rfl (Nat.le_refl _)
  · rw [entries_log, callsOf_append]
    simp [callsOf, hcall]
  · rw [entries_log, seenOf_append]
    simp [seenOf, hevent]

theorem Attends.interlude (h : s.Attends settings) (hi : s.Interlude t) : t.Attends settings := by
  cases hi with
  | call c hc => exact h.tell hc
  | wait => exact h.congr rfl rfl rfl rfl (Nat.le_refl _)

theorem Attends.write (h : s.Attends settings) (data : Bytes) :
    (s.write data).2.Attends settings := by
  unfold Session.write
  split
  · next ending later _ =>
    have hread : Attends settings { s with steps := later } :=
      h.congr rfl rfl rfl rfl (Nat.le_refl _)
    have htried (now : Moment) :
        Attends settings { Session.log { s with steps := later } (.writeAttempt data) with
          now := now } :=
      (hread.log (e := .writeAttempt data) rfl rfl).congr rfl rfl rfl rfl (Nat.le_refl _)
    dsimp only
    split
    · exact (htried _).log rfl rfl
    · exact htried _
  · exact h.log rfl rfl

/-- A handshake that has begun is no longer due. -/
theorem Attends.upgrading (h : s.Attends settings) (now : Moment) (encrypted : Bool) :
    Attends settings { s.upgrading with now := now, encrypted := encrypted } := by
  have hlog := h.log (e := .upgrade s.dialogue.settings.host) rfl rfl
  exact hlog.congr rfl rfl rfl rfl (Nat.zero_le _)

theorem Attends.operation (h : s.Attends settings) (ho : s.Operation upgrade t) :
    t.Attends settings := by
  cases ho with
  | interlude _ hi => exact h.interlude hi
  | write t later hout => exact (h.tell (by simp)).write t.data
  | secured now hdue hok =>
    refine (h.upgrading now true).call fun _ => ?_
    have hcalls : callsOf s.upgrading.entries = callsOf s.entries := by
      rw [Session.upgrading, entries_log, callsOf_append]
      exact List.append_nil _
    have hle := h.due_le
    rw [hdue] at hle
    change (callsOf s.upgrading.entries).count .encrypted + 0 <
      ((Dialogue.start settings).events (callsOf s.upgrading.entries)).count .encryptionDue
    rw [hcalls]
    exact hle
  | unsecured now error hdue hfail => exact (h.upgrading now s.encrypted).tell (by simp)

theorem Attends.operations (h : s.Attends settings) (ho : s.Operations upgrade t) :
    t.Attends settings := by
  induction ho with
  | refl => exact h
  | tail _ hlast ih => exact ih.operation hlast

theorem Attends.interludes (h : s.Attends settings) (hi : s.Interludes t) :
    t.Attends settings := by
  induction hi with
  | refl => exact h
  | tail _ hlast ih => exact ih.interlude hlast

theorem attends_start (settings : Settings) (password : Option String) (script : Script) :
    (start settings password script).Attends settings := by
  have hfresh : Attends settings
      ⟨.start settings, script.steps, [], false, 0, [], false, none⟩ :=
    ⟨rfl, rfl, rfl, .of_notMem settings (by simp [entries, callsOf]), Nat.le_refl _⟩
  cases password with
  | none => exact hfresh
  | some text => exact hfresh.tell (by simp)

/-- Whatever the driver does in an exchange, it passes on what is reported. -/
theorem Attends.converse {script : Script} (h : s.Attends settings) :
    (s.converse script).2.Attends settings := by
  have hexchange : Operations script.upgrade (s.call .connected)
      (exchange script.upgrade (s.call .connected)).2 := operations_exchange _
  have hended := (h.tell (by simp)).operations hexchange
  unfold Session.converse
  split
  · next ended heq =>
    rw [heq] at hended
    exact hended
  · next ended heq =>
    rw [heq] at hended
    exact hended
  · next ended heq =>
    rw [heq] at hended
    have hlog : Attends settings (ended.log (.shutdown ended.encrypted)) := hended.log rfl rfl
    exact hlog.congr rfl rfl rfl rfl (Nat.le_refl _)

/-- The same of a whole submission, whether or not it gets a connection. -/
theorem Attends.drive {script : Script} (h : s.Attends settings) :
    (s.drive script).2.Attends settings := by
  have htried := h.log (e := s.dialogue.settings.connection) rfl rfl
  have hmade := htried.interludes (interludes_connectWith _
    (s.now + s.dialogue.settings.connectTimeout.nanos) script.connect script.delays)
  rw [Settings.connection] at hmade
  unfold Session.drive
  dsimp only
  split
  · next ended heq =>
    rw [heq] at hmade
    exact hmade
  · next error ended heq =>
    rw [heq] at hmade
    exact hmade.tell (by simp)
  · next connected heq =>
    rw [heq] at hmade
    have hbegun : Attends settings
        { connected with encrypted := s.dialogue.settings.usesImplicitTls } :=
      hmade.congr rfl rfl rfl rfl (Nat.le_refl _)
    exact hbegun.converse

theorem isFinished_lost (s : Session) (error : Error) :
    (s.call (.lost error)).dialogue.isFinished = true := by
  rw [call_dialogue]
  exact decide_eq_true (s.dialogue.phase_disconnect error)

/-- A handshake that fails takes the dialogue with it. -/
theorem isFinished_of_encrypt (h : s.encrypt upgrade = .error t) :
    t.dialogue.isFinished = true := by
  by_cases hdue : s.upgradeDue = true
  · rw [encrypt_of_due hdue] at h
    cases hresult : (s.handshake upgrade).1 with
    | ok _ =>
      rw [hresult] at h
      cases h
    | error error =>
      rw [hresult] at h
      cases h
      exact isFinished_lost _ error
  · rw [encrypt, if_neg hdue] at h
    cases h

/-- An exchange ends with the dialogue, if it ends at all. -/
theorem isFinished_exchange (s : Session) (h : (exchange upgrade s).1 ≠ .never) :
    (exchange upgrade s).2.dialogue.isFinished = true := by
  fun_induction exchange upgrade s with
  | case1 s hfinished => exact hfinished
  | case2 s _ ended hended => exact isFinished_of_encrypt hended
  | case3 s _ ready _ hfinished => exact hfinished
  | case4 s _ ready _ _ => exact absurd rfl h
  | case5 s _ ready _ _ error => exact isFinished_lost _ error
  | case6 s _ ready _ _ c _ ih => exact ih h
  | case7 s _ ready => exact isFinished_lost _ .connectionClosed
  | case8 s _ ready _ _ n _ _ ih => exact ih h

/-- Only a dialogue that is closed ends the connecting without an answer. -/
theorem isFinished_connectWith (s : Session) (deadline : Moment) (ending : Ending)
    (delays : List Delay) (h : (s.connectWith deadline ending delays).1 = none) :
    (s.connectWith deadline ending delays).2.dialogue.isFinished = true := by
  fun_induction connectWith s deadline ending delays with
  | case1 s length later _ ih => exact ih h
  | case4 s c later _ _ hfinished => exact hfinished
  | case5 s c later _ _ _ ih => exact ih h
  | _ => cases h

/-- What is returned is read off a session whose dialogue is closed. -/
theorem converse_returns {script : Script} {result : Except Error Unit}
    (h : s.converse script = (some result, t)) :
    result = t.verdict ∧ t.dialogue.isFinished = true := by
  have hfinished : (exchange script.upgrade (s.call .connected)).1 ≠ .never →
      (exchange script.upgrade (s.call .connected)).2.dialogue.isFinished = true :=
    isFinished_exchange _
  unfold converse at h
  split at h
  · cases h
  · next ended heq =>
    rw [heq] at hfinished
    cases h
    exact ⟨rfl, hfinished (by simp)⟩
  · next ended heq =>
    rw [heq] at hfinished
    cases h
    exact ⟨rfl, hfinished (by simp)⟩

/-- A submission that returns has brought its dialogue to an end, and returns what was reported. -/
theorem drive_returns {script : Script} {result : Except Error Unit}
    (h : s.drive script = (some result, t)) :
    result = t.verdict ∧ t.dialogue.isFinished = true := by
  unfold drive at h
  dsimp only at h
  split at h
  · next ended heq =>
    cases h
    refine ⟨rfl, ?_⟩
    have hfinished := isFinished_connectWith _ _ _ _ (congrArg Prod.fst heq)
    rwa [heq] at hfinished
  · next error ended _ =>
    cases h
    exact ⟨rfl, ended.isFinished_lost error⟩
  · exact converse_returns h

theorem lastFailure_of_undecided {events : List Event} (h : ∀ e ∈ events, e.isOutcome = false) :
    lastFailure events = none := by
  have hnone : events.filterMap Event.failure? = [] := by
    refine List.filterMap_eq_nil_iff.mpr fun e he => ?_
    cases e with
    | failed error => cases h _ he
    | _ => rfl
  rw [lastFailure, hnone]
  rfl

/-- A session whose dialogue is closed returns the outcome that was seen last. -/
theorem Attends.verdict (h : s.Attends settings) (hfinished : s.dialogue.isFinished = true) :
    (seenOf s.entries).getLast? = some (.ofResult s.verdict) ∧
      (s.error ≠ none ∨ s.dialogue.succeeded = true) := by
  have hclosed : s.dialogue.phase = .closed := of_decide_eq_true hfinished
  have herror := h.error_eq
  have hseen := h.seen_eq
  have hfailed {front : List Event} {error : Error}
      (he : (Dialogue.start settings).events (callsOf s.entries) = front ++ [.failed error]) :
      (seenOf s.entries).getLast? = some (.ofResult s.verdict) ∧
        (s.error ≠ none ∨ s.dialogue.succeeded = true) := by
    rw [he, lastFailure_append] at herror
    rw [he, List.filter_append] at hseen
    have hkept : s.error = some error := herror
    refine ⟨?_, Or.inl (by simp [hkept])⟩
    rw [hseen, Session.verdict, hkept]
    exact List.getLast?_concat
  have hreported := Dialogue.reported_run h.orderly
  rw [← h.dialogue_eq] at hreported
  rcases hreported with ⟨-, -, -, before, error, he⟩ | ⟨-, hr⟩
  · have hsplit : (Dialogue.start settings).events (callsOf s.entries) =
        (before ++ [.succeeded]) ++ [.failed error] := by simpa using he
    exact hfailed hsplit
  · cases hr with
    | nothing hopen | success _ hopen => exact absurd hclosed hopen
    | outcome before last _ hl he hb =>
      cases last with
      | failed error => exact hfailed he
      | succeeded =>
        have hs : s.dialogue.succeeded = true := by
          rw [h.dialogue_eq]
          exact Dialogue.succeeded_of_mem_events (by simp [he])
        rw [he, lastFailure_append, lastFailure_of_undecided hb] at herror
        rw [he, List.filter_append] at hseen
        have hnone : s.error = none := herror
        refine ⟨?_, Or.inr hs⟩
        rw [hseen, Session.verdict, hnone, hs]
        exact List.getLast?_concat
      | _ => cases hl

/-- A session that starts takes the envelope. -/
theorem submit_start (settings : Settings) (password : Option String) (script : Script)
    (e : Envelope) : ∃ taken, (start settings password script).dialogue.submit e = .ok taken := by
  have hnew : (start settings password script).dialogue.envelope = none ∧
      (start settings password script).dialogue.phase = .disconnected := by
    cases password with
    | none => exact ⟨rfl, rfl⟩
    | some text =>
      rw [start, call_dialogue]
      exact ⟨rfl, rfl⟩
  unfold Dialogue.submit
  rw [hnew.1, hnew.2]
  split
  · next hrefused => cases hrefused
  · split <;> exact ⟨_, rfl⟩

/-- What a submission returns is the outcome that its caller has seen last, and either a failure was
kept for it or the message was taken. -/
theorem verdict_run (settings : Settings) (password : Option String)
    (envelope : Except Error Envelope) (script : Script) {result : Except Error Unit} {s : Session}
    (h : run settings password envelope script = (some result, s)) :
    (result = .ok () ↔ (seenOf s.entries).getLast? = some .succeeded) ∧
      (∀ error, result = .error error ↔
        (seenOf s.entries).getLast? = some (.failed error)) ∧
      ∀ e, envelope = .ok e → s.error ≠ none ∨ s.dialogue.succeeded = true := by
  have hlast : (seenOf s.entries).getLast? = some (.ofResult result) ∧
      ∀ e, envelope = .ok e → s.error ≠ none ∨ s.dialogue.succeeded = true := by
    have hstart := attends_start settings password script
    unfold run at h
    dsimp only at h
    split at h
    · next error =>
      cases h
      refine ⟨?_, fun e he => by cases he⟩
      rw [entries_log, seenOf_append]
      exact List.getLast?_concat
    · next e =>
      obtain ⟨taken, htaken⟩ := submit_start settings password script e
      rw [htaken] at h
      dsimp only at h
      obtain ⟨rfl, hfinished⟩ := drive_returns h
      have hended : Attends settings
          (((start settings password script).call (.submit e)).drive script).2 :=
        (hstart.tell (by simp)).drive
      rw [h] at hended
      obtain ⟨hlast, hkept⟩ := hended.verdict hfinished
      exact ⟨hlast, fun _ _ => hkept⟩
  obtain ⟨hlast, hkept⟩ := hlast
  rw [hlast]
  refine ⟨?_, ?_, hkept⟩
  · cases result <;> simp [Event.ofResult]
  · intro error
    cases result <;> simp [Event.ofResult]

/-- A submission that succeeds returns so, and the success is what the caller has seen last. -/
theorem verdict_guardedScript :
    (run .guarded (some "secret") (.ok .greeting) guardedScript).1 = some (.ok ()) ∧
      (seenOf (run .guarded (some "secret") (.ok .greeting) guardedScript).2.entries).getLast? =
        some .succeeded := by
  have hreturned : (run .guarded (some "secret") (.ok .greeting) guardedScript).1 =
      some (.ok ()) := by decide +kernel
  obtain ⟨hok, -⟩ := verdict_run .guarded (some "secret") (.ok .greeting) guardedScript
    (Prod.ext hreturned rfl)
  exact ⟨hreturned, hok.mp rfl⟩

end Session

end SmtpClient
