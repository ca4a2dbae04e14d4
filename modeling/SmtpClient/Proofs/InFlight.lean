import SmtpClient.Proofs.Steps

namespace SmtpClient

def Decision.verbs : Decision → List Verb
  | announce | advance .negotiate => [.startTls, .auth, .mail, .rcpt, .data, .burl]
  | retry => [.helo]
  | advance .greet => [.ehlo]
  | advance .beginTransaction => [.mail, .rcpt, .data, .burl]
  | advance .firstRecipient | advance .nextRecipient => [.rcpt, .data, .burl]
  | advance .quit => [.quit]
  | _ => []

namespace Dialogue

structure AllInFlight (d : Dialogue) (Q : InFlight → Prop) : Prop where
  waiting_eq : d.pipeline.waiting = []
  inFlight : ∀ f ∈ d.pipeline.inFlight, Q f

section AllInFlight

variable {d : Dialogue} {Q : InFlight → Prop}

theorem AllInFlight.congr (h : d.AllInFlight Q) {next : Dialogue}
    (hp : next.pipeline = d.pipeline) : next.AllInFlight Q :=
  ⟨hp ▸ h.waiting_eq, hp ▸ h.inFlight⟩

theorem allInFlight_of_verbs_eq_nil (h : d.pipeline.verbs = []) : d.AllInFlight Q := by
  rw [Pipeline.verbs, List.append_eq_nil_iff, List.map_eq_nil_iff, List.map_eq_nil_iff] at h
  refine ⟨h.1, ?_⟩
  rw [h.2]
  exact List.forall_mem_nil _

theorem allInFlight_close (d : Dialogue) : d.close.AllInFlight Q :=
  allInFlight_of_verbs_eq_nil d.pipeline.verbs_clear

theorem allInFlight_fail (d : Dialogue) (error : Error) (mayQuit : Bool) :
    (d.fail error mayQuit).1.AllInFlight Q := by
  rw [fail_eq]
  exact allInFlight_of_verbs_eq_nil d.pipeline.verbs_clear

/-- What holds of the command that is sent, under any number, goes on to hold of all. -/
theorem AllInFlight.send (h : d.AllInFlight Q) {c : Command} (hc : ∀ tag, Q ⟨tag, c.verb⟩) :
    (d.send c).AllInFlight Q := by
  rw [send_eq d c h.waiting_eq]
  refine ⟨rfl, ?_⟩
  rw [List.forall_mem_append, List.forall_mem_singleton]
  exact ⟨h.inFlight, hc _⟩

theorem AllInFlight.sendBatch (h : d.AllInFlight Q) {e : Envelope} {size : Option Nat}
    (hQ : ∀ c ∈ transaction e size, ∀ tag, Q ⟨tag, c.verb⟩) :
    (d.sendBatch e size).AllInFlight Q := by
  rw [sendBatch_eq d e size h.waiting_eq]
  refine ⟨rfl, ?_⟩
  rw [List.forall_mem_append]
  refine ⟨h.inFlight, fun f hmem => ?_⟩
  obtain ⟨q, hq, rfl⟩ := List.mem_map.mp hmem
  have hcommand := List.mem_map_of_mem (f := Prod.snd) hq
  rw [Pipeline.map_snd_numbered] at hcommand
  exact hQ q.2 hcommand q.1

/-- A reply can only take a command away. -/
theorem AllInFlight.settle (h : d.AllInFlight Q) (awaited : Awaited) (code : Code) :
    (Dialogue.settle { d with replyTexts := [] } awaited code).AllInFlight Q := by
  unfold Dialogue.settle
  split
  · exact h.congr rfl
  · split
    · exact h.congr rfl
    · exact ⟨h.waiting_eq, fun f hmem => h.inFlight f (List.mem_of_mem_tail hmem)⟩

theorem AllInFlight.sendPassword (h : d.AllInFlight Q) : d.sendPassword.1.AllInFlight Q := by
  unfold Dialogue.sendPassword
  split
  · exact allInFlight_fail _ _ _
  · split
    · exact allInFlight_fail _ _ _
    · exact h.congr rfl

theorem AllInFlight.sendBody (h : d.AllInFlight Q) : d.sendBody.1.AllInFlight Q := by
  unfold Dialogue.sendBody
  split
  · exact h.congr rfl
  · exact allInFlight_fail _ _ _

/-- The payload is asked for with DATA or with BURL. -/
theorem verb_payload_mem (p : Payload) : p.command.verb ∈ [Verb.rcpt, .data, .burl] := by
  cases p <;> simp [Payload.command, Command.verb]

/-- The next command of a transaction is RCPT, DATA or BURL. -/
theorem AllInFlight.sendNextRecipient (h : d.AllInFlight Q)
    (hQ : ∀ verb ∈ [Verb.rcpt, .data, .burl], ∀ tag, Q ⟨tag, verb⟩) :
    d.sendNextRecipient.AllInFlight Q := by
  unfold Dialogue.sendNextRecipient
  split
  · exact h
  · next e _ =>
    split
    · have hnamed : AllInFlight { d with recipientsSent := d.recipientsSent + 1 } Q := h.congr rfl
      exact hnamed.send (hQ .rcpt (by simp))
    · exact h.send (hQ _ (verb_payload_mem e.payload))

theorem Beginning.allInFlight {r : Outcome} (h : d.Beginning r) (hd : d.AllInFlight Q)
    (hQ : ∀ verb ∈ (Decision.advance .beginTransaction).verbs, ∀ tag, Q ⟨tag, verb⟩) :
    r.1.AllInFlight Q := by
  have hmail : ∀ tag, Q ⟨tag, .mail⟩ := hQ .mail List.mem_cons_self
  cases h with
  | failed error => exact d.allInFlight_fail error true
  | batch e size =>
    refine hd.sendBatch fun c hmem tag => ?_
    rw [transaction_eq, Envelope.commandsFrom, List.mem_cons, List.mem_append, List.mem_map,
      List.mem_singleton] at hmem
    rcases hmem with rfl | ⟨recipient, -, rfl⟩ | rfl
    · exact hmail tag
    · exact hQ .rcpt (by simp [Decision.verbs]) tag
    · exact hQ _ (List.mem_cons_of_mem _ (verb_payload_mem e.payload)) tag
  | sender e size => exact hd.send hmail

theorem Negotiation.allInFlight {r : Outcome} (h : d.Negotiation r) (hd : d.AllInFlight Q)
    (hQ : ∀ verb ∈ Decision.announce.verbs, ∀ tag, Q ⟨tag, verb⟩) : r.1.AllInFlight Q := by
  cases h with
  | failed error => exact d.allInFlight_fail error true
  | startTls => exact hd.send (hQ .startTls List.mem_cons_self)
  | park | ask => exact hd.congr rfl
  | auth =>
    have hfresh : AllInFlight { d with passwordSent := false } Q := hd.congr rfl
    exact hfresh.send (hQ .auth (by simp [Decision.verbs]))
  | begun =>
    refine d.beginTransaction_beginning.allInFlight hd fun verb hmem => ?_
    exact hQ verb (List.mem_cons_of_mem _ (List.mem_cons_of_mem _ hmem))

/-- What a decision sends has one of its verbs. -/
theorem AllInFlight.act (h : d.AllInFlight Q) (awaited : Awaited) (reply : Reply) (text : String)
    {decision : Decision} (hQ : ∀ verb ∈ decision.verbs, ∀ tag, Q ⟨tag, verb⟩) :
    (d.act awaited reply text decision).1.AllInFlight Q := by
  cases decision with
  | announce => exact (negotiate_negotiation _).allInFlight (h.congr rfl) hQ
  | retry =>
    have hforgotten : AllInFlight { d with capabilities := .empty } Q := h.congr rfl
    exact hforgotten.send (hQ .helo List.mem_cons_self)
  | advance move =>
    cases move with
    | greet =>
      have hforgotten : AllInFlight { d with phase := .ready, capabilities := .empty } Q :=
        h.congr rfl
      exact hforgotten.send (hQ .ehlo List.mem_cons_self)
    | negotiate => exact d.negotiate_negotiation.allInFlight h hQ
    | encrypt => exact h.congr rfl
    | sendPassword => exact h.sendPassword
    | beginTransaction => exact (beginTransaction_beginning _).allInFlight (h.congr rfl) hQ
    | firstRecipient | nextRecipient =>
      simp only [Dialogue.act, advance]
      split
      · exact h
      · exact h.sendNextRecipient hQ
    | sendBody => exact h.sendBody
    | quit =>
      have haccepted : AllInFlight { d with succeeded := true } Q := h.congr rfl
      exact haccepted.send (hQ .quit List.mem_cons_self)
    | close => exact d.allInFlight_close
  | fail refusal =>
    simp only [Dialogue.act]
    split
    · exact d.allInFlight_close
    · exact allInFlight_fail _ _ _

end AllInFlight

end Dialogue

end SmtpClient
