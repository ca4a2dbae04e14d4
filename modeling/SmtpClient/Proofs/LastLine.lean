import Mathlib.Data.List.Forall2
import SmtpClient.Proofs.SingleOutcome

namespace SmtpClient

def Decision.announced (caps : Capabilities) (reply : Reply) : Decision → Capabilities
  | announce => caps.addReply reply
  | retry | advance .greet => .empty
  | _ => caps

def Call.continues? : Call → Option Bool
  | line bytes =>
    match Reply.parse bytes with
    | .ok reply => some reply.continues
    | .error _ => some false
  | _ => none

def MidReply (calls : List Call) : Prop := (calls.filterMap Call.continues?).getLast? = some true

instance (calls : List Call) : Decidable (MidReply calls) :=
  inferInstanceAs (Decidable (_ = _))

theorem midReply_snoc_of_none (calls : List Call) {call : Call} (h : call.continues? = none) :
    MidReply (calls ++ [call]) ↔ MidReply calls := by
  rw [MidReply, MidReply, List.filterMap_append, List.filterMap_cons_none h, List.filterMap_nil,
    List.append_nil]

theorem midReply_snoc_of_some (calls : List Call) {call : Call} {continues : Bool}
    (h : call.continues? = some continues) : MidReply (calls ++ [call]) ↔ continues = true := by
  rw [MidReply, List.filterMap_append, List.filterMap_cons_some h, List.filterMap_nil,
    List.getLast?_concat, Option.some.injEq]

namespace Dialogue

structure Retains (d next : Dialogue) : Prop where
  capabilities_eq : next.capabilities = d.capabilities
  replyTexts_eq : next.replyTexts = d.replyTexts

theorem retains_fail (d : Dialogue) (error : Error) (mayQuit : Bool) :
    d.Retains (d.fail error mayQuit).1 := by
  rw [fail_eq]
  exact ⟨rfl, rfl⟩

theorem Beginning.retains {d : Dialogue} {r : Outcome} (h : d.Beginning r) : d.Retains r.1 := by
  cases h with
  | failed error => exact d.retains_fail error true
  | batch e size | sender e size => exact ⟨rfl, rfl⟩

theorem Negotiation.retains {d : Dialogue} {r : Outcome} (h : d.Negotiation r) :
    d.Retains r.1 := by
  cases h with
  | failed error => exact d.retains_fail error true
  | startTls | park | ask | auth => exact ⟨rfl, rfl⟩
  | begun => exact d.beginTransaction_beginning.retains

theorem retains_sendPassword (d : Dialogue) : d.Retains d.sendPassword.1 := by
  unfold sendPassword
  split
  · exact d.retains_fail _ _
  · split
    · exact d.retains_fail _ _
    · exact ⟨rfl, rfl⟩

theorem retains_sendNextRecipient (d : Dialogue) : d.Retains d.sendNextRecipient := by
  unfold sendNextRecipient
  split
  · exact ⟨rfl, rfl⟩
  · split <;> exact ⟨rfl, rfl⟩

theorem retains_sendBody (d : Dialogue) : d.Retains d.sendBody.1 := by
  unfold sendBody
  split
  · exact ⟨rfl, rfl⟩
  · exact d.retains_fail _ _

/-- Acting on a reply changes what is known of the server only where the reply is to a greeting. -/
theorem retains_act (d : Dialogue) (awaited : Awaited) (reply : Reply) (text : String)
    (decision : Decision) :
    Retains { d with capabilities := decision.announced d.capabilities reply }
      (d.act awaited reply text decision).1 := by
  cases decision with
  | announce => exact (negotiate_negotiation _).retains
  | retry => exact ⟨rfl, rfl⟩
  | advance move =>
    cases move with
    | greet | encrypt | quit | close => exact ⟨rfl, rfl⟩
    | negotiate => exact d.negotiate_negotiation.retains
    | sendPassword => exact d.retains_sendPassword
    | beginTransaction =>
      have h := (beginTransaction_beginning { d with authenticated := true }).retains
      exact ⟨h.capabilities_eq, h.replyTexts_eq⟩
    | firstRecipient | nextRecipient =>
      simp only [act, advance]
      split
      · exact ⟨rfl, rfl⟩
      · exact d.retains_sendNextRecipient
    | sendBody => exact d.retains_sendBody
  | fail refusal =>
    simp only [act]
    split
    · exact ⟨rfl, rfl⟩
    · exact d.retains_fail _ _

/-- Nothing of the texts is held any more once a reply was complete. -/
theorem replyTexts_reactTo (d : Dialogue) (awaited : Awaited) (reply : Reply) (text : String)
    (decision : Decision) : (d.reactTo awaited reply text decision).1.replyTexts = [] := by
  rw [reactTo, (retains_act _ _ _ _ _).replyTexts_eq]
  exact settle_replyTexts _ _ _

/-- What is known of the server after a reply is what the decision makes of its last line. -/
theorem capabilities_reactTo (d : Dialogue) (awaited : Awaited) (reply : Reply) (text : String)
    (decision : Decision) :
    (d.reactTo awaited reply text decision).1.capabilities =
      decision.announced d.capabilities reply := by
  rw [reactTo, (retains_act _ _ _ _ _).capabilities_eq, settle_capabilities]

/-- Only a line, or the encryption of the connection, changes what was left by lines. -/
theorem retains_perform {d : Dialogue} {call : Call} (hline : ∀ line, call ≠ .line line)
    (hencrypted : call ≠ .encrypted) : d.Retains (d.perform call).1 := by
  cases call with
  | submit e =>
    rcases d.perform_submit e with ⟨heq, -⟩ | ⟨-, -, requested, asked, heq, -⟩
    · rw [heq]
      exact ⟨rfl, rfl⟩
    · rw [heq]
      exact ⟨rfl, rfl⟩
  | connected =>
    simp only [perform, connect]
    split <;> exact ⟨rfl, rfl⟩
  | line line => exact absurd rfl (hline line)
  | password text =>
    simp only [perform, givePassword]
    split <;> exact ⟨rfl, rfl⟩
  | encrypted => exact absurd rfl hencrypted
  | cancel =>
    simp only [perform, cancel]
    split
    · exact ⟨rfl, rfl⟩
    · exact d.retains_fail _ _
  | lost error =>
    simp only [perform, disconnect]
    split
    · exact ⟨rfl, rfl⟩
    · split
      · exact ⟨rfl, rfl⟩
      · exact d.retains_fail _ _
  | poll => exact ⟨rfl, rfl⟩

/-- The greeting over the encrypted connection starts from nothing that the server announced. -/
theorem perform_encrypted {d : Dialogue} (hopen : d.isFinished = false) :
    (d.perform .encrypted).1 = greet { d with encrypted := true } := by
  rw [perform, encrypt, if_neg (by simp [hopen])]

/-- Only a line changes the texts that are held. -/
theorem replyTexts_perform_of_not_line (d : Dialogue) {call : Call}
    (hline : ∀ line, call ≠ .line line) : (d.perform call).1.replyTexts = d.replyTexts := by
  by_cases hencrypted : call = .encrypted
  · subst hencrypted
    cases hopen : d.isFinished with
    | true => rw [perform, encrypt, if_pos hopen]
    | false =>
      rw [perform_encrypted hopen]
      rfl
  · exact (retains_perform hline hencrypted).replyTexts_eq

theorem continues?_eq_none {call : Call} (h : ∀ line, call ≠ .line line) :
    call.continues? = none := by
  cases call with
  | line line => exact absurd rfl (h line)
  | _ => rfl

/-- Between replies no text is held: every complete reply takes along what was gathered for it. -/
theorem replyTexts_after (settings : Settings) (calls : List Call)
    (hopen : ((start settings).after calls).phase ≠ .closed) (hmid : ¬MidReply calls) :
    ((start settings).after calls).replyTexts = [] := by
  -- by induction on the calls: texts are added only by a line after which the reply is unfinished
  induction calls using List.reverseRecOn with
  | nil => rfl
  | append_singleton calls call ih =>
    rw [after_snoc] at hopen ⊢
    generalize hd : (start settings).after calls = d at ih hopen ⊢
    by_cases hline : ∃ line, call = .line line
    · obtain ⟨line, rfl⟩ := hline
      change (d.takeLine line).1.phase ≠ .closed at hopen
      change (d.takeLine line).1.replyTexts = []
      have hread := d.takeLine_reading line
      generalize d.takeLine line = r at hread hopen ⊢
      cases hread with
      | closed hclosed => exact absurd (by simpa [isFinished] using hclosed) hopen
      | malformed | unasked => exact absurd (d.fail_phase _ _) hopen
      | held reply awaited _ hparse _ hc =>
        have hcontinues : (Call.line line).continues? = some true := by
          simp [Call.continues?, hparse, hc]
        exact absurd ((midReply_snoc_of_some calls hcontinues).mpr rfl) hmid
      | completed reply awaited => exact replyTexts_reactTo _ _ _ _ _
    · have hnot : ∀ line, call ≠ .line line := fun line heq => hline ⟨line, heq⟩
      have hbefore : d.phase ≠ .closed := fun hclosed =>
        hopen (perform_of_closed hclosed call).1
      rw [midReply_snoc_of_none calls (continues?_eq_none hnot)] at hmid
      rw [replyTexts_perform_of_not_line d hnot, ih hbefore hmid]

def refusal? (d : Dialogue) (awaited : Awaited) (last : Reply) : Option Refusal :=
  match Decision.of awaited last.code with
  | .fail refusal => if awaited = .answer .quit && d.succeeded then none else some refusal
  | _ => none

def Holds (line : Bytes) (reply : Reply) : Prop :=
  Reply.parse line = .ok reply ∧ reply.continues = true

/-- The text makes no difference to where a reply leads. -/
theorem act_fst_congr (d : Dialogue) (awaited : Awaited) (reply : Reply) (text text' : String)
    (decision : Decision) :
    (d.act awaited reply text decision).1 = (d.act awaited reply text' decision).1 := by
  cases decision with
  | announce | retry | advance => rfl
  | fail refusal =>
    simp only [act]
    split
    · rfl
    · rw [fail_eq, fail_eq]

/-- A refusal is the error that is reported, with the text, and nothing else is. -/
theorem events_reactTo_of_some {d : Dialogue} {awaited : Awaited} {last : Reply} {refusal : Refusal}
    (h : d.refusal? awaited last = some refusal) (text : String) :
    (d.reactTo awaited last text (Decision.of awaited last.code)).2 =
      [.failed (refusal.error awaited last text)] := by
  unfold refusal? at h
  split at h
  · next refusal' hdecision =>
    split at h
    · cases h
    · next hquit =>
      cases h
      rw [hdecision, reactTo]
      simp only [act, settle_succeeded]
      rw [if_neg hquit, fail_events]
  · cases h

/-- Without a refusal the text is not reported. -/
theorem events_reactTo_of_none {d : Dialogue} {awaited : Awaited} {last : Reply}
    (h : d.refusal? awaited last = none) (text text' : String) :
    (d.reactTo awaited last text (Decision.of awaited last.code)).2 =
      (d.reactTo awaited last text' (Decision.of awaited last.code)).2 := by
  unfold refusal? at h
  split at h
  · next refusal hdecision =>
    split at h
    · next hquit =>
      rw [hdecision, reactTo, reactTo]
      simp only [act, settle_succeeded]
      rw [if_pos hquit, if_pos hquit]
    · cases h
  · next hdecision =>
    generalize Decision.of awaited last.code = decision at hdecision ⊢
    cases decision with
    | announce | retry | advance => rfl
    | fail refusal => exact absurd rfl (hdecision refusal)

/-- Only the answer to a greeting is taken in line by line. -/
theorem Decision.of_ne_announce {awaited : Awaited} (h : awaited ≠ .answer .ehlo) (code : Code) :
    Decision.of awaited code ≠ .announce := by
  have hlisted := Decision.listed_of awaited code
  generalize Decision.of awaited code = decision at hlisted ⊢
  cases hlisted with
  | announce => exact absurd rfl h
  | _ => simp

section HeldLines

variable {d : Dialogue} {awaited : Awaited} (hopen : d.phase ≠ .closed)
  (hw : d.awaited = some awaited) (hne : awaited ≠ .answer .ehlo)

include hopen hw hne

/-- A line that announces another only adds its text to those that are held. -/
theorem perform_of_holds {line : Bytes} {reply : Reply} (h : Holds line reply) :
    d.perform (.line line) = ({ d with replyTexts := d.replyTexts ++ [reply.text] }, .silent) := by
  have hunfinished := (d.isFinished_eq_false_iff).mpr hopen
  have htaken : d.takeLine line = (d.holdLine reply (Decision.of awaited reply.code), []) := by
    rw [takeLine, if_neg (by simp [hunfinished]), h.1]
    exact d.takeReply_of_continues reply awaited hw h.2
  rw [perform, htaken, holdLine, if_neg (Decision.of_ne_announce hne reply.code)]
  rfl

/-- So do all lines of a reply before its last, and none of them is answered. -/
theorem run_of_holds {lines : List Bytes} {held : List Reply} (h : List.Forall₂ Holds lines held) :
    d.run (lines.map .line) =
      ({ d with replyTexts := d.replyTexts ++ held.map (·.text) },
        List.replicate lines.length .silent) := by
  induction h generalizing d with
  | nil => simp [run]
  | @cons line reply lines held hline _ ih =>
    have hnext := ih (d := { d with replyTexts := d.replyTexts ++ [reply.text] }) hopen hw
    rw [List.map_cons, run, perform_of_holds hopen hw hne hline]
    dsimp only
    rw [hnext, List.append_assoc]
    rfl

end HeldLines

/-- The last line is taken with the texts that are held before it, and they make no other
difference. -/
theorem takeLine_of_last {d : Dialogue} (hopen : d.phase ≠ .closed) {awaited : Awaited}
    (hw : d.awaited = some awaited) {line : Bytes} {last : Reply}
    (hparse : Reply.parse line = .ok last) (hlast : last.continues = false) (texts : List String) :
    takeLine { d with replyTexts := texts } line =
      d.reactTo awaited last ("\n".intercalate (texts ++ [last.text]))
        (Decision.of awaited last.code) := by
  have hunfinished : isFinished { d with replyTexts := texts } = false :=
    (isFinished_eq_false_iff _).mpr hopen
  rw [takeLine, if_neg (by simp [hunfinished]), hparse]
  exact takeReply_of_last { d with replyTexts := texts } last awaited hw hlast

/-- What the last line of a reply does after the others, beside what it does alone. Before it
nothing happens. It leads to the same dialogue and puts out the same. If it is refused the error
gives the texts of all lines, and otherwise the events are the same. -/
structure ActsAtEnd (d : Dialogue) (lines : List Bytes) (held : List Reply) (line : Bytes)
    (awaited : Awaited) (last : Reply) : Prop where
  quiet : d.events (lines.map .line) = []
  unsent : (d.after (lines.map .line)).outbound = d.outbound
  state_eq : d.after (lines.map .line ++ [.line line]) = d.after [.line line]
  output_eq : (d.after (lines.map .line)).outputOf (.line line) = d.outputOf (.line line)
  events_of_some : ∀ refusal, d.refusal? awaited last = some refusal →
    d.eventsOf (.line line) = [.failed (refusal.error awaited last last.text)] ∧
    (d.after (lines.map .line)).eventsOf (.line line) =
      [.failed (refusal.error awaited last ("\n".intercalate ((held ++ [last]).map (·.text))))]
  events_of_none : d.refusal? awaited last = none →
    (d.after (lines.map .line)).eventsOf (.line line) = d.eventsOf (.line line)

end Dialogue

end SmtpClient
