import Mathlib.Logic.Relation
import SmtpClient.Proofs.Runs
import SmtpClient.Session.Run

namespace SmtpClient

def Entry.call? : Entry → Option Call
  | call c => some c
  | _ => none

def Event.isSeen : Event → Bool
  | encryptionDue => false
  | _ => true

def callsOf (entries : List Entry) : List Call := entries.filterMap Entry.call?

namespace Session

def entries (s : Session) : List Entry := s.trace.map (·.2)

theorem entries_log (s : Session) (e : Entry) : (s.log e).entries = s.entries ++ [e] := by
  simp [entries, log]

theorem report_dialogue (s : Session) (e : Event) : (s.report e).dialogue = s.dialogue := by
  cases e <;> rfl

theorem report_encrypted (s : Session) (e : Event) : (s.report e).encrypted = s.encrypted := by
  cases e <;> rfl

/-- An event leaves an entry only if the caller sees it. -/
theorem entries_report (s : Session) (e : Event) :
    (s.report e).entries = s.entries ++ ([e].filter Event.isSeen).map .event := by
  cases e with
  | encryptionDue => exact (List.append_nil _).symm
  | _ => exact s.entries_log _

/-- Events that are reported leave the dialogue and the connection alone, and are noted if they are
seen. -/
theorem foldl_report (s : Session) (es : List Event) :
    (es.foldl report s).dialogue = s.dialogue ∧ (es.foldl report s).encrypted = s.encrypted ∧
      (es.foldl report s).entries = s.entries ++ (es.filter Event.isSeen).map .event := by
  induction es generalizing s with
  | nil => exact ⟨rfl, rfl, (List.append_nil _).symm⟩
  | cons e later ih =>
    obtain ⟨hdialogue, hencrypted, hentries⟩ := ih (s.report e)
    rw [List.foldl_cons]
    refine ⟨hdialogue.trans (s.report_dialogue e), hencrypted.trans (s.report_encrypted e), ?_⟩
    rw [hentries, entries_report, List.append_assoc, ← List.map_append, ← List.filter_append,
      List.singleton_append]

theorem call_dialogue (s : Session) (c : Call) : (s.call c).dialogue = (s.dialogue.perform c).1 :=
  (foldl_report _ _).1

theorem call_encrypted (s : Session) (c : Call) : (s.call c).encrypted = s.encrypted :=
  (foldl_report _ _).2.1

/-- A call leaves its entry, and behind it those of the events that the caller sees. -/
theorem entries_call (s : Session) (c : Call) :
    (s.call c).entries =
      s.entries ++ .call c :: ((s.dialogue.eventsOf c).filter Event.isSeen).map .event := by
  have hnoted := (foldl_report { s.log (.call c) with dialogue := (s.dialogue.perform c).1 }
    (s.dialogue.eventsOf c)).2.2
  have hlog := s.entries_log (.call c)
  refine hnoted.trans ?_
  change (s.log (.call c)).entries ++ _ = _
  rw [hlog, List.append_assoc]
  rfl

/-- A write, tried or done, changes nothing but the trace, the script and the time. -/
theorem write_cases (s : Session) (data : Bytes) :
    (s.write data).2.dialogue = s.dialogue ∧ (s.write data).2.encrypted = s.encrypted ∧
      ((s.write data).2.entries = s.entries ++ [.writeAttempt data] ∨
        (s.write data).2.entries = s.entries ++ [.write data] ∨
        (s.write data).2.entries = s.entries ++ [.writeAttempt data] ++ [.write data]) := by
  unfold write
  split
  · dsimp only
    split
    · refine ⟨rfl, rfl, Or.inr (Or.inr ?_)⟩
      simp [entries, log]
    · refine ⟨rfl, rfl, Or.inl ?_⟩
      simp [entries, log]
  · exact ⟨rfl, rfl, Or.inr (Or.inl (s.entries_log _))⟩

def upgrading (s : Session) : Session :=
  { s with upgradeDue := false }.log (.upgrade s.dialogue.settings.host)

/-- What the driver does between two operations of the connection: it tells the dialogue something,
or lets time pass while the script goes on. -/
inductive Interlude (s : Session) : Session → Prop
  | call (c : Call) (hencrypted : c ≠ .encrypted) (hpoll : c ≠ .poll) : Interlude s (s.call c)
  | wait (now : Moment) (steps : List Step) (buffer : Bytes) :
    Interlude s { s with now := now, steps := steps, buffer := buffer }

def handshake (s : Session) (upgrade : List Step → Ending) : Except Error Unit × Moment :=
  (upgrade s.steps).within s.dialogue.settings.exchangeTimeout "TLS handshake" s.now

inductive Operation (upgrade : List Step → Ending) (s : Session) : Session → Prop
  | interlude (t : Session) (h : s.Interlude t) : Operation upgrade s t
  | write (t : Transmit) (later : List Transmit) (h : s.dialogue.outbound = t :: later) :
    Operation upgrade s ((s.call .poll).write t.data).2
  | secured (now : Moment) (hdue : s.upgradeDue = true) (h : s.handshake upgrade = (.ok (), now)) :
    Operation upgrade s (call { s.upgrading with now := now, encrypted := true } .encrypted)
  | unsecured (now : Moment) (error : Error) (hdue : s.upgradeDue = true)
    (h : s.handshake upgrade = (.error error, now)) :
    Operation upgrade s (call { s.upgrading with now := now } (.lost error))

abbrev Interludes := Relation.ReflTransGen Interlude

abbrev Operations (upgrade : List Step → Ending) := Relation.ReflTransGen (Operation upgrade)

theorem interlude_control (s : Session) (c : Control) : s.Interlude (s.call c.call) := by
  cases c with
  | password text => exact .call (.password text) (by simp) (by simp)
  | cancel => exact .call .cancel (by simp) (by simp)

theorem interlude_lost (s : Session) (error : Error) : s.Interlude (s.call (.lost error)) :=
  .call (.lost error) (by simp) (by simp)

theorem interlude_afterRead (s : Session) : s.Interlude s.afterRead :=
  .wait s.read.now s.read.steps s.read.buffer

variable {upgrade : List Step → Ending}

/-- What is done between two operations is a sequence of operations too. -/
theorem Interlude.operations {s t : Session} (h : s.Interlude t) : Operations upgrade s t :=
  .single (.interlude t h)

/-- All that waits is written, oldest first, up to a write that fails. -/
theorem operations_writeAll (s : Session) (ts : List Transmit) (h : s.dialogue.outbound = ts) :
    Operations upgrade s (s.writeAll ts) := by
  -- on what waits, which each poll leaves one shorter
  induction ts generalizing s with
  | nil => exact .refl
  | cons t later ih =>
    have hwrite : Operations upgrade s ((s.call .poll).write t.data).2 := .single (.write t later h)
    have hleft : ((s.call .poll).write t.data).2.dialogue.outbound = later := by
      rw [((s.call .poll).write_cases t.data).1, call_dialogue]
      exact congrArg List.tail h
    unfold writeAll
    split
    · next written heq =>
      rw [heq] at hwrite hleft
      exact hwrite.trans (ih written hleft)
    · next error ended heq =>
      rw [heq] at hwrite
      exact hwrite.trans (ended.interlude_lost error).operations

/-- Writing out is one write after another. -/
theorem operations_writeOut (s : Session) : Operations upgrade s s.writeOut :=
  s.operations_writeAll _ rfl

/-- The handshake is done once it is due, and the dialogue is told of its end if it succeeds. -/
theorem encrypt_of_due {s : Session} (h : s.upgradeDue = true) :
    s.encrypt upgrade =
      match (s.handshake upgrade).1 with
      | .ok () =>
        .ok (call { s.upgrading with now := (s.handshake upgrade).2, encrypted := true }
          .encrypted).writeOut
      | .error error =>
        .error (call { s.upgrading with now := (s.handshake upgrade).2 } (.lost error)) := by
  rw [encrypt, if_pos h]
  rfl

/-- The handshake is done if it is due, and what is said then is written. -/
theorem operations_encrypt {s t : Session}
    (h : s.encrypt upgrade = .ok t ∨ s.encrypt upgrade = .error t) : Operations upgrade s t := by
  by_cases hdue : s.upgradeDue = true
  · rw [encrypt_of_due hdue] at h
    cases hresult : (s.handshake upgrade).1 with
    | ok _ =>
      have hsecured := Operation.secured (s.handshake upgrade).2 hdue (Prod.ext hresult rfl)
      rw [hresult] at h
      obtain rfl := by simpa using h
      exact (Relation.ReflTransGen.single hsecured).trans (operations_writeOut _)
    | error error =>
      rw [hresult] at h
      obtain rfl := by simpa using h
      exact .single (.unsecured (s.handshake upgrade).2 error hdue (Prod.ext hresult rfl))
  · rw [encrypt, if_neg hdue] at h
    obtain rfl : s = t := by simpa using h
    exact .refl

/-- An exchange is made of operations, however it ends. -/
theorem operations_exchange (s : Session) : Operations upgrade s (exchange upgrade s).2 := by
  have hready {s t : Session}
      (h : s.writeOut.encrypt upgrade = .ok t ∨ s.writeOut.encrypt upgrade = .error t) :
      Operations upgrade s t := s.operations_writeOut.trans (operations_encrypt h)
  have hread (s : Session) : Operations upgrade s s.afterRead := s.interlude_afterRead.operations
  have hlost (s : Session) (error : Error) :
      Operations upgrade s (s.afterRead.call (.lost error)) :=
    (hread s).trans (s.afterRead.interlude_lost error).operations
  fun_induction exchange upgrade s with
  | case1 s => exact s.operations_writeOut
  | case2 s _ ended hended => exact hready (Or.inr hended)
  | case3 s _ ready hok => exact hready (Or.inl hok)
  | case4 s _ ready hok => exact (hready (Or.inl hok)).trans (hread ready)
  | case5 s _ ready hok _ error => exact (hready (Or.inl hok)).trans (hlost ready error)
  | case6 s _ ready hok _ c _ ih =>
    have hcontrol : Operations upgrade ready.afterRead (ready.afterRead.call c.call) :=
      (ready.afterRead.interlude_control c).operations
    exact (hready (Or.inl hok)).trans ((hread ready).trans (hcontrol.trans ih))
  | case7 s _ ready hok => exact (hready (Or.inl hok)).trans (hlost ready .connectionClosed)
  | case8 s _ ready hok _ n _ _ ih =>
    have hempty : Interlude ready { ready.afterRead with buffer := [] } :=
      .wait ready.read.now ready.read.steps []
    have hline : Interlude { ready.afterRead with buffer := [] }
        (call { ready.afterRead with buffer := [] } (.line ready.read.buffer)) :=
      .call _ (by simp) (by simp)
    exact (hready (Or.inl hok)).trans (hempty.operations.trans (hline.operations.trans ih))

/-- While the connection is made there are only controls and waiting. -/
theorem interludes_connectWith (s : Session) (deadline : Moment) (ending : Ending)
    (delays : List Delay) : Interludes s (s.connectWith deadline ending delays).2 := by
  have hwait (s : Session) (now : Moment) : Interludes s { s with now := now } :=
    .single (.wait now s.steps s.buffer)
  fun_induction connectWith s deadline ending delays with
  | case1 s length later _ ih => exact (hwait s _).trans ih
  | case2 s length later => exact hwait s deadline
  | case3 s c later => exact .refl
  | case4 s c later => exact .single (s.interlude_control c)
  | case5 s c later _ _ _ ih => exact .head (s.interlude_control c) ih
  | case6 s result now => exact hwait s now

end Session

end SmtpClient
