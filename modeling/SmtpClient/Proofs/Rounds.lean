import SmtpClient.Proofs.Verdict

namespace SmtpClient.Session

variable {upgrade : List Step → Ending}

structure Ready (upgrade : List Step → Ending) (s ready : Session) : Prop where
  unfinished : s.writeOut.dialogue.isFinished = false
  encrypt_eq : s.writeOut.encrypt upgrade = .ok ready
  isFinished_eq : ready.dialogue.isFinished = false

def hearing (ready : Session) : Session := { ready.afterRead with buffer := [] }

inductive Round (upgrade : List Step → Ending) (s : Session) : Session → Prop
  | told (ready : Session) (c : Control) (h : Ready upgrade s ready)
    (hread : ready.read.ended = .control c) : Round upgrade s (ready.afterRead.call c.call)
  | heard (ready : Session) (n : Nat) (h : Ready upgrade s ready)
    (hread : ready.read.ended = .count n) (hn : n ≠ 0) :
    Round upgrade s (ready.hearing.call (.line ready.read.buffer))

inductive Ends (upgrade : List Step → Ending) (s : Session) : Exit × Session → Prop
  | finished (h : s.writeOut.dialogue.isFinished = true) : Ends upgrade s (.closed, s.writeOut)
  | unsecured (ended : Session) (hopen : s.writeOut.dialogue.isFinished = false)
    (h : s.writeOut.encrypt upgrade = .error ended) : Ends upgrade s (.lost, ended)
  | secured (ready : Session) (hopen : s.writeOut.dialogue.isFinished = false)
    (h : s.writeOut.encrypt upgrade = .ok ready) (hfinished : ready.dialogue.isFinished = true) :
    Ends upgrade s (.closed, ready)
  | stalled (ready : Session) (h : Ready upgrade s ready) (hread : ready.read.ended = .never) :
    Ends upgrade s (.never, ready.afterRead)
  | broken (ready : Session) (error : Error) (h : Ready upgrade s ready)
    (hread : ready.read.ended = .fail error) :
    Ends upgrade s (.closed, ready.afterRead.call (.lost error))
  | hungUp (ready : Session) (h : Ready upgrade s ready) (hread : ready.read.ended = .count 0) :
    Ends upgrade s (.closed, ready.afterRead.call (.lost .connectionClosed))

abbrev Rounds (upgrade : List Step → Ending) := Relation.ReflTransGen (Round upgrade)

/-- An exchange goes through rounds to the last one. -/
theorem exchange_rounds (s : Session) :
    ∃ last, Rounds upgrade s last ∧ Ends upgrade last (exchange upgrade s) := by
  fun_induction exchange upgrade s with
  | case1 s hfinished => exact ⟨s, .refl, .finished hfinished⟩
  | case2 s hopen ended hended => exact ⟨s, .refl, .unsecured ended (by simpa using hopen) hended⟩
  | case3 s hopen ready hok hfinished =>
    exact ⟨s, .refl, .secured ready (by simpa using hopen) hok hfinished⟩
  | case4 s hopen ready hok hopen' hread =>
    exact ⟨s, .refl, .stalled ready ⟨by simpa using hopen, hok, by simpa using hopen'⟩ hread⟩
  | case5 s hopen ready hok hopen' error hread =>
    exact ⟨s, .refl, .broken ready error ⟨by simpa using hopen, hok, by simpa using hopen'⟩ hread⟩
  | case6 s hopen ready hok hopen' c hread ih =>
    obtain ⟨last, hrounds, hends⟩ := ih
    have hround : Round upgrade s (ready.afterRead.call c.call) :=
      .told ready c ⟨by simpa using hopen, hok, by simpa using hopen'⟩ hread
    exact ⟨last, hrounds.head hround, hends⟩
  | case7 s hopen ready hok hopen' hread =>
    exact ⟨s, .refl, .hungUp ready ⟨by simpa using hopen, hok, by simpa using hopen'⟩ hread⟩
  | case8 s hopen ready hok hopen' n hread hn ih =>
    obtain ⟨last, hrounds, hends⟩ := ih
    have hround : Round upgrade s (ready.hearing.call (.line ready.read.buffer)) :=
      .heard ready n ⟨by simpa using hopen, hok, by simpa using hopen'⟩ hread hn
    exact ⟨last, hrounds.head hround, hends⟩

def proceed (upgrade : List Step → Ending) (ready : Session) : Exit × Session :=
  match ready.read.ended with
  | .never => (.never, ready.afterRead)
  | .fail error => (.closed, ready.afterRead.call (.lost error))
  | .control c => exchange upgrade (ready.afterRead.call c.call)
  | .count n =>
    if n = 0 then (.closed, ready.afterRead.call (.lost .connectionClosed))
    else exchange upgrade (ready.hearing.call (.line ready.read.buffer))

/-- An exchange that comes to a read goes on from there. -/
theorem Ready.exchange_eq {s ready : Session} (h : Ready upgrade s ready) :
    exchange upgrade s = proceed upgrade ready := by
  have hopen : ¬s.writeOut.dialogue.isFinished = true := by simp [h.unfinished]
  have hopen' : ¬ready.dialogue.isFinished = true := by simp [h.isFinished_eq]
  rw [exchange, if_neg hopen]
  split
  · next ended heq =>
    rw [h.encrypt_eq] at heq
    cases heq
  · next ready' heq =>
    rw [h.encrypt_eq] at heq
    cases heq
    rw [if_neg hopen', proceed]
    split
    · next heq => rw [heq]
    · next error heq => rw [heq]
    · next c heq => rw [heq]
    · next n heq =>
      rw [heq]
      rfl

/-- The end of the last round is the end of the exchange that has come to it. -/
theorem Ends.exchange_eq {s : Session} {r : Exit × Session} (h : Ends upgrade s r) :
    exchange upgrade s = r := by
  cases h with
  | finished h => rw [exchange, if_pos h]
  | unsecured ended hopen h =>
    rw [exchange, if_neg (by simp [hopen])]
    split
    · next ended' heq =>
      rw [h] at heq
      cases heq
      rfl
    · next ready heq =>
      rw [h] at heq
      cases heq
  | secured ready hopen h hfinished =>
    rw [exchange, if_neg (by simp [hopen])]
    split
    · next ended heq =>
      rw [h] at heq
      cases heq
    · next ready' heq =>
      rw [h] at heq
      cases heq
      rw [if_pos hfinished]
  | stalled ready h hread => rw [h.exchange_eq, proceed, hread]
  | broken ready error h hread => rw [h.exchange_eq, proceed, hread]
  | hungUp ready h hread =>
    rw [h.exchange_eq, proceed, hread]
    rfl

/-- What controls and the time that passes keep, the connecting keeps. -/
theorem connectWith_keeps {P : Session → Prop} (hcall : ∀ s c, P s → P (s.call (Control.call c)))
    (hwait : ∀ (s : Session) now, P s → P { s with now := now }) {s : Session} (h : P s)
    (deadline : Moment) (ending : Ending) (delays : List Delay) :
    P (s.connectWith deadline ending delays).2 := by
  fun_induction connectWith s deadline ending delays with
  | case1 s length later _ ih => exact ih (hwait s _ h)
  | case2 s => exact hwait s _ h
  | case3 s => exact h
  | case4 s c => exact hcall s c h
  | case5 s c _ _ _ _ ih => exact ih (hcall s c h)
  | case6 s => exact hwait s _ h

section Opened

variable (settings : Settings) (password : Option String) (envelope : Except Error Envelope)
  (script : Script)

def connecting (e : Envelope) : Option (Except Error Unit) × Session :=
  let s := (start settings password script).call (.submit e)
  (s.log settings.connection).connectWith (s.now + settings.connectTimeout.nanos) script.connect
    script.delays

def opened : Option Session :=
  match envelope with
  | .error _ => none
  | .ok e =>
    match connecting settings password script e with
    | (some (.ok ()), connected) =>
      some { connected with encrypted := settings.usesImplicitTls }
    | _ => none

def Reached (s : Session) : Prop :=
  ∃ first, opened settings password envelope script = some first ∧
    Rounds script.upgrade (first.call .connected) s

theorem settings_submitted (e : Envelope) :
    ((start settings password script).call (.submit e)).dialogue.settings = settings := by
  have hstart : (start settings password script).Unconnected settings script.upgrade :=
    unconnected_start settings password script
  exact (hstart.tell (c := .submit e) (by simp)).settings_eq

/-- A submission connects, and talks to the server if that succeeds. -/
theorem run_ok (e : Envelope) :
    run settings password (.ok e) script =
      match connecting settings password script e with
      | (none, ended) => (some ended.verdict, ended)
      | (some (.error error), ended) =>
        (some (ended.call (.lost error)).verdict, ended.call (.lost error))
      | (some (.ok ()), connected) =>
        converse { connected with encrypted := settings.usesImplicitTls } script := by
  obtain ⟨taken, htaken⟩ := submit_start settings password script e
  simp only [run, htaken, drive, settings_submitted]
  rfl

variable {settings password envelope script}

theorem run_of_opened {first : Session}
    (h : opened settings password envelope script = some first) :
    run settings password envelope script = first.converse script := by
  unfold opened at h
  split at h
  · cases h
  · next e =>
    rw [run_ok]
    split at h
    · next connected heq =>
      cases h
      rw [heq]
    · cases h

/-- Until the connection is there, nothing of the script has been used up. -/
theorem steps_of_opened {first : Session}
    (h : opened settings password envelope script = some first) :
    first.steps = script.steps := by
  unfold opened at h
  split at h
  · cases h
  · next e =>
    have hstart : (start settings password script).steps = script.steps := by
      cases password with
      | none => rfl
      | some text => exact call_steps _ _
    have hsteps : (connecting settings password script e).2.steps = script.steps := by
      refine connectWith_keeps (P := fun s => s.steps = script.steps) ?_ (fun _ _ hs => hs) ?_ _ _ _
      · intro s c hs
        rw [call_steps]
        exact hs
      · exact (call_steps _ _).trans hstart
    split at h
    · next connected heq =>
      rw [heq] at hsteps
      cases h
      exact hsteps
    · cases h

end Opened

end SmtpClient.Session
