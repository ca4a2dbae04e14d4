import SmtpClient.Proofs.Rounds

namespace SmtpClient

def writesOf : List Entry → List (Bytes × Bool)
  | [] => []
  | .writeAttempt data :: .write _ :: later => (data, true) :: writesOf later
  | .writeAttempt data :: later => (data, false) :: writesOf later
  | .write data :: later => (data, true) :: writesOf later
  | _ :: later => writesOf later

/-- The writes of two parts are those of both, if no write is cut off from its end. -/
theorem writesOf_append (before : List Entry) {later : List Entry}
    (h : ∀ data rest, later ≠ .write data :: rest) :
    writesOf (before ++ later) = writesOf before ++ writesOf later := by
  fun_induction writesOf before with
  | case1 => rfl
  | case2 data data' before ih =>
    rw [List.cons_append, List.cons_append, writesOf, ih]
    rfl
  | case3 data before hnot ih =>
    rw [List.cons_append, writesOf, ih]
    · rfl
    · intro data' rest heq
      cases before with
      | nil => exact h data' rest heq
      | cons e before =>
        cases heq
        exact hnot data' before rfl
  | case4 data before ih =>
    rw [List.cons_append, writesOf, ih]
    rfl
  | case5 e before _ hattempt hwrite ih =>
    rw [List.cons_append]
    cases e with
    | writeAttempt data => exact absurd rfl (hattempt data)
    | write data => exact absurd rfl (hwrite data)
    | _ => exact ih

theorem writesOf_eq_nil {entries : List Entry} (h : ∀ e ∈ entries, e.written? = none) :
    writesOf entries = [] := by
  induction entries with
  | nil => rfl
  | cons e later ih =>
    rw [List.forall_mem_cons] at h
    cases e with
    | writeAttempt data | write data => cases h.1
    | _ => exact ih h.2

def Entry.isUpgrade : Entry → Bool
  | upgrade _ => true
  | _ => false

def Entry.isShutdown : Entry → Bool
  | shutdown _ => true
  | _ => false

namespace Dialogue

/-- Only a line of the server makes the handshake due. -/
theorem encryptionDue_notMem {d : Dialogue} {call : Call} (h : call.isLine = false) :
    .encryptionDue ∉ d.eventsOf call := by
  cases call with
  | submit e =>
    rcases d.perform_submit e with ⟨-, hev⟩ | ⟨-, -, requested, asked, -, hev, rfl | rfl⟩ <;>
      simp [eventsOf, hev]
  | line line => cases h
  | cancel =>
    simp only [eventsOf, perform, cancel]
    split <;> simp [Answer.ofEvents]
  | lost error =>
    simp only [eventsOf, perform, disconnect]
    split
    · simp [Answer.ofEvents]
    · split <;> simp [Answer.ofEvents]
  | _ => simp [eventsOf, perform, Answer.silent]

end Dialogue

namespace Session

variable {settings : Settings} {Allowed : List Entry → Prop} {upgrade : List Step → Ending}
  {s t : Session}

theorem callsOf_call (s : Session) (c : Call) :
    callsOf (s.call c).entries = callsOf s.entries ++ [c] := by
  rw [entries_call, callsOf_append, callsOf_told]

/-- What a call adds to the trace is neither a write nor a handshake nor the end. -/
theorem mem_told {c : Call} {noted : List Event} {e : Entry}
    (h : e ∈ Entry.call c :: noted.map .event) :
    e.written? = none ∧ e.isUpgrade = false ∧ e.isShutdown = false := by
  rcases List.mem_cons.mp h with rfl | hmem
  · exact ⟨rfl, rfl, rfl⟩
  · obtain ⟨event, -, rfl⟩ := List.mem_map.mp hmem
    exact ⟨rfl, rfl, rfl⟩

/-- A call writes nothing. -/
theorem writesOf_call (s : Session) (c : Call) :
    writesOf (s.call c).entries = writesOf s.entries := by
  rw [entries_call, writesOf_append _ (by simp), writesOf_eq_nil fun e he => (mem_told he).1,
    List.append_nil]

theorem writesOf_log (s : Session) {e : Entry} (h : e.written? = none) :
    writesOf (s.log e).entries = writesOf s.entries := by
  have hfirst : ∀ data rest, [e] ≠ .write data :: rest := by
    rintro data rest heq
    cases heq
    cases h
  have hnone : writesOf [e] = [] := writesOf_eq_nil (by simpa using h)
  rw [entries_log, writesOf_append _ hfirst, hnone, List.append_nil]

theorem callsOf_log (s : Session) {e : Entry} (h : e.call? = none) :
    callsOf (s.log e).entries = callsOf s.entries := by
  rw [entries_log, callsOf_append]
  simp [callsOf, h]

theorem countP_isUpgrade_log (s : Session) {e : Entry} (h : e.isUpgrade = false) :
    (s.log e).entries.countP Entry.isUpgrade = s.entries.countP Entry.isUpgrade := by
  rw [entries_log, List.countP_append, List.countP_singleton, h]
  rfl

theorem countP_isUpgrade_call (s : Session) (c : Call) :
    (s.call c).entries.countP Entry.isUpgrade = s.entries.countP Entry.isUpgrade := by
  rw [entries_call, List.countP_append, Nat.add_eq_left, List.countP_eq_zero]
  intro e he
  simp [(mem_told he).2.1]

theorem isShutdown_call {c : Call} (h : ∀ e ∈ s.entries, e.isShutdown = false) :
    ∀ e ∈ (s.call c).entries, e.isShutdown = false := by
  rw [entries_call, List.forall_mem_append]
  exact ⟨h, fun e he => (mem_told he).2.2⟩

theorem throughout_call {P : List Entry → Entry → Prop} (h : Throughout s.entries P) (c : Call)
    (hnew : ∀ before e, e.written? = none → e.isUpgrade = false → P before e) :
    Throughout (s.call c).entries P := by
  rw [entries_call]
  exact h.append _ fun e he before => hnew before e (mem_told he).1 (mem_told he).2.1

theorem foldl_report_buffer (s : Session) (es : List Event) :
    (es.foldl report s).buffer = s.buffer := by
  induction es generalizing s with
  | nil => rfl
  | cons e later ih =>
    rw [List.foldl_cons, ih]
    cases e <;> rfl

theorem foldl_report_undue (s : Session) {es : List Event} (h : .encryptionDue ∉ es) :
    (es.foldl report s).upgradeDue = s.upgradeDue := by
  induction es generalizing s with
  | nil => rfl
  | cons e later ih =>
    rw [List.mem_cons, not_or] at h
    rw [List.foldl_cons, ih _ h.2]
    cases e with
    | encryptionDue => exact absurd rfl h.1
    | _ => rfl

theorem call_buffer (s : Session) (c : Call) : (s.call c).buffer = s.buffer :=
  foldl_report_buffer _ _

/-- Only a line can make the handshake due. -/
theorem call_upgradeDue (s : Session) {c : Call} (h : c.isLine = false) :
    (s.call c).upgradeDue = s.upgradeDue :=
  foldl_report_undue _ (Dialogue.encryptionDue_notMem h)

structure Undisturbed (s t : Session) : Prop where
  dialogue_eq : t.dialogue = s.dialogue
  upgradeDue_eq : t.upgradeDue = s.upgradeDue
  buffer_eq : t.buffer = s.buffer
  encrypted_eq : t.encrypted = s.encrypted

inductive Wrote (s : Session) (data : Bytes) : Except Error Unit × Session → Prop
  | done (t : Session) (new : List Entry) (h : s.Undisturbed t)
    (hnew : new = [.write data] ∨ new = [.writeAttempt data, .write data])
    (hentries : t.entries = s.entries ++ new) : Wrote s data (.ok (), t)
  | failed (t : Session) (error : Error) (h : s.Undisturbed t)
    (hentries : t.entries = s.entries ++ [.writeAttempt data]) : Wrote s data (.error error, t)

theorem write_wrote (s : Session) (data : Bytes) : Wrote s data (s.write data) := by
  unfold write
  split
  · dsimp only
    split
    · refine .done _ _ ⟨rfl, rfl, rfl, rfl⟩ (Or.inr rfl) ?_
      simp [entries, log]
    · refine .failed _ _ ⟨rfl, rfl, rfl, rfl⟩ ?_
      simp [entries, log]
  · exact .done _ _ ⟨rfl, rfl, rfl, rfl⟩ (Or.inl rfl) (s.entries_log _)

theorem entries_poll (s : Session) : (s.call .poll).entries = s.entries ++ [.call .poll] :=
  s.entries_call .poll

section Upgrading

variable (s : Session) (now : Moment) (encrypted : Bool)

theorem entries_upgrading : entries { s.upgrading with now := now, encrypted := encrypted } =
    s.entries ++ [.upgrade s.dialogue.settings.host] := entries_log _ _

theorem writesOf_upgrading :
    writesOf (entries { s.upgrading with now := now, encrypted := encrypted }) =
      writesOf s.entries := s.writesOf_log (e := .upgrade s.dialogue.settings.host) rfl

theorem callsOf_upgrading :
    callsOf (entries { s.upgrading with now := now, encrypted := encrypted }) =
      callsOf s.entries := s.callsOf_log (e := .upgrade s.dialogue.settings.host) rfl

theorem countP_isUpgrade_upgrading :
    (entries { s.upgrading with now := now, encrypted := encrypted }).countP Entry.isUpgrade =
      s.entries.countP Entry.isUpgrade + 1 := by
  rw [entries_upgrading, List.countP_append]
  rfl

end Upgrading

/-- What the driver does only adds to the trace. -/
theorem Operation.entries_prefix {t : Session} (h : s.Operation upgrade t) :
    s.entries <+: t.entries := by
  cases h with
  | interlude _ hi =>
    cases hi with
    | call c =>
      rw [entries_call]
      exact List.prefix_append _ _
    | wait => exact List.prefix_rfl
  | write t later =>
    have hpolled : s.entries <+: (s.call .poll).entries := ⟨_, (entries_poll s).symm⟩
    have hwrote := (s.call .poll).write_wrote t.data
    generalize (s.call .poll).write t.data = r at hwrote
    cases hwrote with
    | done t' new _ _ hentries | failed t' error _ hentries =>
      exact hpolled.trans ⟨_, hentries.symm⟩
  | secured now | unsecured now error =>
    rw [entries_call, entries_upgrading, List.append_assoc]
    exact List.prefix_append _ _

/-- The trace only grows, whatever is done over the connection. -/
theorem entries_prefix (h : s.Operations upgrade t) : s.entries <+: t.entries := by
  induction h with
  | refl => exact List.prefix_rfl
  | tail _ hlast ih => exact ih.trans hlast.entries_prefix

def putOutData (settings : Settings) (entries : List Entry) : List Bytes :=
  ((Dialogue.start settings).putOut (callsOf entries)).map (·.data)

/-- A session that has used its connection well: what was written is the beginning of what was put
out, with no write after one that failed and none after a cancellation; and the handshake was done
at most once, in a state that allows it. -/
structure Kept (settings : Settings) (Allowed : List Entry → Prop) (s : Session) : Prop where
  in_order : (writesOf s.entries).map (·.1) <+: putOutData settings s.entries
  stops : ∀ w ∈ (writesOf s.entries).dropLast, w.2 = true
  cancelled : Throughout s.entries fun before e => .call .cancel ∈ before → e.written? = none
  upgrades : Throughout s.entries fun before e => e.isUpgrade = true → Allowed before
  upgrade_once : s.entries.countP Entry.isUpgrade ≤ 1
  unshut : ∀ e ∈ s.entries, e.isShutdown = false

structure Steady (settings : Settings) (Allowed : List Entry → Prop) (s : Session) : Prop
    extends Kept settings Allowed s where
  attends : s.Attends settings
  written : (writesOf s.entries).map (·.1) ++ s.dialogue.outbound.map (·.data) =
    putOutData settings s.entries
  done : ∀ w ∈ writesOf s.entries, w.2 = true
  silenced : .cancel ∈ callsOf s.entries →
    s.dialogue.isFinished = true ∧ s.dialogue.outbound = []
  secured : s.entries.countP Entry.isUpgrade = (callsOf s.entries).count .encrypted
  encrypted_of : s.encrypted = true →
    settings.usesImplicitTls = true ∨ .encrypted ∈ callsOf s.entries
  emptied : s.upgradeDue = true → s.buffer = []

structure Jammed (settings : Settings) (Allowed : List Entry → Prop) (s : Session) : Prop
    extends Kept settings Allowed s where
  finished : s.dialogue.isFinished = true
  failed : ∃ w ∈ writesOf s.entries, w.2 = false
  secured : s.entries.countP Entry.isUpgrade = (callsOf s.entries).count .encrypted

theorem mem_callsOf_of_mem {c : Call} {entries : List Entry} (h : .call c ∈ entries) :
    c ∈ callsOf entries := List.mem_filterMap.mpr ⟨_, h, rfl⟩

/-- A call leaves what was written as it is. -/
theorem Kept.call (h : s.Kept settings Allowed) (c : Call) : (s.call c).Kept settings Allowed := by
  refine ⟨?_, ?_, ?_, ?_, ?_, isShutdown_call h.unshut⟩
  · rw [writesOf_call, putOutData, callsOf_call, Dialogue.putOut_snoc, List.map_append]
    exact h.in_order.trans (List.prefix_append _ _)
  · rw [writesOf_call]
    exact h.stops
  · exact throughout_call h.cancelled c fun _ _ hmute _ _ => hmute
  · refine throughout_call h.upgrades c fun _ _ _ hnone hupgrade => ?_
    rw [hnone] at hupgrade
    cases hupgrade
  · rw [countP_isUpgrade_call]
    exact h.upgrade_once

/-- A call that is no poll adds to what waits what it adds to what was put out. -/
theorem written_call (hdialogue : s.dialogue = (Dialogue.start settings).after (callsOf s.entries))
    (h : (writesOf s.entries).map (·.1) ++ s.dialogue.outbound.map (·.data) =
      putOutData settings s.entries) {c : Call} (hpoll : c ≠ .poll) :
    (writesOf (s.call c).entries).map (·.1) ++ (s.call c).dialogue.outbound.map (·.data) =
      putOutData settings (s.call c).entries := by
  rw [writesOf_call, call_dialogue, Dialogue.outbound_perform _ _ hpoll, List.map_append,
    ← List.append_assoc, h, putOutData, putOutData, callsOf_call, Dialogue.putOut_snoc,
    List.map_append, hdialogue]

/-- A call that writes nothing leaves the session steady, if what it puts out is still to be
written. -/
theorem Steady.call (h : s.Steady settings Allowed) {c : Call} (hencrypted : c ≠ .encrypted)
    (hpoll : c ≠ .poll)
    (hsilenced : .cancel ∈ callsOf s.entries ++ [c] →
      (s.call c).dialogue.isFinished = true ∧ (s.call c).dialogue.outbound = [])
    (hemptied : (s.call c).upgradeDue = true → s.buffer = []) :
    (s.call c).Steady settings Allowed := by
  refine ⟨h.toKept.call c, h.attends.tell hencrypted,
    written_call h.attends.dialogue_eq h.written hpoll, ?_, ?_, ?_, ?_, ?_⟩
  · rw [writesOf_call]
    exact h.done
  · rw [callsOf_call]
    exact hsilenced
  · rw [countP_isUpgrade_call, callsOf_call, List.count_append, h.secured,
      List.count_eq_zero_of_not_mem (l := [c]) (by simpa using Ne.symm hencrypted), Nat.add_zero]
  · rw [call_encrypted, callsOf_call]
    exact fun henc => (h.encrypted_of henc).imp_right (List.mem_append_left _)
  · rw [call_buffer]
    exact hemptied

/-- An open session was not cancelled. -/
theorem Steady.cancel_notMem (h : s.Steady settings Allowed)
    (hopen : s.dialogue.isFinished = false) : .cancel ∉ callsOf s.entries := by
  intro hmem
  have hfinished := (h.silenced hmem).1
  rw [hopen] at hfinished
  cases hfinished

/-- An open session is not cancelled by being told something else. -/
theorem Steady.cancel_notMem_snoc (h : s.Steady settings Allowed)
    (hopen : s.dialogue.isFinished = false) {c : Call} (hc : c ≠ .cancel) :
    .cancel ∉ callsOf s.entries ++ [c] := by
  rw [List.mem_append, List.mem_singleton]
  rintro (hmem | heq)
  · exact h.cancel_notMem hopen hmem
  · exact hc heq.symm

/-- A control that is told where nothing waits and no handshake is due. -/
theorem Steady.told (h : s.Steady settings Allowed) (hopen : s.dialogue.isFinished = false)
    (hout : s.dialogue.outbound = []) (hdue : s.upgradeDue = false) (c : Control) :
    (s.call c.call).Steady settings Allowed := by
  have hline : c.call.isLine = false := by cases c <;> rfl
  refine h.call (by cases c <;> simp [Control.call]) (by cases c <;> simp [Control.call]) ?_ ?_
  · intro hmem
    cases c with
    | password text => exact absurd hmem (h.cancel_notMem_snoc hopen (by simp [Control.call]))
    | cancel =>
      rw [Control.call, call_dialogue]
      refine ⟨decide_eq_true s.dialogue.phase_cancel, ?_⟩
      simp [Dialogue.perform, Dialogue.cancel, hopen, Dialogue.fail_eq, Dialogue.farewell, hout]
  · rw [call_upgradeDue s hline, hdue]
    intro hfalse
    cases hfalse

/-- A line that is heard, which leaves nothing of it to be read. -/
theorem Steady.heard (h : s.Steady settings Allowed) (hopen : s.dialogue.isFinished = false)
    (hbuffer : s.buffer = []) (line : Bytes) : (s.call (.line line)).Steady settings Allowed := by
  refine h.call (by simp) (by simp) ?_ fun _ => hbuffer
  exact fun hmem => absurd hmem (h.cancel_notMem_snoc hopen (by simp))

/-- What a session has still to write, it has not been told to keep. -/
theorem Steady.call_cancel_notMem (h : s.Steady settings Allowed)
    (hout : s.dialogue.outbound ≠ []) :
    .call .cancel ∉ (s.call .poll).entries := by
  intro hmem
  have hcalls := mem_callsOf_of_mem hmem
  rw [callsOf_call, List.mem_append, List.mem_singleton] at hcalls
  rcases hcalls with hcalls | heq
  · exact hout (h.silenced hcalls).2
  · cases heq

/-- Writes that are noted behind a trace without a cancellation. -/
theorem Kept.throughout_write (h : s.Kept settings Allowed) (hcancel : .call .cancel ∉ s.entries)
    {new : List Entry} (hnew : ∀ e ∈ new, e.written?.isSome = true) :
    (Throughout (s.entries ++ new) fun before e => .call .cancel ∈ before → e.written? = none) ∧
      Throughout (s.entries ++ new) fun before e => e.isUpgrade = true → Allowed before := by
  induction new using List.reverseRecOn with
  | nil =>
    rw [List.append_nil]
    exact ⟨h.cancelled, h.upgrades⟩
  | append_singleton new e ih =>
    obtain ⟨hcancelled, hupgrades⟩ := ih fun e he => hnew e (List.mem_append_left _ he)
    have hwrite := hnew e (by simp)
    rw [← List.append_assoc]
    refine ⟨hcancelled.snoc fun hmem => ?_, hupgrades.snoc fun hupgrade => ?_⟩
    · -- neither the trace nor the writes before this one hold a cancellation
      rcases List.mem_append.mp hmem with hmem | hmem
      · exact absurd hmem hcancel
      · have hcall := hnew _ (List.mem_append_left _ hmem)
        cases hcall
    · cases e with
      | upgrade host => cases hwrite
      | _ => cases hupgrade

/-- What does not count for the handshakes, the calls and the end. -/
theorem unchanged_of_written {new : List Entry} (hnew : ∀ e ∈ new, e.written?.isSome = true) :
    new.countP Entry.isUpgrade = 0 ∧ callsOf new = [] ∧ ∀ e ∈ new, e.isShutdown = false := by
  refine ⟨List.countP_eq_zero.mpr ?_, List.filterMap_eq_nil_iff.mpr ?_, ?_⟩
  all_goals
    intro e he
    have hwrite := hnew e he
    cases e with
    | writeAttempt data | write data => simp [Entry.isUpgrade, Entry.call?, Entry.isShutdown]
    | _ => cases hwrite

structure Polled (s : Session) (data : Bytes) (later : List Transmit) (new : List Entry)
    (t : Session) : Prop where
  entries_eq : t.entries = (s.call .poll).entries ++ new
  outbound_eq : t.dialogue.outbound = later
  dialogue_eq : t.dialogue = (s.dialogue.perform .poll).1
  upgradeDue_eq : t.upgradeDue = s.upgradeDue
  buffer_eq : t.buffer = s.buffer
  encrypted_eq : t.encrypted = s.encrypted
  new_written : ∀ e ∈ new, e.written?.isSome = true

/-- A write concerns the datum that was taken, and nothing else. -/
theorem Undisturbed.polled {x : Transmit} {later : List Transmit} {new : List Entry}
    (h : (s.call .poll).Undisturbed t) (hout : s.dialogue.outbound = x :: later)
    (hentries : t.entries = (s.call .poll).entries ++ new)
    (hnew : ∀ e ∈ new, e.written?.isSome = true) : s.Polled x.data later new t := by
  have hdialogue : t.dialogue = (s.dialogue.perform .poll).1 := by
    rw [h.dialogue_eq, call_dialogue]
  refine ⟨hentries, ?_, hdialogue, ?_, ?_, ?_, hnew⟩
  · rw [hdialogue]
    exact congrArg List.tail hout
  · rw [h.upgradeDue_eq, call_upgradeDue s rfl]
  · rw [h.buffer_eq, call_buffer]
  · rw [h.encrypted_eq, call_encrypted]

theorem Polled.callsOf_eq {data : Bytes} {later : List Transmit} {new : List Entry}
    (h : s.Polled data later new t) : callsOf t.entries = callsOf s.entries ++ [.poll] := by
  rw [h.entries_eq, callsOf_append, (unchanged_of_written h.new_written).2.1, List.append_nil,
    callsOf_call]

theorem Polled.writesOf_eq {data : Bytes} {later : List Transmit} {new : List Entry}
    (h : s.Polled data later new t) : writesOf t.entries = writesOf s.entries ++ writesOf new := by
  rw [h.entries_eq, entries_poll, List.append_assoc, writesOf_append _ (by simp)]
  rfl

/-- What was put out is counted with the call that puts it out, not with the poll. -/
theorem Polled.putOutData_eq {data : Bytes} {later : List Transmit} {new : List Entry}
    (h : s.Polled data later new t) :
    putOutData settings t.entries = putOutData settings s.entries := by
  rw [putOutData, h.callsOf_eq, Dialogue.putOut_snoc, Dialogue.outputOf_poll, List.append_nil]
  rfl

theorem Polled.secured {data : Bytes} {later : List Transmit} {new : List Entry}
    (h : s.Polled data later new t)
    (hs : s.entries.countP Entry.isUpgrade = (callsOf s.entries).count .encrypted) :
    t.entries.countP Entry.isUpgrade = (callsOf t.entries).count .encrypted ∧
      t.entries.countP Entry.isUpgrade = s.entries.countP Entry.isUpgrade := by
  have hcount : t.entries.countP Entry.isUpgrade = s.entries.countP Entry.isUpgrade := by
    rw [h.entries_eq, List.countP_append, (unchanged_of_written h.new_written).1,
      countP_isUpgrade_call, Nat.add_zero]
  refine ⟨?_, hcount⟩
  rw [hcount, hs, h.callsOf_eq, List.count_append]
  rfl

/-- A session that has written what waited longest, or tried to, with the writes in its trace. -/
theorem Polled.kept {x : Transmit} {later : List Transmit} {new : List Entry} {done : Bool}
    (h : s.Polled x.data later new t) (hs : s.Steady settings Allowed)
    (hout : s.dialogue.outbound = x :: later) (hnew : writesOf new = [(x.data, done)]) :
    t.Kept settings Allowed := by
  have hw := h.writesOf_eq
  rw [hnew] at hw
  have hcancel := hs.call_cancel_notMem (by simp [hout])
  obtain ⟨hcancelled, hupgrades⟩ := (hs.toKept.call .poll).throughout_write hcancel h.new_written
  rw [← h.entries_eq] at hcancelled hupgrades
  refine ⟨?_, ?_, hcancelled, hupgrades, ?_, ?_⟩
  · rw [hw, h.putOutData_eq, ← hs.written, hout]
    simp
  · rw [hw, List.dropLast_concat]
    exact hs.done
  · rw [(h.secured hs.secured).2]
    exact hs.upgrade_once
  · rw [h.entries_eq, List.forall_mem_append]
    exact ⟨isShutdown_call hs.unshut, (unchanged_of_written h.new_written).2.2⟩

/-- A write that is done leaves the session steady, with one datum less to be written. -/
theorem Polled.steady {x : Transmit} {later : List Transmit} {new : List Entry}
    (h : s.Polled x.data later new t) (hs : s.Steady settings Allowed)
    (hout : s.dialogue.outbound = x :: later) (hnew : writesOf new = [(x.data, true)])
    (hattends : t.Attends settings) : t.Steady settings Allowed := by
  refine ⟨h.kept hs hout hnew, hattends, ?_, ?_, ?_, (h.secured hs.secured).1, ?_, ?_⟩
  · rw [h.writesOf_eq, hnew, h.putOutData_eq, h.outbound_eq, ← hs.written, hout]
    simp
  · rw [h.writesOf_eq, hnew]
    intro w hw
    rcases List.mem_append.mp hw with hw | hw
    · exact hs.done w hw
    · rw [List.mem_singleton.mp hw]
  · intro hmem
    rw [h.callsOf_eq, List.mem_append, List.mem_singleton] at hmem
    rcases hmem with hmem | heq
    · have hnone := (hs.silenced hmem).2
      rw [hout] at hnone
      cases hnone
    · cases heq
  · rw [h.encrypted_eq, h.callsOf_eq]
    exact fun henc => (hs.encrypted_of henc).imp_right (List.mem_append_left _)
  · rw [h.upgradeDue_eq, h.buffer_eq]
    exact hs.emptied

/-- A write that fails ends the dialogue and is the last one. -/
theorem Polled.jammed {x : Transmit} {later : List Transmit} {new : List Entry}
    (h : s.Polled x.data later new t) (hs : s.Steady settings Allowed)
    (hout : s.dialogue.outbound = x :: later) (hnew : writesOf new = [(x.data, false)])
    (error : Error) : (t.call (.lost error)).Jammed settings Allowed := by
  refine ⟨(h.kept hs hout hnew).call _, t.isFinished_lost error, ⟨(x.data, false), ?_, rfl⟩, ?_⟩
  · rw [writesOf_call, h.writesOf_eq, hnew]
    exact List.mem_append_right _ (List.mem_singleton_self _)
  · rw [countP_isUpgrade_call, (h.secured hs.secured).1, callsOf_call, List.count_append]
    simp

inductive Drained (settings : Settings) (Allowed : List Entry → Prop) (s t : Session) : Prop
  | dry (h : t.Steady settings Allowed) (hout : t.dialogue.outbound = [])
    (hdue : t.upgradeDue = s.upgradeDue) (hbuffer : t.buffer = s.buffer)
  | jammed (h : t.Jammed settings Allowed)

/-- All that waits is written, in order, up to a write that fails. -/
theorem Steady.writeAll (h : s.Steady settings Allowed) {ts : List Transmit}
    (hts : s.dialogue.outbound = ts) : s.Drained settings Allowed (s.writeAll ts) := by
  -- on what waits, which each poll leaves one shorter
  induction ts generalizing s with
  | nil => exact .dry h hts rfl rfl
  | cons x later ih =>
    have hattends := (h.attends.tell (c := .poll) (by simp)).write x.data
    have hwrote := (s.call .poll).write_wrote x.data
    unfold Session.writeAll
    generalize (s.call .poll).write x.data = r at hwrote hattends ⊢
    cases hwrote with
    | done t new hsame hnew hentries =>
      have hwritten : writesOf new = [(x.data, true)] := by
        rcases hnew with rfl | rfl <;> rfl
      have hwrites : ∀ e ∈ new, e.written?.isSome = true := by
        rcases hnew with rfl | rfl <;> simp [Entry.written?]
      have hpolled := hsame.polled hts hentries hwrites
      cases ih (hpolled.steady h hts hwritten hattends) hpolled.outbound_eq with
      | dry hlast hout hdue hbuffer =>
        exact .dry hlast hout (hdue.trans hpolled.upgradeDue_eq)
          (hbuffer.trans hpolled.buffer_eq)
      | jammed hlast => exact .jammed hlast
    | failed t error hsame hentries =>
      have hpolled := hsame.polled hts hentries (by simp [Entry.written?])
      exact .jammed (hpolled.jammed h hts rfl error)

theorem Steady.writeOut (h : s.Steady settings Allowed) : s.Drained settings Allowed s.writeOut :=
  h.writeAll rfl

end Session

end SmtpClient
