import SmtpClient.Proofs.Writes

/-!
How the driver uses its connection. It writes what the dialogue puts out, one piece at a time and in
order, up to a write that fails; it writes nothing once the submission was cancelled; it does the
handshake at most once, between a line that was read whole and the next piece of data; and when it
returns it has shut down the connection, unless the handshake has taken that.
-/
namespace SmtpClient

def UpgradeFailed (entries : List Entry) : Prop :=
  (callsOf entries).count .encrypted < entries.countP Entry.isUpgrade

instance (entries : List Entry) : Decidable (UpgradeFailed entries) :=
  inferInstanceAs (Decidable (_ < _))

namespace Dialogue

/-- A dialogue knows that its connection has been encrypted. -/
theorem EncryptsWhenDue.encrypted_of_mem {settings : Settings} {calls : List Call}
    (h : EncryptsWhenDue settings calls) (hmem : .encrypted ∈ calls)
    (hopen : ((start settings).after calls).phase ≠ .closed) :
    ((start settings).after calls).encrypted = true := by
  induction calls using List.reverseRecOn with
  | nil => cases hmem
  | append_singleton calls call ih =>
    rw [after_snoc] at hopen ⊢
    have hbefore : ((start settings).after calls).phase ≠ .closed :=
      fun hclosed => hopen (perform_of_closed hclosed call).1
    by_cases hcall : call = .encrypted
    · subst hcall
      have hunfinished := (isFinished_eq_false_iff _).mpr hbefore
      rw [perform, encrypt, if_neg (by simp [hunfinished])]
      rfl
    · obtain ⟨said, htold, -⟩ := h.of_append.told
      have hearlier : .encrypted ∈ calls := by
        rcases List.mem_append.mp hmem with hmem | hmem
        · exact hmem
        · exact absurd (List.mem_singleton.mp hmem).symm hcall
      rw [(htold.sameTerms hcall).encrypted_eq]
      exact ih h.of_append hearlier hbefore

/-- The handshake is due only in the clear. -/
theorem EncryptsWhenDue.clear_of_due {settings : Settings} {calls : List Call}
    (h : EncryptsWhenDue settings calls)
    (hdue : calls.count .encrypted < ((start settings).events calls).count .encryptionDue)
    (hopen : ((start settings).after calls).isFinished = false) :
    .encrypted ∉ calls ∧ settings.usesImplicitTls = false := by
  obtain ⟨said, htold, -⟩ := h.told
  obtain ⟨-, hd, -⟩ := h.standing.2.of_due (by omega) hopen
  obtain ⟨-, -, hm, -⟩ := htold.turn.of_clear hd
  rw [mustEncrypt, settings_after, Bool.and_eq_true, Bool.not_eq_true'] at hm
  constructor
  · intro hmem
    have hknown := h.encrypted_of_mem hmem ((isFinished_eq_false_iff _).mp hopen)
    rw [hm.2] at hknown
    cases hknown
  · have hs : settings.security = .startTls := of_decide_eq_true hm.1
    simp [Settings.usesImplicitTls, hs]

end Dialogue

namespace Session

variable {settings : Settings} {Allowed : List Entry → Prop} {upgrade : List Step → Ending}
  {s t : Session}

structure Settled (s : Session) : Prop where
  clear : s.encrypted = false
  written : s.dialogue.outbound = []
  read : s.buffer = []

/-- Where the handshake is due, the connection is not encrypted and none was done before. -/
theorem Steady.settled (h : s.Steady settings Allowed) (hopen : s.dialogue.isFinished = false)
    (hout : s.dialogue.outbound = []) (hdue : s.upgradeDue = true) :
    s.Settled ∧ s.entries.countP Entry.isUpgrade = 0 := by
  have hcount := h.attends.due_le
  rw [hdue] at hcount
  have hunfinished := hopen
  rw [h.attends.dialogue_eq] at hunfinished
  obtain ⟨hnone, himplicit⟩ := h.attends.orderly.clear_of_due hcount hunfinished
  refine ⟨⟨?_, hout, h.emptied hdue⟩, ?_⟩
  · by_contra hencrypted
    rcases h.encrypted_of (by simpa using hencrypted) with hsettings | hmem
    · rw [himplicit] at hsettings
      cases hsettings
    · exact hnone hmem
  · rw [h.secured, List.count_eq_zero_of_not_mem hnone]

/-- The handshake is noted, whatever comes of it. -/
theorem Steady.kept_upgrading (h : s.Steady settings Allowed)
    (hnone : s.entries.countP Entry.isUpgrade = 0) (hallowed : Allowed s.entries) (now : Moment)
    (encrypted : Bool) :
    Kept settings Allowed { s.upgrading with now := now, encrypted := encrypted } := by
  refine ⟨?_, ?_, ?_, ?_, ?_, ?_⟩
  · rw [writesOf_upgrading, putOutData, callsOf_upgrading]
    exact h.in_order
  · rw [writesOf_upgrading]
    exact h.stops
  · rw [entries_upgrading]
    exact h.cancelled.snoc fun _ => rfl
  · rw [entries_upgrading]
    exact h.upgrades.snoc fun _ => hallowed
  · have hone := countP_isUpgrade_upgrading s now encrypted
    rw [hnone] at hone
    exact Nat.le_of_eq hone
  · rw [entries_upgrading, List.forall_mem_append]
    exact ⟨h.unshut, by simp [Entry.isShutdown]⟩

/-- A dialogue that is told of a handshake: what it puts out then waits. -/
theorem Steady.written_upgrading (h : s.Steady settings Allowed) (now : Moment) (encrypted : Bool)
    {c : Call} (hpoll : c ≠ .poll) :
    (writesOf (Session.call { s.upgrading with now := now, encrypted := encrypted }
          c).entries).map (·.1) ++
        (Session.call { s.upgrading with now := now, encrypted := encrypted }
          c).dialogue.outbound.map (·.data) =
      putOutData settings
        (Session.call { s.upgrading with now := now, encrypted := encrypted } c).entries := by
  apply written_call
  · rw [callsOf_upgrading]
    exact h.attends.dialogue_eq
  · rw [writesOf_upgrading, putOutData, callsOf_upgrading]
    exact h.written
  · exact hpoll

/-- A handshake that succeeds, and that the dialogue is told of, leaves the session steady. -/
theorem Steady.secure (h : s.Steady settings Allowed) (hopen : s.dialogue.isFinished = false)
    (hout : s.dialogue.outbound = []) (hdue : s.upgradeDue = true)
    (hallowed : s.Settled → Allowed s.entries) {now : Moment}
    (hok : s.handshake upgrade = (.ok (), now)) :
    Steady settings Allowed
      (Session.call { s.upgrading with now := now, encrypted := true } .encrypted) := by
  obtain ⟨hsettled, hnone⟩ := h.settled hopen hout hdue
  refine ⟨(h.kept_upgrading hnone (hallowed hsettled) now true).call _,
    h.attends.operation (.secured now hdue hok), h.written_upgrading now true (by simp),
    ?_, ?_, ?_, ?_, ?_⟩
  · rw [writesOf_call, writesOf_upgrading]
    exact h.done
  · rw [callsOf_call, callsOf_upgrading]
    exact fun hmem => absurd hmem (h.cancel_notMem_snoc hopen (by simp))
  · rw [countP_isUpgrade_call, countP_isUpgrade_upgrading, callsOf_call, callsOf_upgrading,
      List.count_append, h.secured]
    rfl
  · intro _
    rw [callsOf_call]
    exact Or.inr (List.mem_append_right _ (List.mem_singleton_self _))
  · rw [call_buffer]
    exact fun _ => hsettled.read

theorem Jammed.not_open (h : s.Jammed settings Allowed) : s.dialogue.isFinished ≠ false := by
  rw [h.finished]
  simp

def Complete (settings : Settings) (s : Session) : Prop :=
  (∀ w ∈ writesOf s.entries, w.2 = true) →
    (writesOf s.entries).map (·.1) = putOutData settings s.entries

/-- A session in which a write has failed owes no more writes. -/
theorem Jammed.complete (h : s.Jammed settings Allowed) : s.Complete settings := by
  intro hdone
  obtain ⟨w, hw, hfailed⟩ := h.failed
  rw [hdone w hw] at hfailed
  cases hfailed

theorem Steady.complete (h : s.Steady settings Allowed) (hout : s.dialogue.outbound = []) :
    s.Complete settings := by
  intro _
  have hwritten := h.written
  rwa [hout, List.map_nil, List.append_nil] at hwritten

theorem outbound_lost (s : Session) (error : Error) :
    (s.call (.lost error)).dialogue.outbound = s.dialogue.outbound := by
  rw [call_dialogue, Dialogue.perform, Dialogue.disconnect]
  split
  · rfl
  · split
    · rfl
    · simp [Dialogue.fail_eq, Dialogue.farewell]

/-- A connection that is lost where nothing waits. -/
theorem Steady.lost (h : s.Steady settings Allowed) (hopen : s.dialogue.isFinished = false)
    (hdue : s.upgradeDue = false) (error : Error) :
    (s.call (.lost error)).Steady settings Allowed := by
  refine h.call (by simp) (by simp) ?_ ?_
  · exact fun hmem => absurd hmem (h.cancel_notMem_snoc hopen (by simp))
  · rw [call_upgradeDue s rfl, hdue]
    intro hfalse
    cases hfalse

inductive Prepared (settings : Settings) (Allowed : List Entry → Prop) (t : Session) : Prop
  | reads (h : t.Steady settings Allowed) (hout : t.dialogue.outbound = [])
    (hdue : t.upgradeDue = false)
  | jammed (h : t.Jammed settings Allowed)

theorem Drained.prepared (h : s.Drained settings Allowed t) (hdue : s.upgradeDue = false) :
    t.Prepared settings Allowed := by
  cases h with
  | dry h hout hsame => exact .reads h hout (hsame.trans hdue)
  | jammed h => exact .jammed h

/-- The handshake, where it is due and succeeds. -/
theorem Steady.encrypted (h : s.Steady settings Allowed) (hopen : s.dialogue.isFinished = false)
    (hout : s.dialogue.outbound = []) (hallowed : s.Settled → Allowed s.entries)
    (hok : s.encrypt upgrade = .ok t) : t.Prepared settings Allowed := by
  cases hdue : s.upgradeDue with
  | false =>
    rw [Session.encrypt, hdue, if_neg (by simp)] at hok
    obtain rfl := Except.ok.inj hok
    exact .reads h hout hdue
  | true =>
    rw [encrypt_of_due hdue] at hok
    cases hresult : (s.handshake upgrade).1 with
    | error error =>
      rw [hresult] at hok
      cases hok
    | ok _ =>
      rw [hresult] at hok
      obtain rfl := Except.ok.inj hok
      have hsecured := h.secure hopen hout hdue hallowed (Prod.ext hresult rfl)
      refine hsecured.writeOut.prepared ?_
      rw [call_upgradeDue _ rfl]
      rfl

/-- The handshake, where it is due and fails. -/
theorem Steady.unsecured (h : s.Steady settings Allowed) (hopen : s.dialogue.isFinished = false)
    (hout : s.dialogue.outbound = []) (hallowed : s.Settled → Allowed s.entries)
    (hfailed : s.encrypt upgrade = .error t) :
    t.Kept settings Allowed ∧ t.Complete settings ∧ UpgradeFailed t.entries := by
  cases hdue : s.upgradeDue with
  | false =>
    rw [Session.encrypt, hdue, if_neg (by simp)] at hfailed
    cases hfailed
  | true =>
    obtain ⟨hsettled, hnone⟩ := h.settled hopen hout hdue
    rw [encrypt_of_due hdue] at hfailed
    cases hresult : (s.handshake upgrade).1 with
    | ok _ =>
      rw [hresult] at hfailed
      cases hfailed
    | error error =>
      rw [hresult] at hfailed
      obtain rfl := Except.error.inj hfailed
      refine ⟨(h.kept_upgrading hnone (hallowed hsettled) _ s.encrypted).call _, fun _ => ?_, ?_⟩
      · have hwritten := h.written_upgrading (s.handshake upgrade).2 s.encrypted
          (c := .lost error) (by simp)
        rw [outbound_lost] at hwritten
        have hleft : (upgrading s).dialogue.outbound = [] := hout
        rwa [hleft, List.map_nil, List.append_nil] at hwritten
      · have hcount := countP_isUpgrade_upgrading s (s.handshake upgrade).2 s.encrypted
        have hcalls := callsOf_upgrading s (s.handshake upgrade).2 s.encrypted
        have hlost : [Call.lost error].count .encrypted = 0 := by simp
        rw [UpgradeFailed, countP_isUpgrade_call, callsOf_call, List.count_append, hlost,
          Nat.add_zero]
        calc (callsOf (entries { s.upgrading with now := (s.handshake upgrade).2 })).count
              .encrypted
            = (callsOf s.entries).count .encrypted := congrArg _ hcalls
          _ = s.entries.countP Entry.isUpgrade := h.secured.symm
          _ < s.entries.countP Entry.isUpgrade + 1 := Nat.lt_succ_self _
          _ = (entries { s.upgrading with now := (s.handshake upgrade).2 }).countP
                Entry.isUpgrade := hcount.symm

/-- A session that has waited, or read a part of the script. -/
theorem Steady.wait (h : s.Steady settings Allowed) (hdue : s.upgradeDue = false) (now : Moment)
    (steps : List Step) (buffer : Bytes) :
    Steady settings Allowed { s with now := now, steps := steps, buffer := buffer } := by
  have hattends : Attends settings { s with now := now, steps := steps, buffer := buffer } :=
    h.attends.congr rfl rfl rfl rfl (Nat.le_refl _)
  refine ⟨⟨h.in_order, h.stops, h.cancelled, h.upgrades, h.upgrade_once, h.unshut⟩, hattends,
    h.written, h.done, h.silenced, h.secured, h.encrypted_of, fun htrue => ?_⟩
  change s.upgradeDue = true at htrue
  rw [hdue] at htrue
  cases htrue

/-- A session that comes to its read has written all, and nothing has failed in it. -/
theorem Steady.ready (h : s.Steady settings Allowed) {ready : Session}
    (hallowed : s.writeOut.Settled → Allowed s.writeOut.entries) (hready : Ready upgrade s ready) :
    ready.Steady settings Allowed ∧ ready.dialogue.outbound = [] ∧ ready.upgradeDue = false := by
  cases h.writeOut with
  | jammed hjammed => exact absurd hready.unfinished hjammed.not_open
  | dry hdry hout =>
    cases hdry.encrypted hready.unfinished hout hallowed hready.encrypt_eq with
    | jammed hjammed => exact absurd hready.isFinished_eq hjammed.not_open
    | reads hsteady hnothing hundue => exact ⟨hsteady, hnothing, hundue⟩

/-- Every round leaves a steady session steady. -/
theorem Steady.round (h : s.Steady settings Allowed)
    (hallowed : s.writeOut.Settled → Allowed s.writeOut.entries) (hround : Round upgrade s t) :
    t.Steady settings Allowed := by
  cases hround with
  | told ready c hready =>
    obtain ⟨hsteady, hout, hdue⟩ := h.ready hallowed hready
    have hafter : ready.afterRead.Steady settings Allowed := hsteady.wait hdue _ _ _
    exact hafter.told hready.isFinished_eq hout hdue c
  | heard ready n hready =>
    obtain ⟨hsteady, -, hdue⟩ := h.ready hallowed hready
    have hafter : ready.hearing.Steady settings Allowed := hsteady.wait hdue _ _ _
    exact hafter.heard hready.isFinished_eq rfl _

/-- How an exchange leaves the connection: well used, with all written if no write has failed, and
still there unless the handshake has failed. -/
structure Ended (settings : Settings) (Allowed : List Entry → Prop) (r : Exit × Session) : Prop
    extends Kept settings Allowed r.2 where
  complete : r.2.Complete settings
  failed_iff : UpgradeFailed r.2.entries ↔ r.1 = .lost

/-- Where the dialogue was told of every handshake that was begun, none has failed. -/
theorem not_upgradeFailed {entries : List Entry}
    (h : entries.countP Entry.isUpgrade = (callsOf entries).count .encrypted) :
    ¬UpgradeFailed entries := by
  rw [UpgradeFailed, h]
  exact Nat.lt_irrefl _

/-- A failed write ends the exchange with the dialogue closed. -/
theorem Jammed.ended (h : s.Jammed settings Allowed) : Ended settings Allowed (.closed, s) :=
  ⟨h.toKept, h.complete, iff_of_false (not_upgradeFailed h.secured) (by simp)⟩

theorem Steady.ended (h : s.Steady settings Allowed) (hout : s.dialogue.outbound = []) {exit : Exit}
    (hexit : exit ≠ .lost) : Ended settings Allowed (exit, s) :=
  ⟨h.toKept, h.complete hout, iff_of_false (not_upgradeFailed h.secured) hexit⟩

/-- Every way to end leaves the connection well used. -/
theorem Steady.ends (h : s.Steady settings Allowed)
    (hallowed : s.writeOut.Settled → Allowed s.writeOut.entries) {r : Exit × Session}
    (hends : Ends upgrade s r) : Ended settings Allowed r := by
  have hlost {ready : Session} (hready : Ready upgrade s ready) (error : Error) :
      Ended settings Allowed (.closed, ready.afterRead.call (.lost error)) := by
    obtain ⟨hsteady, hout, hdue⟩ := h.ready hallowed hready
    have hafter : ready.afterRead.Steady settings Allowed := hsteady.wait hdue _ _ _
    refine (hafter.lost hready.isFinished_eq hdue error).ended ?_ (by simp)
    rw [outbound_lost]
    exact hout
  cases hends with
  | finished =>
    cases h.writeOut with
    | dry hdry hout => exact hdry.ended hout (by simp)
    | jammed hjammed => exact hjammed.ended
  | unsecured ended hopen hfailed =>
    cases h.writeOut with
    | dry hdry hout =>
      obtain ⟨hkept, hcomplete, hupgrade⟩ := hdry.unsecured hopen hout hallowed hfailed
      exact ⟨hkept, hcomplete, iff_of_true hupgrade rfl⟩
    | jammed hjammed => exact absurd hopen hjammed.not_open
  | secured ready hopen hok hfinished =>
    cases h.writeOut with
    | dry hdry hout =>
      cases hdry.encrypted hopen hout hallowed hok with
      | reads hsteady hnothing => exact hsteady.ended hnothing (by simp)
      | jammed hjammed => exact hjammed.ended
    | jammed hjammed => exact absurd hopen hjammed.not_open
  | stalled ready hready =>
    obtain ⟨hsteady, hout, hdue⟩ := h.ready hallowed hready
    have hafter : ready.afterRead.Steady settings Allowed := hsteady.wait hdue _ _ _
    exact hafter.ended hout (by simp)
  | broken ready error hready => exact hlost hready error
  | hungUp ready hready => exact hlost hready .connectionClosed

end Session

def Call.isOpening : Call → Bool
  | line _ => false
  | encrypted => false
  | poll => false
  | _ => true

namespace Dialogue

/-- Nothing is put out before the greeting. -/
theorem quiet_of_opening {d : Dialogue} (hparked : d.parked = false) {call : Call}
    (h : call.isOpening = true) :
    (d.perform call).1.outbound = d.outbound ∧ (d.perform call).1.parked = false := by
  cases call with
  | submit e =>
    rcases d.perform_submit e with ⟨hsame, -⟩ | ⟨-, -, requested, asked, hnext, -⟩
    · rw [hsame]
      exact ⟨rfl, hparked⟩
    · rw [hnext]
      exact ⟨rfl, hparked⟩
  | connected =>
    rw [perform, connect]
    split <;> exact ⟨rfl, hparked⟩
  | password text =>
    rw [perform, givePassword, hparked]
    exact ⟨rfl, rfl⟩
  | cancel =>
    rw [perform, cancel]
    split
    · exact ⟨rfl, hparked⟩
    · simp [fail_eq, farewell]
  | lost error =>
    rw [perform, disconnect]
    split
    · exact ⟨rfl, hparked⟩
    · split
      · exact ⟨rfl, hparked⟩
      · simp [fail_eq, farewell]
  | _ => cases h

end Dialogue

namespace Session

variable {settings : Settings} {Allowed : List Entry → Prop} {s : Session}

structure Unused (settings : Settings) (s : Session) : Prop where
  unused : ∀ e ∈ s.entries, e.written? = none ∧ e.isUpgrade = false ∧ e.isShutdown = false
  nothing : putOutData settings s.entries = []

theorem Unused.writesOf_eq (h : s.Unused settings) : writesOf s.entries = [] :=
  writesOf_eq_nil fun e he => (h.unused e he).1

theorem Unused.countP_eq (h : s.Unused settings) : s.entries.countP Entry.isUpgrade = 0 :=
  List.countP_eq_zero.mpr fun e he => by simp [(h.unused e he).2.1]

/-- A connection that was not used was used well. -/
theorem Unused.kept (h : s.Unused settings) : s.Kept settings Allowed := by
  have hmem {before later : List Entry} {e : Entry} (heq : s.entries = before ++ e :: later) :
      e ∈ s.entries := by simp [heq]
  refine ⟨?_, ?_, ?_, ?_, ?_, fun e he => (h.unused e he).2.2⟩
  · rw [h.writesOf_eq]
    exact List.nil_prefix
  · rw [h.writesOf_eq]
    simp
  · exact fun before e later heq _ => (h.unused e (hmem heq)).1
  · intro before e later heq hupgrade
    rw [(h.unused e (hmem heq)).2.1] at hupgrade
    cases hupgrade
  · rw [h.countP_eq]
    exact Nat.zero_le 1

theorem Unused.log (h : s.Unused settings) {e : Entry} (hcall : e.call? = none)
    (hunused : e.written? = none ∧ e.isUpgrade = false ∧ e.isShutdown = false) :
    (s.log e).Unused settings := by
  constructor
  · rw [entries_log, List.forall_mem_append]
    exact ⟨h.unused, by simpa using hunused⟩
  · rw [putOutData, s.callsOf_log hcall]
    exact h.nothing

structure Fresh (settings : Settings) (s : Session) : Prop extends Unused settings s where
  attends : s.Attends settings
  quiet : s.dialogue.outbound = [] ∧ s.dialogue.parked = false
  clear : .encrypted ∉ callsOf s.entries
  undue : s.upgradeDue = false
  unread : s.buffer = []
  silenced : .cancel ∈ callsOf s.entries → s.dialogue.isFinished = true

theorem Fresh.call (h : s.Fresh settings) {c : Call} (hc : c.isOpening = true) :
    (s.call c).Fresh settings := by
  have hencrypted : c ≠ .encrypted := by
    rintro rfl
    cases hc
  have hline : c.isLine = false := by cases c <;> first | rfl | cases hc
  have hquiet := Dialogue.quiet_of_opening h.quiet.2 hc
  have hsaid : s.dialogue.outputOf c = [] := by
    apply Dialogue.outputOf_eq
    rw [hquiet.1, List.append_nil]
  refine ⟨⟨?_, ?_⟩, h.attends.tell hencrypted, ?_, ?_, ?_, ?_, ?_⟩
  · rw [entries_call, List.forall_mem_append]
    exact ⟨h.unused, fun e he => mem_told he⟩
  · rw [putOutData, callsOf_call, Dialogue.putOut_snoc, ← h.attends.dialogue_eq, hsaid,
      List.append_nil]
    exact h.nothing
  · rw [call_dialogue, hquiet.1]
    exact ⟨h.quiet.1, hquiet.2⟩
  · rw [callsOf_call, List.mem_append, List.mem_singleton]
    rintro (hmem | heq)
    · exact h.clear hmem
    · exact hencrypted heq.symm
  · rw [call_upgradeDue s hline]
    exact h.undue
  · rw [call_buffer]
    exact h.unread
  · rw [callsOf_call, List.mem_append, List.mem_singleton, call_dialogue]
    rintro (hmem | rfl)
    · have hclosed : s.dialogue.phase = .closed := of_decide_eq_true (h.silenced hmem)
      exact decide_eq_true (Dialogue.perform_of_closed hclosed c).1
    · exact decide_eq_true s.dialogue.phase_cancel

theorem Fresh.control (h : s.Fresh settings) (c : Control) : (s.call c.call).Fresh settings :=
  h.call (by cases c <;> rfl)

theorem Fresh.connection (h : s.Fresh settings) : (s.log settings.connection).Fresh settings := by
  have hcalls : callsOf (s.log settings.connection).entries = callsOf s.entries :=
    s.callsOf_log rfl
  refine ⟨h.toUnused.log rfl ⟨rfl, rfl, rfl⟩, h.attends.log rfl rfl, h.quiet, ?_, h.undue,
    h.unread, ?_⟩
  · rw [hcalls]
    exact h.clear
  · rw [hcalls]
    exact h.silenced

theorem Fresh.wait (h : s.Fresh settings) (now : Moment) (encrypted : Bool) :
    Fresh settings { s with now := now, encrypted := encrypted } :=
  ⟨⟨h.unused, h.nothing⟩, h.attends.congr rfl rfl rfl rfl (Nat.le_refl _), h.quiet, h.clear,
    h.undue, h.unread, h.silenced⟩

/-- A session that has just come to its connection is steady: it has written nothing yet. -/
theorem Fresh.steady (h : s.Fresh settings)
    (hencrypted : s.encrypted = true → settings.usesImplicitTls = true) :
    s.Steady settings Allowed := by
  refine ⟨h.toUnused.kept, h.attends, ?_, ?_, ?_, ?_, ?_, ?_⟩
  · rw [h.writesOf_eq, h.quiet.1, h.nothing]
    rfl
  · rw [h.writesOf_eq]
    simp
  · exact fun hcancel => ⟨h.silenced hcancel, h.quiet.1⟩
  · rw [h.countP_eq, List.count_eq_zero_of_not_mem h.clear]
  · exact fun henc => Or.inl (hencrypted henc)
  · exact fun _ => h.unread

theorem fresh_start (settings : Settings) (password : Option String) (script : Script) :
    (start settings password script).Fresh settings := by
  have hnew : Fresh settings ⟨.start settings, script.steps, [], false, 0, [], false, none⟩ :=
    ⟨⟨by simp [entries], rfl⟩, attends_start settings none script, ⟨rfl, rfl⟩,
      by simp [entries, callsOf], rfl, rfl, by simp [entries, callsOf]⟩
  cases password with
  | none => exact hnew
  | some text => exact hnew.call rfl

theorem fresh_connecting (settings : Settings) (password : Option String) (script : Script)
    (e : Envelope) : (connecting settings password script e).2.Fresh settings := by
  have hsubmitted := (fresh_start settings password script).call (c := .submit e) rfl
  exact connectWith_keeps (fun s c h => h.control c) (fun s now h => h.wait now s.encrypted)
    hsubmitted.connection _ _ _

section Submission

variable (settings : Settings) (password : Option String) (envelope : Except Error Envelope)
  (script : Script)

/-- The traces of a submission at which the handshake may begin. -/
def MayUpgrade (before : List Entry) : Prop :=
  ∃ s, Reached settings password envelope script s ∧ s.writeOut.Settled ∧
    s.writeOut.entries = before

structure Disciplined (r : Result) : Prop where
  /-- One write for each piece of data that was put out, in order. -/
  in_order : (writesOf r.2.entries).map (·.1) <+: putOutData settings r.2.entries
  complete : r.1.isSome = true → (∀ w ∈ writesOf r.2.entries, w.2 = true) →
    (writesOf r.2.entries).map (·.1) = putOutData settings r.2.entries
  /-- Only the last write may have failed. -/
  stops : ∀ w ∈ (writesOf r.2.entries).dropLast, w.2 = true
  cancelled : Throughout r.2.entries fun before e => .call .cancel ∈ before → e.written? = none
  upgrade_once : r.2.entries.countP Entry.isUpgrade ≤ 1
  upgrades : Throughout r.2.entries fun before e => e.isUpgrade = true →
    MayUpgrade settings password envelope script before
  /-- The end of a submission that returns, has had a connection, and still has it. -/
  shut : r.1.isSome = true → (opened settings password envelope script).isSome = true →
    ¬UpgradeFailed r.2.entries → ∃ front encrypted, r.2.entries = front ++ [.shutdown encrypted] ∧
      ∀ e ∈ front, e.isShutdown = false
  unshut : r.1 = none ∨ opened settings password envelope script = none ∨
    UpgradeFailed r.2.entries → ∀ e ∈ r.2.entries, e.isShutdown = false

variable {settings password envelope script}

/-- Without a connection, nothing is written and nothing was to be. -/
theorem Unused.disciplined {r : Result} (h : r.2.Unused settings)
    (hunopened : opened settings password envelope script = none) :
    Disciplined settings password envelope script r := by
  have hkept : r.2.Kept settings (MayUpgrade settings password envelope script) := h.kept
  refine ⟨hkept.in_order, ?_, hkept.stops, hkept.cancelled, hkept.upgrade_once, hkept.upgrades, ?_,
    fun _ => hkept.unshut⟩
  · intro _ _
    rw [h.writesOf_eq, h.nothing]
    rfl
  · intro _ hopened
    rw [hunopened] at hopened
    cases hopened

/-- A submission that never gets a connection writes nothing and shuts nothing down. -/
theorem unused_run (h : opened settings password envelope script = none) :
    (run settings password envelope script).2.Unused settings := by
  cases envelope with
  | error error => exact (fresh_start settings password script).toUnused.log rfl ⟨rfl, rfl, rfl⟩
  | ok e =>
    have hfresh := fresh_connecting settings password script e
    rw [run_ok]
    unfold opened at h
    dsimp only at h
    split
    · next ended heq =>
      rw [heq] at hfresh
      exact hfresh.toUnused
    · next error ended heq =>
      rw [heq] at hfresh
      exact (hfresh.call (c := .lost error) rfl).toUnused
    · next connected heq =>
      rw [heq] at h
      cases h

theorem fresh_of_opened {first : Session}
    (h : opened settings password envelope script = some first) :
    first.Fresh settings ∧ first.encrypted = settings.usesImplicitTls := by
  unfold opened at h
  split at h
  · cases h
  · next e =>
    have hfresh := fresh_connecting settings password script e
    split at h
    · next connected heq =>
      rw [heq] at hfresh
      cases h
      exact ⟨hfresh.wait connected.now settings.usesImplicitTls, rfl⟩
    · cases h

/-- At the beginning of every round, the connection has been used well. -/
theorem steady_of_reached {s : Session} (h : Reached settings password envelope script s) :
    s.Steady settings (MayUpgrade settings password envelope script) := by
  obtain ⟨first, hopened, hrounds⟩ := h
  obtain ⟨hfresh, hencrypted⟩ := fresh_of_opened hopened
  have hbegun : (first.call .connected).Steady settings
      (MayUpgrade settings password envelope script) := by
    refine (hfresh.call rfl).steady ?_
    rw [call_encrypted, hencrypted]
    exact id
  -- on the rounds: the last of them begins in a session that was reached
  induction hrounds with
  | refl => exact hbegun
  | tail hearlier hlast ih =>
    exact ih.round (fun hsettled => ⟨_, ⟨first, hopened, hearlier⟩, hsettled, rfl⟩) hlast

end Submission

variable {password : Option String} {envelope : Except Error Envelope} {script : Script}

/-- An exchange that has ended is followed by the end of its connection, if that is still there. -/
theorem Ended.disciplined {first : Session}
    (h : Ended settings (MayUpgrade settings password envelope script)
      (exchange script.upgrade (first.call .connected)))
    (hopened : opened settings password envelope script = some first) :
    Disciplined settings password envelope script (first.converse script) := by
  obtain ⟨hkept, hcomplete, hfailed⟩ := h
  unfold converse
  split
  · next ended heq =>
    rw [heq] at hkept hcomplete hfailed
    exact ⟨hkept.in_order, fun _ => hcomplete, hkept.stops, hkept.cancelled, hkept.upgrade_once,
      hkept.upgrades, fun hreturned => (by cases hreturned), fun _ => hkept.unshut⟩
  · next ended heq =>
    rw [heq] at hkept hcomplete hfailed
    have hgone : UpgradeFailed ended.entries := hfailed.mpr rfl
    exact ⟨hkept.in_order, fun _ => hcomplete, hkept.stops, hkept.cancelled, hkept.upgrade_once,
      hkept.upgrades, fun _ _ hthere => absurd hgone hthere, fun _ => hkept.unshut⟩
  · next ended heq =>
    rw [heq] at hkept hcomplete hfailed
    have hthere : ¬UpgradeFailed ended.entries := fun hgone => by cases hfailed.mp hgone
    have hentries : (ended.shutdown script.shutdown).entries =
        ended.entries ++ [.shutdown ended.encrypted] := entries_log _ _
    have hwrites : writesOf (ended.shutdown script.shutdown).entries = writesOf ended.entries :=
      ended.writesOf_log (e := .shutdown ended.encrypted) rfl
    have hcalls : callsOf (ended.shutdown script.shutdown).entries = callsOf ended.entries :=
      ended.callsOf_log (e := .shutdown ended.encrypted) rfl
    have hcount : (ended.shutdown script.shutdown).entries.countP Entry.isUpgrade =
        ended.entries.countP Entry.isUpgrade :=
      ended.countP_isUpgrade_log (e := .shutdown ended.encrypted) rfl
    refine ⟨?_, fun _ => ?_, ?_, ?_, ?_, ?_, ?_, ?_⟩
    · rw [hwrites, putOutData, hcalls]
      exact hkept.in_order
    · rw [hwrites, putOutData, hcalls]
      exact hcomplete
    · rw [hwrites]
      exact hkept.stops
    · rw [hentries]
      exact hkept.cancelled.snoc fun _ => rfl
    · rw [hcount]
      exact hkept.upgrade_once
    · rw [hentries]
      exact hkept.upgrades.snoc fun hupgrade => by cases hupgrade
    · exact fun _ _ _ => ⟨ended.entries, ended.encrypted, hentries, hkept.unshut⟩
    · rintro (hreturned | hunopened | hgone)
      · cases hreturned
      · rw [hopened] at hunopened
        cases hunopened
      · rw [UpgradeFailed, hcalls, hcount] at hgone
        exact absurd hgone hthere

/-- Whatever the server sends and whenever the caller speaks, the connection is used well. -/
theorem disciplined_run (settings : Settings) (password : Option String)
    (envelope : Except Error Envelope) (script : Script) :
    Disciplined settings password envelope script (run settings password envelope script) := by
  cases hopened : opened settings password envelope script with
  | none => exact (unused_run hopened).disciplined hopened
  | some first =>
    rw [run_of_opened hopened]
    obtain ⟨last, hrounds, hends⟩ : ∃ last, Rounds script.upgrade (first.call .connected) last ∧
        Ends script.upgrade last (exchange script.upgrade (first.call .connected)) :=
      exchange_rounds _
    have hreached : Reached settings password envelope script last := ⟨first, hopened, hrounds⟩
    have hended := (steady_of_reached hreached).ends
      (fun hsettled => ⟨last, hreached, hsettled, rfl⟩) hends
    exact hended.disciplined hopened

end Session

def Script.atOnce (steps : List Step) : Script where
  delays := []
  connect := .ok
  steps := steps
  upgrade := fun _ => .ok
  shutdown := .ok

namespace Session

def stalledSteps : List Step :=
  [.line (Utf8.encode "220 mx ESMTP"), .line (Utf8.encode "250-mx"),
    .line (Utf8.encode "250 AUTH PLAIN"), .stall]

/-- A submission that waits for a password that is never given has a connection, and never shuts it
down. -/
theorem unshut_stalledSteps :
    (opened { Settings.plain with requireAuth := true } none (.ok .greeting)
        (.atOnce stalledSteps)).isSome = true ∧
      ¬UpgradeFailed (run { Settings.plain with requireAuth := true } none (.ok .greeting)
        (.atOnce stalledSteps)).2.entries ∧
      ∀ e ∈ (run { Settings.plain with requireAuth := true } none (.ok .greeting)
        (.atOnce stalledSteps)).2.entries, e.isShutdown = false := by
  decide +kernel

end Session

end SmtpClient
