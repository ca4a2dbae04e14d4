import SmtpClient.Proofs.Authentication
import SmtpClient.Proofs.Parallel
import SmtpClient.Proofs.Waiting

namespace SmtpClient.Dialogue

structure Unasked (d : Dialogue) : Prop where
  free : d.settings.requireAuth = false
  unparked : d.parked = false
  unsent : .auth ∉ d.pipeline.verbs

theorem Unasked.not_mustAuthenticate {d s : Dialogue} (h : d.Unasked)
    (hsettings : s.settings = d.settings) : ¬s.mustAuthenticate = true := by
  rw [mustAuthenticate, hsettings, h.free]
  simp

theorem Unasked.aloof {d s : Dialogue} {r : Outcome} (h : d.Unasked)
    (hsettings : s.settings = d.settings) (hparked : s.parked = d.parked)
    (hleft : s.pipeline.verbs ⊆ d.pipeline.verbs) (hr : s.Aloof r) : r.1.Unasked := by
  refine ⟨?_, ?_, fun hauth => h.unsent (hleft (hr.auth_of hauth))⟩
  · rw [hr.settings_eq, hsettings]
    exact h.free
  · by_contra hnot
    have hbefore := hr.parked_of (by simpa using hnot)
    rw [hparked, h.unparked] at hbefore
    cases hbefore

/-- No call lets a dialogue that need not authenticate wait for the password or send AUTH. -/
theorem Unasked.deals {d : Dialogue} {call : Call} {r : Outcome} (h : d.Unasked)
    (hr : d.Deals call r) : r.1.Unasked := by
  have hleft {s : Dialogue} (hs : d.Follows call s) : s.pipeline.verbs ⊆ d.pipeline.verbs := by
    rw [hs.pipeline_eq]
    exact d.verbs_answered_subset call
  cases hr with
  | follows s hs hr =>
    cases hr with
    | aloof hr => exact h.aloof hs.settings_eq hs.parked_eq (hleft hs) hr
    | parks ha | asks ha | authenticates ha =>
      exact absurd ha (h.not_mustAuthenticate hs.settings_eq)
  | accepted f s hs _ _ hr =>
    have hless := hleft hs
    exact h.aloof (s := { s with authenticated := true }) hs.settings_eq hs.parked_eq hless hr
  | learns _ _ _ hr | responds _ _ _ _ _ _ hr | polls _ hr =>
    rw [hr]
    exact ⟨h.free, h.unparked, h.unsent⟩
  | resumes _ _ hp =>
    rw [h.unparked] at hp
    cases hp
  | requests _ _ _ _ ha =>
    rw [h.free] at ha
    cases ha

theorem Unasked.perform {d : Dialogue} (h : d.Unasked) (call : Call) :
    (d.perform call).1.Unasked := h.deals (d.deals call)

/-- Without authentication in the settings no dialogue asks for it, in any run. -/
theorem unasked_after {settings : Settings} (hfree : settings.requireAuth = false)
    (calls : List Call) : ((start settings).after calls).Unasked := by
  induction calls using List.reverseRecOn with
  | nil => exact ⟨hfree, rfl, by simp [start, Pipeline.verbs, Pipeline.empty]⟩
  | append_singleton calls call ih =>
    rw [after_snoc]
    exact ih.perform call

/-- A dialogue and one that differs from it at most in a password that it does not use. The password
that is known is that of both, if one is asked for. -/
structure Matched (known : Option String) (d d' : Dialogue) : Prop where
  beside : Beside Eq d d'
  unasked : d.settings.requireAuth = false → d.Unasked
  known : d.settings.requireAuth = true →
    d.ParkedInWant ∧ d.password = known ∧ d'.password = known

section Matched

variable {known : Option String} {d d' : Dialogue}

theorem Matched.outbound_eq (h : Matched known d d') : d'.outbound = d.outbound := by
  have hout := h.beside.outbound
  rw [List.forall₂_eq_eq_eq] at hout
  exact hout.symm

theorem Matched.isFinished_eq (h : Matched known d d') : d'.isFinished = d.isFinished := by
  rw [h.beside.same]
  rfl

theorem Matched.settings_eq (h : Matched known d d') : d'.settings = d.settings := by
  rw [h.beside.same]
  rfl

theorem Matched.parked_eq (h : Matched known d d') : d'.parked = d.parked := by
  rw [h.beside.same]
  rfl

theorem Matched.succeeded_eq (h : Matched known d d') : d'.succeeded = d.succeeded := by
  rw [h.beside.same]
  rfl

/-- Every dialogue that a run leads to is matched with itself. -/
theorem matched_after (settings : Settings) (calls : List Call) :
    Matched ((start settings).after calls).password ((start settings).after calls)
      ((start settings).after calls) := by
  refine ⟨⟨rfl, List.forall₂_same.mpr fun _ _ => rfl⟩, fun hfree => ?_, fun _ =>
    ⟨parkedInWant_after settings calls, rfl, rfl⟩⟩
  rw [settings_after] at hfree
  exact unasked_after hfree calls

/-- The password is the same, or it is not used. -/
theorem Matched.agrees (h : Matched known d d') : d.Agrees Eq d'.password := by
  cases hrequired : d.settings.requireAuth with
  | true =>
    obtain ⟨-, hd, hd'⟩ := h.known hrequired
    refine ⟨fun _ => by rw [hd, hd'], fun _ => ?_⟩
    rw [hd, hd']
    cases known with
    | none => exact .none
    | some text => exact .some rfl
  | false =>
    refine ⟨fun hnot => ?_, fun hawaited => ?_⟩
    · rw [hrequired] at hnot
      cases hnot
    · exact absurd (mem_verbs_of_awaited hawaited) (h.unasked hrequired).unsent

/-- A call that gives no password leaves the dialogues matched, and they report the same. -/
theorem Matched.perform (h : Matched known d d') {call : Call} (hcall : call.password? = none) :
    Matched known (d.perform call).1 (d'.perform call).1 ∧ d'.eventsOf call = d.eventsOf call := by
  have hkept (s : Dialogue) : (s.perform call).1.password = s.password := by
    rw [(s.deals call).password_eq, hcall, Option.none_or]
  obtain ⟨hnext, hanswer⟩ := h.beside.perform (fun _ => rfl) (.same call) h.agrees
  refine ⟨⟨hnext, fun hfree => ?_, fun hrequired => ?_⟩, hanswer.events_eq⟩
  · rw [settings_perform] at hfree
    exact (h.unasked hfree).perform call
  · rw [settings_perform] at hrequired
    obtain ⟨hwant, hd, hd'⟩ := h.known hrequired
    rw [hkept, hkept]
    exact ⟨hwant.perform call, hd, hd'⟩

/-- A password that the dialogue does not act on. -/
theorem Matched.givePassword (h : Matched known d d') (hopen : d.isFinished = false) {text : String}
    (hidle : d.settings.requireAuth = false ∨ known = some text) :
    Matched known d (d'.givePassword text) ∧ d'.eventsOf (.password text) = [] := by
  have hunparked : d.parked = false := by
    by_contra hnot
    have hparked : d.parked = true := by simpa using hnot
    cases hrequired : d.settings.requireAuth with
    | false =>
      rw [(h.unasked hrequired).unparked] at hparked
      cases hparked
    | true =>
      obtain ⟨hwant, hd, -⟩ := h.known hrequired
      have hnone := hwant hparked ((isFinished_eq_false_iff d).mp hopen)
      rcases hidle with hfree | rfl
      · rw [hfree] at hrequired
        cases hrequired
      · rw [hd] at hnone
        cases hnone
  have hgiven : d'.givePassword text = { d' with password := some text } := by
    apply givePassword_of_unparked
    rw [h.parked_eq, hunparked]
    intro hfalse
    cases hfalse
  refine ⟨⟨⟨?_, ?_⟩, h.unasked, fun hrequired => ?_⟩, rfl⟩
  · rw [hgiven, h.beside.same]
    rfl
  · rw [hgiven]
    exact h.beside.outbound
  · obtain ⟨hwant, hd, -⟩ := h.known hrequired
    refine ⟨hwant, hd, ?_⟩
    rw [hgiven]
    rcases hidle with hfree | rfl
    · rw [hfree] at hrequired
      cases hrequired
    · rfl

end Matched

end SmtpClient.Dialogue
