import SmtpClient.Proofs.Replay
import SmtpClient.Proofs.Transcript

namespace SmtpClient

namespace Dialogue

/-- What one more call puts out in the clear. -/
theorem clear_outputOf {settings : Settings} (hs : settings.usesStartTls = true)
    {calls : List Call} {call : Call} (h : .encrypted ∉ calls ++ [call]) :
    ∀ t ∈ ((start settings).after calls).outputOf call,
      ∃ c ∈ settings.clearCommands, t.data = c.render := by
  intro t ht
  have hbefore : .encrypted ∉ calls := fun hmem => h (List.mem_append_left _ hmem)
  have hclear := EncryptsWhenDue.of_notMem settings hbefore
  have hcall : call ≠ .encrypted := by
    rintro rfl
    simp at h
  obtain ⟨said, htold, -⟩ := hclear.told
  have hm := mustEncrypt_after hs hbefore
  have hm' := mustEncrypt_after hs h
  have hsettings := settings_after settings (calls ++ [call])
  rw [after_snoc] at hm' hsettings
  cases htold.adds hclear.standing.2 call fun heq => absurd heq hcall with
  | quiet _ ho =>
    rw [ho] at ht
    cases ht
  | aside t' _ ho haside =>
    rw [ho, List.mem_singleton] at ht
    subst ht
    cases haside with
    | response password hf => simp [hm] at hf
    | body data hf => simp [hm] at hf
    | farewell error => exact ⟨.quit, by simp [Settings.clearCommands], rfl⟩
  | command c hnext ho =>
    rw [ho, List.mem_singleton] at ht
    subst ht
    have hmem := hnext.turn.clear hm' (List.mem_append_right said (List.mem_singleton_self c))
    rw [hsettings] at hmem
    exact ⟨c, hmem, rfl⟩
  | transaction e size hnext =>
    have hmem := hnext.turn.clear hm' (List.mem_append_right said List.mem_cons_self)
    simp [Settings.clearCommands] at hmem

/-- Before the connection is encrypted nothing is put out but the greetings, the command to encrypt
and QUIT. -/
theorem clear_putOut {settings : Settings} (hs : settings.usesStartTls = true)
    {calls : List Call} (h : .encrypted ∉ calls) :
    ∀ t ∈ (start settings).putOut calls, ∃ c ∈ settings.clearCommands, t.data = c.render := by
  induction calls using List.reverseRecOn with
  | nil =>
    intro t ht
    cases ht
  | append_singleton calls call ih =>
    intro t ht
    rw [putOut_snoc] at ht
    rcases List.mem_append.mp ht with hold | hnew
    · exact ih (fun hmem => h (List.mem_append_left _ hmem)) t hold
    · exact clear_outputOf hs h t hnew

end Dialogue

/-- How an entry of a session keeps what is confidential: only over an encrypted connection is
anything written but the commands that may be said in the clear. -/
structure Confidential (settings : Settings) (upgrade : List Step → Ending) (before : List Entry)
    (e : Entry) : Prop extends Accounted settings upgrade before e where
  clear : ∀ data, e.written? = some data → before.any Entry.encrypts = true ∨
    settings.usesStartTls = true ∧ ∃ c ∈ settings.clearCommands, data = c.render

theorem mem_of_mem_callsOf {entries : List Entry} {c : Call} (h : c ∈ callsOf entries) :
    .call c ∈ entries := by
  obtain ⟨e, he, hcall⟩ := List.mem_filterMap.mp h
  cases e with
  | call c' =>
    obtain rfl := Option.some.inj hcall
    exact he
  | _ => cases hcall

/-- An entry that is accounted for is written over an encrypted connection, or is what may be said
in the clear. -/
theorem Accounted.confidential {settings : Settings} {upgrade : List Step → Ending}
    {before : List Entry} {e : Entry} (h : Accounted settings upgrade before e)
    (hsecurity : settings.security ≠ .none) : Confidential settings upgrade before e := by
  refine ⟨h, fun data hdata => ?_⟩
  have hmade : settings.connection ∈ before := h.connected (by rw [hdata]; rfl)
  obtain ⟨t, ht, rfl⟩ := h.written data hdata
  -- before the dialogue is told that the connection is encrypted, only implicit encryption makes it
  by_cases hencrypted : Call.encrypted ∈ callsOf before
  · left
    exact List.any_eq_true.mpr ⟨.call .encrypted, mem_of_mem_callsOf hencrypted, rfl⟩
  · cases hsettings : settings.security with
    | none => exact absurd hsettings hsecurity
    | startTls =>
      right
      have hs : settings.usesStartTls = true := by simp [Settings.usesStartTls, hsettings]
      obtain ⟨c, hc, heq⟩ := Dialogue.clear_putOut hs hencrypted t ht
      exact ⟨hs, c, hc, heq⟩
    | implicit =>
      left
      have hs : settings.usesImplicitTls = true := by simp [Settings.usesImplicitTls, hsettings]
      exact List.any_eq_true.mpr ⟨settings.connection, hmade, hs⟩

namespace Session

/-- There is no downgrade. Whatever the server sends and whenever the password or a cancellation
comes, a client that is to encrypt the connection neither puts out nor writes anything but the
greetings, the command to encrypt and QUIT until it is encrypted. -/
theorem confidential_run (settings : Settings) (h : settings.security ≠ .none) :
    (settings.usesStartTls = true → ∀ calls : List Call, .encrypted ∉ calls →
      ∀ t ∈ (Dialogue.start settings).putOut calls,
        ∃ c ∈ settings.clearCommands, t.data = c.render) ∧
    ∀ password envelope script, Throughout (run settings password envelope script).2.entries
      (Confidential settings script.upgrade) := by
  refine ⟨fun hs calls => Dialogue.clear_putOut hs, ?_⟩
  intro password envelope script before e later heq
  have haccounted := (replays_run settings password envelope script).accounted before e later heq
  exact haccounted.confidential h

def guardedScript : Script where
  delays := []
  connect := .ok
  steps := ["220 mx", "250-mx", "250 STARTTLS", "220 go ahead", "250-mx", "250 AUTH PLAIN", "334 ",
    "235 ok", "250 ok", "250 ok", "354 go", "250 queued", "221 bye"].map
      fun text => .line (Utf8.encode text)
  upgrade := fun _ => .ok
  shutdown := .ok

theorem confidential_guardedScript :
    Settings.guarded.security ≠ .none ∧
      (run .guarded (some "secret") (.ok .greeting) guardedScript).1.map (·.isOk) = some true ∧
      Throughout (run .guarded (some "secret") (.ok .greeting) guardedScript).2.entries
        (Confidential .guarded guardedScript.upgrade) := by
  have hsecurity : Settings.guarded.security ≠ .none := by decide
  have hconfidential := confidential_run .guarded hsecurity
  exact ⟨hsecurity, by decide +kernel, hconfidential.2 _ _ _⟩

end Session

end SmtpClient
