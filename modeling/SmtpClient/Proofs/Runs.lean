import Mathlib.Data.List.Induction
import SmtpClient.Dialogue.Calls

/-!
What a run of calls leaves behind: the dialogue after it, the events that it returned, and
everything that it has put out to be written. Transmits are only ever added at the end, so a run
that goes on puts out what it had put out before, and then what each call adds.
-/
namespace SmtpClient.Dialogue

def after (d : Dialogue) (calls : List Call) : Dialogue := (d.run calls).1

def events (d : Dialogue) (calls : List Call) : List Event := (d.run calls).2.flatMap (·.events)

/-- What a run has put out: what was taken to be written, and then what still waits for that. -/
def putOut (d : Dialogue) (calls : List Call) : List Transmit :=
  (d.run calls).2.filterMap (·.transmit) ++ (d.after calls).outbound

def eventsOf (d : Dialogue) (call : Call) : List Event := (d.perform call).2.events

def outputOf (d : Dialogue) (call : Call) : List Transmit :=
  (d.perform call).1.outbound.drop d.outbound.length

theorem run_append (d : Dialogue) (before later : List Call) :
    d.run (before ++ later) =
      (((d.run before).1.run later).1, (d.run before).2 ++ ((d.run before).1.run later).2) := by
  induction before generalizing d with
  | nil => rfl
  | cons call before ih => simp only [List.cons_append, run, ih]

@[simp]
theorem after_nil (d : Dialogue) : d.after [] = d := rfl

@[simp]
theorem events_nil (d : Dialogue) : d.events [] = [] := rfl

@[simp]
theorem putOut_nil (d : Dialogue) : d.putOut [] = d.outbound := rfl

/-- A run in two parts leads where its second part leads from where the first has led. -/
@[simp]
theorem after_append (d : Dialogue) (before later : List Call) :
    d.after (before ++ later) = (d.after before).after later := by
  simp only [after, run_append]

theorem after_singleton (d : Dialogue) (call : Call) : d.after [call] = (d.perform call).1 := rfl

/-- The events of a run in two parts are those of both, the second part begun where the first has
led. -/
@[simp]
theorem events_append (d : Dialogue) (before later : List Call) :
    d.events (before ++ later) = d.events before ++ (d.after before).events later := by
  simp only [events, after, run_append, List.flatMap_append]

theorem events_singleton (d : Dialogue) (call : Call) : d.events [call] = d.eventsOf call := by
  simp only [events, eventsOf, run, List.flatMap_cons, List.flatMap_nil, List.append_nil]

theorem after_snoc (d : Dialogue) (calls : List Call) (call : Call) :
    d.after (calls ++ [call]) = ((d.after calls).perform call).1 := by
  rw [after_append, after_singleton]

/-- The last call adds its events to those of the calls before it. -/
theorem events_snoc (d : Dialogue) (calls : List Call) (call : Call) :
    d.events (calls ++ [call]) = d.events calls ++ (d.after calls).eventsOf call := by
  rw [events_append, events_singleton]

/-- Some call of a run has a property, together with the calls before it. -/
def Occurs (calls : List Call) (P : List Call → Call → Prop) : Prop :=
  ∃ before call later, calls = before ++ call :: later ∧ P before call

theorem not_occurs_nil (P : List Call → Call → Prop) : ¬Occurs [] P := by
  rintro ⟨before, call, later, heq, -⟩
  simp at heq

/-- Something occurs in a longer run if it has occurred before, or occurs with the last call. -/
theorem occurs_snoc_iff (calls : List Call) (call : Call) (P : List Call → Call → Prop) :
    Occurs (calls ++ [call]) P ↔ Occurs calls P ∨ P calls call := by
  constructor
  · rintro ⟨before, call', later, heq, hp⟩
    rcases List.eq_nil_or_concat later with rfl | ⟨later', last, rfl⟩
    · obtain ⟨rfl, hcall⟩ := List.append_inj' heq rfl
      cases hcall
      exact Or.inr hp
    · have hsplit : calls ++ [call] = (before ++ call' :: later') ++ [last] := by simpa using heq
      obtain ⟨rfl, -⟩ := List.append_inj' hsplit rfl
      exact Or.inl ⟨before, call', later', rfl, hp⟩
  · rintro (⟨before, call', later, rfl, hp⟩ | hp)
    · exact ⟨before, call', later ++ [call], by simp, hp⟩
    · exact ⟨calls, call, [], rfl, hp⟩

/-- What has occurred is not undone by later calls. -/
theorem Occurs.append {calls : List Call} {P : List Call → Call → Prop} (h : Occurs calls P)
    (later : List Call) : Occurs (calls ++ later) P := by
  obtain ⟨before, call, rest, rfl, hp⟩ := h
  exact ⟨before, call, rest ++ later, by simp, hp⟩

/-- What occurs in a run occurs a first time. -/
theorem Occurs.exists_first {calls : List Call} {P : List Call → Call → Prop} (h : Occurs calls P) :
    ∃ before call later, calls = before ++ call :: later ∧ P before call ∧ ¬Occurs before P := by
  induction calls using List.reverseRecOn with
  | nil => exact absurd h (not_occurs_nil P)
  | append_singleton calls last ih =>
    by_cases hbefore : Occurs calls P
    · obtain ⟨before, call, later, rfl, hp, hfirst⟩ := ih hbefore
      exact ⟨before, call, later ++ [last], by simp, hp, hfirst⟩
    · have hlast : P calls last := ((occurs_snoc_iff calls last P).mp h).resolve_left hbefore
      exact ⟨calls, last, [], rfl, hlast, hbefore⟩

instance (calls : List Call) (P : List Call → Call → Prop)
    [∀ before call, Decidable (P before call)] : Decidable (Occurs calls P) :=
  decidable_of_iff (∃ n : Fin calls.length, P (calls.take n) (calls.get n)) <| by
    constructor
    · rintro ⟨n, hp⟩
      refine ⟨calls.take n, calls.get n, calls.drop (n + 1), ?_, hp⟩
      rw [List.get_eq_getElem, List.getElem_cons_drop, List.take_append_drop]
    · rintro ⟨before, call, later, rfl, hp⟩
      exact ⟨⟨before.length, by simp⟩, by simpa using hp⟩

def replies (texts : List String) : List Call := texts.map fun text => .line (Utf8.encode text)

def conversation (e : Envelope) (texts : List String) : List Call :=
  .submit e :: .connected :: replies texts

end SmtpClient.Dialogue

namespace SmtpClient

def Call.isLine : Call → Bool
  | line _ => true
  | _ => false

def Settings.plain : Settings := { Settings.default with security := .none }

def Settings.guarded : Settings := { Settings.default with requireAuth := true, user := "alice" }

def Envelope.greeting : Envelope where
  sender := ⟨"alice@example.com", by decide⟩
  recipients := [⟨"bob@example.com", by decide⟩]
  payload := .message (Utf8.encode "hi\r\n")
  some_recipient := by simp

def Envelope.toBoth (payload : Payload) : Envelope where
  sender := ⟨"alice@example.com", by decide⟩
  recipients := [⟨"bob@example.com", by decide⟩, ⟨"carol@example.com", by decide⟩]
  payload := payload
  some_recipient := by simp

def Reference.draft : Reference := ⟨"imap://mail/draft", by decide⟩

def repliesToRecipient : List String := ["220 mx ESMTP", "250 mx", "250 ok", "250 ok"]

def repliesToBody : List String := repliesToRecipient ++ ["354 go", "250 queued"]

def repliesToBatch : List String :=
  ["220 mx ESMTP", "250-mx", "250-PIPELINING", "250 BURL imap", "250 ok", "250 ok"]

end SmtpClient
