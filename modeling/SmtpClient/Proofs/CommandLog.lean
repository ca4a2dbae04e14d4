import Mathlib.Data.List.Nodup
import SmtpClient.Proofs.Pipeline

/-!
A pipeline as a log of commands. Commands are sent in the order in which they were enqueued and
answered in the order in which they were sent, so that until the pipeline is cleared two positions
say all: how many commands were sent, and how many of these were answered.
-/
namespace SmtpClient.Pipeline

inductive Op where
  | enqueue (c : Command)
  | drain
  | drainAll
  | acknowledge
  | clear

def Op.command? : Op → Option Command
  | enqueue c => some c
  | _ => none

def perform (p : Pipeline) : Op → Pipeline
  | .enqueue c => p.enqueue c
  | .drain => p.drain.2
  | .drainAll => p.drainAll.2
  | .acknowledge => p.acknowledge.2
  | .clear => p.clear

def after (p : Pipeline) (ops : List Op) : Pipeline := ops.foldl perform p

def gathered {α : Type} (give : Pipeline → Op → List α) : Pipeline → List Op → List α
  | _, [] => []
  | p, op :: ops => give p op ++ gathered give (p.perform op) ops

def tagGiven (p : Pipeline) : Op → List Tag
  | .enqueue c => [(p.enqueue c).issued]
  | _ => []

def transmitted (p : Pipeline) : Op → List Transmit
  | .drain => p.drain.1.toList
  | .drainAll => p.drainAll.1.toList
  | _ => []

def acknowledged (p : Pipeline) : Op → List InFlight
  | .acknowledge => p.acknowledge.1.toList
  | _ => []

def held (p : Pipeline) : List InFlight := p.inFlight ++ p.waiting.map sent

def cleared (p : Pipeline) : Op → List InFlight
  | .clear => p.held
  | _ => []

def due (p : Pipeline) : Op → List (Tag × Command)
  | .drain => p.waiting.take 1
  | .drainAll => p.waiting
  | _ => []

def enqueued (ops : List Op) : List Command := ops.filterMap Op.command?

def joined (ts : List Transmit) : Transmit := ⟨ts.flatMap (·.data), ts.flatMap (·.tags)⟩

theorem gathered_cons {α : Type} (give : Pipeline → Op → List α) (p : Pipeline) (op : Op)
    (ops : List Op) :
    gathered give p (op :: ops) = give p op ++ gathered give (p.perform op) ops := rfl

theorem after_cons (p : Pipeline) (op : Op) (ops : List Op) :
    p.after (op :: ops) = (p.perform op).after ops := rfl

/-- What goes in at one end comes out at the other: if at each step what leaves a list and what is
in it afterwards is what was in it and what is added, then this holds of a whole run. -/
theorem gathered_append_view {α : Type} (view : Pipeline → List α)
    {leaving entering : Pipeline → Op → List α} {ops : List Op}
    (hstep : ∀ p, ∀ op ∈ ops, leaving p op ++ view (p.perform op) = view p ++ entering p op)
    (p : Pipeline) :
    gathered leaving p ops ++ view (p.after ops) = view p ++ gathered entering p ops := by
  induction ops generalizing p with
  | nil => simp [gathered, after]
  | cons op ops ih =>
    have hhead := hstep p op List.mem_cons_self
    have hlater := ih (fun p op' hop' => hstep p op' (List.mem_cons_of_mem _ hop')) (p.perform op)
    rw [gathered_cons, gathered_cons, after_cons, List.append_assoc, hlater, ← List.append_assoc,
      hhead, List.append_assoc]

/-- What two kinds of steps give, gathered together or one kind after the other, has the same
members. -/
theorem gathered_append_perm {α : Type} (give give' : Pipeline → Op → List α) (p : Pipeline)
    (ops : List Op) : (gathered (fun p op => give p op ++ give' p op) p ops).Perm
      (gathered give p ops ++ gathered give' p ops) := by
  induction ops generalizing p with
  | nil => exact .nil
  | cons op ops ih =>
    rw [gathered_cons, gathered_cons, gathered_cons, List.append_assoc, List.append_assoc]
    refine .append_left _ (((ih _).append_left _).trans ?_)
    exact List.perm_append_comm_assoc _ _ _

theorem enqueued_cons (op : Op) (ops : List Op) :
    enqueued (op :: ops) = op.command?.toList ++ enqueued ops := by
  rw [enqueued, List.filterMap_cons]
  cases op.command? <;> rfl

theorem issued_perform (p : Pipeline) (op : Op) :
    (p.perform op).issued = p.issued + op.command?.toList.length := by
  cases op with
  | drain => exact congrArg (·.2.issued) p.drain_eq_take
  | drainAll => exact congrArg (·.2.issued) p.drainAll_eq_all
  | _ => rfl

/-- As many numbers were issued as commands were enqueued. -/
theorem issued_after (p : Pipeline) (ops : List Op) :
    (p.after ops).issued = p.issued + (enqueued ops).length := by
  induction ops generalizing p with
  | nil => rfl
  | cons op ops ih =>
    rw [after_cons, ih, issued_perform, enqueued_cons, List.length_append, Nat.add_assoc]

def entered (p : Pipeline) (op : Op) : List (Tag × Command) := numbered p.issued op.command?.toList

/-- The commands of a run are numbered one after another, whatever else is done in between. -/
theorem gathered_entered (p : Pipeline) (ops : List Op) :
    gathered entered p ops = numbered p.issued (enqueued ops) := by
  induction ops generalizing p with
  | nil => rfl
  | cons op ops ih =>
    rw [gathered_cons, ih, enqueued_cons, numbered_append, ← issued_perform]
    rfl

theorem gathered_map {α β : Type} (f : α → β) (give : Pipeline → Op → List α) (p : Pipeline)
    (ops : List Op) :
    gathered (fun p op => (give p op).map f) p ops = (gathered give p ops).map f := by
  induction ops generalizing p with
  | nil => rfl
  | cons op ops ih => rw [gathered_cons, gathered_cons, ih, List.map_append]

section Step

variable (p : Pipeline)

theorem transmitted_eq (op : Op) :
    p.transmitted op = if p.due op = [] then [] else [batchOf (p.due op)] := by
  cases op with
  | drain =>
    rw [transmitted, due, drain_eq_take]
    cases p.waiting <;> rfl
  | drainAll =>
    rw [transmitted, due, drainAll_eq_all]
    cases p.waiting <;> rfl
  | _ => rfl

/-- What is sent and what still waits is what waited and what came in. -/
theorem due_append_waiting {op : Op} (h : op ≠ .clear) :
    p.due op ++ (p.perform op).waiting = p.waiting ++ p.entered op := by
  cases op with
  | clear => exact absurd rfl h
  | enqueue c => rfl
  | drain =>
    rw [due, perform, drain_eq_take, List.take_append_drop]
    exact (List.append_nil p.waiting).symm
  | drainAll => simp [due, perform, drainAll_eq_all, entered, numbered, Op.command?]
  | acknowledge => exact (List.append_nil p.waiting).symm

/-- What is answered and what is still in flight is what was in flight and what was sent. -/
theorem acknowledged_append_inFlight {op : Op} (h : op ≠ .clear) :
    p.acknowledged op ++ (p.perform op).inFlight = p.inFlight ++ (p.due op).map sent := by
  cases op with
  | clear => exact absurd rfl h
  | enqueue c => exact (List.append_nil p.inFlight).symm
  | drain => simp [acknowledged, due, perform, drain_eq_take]
  | drainAll => simp [acknowledged, due, perform, drainAll_eq_all]
  | acknowledge =>
    rw [acknowledged, perform, acknowledge, awaiting]
    cases p.inFlight <;> simp [due]

/-- What is held stays held or leaves in its order, also when it is forgotten. -/
theorem gone_append_held (op : Op) :
    p.acknowledged op ++ p.cleared op ++ (p.perform op).held =
      p.held ++ (p.entered op).map sent := by
  by_cases h : op = .clear
  · subst h
    simp [acknowledged, cleared, perform, clear, held, entered, numbered, Op.command?]
  · have hcleared : p.cleared op = [] := by
      cases op <;> first | rfl | exact absurd rfl h
    calc
      _ = (p.acknowledged op ++ (p.perform op).inFlight) ++ (p.perform op).waiting.map sent := by
        rw [hcleared, List.append_nil, held, List.append_assoc]
      _ = p.inFlight ++ (p.due op ++ (p.perform op).waiting).map sent := by
        rw [p.acknowledged_append_inFlight h, List.append_assoc, List.map_append]
      _ = _ := by
        rw [p.due_append_waiting h, List.map_append, held, List.append_assoc]

end Step

theorem joined_append (ts us : List Transmit) : joined (ts ++ us) = joined ts ++ joined us := by
  change _ = Transmit.append (joined ts) (joined us)
  simp [joined, Transmit.append]

theorem joined_transmitted (p : Pipeline) (op : Op) :
    joined (p.transmitted op) = batchOf (p.due op) := by
  rw [transmitted_eq]
  split
  · next hnone => rw [hnone]; rfl
  · simp [joined]

/-- The transmits of a run, joined, are one transmit of all the commands that were sent. -/
theorem joined_gathered_transmitted (p : Pipeline) (ops : List Op) :
    joined (gathered transmitted p ops) = batchOf (gathered due p ops) := by
  induction ops generalizing p with
  | nil => rfl
  | cons op ops ih =>
    rw [gathered_cons, gathered_cons, joined_append, batchOf_append, joined_transmitted, ih]

/-- The tags that a run hands out are the numbers of its commands. -/
theorem gathered_tagGiven (p : Pipeline) (ops : List Op) :
    gathered tagGiven p ops = (numbered p.issued (enqueued ops)).map Prod.fst := by
  rw [← gathered_entered, ← gathered_map]
  congr 1
  funext p op
  cases op <;> rfl

/-- All that was enqueued has left or is held, in its order. -/
theorem gone_append_held_after (ops : List Op) :
    gathered (fun p op => p.acknowledged op ++ p.cleared op) empty ops ++ (empty.after ops).held =
      (numbered 0 (enqueued ops)).map sent := by
  rw [gathered_append_view held fun p op _ => p.gone_append_held op, gathered_map,
    gathered_entered]
  rfl

/-- How a pipeline that begins empty handles commands: they are sent in their order, and answered in
this order too. What was sent and what was answered of it are the two positions in the log. -/
structure InOrder (p : Pipeline) (ops : List Op) : Prop where
  sent_append_waiting :
    gathered due p ops ++ (p.after ops).waiting = numbered p.issued (enqueued ops)
  joined_eq : joined (gathered transmitted p ops) = batchOf (gathered due p ops)
  answered_append_inFlight :
    gathered acknowledged p ops ++ (p.after ops).inFlight = (gathered due p ops).map sent
  awaiting_eq : (p.after ops).awaiting =
    ((gathered due p ops).map sent)[(gathered acknowledged p ops).length]?
  isInFlight_iff (verb : Verb) : (p.after ops).isInFlight verb = true ↔
    ∃ q ∈ (gathered due p ops).drop (gathered acknowledged p ops).length, q.2.verb = verb

/-- Without clearing, what was sent is a prefix of the commands, and what was answered is a prefix
of that. -/
theorem inOrder {p : Pipeline} (h : p.held = []) {ops : List Op} (hops : .clear ∉ ops) :
    p.InOrder ops := by
  have hne : ∀ op ∈ ops, op ≠ .clear := fun op hop => ne_of_mem_of_not_mem hop hops
  have hheld := List.append_eq_nil_iff.mp h
  have hsent : gathered due p ops ++ (p.after ops).waiting =
      numbered p.issued (enqueued ops) := by
    rw [gathered_append_view waiting fun p op hop => p.due_append_waiting (hne op hop),
      List.map_eq_nil_iff.mp hheld.2, List.nil_append, gathered_entered]
  have hanswered : gathered acknowledged p ops ++ (p.after ops).inFlight =
      (gathered due p ops).map sent := by
    rw [gathered_append_view inFlight fun p op hop => p.acknowledged_append_inFlight (hne op hop),
      hheld.1, List.nil_append, gathered_map]
  refine ⟨hsent, joined_gathered_transmitted p ops, hanswered, ?_, fun verb => ?_⟩
  · rw [← hanswered, List.getElem?_append_right (Nat.le_refl _), Nat.sub_self, awaiting,
      List.head?_eq_getElem?]
  · have hinFlight : (p.after ops).inFlight =
        ((gathered due p ops).drop (gathered acknowledged p ops).length).map sent := by
      rw [List.map_drop, ← hanswered, List.drop_left]
    rw [isInFlight, hinFlight, List.any_map, List.any_eq_true]
    exact exists_congr fun q => and_congr_right fun _ => decide_eq_true_iff

/-- What a pipeline makes of its commands, whatever is done to it. Tags count them, also after the
pipeline was cleared. Each command waits, is in flight, was answered or was forgotten, and is one of
these only. What is in flight was enqueued before what waits. And from one time that the pipeline is
cleared to the next everything goes in order. -/
structure KeepsLog (ops : List Op) : Prop where
  tags_eq : gathered tagGiven empty ops = List.range' 1 (enqueued ops).length
  accounted : (gathered acknowledged empty ops ++ gathered cleared empty ops ++
    ((empty.after ops).inFlight ++ (empty.after ops).waiting.map sent)).Perm
      ((numbered 0 (enqueued ops)).map sent)
  once : (gathered acknowledged empty ops ++ gathered cleared empty ops ++
    ((empty.after ops).inFlight ++ (empty.after ops).waiting.map sent)).Nodup
  increasing : ((empty.after ops).inFlight.map (·.tag) ++
    (empty.after ops).waiting.map (·.1)).Pairwise (· < ·)
  inOrder (before span : List Op) (h : ops = before ++ span)
    (hbefore : before = [] ∨ ∃ earlier, before = earlier ++ [.clear]) (hspan : .clear ∉ span) :
    (empty.after before).InOrder span ∧ (empty.after before).issued = (enqueued before).length

end SmtpClient.Pipeline
