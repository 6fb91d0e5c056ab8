import ModalHost.Proofs.Run
import ModalHost.Proofs.Queues

/-! The trail of a prompt: the answers that are launched, sent and taken in a run by turns, and the
hooks that are registered meanwhile, each where it happens. -/

namespace ModalHost

inductive Entry
  /-- The prompt was opened with hooks, or they replaced those before. -/
  | registered (hooks : Hooks Call)
  | tapped (tap : Tap)
  | sent (answer : Answer)
  /-- The dispatcher found no consumer to send an answer to. -/
  | lost (tap : Tap)
  | accepted (answer : Answer)
  | dropped (answer : Answer)

namespace Entry

def tapped? : Entry → Option Tap
  | tapped tap => some tap
  | _ => none

/-- The answers that left the queue of the dispatcher. -/
def passed? : Entry → Option Tap
  | sent a => some a.tap
  | lost tap => some tap
  | _ => none

def sent? : Entry → Option Answer
  | sent a => some a
  | _ => none

def taken? : Entry → Option Answer
  | accepted a | dropped a => some a
  | _ => none

def accepted? : Entry → Option Answer
  | accepted a => some a
  | _ => none

def hooks (first : Hooks Call) : List Entry → Hooks Call
  | [] => first
  | registered hooks :: trail => Entry.hooks hooks trail
  | _ :: trail => Entry.hooks first trail

/-- The hooks of the prompt `i` that run along a trail: for each answer that is accepted the one that
is registered for its decision then, if there is one. -/
def fires (i : Nat) (first : Hooks Call) : List Entry → List Event
  | [] => []
  | registered hooks :: trail => fires i hooks trail
  | accepted a :: trail =>
    ((first.on a.tap.decision).map fun _ => Event.hookRan i first.tag a.tap.decision).toList ++
      fires i first trail
  | _ :: trail => fires i first trail

variable (i : Nat) (first : Hooks Call) (trail more : List Entry)

theorem hooks_append : hooks first (trail ++ more) = hooks (hooks first trail) more := by
  induction trail generalizing first with
  | nil => rfl
  | cons e trail ih => cases e <;> exact ih _

theorem fires_append :
    fires i first (trail ++ more) = fires i first trail ++ fires i (hooks first trail) more := by
  induction trail generalizing first with
  | nil => rfl
  | cons e trail ih =>
      cases e with
      | accepted a => simp only [List.cons_append, fires, hooks, ih, List.append_assoc]
      | _ => exact ih _

end Entry

def Job.tap? (i : Nat) : Job → Option Tap
  | .offer j tap => if j = i then some tap else none
  | _ => none

def Event.answer? (i : Nat) : Event → Option Answer
  | .accepted j a _ => if j = i then some a else none
  | _ => none

/-- Whether an event is the start of a hook of a prompt. -/
def Event.fired (i : Nat) : Event → Bool
  | .hookRan j _ _ => j == i
  | _ => false

namespace Host

def entriesOf (h : Host) (i : Nat) : Call → List Entry
  | .press responder decision =>
    match h.responder? responder, h.prompts[i]? with
    | some r, some p => if r.prompt = i then [.tapped ⟨decision, r.picture, p.issued⟩] else []
    | _, _ => []
  | .setHooks dialog hooks =>
    match h.prompt? dialog, h.prompts[i]? with
    | some j, some _ => if j = i then [.registered hooks] else []
    | _, _ => []
  | _ => []

def entriesOfAll (h : Host) (i : Nat) : List Call → List Entry
  | [] => []
  | c :: calls => h.entriesOf i c ++ (h.call c).entriesOfAll i calls

/-- What a move adds to the trail of a prompt. The entries of the calls that a hook makes follow the
answer that is accepted. -/
def entriesOfMove (h : Host) (i : Nat) : Move → List Entry
  | .dispatch scope =>
    match h.queued scope, h.prompts[i]? with
    | .offer j tap :: _, some p =>
      if j = i ∧ (h.dispatch? scope).isSome then
        if h.ownsPrompt i then [.sent (p.answer tap)] else [.lost tap]
      else []
    | _, _ => []
  | .deliver j =>
    match h.prompts[j]? with
    | none => []
    | some p =>
      match p.mailbox with
      | none => []
      | some a =>
        if !h.ownsPrompt j then []
        else if p.accepts a then
          (if j = i then [.accepted a] else []) ++
            (h.heard j p a).entriesOfAll i ((p.hooks.on a.tap.decision).getD [])
        else if j = i then [.dropped a]
        else []
  | .retire j =>
    if j = i ∧ (h.retire? j).isSome then
      ((h.prompts[j]?.bind (·.mailbox)).map .dropped).toList
    else []
  | _ => []

def arrivals (h : Host) (i : Nat) (next : Host) : List Entry :=
  match h.prompts[i]?, next.prompts[i]? with
  | none, some p => [.registered p.hooks]
  | _, _ => []

def entriesOfTurn (h : Host) (i : Nat) : Session.Step ⊕ Move → List Entry
  | .inl (.call c) => h.entriesOf i c
  | .inl s => h.arrivals i (Session.act h s).1
  | .inr m => h.entriesOfMove i m

/-- The trail of a prompt along a run by turns. -/
def trail (i : Nat) (h : Host) : List (Session.Step ⊕ Move) → List Entry
  | [] => []
  | turn :: turns => h.entriesOfTurn i turn ++ trail i (h.run [turn]) turns

def hooksOf (h : Host) (i : Nat) : Hooks Call := (h.prompts[i]?.map (·.hooks)).getD .none

/-- The answers that lie between dispatcher and consumer: none or one. -/
def mail (h : Host) (i : Nat) : List Answer := (h.prompts[i]?.bind (·.mailbox)).toList

/-- The answers to a prompt that wait in the queue of its dispatcher. -/
def taps (h : Host) (i : Nat) : List Tap :=
  (h.prompts[i]?.map fun p => (h.queued p.scope).filterMap (Job.tap? i)).getD []

/-- The answers to a prompt that were accepted, in this order. -/
def answersTo (h : Host) (i : Nat) : List Answer := (h.history.filterMap (Event.answer? i)).reverse

def firedFor (h : Host) (i : Nat) : List Event := (h.history.filter (Event.fired i)).reverse

def LiveFor (h : Host) (i : Nat) : Prop :=
  ∀ p, h.prompts[i]? = some p → h.isCancelled p.scope = false

/-- A trail tells what became of the answers and the hooks of a prompt. Answers are lost from the
queue only when the scope is cancelled. -/
structure Follows (i : Nat) (h : Host) (trail : List Entry) (next : Host) : Prop where
  hooks : next.hooksOf i = Entry.hooks (h.hooksOf i) trail
  mail : h.mail i ++ trail.filterMap Entry.sent? = trail.filterMap Entry.taken? ++ next.mail i
  taps : (trail.filterMap Entry.passed? ++ next.taps i).Sublist
    (h.taps i ++ trail.filterMap Entry.tapped?)
  queue : next.LiveFor i →
    trail.filterMap Entry.passed? ++ next.taps i = h.taps i ++ trail.filterMap Entry.tapped?
  answers : next.answersTo i = h.answersTo i ++ trail.filterMap Entry.accepted?
  fired : next.firedFor i = h.firedFor i ++ Entry.fires i (h.hooksOf i) trail
  home : ∀ p, h.prompts[i]? = some p → ∃ q, next.prompts[i]? = some q ∧ q.scope = p.scope
  persist : Persist h.scopes next.scopes

variable {i : Nat} {h mid next : Host} {trail more : List Entry}

theorem Follows.live (follows : Follows i h trail next) (live : next.LiveFor i) : h.LiveFor i := by
  intro p present
  obtain ⟨q, there, home⟩ := follows.home p present
  exact follows.persist.live (home ▸ live q there)

theorem Follows.refl (i : Nat) (h : Host) : Follows i h [] h where
  hooks := rfl
  mail := by simp
  taps := by simp
  queue _ := by simp
  answers := by simp
  fired := by simp [Entry.fires]
  home p present := ⟨p, present, rfl⟩
  persist := .refl _

theorem Follows.trans (first : Follows i h trail mid) (second : Follows i mid more next) :
    Follows i h (trail ++ more) next where
  hooks := by rw [second.hooks, first.hooks, Entry.hooks_append]
  mail := by
    simp only [List.filterMap_append]
    rw [← List.append_assoc, first.mail, List.append_assoc, second.mail, List.append_assoc]
  taps := by
    simp only [List.filterMap_append]
    rw [List.append_assoc, ← List.append_assoc (h.taps i)]
    refine List.Sublist.trans (List.Sublist.append_left second.taps _) ?_
    rw [← List.append_assoc]
    exact List.Sublist.append_right first.taps _
  queue live := by
    simp only [List.filterMap_append]
    rw [List.append_assoc, second.queue live, ← List.append_assoc, first.queue (second.live live),
      List.append_assoc]
  answers := by
    rw [second.answers, first.answers, List.filterMap_append, List.append_assoc]
  fired := by
    rw [second.fired, first.fired, Entry.fires_append, first.hooks, List.append_assoc]
  home p present := by
    obtain ⟨q, there, home⟩ := first.home p present
    obtain ⟨r, here, again⟩ := second.home q there
    exact ⟨r, here, again.trans home⟩
  persist := first.persist.trans second.persist

end Host

end ModalHost
