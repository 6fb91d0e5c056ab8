import ModalHost.Session.Step
import Mathlib.Logic.Relation

/-! Runs of a host: code asks for something, or the host moves by itself, in any order. -/

namespace ModalHost.Host

/-- One step of a run. -/
inductive Advances (h : Host) : Host → Prop
  | act (s : Session.Step) : Advances h (Session.act h s).1
  | move (m : Move) (next : Host) (taken : h.move? m = some next) : Advances h next

def Reachable : Host → Prop := Relation.ReflTransGen Advances .initial

/-- A stretch of a run. -/
def Leads : Host → Host → Prop := Relation.ReflTransGen Advances

/-- A run by turns; a move that cannot be taken is left out. -/
def run (h : Host) (turns : List (Session.Step ⊕ Move)) : Host :=
  turns.foldl (fun h turn => turn.elim (fun s => (Session.act h s).1) fun m => (h.move? m).getD h) h

theorem Leads.run (h : Host) (turns : List (Session.Step ⊕ Move)) : Leads h (h.run turns) := by
  induction turns generalizing h with
  | nil => exact .refl
  | cons turn turns ih =>
      refine .trans ?_ (ih (turn.elim (fun s => (Session.act h s).1) fun m => (h.move? m).getD h))
      cases turn with
      | inl s => exact .single (.act s)
      | inr m =>
          rw [Sum.elim_inr]
          cases taken : h.move? m with
          | none => exact .refl
          | some next => exact .single (.move m next taken)

theorem Reachable.run {h : Host} (reachable : h.Reachable) (turns : List (Session.Step ⊕ Move)) :
    (h.run turns).Reachable :=
  reachable.trans (Leads.run h turns)

/-- What has to be so for the consumer of a prompt to accept an answer. -/
structure Accepting (h : Host) (i : Nat) (p : Prompt) (a : Answer) : Prop where
  present : h.prompts[i]? = some p
  full : p.mailbox = some a
  owned : h.ownsPrompt i = true
  counts : p.accepts a = true

/-- The host after the consumer of a prompt has accepted an answer, before the hook runs. -/
def notify (h : Host) (i : Nat) (p : Prompt) (a : Answer) : Host :=
  (((h.updatePrompt i fun p => { p with mailbox := none }).updatePrompt i
    fun p => { p with phase := .resolving }).record
      (.accepted i a (p.callerOf a.request))).resolve i a.request a.tap.decision

/-- The host when the hook of an accepted answer starts, if there is one. -/
def heard (h : Host) (i : Nat) (p : Prompt) (a : Answer) : Host :=
  match p.hooks.on a.tap.decision with
  | none => h.notify i p a
  | some _ => (h.notify i p a).record (.hookRan i p.hooks.tag a.tap.decision)

/-- The hosts that a run passes through. While a hook runs, the host is seen after each call that
the hook has made. -/
inductive Seen : Host → Prop
  | between (h : Host) (reachable : h.Reachable) : Seen h
  | within (h : Host) (reachable : h.Reachable) (i : Nat) (p : Prompt) (a : Answer)
      (accepting : h.Accepting i p a) (made rest : List Call)
      (hook : p.hooks.on a.tap.decision = some (made ++ rest)) :
      Seen (made.foldl call (h.heard i p a))

/-- Nothing is left to run on a scope: its dispatcher, the consumers of its prompts and the callers
that wait on them cannot move. -/
structure StillOn (h : Host) (scope : Nat) : Prop where
  dispatcher : h.dispatch? scope = none
  consumers (i : Nat) (p : Prompt) : h.prompts[i]? = some p → p.scope = scope →
    h.deliver? i = none
  callers (c : Nat) (caller : Caller) (p : Prompt) : h.callers[c]? = some caller →
    h.prompts[caller.prompt]? = some p → p.scope = scope → h.resumeCaller? c = none

/-- Only prompts and callers that are there could move. -/
theorem still_of_bounded {h : Host} (scope : Nat) (dispatcher : h.dispatch? scope = none)
    (consumers : ∀ i < h.prompts.length, h.deliver? i = none)
    (callers : ∀ c < h.callers.length, h.resumeCaller? c = none) : h.StillOn scope where
  dispatcher
  consumers i _ present _ := consumers i (List.getElem?_eq_some_iff.mp present).1
  callers c _ _ found _ _ := callers c (List.getElem?_eq_some_iff.mp found).1

/-- The dispatcher of a scope runs what a call has queued to show a prompt. -/
def RunsShow (i : Nat) (h next : Host) : Prop :=
  ∃ scope lineage jobs, h.scopes[scope]? = some ⟨lineage, false, .setPrompt i true :: jobs⟩ ∧
    h.move? (.dispatch scope) = some next

/-- A stretch of a run in which a prompt is not shown by a call; requests may show it. -/
def RunsWithoutShow (i : Nat) : Host → Host → Prop :=
  Relation.ReflTransGen fun h next => h.Advances next ∧ ¬ RunsShow i h next

def RunsJob (kind : Job → Prop) (h next : Host) : Prop :=
  ∃ (scope : Nat) (lineage : List Nat) (job : Job) (jobs : List Job),
    h.scopes[scope]? = some ⟨lineage, false, job :: jobs⟩ ∧ kind job ∧
      h.move? (.dispatch scope) = some next

def RunsWithout (kind : Job → Prop) : Host → Host → Prop :=
  Relation.ReflTransGen fun h next => h.Advances next ∧ ¬ RunsJob kind h next

/-- After a step more jobs like this one are queued than before. -/
def Queues (job : Job) (h next : Host) : Prop :=
  ∃ scope, (h.queued scope).count job < (next.queued scope).count job

def RunsUnasked (kind : Job → Prop) : Host → Host → Prop :=
  Relation.ReflTransGen fun h next => h.Advances next ∧ ∀ job, kind job → ¬ Queues job h next

theorem chain_run (link : Host → Host → Prop) (turns : List (Session.Step ⊕ Move)) (h : Host)
    (linked : ∀ n < turns.length, ∀ next, h.run (turns.take (n + 1)) = next →
      (h.run (turns.take n)).Advances next → link (h.run (turns.take n)) next) :
    Relation.ReflTransGen link h (h.run turns) := by
  induction turns generalizing h with
  | nil => exact .refl
  | cons turn turns ih =>
      have later := ih (turn.elim (fun s => (Session.act h s).1) fun m => (h.move? m).getD h)
        fun n below => linked (n + 1) (Nat.succ_lt_succ below)
      have first := linked 0 (Nat.succ_pos _)
      refine .trans ?_ later
      cases turn with
      | inl s => exact .single (first _ rfl (.act s))
      | inr m =>
          cases taken : h.move? m with
          | none =>
              rw [Sum.elim_inr, taken]
              exact .refl
          | some next =>
              have turned : h.run [.inr m] = next := by simp [Host.run, taken]
              rw [Sum.elim_inr, taken]
              exact .single (first next turned (.move m next taken))

def spares (h : Host) (kind : Job → Bool) : Bool := h.scopes.all fun s => !s.queue.head?.any kind

theorem not_runsJob_of_spares {h next : Host} {kind : Job → Prop} {look : Job → Bool}
    (spares : h.spares look = true) (seen : ∀ job, kind job → look job = true) :
    ¬ RunsJob kind h next := by
  rintro ⟨scope, lineage, job, jobs, front, some_kind, -⟩
  have spared := List.all_eq_true.mp spares _ (List.mem_of_getElem? front)
  simp [seen job some_kind] at spared

theorem RunsWithout.run (kind : Job → Prop) (look : Job → Bool)
    (seen : ∀ job, kind job → look job = true) (turns : List (Session.Step ⊕ Move)) (h : Host)
    (silent : ∀ n < turns.length, (h.run (turns.take n)).spares look = true) :
    RunsWithout kind h (h.run turns) := by
  apply chain_run
  intro n below next _ step
  exact ⟨step, not_runsJob_of_spares (silent n below) seen⟩

def lacks (h : Host) (kind : Job → Bool) : Bool := h.scopes.all fun s => !s.queue.any kind

theorem not_queues_of_lacks {h next : Host} {job : Job} {look : Job → Bool}
    (lacks : next.lacks look = true) (seen : look job = true) : ¬ Queues job h next := by
  rintro ⟨scope, more⟩
  have member : job ∈ next.queued scope := List.count_pos_iff.mp (Nat.zero_lt_of_lt more)
  cases found : next.scopes[scope]? with
  | none => simp [queued, found] at member
  | some s =>
      have absent := List.all_eq_true.mp lacks s (List.mem_of_getElem? found)
      simp only [queued, found, Option.map_some, Option.getD_some] at member
      simp only [Bool.not_eq_true', List.any_eq_false] at absent
      exact absent job member seen

theorem RunsUnasked.run (kind : Job → Prop) (look : Job → Bool)
    (seen : ∀ job, kind job → look job = true) (turns : List (Session.Step ⊕ Move)) (h : Host)
    (silent : ∀ n < turns.length, (h.run (turns.take (n + 1))).lacks look = true) :
    RunsUnasked kind h (h.run turns) := by
  apply chain_run
  rintro n below _ rfl step
  exact ⟨step, fun job some_kind => not_queues_of_lacks (silent n below) (seen job some_kind)⟩

end ModalHost.Host
