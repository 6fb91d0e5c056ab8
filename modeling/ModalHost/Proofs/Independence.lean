import ModalHost.Proofs.Schedules.Calls
import ModalHost.Proofs.Schedules.Effort

/-! A single call has one effect, in whatever order the jobs, deliveries and resumptions run that it
leads to. -/

namespace ModalHost.Host

variable {h next : Host}

/-- Nothing is left to run but renderers. -/
def Idle (h : Host) : Prop := ∀ m : Move, m.renders = false → h.move? m = none

theorem idle_of_next (stopped : h.next? = none) : h.Idle := by
  intro m _
  cases taken : h.move? m with
  | none => rfl
  | some next =>
      have none := List.findSome?_eq_none_iff.mp stopped m (mem_moves m taken)
      rw [taken] at none
      cases none

/-- After a single call, in a state where nothing is left to run and no hook makes calls, every run
of jobs, deliveries and resumptions comes to an end, and all runs that have nothing left to run agree:
on what dialogs show, on their phases, slots and counts, on which tasks have ended and how, and on the
hooks that have run. -/
theorem order_does_not_matter (reachable : h.Reachable)
    (unheld : ∀ scope, .hold false ∉ h.queued scope) (idle : h.Idle) (silent : ∀ i, h.Silent i)
    (s : Session.Step) (calls : s.calls = true) :
    (∃ limit, ∀ ms next, drive move? (Session.act h s).1 ms = some next → ms.length ≤ limit ∧
      ∃ more last, drive move? next more = some last ∧ last.Idle) ∧
    ∀ (ms ns : List Move) (one two : Host), drive move? (Session.act h s).1 ms = some one →
      drive move? (Session.act h s).1 ns = some two → one.Idle → two.Idle →
      one.prompts = two.prompts ∧ one.loadings = two.loadings ∧ one.panels = two.panels ∧
      one.callers = two.callers ∧ one.works = two.works ∧ one.waits = two.waits ∧
      one.scopes = two.scopes ∧
      (one.history.filter Event.lasting).Perm (two.history.filter Event.lasting) ∧
      ∀ i, one.firedFor i = two.firedFor i := by
  have calm := (settled_of_still reachable unheld idle).calm s calls silent
  refine ⟨⟨(Session.act h s).1.effort, fun ms next run => ⟨calm.bounded ms run, ?_⟩⟩, ?_⟩
  · obtain ⟨more, last, rest, stopped⟩ := (calm.run ms run).ends
    exact ⟨more, last, rest, fun m _ => stopped m⟩
  · intro ms ns one two first second stopped ended
    have alike := commutes.end_alike calm first second
      (fun m loud => stopped m (Bool.not_eq_true _ ▸ loud))
      (fun m loud => ended m (Bool.not_eq_true _ ▸ loud))
    obtain ⟨⟨followers, history, rfl⟩, log, fired⟩ := alike
    exact ⟨rfl, rfl, rfl, rfl, rfl, rfl, rfl, log.symm, fun i => (fired i).symm⟩

def awaiting : List (Session.Step ⊕ Move) :=
  [.inl (.openDialog "d" "main" (.confirm ⟨"k", some [], none⟩ .blank)),
    .inl (.call (.await "d" (.ofTitle "T") "t")), .inr (.dispatch 0)]

def hidesFirst : List Move := [.dispatch 0, .deliver 0, .dispatch 0, .resumeCaller 0]

def resumesFirst : List Move := [.dispatch 0, .deliver 0, .resumeCaller 0, .dispatch 0]

theorem confirmed_in_either_order :
    ∃ one two, drive move? (Session.act (initial.run awaiting)
        (.call (.press (.fresh "d") .confirmed))).1 hidesFirst = some one ∧
      drive move? (Session.act (initial.run awaiting)
        (.call (.press (.fresh "d") .confirmed))).1 resumesFirst = some two ∧
      one.prompts = two.prompts ∧ one.callers = two.callers ∧ one.firedFor 0 = two.firedFor 0 ∧
      two.firedFor 0 = [.hookRan 0 "k" .confirmed] ∧
      .ended (.caller 0) "t" (.decided .confirmed) ∈ two.history := by
  have unheld (scope : Nat) : .hold false ∉ (initial.run awaiting).queued scope := by
    rcases scope with _ | scope
    · decide
    · exact List.not_mem_nil
  have silent (i : Nat) : (initial.run awaiting).Silent i := by
    intro d
    rcases i with _ | i <;> cases d <;> rfl
  have agree := (order_does_not_matter (Reachable.run .refl awaiting) unheld (idle_of_next rfl)
    silent (.call (.press (.fresh "d") .confirmed)) rfl).2 hidesFirst resumesFirst _ _ rfl rfl
    (idle_of_next rfl) (idle_of_next rfl)
  obtain ⟨prompts, -, -, callers, -, -, -, -, fired⟩ := agree
  exact ⟨_, _, rfl, rfl, prompts, callers, fired 0, rfl, by decide⟩

end ModalHost.Host
