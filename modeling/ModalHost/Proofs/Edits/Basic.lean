import ModalHost.Proofs.Lists
import ModalHost.Proofs.Queues
import ModalHost.Host.State
import Mathlib.Logic.Relation

/-! The small changes that calls, jobs and moves of a host are made of, with what they leave alone.
Jobs at the front of a queue are not among them: what has been queued stays, or is cancelled. -/

namespace ModalHost

/-- What the answers to a prompt come through. -/
structure Inlet where
  scope : Nat
  hooks : Hooks Call
  mailbox : Option Answer

def Prompt.inlet (p : Prompt) : Inlet := ⟨p.scope, p.hooks, p.mailbox⟩

/-- Whether a job is neither a tap nor a report to a flush. -/
def Job.aside : Job → Bool
  | .offer _ _ | .flushed _ => false
  | _ => true

/-- Whether an event is neither an accepted answer, nor a hook, nor the end of a wait. -/
def Event.aside : Event → Bool
  | .accepted _ _ _ | .hookRan _ _ _ | .ended (.wait _) _ _ => false
  | _ => true

namespace Host

/-- One small change. It queues only jobs that it `may`, records only events that it `notes`, and
leaves alone what of each prompt is in `view`. -/
inductive Edit {α : Type} (may : Job → Prop) (notes : Event → Prop) (view : Prompt → α)
    (h : Host) : Host → Prop
  | prompt (i : Nat) (f : Prompt → Prompt) (same : ∀ p, view (f p) = view p) :
      Edit may notes view h (h.updatePrompt i f)
  | rest (loadings : List Loading) (panels : List Panel) (callers : List Caller)
      (works : List Work) (followers : List Follower) (names : Directory) :
      Edit may notes view h { h with loadings, panels, callers, works, followers, names }
  | recorded (e : Event) (noted : notes e) (other : ∀ w name ending, e ≠ .ended (.wait w) name ending) :
      Edit may notes view h (h.record e)
  | dropped (w : Nat) (wait : Wait) (there : h.waits[w]? = some wait) (waits : wait.ended = false)
      (noted : notes (.ended (.wait w) wait.name .abandoned)) :
      Edit may notes view h ((h.updateWait w fun wait => { wait with ended := true }).record
        (.ended (.wait w) wait.name .abandoned))
  | launched (scope : Nat) (job : Job) (allowed : may job) :
      Edit may notes view h (h.launch scope job)
  | cancelled (root : Nat) :
      Edit may notes view h { h with scopes := h.scopes.map (·.cancelBy root) }

def Edits {α : Type} (may : Job → Prop) (notes : Event → Prop) (view : Prompt → α) :
    Host → Host → Prop :=
  Relation.ReflTransGen (Edit may notes view)

structure Ample {α : Type} (may : Job → Prop) (notes : Event → Prop) (view : Prompt → α) :
    Prop where
  job (job : Job) : job.aside = true → may job
  event (e : Event) : e.aside = true → notes e
  view (p q : Prompt) : p.inlet = q.inlet → view p = view q

variable {α : Type} {may : Job → Prop} {notes : Event → Prop} {view : Prompt → α}
variable {h next : Host}

theorem Edit.persist (edit : h.Edit may notes view next) : Persist h.scopes next.scopes := by
  cases edit with
  | prompt | rest | recorded | dropped => exact .refl _
  | launched scope job => exact .push scope job
  | cancelled root => exact .cancel root

theorem Edits.persist (edits : Edits may notes view h next) : Persist h.scopes next.scopes := by
  induction edits with
  | refl => exact .refl _
  | tail _ edit ih => exact ih.trans edit.persist

theorem Edits.queue (edits : Edits may notes view h next) (k : Nat) :
    (∃ added, queueAt next.scopes k = queueAt h.scopes k ++ added ∧ ∀ job ∈ added, may job) ∨
      (cancelledAt next.scopes k = true ∧ queueAt next.scopes k = []) := by
  induction edits with
  | refl => exact .inl ⟨[], by simp⟩
  | @tail mid last _ edit ih =>
      cases edit with
      | prompt | rest | recorded | dropped => exact ih
      | launched scope job allowed =>
          dsimp only [launch]
          rw [queueAt_push]
          rcases ih with ⟨added, queue, allowed_all⟩ | ⟨dead, queue⟩
          · left
            split
            · refine ⟨added ++ [job], by rw [queue, List.append_assoc], ?_⟩
              intro other member
              rcases List.mem_append.mp member with old | new
              · exact allowed_all other old
              · exact List.mem_singleton.mp new ▸ allowed
            · exact ⟨added, queue, allowed_all⟩
          · right
            have persist : Persist mid.scopes (mid.launch scope job).scopes := .push scope job
            refine ⟨persist.dead dead, ?_⟩
            rw [if_neg, queue]
            rintro ⟨rfl, opens⟩
            rw [shut_of_dead _ _ dead] at opens
            cases opens
      | cancelled root =>
          dsimp only
          cases dead : cancelledAt (mid.scopes.map (·.cancelBy root)) k with
          | true =>
              rcases queueAt_cancel mid.scopes k root with empty | same
              · exact .inr ⟨rfl, empty⟩
              · rw [same]
                exact ih.imp_right fun ⟨_, empty⟩ => ⟨rfl, empty⟩
          | false =>
              rw [queueAt_cancel_live _ _ _ dead]
              refine ih.imp_right fun ⟨before, _⟩ => ?_
              rw [(Persist.cancel root).dead before] at dead
              cases dead

theorem Edits.views (edits : Edits may notes view h next) :
    next.prompts.map view = h.prompts.map view := by
  induction edits with
  | refl => rfl
  | tail _ edit ih =>
      cases edit with
      | prompt i f same =>
          rw [updatePrompt, map_modify_invisible f view i _ same]
          exact ih
      | rest | recorded | dropped | launched | cancelled => exact ih

theorem Edits.history (edits : Edits may notes view h next) :
    ∃ events, next.history = events ++ h.history ∧ ∀ e ∈ events, notes e := by
  induction edits with
  | refl => exact ⟨[], rfl, by simp⟩
  | tail _ edit ih =>
      obtain ⟨events, history, noted⟩ := ih
      cases edit with
      | prompt | rest | launched | cancelled => exact ⟨events, history, noted⟩
      | recorded e new =>
          exact ⟨e :: events, congrArg (e :: ·) history, List.forall_mem_cons.mpr ⟨new, noted⟩⟩
      | dropped w wait _ _ new =>
          exact ⟨_ :: events, congrArg (_ :: ·) history, List.forall_mem_cons.mpr ⟨new, noted⟩⟩

end Host

end ModalHost
