import ModalHost.Proofs.Lists
import ModalHost.Proofs.Queues
import ModalHost.Proofs.Strand.Basic

/-! How the elementary changes of a host show in the strand of a prompt. -/

namespace ModalHost

namespace Names

variable {α : Type} (names : Names α) (name : String) (value : α)

theorem mem_of_find (found : names.find? name = some value) : (name, value) ∈ names := by
  rcases List.lookup_eq_some_iff.mp found with ⟨before, after, split, -⟩
  rw [split]
  exact List.mem_append_right before List.mem_cons_self

theorem mem_unbind (member : value ∈ (names.unbind name).map (·.2)) : value ∈ names.map (·.2) := by
  obtain ⟨entry, kept, rfl⟩ := List.mem_map.mp member
  exact List.mem_map_of_mem (List.mem_of_mem_filter kept)

theorem mem_bind (new : α) (member : value ∈ (names.bind name new).map (·.2)) :
    value = new ∨ value ∈ names.map (·.2) := by
  rw [bind, List.map_cons] at member
  rcases List.mem_cons.mp member with new | old
  · exact .inl new
  · exact .inr (mem_unbind names name value old)

end Names

namespace Scope

theorem only_push (i : Nat) (s : Scope) (job : Job) (about : job.prompt? = some i) :
    (s.push job).only i = (s.only i).push job :=
  sift_push (·.prompt? == some i) s job (by simp [about])

theorem only_push_other (i : Nat) (s : Scope) (job : Job) (other : job.prompt? ≠ some i) :
    (s.push job).only i = s.only i :=
  sift_push_other (·.prompt? == some i) s job (by simp [other])

theorem only_cancelBy (i root : Nat) (s : Scope) :
    (s.cancelBy root).only i = (s.only i).cancelBy root :=
  sift_cancelBy (·.prompt? == some i) root s

theorem filter_openHold (i : Nat) (jobs opened : List Job) (found : openHold jobs = some opened) :
    opened.filter (·.prompt? == some i) = jobs.filter (·.prompt? == some i) :=
  sift_openHold (·.prompt? == some i) (fun _ => rfl) jobs opened found

end Scope

namespace Host

variable (h : Host) (i : Nat) (due : Option Nat)

@[simp] theorem prompts_updatePrompt (j : Nat) (f : Prompt → Prompt) :
    (h.updatePrompt j f).prompts = h.prompts.modify j f := rfl

@[simp] theorem prompts_updateCaller (c : Nat) (f : Caller → Caller) :
    (h.updateCaller c f).prompts = h.prompts := rfl

@[simp] theorem isCancelled_updatePrompt (j : Nat) (f : Prompt → Prompt) (scope : Nat) :
    (h.updatePrompt j f).isCancelled scope = h.isCancelled scope := rfl

theorem strand_record (e : Event) (about : e.concerns i = true) :
    (h.record e).strand i due = { h.strand i due with log := e :: (h.strand i due).log } := by
  simp [strand, record, about, pictures]

theorem strand_record_other (e : Event) (other : e.concerns i = false) :
    (h.record e).strand i due = h.strand i due := by
  simp [strand, record, other, pictures]

theorem strand_launch (scope : Nat) (job : Job) (about : job.prompt? = some i) :
    (h.launch scope job).strand i due = (h.strand i due).launch scope job := by
  have pushed := map_modify (fun s : Scope => s.push job) (·.push job) (Scope.only i) scope
    h.scopes fun s => Scope.only_push i s job about
  simp only [strand, launch, Strand.launch, pictures, pushed]

theorem strand_launch_other (scope : Nat) (job : Job) (other : job.prompt? ≠ some i) :
    (h.launch scope job).strand i due = h.strand i due := by
  have pushed := map_modify_invisible (fun s : Scope => s.push job) (Scope.only i) scope h.scopes
    fun s => Scope.only_push_other i s job other
  simp only [strand, launch, pictures, pushed]

theorem strand_updatePrompt (f : Prompt → Prompt) :
    (h.updatePrompt i f).strand i due =
      { h.strand i due with prompt := h.prompts[i]?.map f } := by
  simp [strand, updatePrompt, pictures]

theorem strand_updatePrompt_other (j : Nat) (other : j ≠ i) (f : Prompt → Prompt) :
    (h.updatePrompt j f).strand i due = h.strand i due := by
  simp [strand, updatePrompt, pictures, other]

theorem strand_updateCaller (c : Nat) (f : Caller → Caller) :
    (h.updateCaller c f).strand i due =
      { h.strand i due with callers := h.callers.modify c f } := rfl

@[simp] theorem strand_updateLoading (l : Nat) (f : Loading → Loading) :
    (h.updateLoading l f).strand i due = h.strand i due := rfl

@[simp] theorem strand_updateWork (w : Nat) (f : Work → Work) :
    (h.updateWork w f).strand i due = h.strand i due := rfl

@[simp] theorem strand_updateWait (w : Nat) (f : Wait → Wait) :
    (h.updateWait w f).strand i due = h.strand i due := rfl

theorem strand_updateFollower (f : Nat) (change : Follower → Follower)
    (same : ∀ follower, ((change follower).source, (change follower).frame) =
      (follower.source, follower.frame)) :
    (h.updateFollower f change).strand i due = h.strand i due := by
  have drawn := map_modify_invisible change (fun f : Follower => (f.source, f.frame)) f
    h.followers same
  simp only [strand, updateFollower, pictures, drawn]

@[simp] theorem queued_strand (scope : Nat) :
    (h.strand i due).queued scope = (h.queued scope).filter (·.prompt? == some i) :=
  queueAt_sift h.scopes scope (·.prompt? == some i)

@[simp] theorem isCancelled_strand (scope : Nat) :
    (h.strand i due).isCancelled scope = h.isCancelled scope :=
  cancelledAt_sift h.scopes scope (·.prompt? == some i)

theorem owned_strand (p : Prompt) (present : h.prompts[i]? = some p) :
    (h.strand i due).owned i p = h.ownsPrompt i := by
  simp [Strand.owned, ownsPrompt, strand, present]

end Host

end ModalHost
