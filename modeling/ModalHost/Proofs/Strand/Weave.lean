import ModalHost.Proofs.Strand.Calls
import ModalHost.Proofs.Strand.Mooring

/-! Every call takes the strand of every prompt along a path. -/

namespace ModalHost

namespace Strand

variable {i : Nat} {allowed : Job → Prop} (σ : Strand)

theorem step_tell_elsewhere (added : List Caller) (told : Option Nat) (reply : Reply)
    (foreign : ∀ c, told = some c → ∃ caller, σ.callers[c]? = some caller ∧ caller.prompt ≠ i)
    (others : ∀ caller ∈ added, caller.prompt ≠ i) :
    Step i allowed σ { σ with callers := tell (σ.callers ++ added) told reply } := by
  refine Step.elsewhere _ [] ?_ (by simp) (by simp)
  intro c caller own
  rw [getElem?_tell, List.getElem?_append]
  by_cases known : c < σ.callers.length
  · rw [if_pos known]
    by_cases same : told = some c
    · rcases foreign c same with ⟨other, found, elsewhere⟩
      simp only [found, same, if_true, Option.map_some, Option.some.injEq]
      constructor
      · rintro rfl
        exact absurd own elsewhere
      · rintro rfl
        exact absurd own elsewhere
    · simp [same]
  · rw [if_neg known, List.getElem?_eq_none (Nat.le_of_not_lt known)]
    simp only [reduceCtorEq, iff_false, Option.map_eq_some_iff, not_exists, not_and]
    intro other found same
    have kept : caller.prompt = other.prompt := by
      rw [← same]
      split <;> rfl
    exact others other (List.mem_of_getElem? found) (kept.symm.trans own)

theorem step_conclude_elsewhere (c : Nat) (caller : Caller) (found : σ.callers[c]? = some caller)
    (other : caller.prompt ≠ i) (name : String) (ending : Ending) :
    Step i allowed σ (σ.conclude c name ending) := by
  have concluded : (σ.conclude c name ending).callers[c]? =
      some { caller with ended := true } := by
    simp [getElem?_conclude, found]
  refine Step.elsewhere _ [.ended (.caller c) name ending] ?_ (by simp) ?_
  · intro d mine own
    change (σ.conclude c name ending).callers[d]? = some mine ↔ σ.callers[d]? = some mine
    rw [getElem?_conclude]
    by_cases same : c = d
    · subst same
      simp only [found, if_true, Option.map_some, Option.some.injEq]
      constructor
      · rintro rfl
        exact absurd own other
      · rintro rfl
        exact absurd own other
    · simp [same]
  · intro e member
    have value := List.mem_singleton.mp member
    subst value
    exact ⟨c, _, name, ending, concluded, other, rfl⟩

end Strand

namespace Host

open Strand (Path Step)

/-- What a host keeps to: jobs of a prompt are queued on its scope, callers wait on prompts that
are there, and the parked caller of a prompt waits on that prompt. -/
structure Tidy (h : Host) : Prop where
  jobs (scope : Nat) (job : Job) (i : Nat) : job ∈ h.queued scope → job.prompt? = some i →
    ∃ p, h.prompts[i]? = some p ∧ p.scope = scope
  callers (c : Nat) (caller : Caller) : h.callers[c]? = some caller →
    ∃ p, h.prompts[caller.prompt]? = some p
  parked (i : Nat) (p : Prompt) (q : Parked) : h.prompts[i]? = some p → p.parked = some q →
    ∃ caller, h.callers[q.caller]? = some caller ∧ caller.prompt = i

def Woven (h : Host) (due : Nat → Option Nat) : Prop :=
  ∀ i, Strand.Reachable i (h.strand i (due i))

theorem Woven.tidy {h : Host} {due : Nat → Option Nat} (woven : h.Woven due) : h.Tidy where
  jobs scope job i member about := by
    have queued : job ∈ (h.strand i (due i)).queued scope := by
      rw [queued_strand]
      exact List.mem_filter.mpr ⟨member, by simp [about]⟩
    exact ((woven i).moored.jobs scope job queued).2
  callers c caller found := (woven caller.prompt).moored.callers c caller found rfl
  parked i p q present held := (woven i).moored.parked p q present held

variable {h : Host} (i : Nat) (due : Option Nat) {allowed : Job → Prop}

theorem Tidy.told_elsewhere (tidy : h.Tidy) (j : Nat) (other : j ≠ i) (p : Prompt)
    (present : h.prompts[j]? = some p) (c : Nat) (told : p.parked.map (·.caller) = some c) :
    ∃ caller, h.callers[c]? = some caller ∧ caller.prompt ≠ i := by
  rcases Option.map_eq_some_iff.mp told with ⟨q, held, rfl⟩
  rcases tidy.parked j p q present held with ⟨caller, found, own⟩
  exact ⟨caller, found, own ▸ other⟩

theorem path_showConfirm (tidy : h.Tidy) (j : Nat) (visuals : Visuals) :
    Path i allowed (h.strand i due) ((h.showConfirm j visuals).strand i due) := by
  unfold showConfirm
  cases present : h.prompts[j]? with
  | none =>
      simp only [issue, present]
      exact .refl
  | some p =>
      by_cases same : j = i
      · subst same
        rw [strand_issue h j due p present]
        exact .single (.asked p present visuals none)
      · rw [strand_issue_other h i due j same p present]
        have step : Step i allowed (h.strand i due) _ := Strand.step_tell_elsewhere _ []
          (p.parked.map (·.caller)) .superseded
          (fun c told => tidy.told_elsewhere i j same p present c told) (by simp)
        rw [List.append_nil] at step
        exact .single step

theorem path_endCancelled (c : Nat)
    (cancelled : ∀ caller, h.callers[c]? = some caller → caller.ended = false ∧
      ∃ p, h.prompts[caller.prompt]? = some p ∧ h.isCancelled p.scope = true) :
    Path i allowed (h.strand i due) ((h.endCancelled c).strand i due) := by
  cases found : h.callers[c]? with
  | none =>
      simp only [endCancelled, found]
      exact .refl
  | some caller =>
      rcases cancelled caller found with ⟨waits, p, present, dead⟩
      have still : (h.withdraw caller.prompt caller.request).callers[c]? = some caller := by
        rw [callers_withdraw, found]
      simp only [endCancelled, found]
      rw [strand_endCaller _ _ _ c caller still]
      by_cases same : caller.prompt = i
      · subst same
        rw [strand_withdraw h _ due p present]
        exact .single (.withdrawn p present c caller found rfl waits .cancelled
          (.inr ⟨rfl, by simpa using dead⟩))
      · rw [strand_withdraw_other h i due _ same]
        exact .single (Strand.step_conclude_elsewhere _ c caller found same _ _)

/-- The host with a new caller, which is not parked yet. -/
def enrol (h : Host) (name : String) (j request : Nat) : Host :=
  { h with
    callers := h.callers ++ [.new name j request]
    names := { h.names with tasks := h.names.tasks.bind name (.caller h.callers.length) } }

theorem await_eq (h : Host) (j : Nat) (p : Prompt) (present : h.prompts[j]? = some p)
    (visuals : Visuals) (name : String) :
    h.await j visuals name =
      if ((h.enrol name j (p.issued + 1)).issue j (some ⟨p.issued + 1, h.callers.length⟩)
          visuals).isCancelled p.scope then
        ((h.enrol name j (p.issued + 1)).issue j (some ⟨p.issued + 1, h.callers.length⟩)
          visuals).endCancelled h.callers.length
      else (h.enrol name j (p.issued + 1)).issue j (some ⟨p.issued + 1, h.callers.length⟩)
        visuals := by
  simp only [await, present]
  rfl

theorem path_enrol (tidy : h.Tidy) (j : Nat) (p : Prompt) (present : h.prompts[j]? = some p)
    (visuals : Visuals) (name : String) :
    Path i allowed (h.strand i due) (((h.enrol name j (p.issued + 1)).issue j
      (some ⟨p.issued + 1, h.callers.length⟩) visuals).strand i due) := by
  by_cases same : j = i
  · subst same
    rw [strand_issue (h.enrol name j (p.issued + 1)) j due p present]
    exact .single (.asked p present visuals (some name))
  · rw [strand_issue_other (h.enrol name j (p.issued + 1)) i due j same p present]
    exact .single (Strand.step_tell_elsewhere (h.strand i due) _ _ .superseded
      (fun c told => tidy.told_elsewhere i j same p present c told)
      (by simpa [Caller.new] using same))

theorem path_await (tidy : h.Tidy) (j : Nat) (visuals : Visuals) (name : String) :
    Path i allowed (h.strand i due) ((h.await j visuals name).strand i due) := by
  cases present : h.prompts[j]? with
  | none =>
      simp only [await, present]
      exact .refl
  | some p =>
      have first : Path i allowed (h.strand i due) _ :=
        path_enrol i due tidy j p present visuals name
      rw [await_eq h j p present]
      split
      · rename_i dead
        refine first.trans (path_endCancelled i due h.callers.length ?_)
        intro caller found
        have strand := strand_issue (h.enrol name j (p.issued + 1)) j none p present
          (some ⟨p.issued + 1, h.callers.length⟩) visuals
        have callers := congrArg (fun σ : Strand => σ.callers[h.callers.length]?) strand
        simp only [Host.strand, Strand.launch, enrol, getElem?_tell,
          List.getElem?_concat_length, Option.map_some] at callers
        have value := Option.some.inj (found.symm.trans callers)
        subst value
        split <;> exact ⟨rfl, _, congrArg Strand.prompt strand, dead⟩
      · exact first

theorem strand_launchLeaves (loading w level : Nat) :
    (h.launchLeaves loading w level).strand i due = h.strand i due := by
  induction level generalizing h with
  | zero => rfl
  | succ level ih =>
      unfold launchLeaves
      cases h.loadings[loading]? with
      | none => rfl
      | some l =>
          rw [ih]
          exact strand_launch_other _ _ _ _ _ (by simp [Job.prompt?])

theorem strand_dropWork (w : Nat) (ending : Ending) :
    (h.dropWork w ending).strand i due = h.strand i due := by
  unfold dropWork
  cases h.works[w]? with
  | none => rfl
  | some work =>
      dsimp only
      rw [strand_record_other _ _ _ _ rfl, strand_updateWork, strand_launchLeaves]

theorem path_abandon (tidy : h.Tidy) (task : TaskRef) :
    Path i allowed (h.strand i due) ((h.abandon task).strand i due) := by
  cases task with
  | caller c =>
      cases found : h.callers[c]? with
      | none =>
          simp only [abandon, found]
          exact .refl
      | some caller =>
          cases waits : caller.ended with
          | true =>
              simp only [abandon, found, waits, if_true]
              exact .refl
          | false =>
              rcases tidy.callers c caller found with ⟨p, present⟩
              have still : (h.withdraw caller.prompt caller.request).callers[c]? =
                  some caller := by
                rw [callers_withdraw, found]
              simp only [abandon, found, waits, Bool.false_eq_true, if_false]
              rw [strand_endCaller _ _ _ c caller still]
              by_cases same : caller.prompt = i
              · subst same
                rw [strand_withdraw h _ due p present]
                exact .single (.withdrawn p present c caller found rfl waits .abandoned (.inl rfl))
              · rw [strand_withdraw_other h i due _ same]
                exact .single (Strand.step_conclude_elsewhere _ c caller found same _ _)
  | work w =>
      simp only [abandon]
      split
      · exact .refl
      · rw [strand_dropWork]
        exact .refl
  | wait w =>
      simp only [abandon]
      split
      · exact .refl
      · split
        · exact .refl
        · rw [strand_record_other _ _ _ _ rfl, strand_updateWait]
          exact .refl
  | follower f =>
      simp only [abandon]
      split
      · exact .refl
      · split
        · exact .refl
        · rw [strand_record_other _ _ _ _ rfl, strand_updateFollower _ _ _ f
            (fun follower => { follower with ended := true }) fun _ => rfl]
          exact .refl

theorem path_setShown (dialog : DialogRef) (shown : Bool) :
    Path i allowed (h.strand i due) ((h.setShown dialog shown).strand i due) := by
  cases dialog with
  | prompt j =>
      cases present : h.prompts[j]? with
      | none =>
          simp only [setShown, present]
          exact .refl
      | some p =>
          simp only [setShown, present, Option.elim_some]
          by_cases same : j = i
          · subst same
            rw [strand_launch _ _ _ _ _ rfl]
            exact .single (.queued p present _ (.toggle shown))
          · rw [strand_launch_other _ _ _ _ _ (by simpa [Job.prompt?] using same)]
            exact .refl
  | loading l =>
      simp only [setShown]
      cases h.loadings[l]? with
      | none => exact .refl
      | some _ =>
          rw [Option.elim_some, strand_launch_other _ _ _ _ _ (by simp [Job.prompt?])]
          exact .refl
  | panel k =>
      simp only [setShown]
      cases h.panels[k]? with
      | none => exact .refl
      | some _ =>
          rw [Option.elim_some, strand_launch_other _ _ _ _ _ (by simp [Job.prompt?])]
          exact .refl

theorem path_setHooks (j : Nat) (hooks : Hooks Call) :
    Path i allowed (h.strand i due) ((h.setHooks j hooks).strand i due) := by
  unfold setHooks
  by_cases same : j = i
  · subst same
    rw [strand_updatePrompt]
    cases present : h.prompts[j]? with
    | none =>
        rw [Option.map_none, ← present]
        exact .refl
    | some p => exact .single (.tended p present hooks p.handle)
  · rw [strand_updatePrompt_other _ _ _ _ same]
    exact .refl

theorem path_press (r : Responder) (decision : Decision)
    (known : ∀ picture, r.picture = some picture → picture ∈ h.pictures r.prompt) :
    Path i allowed (h.strand i due) ((h.press r decision).strand i due) := by
  unfold press
  cases present : h.prompts[r.prompt]? with
  | none => exact .refl
  | some p =>
      dsimp only
      by_cases same : r.prompt = i
      · subst same
        rw [strand_launch _ _ _ _ _ rfl]
        exact .single (.queued p present _ (.tap decision r.picture known))
      · rw [strand_launch_other _ _ _ _ _ (by simpa [Job.prompt?] using same)]
        exact .refl

theorem path_cancel (root : Nat) :
    Path i allowed (h.strand i due) ((h.cancel root).strand i due) := by
  have scopes : (h.scopes.map (·.cancelBy root)).map (Scope.only i) =
      (h.scopes.map (Scope.only i)).map (·.cancelBy root) := by
    simp only [List.map_map, List.map_inj_left, Function.comp_apply]
    intro s _
    exact Scope.only_cancelBy i root s
  have strand : (h.cancel root).strand i due = { h.strand i due with
      scopes := (h.strand i due).scopes.map (·.cancelBy root)
      log := .cancelled root :: (h.strand i due).log } := by
    simp only [Host.strand, cancel, record, pictures, scopes, List.filter_cons, Event.concerns,
      if_true]
  rw [strand]
  exact .single (.cancelled root)

theorem picture_of_responder (name : ResponderName) (r : Responder)
    (named : h.responder? name = some r) (picture : Picture) (shot : r.picture = some picture) :
    picture ∈ h.pictures r.prompt := by
  rcases r with ⟨j, kept⟩
  subst shot
  cases name with
  | kept name => exact .inl ⟨name, Names.mem_of_find _ name _ named⟩
  | fresh dialog => simp [responder?] at named
  | drawn name =>
      right
      simp only [responder?] at named
      split at named
      · rename_i f drawn
        obtain ⟨rfl, rfl⟩ : _ ∧ _ := by simpa using named
        unfold follower? at drawn
        split at drawn
        · exact List.mem_map.mpr ⟨_, List.mem_of_getElem? drawn, rfl⟩
        · simp at drawn
      · simp at named

theorem path_call (tidy : h.Tidy) (c : Call) :
    Path i allowed (h.strand i due) ((h.call c).strand i due) := by
  cases c with
  | showConfirm dialog visuals =>
      simp only [call]
      cases h.prompt? dialog with
      | none => exact .refl
      | some j => exact path_showConfirm i due tidy j visuals
  | await dialog visuals task =>
      simp only [call]
      cases h.prompt? dialog with
      | none => exact .refl
      | some j => exact path_await i due tidy j visuals task
  | abandon task =>
      simp only [call]
      cases h.names.tasks.find? task with
      | none => exact .refl
      | some found => exact path_abandon i due tidy found
  | setShown dialog shown =>
      simp only [call]
      cases h.names.dialogs.find? dialog with
      | none => exact .refl
      | some found => exact path_setShown i due found shown
  | setHooks dialog hooks =>
      simp only [call]
      cases h.prompt? dialog with
      | none => exact .refl
      | some j => exact path_setHooks i due j hooks
  | press responder decision =>
      simp only [call]
      cases named : h.responder? responder with
      | none => exact .refl
      | some r => exact path_press i due r decision (picture_of_responder responder r named)
  | cancel scope =>
      simp only [call]
      cases h.names.scopes.find? scope with
      | none => exact .refl
      | some root => exact path_cancel i due root

theorem Woven.call {due : Nat → Option Nat} (woven : h.Woven due) (c : Call) :
    (h.call c).Woven due :=
  fun i => (woven i).trans (path_call i (due i) woven.tidy c)

theorem Woven.calls {due : Nat → Option Nat} (woven : h.Woven due) (calls : List Call) :
    (calls.foldl Host.call h).Woven due := by
  induction calls generalizing h with
  | nil => exact woven
  | cons c calls ih => exact ih (woven.call c)

end Host

end ModalHost
