import ModalHost.Proofs.Lists
import ModalHost.Proofs.Ledger.Basic

/-! What never leaves a ledger: its scopes, loading dialogs and works stay, what it points to is
there, and jobs are queued on the scope of their loading dialog only. -/

namespace ModalHost

namespace Loading

@[simp] theorem scope_setShown (shown : Bool) (l : Loading) : (l.setShown shown).scope = l.scope :=
  rfl

@[simp] theorem scope_enter (l : Loading) : l.enter.scope = l.scope := rfl

@[simp] theorem scope_leave (l : Loading) : l.leave.scope = l.scope := rfl

end Loading

namespace Work

def frame (work : Work) : Nat × Nat := (work.loading, work.depth)

theorem frame_entered (level : Nat) (work : Work) : (work.entered level).frame = work.frame := by
  unfold entered
  split <;> rfl

theorem frame_left (level : Nat) (work : Work) :
    (work.left level).frame = work.frame := by
  unfold left
  split <;> rfl

theorem mem_leaves (loading w n : Nat) (job : Job) (member : job ∈ leaves loading w n) :
    ∃ level, job = .leave loading w level false := by
  induction n with
  | zero => cases member
  | succ n ih =>
      rcases List.mem_cons.mp member with rfl | deeper
      · exact ⟨n + 1, rfl⟩
      · exact ih deeper

theorem Proceeds.about {work : Work} {w : Nat} {cancelled : Bool} {stage : Stage}
    {jobs : List Job} (how : work.Proceeds w cancelled stage jobs) (job : Job)
    (member : job ∈ jobs) :
    job.loading? = some work.loading ∧ ∃ level passage, job.passage? = some ((w, level), passage) := by
  cases how with
  | deeper | outward =>
      obtain rfl := List.mem_singleton.mp member
      exact ⟨rfl, _, _, rfl⟩
  | dropped =>
      obtain ⟨level, rfl⟩ := mem_leaves _ _ _ _ member
      exact ⟨rfl, level, .leave, rfl⟩
  | begun | returned => cases member

theorem Starts.about {w loading depth : Nat} {stage : Stage} {jobs : List Job}
    (how : Starts w loading depth stage jobs) (job : Job) (member : job ∈ jobs) :
    job.loading? = some loading ∧ ∃ level passage, job.passage? = some ((w, level), passage) := by
  cases how with
  | bare => cases member
  | wrapped =>
      obtain rfl := List.mem_singleton.mp member
      exact ⟨rfl, _, _, rfl⟩

end Work

namespace Ledger

variable {allowed : Job → Prop} {γ δ : Ledger}

@[simp] theorem scopes_perform (γ : Ledger) (job : Job) : (γ.perform job).scopes = γ.scopes := by
  cases job <;> rfl

theorem names_perform (γ : Ledger) (job : Job) :
    (γ.perform job).homes = γ.homes ∧ (γ.perform job).scopeNames = γ.scopeNames ∧
      (γ.perform job).loadingNames = γ.loadingNames := by
  cases job <;> exact ⟨rfl, rfl, rfl⟩

theorem Step.persist (step : Step allowed γ δ) : Persist γ.scopes δ.scopes := by
  cases step with
  | started | proceeded | toggled => exact .pushAll _ _
  | cancelled root => exact .cancel root
  | branched => exact .branch _
  | ran scope lineage job jobs =>
      rw [scopes_perform]
      exact .pop scope jobs
  | given | opened | housed | tended | renamed => exact .refl _

theorem Path.persist (path : Path allowed γ δ) : Persist γ.scopes δ.scopes := by
  induction path with
  | refl => exact .refl _
  | tail _ step ih => exact ih.trans step.persist

theorem Step.loading_stays (step : Step allowed γ δ) (i : Nat) (l : Loading)
    (found : γ.loadings[i]? = some l) :
    ∃ next, δ.loadings[i]? = some next ∧ next.scope = l.scope := by
  cases step with
  | opened scope =>
      refine ⟨l, ?_, rfl⟩
      rw [List.getElem?_append_left (List.getElem?_eq_some_iff.mp found).1, found]
  | tended j handle =>
      exact stays_modify (fun l => { l with handle }) Loading.scope (fun _ => rfl) _ j i l found
  | ran scope lineage job =>
      cases job with
      | setLoading j shown => exact stays_modify _ _ (Loading.scope_setShown shown) _ j i l found
      | enter j => exact stays_modify _ _ Loading.scope_enter _ j i l found
      | leave j => exact stays_modify _ _ Loading.scope_leave _ j i l found
      | _ => exact ⟨l, found, rfl⟩
  | _ => exact ⟨l, found, rfl⟩

theorem Path.loading_stays (path : Path allowed γ δ) (i : Nat) (l : Loading)
    (found : γ.loadings[i]? = some l) :
    ∃ next, δ.loadings[i]? = some next ∧ next.scope = l.scope := by
  induction path with
  | refl => exact ⟨l, found, rfl⟩
  | tail _ step ih =>
      obtain ⟨middle, there, same⟩ := ih
      obtain ⟨next, after, stays⟩ := step.loading_stays i middle there
      exact ⟨next, after, stays.trans same⟩

theorem Step.loading_origin (step : Step allowed γ δ) (i : Nat) (next : Loading)
    (after : δ.loadings[i]? = some next) :
    (∃ l, γ.loadings[i]? = some l ∧ l.scope = next.scope) ∨
      (i = γ.loadings.length ∧ next.scope < γ.scopes.length ∧ δ.works = γ.works ∧
        δ.scopes = γ.scopes ∧ next = .new next.scope) := by
  cases step with
  | opened scope inside =>
      rcases getElem?_concat_cases _ _ _ _ after with before | ⟨last, rfl⟩
      · exact .inl ⟨next, before, rfl⟩
      · exact .inr ⟨last, inside, rfl, rfl, rfl⟩
  | tended j handle =>
      exact .inl (origin_modify (fun l => { l with handle }) Loading.scope (fun _ => rfl) _ j i next
        after)
  | ran scope lineage job =>
      left
      cases job with
      | setLoading j shown => exact origin_modify _ _ (Loading.scope_setShown shown) _ j i next after
      | enter j => exact origin_modify _ _ Loading.scope_enter _ j i next after
      | leave j => exact origin_modify _ _ Loading.scope_leave _ j i next after
      | _ => exact ⟨next, after, rfl⟩
  | _ => exact .inl ⟨next, after, rfl⟩

theorem Step.loadings_grow (step : Step allowed γ δ) : γ.loadings.length ≤ δ.loadings.length := by
  cases step with
  | opened => simp
  | tended => simp
  | ran scope lineage job => cases job <;> simp [perform]
  | _ => exact Nat.le_refl _

theorem Step.work_stays (step : Step allowed γ δ) (w : Nat) (work : Work)
    (there : γ.works[w]? = some work) :
    ∃ next, δ.works[w]? = some next ∧ next.frame = work.frame := by
  cases step with
  | started =>
      refine ⟨work, ?_, rfl⟩
      simp only [launches]
      rw [List.getElem?_append_left (List.getElem?_eq_some_iff.mp there).1, there]
  | proceeded v _ _ _ _ stage =>
      exact stays_modify (fun work => { work with stage }) Work.frame (fun _ => rfl) _ v w work there
  | given v _ _ _ outcome =>
      exact stays_modify (fun work => { work with outcome := some outcome }) Work.frame
        (fun _ => rfl) _ v w work there
  | ran scope lineage job =>
      cases job with
      | enter j v level => exact stays_modify _ _ (Work.frame_entered level) _ v w work there
      | leave i v level awaited =>
          cases awaited with
          | true => exact stays_modify _ _ (Work.frame_left level) _ v w work there
          | false => exact ⟨work, there, rfl⟩
      | _ => exact ⟨work, there, rfl⟩
  | _ => exact ⟨work, there, rfl⟩

theorem Path.work_stays (path : Path allowed γ δ) (w : Nat) (work : Work)
    (there : γ.works[w]? = some work) :
    ∃ next, δ.works[w]? = some next ∧ next.frame = work.frame := by
  induction path with
  | refl => exact ⟨work, there, rfl⟩
  | tail _ step ih =>
      obtain ⟨middle, here, same⟩ := ih
      obtain ⟨next, after, stays⟩ := step.work_stays w middle here
      exact ⟨next, after, stays.trans same⟩

theorem Step.works_grow (step : Step allowed γ δ) : γ.works.length ≤ δ.works.length := by
  cases step with
  | started => simp [launches]
  | proceeded => simp [launches, setStage]
  | given => simp
  | ran scope lineage job =>
      cases job with
      | enter => simp [perform]
      | leave i v level awaited => cases awaited <;> simp [perform]
      | _ => exact Nat.le_refl _
  | _ => exact Nat.le_refl _

theorem Step.work_origin (step : Step allowed γ δ) (w : Nat) (next : Work)
    (after : δ.works[w]? = some next) :
    (∃ work, γ.works[w]? = some work ∧ work.frame = next.frame) ∨
      (w = γ.works.length ∧ ∃ l jobs, γ.loadings[next.loading]? = some l ∧
        Work.Starts w next.loading next.depth next.stage jobs ∧ δ.loadings = γ.loadings ∧
        δ.log = γ.log ∧ δ.scopes = pushAll γ.scopes l.scope jobs) := by
  cases step with
  | started loading l found name depth outcome stage jobs how =>
      rcases getElem?_concat_cases _ _ _ _ after with before | ⟨rfl, rfl⟩
      · exact .inl ⟨next, before, rfl⟩
      · exact .inr ⟨rfl, l, jobs, found, how, rfl, rfl, rfl⟩
  | proceeded v _ _ _ _ stage =>
      exact .inl (origin_modify (fun work : Work => { work with stage := stage }) Work.frame
        (fun _ => rfl) _ v w next after)
  | given v _ _ _ outcome =>
      exact .inl (origin_modify (fun work => { work with outcome := some outcome }) Work.frame
        (fun _ => rfl) _ v w next after)
  | ran scope lineage job =>
      left
      cases job with
      | enter j v level => exact origin_modify _ _ (Work.frame_entered level) _ v w next after
      | leave i v level awaited =>
          cases awaited with
          | true => exact origin_modify _ _ (Work.frame_left level) _ v w next after
          | false => exact ⟨next, after, rfl⟩
      | _ => exact ⟨next, after, rfl⟩
  | _ => exact .inl ⟨next, after, rfl⟩

structure Sound (γ : Ledger) : Prop where
  homes (scope : Nat) : scope ∈ γ.homes → scope < γ.scopes.length
  loadings (i : Nat) (l : Loading) : γ.loadings[i]? = some l → l.scope < γ.scopes.length
  works (w : Nat) (work : Work) : γ.works[w]? = some work →
    ∃ l, γ.loadings[work.loading]? = some l
  scopeNames (scope : Nat) : scope ∈ γ.scopeNames → scope < γ.scopes.length
  loadingNames (i : Nat) : i ∈ γ.loadingNames → i < γ.loadings.length

theorem Step.homes_cases (step : Step allowed γ δ) (scope : Nat) (member : scope ∈ δ.homes) :
    scope ∈ γ.homes ∨ scope < γ.scopes.length := by
  cases step with
  | housed home inside =>
      rcases List.mem_append.mp member with before | new
      · exact .inl before
      · exact .inr (List.mem_singleton.mp new ▸ inside)
  | ran home lineage job =>
      rw [(names_perform _ job).1] at member
      exact .inl member
  | _ => exact .inl member

theorem Step.names_cases (step : Step allowed γ δ) :
    (∀ scope ∈ δ.scopeNames, scope ∈ γ.scopeNames ∨ scope < γ.scopes.length) ∧
      ∀ i ∈ δ.loadingNames, i ∈ γ.loadingNames ∨ i < γ.loadings.length := by
  cases step with
  | renamed scopeNames loadingNames scopes loadings => exact ⟨scopes, loadings⟩
  | ran home lineage job =>
      rw [(names_perform _ job).2.1, (names_perform _ job).2.2]
      exact ⟨fun _ member => .inl member, fun _ member => .inl member⟩
  | _ => exact ⟨fun _ member => .inl member, fun _ member => .inl member⟩

theorem Step.sound (step : Step allowed γ δ) (sound : γ.Sound) : δ.Sound where
  homes scope member := by
    apply Nat.lt_of_lt_of_le _ step.persist.length_le
    rcases step.homes_cases scope member with before | inside
    · exact sound.homes scope before
    · exact inside
  loadings i next after := by
    apply Nat.lt_of_lt_of_le _ step.persist.length_le
    rcases step.loading_origin i next after with ⟨l, before, same⟩ | ⟨-, inside, -⟩
    · exact same ▸ sound.loadings i l before
    · exact inside
  works w next after := by
    have opened : ∃ l, γ.loadings[next.loading]? = some l := by
      rcases step.work_origin w next after with ⟨work, before, same⟩ | ⟨-, l, -, found, -⟩
      · have home : work.loading = next.loading := congrArg Prod.fst same
        exact home ▸ sound.works w work before
      · exact ⟨l, found⟩
    obtain ⟨l, found⟩ := opened
    obtain ⟨now, there, -⟩ := step.loading_stays _ l found
    exact ⟨now, there⟩
  scopeNames scope member := by
    apply Nat.lt_of_lt_of_le _ step.persist.length_le
    rcases step.names_cases.1 scope member with before | inside
    · exact sound.scopeNames scope before
    · exact inside
  loadingNames i member := by
    apply Nat.lt_of_lt_of_le _ step.loadings_grow
    rcases step.names_cases.2 i member with before | inside
    · exact sound.loadingNames i before
    · exact inside

theorem Reachable.sound (reachable : γ.Reachable) : γ.Sound := by
  induction reachable with
  | refl => constructor <;> simp [blank]
  | tail _ step ih => exact step.sound ih

/-- Jobs of a loading dialog are queued on its scope, and those of a work are about its loading
dialog; what has run was queued by a work that is there. -/
structure Moored (γ : Ledger) : Prop where
  homes (scope : Nat) (job : Job) (i : Nat) : job ∈ γ.queued scope → job.loading? = some i →
    ∃ l, γ.loadings[i]? = some l ∧ l.scope = scope
  owners (scope : Nat) (job : Job) (call : Nat × Nat) (passage : Passage) :
    job ∈ γ.queued scope → job.passage? = some (call, passage) →
    ∃ work, γ.works[call.1]? = some work ∧ job.loading? = some work.loading
  logged (e : Event) (call : Nat × Nat) (passage : Passage) : e ∈ γ.log →
    e.passage? = some (call, passage) → call.1 < γ.works.length

theorem mem_queued_launches (scope : Nat) (jobs : List Job) (home : Nat) (job : Job)
    (member : job ∈ (γ.launches home jobs).queued scope) :
    job ∈ γ.queued scope ∨ scope = home ∧ job ∈ jobs := by
  unfold queued launches at member
  rw [queueAt_pushAll] at member
  split at member
  · rename_i here
    rcases List.mem_append.mp member with before | new
    · exact .inl before
    · exact .inr ⟨here.1, new⟩
  · exact .inl member

theorem Step.queue_grows {k : Nat} (step : Step (fun _ => False) γ δ) (live : δ.isCancelled k = false) :
    γ.queued k <+: δ.queued k := by
  have launched (home : Nat) (jobs : List Job) : γ.queued k <+: (γ.launches home jobs).queued k := by
    unfold queued launches
    rw [queueAt_pushAll]
    split
    · exact List.prefix_append _ _
    · exact List.prefix_rfl
  cases step with
  | started loading l found name depth outcome stage jobs => exact launched l.scope jobs
  | proceeded w work there l found stage jobs => exact launched l.scope jobs
  | toggled i l found shown => exact launched l.scope [.setLoading i shown]
  | cancelled root =>
      have same := queueAt_cancel_live γ.scopes k root live
      exact ⟨[], (List.append_nil _).trans same.symm⟩
  | branched lineage cancelled =>
      have same := queueAt_branch γ.scopes k lineage cancelled
      exact ⟨[], (List.append_nil _).trans same.symm⟩
  | ran scope lineage job jobs front permitted => exact permitted.elim
  | given | opened | housed | tended | renamed => exact List.prefix_rfl

theorem Step.job_origin (step : Step allowed γ δ) (scope : Nat) (job : Job)
    (member : job ∈ δ.queued scope) :
    job ∈ γ.queued scope ∨ ∃ i l, γ.loadings[i]? = some l ∧ l.scope = scope ∧
      job.loading? = some i ∧ ∀ call passage, job.passage? = some (call, passage) →
        ∃ work, δ.works[call.1]? = some work ∧ work.loading = i := by
  cases step with
  | started loading l found name depth outcome stage jobs how =>
      rcases mem_queued_launches scope jobs l.scope job member with before | ⟨rfl, new⟩
      · exact .inl before
      · obtain ⟨about, level, way, own⟩ := how.about job new
        refine .inr ⟨loading, l, found, rfl, about, ?_⟩
        intro call passage passes
        obtain ⟨rfl, rfl⟩ : (γ.works.length, level) = call ∧ way = passage := by
          simpa [own] using passes
        simp only [launches, List.getElem?_concat_length]
        exact ⟨_, rfl, rfl⟩
  | proceeded w work there l found stage jobs how =>
      rcases mem_queued_launches scope jobs l.scope job member with before | ⟨rfl, new⟩
      · exact .inl before
      · obtain ⟨about, level, way, own⟩ := how.about job new
        refine .inr ⟨work.loading, l, found, rfl, about, ?_⟩
        intro call passage passes
        obtain ⟨rfl, rfl⟩ : (w, level) = call ∧ way = passage := by
          simpa [own] using passes
        simp only [setStage, launches, List.getElem?_modify_eq, there]
        exact ⟨_, rfl, rfl⟩
  | toggled i l found shown =>
      rcases mem_queued_launches scope _ l.scope job member with before | ⟨rfl, new⟩
      · exact .inl before
      · obtain rfl := List.mem_singleton.mp new
        refine .inr ⟨i, l, found, rfl, rfl, ?_⟩
        intro call passage passes
        cases passes
  | cancelled root =>
      rcases queueAt_cancel γ.scopes scope root with none | same
      · unfold queued at member
        rw [none] at member
        cases member
      · unfold queued at member ⊢
        rw [same] at member
        exact .inl member
  | branched lineage cancelled =>
      unfold queued at member
      rw [queueAt_branch] at member
      exact .inl member
  | ran home lineage first jobs front =>
      left
      unfold queued at member ⊢
      rw [scopes_perform, queueAt_pop _ _ _ _ (List.getElem?_eq_some_iff.mp front).1] at member
      split at member
      · rename_i here
        rw [here, (queueAt_of_front _ _ _ _ _ front).1]
        exact List.mem_cons_of_mem first member
      · exact member
  | given | opened | housed | tended | renamed => exact .inl member

theorem Step.event_origin (step : Step allowed γ δ) (e : Event) (member : e ∈ δ.log) :
    e ∈ γ.log ∨ ∃ scope job, job ∈ γ.queued scope ∧ e.passage? = job.passage? := by
  cases step with
  | ran scope lineage job jobs front =>
      have queued : job ∈ γ.queued scope := by
        unfold queued
        rw [(queueAt_of_front _ _ _ _ _ front).1]
        exact List.mem_cons_self
      cases job with
      | enter | leave =>
          rcases List.mem_cons.mp member with rfl | before
          · exact .inr ⟨scope, _, queued, rfl⟩
          · exact .inl before
      | _ => exact .inl member
  | _ => exact .inl member

theorem Step.moored (step : Step allowed γ δ) (moored : γ.Moored) : δ.Moored where
  homes scope job i member about := by
    have home : ∃ l, γ.loadings[i]? = some l ∧ l.scope = scope := by
      rcases step.job_origin scope job member with before | ⟨j, l, found, here, mine, -⟩
      · exact moored.homes scope job i before about
      · obtain rfl : j = i := Option.some.inj (mine.symm.trans about)
        exact ⟨l, found, here⟩
    obtain ⟨l, found, here⟩ := home
    obtain ⟨next, after, same⟩ := step.loading_stays i l found
    exact ⟨next, after, same.trans here⟩
  owners scope job call passage member passes := by
    rcases step.job_origin scope job member with before | ⟨i, -, -, -, about, owner⟩
    · obtain ⟨work, there, about⟩ := moored.owners scope job call passage before passes
      obtain ⟨next, after, same⟩ := step.work_stays call.1 work there
      have home : next.loading = work.loading := congrArg Prod.fst same
      exact ⟨next, after, home ▸ about⟩
    · obtain ⟨work, there, mine⟩ := owner call passage passes
      exact ⟨work, there, mine ▸ about⟩
  logged e call passage member passes := by
    apply Nat.lt_of_lt_of_le _ step.works_grow
    rcases step.event_origin e member with before | ⟨scope, job, queued, same⟩
    · exact moored.logged e call passage before passes
    · obtain ⟨work, there, -⟩ := moored.owners scope job call passage queued (same ▸ passes)
      exact (List.getElem?_eq_some_iff.mp there).1

theorem Reachable.moored (reachable : γ.Reachable) : γ.Moored := by
  induction reachable with
  | refl =>
      have empty (scope : Nat) : blank.queued scope = [] := by
        cases scope <;> rfl
      constructor
      · intro scope job i member
        rw [empty] at member
        cases member
      · intro scope job call passage member
        rw [empty] at member
        cases member
      · intro e call passage member
        cases member
  | tail _ step ih => exact step.moored ih

end Ledger

end ModalHost
