import ModalHost.Proofs.Strand.Callers
import ModalHost.Proofs.Strand.Timeline
import ModalHost.Proofs.Lane.Courses

/-! While the scope of a prompt is live, each step of its strand is one of its lane. -/

namespace ModalHost.Strand

variable {i : Nat} {allowed : Job → Prop} {σ τ : Strand}

def lane (σ : Strand) (p : Prompt) : Lane := ⟨p, σ.queued p.scope, σ.due⟩

theorem scopes_withdraw (p : Prompt) (request : Nat) :
    (σ.withdraw i p request).scopes = σ.scopes ∨
      (σ.withdraw i p request).scopes = σ.scopes.modify p.scope (·.push (.setPrompt i false)) := by
  have cases := withdraw_cases (i := i) (σ := σ) p request
  rcases cases with ⟨same, -⟩ | ⟨-, same | same | same⟩ <;> rw [same]
  · exact .inl rfl
  · exact .inl rfl
  · exact .inl rfl
  · exact .inr rfl

theorem Step.persist (step : Step i allowed σ τ) : Persist σ.scopes τ.scopes := by
  cases step with
  | asked | queued | settled => exact .push _ _
  | withdrawn p present c caller =>
      rcases scopes_withdraw (i := i) (σ := σ) p caller.request with same | pushed
      · simp only [conclude, same]
        exact .refl _
      · simp only [conclude, pushed]
        exact .push _ _
  | cancelled root => exact .cancel root
  | branched => exact .branch _
  | ran => exact .pop _ _
  | opened | resumed | tended | refused | accepted | pictured | elsewhere => exact .refl _

theorem Path.persist (path : Path i allowed σ τ) : Persist σ.scopes τ.scopes := by
  induction path with
  | refl => exact .refl _
  | tail _ step ih => exact ih.trans step.persist

theorem Reachable.anchored (reachable : Reachable i σ) (p : Prompt)
    (present : σ.prompt = some p) : p.scope < σ.scopes.length := by
  induction reachable generalizing p with
  | refl => cases present
  | @tail between σ path step ih =>
      have grown := step.persist.length_le
      cases before : between.prompt with
      | some former =>
          obtain ⟨next, after, same⟩ := step.prompt_stays former before
          obtain rfl : next = p := Option.some.inj (after.symm.trans present)
          exact same ▸ (ih former before).trans_le grown
      | none =>
          cases step with
          | opened absent scope s hooks inside =>
              obtain rfl := Option.some.inj present
              exact inside
          | cancelled | branched | pictured | elsewhere =>
              cases before.symm.trans present
          | _ => simp_all

theorem Reachable.opens (reachable : Reachable i σ) (p : Prompt) (present : σ.prompt = some p)
    (live : σ.isCancelled p.scope = false) : σ.isOpen p.scope = true :=
  openAt_of_live σ.scopes p.scope (reachable.anchored p present) live

theorem lane_of_home (p next : Prompt) (home : next.scope = p.scope) :
    σ.lane next = ⟨next, σ.queued p.scope, σ.due⟩ := by
  rw [lane, home]

theorem lane_launch (p next : Prompt) (home : next.scope = p.scope) (job : Job)
    (opens : σ.isOpen p.scope = true) :
    (σ.launch p.scope job).lane next = ⟨next, σ.queued p.scope ++ [job], σ.due⟩ := by
  rw [lane_of_home p next home, queued_launch, if_pos ⟨rfl, opens⟩]
  rfl

theorem lane_withdraw (p : Prompt) (present : σ.prompt = some p) (request : Nat)
    (live : σ.isCancelled p.scope = false) (opens : σ.isOpen p.scope = true) :
    ∃ next, (σ.withdraw i p request).prompt = some next ∧ next.scope = p.scope ∧
      Lane.Step i allowed (fun _ => True) (σ.lane p) ((σ.withdraw i p request).lane next) := by
  have cleared : p.Rests { p with parked := none } :=
    ⟨rfl, rfl, rfl, rfl, rfl, .inl rfl, .inr rfl⟩
  unfold withdraw relinquish
  split
  · split
    · exact ⟨_, rfl, rfl, .rests _ cleared⟩
    · split
      · rename_i dead
        cases live.symm.trans dead
      · refine ⟨_, rfl, rfl, ?_⟩
        rw [lane_launch]
        · exact .queues _ cleared _ (.inl ⟨false, rfl⟩) trivial
        · rfl
        · exact opens
  · exact ⟨p, present, rfl, .rests p (.refl p)⟩

/-- What an accepted answer makes of a lane. Whoever is parked waits for the newest request, and so
leaves the slot. -/
theorem lane_accepted (reachable : Reachable i σ) (p : Prompt) (present : σ.prompt = some p)
    (idle : σ.due = none) (a : Answer) (full : p.mailbox = some a) (counts : p.accepts a = true) :
    Lane.Step i allowed (fun _ => True) (σ.lane p)
      ⟨{ p with mailbox := none, phase := .resolving }.unpark a.request, σ.queued p.scope,
        some a.request⟩ := by
  have attended := reachable.attended.present p present
  have newest : a.request = p.issued := ((p.accepts_iff a).mp counts).1
  have cleared := unpark_newest { p with mailbox := none, phase := .resolving } a.request
    fun q held => (attended.newest q held).trans newest.symm
  obtain ⟨parked, same, -⟩ :=
    Prompt.unpark_eq { p with mailbox := none, phase := .resolving } a.request
  rw [same] at cleared ⊢
  obtain rfl : parked = none := cleared
  exact .accepts idle a full counts ((reachable.scheduled.present p present).answer a full).appeared

theorem lane_ran {called : Job → Prop} (reachable : Reachable i σ) (p : Prompt)
    (present : σ.prompt = some p) (idle : σ.due = none) (job : Job) (jobs : List Job) (front : σ.queued p.scope = job :: jobs)
    (permitted : allowed job) (owned : Bool) (next : Prompt)
    (done : p.perform? owned job = some next) :
    Lane.Step i allowed called (σ.lane p) ⟨next, jobs, σ.due⟩ := by
  have about : job.prompt? = some i :=
    (reachable.moored.jobs p.scope job (front ▸ List.mem_cons_self)).1
  have scheduled := reachable.scheduled.present p present
  rw [front] at scheduled
  refine .runs idle job jobs front about permitted owned next done ?_ ?_
  · rintro j request visuals rfl
    have orderly := scheduled.orderly
    exact ⟨orderly.1, orderly.2.2.le⟩
  · intro a full
    exact ((scheduled.perform owned done).answer a full).appeared

theorem Step.lane (step : Step i allowed σ τ) (reachable : Reachable i σ) (p : Prompt)
    (present : σ.prompt = some p) (live : τ.isCancelled p.scope = false) :
    ∃ next, τ.prompt = some next ∧ next.scope = p.scope ∧
      Lane.Step i allowed (fun _ => True) (σ.lane p) (τ.lane next) := by
  have alive : σ.isCancelled p.scope = false := step.persist.live live
  have opens := reachable.opens p present alive
  have same (queue : τ.queued p.scope = σ.queued p.scope) (due : τ.due = σ.due) :
      Lane.Step i allowed (fun _ => True) (σ.lane p) (τ.lane p) := by
    rw [Strand.lane, Strand.lane, queue, due]
    exact .rests p (.refl p)
  cases step with
  | opened absent => cases absent.symm.trans present
  | asked q here visuals waiting =>
      obtain rfl : q = p := Option.some.inj (here.symm.trans present)
      refine ⟨_, rfl, rfl, ?_⟩
      rw [lane_launch]
      · exact .asks visuals _ trivial
      · rfl
      · exact opens
  | withdrawn q here c caller =>
      obtain rfl : q = p := Option.some.inj (here.symm.trans present)
      exact lane_withdraw q here caller.request alive opens
  | resumed | pictured | elsewhere => exact ⟨p, present, rfl, same rfl rfl⟩
  | queued q here job may =>
      obtain rfl : q = p := Option.some.inj (here.symm.trans present)
      refine ⟨q, here, rfl, ?_⟩
      rw [lane_launch q q rfl job opens]
      refine .queues q (.refl q) job ?_ trivial
      cases may with
      | toggle shown => exact .inl ⟨shown, rfl⟩
      | tap => exact .inr ⟨_, rfl⟩
  | tended q here hooks handle =>
      obtain rfl : q = p := Option.some.inj (here.symm.trans present)
      exact ⟨_, rfl, rfl, .rests _ ⟨rfl, rfl, rfl, rfl, rfl, .inr rfl, .inr rfl⟩⟩
  | cancelled root =>
      exact ⟨p, present, rfl, same (queueAt_cancel_live σ.scopes p.scope root live) rfl⟩
  | branched => exact ⟨p, present, rfl, same (queued_branch σ _ _ _) rfl⟩
  | ran idle q here lineage job jobs front permitted next done =>
      obtain rfl : q = p := Option.some.inj (here.symm.trans present)
      have home := (q.perform_frame next _ job done).1
      refine ⟨next, rfl, home, ?_⟩
      rw [lane_of_home q next home, queued_pop σ q.scope q.scope jobs _ front, if_pos rfl]
      exact lane_ran reachable q here idle job jobs (front_of_scope _ _ _ _ front) permitted _ next
        done
  | refused idle q here a full stale =>
      obtain rfl : q = p := Option.some.inj (here.symm.trans present)
      exact ⟨_, rfl, rfl, .rests _ ⟨rfl, rfl, rfl, rfl, rfl, .inr rfl, .inl rfl⟩⟩
  | accepted idle q here a full counts =>
      obtain rfl : q = p := Option.some.inj (here.symm.trans present)
      obtain ⟨parked, made, -⟩ :=
        Prompt.unpark_eq { q with mailbox := none, phase := .resolving } a.request
      have home :
          ({ q with mailbox := none, phase := .resolving }.unpark a.request).scope = q.scope := by
        rw [made]
      refine ⟨_, rfl, home, ?_⟩
      rw [lane_of_home q _ home]
      exact lane_accepted reachable q here idle a full counts
  | settled q here request owed =>
      obtain rfl : q = p := Option.some.inj (here.symm.trans present)
      refine ⟨q, here, rfl, ?_⟩
      rw [lane_launch]
      · exact .settles request owed
      · rfl
      · exact opens

theorem Path.lane (path : Path i allowed σ τ) (reachable : Reachable i σ) (p : Prompt)
    (present : σ.prompt = some p) (live : τ.isCancelled p.scope = false) :
    ∃ next, τ.prompt = some next ∧ next.scope = p.scope ∧
      Lane.Path i allowed (fun _ => True) (σ.lane p) (τ.lane next) := by
  induction path with
  | refl => exact ⟨p, present, rfl, .refl⟩
  | @tail between τ path step ih =>
      obtain ⟨q, there, home, lane⟩ := ih (step.persist.live live)
      obtain ⟨next, after, same, last⟩ := step.lane (Path.reachable path reachable) q there (home ▸ live)
      exact ⟨next, after, same.trans home, lane.tail last⟩

theorem Reachable.undue (reachable : Reachable i σ) (absent : σ.prompt = none) : σ.due = none := by
  induction reachable with
  | refl => rfl
  | @tail between σ path step ih =>
      have before : between.prompt = none := by
        cases present : between.prompt with
        | none => rfl
        | some p =>
            obtain ⟨next, after, -⟩ := step.prompt_stays p present
            cases absent.symm.trans after
      cases step with
      | opened => cases absent
      | cancelled | branched | pictured | elsewhere => exact ih before
      | _ => simp_all

theorem Reachable.kept (reachable : Reachable i σ) (p : Prompt) (present : σ.prompt = some p)
    (live : σ.isCancelled p.scope = false) : (σ.lane p).Kept i := by
  induction reachable generalizing p with
  | refl => cases present
  | @tail between σ path step ih =>
      cases before : between.prompt with
      | some former =>
          obtain ⟨next, after, same⟩ := step.prompt_stays former before
          obtain rfl : next = p := Option.some.inj (after.symm.trans present)
          have alive : σ.isCancelled former.scope = false := same ▸ live
          obtain ⟨now, there, -, lane⟩ := step.lane path former before alive
          obtain rfl : now = next := Option.some.inj (there.symm.trans after)
          exact lane.kept (ih former before (step.persist.live alive))
      | none =>
          cases step with
          | opened absent scope s hooks inside =>
              obtain rfl := Option.some.inj present
              have unqueued : between.queued scope = [] := by
                rw [List.eq_nil_iff_forall_not_mem]
                intro job member
                obtain ⟨-, p, here, -⟩ := (Reachable.moored path).jobs scope job member
                cases before.symm.trans here
              change Lane.Kept i ⟨_, between.queued scope, between.due⟩
              rw [unqueued, Reachable.undue path before]
              exact Lane.kept_restore scope s hooks
          | cancelled | branched | pictured | elsewhere => cases before.symm.trans present
          | _ => simp_all

theorem Reachable.opening (reachable : Reachable i σ) (p : Prompt) (present : σ.prompt = some p)
    (live : σ.isCancelled p.scope = false) (visuals : Visuals) (before after : List Job)
    (queue : σ.queued p.scope = before ++ .publish i p.issued visuals :: after)
    (settlings : ∀ job ∈ after, ∃ s, job = .settle i s) :
    (σ.lane p).Opening i p.issued visuals := by
  have scheduled := reachable.scheduled.present p present
  have orderly := scheduled.orderly
  rw [queue] at orderly
  have older := orderly.before
  have kept := reachable.kept p present live
  have settled (s : Nat) (owes : (σ.lane p).Owes i s) : s < p.issued :=
    (kept.owed s owes).trans_lt older.1
  refine ⟨rfl, fun a full => (scheduled.answer a full).appeared.trans_lt older.1,
    fun s due => settled s (.inl due), .ahead before after queue older.1 older.2 ?_⟩
  intro job member
  obtain ⟨s, rfl⟩ := settlings job member
  have queued : .settle i s ∈ σ.queued p.scope := by
    rw [queue]
    exact List.mem_append_right _ (List.mem_cons_of_mem _ member)
  exact ⟨s, settled s (.inr queued), rfl⟩

theorem Path.stranded (path : Path i allowed σ τ) (reachable : Reachable i σ)
    (spared : ¬allowed (.setPrompt i false)) (p : Prompt) (present : τ.prompt = some p)
    (live : τ.isCancelled p.scope = false) (stranded : (τ.lane p).Stranded) :
    ∃ former, σ.prompt = some former ∧ former.scope = p.scope ∧ (σ.lane former).Stranded ∧
      p.published = former.published := by
  induction path generalizing p with
  | refl => exact ⟨p, present, rfl, stranded, rfl⟩
  | @tail between τ path step ih =>
      cases before : between.prompt with
      | some middle =>
          obtain ⟨next, after, home⟩ := step.prompt_stays middle before
          obtain rfl : next = p := Option.some.inj (after.symm.trans present)
          have alive : between.isCancelled middle.scope = false :=
            step.persist.live (home ▸ live)
          have reached := Path.reachable path reachable
          have kept := reached.kept middle before alive
          obtain ⟨now, there, -, lane⟩ := step.lane reached middle before (home ▸ live)
          obtain rfl : now = next := Option.some.inj (there.symm.trans present)
          obtain ⟨still, last⟩ := lane.stranded spared kept stranded
          obtain ⟨former, here, stays, first, earlier⟩ := ih middle before alive still
          exact ⟨former, here, stays.trans home.symm, first, last.trans earlier⟩
      | none =>
          cases step with
          | opened absent scope s hooks =>
              obtain rfl := Option.some.inj present
              exact absurd rfl stranded.parked
          | cancelled | branched | pictured | elsewhere => cases before.symm.trans present
          | _ => simp_all

end ModalHost.Strand
