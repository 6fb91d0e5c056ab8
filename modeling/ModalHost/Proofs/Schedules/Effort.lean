import ModalHost.Proofs.Schedules.Confluence

/-! What a host has left to do. Each move takes some of it, so no run goes on for ever. -/

namespace ModalHost

def Job.weight : Job → Nat
  | .offer _ _ => 3
  | _ => 1

/-- An answer in a mailbox is worth its delivery, and the hiding of the prompt after it. -/
def Prompt.weight (p : Prompt) : Nat := if p.mailbox.isSome then 2 else 0

def Caller.weight (c : Caller) : Nat := if c.ended then 0 else 1

def Wait.weight (w : Wait) : Nat :=
  (if w.ended then 0 else 1) + match w.kind with
    | .spawned true _ => 1
    | _ => 0

/-- A work that waits for a level has the job of the next one before it, and the work after that. -/
def Work.weight (w : Work) : Nat :=
  match w.stage with
  | .entering level _ => 3 * (w.depth + 1 - level) + level + 2 * w.depth + 4
  | .inside => 2 * w.depth + 3
  | .leaving level _ => 2 * level + 1
  | .ended => 0

def Scope.weight (s : Scope) : Nat := (s.queue.map Job.weight).sum

namespace Host

variable {h next : Host} {i k w : Nat}

def load (h : Host) : Nat :=
  (h.scopes.map Scope.weight).sum + (h.prompts.map Prompt.weight).sum +
    (h.callers.map Caller.weight).sum + (h.waits.map Wait.weight).sum +
    (h.works.map Work.weight).sum

theorem weight_push (s : Scope) (job : Job) : (s.push job).weight ≤ s.weight + job.weight := by
  unfold Scope.push Scope.weight
  split
  · omega
  · simp

theorem sum_modify_le {α : Type} (f : α → α) (value : α → Nat) (n : Nat)
    (grows : ∀ x, value (f x) ≤ value x + n) (k : Nat) (xs : List α) :
    ((xs.modify k f).map value).sum ≤ (xs.map value).sum + n := by
  cases found : xs[k]? with
  | none =>
      rw [modify_eq_self f k xs fun x there => by rw [found] at there; cases there]
      omega
  | some x =>
      have changed := sum_modify f value xs k x found
      have bounded := grows x
      omega

theorem sum_modify_lt {α : Type} (f : α → α) (value : α → Nat) (k : Nat) (xs : List α) (x : α)
    (found : xs[k]? = some x) (less : value (f x) < value x) :
    ((xs.modify k f).map value).sum < (xs.map value).sum := by
  have changed := sum_modify f value xs k x found
  omega

theorem weights_pushAll (scopes : List Scope) (home : Nat) (jobs : List Job) :
    ((pushAll scopes home jobs).map Scope.weight).sum ≤
      (scopes.map Scope.weight).sum + (jobs.map Job.weight).sum := by
  induction jobs generalizing scopes with
  | nil => simp [pushAll]
  | cons job jobs ih =>
      have later := ih (scopes.modify home (·.push job))
      have first := sum_modify_le (·.push job) Scope.weight job.weight
        (fun s => weight_push s job) home scopes
      rw [List.map_cons, List.sum_cons]
      change ((pushAll (scopes.modify home (·.push job)) home jobs).map _).sum ≤ _
      omega

theorem load_caller (c : Nat) (resumed : h.resumeCaller? c = some next) : next.load < h.load := by
  obtain ⟨caller, request?, ending, found, waits, -, goes⟩ := resume_local c resumed
  obtain rfl := Option.some.inj (resumed.symm.trans (goes h (.refl h) rfl))
  have prompts : (h.prompts.modify caller.prompt (·.desert request?)).map Prompt.weight =
      h.prompts.map Prompt.weight := by
    refine map_modify_invisible _ _ _ _ fun p => ?_
    have port := congrArg (fun port : Nat × Bool × Option Answer => port.2.2)
      (Prompt.port_desert request? p)
    exact congrArg (fun mailbox : Option Answer => if mailbox.isSome then 2 else 0) port
  have callers := sum_modify_lt (fun caller : Caller => { caller with ended := true })
    Caller.weight c h.callers caller found (by simp [Caller.weight, waits])
  simp only [load, prompts]
  omega

theorem load_wait (w : Nat) (advanced : h.advanceWait? w = some next) : next.load < h.load := by
  obtain ⟨wait, there, moved⟩ := wait_cases w advanced
  have shrinks (f : Wait → Wait) (history : List Event) (less : (f wait).weight < wait.weight) :
      load { h with waits := h.waits.modify w f, history } < h.load := by
    have waits := sum_modify_lt f Wait.weight w h.waits wait there less
    simp only [load]
    omega
  have ends (name : String) (ending : Ending) (waits : wait.ended = false) :
      (h.endWait w name ending).load < h.load :=
    shrinks _ _ (by simp [Wait.weight, waits])
  cases moved with
  | flushed _ _ waits | cancelled _ waits | joined _ _ _ waits => exact ends _ _ waits
  | received given kind => exact shrinks _ _ (by simp [Wait.weight, kind])

theorem weight_proceeds {work : Work} {cancelled : Bool} {stage : Stage} {jobs : List Job}
    (how : work.Proceeds w cancelled stage jobs) :
    { work with stage }.weight + (jobs.map Job.weight).sum < work.weight := by
  have leaves (level : Nat) :
      ((Work.leaves work.loading w level).map Job.weight).sum = level := by
    induction level with
    | zero => rfl
    | succ level ih =>
        rw [Work.leaves, List.map_cons, List.sum_cons, ih]
        exact Nat.add_comm 1 level
  cases how with
  | deeper level done at_stage through room =>
      simp only [Work.weight, at_stage, Job.weight, List.map_cons, List.map_nil, List.sum_cons,
        List.sum_nil]
      omega
  | begun level done at_stage =>
      simp only [Work.weight, at_stage, List.map_nil, List.sum_nil]
      omega
  | outward level text given from_stage =>
      rcases from_stage with ⟨inside, depth⟩ | ⟨done, leaving, -⟩
      · simp only [Work.weight, inside, Job.weight, List.map_cons, List.map_nil, List.sum_cons,
          List.sum_nil]
        omega
      · simp only [Work.weight, leaving, Job.weight, List.map_cons, List.map_nil, List.sum_cons,
          List.sum_nil]
        omega
  | returned text given from_stage =>
      rcases from_stage with ⟨inside, -⟩ | ⟨level, done, -, leaving, -⟩
      · simp [Work.weight, inside]
      · simp [Work.weight, leaving]
  | dropped waits =>
      rw [leaves]
      unfold Work.weight Work.armed
      cases at_stage : work.stage with
      | ended => exact absurd at_stage waits
      | _ => dsimp only; omega

theorem load_work (housed : h.Housed) (w : Nat) (advanced : h.advanceWork? w = some next) :
    next.load < h.load := by
  obtain ⟨work, there, -⟩ := work_cases w advanced
  obtain ⟨l, found⟩ := housed w work there
  obtain ⟨stage, jobs, events, how, -, goes⟩ := work_local there found advanced
  obtain rfl := Option.some.inj (advanced.symm.trans (goes h (.refl h) rfl rfl))
  have lighter := weight_proceeds how
  have works := sum_modify (fun work : Work => { work with stage }) Work.weight h.works w work there
  have scopes := weights_pushAll h.scopes l.scope jobs
  simp only [load]
  omega

theorem weights_of_mailboxes {ps qs : List Prompt}
    (same : qs.map (·.mailbox) = ps.map (·.mailbox)) :
    qs.map Prompt.weight = ps.map Prompt.weight := by
  have through (rs : List Prompt) : rs.map Prompt.weight =
      (rs.map (·.mailbox)).map fun mailbox => if mailbox.isSome then 2 else 0 := by
    rw [List.map_map]
    rfl
  rw [through, through, same]

theorem weights_of_ends {cs ds : List Caller} (same : ds.map (·.ended) = cs.map (·.ended)) :
    ds.map Caller.weight = cs.map Caller.weight := by
  have through (es : List Caller) : es.map Caller.weight =
      (es.map (·.ended)).map fun ended => if ended then 0 else 1 := by
    rw [List.map_map]
    rfl
  rw [through, through, same]

theorem mailboxes_of_ports {ps qs : List Prompt} (same : qs.map (·.port) = ps.map (·.port)) :
    qs.map (·.mailbox) = ps.map (·.mailbox) := by
  have through (rs : List Prompt) :
      rs.map (·.mailbox) = (rs.map (·.port)).map fun port => port.2.2 := by
    rw [List.map_map]
    rfl
  rw [through, through, same]

theorem weight_told (work : Work) (awaited told : Stage)
    (same : ∀ work : Work, work.stage = awaited → { work with stage := told }.weight = work.weight) :
    (if work.stage = awaited then { work with stage := told } else work).weight = work.weight := by
  split
  · rename_i waits
    exact same work waits
  · rfl

theorem load_inert (job : Job) (inert : job.inert = true) (ran : h.runJob job = some next) :
    next.load = h.load := by
  obtain ⟨prompts, loadings, panels, events, redraws⟩ := inert_local job inert
  obtain rfl := Option.some.inj (ran.symm.trans (redraws.runs h))
  simp only [load, weights_of_mailboxes (mailboxes_of_ports (redraws.ports h.prompts))]

theorem load_offer (j : Nat) (tap : Tap) (ran : h.runJob (.offer j tap) = some next) :
    next.load ≤ h.load + 2 := by
  simp only [runJob] at ran
  split at ran
  · cases ran
    omega
  · split at ran
    · cases ran
    · cases ran
      have prompts := sum_modify_le (fun p : Prompt => { p with mailbox := some (p.answer tap) })
        Prompt.weight 2 (fun p => by simp [Prompt.weight]) j h.prompts
      simp only [load, updatePrompt]
      omega

theorem load_runJob (job : Job) (ran : h.runJob job = some next) :
    next.load < h.load + job.weight := by
  have worth : 0 < job.weight := by cases job <;> exact Nat.succ_pos _
  cases inert : job.inert with
  | true =>
      rw [load_inert job inert ran]
      exact Nat.lt_add_of_pos_right worth
  | false =>
      cases job with
      | offer j tap => exact Nat.lt_succ_of_le (load_offer j tap ran)
      | enter l v level =>
          cases ran
          have works := map_modify_invisible _ Work.weight v h.works fun work =>
            weight_told work (.entering level false) (.entering level true) fun _ waits => by
              simp [Work.weight, waits]
          simp only [load, acknowledgeEnter, updateWork, updateLoading, record]
          rw [works]
          exact Nat.lt_add_of_pos_right worth
      | leave l v level awaited =>
          cases awaited with
          | true =>
              cases ran
              have works := map_modify_invisible _ Work.weight v h.works fun work =>
                weight_told work (.leaving level false) (.leaving level true) fun _ waits => by
                  simp [Work.weight, waits]
              simp only [load, acknowledgeLeave, updateWork, updateLoading, record]
              rw [works]
              exact Nat.lt_add_of_pos_right worth
          | false => cases inert
      | hold opened =>
          cases opened with
          | true =>
              cases ran
              omega
          | false => cases ran
      | mark label =>
          cases ran
          exact Nat.lt_add_of_pos_right worth
      | flushed v =>
          cases ran
          have waits := sum_modify_le (fun wait : Wait => { wait with kind := .flush true })
            Wait.weight 0 (fun wait => by simp [Wait.weight]) v h.waits
          simp only [load, updateWait, Job.weight]
          omega
      | _ => cases inert

theorem load_dispatch (k : Nat) (ran : h.dispatch? k = some next) : next.load < h.load := by
  obtain ⟨lineage, job, jobs, front, done⟩ := dispatch_cases k next ran
  have runs := load_runJob job done
  have popped := sum_modify (fun s : Scope => { s with queue := jobs }) Scope.weight h.scopes k _
    front
  have before : Scope.weight ⟨lineage, false, job :: jobs⟩ =
      job.weight + (jobs.map Job.weight).sum := by
    rw [Scope.weight, List.map_cons, List.sum_cons]
  have after : Scope.weight ⟨lineage, false, jobs⟩ = (jobs.map Job.weight).sum := rfl
  dsimp only at popped
  have rest : (h.setQueue k jobs).load + job.weight = h.load := by
    simp only [load, setQueue]
    omega
  omega

theorem load_deliver (silent : h.Silent i) (delivered : h.deliver? i = some next) :
    next.load < h.load := by
  obtain ⟨p, a, present, full, prompts, callers, history, jobs, rfl, hears, queued⟩ :=
    deliver_frame silent delivered
  have emptied := sum_modify (fun p : Prompt => { p with mailbox := none }) Prompt.weight h.prompts
    i p present
  have was : p.weight = 2 := by simp [Prompt.weight, full]
  have now : Prompt.weight { p with mailbox := none } = 0 := rfl
  have scopes := weights_pushAll h.scopes p.scope jobs
  have cheap : (jobs.map Job.weight).sum ≤ 1 := by
    rcases queued with rfl | rfl
    · exact Nat.zero_le 1
    · exact Nat.le_refl 1
  simp only [load, weights_of_mailboxes hears.mailboxes, weights_of_ends hears.ended]
  omega

theorem load_retire (retired : h.retire? i = some next) : next.load < h.load := by
  obtain ⟨p, a, present, full, -, -, rfl⟩ := retire_cases i next retired
  have emptied := sum_modify (fun p : Prompt => { p with mailbox := none }) Prompt.weight h.prompts
    i p present
  have was : p.weight = 2 := by simp [Prompt.weight, full]
  have now : Prompt.weight { p with mailbox := none } = 0 := rfl
  simp only [load, updatePrompt]
  omega

def unseen (h : Host) (x : Follower) : Nat :=
  if x.ended then 0
  else 1 + (if (h.shown? x.source).any fun cell => cell.version != x.seenShown then 1 else 0) +
    match x.pictures with
    | none => 0
    | some i => 1 + if h.prompts[i]?.any fun p => p.visuals.version != x.seenVisuals then 1 else 0

def drawing (h : Host) : Nat := (h.followers.map h.unseen).sum

/-- All that is left to do. A move that is not a renderer's may make each follower look again. -/
def effort (h : Host) : Nat := h.load * (4 * h.followers.length + 1) + h.drawing

theorem drawing_le (h : Host) : h.drawing ≤ 4 * h.followers.length := by
  have bounded (x : Follower) : h.unseen x ≤ 4 := by
    unfold unseen
    split
    · omega
    · cases x.pictures <;> dsimp only <;> split <;> (try split) <;> omega
  unfold drawing
  induction h.followers with
  | nil => exact Nat.le_refl 0
  | cons x xs ih =>
      have here := bounded x
      rw [List.map_cons, List.sum_cons, List.length_cons]
      omega

theorem draw_eq (f : Nat) : ∃ frame history, h.draw f = { h with
    followers := h.followers.modify f fun x => { x with frame }
    history } := by
  unfold draw
  split
  · rename_i absent
    have same := modify_eq_self (fun x : Follower => { x with frame := .clear }) f h.followers
      fun x there => by rw [absent] at there; cases there
    exact ⟨.clear, h.history, by rw [same]⟩
  · exact ⟨_, _, rfl⟩

theorem effort_renders (f : Nat) (x : Follower) (found : h.followers[f]? = some x)
    (g : Follower → Follower) (history : List Event) (less : h.unseen (g x) < h.unseen x) :
    effort { h with followers := h.followers.modify f g, history } < h.effort := by
  have sums := sum_modify_lt g h.unseen f h.followers x found less
  have drawn : drawing { h with followers := h.followers.modify f g, history } =
      ((h.followers.modify f g).map h.unseen).sum := rfl
  have same : load { h with followers := h.followers.modify f g, history } = h.load := rfl
  unfold effort
  rw [drawn, same]
  simp only [List.length_modify]
  unfold drawing
  omega

theorem effort_draws (f : Nat) (x : Follower) (found : h.followers[f]? = some x)
    (g : Follower → Follower)
    (less : ∀ frame, h.unseen { g x with frame } < h.unseen x) :
    ((h.updateFollower f g).draw f).effort < h.effort := by
  obtain ⟨frame, history, same⟩ := draw_eq (h := h.updateFollower f g) f
  rw [same]
  have both : (h.followers.modify f g).modify f (fun x => { x with frame }) =
      h.followers.modify f fun x => { g x with frame } := List.modify_modify_eq ..
  simp only [updateFollower, both]
  exact effort_renders f x found _ history (less frame)

theorem effort_shown (f : Nat) (woke : h.followShown? f = some next) : next.effort < h.effort := by
  obtain ⟨x, found, running, moved⟩ := shown_cases f woke
  cases moved with
  | looked cell shown unseen =>
      refine effort_draws f x found _ fun frame => ?_
      simp [Host.unseen, running, shown, unseen]
  | ended =>
      refine effort_renders f x found _ _ ?_
      simp only [Host.unseen, running, if_true, Bool.false_eq_true, if_false]
      omega

theorem effort_visuals (f : Nat) (woke : h.followVisuals? f = some next) :
    next.effort < h.effort := by
  obtain ⟨x, i, p, found, running, followed, present, moved⟩ := visuals_cases f woke
  cases moved with
  | drew unseen =>
      refine effort_draws f x found _ fun frame => ?_
      simp [Host.unseen, running, followed, present, unseen]
  | overlooked unseen =>
      refine effort_renders f x found _ _ ?_
      simp [Host.unseen, running, followed, present, unseen]
  | left =>
      refine effort_renders f x found _ _ ?_
      simp only [Host.unseen, running, followed, Bool.false_eq_true, if_false]
      omega

theorem load_move (housed : h.Housed) (m : Move) (silent : ∀ i, m = .deliver i → h.Silent i)
    (draws : m.renders = false) (taken : h.move? m = some next) : next.load < h.load := by
  cases m with
  | dispatch k => exact load_dispatch k taken
  | deliver i => exact load_deliver (silent i rfl) taken
  | retire i => exact load_retire taken
  | resumeCaller c => exact load_caller c taken
  | advanceWork w => exact load_work housed w taken
  | advanceWait w => exact load_wait w taken
  | followShown | followVisuals => cases draws

/-- Each move takes some of what is left to do, unless a hook makes calls. -/
theorem effort_move (housed : h.Housed) (m : Move) (silent : ∀ i, m = .deliver i → h.Silent i)
    (taken : h.move? m = some next) : next.effort < h.effort := by
  cases draws : m.renders with
  | true =>
      cases m with
      | followShown f => exact effort_shown f taken
      | followVisuals f => exact effort_visuals f taken
      | _ => cases draws
  | false =>
      have lighter := load_move housed m silent draws taken
      obtain ⟨events, self, -⟩ := (echo housed m draws silent taken).self taken
      have followers : next.followers = h.followers := by rw [self]
      have bounded := drawing_le next
      rw [followers] at bounded
      unfold effort
      rw [followers]
      calc next.load * (4 * h.followers.length + 1) + next.drawing
          < next.load * (4 * h.followers.length + 1) + (4 * h.followers.length + 1) := by omega
        _ = (next.load + 1) * (4 * h.followers.length + 1) := (Nat.succ_mul _ _).symm
        _ ≤ h.load * (4 * h.followers.length + 1) := Nat.mul_le_mul_right _ lighter
        _ ≤ h.load * (4 * h.followers.length + 1) + h.drawing := Nat.le_add_right _ _

theorem Calm.effort (calm : h.Calm) (m : Move) (taken : h.move? m = some next) :
    next.effort < h.effort :=
  effort_move calm.housed m (fun i same => calm.silent i (same ▸ taken)) taken

theorem Calm.move (calm : h.Calm) (m : Move) (taken : h.move? m = some next) : next.Calm := by
  cases draws : m.renders with
  | true => exact calm.alike (commutes.still draws taken)
  | false => exact calm.step m draws taken

theorem Calm.run (calm : h.Calm) (ms : List Move) (run : drive move? h ms = some next) :
    next.Calm := by
  induction ms generalizing h with
  | nil =>
      obtain rfl : h = next := Option.some.inj run
      exact calm
  | cons m ms ih =>
      obtain ⟨mid, first, rest⟩ := drive_cons.mp run
      exact ih (calm.move m first) rest

theorem Calm.bounded (calm : h.Calm) (ms : List Move) (run : drive move? h ms = some next) :
    ms.length ≤ h.effort := by
  induction ms generalizing h with
  | nil => exact Nat.zero_le _
  | cons m ms ih =>
      obtain ⟨mid, first, rest⟩ := drive_cons.mp run
      have later := ih (calm.move m first) rest
      have less := calm.effort m first
      rw [List.length_cons]
      omega

theorem Calm.acc (calm : h.Calm) : Acc (fun next h => ∃ m, move? h m = some next) h := by
  induction left : h.effort using Nat.strongRecOn generalizing h with
  | ind n ih =>
      refine ⟨_, ?_⟩
      rintro next ⟨m, taken⟩
      exact ih next.effort (left ▸ calm.effort m taken) (calm.move m taken) rfl

theorem Calm.ends (calm : h.Calm) : ∃ ms last, drive move? h ms = some last ∧
    ∀ m, last.move? m = none :=
  halts_of_acc h calm.acc

end Host

end ModalHost
