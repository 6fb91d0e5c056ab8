import ModalHost.Proofs.Strand.Coherence

/-! The lane of a prompt: the prompt with the jobs that are queued for it on a live scope.
`Lane.Step` lists what a step can make of it, and `Lane.Kept` is what holds of it all along. -/

namespace ModalHost

/-- The request that is published once `jobs` have run. -/
def horizon : Nat → List Job → Nat
  | published, [] => published
  | _, .publish _ request _ :: jobs => horizon request jobs
  | published, _ :: jobs => horizon published jobs

theorem horizon_append (published : Nat) (jobs added : List Job) :
    horizon published (jobs ++ added) = horizon (horizon published jobs) added := by
  fun_induction horizon published jobs with
  | case1 published => rfl
  | case2 published i request visuals jobs ih => exact ih
  | case3 published job jobs other ih =>
      rw [List.cons_append, horizon]
      · exact ih
      · exact other

theorem horizon_cons (published : Nat) (job : Job) (jobs : List Job)
    (other : ∀ i request visuals, job ≠ .publish i request visuals) :
    horizon published (job :: jobs) = horizon published jobs := by
  rw [horizon]
  exact other

namespace Prompt

/-- What stays of a prompt while none of its jobs runs, no request is handed out and no answer is
accepted. Its caller may leave, and an answer may be dropped. -/
structure Rests (p next : Prompt) : Prop where
  shown : next.shown = p.shown
  visuals : next.visuals = p.visuals
  phase : next.phase = p.phase
  issued : next.issued = p.issued
  published : next.published = p.published
  parked : next.parked = none ∨ next.parked = p.parked
  mailbox : next.mailbox = none ∨ next.mailbox = p.mailbox

theorem Rests.refl (p : Prompt) : p.Rests p :=
  ⟨rfl, rfl, rfl, rfl, rfl, .inr rfl, .inr rfl⟩

theorem perform_published (p next : Prompt) (owned : Bool) (job : Job)
    (done : p.perform? owned job = some next)
    (other : ∀ i request visuals, job ≠ .publish i request visuals) :
    next.published = p.published ∧ next.visuals = p.visuals := by
  rcases perform_cases p next owned job done with
    ⟨i, request, visuals, publish, -⟩ | ⟨shown, phase, -, -, rfl⟩ | ⟨i, tap, mailbox, -, rfl, -⟩
  · exact absurd publish (other i request visuals)
  · exact ⟨rfl, rfl⟩
  · exact ⟨rfl, rfl⟩

theorem phase_publish (p : Prompt) (request : Nat) (visuals : Visuals) :
    (p.publish request visuals).phase =
      if visuals.isEmpty then .idle else .awaitingInput := by
  simp only [publish]
  split
  · rfl
  · rename_i asks
    simp [appear, asks]

theorem perform_resolving (p next : Prompt) (owned : Bool) (job : Job)
    (done : p.perform? owned job = some next) (resolving : next.phase = .resolving) :
    p.phase = .resolving ∧ (∀ i request visuals, job ≠ .publish i request visuals) ∧
      ∀ i, job ≠ .settle i p.issued := by
  cases job with
  | publish i request visuals =>
      obtain rfl := Option.some.inj done
      rw [phase_publish] at resolving
      split at resolving <;> cases resolving
  | setPrompt i shown =>
      cases shown with
      | false =>
          obtain rfl := Option.some.inj done
          cases resolving
      | true =>
          obtain rfl := Option.some.inj done
          unfold appear at resolving
          split at resolving
          · exact ⟨resolving, nofun, nofun⟩
          · cases resolving
  | settle i request =>
      obtain rfl := Option.some.inj done
      unfold settle at resolving
      split at resolving
      · cases resolving
      · rename_i older
        refine ⟨resolving, nofun, ?_⟩
        intro j same
        exact older (Job.settle.inj same).2.symm
  | offer i tap =>
      rcases perform_cases p next owned _ done with
        ⟨_, _, _, other, -⟩ | ⟨_, _, -, other, -⟩ | ⟨_, _, mailbox, -, rfl, -⟩
      · cases other
      · exact absurd rfl (other i tap)
      · exact ⟨resolving, nofun, nofun⟩
  | _ =>
      obtain rfl := Option.some.inj done
      exact ⟨resolving, nofun, nofun⟩

end Prompt

structure Lane where
  prompt : Prompt
  jobs : List Job
  /-- The request whose delivery goes on; its settling is not queued yet. -/
  due : Option Nat

namespace Lane

/-- What a step can make of the lane of the prompt `i`. Of its jobs only those run that are
`allowed`, and calls queue only those that are `called`. -/
inductive Step (i : Nat) (allowed called : Job → Prop) (L : Lane) : Lane → Prop
  | rests (next : Prompt) (rests : L.prompt.Rests next) :
      Step i allowed called L { L with prompt := next }
  | asks (visuals : Visuals) (parked : Option Parked)
      (may : called (.publish i (L.prompt.issued + 1) visuals)) :
      Step i allowed called L { L with
        prompt := { L.prompt with issued := L.prompt.issued + 1, parked }
        jobs := L.jobs ++ [.publish i (L.prompt.issued + 1) visuals] }
  | queues (next : Prompt) (rests : L.prompt.Rests next) (job : Job)
      (plain : (∃ shown, job = .setPrompt i shown) ∨ ∃ tap, job = .offer i tap)
      (may : called job) :
      Step i allowed called L { L with prompt := next, jobs := L.jobs ++ [job] }
  | accepts (idle : L.due = none) (a : Answer) (full : L.prompt.mailbox = some a)
      (counts : L.prompt.accepts a = true) (appeared : a.request ≤ L.prompt.published) :
      Step i allowed called L { L with
        prompt := { L.prompt with mailbox := none, phase := .resolving, parked := none }
        due := some a.request }
  | settles (request : Nat) (owed : L.due = some request) :
      Step i allowed called L { L with due := none, jobs := L.jobs ++ [.settle i request] }
  | runs (idle : L.due = none) (job : Job) (jobs : List Job) (front : L.jobs = job :: jobs)
      (about : job.prompt? = some i) (permitted : allowed job) (owned : Bool) (next : Prompt)
      (done : L.prompt.perform? owned job = some next)
      (later : ∀ j request visuals, job = .publish j request visuals →
        L.prompt.published < request ∧ request ≤ L.prompt.issued)
      (posted : ∀ a, next.mailbox = some a → a.request ≤ next.published) :
      Step i allowed called L { L with prompt := next, jobs }

def Path (i : Nat) (allowed called : Job → Prop) : Lane → Lane → Prop :=
  Relation.ReflTransGen (Step i allowed called)

/-- The prompt is still to be settled after `request` was answered. -/
def Owes (i : Nat) (L : Lane) (request : Nat) : Prop :=
  L.due = some request ∨ .settle i request ∈ L.jobs

/-- What holds of a lane all along: the last request that is published or queued is the newest, and
a prompt is in the phase of resolving only until it is settled, or another request published. -/
structure Kept (i : Nat) (L : Lane) : Prop where
  bound : L.prompt.published ≤ L.prompt.issued
  ahead : horizon L.prompt.published L.jobs = L.prompt.issued
  resolving : L.prompt.phase = .resolving →
    L.prompt.published < L.prompt.issued ∨ L.Owes i L.prompt.issued
  owed (request : Nat) : L.Owes i request → request ≤ L.prompt.published
  alone : L.Owes i L.prompt.issued → L.prompt.parked = none

variable {i : Nat} {allowed called : Job → Prop} {L M : Lane}

theorem Step.weaken {freer wider : Job → Prop} (step : Step i allowed called L M)
    (more : ∀ job, allowed job → freer job) (most : ∀ job, called job → wider job) :
    Step i freer wider L M := by
  cases step with
  | rests next rests => exact .rests next rests
  | asks visuals parked may => exact .asks visuals parked (most _ may)
  | queues next rests job plain may => exact .queues next rests job plain (most job may)
  | accepts idle a full counts appeared => exact .accepts idle a full counts appeared
  | settles request owed => exact .settles request owed
  | runs idle job jobs front about permitted owned next done later posted =>
      exact .runs idle job jobs front about (more job permitted) owned next done later posted

theorem Path.weaken {freer wider : Job → Prop} (path : Path i allowed called L M)
    (more : ∀ job, allowed job → freer job) (most : ∀ job, called job → wider job) :
    Path i freer wider L M := by
  induction path with
  | refl => exact .refl
  | tail _ step ih => exact ih.tail (step.weaken more most)

theorem Owes.of_append {request : Nat} (owes : M.Owes i request) (due : M.due = L.due) (job : Job)
    (queue : M.jobs = L.jobs ++ [job]) (other : ∀ s, job ≠ .settle i s) : L.Owes i request := by
  rcases owes with now | queued
  · exact .inl (due ▸ now)
  · rw [queue, List.mem_append, List.mem_singleton] at queued
    rcases queued with before | same
    · exact .inr before
    · exact absurd same.symm (other request)

theorem Owes.of_settled {answered request : Nat} (owed : L.due = some answered)
    (owes : Owes i { L with due := none, jobs := L.jobs ++ [.settle i answered] } request) :
    L.Owes i request := by
  rcases owes with now | queued
  · cases now
  · rcases List.mem_append.mp queued with before | last
    · exact .inr before
    · obtain rfl : request = answered := by simpa using last
      exact .inl owed

theorem Owes.of_front {job : Job} {jobs : List Job} {next : Prompt} {request : Nat}
    (front : L.jobs = job :: jobs) (owes : Owes i { L with prompt := next, jobs } request) :
    L.Owes i request := by
  rcases owes with now | queued
  · exact .inl now
  · exact .inr (front ▸ List.mem_cons_of_mem job queued)

theorem Kept.rests (kept : L.Kept i) (next : Prompt) (rests : L.prompt.Rests next) :
    Kept i { L with prompt := next } where
  bound := by
    rw [rests.published, rests.issued]
    exact kept.bound
  ahead := by
    rw [rests.published, rests.issued]
    exact kept.ahead
  resolving now := by
    rw [rests.published, rests.issued]
    exact kept.resolving (rests.phase ▸ now)
  owed request owes := by
    rw [rests.published]
    exact kept.owed request owes
  alone owes := by
    rcases rests.parked with gone | same
    · exact gone
    · rw [same]
      exact kept.alone (rests.issued ▸ owes)

theorem Kept.asks (kept : L.Kept i) (visuals : Visuals) (parked : Option Parked) :
    Kept i { L with
      prompt := { L.prompt with issued := L.prompt.issued + 1, parked }
      jobs := L.jobs ++ [.publish i (L.prompt.issued + 1) visuals] } := by
  have older (request : Nat) (owes : Owes i { L with
      prompt := { L.prompt with issued := L.prompt.issued + 1, parked }
      jobs := L.jobs ++ [.publish i (L.prompt.issued + 1) visuals] } request) :
      request ≤ L.prompt.published :=
    kept.owed request (owes.of_append rfl _ rfl fun _ => nofun)
  have bound := kept.bound
  refine ⟨bound.trans (Nat.le_succ _), ?_, fun _ => .inl (Nat.lt_succ_of_le bound), older, ?_⟩
  · exact (horizon_append _ _ _).trans rfl
  · intro owes
    have behind : L.prompt.issued + 1 ≤ L.prompt.published := older _ owes
    omega

theorem Kept.queues (kept : L.Kept i) (job : Job)
    (plain : (∃ shown, job = .setPrompt i shown) ∨ ∃ tap, job = .offer i tap) :
    Kept i { L with jobs := L.jobs ++ [job] } := by
  have no_settle (s : Nat) : job ≠ .settle i s := by
    rcases plain with ⟨shown, rfl⟩ | ⟨tap, rfl⟩ <;> nofun
  have no_publish (j request : Nat) (visuals : Visuals) : job ≠ .publish j request visuals := by
    rcases plain with ⟨shown, rfl⟩ | ⟨tap, rfl⟩ <;> nofun
  constructor
  case bound => exact kept.bound
  case ahead =>
    rw [horizon_append, kept.ahead]
    exact horizon_cons _ job [] no_publish
  case resolving =>
    intro now
    rcases kept.resolving now with behind | settling | queued
    · exact .inl behind
    · exact .inr (.inl settling)
    · exact .inr (.inr (List.mem_append_left _ queued))
  case owed =>
    intro request owes
    exact kept.owed request (owes.of_append rfl job rfl no_settle)
  case alone =>
    intro owes
    exact kept.alone (owes.of_append rfl job rfl no_settle)

theorem Kept.runs (kept : L.Kept i) (job : Job) (jobs : List Job) (front : L.jobs = job :: jobs)
    (about : job.prompt? = some i) (owned : Bool) (next : Prompt)
    (done : L.prompt.perform? owned job = some next)
    (later : ∀ j request visuals, job = .publish j request visuals →
      L.prompt.published < request ∧ request ≤ L.prompt.issued) :
    Kept i { L with prompt := next, jobs } := by
  have frame := (L.prompt.perform_frame next owned job done).2
  have ahead := kept.ahead
  rw [front] at ahead
  have published : L.prompt.published ≤ next.published ∧ next.published ≤ L.prompt.issued ∧
      horizon next.published jobs = L.prompt.issued := by
    by_cases publish : ∃ j request visuals, job = .publish j request visuals
    · obtain ⟨j, request, visuals, rfl⟩ := publish
      obtain rfl := Option.some.inj done
      obtain ⟨shown, phase, same⟩ := L.prompt.publish_eq request visuals
      have bounds := later j request visuals rfl
      rw [same]
      exact ⟨bounds.1.le, bounds.2, ahead⟩
    · have other (j request : Nat) (visuals : Visuals) : job ≠ .publish j request visuals :=
        fun same => publish ⟨j, request, visuals, same⟩
      rw [(L.prompt.perform_published next owned job done other).1]
      exact ⟨Nat.le_refl _, kept.bound, (horizon_cons _ job jobs other).symm.trans ahead⟩
  constructor
  case bound => exact frame.2 ▸ published.2.1
  case ahead => exact frame.2 ▸ published.2.2
  case resolving =>
    intro now
    obtain ⟨before, no_publish, other⟩ := L.prompt.perform_resolving next owned job done now
    rw [frame.2, (L.prompt.perform_published next owned job done no_publish).1]
    rcases kept.resolving before with behind | settling | queued
    · exact .inl behind
    · exact .inr (.inl settling)
    · rw [front] at queued
      rcases List.mem_cons.mp queued with same | rest
      · exact absurd same.symm (other i)
      · exact .inr (.inr rest)
  case owed =>
    intro request owes
    exact (kept.owed request (owes.of_front front)).trans published.1
  case alone =>
    intro owes
    rw [frame.1]
    exact kept.alone (frame.2 ▸ owes.of_front front)

theorem Step.kept (step : Step i allowed called L M) (kept : L.Kept i) : M.Kept i := by
  cases step with
  | rests next rests => exact kept.rests next rests
  | asks visuals parked => exact kept.asks visuals parked
  | queues next rests job plain => exact (kept.rests next rests).queues job plain
  | accepts idle a full counts appeared =>
      have newest : a.request = L.prompt.issued := ((L.prompt.accepts_iff a).mp counts).1
      refine ⟨kept.bound, kept.ahead, fun _ => .inr (.inl (congrArg some newest)), ?_, fun _ => rfl⟩
      rintro request (now | queued)
      · obtain rfl := Option.some.inj now
        exact appeared
      · exact kept.owed request (.inr queued)
  | settles request owed =>
      refine ⟨kept.bound, ?_, ?_, fun s owes => kept.owed s (owes.of_settled owed),
        fun owes => kept.alone (owes.of_settled owed)⟩
      · rw [horizon_append, kept.ahead]
        rfl
      · intro now
        rcases kept.resolving now with behind | settling | queued
        · exact .inl behind
        · obtain rfl := Option.some.inj (owed.symm.trans settling)
          exact .inr (.inr (List.mem_append_right _ (List.mem_singleton.mpr rfl)))
        · exact .inr (.inr (List.mem_append_left _ queued))
  | runs idle job jobs front about permitted owned next done later =>
      exact kept.runs job jobs front about owned next done later

theorem kept_restore (scope : Nat) (s : Snapshot) (hooks : Hooks Call) :
    Kept i ⟨.restore scope s hooks, [], none⟩ where
  bound := Nat.le_refl 0
  ahead := rfl
  resolving now := by
    have phase : (Prompt.restore scope s hooks).phase ≠ .resolving := by
      cases onScreen : s.onScreen <;> simp [Prompt.restore, onScreen]
    exact absurd now phase
  owed request owes := by
    rcases owes with now | queued
    · cases now
    · cases queued
  alone _ := rfl

/-- When no job of a prompt is left to run, its newest request is published, and no answer is being
resolved. -/
theorem Kept.drained (kept : L.Kept i) (idle : L.due = none) (drained : L.jobs = []) :
    L.prompt.published = L.prompt.issued ∧ L.prompt.phase ≠ .resolving := by
  have current : L.prompt.published = L.prompt.issued := by
    have ahead := kept.ahead
    rwa [drained] at ahead
  refine ⟨current, ?_⟩
  intro resolving
  rcases kept.resolving resolving with behind | settling | queued
  · omega
  · rw [idle] at settling
    cases settling
  · rw [drained] at queued
    cases queued

theorem Path.grows (path : Path i (fun _ => False) called L M) :
    ∃ added, M.jobs = L.jobs ++ added ∧ Path i (fun _ => False) (· ∈ added) L M := by
  induction path with
  | refl => exact ⟨[], (List.append_nil _).symm, .refl⟩
  | @tail between M path step ih =>
      obtain ⟨added, queue, path⟩ := ih
      have wider (job : Job) : Path i (fun _ => False) (· ∈ added ++ [job]) L between :=
        path.weaken (fun _ => id) fun _ member => List.mem_append_left _ member
      have longer (job : Job) : between.jobs ++ [job] = L.jobs ++ (added ++ [job]) := by
        rw [queue, List.append_assoc]
      have last (job : Job) : job ∈ added ++ [job] :=
        List.mem_append_right added (List.mem_singleton.mpr rfl)
      cases step with
      | rests next rests => exact ⟨added, queue, path.tail (.rests next rests)⟩
      | asks visuals parked =>
          exact ⟨_, longer (.publish i (between.prompt.issued + 1) visuals),
            (wider _).tail (.asks visuals parked (last _))⟩
      | queues next rests job plain =>
          exact ⟨_, longer job, (wider job).tail (.queues next rests job plain (last job))⟩
      | accepts idle a full counts appeared =>
          exact ⟨added, queue, path.tail (.accepts idle a full counts appeared)⟩
      | settles request owed =>
          exact ⟨_, longer (.settle i request), (wider _).tail (.settles request owed)⟩
      | runs _ _ _ _ _ permitted => exact permitted.elim

end Lane

end ModalHost
