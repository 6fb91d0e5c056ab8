import ModalHost.Proofs.Strand.Mooring
import Mathlib.Data.List.Nodup

/-! The order in which the requests of a prompt are handed out and published, and when the pictures
and the taps were taken that are about. -/

namespace ModalHost

def requests (i : Nat) (log : List Event) : List (Nat × Visuals) :=
  log.filterMap fun
    | .issued j request visuals => if j = i then some (request, visuals) else none
    | _ => none

theorem mem_requests (i : Nat) (log : List Event) (request : Nat) (visuals : Visuals) :
    (request, visuals) ∈ requests i log ↔ .issued i request visuals ∈ log := by
  simp only [requests, List.mem_filterMap]
  constructor
  · rintro ⟨e, member, made⟩
    split at made
    · split at made
      · rename_i here
        rcases Prod.mk.inj (Option.some.inj made) with ⟨rfl, rfl⟩
        exact here ▸ member
      · simp at made
    · simp at made
  · intro member
    exact ⟨_, member, by simp⟩

@[simp] theorem requests_issued (i request : Nat) (visuals : Visuals) (log : List Event) :
    requests i (.issued i request visuals :: log) = (request, visuals) :: requests i log := by
  simp [requests]

theorem requests_append (i : Nat) (events log : List Event)
    (silent : ∀ request visuals, .issued i request visuals ∉ events) :
    requests i (events ++ log) = requests i log := by
  have none : requests i events = [] := by
    rw [List.eq_nil_iff_forall_not_mem]
    rintro ⟨request, visuals⟩ member
    exact silent request visuals ((mem_requests i events request visuals).mp member)
  simp only [requests, List.filterMap_append] at none ⊢
  rw [none, List.nil_append]

theorem requests_foreign (i : Nat) {callers : List Caller} (events log : List Event)
    (foreign : ∀ e ∈ events, ∃ c caller name ending, callers[c]? = some caller ∧
      caller.prompt ≠ i ∧ e = .ended (.caller c) name ending) :
    requests i (events ++ log) = requests i log := by
  refine requests_append i events log ?_
  intro request visuals member
  rcases foreign _ member with ⟨_, _, _, _, _, _, same⟩
  simp at same

structure Picture.Genuine (picture : Picture) (asked : List (Nat × Visuals))
    (published newest : Nat) : Prop where
  appeared : picture.request ≤ published
  showed : (picture.request, picture.visuals) ∈ asked
  known : picture.request ≤ picture.newest
  stamped : picture.newest ≤ newest

theorem Picture.Genuine.mono {picture : Picture} {asked more : List (Nat × Visuals)}
    {published later newest newer : Nat} (genuine : picture.Genuine asked published newest)
    (kept : asked ⊆ more) (up : published ≤ later) (new : newest ≤ newer) :
    picture.Genuine more later newer where
  appeared := genuine.appeared.trans up
  showed := kept genuine.showed
  known := genuine.known
  stamped := genuine.stamped.trans new

structure Tap.Timely (tap : Tap) (asked : List (Nat × Visuals)) (published issued : Nat) :
    Prop where
  behind : published ≤ tap.newest
  stamped : tap.newest ≤ issued
  picture (picture : Picture) : tap.picture = some picture →
    picture.Genuine asked published tap.newest

structure Answer.Timely (a : Answer) (asked : List (Nat × Visuals)) (published issued : Nat) :
    Prop where
  appeared : a.request ≤ published
  known : a.request ≤ a.tap.newest
  stamped : a.tap.newest ≤ issued
  picture (picture : Picture) : a.tap.picture = some picture →
    a.request = picture.request ∧ picture.Genuine asked published a.tap.newest

theorem Answer.Timely.mono {a : Answer} {asked more : List (Nat × Visuals)}
    {published later issued newer : Nat} (timely : a.Timely asked published issued)
    (kept : asked ⊆ more) (up : published ≤ later) (new : issued ≤ newer) :
    a.Timely more later newer where
  appeared := timely.appeared.trans up
  known := timely.known
  stamped := timely.stamped.trans new
  picture picture taken := by
    rcases timely.picture picture taken with ⟨same, genuine⟩
    exact ⟨same, genuine.mono kept up (Nat.le_refl _)⟩

/-- The jobs of a prompt, to be run from the publishing of `published` on: requests are published in
the order in which they were handed out, and taps are timely. -/
def Orderly (asked : List (Nat × Visuals)) (issued : Nat) : Nat → List Job → Prop
  | published, [] => published ≤ issued
  | published, .publish _ request visuals :: jobs =>
    published < request ∧ (request, visuals) ∈ asked ∧ Orderly asked issued request jobs
  | published, .offer _ tap :: jobs =>
    tap.Timely asked published issued ∧ Orderly asked issued published jobs
  | published, _ :: jobs => Orderly asked issued published jobs

section

variable {asked more : List (Nat × Visuals)} {issued newer published : Nat} {jobs : List Job}

theorem Orderly.le (orderly : Orderly asked issued published jobs) : published ≤ issued := by
  fun_induction Orderly asked issued published jobs with
  | case1 published => exact orderly
  | case2 published _ request visuals jobs ih =>
      have later := ih orderly.2.2
      have before := orderly.1
      omega
  | case3 published _ tap jobs ih => exact ih orderly.2
  | case4 published job jobs _ _ ih => exact ih orderly

theorem Orderly.before {i request : Nat} {visuals : Visuals} {after : List Job}
    (orderly : Orderly asked issued published (jobs ++ .publish i request visuals :: after)) :
    published < request ∧ ∀ j r v, .publish j r v ∈ jobs → r < request := by
  induction jobs generalizing published with
  | nil => exact ⟨orderly.1, nofun⟩
  | cons job jobs ih =>
      cases job with
      | publish j r v =>
          obtain ⟨first, -, rest⟩ := orderly
          have later := ih rest
          refine ⟨first.trans later.1, ?_⟩
          intro k s w member
          rcases List.mem_cons.mp member with same | inside
          · cases same
            exact later.1
          · exact later.2 k s w inside
      | offer j tap =>
          have later := ih orderly.2
          exact ⟨later.1, fun k s w member => later.2 k s w (by simpa using member)⟩
      | _ =>
          have later := ih orderly
          exact ⟨later.1, fun k s w member => later.2 k s w (by simpa using member)⟩

theorem Orderly.append (orderly : Orderly asked issued published jobs) (kept : asked ⊆ more)
    (new : issued ≤ newer) (added : List Job)
    (after : ∀ last, published ≤ last → last ≤ issued → Orderly more newer last added) :
    Orderly more newer published (jobs ++ added) := by
  fun_induction Orderly asked issued published jobs with
  | case1 published => exact after published (Nat.le_refl _) orderly
  | case2 published _ request visuals jobs ih =>
      rcases orderly with ⟨before, member, rest⟩
      refine ⟨before, kept member, ih rest ?_⟩
      intro last from_request
      exact after last (by omega)
  | case3 published _ tap jobs ih =>
      rcases orderly with ⟨timely, rest⟩
      refine ⟨⟨timely.behind, timely.stamped.trans new, ?_⟩, ih rest after⟩
      intro picture taken
      exact (timely.picture picture taken).mono kept (Nat.le_refl _) (Nat.le_refl _)
  | case4 published job jobs no_publish no_offer ih =>
      rw [List.cons_append, Orderly]
      · exact ih orderly after
      · exact no_publish
      · exact no_offer

theorem Orderly.mono (orderly : Orderly asked issued published jobs) (kept : asked ⊆ more)
    (new : issued ≤ newer) : Orderly more newer published jobs := by
  have appended := orderly.append kept new [] fun last _ le => le.trans new
  rwa [List.append_nil] at appended

end

namespace Prompt

/-- What is known of a prompt when `asked` was asked of it, `jobs` are queued for it and `shots` are
the pictures of it that are about. -/
structure Scheduled (p : Prompt) (asked : List (Nat × Visuals)) (jobs : List Job)
    (shots : Set Picture) : Prop where
  numbered : asked.map (·.1) = (List.range (p.issued + 1)).reverse
  current : (p.published, p.visuals.value) ∈ asked
  orderly : Orderly asked p.issued p.published jobs
  answer (a : Answer) : p.mailbox = some a → a.Timely asked p.published p.issued
  genuine (picture : Picture) : picture ∈ shots → picture.Genuine asked p.published p.issued

variable {p next : Prompt} {asked : List (Nat × Visuals)} {jobs : List Job} {shots : Set Picture}

theorem Scheduled.unique (scheduled : p.Scheduled asked jobs shots) (request : Nat)
    (visuals other : Visuals) (first : (request, visuals) ∈ asked)
    (second : (request, other) ∈ asked) : visuals = other := by
  have nodup : (asked.map (·.1)).Nodup := by
    rw [scheduled.numbered, List.nodup_reverse]
    exact List.nodup_range
  exact congrArg Prod.snd (List.inj_on_of_nodup_map nodup first second rfl)

theorem Scheduled.keep (scheduled : p.Scheduled asked jobs shots) (issued : next.issued = p.issued)
    (published : next.published = p.published) (visuals : next.visuals = p.visuals)
    (mailbox : next.mailbox = none ∨ next.mailbox = p.mailbox) :
    next.Scheduled asked jobs shots where
  numbered := issued ▸ scheduled.numbered
  current := by
    rw [published, visuals]
    exact scheduled.current
  orderly := by
    rw [published, issued]
    exact scheduled.orderly
  answer a full := by
    rw [published, issued]
    rcases mailbox with empty | same
    · simp [empty] at full
    · exact scheduled.answer a (same ▸ full)
  genuine picture member := by
    rw [published, issued]
    exact scheduled.genuine picture member

theorem answer_timely (tap : Tap) (timely : tap.Timely asked p.published p.issued) :
    (p.answer tap).Timely asked p.published p.issued := by
  cases taken : tap.picture with
  | none =>
      have same : (p.answer tap).request = p.published := by simp [Prompt.answer, taken]
      refine ⟨same.le, same.le.trans timely.behind, timely.stamped, ?_⟩
      intro picture shot
      simp [Prompt.answer, taken] at shot
  | some picture =>
      have same : (p.answer tap).request = picture.request := by simp [Prompt.answer, taken]
      have genuine := timely.picture picture taken
      refine ⟨same.le.trans genuine.appeared,
        same.le.trans (genuine.known.trans genuine.stamped), timely.stamped, ?_⟩
      intro other shot
      have value := Option.some.inj (taken.symm.trans shot)
      subst value
      exact ⟨same, genuine⟩

theorem Scheduled.perform {job : Job} (scheduled : p.Scheduled asked (job :: jobs) shots)
    (owned : Bool) (done : p.perform? owned job = some next) :
    next.Scheduled asked jobs shots := by
  rcases perform_cases p next owned job done with
    ⟨j, request, visuals, rfl, rfl⟩ | ⟨shown, phase, no_publish, no_offer, rfl⟩ |
      ⟨j, tap, mailbox, rfl, rfl, posted⟩
  · rcases p.publish_eq request visuals with ⟨shown, phase, same⟩
    rcases scheduled.orderly with ⟨before, member, rest⟩
    rw [same]
    refine ⟨scheduled.numbered, ?_, rest, ?_, ?_⟩
    · simpa using member
    · intro a full
      exact (scheduled.answer a full).mono (List.Subset.refl _) before.le (Nat.le_refl _)
    · intro picture taken
      exact (scheduled.genuine picture taken).mono (List.Subset.refl _) before.le (Nat.le_refl _)
  · have rest := scheduled.orderly
    rw [Orderly] at rest
    · exact ⟨scheduled.numbered, scheduled.current, rest, scheduled.answer, scheduled.genuine⟩
    · exact no_publish
    · exact no_offer
  · rcases scheduled.orderly with ⟨timely, rest⟩
    refine ⟨scheduled.numbered, scheduled.current, rest, ?_, scheduled.genuine⟩
    intro a full
    rcases posted with same | new
    · exact scheduled.answer a (same ▸ full)
    · have value := Option.some.inj (new.symm.trans full)
      subst value
      exact answer_timely tap timely

theorem Scheduled.overlay (scheduled : p.Scheduled asked jobs shots) (picture : Picture)
    (taken : p.overlay = some picture) : picture.Genuine asked p.published p.issued := by
  simp only [Prompt.overlay] at taken
  split at taken
  · have value := Option.some.inj taken
    subst value
    exact ⟨Nat.le_refl _, scheduled.current, scheduled.orderly.le, Nat.le_refl _⟩
  · simp at taken

theorem Scheduled.ask (scheduled : p.Scheduled asked jobs shots) (visuals : Visuals) (i : Nat)
    (parked : Option Parked) (later : List Job)
    (queued : later = jobs ∨ later = jobs ++ [.publish i (p.issued + 1) visuals]) :
    { p with issued := p.issued + 1, parked }.Scheduled ((p.issued + 1, visuals) :: asked) later
      shots := by
  have kept : asked ⊆ (p.issued + 1, visuals) :: asked := List.subset_cons_self _ _
  refine ⟨?_, kept scheduled.current, ?_, ?_, ?_⟩
  · rw [List.map_cons, scheduled.numbered, List.range_succ (n := p.issued + 1),
      List.reverse_append]
    rfl
  · rcases queued with rfl | rfl
    · exact scheduled.orderly.mono kept (Nat.le_succ _)
    · refine scheduled.orderly.append kept (Nat.le_succ _) _ ?_
      intro last _ le
      exact ⟨Nat.lt_succ_of_le le, List.mem_cons_self, Nat.le_refl (p.issued + 1)⟩
  · intro a full
    exact (scheduled.answer a full).mono kept (Nat.le_refl _) (Nat.le_succ _)
  · intro picture taken
    exact (scheduled.genuine picture taken).mono kept (Nat.le_refl _) (Nat.le_succ _)

theorem Scheduled.enqueue (scheduled : p.Scheduled asked jobs shots) (job : Job)
    (later : List Job) (queued : later = jobs ∨ later = jobs ++ [job])
    (inOrder : ∀ last, p.published ≤ last → last ≤ p.issued → Orderly asked p.issued last [job]) :
    p.Scheduled asked later shots := by
  refine ⟨scheduled.numbered, scheduled.current, ?_, scheduled.answer, scheduled.genuine⟩
  rcases queued with rfl | rfl
  · exact scheduled.orderly
  · exact scheduled.orderly.append (List.Subset.refl _) (Nat.le_refl _) _ inOrder

end Prompt

namespace Strand

variable {i : Nat} {allowed : Job → Prop} {σ τ : Strand}

structure Scheduled (i : Nat) (σ : Strand) : Prop where
  absent : σ.prompt = none → requests i σ.log = [] ∧ σ.pictures = ∅
  present (p : Prompt) : σ.prompt = some p →
    p.Scheduled (requests i σ.log) (σ.queued p.scope) σ.pictures

theorem scheduled_withdraw (p next : Prompt) (present : σ.prompt = some p) (request : Nat)
    (after : (σ.withdraw i p request).prompt = some next)
    (scheduled : p.Scheduled (requests i σ.log) (σ.queued p.scope) σ.pictures) :
    next.Scheduled (requests i σ.log) ((σ.withdraw i p request).queued next.scope) σ.pictures := by
  have cases := withdraw_cases (i := i) (σ := σ) p request
  rcases cases with ⟨same, -⟩ | ⟨-, same | same | same⟩ <;> rw [same] at after ⊢
  · have value := Option.some.inj (present.symm.trans after)
    subst value
    exact scheduled
  · have value := Option.some.inj after
    subst value
    exact scheduled.keep rfl rfl rfl (.inr rfl)
  · have value := Option.some.inj after
    subst value
    exact scheduled.keep rfl rfl rfl (.inr rfl)
  · have value := Option.some.inj after
    subst value
    have cleared : { p with parked := none }.Scheduled (requests i σ.log) (σ.queued p.scope)
        σ.pictures := scheduled.keep rfl rfl rfl (.inr rfl)
    exact cleared.enqueue _ _ (queued_launch_self _ _ _) fun last _ le => le

theorem Step.scheduled_present (step : Step i allowed σ τ) (p next : Prompt)
    (present : σ.prompt = some p) (after : τ.prompt = some next)
    (scheduled : p.Scheduled (requests i σ.log) (σ.queued p.scope) σ.pictures) :
    next.Scheduled (requests i τ.log) (τ.queued next.scope) τ.pictures := by
  have ended (c : Nat) (name : String) (ending : Ending) :
      requests i (.ended (.caller c) name ending :: σ.log) = requests i σ.log :=
    requests_append i [.ended (.caller c) name ending] σ.log (by simp)
  cases step with
  | opened absent => simp [absent] at present
  | asked q here visuals waiting =>
      have value := Option.some.inj (here.symm.trans present)
      subst value
      have value := Option.some.inj after
      subst value
      simp only [log_launch, requests_issued, pictures_launch]
      exact scheduled.ask visuals i _ _ (queued_launch_self _ _ _)
  | withdrawn q here c caller found own waits ending cause =>
      have value := Option.some.inj (here.symm.trans present)
      subst value
      simp only [log_conclude, log_withdraw, ended, queued_conclude, pictures_conclude,
        pictures_withdraw]
      exact scheduled_withdraw q next present caller.request after scheduled
  | resumed q here c caller =>
      have value := Option.some.inj (present.symm.trans after)
      subst value
      simp only [log_conclude, ended]
      exact scheduled
  | queued q here job may =>
      have value := Option.some.inj (here.symm.trans present)
      subst value
      have value := Option.some.inj (present.symm.trans after)
      subst value
      refine scheduled.enqueue job _ (queued_launch_self _ _ _) ?_
      intro last behind le
      cases may with
      | toggle shown => exact le
      | tap decision picture known =>
          refine ⟨⟨le, Nat.le_refl _, ?_⟩, le⟩
          intro shot taken
          exact (scheduled.genuine shot (known shot taken)).mono (List.Subset.refl _) behind
            (Nat.le_refl _)
  | tended q here hooks handle =>
      have value := Option.some.inj (here.symm.trans present)
      subst value
      have value := Option.some.inj after
      subst value
      exact scheduled.keep rfl rfl rfl (.inr rfl)
  | cancelled root =>
      have value := Option.some.inj (present.symm.trans after)
      subst value
      have silent := requests_append i [.cancelled root] σ.log (by simp)
      rw [List.singleton_append] at silent
      rw [silent]
      refine ⟨scheduled.numbered, scheduled.current, ?_, scheduled.answer, scheduled.genuine⟩
      rcases queued_cancel σ root p.scope (.cancelled root :: σ.log) with none | same
      · rw [none]
        exact scheduled.orderly.le
      · rw [same]
        exact scheduled.orderly
  | branched above known =>
      have value := Option.some.inj (present.symm.trans after)
      subst value
      rw [queued_branch]
      exact scheduled
  | ran _ q here lineage job jobs front permitted made done =>
      have value := Option.some.inj (here.symm.trans present)
      subst value
      have value := Option.some.inj after
      subst value
      obtain ⟨_, stays, home⟩ := Step.prompt_stays (.ran ‹_› q here lineage job jobs front
        permitted made done) q here
      have value := Option.some.inj stays
      subst value
      rw [front_of_scope _ _ _ _ front] at scheduled
      rw [home, queued_pop σ q.scope q.scope jobs _ front, if_pos rfl]
      exact scheduled.perform _ done
  | refused _ q here a full =>
      have value := Option.some.inj (here.symm.trans present)
      subst value
      have value := Option.some.inj after
      subst value
      exact scheduled.keep rfl rfl rfl (.inl rfl)
  | accepted _ q here a full counts =>
      have value := Option.some.inj (here.symm.trans present)
      subst value
      have value := Option.some.inj after
      subst value
      obtain ⟨parked, same, -⟩ :=
        Prompt.unpark_eq { q with mailbox := none, phase := .resolving } a.request
      have silent := requests_append i (((q.hooks.on a.tap.decision).map
        fun _ => Event.hookRan i q.hooks.tag a.tap.decision).toList ++
          [.accepted i a (q.callerOf a.request)]) σ.log (by simp)
      rw [List.append_assoc, List.singleton_append] at silent
      rw [same, silent]
      exact scheduled.keep rfl rfl rfl (.inl rfl)
  | settled q here request =>
      have value := Option.some.inj (here.symm.trans present)
      subst value
      have value := Option.some.inj (present.symm.trans after)
      subst value
      exact scheduled.enqueue _ _ (queued_launch_self _ _ _) fun last _ le => le
  | pictured pictures taken =>
      have value := Option.some.inj (present.symm.trans after)
      subst value
      refine ⟨scheduled.numbered, scheduled.current, scheduled.orderly, scheduled.answer, ?_⟩
      intro picture member
      rcases taken picture member with old | ⟨q, here, shown⟩
      · exact scheduled.genuine picture old
      · have value := Option.some.inj (here.symm.trans present)
        subst value
        exact scheduled.overlay picture shown
  | elsewhere callers events kept grown foreign =>
      have value := Option.some.inj (present.symm.trans after)
      subst value
      rw [requests_foreign i events σ.log foreign]
      exact scheduled

theorem scheduled_restore (scope : Nat) (s : Snapshot) (hooks : Hooks Call) :
    (Prompt.restore scope s hooks).Scheduled [(0, s.visuals)] [] ∅ where
  numbered := rfl
  current := List.mem_singleton.mpr rfl
  orderly := Nat.le_refl 0
  answer a full := by simp [Prompt.restore] at full
  genuine picture member := member.elim

theorem Step.scheduled (step : Step i allowed σ τ) (moored : Moored i σ)
    (scheduled : Scheduled i σ) : Scheduled i τ where
  absent gone := by
    have before : σ.prompt = none := by
      cases present : σ.prompt with
      | none => rfl
      | some p =>
          rcases step.prompt_stays p present with ⟨next, after, -⟩
          simp [after] at gone
    rcases scheduled.absent before with ⟨unasked, unseen⟩
    cases step with
    | cancelled root =>
        exact ⟨(requests_append i [.cancelled root] σ.log (by simp)).trans unasked, unseen⟩
    | branched => exact ⟨unasked, unseen⟩
    | pictured pictures taken =>
        refine ⟨unasked, Set.eq_empty_iff_forall_notMem.mpr ?_⟩
        intro picture member
        rcases taken picture member with old | ⟨q, here, -⟩
        · simp [unseen] at old
        · simp [before] at here
    | elsewhere callers events kept grown foreign =>
        exact ⟨(requests_foreign i events σ.log foreign).trans unasked, unseen⟩
    | _ => simp_all
  present next after := by
    cases present : σ.prompt with
    | some p => exact step.scheduled_present p next present after (scheduled.present p present)
    | none =>
        rcases scheduled.absent present with ⟨unasked, unseen⟩
        cases step with
        | opened absent scope s hooks =>
            have value := Option.some.inj after
            subst value
            have empty : σ.queued scope = [] := by
              rw [List.eq_nil_iff_forall_not_mem]
              intro job member
              rcases moored.jobs scope job member with ⟨-, p, here, -⟩
              simp [present] at here
            simp only [requests_issued, unasked, unseen]
            have opened := scheduled_restore scope s hooks
            rw [← empty] at opened
            exact opened
        | _ => simp_all

theorem Reachable.scheduled (reachable : Reachable i σ) : Scheduled i σ := by
  induction reachable with
  | refl => exact ⟨fun _ => ⟨rfl, rfl⟩, fun p present => by simp [blank] at present⟩
  | tail before step ih => exact step.scheduled (Reachable.moored before) ih

end Strand

end ModalHost
