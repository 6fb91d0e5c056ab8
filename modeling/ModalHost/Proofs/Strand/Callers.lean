import ModalHost.Proofs.Strand.Coherence

/-! The callers of a prompt: which of them is parked, and what the others have been told. -/

namespace ModalHost

/-- What must have happened `earlier` for a caller to end as it did: it waited for `request` on a
prompt whose scope has this lineage. -/
def Caused (i c request : Nat) (lineage : List Nat) (earlier : List Event) : Ending → Prop
  | .decided decision => ∃ a, .accepted i a (some c) ∈ earlier ∧ a.request = request ∧
      a.tap.decision = decision
  | .superseded => ∃ newer visuals before, .issued i newer visuals :: before <:+ earlier ∧
      request < newer ∧ ∀ a resumed, .accepted i a resumed ∈ before → a.request ≠ request
  | .cancelled => ∃ root ∈ lineage, .cancelled root ∈ earlier
  | .abandoned => True
  | _ => False

theorem Caused.mono {i c request : Nat} {lineage wider : List Nat} {earlier later : List Event}
    {ending : Ending} (caused : Caused i c request lineage earlier ending)
    (grown : earlier <:+ later) (widened : lineage ⊆ wider) :
    Caused i c request wider later ending := by
  cases ending with
  | decided decision =>
      rcases caused with ⟨a, member, same, given⟩
      exact ⟨a, grown.subset member, same, given⟩
  | superseded =>
      rcases caused with ⟨newer, visuals, before, split, less, unanswered⟩
      exact ⟨newer, visuals, before, split.trans grown, less, unanswered⟩
  | cancelled =>
      rcases caused with ⟨root, above, member⟩
      exact ⟨root, widened above, grown.subset member⟩
  | abandoned => trivial
  | finished | panicked | flushed | scopeCancelled | joined | storeGone => exact caused

structure Attended (i : Nat) (p : Prompt) (callers : List Caller) (log : List Event) : Prop where
  newest (q : Parked) : p.parked = some q → q.request = p.issued
  parked (q : Parked) : p.parked = some q → ∃ caller, callers[q.caller]? = some caller ∧
    caller.prompt = i ∧ caller.request = q.request ∧ caller.reply = none ∧ caller.ended = false
  unanswered (q : Parked) : p.parked = some q →
    ∀ a resumed, .accepted i a resumed ∈ log → a.request ≠ q.request
  waiting (c : Nat) (caller : Caller) : callers[c]? = some caller → caller.prompt = i →
    caller.ended = false → caller.reply = none → p.parked = some ⟨caller.request, c⟩
  told (c : Nat) (caller : Caller) (reply : Reply) : callers[c]? = some caller →
    caller.prompt = i → caller.reply = some reply →
    Caused i c caller.request [] log reply.ending
  asked (c : Nat) (caller : Caller) : callers[c]? = some caller → caller.prompt = i →
    caller.request ≤ p.issued
  answered (a : Answer) (resumed : Option Nat) : .accepted i a resumed ∈ log →
    a.request ≤ p.issued
  distinct (c d : Nat) (caller other : Caller) : callers[c]? = some caller → caller.prompt = i →
    callers[d]? = some other → other.prompt = i → caller.request = other.request → c = d

section

variable {i : Nat} {p next : Prompt} {callers more : List Caller} {log later : List Event}

theorem Attended.keep (attended : Attended i p callers log) (slot : next.parked = p.parked)
    (issued : next.issued = p.issued)
    (kept : ∀ (c : Nat) (caller : Caller), caller.prompt = i →
      (more[c]? = some caller ↔ callers[c]? = some caller))
    (grown : log <:+ later)
    (silent : ∀ a resumed, .accepted i a resumed ∈ later → .accepted i a resumed ∈ log) :
    Attended i next more later where
  newest q held := by
    rw [issued]
    exact attended.newest q (slot ▸ held)
  parked q held := by
    rcases attended.parked q (slot ▸ held) with ⟨caller, found, own, rest⟩
    exact ⟨caller, (kept _ _ own).mpr found, own, rest⟩
  unanswered q held a resumed member :=
    attended.unanswered q (slot ▸ held) a resumed (silent a resumed member)
  waiting c caller found own waits unaware := by
    rw [slot]
    exact attended.waiting c caller ((kept c caller own).mp found) own waits unaware
  told c caller reply found own aware :=
    (attended.told c caller reply ((kept c caller own).mp found) own aware).mono grown
      (List.Subset.refl _)
  asked c caller found own := by
    rw [issued]
    exact attended.asked c caller ((kept c caller own).mp found) own
  answered a resumed member := by
    rw [issued]
    exact attended.answered a resumed (silent a resumed member)
  distinct c d caller other found own there his :=
    attended.distinct c d caller other ((kept c caller own).mp found) own
      ((kept d other his).mp there) his

theorem Attended.conclude (attended : Attended i p callers log) (c : Nat) (caller : Caller)
    (found : callers[c]? = some caller) (issued : next.issued = p.issued)
    (slot : next.parked = p.parked ∧ p.parked ≠ some ⟨caller.request, c⟩ ∨
      next.parked = none ∧ p.parked = some ⟨caller.request, c⟩) (name : String) (ending : Ending) :
    Attended i next (callers.modify c fun caller => { caller with ended := true })
      (.ended (.caller c) name ending :: log) := by
  have held (q : Parked) (parked : next.parked = some q) : p.parked = some q ∧ q.caller ≠ c := by
    rcases slot with ⟨stays, other⟩ | ⟨cleared, -⟩
    · have before : p.parked = some q := stays ▸ parked
      refine ⟨before, ?_⟩
      intro same
      rcases attended.parked q before with ⟨mine, there, -, request, -⟩
      have both : mine = caller := Option.some.inj (there.symm.trans (same ▸ found))
      apply other
      rw [before, ← both, request, ← same]
    · simp [cleared] at parked
  have silent (a : Answer) (resumed : Option Nat)
      (member : .accepted i a resumed ∈ Event.ended (.caller c) name ending :: log) :
      .accepted i a resumed ∈ log := by
    simpa using member
  constructor
  case newest =>
    intro q parked
    rw [issued]
    exact attended.newest q (held q parked).1
  case parked =>
    intro q parked
    have before := held q parked
    rcases attended.parked q before.1 with ⟨mine, there, rest⟩
    refine ⟨mine, ?_, rest⟩
    rw [List.getElem?_modify_ne _ _ (Ne.symm before.2)]
    exact there
  case unanswered =>
    intro q parked a resumed member
    exact attended.unanswered q (held q parked).1 a resumed (silent a resumed member)
  case waiting =>
    intro d now there mine waits unaware
    rcases conclude_origin callers c d now there with
      ⟨former, before, prompt, request, reply, ended⟩
    have waited : former.ended = false ∧ d ≠ c := by simpa [waits] using ended
    have parked := attended.waiting d former before (prompt.trans mine) waited.1
      (reply.trans unaware)
    rcases slot with ⟨stays, -⟩ | ⟨-, parked_c⟩
    · rw [stays, parked, request]
    · have same : (⟨former.request, d⟩ : Parked) = ⟨caller.request, c⟩ :=
        Option.some.inj (parked.symm.trans parked_c)
      exact absurd (congrArg Parked.caller same) waited.2
  case told =>
    intro d now reply there mine aware
    rcases conclude_origin callers c d now there with ⟨former, before, prompt, request, same, -⟩
    rw [← request]
    exact (attended.told d former reply before (prompt.trans mine) (same.trans aware)).mono
      (List.suffix_cons _ _) (List.Subset.refl _)
  case asked =>
    intro d now there mine
    rcases conclude_origin callers c d now there with ⟨former, before, prompt, request, -⟩
    rw [← request, issued]
    exact attended.asked d former before (prompt.trans mine)
  case answered =>
    intro a resumed member
    rw [issued]
    exact attended.answered a resumed (silent a resumed member)
  case distinct =>
    intro d e now other there mine here his same
    rcases conclude_origin callers c d now there with ⟨former, before, prompt, request, -⟩
    rcases conclude_origin callers c e other here with ⟨second, early, theirs, wanted, -⟩
    exact attended.distinct d e former second before (prompt.trans mine) early
      (theirs.trans his) (request.trans (same.trans wanted.symm))

theorem Attended.fresh (attended : Attended i p callers log) :
    p.parked.map (·.caller) ≠ some callers.length := by
  intro told
  rcases Option.map_eq_some_iff.mp told with ⟨q, parked, at_end⟩
  rcases attended.parked q parked with ⟨caller, found, -⟩
  have inside := (List.getElem?_eq_some_iff.mp found).1
  omega

/-- A caller after a request was handed out is the one that waits for it, or was there before. Only
the one that was parked has been told of the request. -/
theorem Attended.ask_origin (attended : Attended i p callers log) (waiting : Option String)
    (c : Nat) (now : Caller) (own : now.prompt = i)
    (there : (tell (waiting.elim callers fun name => callers ++ [.new name i (p.issued + 1)])
      (p.parked.map (·.caller)) .superseded)[c]? = some now) :
    (c = callers.length ∧ now.request = p.issued + 1 ∧ now.reply = none ∧
        waiting.isSome = true) ∨
      ∃ former, callers[c]? = some former ∧ former.prompt = i ∧ former.request = now.request ∧
        former.ended = now.ended ∧ (p.parked.map (·.caller) = some c ∧
          now.reply = some .superseded ∨
            p.parked.map (·.caller) ≠ some c ∧ now.reply = former.reply) := by
  rcases asked_origin _ _ _ _ _ _ _ _ there with
    ⟨former, before, prompt, rest⟩ | ⟨rfl, waited, request, -, reply⟩
  · exact .inr ⟨former, before, prompt.trans own, rest⟩
  · exact .inl ⟨rfl, request, reply attended.fresh, waited⟩

theorem Attended.ask (attended : Attended i p callers log) (waiting : Option String)
    (visuals : Visuals) :
    Attended i
      { p with
        issued := p.issued + 1
        parked := waiting.map fun _ => ⟨p.issued + 1, callers.length⟩ }
      (tell (waiting.elim callers fun name => callers ++ [.new name i (p.issued + 1)])
        (p.parked.map (·.caller)) .superseded)
      (.issued i (p.issued + 1) visuals :: log) := by
  have silent (a : Answer) (resumed : Option Nat)
      (member : .accepted i a resumed ∈ Event.issued i (p.issued + 1) visuals :: log) :
      .accepted i a resumed ∈ log := by
    simpa using member
  constructor
  case newest =>
    intro q held
    rcases Option.map_eq_some_iff.mp held with ⟨name, -, rfl⟩
    rfl
  case parked =>
    intro q held
    rcases Option.map_eq_some_iff.mp held with ⟨name, rfl, rfl⟩
    refine ⟨.new name i (p.issued + 1), ?_, rfl, rfl, rfl, rfl⟩
    rw [getElem?_tell, Option.elim_some, List.getElem?_concat_length, Option.map_some,
      if_neg attended.fresh]
  case unanswered =>
    intro q held a resumed member
    rcases Option.map_eq_some_iff.mp held with ⟨name, -, rfl⟩
    have bound := attended.answered a resumed (silent a resumed member)
    intro same
    have equal : a.request = p.issued + 1 := same
    omega
  case waiting =>
    intro c now there own waits unaware
    rcases attended.ask_origin waiting c now own there with
      ⟨rfl, request, -, waited⟩ | ⟨former, before, prompt, request, ended, told | ⟨other, reply⟩⟩
    · rcases Option.isSome_iff_exists.mp waited with ⟨name, rfl⟩
      rw [request]
      rfl
    · simp [told.2] at unaware
    · have parked := attended.waiting c former before prompt (ended.trans waits)
        (reply.symm.trans unaware)
      simp [parked] at other
  case told =>
    intro c now reply there own aware
    rcases attended.ask_origin waiting c now own there with
      ⟨-, -, unaware, -⟩ | ⟨former, before, prompt, request, -, ⟨told, superseded⟩ | ⟨-, same⟩⟩
    · simp [unaware] at aware
    · have given : reply = .superseded := Option.some.inj (aware.symm.trans superseded)
      rcases Option.map_eq_some_iff.mp told with ⟨q, parked, rfl⟩
      rcases attended.parked q parked with ⟨caller, found, -, wanted, -⟩
      have same : caller = former := Option.some.inj (found.symm.trans before)
      have older := attended.asked _ former before prompt
      rw [given]
      refine ⟨p.issued + 1, visuals, log, List.suffix_refl _, by omega, ?_⟩
      intro a resumed member
      rw [← request, ← same, wanted]
      exact attended.unanswered q parked a resumed member
    · rw [← request]
      exact (attended.told c former reply before prompt (same.symm.trans aware)).mono
        (List.suffix_cons _ _) (List.Subset.refl _)
  case asked =>
    intro c now there own
    rcases attended.ask_origin waiting c now own there with
      ⟨-, request, -⟩ | ⟨former, before, prompt, request, -⟩
    · exact request.le
    · have bound := attended.asked c former before prompt
      have room : p.issued ≤ p.issued + 1 := Nat.le_succ _
      rw [← request]
      exact bound.trans room
  case answered =>
    intro a resumed member
    exact (attended.answered a resumed (silent a resumed member)).trans (Nat.le_succ _)
  case distinct =>
    intro c d now other there own here his same
    rcases attended.ask_origin waiting c now own there with
      ⟨at_end, new, -⟩ | ⟨former, before, prompt, old, -⟩
    · rcases attended.ask_origin waiting d other his here with
        ⟨last, -⟩ | ⟨second, early, theirs, request, -⟩
      · omega
      · have bound := attended.asked d second early theirs
        omega
    · rcases attended.ask_origin waiting d other his here with
        ⟨-, new, -⟩ | ⟨second, early, theirs, request, -⟩
      · have bound := attended.asked c former before prompt
        omega
      · exact attended.distinct c d former second before prompt early theirs
          (old.trans (same.trans request.symm))

theorem Attended.accept (attended : Attended i p callers log) (a : Answer)
    (newest : a.request = p.issued) (events : List Event)
    (hooks : ∀ e ∈ events, ∃ tag decision, e = .hookRan i tag decision)
    (issued : next.issued = p.issued) (cleared : next.parked = none) :
    Attended i next (tell callers (p.callerOf a.request) (.decided a.tap.decision))
      (events ++ .accepted i a (p.callerOf a.request) :: log) := by
  have grown : log <:+ events ++ .accepted i a (p.callerOf a.request) :: log :=
    (List.suffix_cons _ _).trans (List.suffix_append _ _)
  have old (b : Answer) (resumed : Option Nat) (member : .accepted i b resumed ∈
      events ++ .accepted i a (p.callerOf a.request) :: log) :
      b = a ∨ .accepted i b resumed ∈ log := by
    rcases List.mem_append.mp member with hook | rest
    · rcases hooks _ hook with ⟨tag, decision, same⟩
      simp at same
    · rcases List.mem_cons.mp rest with same | before
      · exact .inl (Event.accepted.inj same).2.1
      · exact .inr before
  constructor
  case newest | parked | unanswered =>
    intro q held
    simp [cleared] at held
  case waiting =>
    intro c now there own waits unaware
    rcases tell_origin _ _ _ _ _ there with
      ⟨former, before, prompt, request, ended, ⟨-, aware⟩ | ⟨other, same⟩⟩
    · simp [aware] at unaware
    · have parked := attended.waiting c former before (prompt.trans own) (ended.trans waits)
        (same.symm.trans unaware)
      have mine : former.request = a.request := (attended.newest _ parked).trans newest.symm
      have resumed : p.callerOf a.request = some c := by
        rw [Prompt.callerOf_eq_some, ← mine]
        exact parked
      exact absurd resumed other
  case told =>
    intro c now reply there own aware
    rcases tell_origin _ _ _ _ _ there with
      ⟨former, before, prompt, request, ended, ⟨told, decided⟩ | ⟨-, same⟩⟩
    · have given : reply = .decided a.tap.decision := Option.some.inj (aware.symm.trans decided)
      have parked := (p.callerOf_eq_some a.request c).mp told
      rcases attended.parked _ parked with ⟨caller, found, -, wanted, -⟩
      have both : caller = former := Option.some.inj (found.symm.trans before)
      rw [given, told, ← request, ← both, wanted]
      exact ⟨a, by simp, rfl, rfl⟩
    · rw [← request]
      exact (attended.told c former reply before (prompt.trans own) (same.symm.trans aware)).mono
        grown (List.Subset.refl _)
  case asked =>
    intro c now there own
    rcases tell_origin _ _ _ _ _ there with ⟨former, before, prompt, request, -⟩
    rw [← request, issued]
    exact attended.asked c former before (prompt.trans own)
  case answered =>
    intro b resumed member
    rw [issued]
    rcases old b resumed member with rfl | before
    · exact newest.le
    · exact attended.answered b resumed before
  case distinct =>
    intro c d now other there own here his same
    rcases tell_origin _ _ _ _ _ there with ⟨former, before, prompt, request, -⟩
    rcases tell_origin _ _ _ _ _ here with ⟨second, early, theirs, wanted, -⟩
    exact attended.distinct c d former second before (prompt.trans own) early
      (theirs.trans his) (request.trans (same.trans wanted.symm))

end

namespace Strand

variable {i : Nat} {allowed : Job → Prop} {σ τ : Strand}

/-- Before a prompt is opened no answer to it is accepted; from then on its callers are looked
after. -/
structure Attended (i : Nat) (σ : Strand) : Prop where
  absent : σ.prompt = none → ∀ a resumed, .accepted i a resumed ∉ σ.log
  present (p : Prompt) : σ.prompt = some p → ModalHost.Attended i p σ.callers σ.log

/-- Whether clearing a slot takes a caller out of it that still waits. -/
theorem slot_withdraw (p next : Prompt) (present : σ.prompt = some p) (c : Nat) (caller : Caller)
    (attended : ModalHost.Attended i p σ.callers σ.log) (found : σ.callers[c]? = some caller)
    (own : caller.prompt = i) (after : (σ.withdraw i p caller.request).prompt = some next) :
    next.issued = p.issued ∧
      (next.parked = p.parked ∧ p.parked ≠ some ⟨caller.request, c⟩ ∨
        next.parked = none ∧ p.parked = some ⟨caller.request, c⟩) := by
  have cases := withdraw_cases (i := i) (σ := σ) p caller.request
  rcases cases with ⟨same, other⟩ | ⟨⟨q, held, request⟩, changed⟩
  · rw [same] at after
    have stays : p = next := Option.some.inj (present.symm.trans after)
    subst stays
    refine ⟨rfl, .inl ⟨rfl, ?_⟩⟩
    intro parked
    simp [parked] at other
  · have mine : q = ⟨caller.request, c⟩ := by
      rcases attended.parked q held with ⟨former, there, his, wanted, -⟩
      have same := attended.distinct q.caller c former caller there his found own
        (wanted.trans request)
      cases q
      simp_all
    have cleared : next.parked = none ∧ next.issued = p.issued := by
      rcases changed with same | same | same <;> rw [same] at after <;>
        exact Option.some.inj after ▸ ⟨rfl, rfl⟩
    exact ⟨cleared.2, .inr ⟨cleared.1, mine ▸ held⟩⟩

theorem unpark_newest (p : Prompt) (request : Nat)
    (newest : ∀ q, p.parked = some q → q.request = request) : (p.unpark request).parked = none := by
  unfold Prompt.unpark
  cases held : p.parked with
  | none => simp [Prompt.callerOf, held]
  | some q => simp [Prompt.callerOf, held, newest q held]

theorem Step.attended_present (step : Step i allowed σ τ) (p next : Prompt)
    (present : σ.prompt = some p) (after : τ.prompt = some next)
    (attended : ModalHost.Attended i p σ.callers σ.log) :
    ModalHost.Attended i next τ.callers τ.log := by
  have kept (later : List Event) (grown : σ.log <:+ later)
      (silent : ∀ a resumed, .accepted i a resumed ∈ later → .accepted i a resumed ∈ σ.log)
      (now : Prompt) (slot : now.parked = p.parked) (issued : now.issued = p.issued) :
      ModalHost.Attended i now σ.callers later :=
    attended.keep slot issued (fun _ _ _ => Iff.rfl) grown silent
  have same (now : Prompt) (slot : now.parked = p.parked) (issued : now.issued = p.issued) :
      ModalHost.Attended i now σ.callers σ.log :=
    kept σ.log (List.suffix_refl _) (fun _ _ member => member) now slot issued
  cases step with
  | opened absent => simp [absent] at present
  | asked q here visuals waiting =>
      have mine : q = p := Option.some.inj (here.symm.trans present)
      subst mine
      rw [← Option.some.inj after]
      exact attended.ask waiting visuals
  | withdrawn q here c caller found own waits ending =>
      have mine : q = p := Option.some.inj (here.symm.trans present)
      subst mine
      have slot := slot_withdraw q next present c caller attended found own after
      have concluded := attended.conclude c caller found slot.1 slot.2 caller.name ending
      simp only [conclude, callers_withdraw, log_withdraw]
      exact concluded
  | resumed q here c caller found own waits reply told =>
      have mine : next = p := Option.some.inj (after.symm.trans present)
      subst mine
      refine attended.conclude c caller found rfl (.inl ⟨rfl, ?_⟩) caller.name reply.ending
      intro parked
      rcases attended.parked _ parked with ⟨former, there, -, -, unaware, -⟩
      have both : former = caller := Option.some.inj (there.symm.trans found)
      rw [both, told] at unaware
      simp at unaware
  | tended q here =>
      have mine : q = p := Option.some.inj (here.symm.trans present)
      subst mine
      rw [← Option.some.inj after]
      exact same _ rfl rfl
  | cancelled root =>
      have mine : next = p := Option.some.inj (after.symm.trans present)
      subst mine
      exact kept _ (List.suffix_cons _ _) (by simp) next rfl rfl
  | ran _ q here lineage job jobs front permitted made done =>
      have mine : q = p := Option.some.inj (here.symm.trans present)
      subst mine
      rw [← Option.some.inj after]
      have slot := (Prompt.perform_frame _ _ _ _ done).2
      exact same made slot.1 slot.2
  | refused _ q here =>
      have mine : q = p := Option.some.inj (here.symm.trans present)
      subst mine
      rw [← Option.some.inj after]
      exact same _ rfl rfl
  | accepted _ q here a full counts =>
      have mine : q = p := Option.some.inj (here.symm.trans present)
      subst mine
      rw [← Option.some.inj after]
      have newest : a.request = q.issued := ((q.accepts_iff a).mp counts).1
      have cleared := unpark_newest { q with mailbox := none, phase := .resolving } a.request
        fun parked held => (attended.newest parked held).trans newest.symm
      rcases Prompt.unpark_eq { q with mailbox := none, phase := .resolving } a.request with
        ⟨parked, stays, -⟩
      refine attended.accept a newest _ ?_ ?_ cleared
      · intro e member
        rcases Option.map_eq_some_iff.mp (Option.mem_toList.mp member) with ⟨calls, -, ran⟩
        exact ⟨_, _, ran.symm⟩
      · rw [stays]
  | elsewhere callers events others grown foreign =>
      have mine : next = p := Option.some.inj (after.symm.trans present)
      subst mine
      refine attended.keep rfl rfl others (List.suffix_append _ _) ?_
      intro a resumed member
      rcases List.mem_append.mp member with new | old
      · rcases foreign _ new with ⟨_, _, _, _, _, _, ended⟩
        simp at ended
      · exact old
  | queued | branched | settled | pictured =>
      have mine : next = p := Option.some.inj (after.symm.trans present)
      subst mine
      exact attended

theorem attended_restore (moored : Moored i σ) (attended : Attended i σ) (gone : σ.prompt = none)
    (scope : Nat) (s : Snapshot) (hooks : Hooks Call) :
    ModalHost.Attended i (.restore scope s hooks) σ.callers (.issued i 0 s.visuals :: σ.log) := by
  have nobody (c : Nat) (caller : Caller) (found : σ.callers[c]? = some caller)
      (own : caller.prompt = i) : False := by
    rcases moored.callers c caller found own with ⟨p, present⟩
    simp [gone] at present
  have silent (a : Answer) (resumed : Option Nat)
      (member : .accepted i a resumed ∈ Event.issued i 0 s.visuals :: σ.log) : False := by
    have old : .accepted i a resumed ∈ σ.log := by simpa using member
    exact attended.absent gone a resumed old
  exact ⟨nofun, nofun, nofun, fun c caller found own => (nobody c caller found own).elim,
    fun c caller _ found own => (nobody c caller found own).elim,
    fun c caller found own => (nobody c caller found own).elim,
    fun a resumed member => (silent a resumed member).elim,
    fun c _ caller _ found own => (nobody c caller found own).elim⟩

theorem Step.attended (step : Step i allowed σ τ) (moored : Moored i σ)
    (attended : Attended i σ) : Attended i τ where
  absent gone := by
    have before : σ.prompt = none := by
      cases present : σ.prompt with
      | none => rfl
      | some p =>
          rcases step.prompt_stays p present with ⟨next, after, -⟩
          simp [after] at gone
    have silent := attended.absent before
    intro a resumed member
    cases step with
    | cancelled root => exact silent a resumed (by simpa using member)
    | branched => exact silent a resumed member
    | pictured => exact silent a resumed member
    | elsewhere callers events others grown foreign =>
        rcases List.mem_append.mp member with new | old
        · rcases foreign _ new with ⟨_, _, _, _, _, _, ended⟩
          simp at ended
        · exact silent a resumed old
    | _ => simp_all
  present next after := by
    cases present : σ.prompt with
    | some p => exact step.attended_present p next present after (attended.present p present)
    | none =>
        cases step with
        | opened absent scope s hooks =>
            rw [← Option.some.inj after]
            exact attended_restore moored attended present scope s hooks
        | _ => simp_all

theorem Reachable.attended (reachable : Reachable i σ) : Attended i σ := by
  induction reachable with
  | refl => exact ⟨fun _ _ _ => List.not_mem_nil, fun p present => by simp [blank] at present⟩
  | tail before step ih => exact step.attended (Reachable.moored before) ih

theorem Step.reply_stays (step : Step i allowed σ τ) (attended : Attended i σ) (c : Nat)
    (caller : Caller) (reply : Reply) (found : σ.callers[c]? = some caller)
    (own : caller.prompt = i) (aware : caller.reply = some reply) :
    ∃ next, τ.callers[c]? = some next ∧ next.prompt = i ∧ next.reply = some reply := by
  have unparked (p : Prompt) (present : σ.prompt = some p) : p.parked.map (·.caller) ≠ some c := by
    intro told
    obtain ⟨q, parked, rfl⟩ := Option.map_eq_some_iff.mp told
    obtain ⟨former, there, -, -, unaware, -⟩ := (attended.present p present).parked q parked
    obtain rfl : former = caller := Option.some.inj (there.symm.trans found)
    cases unaware.symm.trans aware
  have concluded (d : Nat) (name : String) (ending : Ending) :
      ∃ next, (σ.conclude d name ending).callers[c]? = some next ∧ next.prompt = i ∧
        next.reply = some reply := by
    rw [getElem?_conclude, found]
    refine ⟨_, rfl, ?_⟩
    dsimp only
    split
    · exact ⟨own, aware⟩
    · exact ⟨own, aware⟩
  cases step with
  | asked p here visuals waiting =>
      have known : (waiting.elim σ.callers fun name =>
          σ.callers ++ [Caller.new name i (p.issued + 1)])[c]? = some caller := by
        cases waiting with
        | none => exact found
        | some name =>
            rw [Option.elim_some,
              List.getElem?_append_left (List.getElem?_eq_some_iff.mp found).1, found]
      simp only [launch, getElem?_tell, known, if_neg (unparked p here)]
      exact ⟨caller, rfl, own, aware⟩
  | withdrawn p here d ended _ _ _ ending =>
      have same : ((σ.withdraw i p ended.request).conclude d ended.name ending).callers =
          (σ.conclude d ended.name ending).callers := by
        simp only [conclude, callers_withdraw]
      rw [same]
      exact concluded _ _ _
  | resumed => exact concluded _ _ _
  | accepted idle p here a =>
      have other : p.callerOf a.request ≠ some c := by
        intro told
        apply unparked p here
        rw [(p.callerOf_eq_some a.request c).mp told]
        rfl
      rw [getElem?_tell, found, Option.map_some, if_neg other]
      exact ⟨caller, rfl, own, aware⟩
  | elsewhere callers events kept => exact ⟨caller, (kept c caller own).mpr found, own, aware⟩
  | _ => exact ⟨caller, found, own, aware⟩

theorem Path.reply_stays (path : Path i allowed σ τ) (reachable : Reachable i σ) (c : Nat)
    (caller : Caller) (reply : Reply) (found : σ.callers[c]? = some caller)
    (own : caller.prompt = i) (aware : caller.reply = some reply) :
    ∃ next, τ.callers[c]? = some next ∧ next.prompt = i ∧ next.reply = some reply := by
  induction path with
  | refl => exact ⟨caller, found, own, aware⟩
  | tail path step ih =>
      obtain ⟨between, there, mine, told⟩ := ih
      exact step.reply_stays (Path.reachable path reachable).attended c between reply there mine told

end Strand

end ModalHost
