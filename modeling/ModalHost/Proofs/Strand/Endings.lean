import ModalHost.Proofs.Strand.Callers
import ModalHost.Proofs.Strand.Record

/-! How the callers of a prompt end: each at most once, and for a reason that the log shows. -/

namespace ModalHost

theorem Scope.lineage_push (s : Scope) (job : Job) : (s.push job).lineage = s.lineage := by
  unfold push
  split <;> rfl

theorem Scope.cancelled_push (s : Scope) (job : Job) : (s.push job).cancelled = s.cancelled := by
  unfold push
  split <;> rfl

namespace Strand

variable {i : Nat} {allowed : Job → Prop} {σ τ : Strand}

def lineage (σ : Strand) (scope : Nat) : List Nat :=
  (σ.scopes[scope]?.map (·.lineage)).getD []

theorem Step.lineage_stays (step : Step i allowed σ τ) (scope : Nat) (s : Scope)
    (found : σ.scopes[scope]? = some s) :
    ∃ next, τ.scopes[scope]? = some next ∧ next.lineage = s.lineage := by
  have launched (υ : Strand) (same : υ.scopes = σ.scopes) (home : Nat) (job : Job) :
      ∃ next, (υ.launch home job).scopes[scope]? = some next ∧ next.lineage = s.lineage := by
    simp only [launch, List.getElem?_modify, same, found]
    refine ⟨_, rfl, ?_⟩
    dsimp only
    by_cases here : home = scope
    · rw [if_pos here]
      exact Scope.lineage_push s job
    · rw [if_neg here]
  cases step with
  | asked p present => exact launched _ rfl _ _
  | withdrawn p present c caller =>
      have cases := withdraw_cases (i := i) (σ := σ) p caller.request
      rcases cases with ⟨same, -⟩ | ⟨-, same | same | same⟩ <;> simp only [conclude, same]
      · exact ⟨s, found, rfl⟩
      · exact ⟨s, found, rfl⟩
      · exact ⟨s, found, rfl⟩
      · exact launched _ rfl _ _
  | queued p present job => exact launched _ rfl _ _
  | cancelled root =>
      refine ⟨s.cancelBy root, by simp [found], ?_⟩
      unfold Scope.cancelBy
      split <;> rfl
  | branched above known =>
      refine ⟨s, ?_, rfl⟩
      rw [List.getElem?_append_left (List.getElem?_eq_some_iff.mp found).1]
      exact found
  | ran =>
      simp only [List.getElem?_modify, found]
      refine ⟨_, rfl, ?_⟩
      split <;> rfl
  | settled p present request => exact launched _ rfl _ _
  | _ => exact ⟨s, found, rfl⟩

theorem Step.lineage_subset (step : Step i allowed σ τ) (scope : Nat) :
    σ.lineage scope ⊆ τ.lineage scope := by
  intro root above
  cases found : σ.scopes[scope]? with
  | none => simp [lineage, found] at above
  | some s =>
      rcases step.lineage_stays scope s found with ⟨next, there, same⟩
      simp only [lineage, found, there, Option.map_some, Option.getD_some] at above ⊢
      rw [same]
      exact above

def Doomed (σ : Strand) : Prop :=
  ∀ s ∈ σ.scopes, s.cancelled = true → ∃ root ∈ s.lineage, .cancelled root ∈ σ.log

theorem Step.doomed (step : Step i allowed σ τ) (doomed : Doomed σ) : Doomed τ := by
  have kept (s former : Scope) (member : former ∈ σ.scopes) (lineage : s.lineage = former.lineage)
      (dead : s.cancelled = true → former.cancelled = true) (cancelled : s.cancelled = true) :
      ∃ root ∈ s.lineage, .cancelled root ∈ τ.log := by
    rcases doomed former member (dead cancelled) with ⟨root, above, happened⟩
    exact ⟨root, lineage ▸ above, step.log_grows.subset happened⟩
  have modified (f : Scope → Scope) (k : Nat) (lineage : ∀ s, (f s).lineage = s.lineage)
      (dead : ∀ s, (f s).cancelled = s.cancelled) (s : Scope) (member : s ∈ σ.scopes.modify k f)
      (cancelled : s.cancelled = true) : ∃ root ∈ s.lineage, .cancelled root ∈ τ.log := by
    rcases List.mem_iff_getElem?.mp member with ⟨n, there⟩
    rw [List.getElem?_modify, Option.map_eq_map, Option.map_eq_some_iff] at there
    rcases there with ⟨former, before, rfl⟩
    refine kept _ former (List.mem_of_getElem? before) ?_ ?_ cancelled
    · split
      · exact lineage former
      · rfl
    · split
      · exact fun alive => (dead former).symm.trans alive
      · exact id
  have launched (home : Nat) (job : Job) := modified (·.push job) home
    (fun s => s.lineage_push job) (fun s => s.cancelled_push job)
  intro s member cancelled
  cases step with
  | asked p present => exact launched _ _ s member cancelled
  | withdrawn p present c caller =>
      have cases := withdraw_cases (i := i) (σ := σ) p caller.request
      rcases cases with ⟨same, -⟩ | ⟨-, same | same | same⟩ <;> simp only [conclude, same] at member
      · exact kept s s member rfl id cancelled
      · exact kept s s member rfl id cancelled
      · exact kept s s member rfl id cancelled
      · exact launched _ _ s member cancelled
  | queued p present job => exact launched _ _ s member cancelled
  | cancelled root =>
      rcases List.mem_map.mp member with ⟨former, before, rfl⟩
      by_cases below : former.lineage.contains root = true
      · simp only [Scope.cancelBy, if_pos below]
        exact ⟨root, List.contains_iff_mem.mp below, List.mem_cons_self⟩
      · simp only [Scope.cancelBy, if_neg below] at cancelled ⊢
        exact kept former former before rfl id cancelled
  | branched above known =>
      rcases List.mem_append.mp member with before | new
      · exact kept s s before rfl id cancelled
      · rw [List.mem_singleton.mp new] at cancelled ⊢
        cases above with
        | none => simp at cancelled
        | some parent =>
            rcases doomed parent (known parent rfl) cancelled with ⟨root, higher, happened⟩
            exact ⟨root, List.mem_cons_of_mem _ higher, happened⟩
  | ran _ p present lineage job jobs =>
      exact modified (fun s => { s with queue := jobs }) _ (fun _ => rfl) (fun _ => rfl) s member
        cancelled
  | settled p present request => exact launched _ _ s member cancelled
  | _ => exact kept s s member rfl id cancelled

theorem Reachable.doomed (reachable : Reachable i σ) : Doomed σ := by
  induction reachable with
  | refl =>
      intro s member cancelled
      rw [List.mem_singleton.mp member] at cancelled
      simp at cancelled
  | tail _ step ih => exact step.doomed ih

theorem Step.new_ending (step : Step i allowed σ τ) (c : Nat) (name : String) (ending : Ending)
    (earlier : List Event) (split : .ended (.caller c) name ending :: earlier <:+ τ.log)
    (caller : Caller) (found : τ.callers[c]? = some caller) (own : caller.prompt = i) :
    .ended (.caller c) name ending :: earlier <:+ σ.log ∨
      earlier = σ.log ∧ caller.ended = true ∧ ∃ p former, σ.prompt = some p ∧
        σ.callers[c]? = some former ∧ former.prompt = i ∧ former.request = caller.request ∧
        former.ended = false ∧
        (ending = .abandoned ∨ ending = .cancelled ∧ σ.isCancelled p.scope = true ∨
          ∃ reply, former.reply = some reply ∧ ending = reply.ending) := by
  rcases step.logs with ⟨events, grown, logs⟩
  rw [grown] at split
  cases logs with
  | ending p present d former there his waits given cause concluded =>
      rcases List.suffix_cons_iff.mp split with same | before
      · have parts := List.cons.inj same
        have fields := Event.ended.inj parts.1
        have at_d : c = d := TaskRef.caller.inj fields.1
        subst at_d
        rw [concluded, List.getElem?_modify_eq, there] at found
        rw [← Option.some.inj found, fields.2.2]
        exact .inr ⟨parts.2, rfl, p, former, present, there, his, rfl, waits, cause⟩
      · exact .inl before
  | foreign events others =>
      refine .inl (suffix_of_append _ _ events _ split ?_)
      intro member
      rcases others _ member with ⟨d, other, _, _, there, elsewhere, same⟩
      have at_d : c = d := TaskRef.caller.inj (Event.ended.inj same).1
      have both : other = caller := Option.some.inj (there.symm.trans (at_d ▸ found))
      exact elsewhere (both ▸ own)
  | nothing => exact .inl split
  | request | cancellation | answer =>
      exact .inl (suffix_of_append _ _ _ _ split (by simp))

structure Concluded (i : Nat) (σ : Strand) : Prop where
  inside (c : Nat) (name : String) (ending : Ending) :
    .ended (.caller c) name ending ∈ σ.log → c < σ.callers.length
  logged (c : Nat) (caller : Caller) : σ.callers[c]? = some caller → caller.prompt = i →
    (caller.ended = true ↔ ∃ name ending, .ended (.caller c) name ending ∈ σ.log)

structure Ended (i : Nat) (σ : Strand) : Prop where
  once (c : Nat) (caller : Caller) (name : String) (ending : Ending) (earlier : List Event) :
    σ.callers[c]? = some caller → caller.prompt = i →
    .ended (.caller c) name ending :: earlier <:+ σ.log →
    ∀ other again, .ended (.caller c) other again ∉ earlier
  caused (c : Nat) (caller : Caller) (name : String) (ending : Ending) (earlier : List Event)
    (p : Prompt) : σ.callers[c]? = some caller → caller.prompt = i → σ.prompt = some p →
    .ended (.caller c) name ending :: earlier <:+ σ.log →
    Caused i c caller.request (σ.lineage p.scope) earlier ending

theorem Step.ended_known (step : Step i allowed σ τ) (c : Nat) (name : String) (ending : Ending)
    (member : .ended (.caller c) name ending ∈ τ.log) :
    .ended (.caller c) name ending ∈ σ.log ∨ c < τ.callers.length := by
  rcases step.logs with ⟨events, grown, logs⟩
  rw [grown] at member
  rcases List.mem_append.mp member with new | before
  · right
    cases logs with
    | ending p present d former there =>
        have at_d : c = d := TaskRef.caller.inj (Event.ended.inj (List.mem_singleton.mp new)).1
        exact (at_d ▸ (List.getElem?_eq_some_iff.mp there).1).trans_le step.callers_grow
    | foreign events others =>
        rcases others _ new with ⟨d, other, _, _, there, -, same⟩
        have at_d : c = d := TaskRef.caller.inj (Event.ended.inj same).1
        exact at_d ▸ (List.getElem?_eq_some_iff.mp there).1
    | nothing | request | cancellation | answer => simp at new
  · exact .inl before

theorem Step.concluded (step : Step i allowed σ τ) (concluded : Concluded i σ) :
    Concluded i τ where
  inside c name ending member := by
    rcases step.ended_known c name ending member with before | inside
    · exact (concluded.inside c name ending before).trans_le step.callers_grow
    · exact inside
  logged c caller found own := by
    constructor
    · intro finished
      rcases step.caller_origin c caller found own with
        ⟨former, there, his, -, ends⟩ | ⟨-, waits, -⟩
      · rcases ends finished with before | logged
        · rcases (concluded.logged c former there his).mp before with ⟨name, ending, member⟩
          exact ⟨name, ending, step.log_grows.subset member⟩
        · exact logged
      · simp [finished] at waits
    · rintro ⟨name, ending, member⟩
      rcases List.append_of_mem member with ⟨later, earlier, whole⟩
      have split : .ended (.caller c) name ending :: earlier <:+ τ.log := ⟨later, whole.symm⟩
      rcases step.new_ending c name ending earlier split caller found own with before | new
      · have old := before.subset List.mem_cons_self
        have inside := concluded.inside c name ending old
        rcases step.caller_origin c caller found own with ⟨former, there, his, -⟩ | ⟨at_end, -⟩
        · rcases step.caller_stays c former there his with ⟨next, now, -, -, stays⟩
          have same : next = caller := Option.some.inj (now.symm.trans found)
          exact same ▸ stays ((concluded.logged c former there his).mpr ⟨name, ending, old⟩)
        · omega
      · exact new.2.1

theorem Reachable.concluded (reachable : Reachable i σ) : Concluded i σ := by
  induction reachable with
  | refl => exact ⟨fun _ _ _ member => (List.not_mem_nil member).elim,
      fun _ _ found => by simp [blank] at found⟩
  | tail _ step ih => exact step.concluded ih

theorem isCancelled_iff (scope : Nat) :
    σ.isCancelled scope = true ↔ ∃ s, σ.scopes[scope]? = some s ∧ s.cancelled = true := by
  unfold isCancelled
  exact Option.any_eq_true _ _

theorem ending_caused (p : Prompt) (present : σ.prompt = some p) (doomed : Doomed σ)
    (attended : Attended i σ) (c : Nat) (former : Caller) (there : σ.callers[c]? = some former)
    (own : former.prompt = i) (ending : Ending)
    (cause : ending = .abandoned ∨ ending = .cancelled ∧ σ.isCancelled p.scope = true ∨
      ∃ reply, former.reply = some reply ∧ ending = reply.ending) :
    Caused i c former.request (σ.lineage p.scope) σ.log ending := by
  rcases cause with rfl | ⟨rfl, cancelled⟩ | ⟨reply, told, rfl⟩
  · trivial
  · rcases (isCancelled_iff p.scope).mp cancelled with ⟨s, found, dead⟩
    rcases doomed s (List.mem_of_getElem? found) dead with ⟨root, above, happened⟩
    refine ⟨root, ?_, happened⟩
    simp only [lineage, found, Option.map_some, Option.getD_some]
    exact above
  · exact ((attended.present p present).told c former reply there own told).mono
      (List.suffix_refl _) (List.nil_subset _)

theorem Step.ended (step : Step i allowed σ τ) (reachable : Reachable i σ)
    (ended : Ended i σ) : Ended i τ where
  once c caller name ending earlier found own split other again member := by
    rcases step.new_ending c name ending earlier split caller found own with
      before | ⟨rfl, -, p, former, -, there, his, -, waits, -⟩
    · have inside := reachable.concluded.inside c name ending (before.subset List.mem_cons_self)
      rcases step.caller_origin c caller found own with ⟨former, there, his, -⟩ | ⟨at_end, -⟩
      · exact ended.once c former name ending earlier there his before other again member
      · omega
    · have finished := (reachable.concluded.logged c former there his).mpr ⟨other, again, member⟩
      simp [waits] at finished
  caused c caller name ending earlier next found own after split := by
    have opened : ∃ p, σ.prompt = some p ∧ next.scope = p.scope := by
      have present : ∃ p, σ.prompt = some p := by
        rcases step.caller_origin c caller found own with
          ⟨former, there, his, -⟩ | ⟨-, -, p, here, -⟩
        · exact reachable.moored.callers c former there his
        · exact ⟨p, here⟩
      rcases present with ⟨p, here⟩
      rcases step.prompt_stays p here with ⟨now, there, home⟩
      have same : now = next := Option.some.inj (there.symm.trans after)
      exact ⟨p, here, same ▸ home⟩
    rcases opened with ⟨p, present, home⟩
    rw [home]
    rcases step.new_ending c name ending earlier split caller found own with
      before | ⟨rfl, -, q, former, here, there, his, request, -, cause⟩
    · have inside := reachable.concluded.inside c name ending (before.subset List.mem_cons_self)
      rcases step.caller_origin c caller found own with
        ⟨former, there, his, request, -⟩ | ⟨at_end, -⟩
      · rw [← request]
        exact (ended.caused c former name ending earlier p there his present before).mono
          (List.suffix_refl _) (step.lineage_subset p.scope)
      · omega
    · have same : q = p := Option.some.inj (here.symm.trans present)
      subst same
      rw [← request]
      exact (ending_caused q present reachable.doomed reachable.attended c former there his ending
        cause).mono (List.suffix_refl _) (step.lineage_subset q.scope)

theorem Reachable.ended (reachable : Reachable i σ) : Ended i σ := by
  induction reachable with
  | refl => exact ⟨fun _ _ _ _ _ found => by simp [blank] at found,
      fun _ _ _ _ _ _ found => by simp [blank] at found⟩
  | tail before step ih => exact step.ended before ih

/-- Whoever was told of an answer had asked for it, and it was the first answer to that request. -/
def FirstAnswers (i : Nat) (σ : Strand) : Prop :=
  ∀ a c earlier, .accepted i a (some c) :: earlier <:+ σ.log →
    (∃ caller, σ.callers[c]? = some caller ∧ caller.prompt = i ∧ caller.request = a.request) ∧
      ∀ b resumed, .accepted i b resumed ∈ earlier → b.request ≠ a.request

theorem Step.firstAnswers (step : Step i allowed σ τ) (attended : Attended i σ)
    (first : FirstAnswers i σ) : FirstAnswers i τ := by
  intro a c earlier split
  rcases step.logs with ⟨events, grown, logs⟩
  rw [grown] at split
  have before (split : .accepted i a (some c) :: earlier <:+ σ.log) :
      (∃ caller, τ.callers[c]? = some caller ∧ caller.prompt = i ∧ caller.request = a.request) ∧
        ∀ b resumed, .accepted i b resumed ∈ earlier → b.request ≠ a.request := by
    rcases first a c earlier split with ⟨⟨caller, found, own, request⟩, unanswered⟩
    rcases step.caller_stays c caller found own with ⟨next, there, his, same, -⟩
    exact ⟨⟨next, there, his, same.trans request⟩, unanswered⟩
  cases logs with
  | answer p present b full counts notified told =>
      rw [List.append_assoc] at split
      rcases List.suffix_cons_iff.mp (suffix_of_append _ _ _ _ split (by simp)) with same | old
      · have events := List.cons.inj same
        have parts := Event.accepted.inj events.1
        have known := attended.present p present
        have parked := (p.callerOf_eq_some b.request c).mp parts.2.2.symm
        rcases known.parked _ parked with ⟨caller, found, own, request, -⟩
        rcases step.caller_stays c caller found own with ⟨next, there, his, asked, -⟩
        rw [events.2, parts.2.1]
        exact ⟨⟨next, there, his, asked.trans request⟩, known.unanswered _ parked⟩
      · exact before old
  | foreign events others =>
      refine before (suffix_of_append _ _ events _ split ?_)
      intro member
      rcases others _ member with ⟨_, _, _, _, _, _, same⟩
      simp at same
  | nothing => exact before split
  | request | cancellation | ending =>
      exact before (suffix_of_append _ _ _ _ split (by simp))

theorem Reachable.firstAnswers (reachable : Reachable i σ) : FirstAnswers i σ := by
  induction reachable with
  | refl => exact fun a c earlier split => by simp [blank] at split
  | tail before step ih => exact step.firstAnswers (Reachable.attended before) ih

end Strand

end ModalHost
