import ModalHost.Proofs.Edits.Track
import ModalHost.Proofs.Schedules.Effort
import Mathlib.Data.Prod.Lex

/-! A host whose hooks give no answers comes to rest. A delivery may start any amount of work through
its hook, so what is left to do is no measure by itself: undelivered answers count above it. -/

namespace ModalHost

/-- A call that gives no answer, and registers no hook that could. -/
inductive Call.Mute : Call → Prop
  | showConfirm (dialog : String) (visuals : Visuals) : Mute (.showConfirm dialog visuals)
  | await (dialog : String) (visuals : Visuals) (task : String) : Mute (.await dialog visuals task)
  | abandon (task : String) : Mute (.abandon task)
  | setShown (dialog : String) (shown : Bool) : Mute (.setShown dialog shown)
  | setHooks (dialog : String) (hooks : Hooks Call)
      (mute : ∀ d calls, hooks.on d = some calls → ∀ c ∈ calls, Mute c) :
      Mute (.setHooks dialog hooks)
  | cancel (scope : String) : Mute (.cancel scope)

/-- Hooks that give no answers, and register none that do. -/
def Hooks.Mute (hooks : Hooks Call) : Prop :=
  ∀ d calls, hooks.on d = some calls → ∀ c ∈ calls, c.Mute

def Job.isTap : Job → Bool
  | .offer _ _ => true
  | _ => false

def Scope.taps (s : Scope) : Nat := s.queue.countP Job.isTap

def Prompt.held (p : Prompt) : Nat := if p.mailbox.isSome then 1 else 0

namespace Host

variable {h next : Host} {i k : Nat}

/-- How many answers have been given, and not been taken out of a mailbox yet. -/
def undelivered (h : Host) : Nat :=
  (h.scopes.map Scope.taps).sum + (h.prompts.map Prompt.held).sum

/-- No hook that is registered gives answers. -/
def Mute (h : Host) : Prop := ∀ p ∈ h.prompts, p.hooks.Mute

theorem taps_push (s : Scope) (job : Job) :
    (s.push job).taps ≤ s.taps + if job.isTap then 1 else 0 := by
  unfold Scope.push Scope.taps
  split
  · exact Nat.le_add_right _ _
  · rw [List.countP_append, List.countP_singleton]

theorem taps_cancelBy (root : Nat) (s : Scope) : (s.cancelBy root).taps ≤ s.taps := by
  unfold Scope.cancelBy Scope.taps
  split
  · exact Nat.zero_le _
  · exact Nat.le_refl _

theorem held_of_mailboxes {ps qs : List Prompt}
    (same : qs.map (·.mailbox) = ps.map (·.mailbox)) :
    qs.map Prompt.held = ps.map Prompt.held := by
  have through (rs : List Prompt) : rs.map Prompt.held =
      (rs.map (·.mailbox)).map fun mailbox => if mailbox.isSome then 1 else 0 := by
    rw [List.map_map]
    rfl
  rw [through, through, same]

theorem undelivered_edits {α : Type} {notes : Event → Prop} {view : Prompt → α}
    (edits : Edits (fun job => job.isTap = false) notes view h next)
    (reads : ∀ p q, view p = view q → p.mailbox = q.mailbox) :
    next.undelivered ≤ h.undelivered := by
  induction edits with
  | refl => exact Nat.le_refl _
  | @tail mid last _ edit ih =>
      refine Nat.le_trans ?_ ih
      cases edit with
      | prompt j f same =>
          have mailboxes : (mid.prompts.modify j f).map Prompt.held = mid.prompts.map Prompt.held :=
            held_of_mailboxes
              (map_modify_invisible f (·.mailbox) j mid.prompts fun p => reads _ _ (same p))
          simp only [undelivered, updatePrompt, mailboxes]
          exact Nat.le_refl _
      | rest | recorded | dropped => exact Nat.le_refl _
      | launched scope job quiet =>
          have taps := sum_modify_le (·.push job) Scope.taps 0
            (fun s => by simpa [quiet] using taps_push s job) scope mid.scopes
          simp only [undelivered, launch]
          omega
      | cancelled root =>
          have taps : ((mid.scopes.map (·.cancelBy root)).map Scope.taps).sum ≤
              (mid.scopes.map Scope.taps).sum := by
            rw [List.map_map]
            exact List.sum_le_sum fun s _ => taps_cancelBy root s
          simp only [undelivered]
          omega

theorem ample_mailboxes :
    Ample (fun job => job.isTap = false) (fun _ => True) (fun p : Prompt => p.mailbox) where
  job job aside := by cases job <;> first | rfl | cases aside
  event _ _ := trivial
  view _ _ same := congrArg Inlet.mailbox same

theorem ample_hooks : Ample (fun _ => True) (fun _ => True) (fun p : Prompt => p.hooks) where
  job _ _ := trivial
  event _ _ := trivial
  view _ _ same := congrArg Inlet.hooks same

theorem ample_inlets : Ample (fun job => job.isTap = false) (fun _ => True) Prompt.inlet where
  job := ample_mailboxes.job
  event _ _ := trivial
  view _ _ same := same

structure Spares (h next : Host) : Prop where
  undelivered : next.undelivered ≤ h.undelivered
  hooks : next.prompts.map (·.hooks) = h.prompts.map (·.hooks)

theorem spares_edits
    (edits : Edits (fun job => job.isTap = false) (fun _ => True) Prompt.inlet h next) :
    h.Spares next where
  undelivered := undelivered_edits edits fun _ _ same => congrArg Inlet.mailbox same
  hooks := by
    have inlets := congrArg (List.map Inlet.hooks) edits.views
    rw [List.map_map, List.map_map] at inlets
    exact inlets

theorem spares_runJob (job : Job) (ran : h.runJob job = some next) :
    next.undelivered ≤ h.undelivered + (if job.isTap then 1 else 0) ∧
      next.prompts.map (·.hooks) = h.prompts.map (·.hooks) := by
  cases aside : job.aside with
  | true =>
      have spares := spares_edits (ample_inlets.runJob job aside ran)
      exact ⟨Nat.le_add_right_of_le spares.undelivered, spares.hooks⟩
  | false =>
      cases job with
      | offer j tap =>
          simp only [runJob] at ran
          split at ran
          · cases ran
            exact ⟨Nat.le_add_right _ _, rfl⟩
          · split at ran
            · cases ran
            · cases ran
              have held := sum_modify_le (fun p : Prompt => { p with mailbox := some (p.answer tap) })
                Prompt.held 1 (fun p => by simp [Prompt.held]) j h.prompts
              refine ⟨?_, map_modify_invisible _ _ _ _ fun _ => rfl⟩
              simp only [undelivered, updatePrompt, Job.isTap, if_true]
              omega
      | flushed w =>
          cases ran
          exact ⟨Nat.le_add_right _ _, rfl⟩
      | _ => cases aside

theorem spares_dispatch (k : Nat) (ran : h.dispatch? k = some next) : h.Spares next := by
  obtain ⟨lineage, job, jobs, front, done⟩ := dispatch_cases k next ran
  obtain ⟨runs, hooks⟩ := spares_runJob job done
  refine ⟨?_, hooks⟩
  have popped := sum_modify (fun s : Scope => { s with queue := jobs }) Scope.taps h.scopes k _ front
  have before : Scope.taps ⟨lineage, false, job :: jobs⟩ =
      Scope.taps ⟨lineage, false, jobs⟩ + if job.isTap then 1 else 0 := List.countP_cons
  dsimp only at popped
  have rest : (h.setQueue k jobs).undelivered + (if job.isTap then 1 else 0) = h.undelivered := by
    simp only [undelivered, setQueue]
    omega
  omega

theorem undelivered_emptied (p : Prompt) (a : Answer) (present : h.prompts[i]? = some p)
    (full : p.mailbox = some a) :
    (h.updatePrompt i fun p => { p with mailbox := none }).undelivered < h.undelivered := by
  have held := sum_modify_lt (fun p : Prompt => { p with mailbox := none }) Prompt.held i h.prompts
    p present (by simp [Prompt.held, full])
  simp only [undelivered, updatePrompt]
  omega

theorem spares_retire (retired : h.retire? i = some next) : h.Spares next := by
  obtain ⟨p, a, present, full, -, -, rfl⟩ := retire_cases i next retired
  exact ⟨Nat.le_of_lt (undelivered_emptied p a present full),
    map_modify_invisible _ _ _ _ fun _ => rfl⟩

theorem spares_move (m : Move) (apart : ∀ i, m ≠ .deliver i) (taken : h.move? m = some next) :
    h.Spares next := by
  cases m with
  | dispatch k => exact spares_dispatch k taken
  | deliver i => exact absurd rfl (apart i)
  | retire i => exact spares_retire taken
  | resumeCaller c => exact spares_edits (ample_inlets.resumeCaller c taken)
  | advanceWork w => exact spares_edits (ample_inlets.advanceWork w taken)
  | advanceWait w =>
      obtain ⟨wait, -, moved⟩ := wait_cases w taken
      cases moved <;> exact ⟨Nat.le_refl _, rfl⟩
  | followShown f => exact spares_edits (ample_inlets.followShown f taken)
  | followVisuals f => exact spares_edits (ample_inlets.followVisuals f taken)

theorem Mute.of_hooks (mute : h.Mute)
    (same : next.prompts.map (·.hooks) = h.prompts.map (·.hooks)) : next.Mute := by
  intro p member
  have known : p.hooks ∈ h.prompts.map (·.hooks) := same ▸ List.mem_map_of_mem member
  obtain ⟨q, there, hooks⟩ := List.mem_map.mp known
  exact hooks ▸ mute q there

theorem undelivered_call (c : Call) (mute : c.Mute) : (h.call c).undelivered ≤ h.undelivered := by
  refine undelivered_edits (ample_mailboxes.call (h := h) c ?_ (fun _ _ _ _ _ => rfl)
    fun _ _ _ _ => trivial) fun _ _ same => same
  rintro responder decision rfl
  cases mute

theorem Mute.call (mute : h.Mute) (c : Call) (quiet : c.Mute) : (h.call c).Mute := by
  cases quiet with
  | setHooks dialog hooks silent =>
      simp only [Host.call]
      cases h.prompt? dialog with
      | none => exact mute
      | some i =>
          intro p member
          obtain ⟨k, there⟩ := List.mem_iff_getElem?.mp member
          simp only [Option.elim_some, Host.setHooks, updatePrompt, List.getElem?_modify,
            Option.map_eq_map, Option.map_eq_some_iff] at there
          obtain ⟨q, found, rfl⟩ := there
          split
          · exact silent
          · exact mute q (List.mem_of_getElem? found)
  | _ =>
      refine mute.of_hooks (Edits.views (ample_hooks.call (h := h) _ (fun _ _ _ _ _ => trivial) ?_
        fun _ _ _ _ => trivial))
      rintro dialog hooks ⟨⟩

theorem calls_spare (calls : List Call) (mute : h.Mute) (quiet : ∀ c ∈ calls, c.Mute) :
    (calls.foldl call h).undelivered ≤ h.undelivered ∧ (calls.foldl call h).Mute := by
  induction calls generalizing h with
  | nil => exact ⟨Nat.le_refl _, mute⟩
  | cons c calls ih =>
      have first := quiet c List.mem_cons_self
      obtain ⟨fewer, later⟩ := ih (mute.call c first) fun d member =>
        quiet d (List.mem_cons_of_mem c member)
      exact ⟨Nat.le_trans fewer (undelivered_call c first), later⟩

theorem fewer_delivered (mute : h.Mute) (delivered : h.deliver? i = some next) :
    next.undelivered < h.undelivered ∧ next.Mute := by
  obtain ⟨p, a, present, full, moved⟩ := deliver_cases i next delivered
  have emptied := undelivered_emptied p a present full
  have same : (h.updatePrompt i fun p => { p with mailbox := none }).prompts.map (·.hooks) =
      h.prompts.map (·.hooks) := map_modify_invisible _ _ _ _ fun _ => rfl
  rcases moved with ⟨accepting, rfl⟩ | ⟨stale, rfl⟩
  · rw [accept_eq i p present]
    have heard := undelivered_edits (ample_mailboxes.heard (h := h) i p a fun _ _ => trivial)
      fun _ _ same => same
    have hears : (h.heard i p a).Mute := mute.of_hooks
      ((ample_hooks.heard (h := h) i p a fun _ _ => trivial).views.trans same)
    obtain ⟨made, later⟩ := calls_spare ((p.hooks.on a.tap.decision).getD []) hears (by
      intro c member
      cases hook : p.hooks.on a.tap.decision with
      | none => simp [hook] at member
      | some calls =>
          rw [hook] at member
          exact mute p (List.mem_of_getElem? present) _ calls hook c member)
    refine ⟨?_, later⟩
    have settles := undelivered_edits (ample_mailboxes.launch
      (h := ((p.hooks.on a.tap.decision).getD []).foldl call (h.heard i p a)) p.scope
      (.settle i a.request) rfl) fun _ _ same => same
    omega
  · exact ⟨emptied, mute.of_hooks same⟩

theorem wanes (housed : h.Housed) (mute : h.Mute) (m : Move) (taken : h.move? m = some next) :
    next.Mute ∧ (next.undelivered < h.undelivered ∨
      next.undelivered ≤ h.undelivered ∧ next.effort < h.effort) := by
  by_cases delivers : ∃ i, m = .deliver i
  · obtain ⟨i, rfl⟩ := delivers
    obtain ⟨fewer, later⟩ := fewer_delivered mute taken
    exact ⟨later, .inl fewer⟩
  · have apart (i : Nat) (same : m = .deliver i) : False := delivers ⟨i, same⟩
    have spares := spares_move m apart taken
    exact ⟨mute.of_hooks spares.hooks, .inr ⟨spares.undelivered,
      effort_move housed m (fun i same => (apart i same).elim) taken⟩⟩

/-- Undelivered answers count above all else that is left to do. -/
theorem Mute.acc (mute : h.Mute) (reachable : h.Reachable) :
    Acc (fun next h => ∃ m, move? h m = some next) h := by
  induction left : toLex (h.undelivered, h.effort) using WellFoundedLT.induction generalizing h with
  | ind measure ih =>
      refine ⟨_, ?_⟩
      rintro next ⟨m, taken⟩
      obtain ⟨later, less⟩ := wanes reachable.ledger.sound.works mute m taken
      refine ih (toLex (next.undelivered, next.effort)) ?_ later
        (reachable.tail (.move m next taken)) rfl
      rw [← left, Prod.Lex.toLex_lt_toLex]
      rcases less with fewer | ⟨fewer, less⟩
      · exact .inl fewer
      · rcases Nat.lt_or_eq_of_le fewer with fewer | same
        · exact .inl fewer
        · exact .inr ⟨same, less⟩

/-- When no hook that is registered gives answers, nor any hook that one of them may register, a host
comes to rest whatever it does first: there is a limit to how many jobs, deliveries, resumptions and
renderers can run, though hooks may ask, show, hide, cancel and replace hooks, and every run can go
on until nothing is left to run. -/
theorem comes_to_rest (reachable : h.Reachable) (mute : h.Mute) :
    (∃ limit, ∀ ms next, drive move? h ms = some next → ms.length ≤ limit) ∧
      ∀ ms next, drive move? h ms = some next →
        ∃ more last, drive move? next more = some last ∧ ∀ m, last.move? m = none := by
  have acc := mute.acc reachable
  refine ⟨bounded_of_acc moves (fun _ m _ taken => mem_moves m taken) h acc, ?_⟩
  intro ms next run
  exact halts_of_acc next (acc_of_drive acc run)

/-- A hook that asks anew and hands over to another hook, which shows the dialog and cancels. -/
def relayed : Hooks Call :=
  ⟨"k", some [.showConfirm "d" (.ofTitle "Again"),
    .setHooks "d" ⟨"l", some [.setShown "d" true, .cancel "main"], none⟩], none⟩

theorem relayed_mute : relayed.Mute := by
  intro d calls hook c member
  cases d with
  | confirmed =>
      obtain rfl := Option.some.inj hook
      simp only [List.mem_cons, List.not_mem_nil, or_false] at member
      rcases member with rfl | rfl
      · exact .showConfirm _ _
      · refine .setHooks _ _ fun d calls hook c member => ?_
        cases d with
        | confirmed =>
            obtain rfl := Option.some.inj hook
            simp only [List.mem_cons, List.not_mem_nil, or_false] at member
            rcases member with rfl | rfl
            · exact .setShown _ _
            · exact .cancel _
        | canceled => cases hook
  | canceled => cases hook

def answeredTwice : List (Session.Step ⊕ Move) :=
  [.inl (.openDialog "d" "main" (.confirm relayed .blank)),
    .inl (.call (.showConfirm "d" (.ofTitle "T"))), .inl (.call (.press (.fresh "d") .confirmed)),
    .inl (.call (.press (.fresh "d") .confirmed))]

def chainRuns : List Move :=
  [.dispatch 0, .dispatch 0, .deliver 0, .dispatch 0, .deliver 0, .dispatch 0, .dispatch 0]

theorem chain_comes_to_rest : ∃ limit last, 7 ≤ limit ∧
    drive move? (initial.run answeredTwice) chainRuns = some last ∧
    last.firedFor 0 = [.hookRan 0 "k" .confirmed] ∧
    ∀ ms next, drive move? (initial.run answeredTwice) ms = some next → ms.length ≤ limit := by
  have hooks : (initial.run answeredTwice).prompts.map (·.hooks) = [relayed] := rfl
  have mute : (initial.run answeredTwice).Mute := by
    intro p member
    have known := List.mem_map_of_mem (f := (·.hooks)) member
    rw [hooks] at known
    exact List.mem_singleton.mp known ▸ relayed_mute
  obtain ⟨limit, bounded⟩ := (comes_to_rest (Reachable.run .refl answeredTwice) mute).1
  exact ⟨limit, _, bounded chainRuns _ rfl, rfl, rfl, bounded⟩

end Host

end ModalHost
