import ModalHost.Proofs.Edits.Track
import ModalHost.Proofs.Ledger.Runs

/-! Flushes: each that has not ended is still to be reported to, on a scope that lives. -/

namespace ModalHost

def Job.reports : Job → Bool
  | .flushed _ => true
  | _ => false

namespace Host

structure Patient (h : Host) : Prop where
  home (w : Nat) (wait : Wait) : h.waits[w]? = some wait → wait.scope < h.scopes.length
  reports (scope w : Nat) : .flushed w ∈ queueAt h.scopes scope →
    ∃ wait, h.waits[w]? = some wait ∧ wait.scope = scope ∧ wait.kind = .flush false
  once (scope w : Nat) : (queueAt h.scopes scope).count (.flushed w) ≤ 1
  due (w : Nat) (wait : Wait) : h.waits[w]? = some wait → wait.kind = .flush false →
    wait.ended = false → cancelledAt h.scopes wait.scope = false →
    .flushed w ∈ queueAt h.scopes wait.scope
  finished (w : Nat) (wait : Wait) (ran : Bool) : h.waits[w]? = some wait → wait.kind = .flush ran →
    wait.ended = true → .ended (.wait w) wait.name .flushed ∈ h.history ∨
      .ended (.wait w) wait.name .abandoned ∈ h.history

variable {h next : Host}

theorem Patient.keep (patient : h.Patient) (waits : next.waits = h.waits)
    (persist : Persist h.scopes next.scopes)
    (origin : ∀ k w, (queueAt next.scopes k).count (.flushed w) ≤
      (queueAt h.scopes k).count (.flushed w))
    (stays : ∀ w wait, h.waits[w]? = some wait → wait.kind = .flush false →
      cancelledAt next.scopes wait.scope = false → .flushed w ∈ queueAt h.scopes wait.scope →
      .flushed w ∈ queueAt next.scopes wait.scope)
    (history : ∀ e ∈ h.history, e ∈ next.history) : next.Patient where
  home w wait there :=
    (patient.home w wait (waits ▸ there)).trans_le persist.length_le
  reports scope w member := waits ▸ patient.reports scope w
    (List.count_pos_iff.mp ((List.count_pos_iff.mpr member).trans_le (origin scope w)))
  once scope w := (origin scope w).trans (patient.once scope w)
  due w wait there kind running live :=
    stays w wait (waits ▸ there) kind live
      (patient.due w wait (waits ▸ there) kind running (persist.live live))
  finished w wait ran there kind ended :=
    (patient.finished w wait ran (waits ▸ there) kind ended).imp (history _) (history _)

theorem Patient.of_eq (patient : h.Patient) (waits : next.waits = h.waits)
    (scopes : next.scopes = h.scopes) (history : ∀ e ∈ h.history, e ∈ next.history) :
    next.Patient :=
  patient.keep waits (scopes ▸ .refl _) (fun _ _ => scopes ▸ Nat.le_refl _)
    (fun _ _ _ _ _ member => scopes ▸ member) history

structure GoesOn (w : Nat) (wait next : Wait) (events : List Event) : Prop where
  scope : next.scope = wait.scope
  name : next.name = wait.name
  flush (ran : Bool) : wait.kind = .flush ran ↔ next.kind = .flush ran
  due : next.kind = .flush false → next.ended = false → wait.kind = .flush false ∧ wait.ended = false
  finished : next.ended = true → wait.ended = true ∨ .ended (.wait w) wait.name .flushed ∈ events ∨
    .ended (.wait w) wait.name .abandoned ∈ events ∨ ∀ ran, next.kind ≠ .flush ran

theorem Patient.updateWait (patient : h.Patient) (w : Nat) (f : Wait → Wait) (events : List Event)
    (goes : ∀ wait, h.waits[w]? = some wait → GoesOn w wait (f wait) events) :
    Patient { h with waits := h.waits.modify w f, history := events ++ h.history } := by
  have origin (v : Nat) (next : Wait) (there : (h.waits.modify w f)[v]? = some next) :
      ∃ wait, h.waits[v]? = some wait ∧
        (v = w ∧ next = f wait ∧ GoesOn w wait next events ∨ next = wait) := by
    rw [List.getElem?_modify, Option.map_eq_map, Option.map_eq_some_iff] at there
    obtain ⟨wait, found, rfl⟩ := there
    refine ⟨wait, found, ?_⟩
    split
    · rename_i same
      subst same
      exact .inl ⟨rfl, rfl, goes wait found⟩
    · exact .inr rfl
  have older (wait : Wait) (v : Nat)
      (noted : .ended (.wait v) wait.name .flushed ∈ h.history ∨
        .ended (.wait v) wait.name .abandoned ∈ h.history) :
      .ended (.wait v) wait.name .flushed ∈ events ++ h.history ∨
        .ended (.wait v) wait.name .abandoned ∈ events ++ h.history :=
    noted.imp (List.mem_append_right events) (List.mem_append_right events)
  constructor
  case home =>
    intro v next there
    obtain ⟨wait, found, ⟨-, -, went⟩ | rfl⟩ := origin v next there
    · exact went.scope ▸ patient.home v wait found
    · exact patient.home v next found
  case reports =>
    intro k v member
    obtain ⟨wait, there, home, kind⟩ := patient.reports k v member
    dsimp only
    rw [List.getElem?_modify, there]
    by_cases same : w = v
    · subst same
      have went := goes wait there
      exact ⟨f wait, by simp, went.scope.trans home, (went.flush false).mp kind⟩
    · exact ⟨wait, by simp [same], home, kind⟩
  case once => exact patient.once
  case due =>
    intro v next there kind running live
    obtain ⟨wait, found, ⟨rfl, -, went⟩ | rfl⟩ := origin v next there
    · obtain ⟨before, waits⟩ := went.due kind running
      rw [went.scope] at live ⊢
      exact patient.due v wait found before waits live
    · exact patient.due v next found kind running live
  case finished =>
    intro v next ran there kind ended
    obtain ⟨wait, found, ⟨rfl, -, went⟩ | rfl⟩ := origin v next there
    · rw [went.name]
      rcases went.finished ended with now | flushed | abandoned | other
      · exact older wait v (patient.finished v wait ran found ((went.flush ran).mpr kind) now)
      · exact .inl (List.mem_append_left h.history flushed)
      · exact .inr (List.mem_append_left h.history abandoned)
      · exact absurd kind (other ran)
    · exact older next v (patient.finished v next ran found kind ended)

section Edits

variable {α : Type} {may : Job → Prop} {notes : Event → Prop} {view : Prompt → α}

theorem Patient.edit (patient : h.Patient) (spared : ∀ job, may job → job.reports = false)
    (edit : h.Edit may notes view next) : next.Patient := by
  cases edit with
  | prompt | rest => exact patient.of_eq rfl rfl fun _ => id
  | recorded e => exact patient.of_eq rfl rfl fun _ => List.mem_cons_of_mem e
  | dropped w wait there waits =>
      refine patient.updateWait w _ [_] fun other found =>
        ⟨rfl, rfl, fun _ => .rfl, nofun, fun _ => ?_⟩
      cases there.symm.trans found
      exact .inr (.inr (.inl (List.mem_singleton.mpr rfl)))
  | launched scope job allowed =>
      have other : job.reports = false := spared job allowed
      refine patient.keep rfl (.push scope job) ?_ ?_ fun _ => id
      · intro k w
        dsimp only [launch]
        rw [queueAt_push]
        split
        · have none : [job].count (.flushed w) = 0 := by
            rw [List.count_eq_zero, List.mem_singleton]
            rintro rfl
            cases other
          rw [List.count_append, none, Nat.add_zero]
        · exact Nat.le_refl _
      · intro w wait _ _ _ member
        dsimp only [launch]
        rw [queueAt_push]
        split
        · exact List.mem_append_left _ member
        · exact member
  | cancelled root =>
      refine patient.keep rfl (.cancel root) ?_ ?_ fun _ => id
      · intro k w
        dsimp only
        rcases queueAt_cancel h.scopes k root with empty | same
        · rw [empty]
          exact Nat.zero_le _
        · rw [same]
      · intro w wait _ _ live member
        dsimp only
        rwa [queueAt_cancel_live _ _ _ live]

theorem Patient.edits (patient : h.Patient) (spared : ∀ job, may job → job.reports = false)
    (edits : Edits may notes view h next) : next.Patient := by
  induction edits with
  | refl => exact patient
  | tail _ edit ih => exact ih.edit spared edit

end Edits

/-- Edits of any kind, except that nothing is reported to flushes. -/
theorem ample_unreported : Ample (fun job => job.reports = false) (fun _ => True)
    fun _ : Prompt => () where
  job job aside := by cases job <;> first | rfl | cases aside
  event _ _ := trivial
  view _ _ _ := rfl

theorem Patient.deliver (patient : h.Patient) (i : Nat) (delivered : h.deliver? i = some next) :
    next.Patient := by
  have emptied : (h.updatePrompt i fun p => { p with mailbox := none }).Patient :=
    patient.of_eq rfl rfl fun _ => id
  obtain ⟨p, a, present, -, ⟨-, rfl⟩ | ⟨-, rfl⟩⟩ := deliver_cases i next delivered
  · exact emptied.edits (fun _ => id) (ample_unreported.accept i p present a (fun _ => trivial)
      (fun _ _ => rfl) fun _ _ => rfl)
  · exact emptied

theorem Patient.retire (patient : h.Patient) (i : Nat) (retired : h.retire? i = some next) :
    next.Patient := by
  obtain ⟨p, a, -, -, -, -, rfl⟩ := retire_cases i next retired
  exact patient.of_eq rfl rfl fun _ => id

theorem queueAt_setQueue (scope : Nat) (jobs : List Job) (inside : scope < h.scopes.length)
    (k : Nat) : queueAt (h.setQueue scope jobs).scopes k =
      if k = scope then jobs else queueAt h.scopes k :=
  queueAt_pop h.scopes k scope jobs inside

theorem count_setQueue_le (scope : Nat) (job : Job) (jobs : List Job)
    (queue : queueAt h.scopes scope = job :: jobs) (inside : scope < h.scopes.length) (k w : Nat) :
    (queueAt (h.setQueue scope jobs).scopes k).count (.flushed w) ≤
      (queueAt h.scopes k).count (.flushed w) := by
  rw [queueAt_setQueue scope jobs inside]
  split
  · rename_i same
    rw [same, queue]
    exact (List.sublist_cons_self job jobs).count_le _
  · exact Nat.le_refl _

theorem Patient.pop (patient : h.Patient) (scope : Nat) (job : Job) (jobs : List Job)
    (queue : queueAt h.scopes scope = job :: jobs) (inside : scope < h.scopes.length)
    (other : job.reports = false) : (h.setQueue scope jobs).Patient := by
  refine patient.keep rfl (.pop scope jobs) (count_setQueue_le scope job jobs queue inside) ?_
    fun _ => id
  intro w wait _ _ _ member
  rw [queueAt_setQueue scope jobs inside]
  split
  · rename_i same
    rw [same, queue] at member
    refine (List.mem_cons.mp member).resolve_left ?_
    rintro rfl
    cases other
  · exact member

theorem Patient.told (patient : h.Patient) (scope w : Nat) (jobs : List Job)
    (queue : queueAt h.scopes scope = .flushed w :: jobs) (inside : scope < h.scopes.length) :
    Patient ((h.setQueue scope jobs).updateWait w fun wait =>
      { wait with kind := .flush true }) := by
  have popped := queueAt_setQueue (h := h) scope jobs inside
  have fewer := count_setQueue_le scope (.flushed w) jobs queue inside
  obtain ⟨wait, there, home, unrun⟩ := patient.reports scope w (queue ▸ List.mem_cons_self)
  -- A flush is reported to once, so the reports that are left are to others.
  have reports (k v : Nat) (member : .flushed v ∈ queueAt (h.setQueue scope jobs).scopes k) :
      v ≠ w ∧ ∃ wait, h.waits[v]? = some wait ∧ wait.scope = k ∧ wait.kind = .flush false := by
    have before := (List.count_pos_iff.mpr member).trans_le (fewer k v)
    obtain ⟨same, found, at_k, kind⟩ := patient.reports k v (List.count_pos_iff.mp before)
    refine ⟨?_, same, found, at_k, kind⟩
    rintro rfl
    obtain rfl : wait = same := Option.some.inj (there.symm.trans found)
    have once := patient.once scope v
    rw [popped, if_pos (at_k.symm.trans home)] at member
    rw [queue, List.count_cons_self] at once
    have more := List.count_pos_iff.mpr member
    omega
  have others (v : Nat) (other : v ≠ w) :
      (h.waits.modify w fun wait => { wait with kind := .flush true })[v]? = h.waits[v]? :=
    List.getElem?_modify_ne _ _ (Ne.symm other)
  constructor
  case home =>
    intro v next known
    obtain ⟨wait, found, same⟩ :=
      origin_modify (fun wait : Wait => { wait with kind := .flush true }) Wait.scope
        (fun _ => rfl) h.waits w v next known
    exact same ▸ (patient.home v wait found).trans_le (Persist.pop scope jobs).length_le
  case reports =>
    intro k v member
    obtain ⟨other, wait, found, at_k, kind⟩ := reports k v member
    exact ⟨wait, (others v other).trans found, at_k, kind⟩
  case once => exact fun k v => (fewer k v).trans (patient.once k v)
  case due =>
    intro v next known kind running live
    have other : v ≠ w := by
      rintro rfl
      rw [Host.updateWait, List.getElem?_modify_eq, Option.map_eq_map,
        Option.map_eq_some_iff] at known
      obtain ⟨before, -, rfl⟩ := known
      cases kind
    have due := patient.due v next ((others v other).symm.trans known) kind running
      ((Persist.pop scope jobs).live live)
    change _ ∈ queueAt (h.setQueue scope jobs).scopes _
    rw [popped]
    split
    · rename_i same
      rw [same, queue] at due
      refine (List.mem_cons.mp due).resolve_left ?_
      rintro ⟨⟩
      exact other rfl
    · exact due
  case finished =>
    intro v next ran known kind ended
    by_cases same : v = w
    · subst same
      rw [Host.updateWait, List.getElem?_modify_eq, Option.map_eq_map,
        Option.map_eq_some_iff] at known
      obtain ⟨before, found, rfl⟩ := known
      obtain rfl : wait = before := Option.some.inj (there.symm.trans found)
      exact patient.finished v wait false there unrun ended
    · exact patient.finished v next ran ((others v same).symm.trans known) kind ended

theorem Patient.dispatch (patient : h.Patient) (scope : Nat)
    (ran : h.dispatch? scope = some next) : next.Patient := by
  obtain ⟨lineage, job, jobs, front, done⟩ := dispatch_cases scope next ran
  obtain ⟨queue, -⟩ := queueAt_of_front _ _ _ _ _ front
  have inside := (List.getElem?_eq_some_iff.mp front).1
  have unreported := patient.pop scope job jobs queue inside
  cases job with
  | flushed w =>
      cases done
      exact patient.told scope w jobs queue inside
  | offer i tap =>
      have waiting := unreported rfl
      simp only [runJob] at done
      split at done
      · cases done
        exact waiting
      · split at done
        · cases done
        · cases done
          exact waiting.of_eq rfl rfl fun _ => id
  | _ => exact (unreported rfl).edits (fun _ => id) (ample_unreported.runJob _ rfl done)

theorem Patient.endWait (patient : h.Patient) (w : Nat) (wait : Wait) (ending : Ending)
    (there : h.waits[w]? = some wait)
    (flush : ∀ ran, wait.kind = .flush ran → ending = .flushed) :
    (h.endWait w wait.name ending).Patient := by
  refine patient.updateWait w _ [_] fun other found =>
    ⟨rfl, rfl, fun _ => .rfl, nofun, fun _ => ?_⟩
  cases there.symm.trans found
  by_cases kind : ∃ ran, wait.kind = .flush ran
  · obtain ⟨ran, kind⟩ := kind
    rw [flush ran kind]
    exact .inr (.inl (List.mem_singleton.mpr rfl))
  · exact .inr (.inr (.inr fun ran same => kind ⟨ran, same⟩))

theorem Patient.advanceWait (patient : h.Patient) (w : Nat)
    (advanced : h.advanceWait? w = some next) : next.Patient := by
  obtain ⟨wait, there, moved⟩ := wait_cases w advanced
  cases moved with
  | flushed => exact patient.endWait w wait _ there fun _ _ => rfl
  | cancelled kind => exact patient.endWait w wait _ there fun ran other => by simp [kind] at other
  | joined running outcome kind =>
      exact patient.endWait w wait _ there fun ran other => by simp [kind] at other
  | received given kind =>
      refine patient.updateWait w _ [_] fun other found => ⟨rfl, rfl, ?_, nofun, .inl⟩
      cases there.symm.trans found
      simp [kind]

theorem Patient.move (patient : h.Patient) (m : Move) (taken : h.move? m = some next) :
    next.Patient := by
  cases m with
  | dispatch scope => exact patient.dispatch scope taken
  | deliver i => exact patient.deliver i taken
  | retire i => exact patient.retire i taken
  | resumeCaller c => exact patient.edits (fun _ => id) (ample_unreported.resumeCaller c taken)
  | advanceWork w => exact patient.edits (fun _ => id) (ample_unreported.advanceWork w taken)
  | advanceWait w => exact patient.advanceWait w taken
  | followShown f => exact patient.edits (fun _ => id) (ample_unreported.followShown f taken)
  | followVisuals f => exact patient.edits (fun _ => id) (ample_unreported.followVisuals f taken)

theorem Patient.openScope (patient : h.Patient) (name : String) (parent : Option Nat) :
    (h.openScope name parent).Patient := by
  refine patient.keep rfl (.branch _) ?_ ?_ fun _ => id
  · intro k w
    dsimp only [Host.openScope]
    rw [queueAt_branch]
  · intro w wait _ _ _ member
    dsimp only [Host.openScope]
    rwa [queueAt_branch]

theorem Patient.release (patient : h.Patient) (scope : Nat) : (h.release scope).1.Patient := by
  unfold Host.release
  split
  · exact patient
  · rename_i opened found
    have sifted := Scope.sift_openHold Job.reports (fun _ => rfl) (h.queued scope) opened found
    have same (w : Nat) :
        opened.count (.flushed w) = (queueAt h.scopes scope).count (.flushed w) := by
      have reports (jobs : List Job) : (jobs.filter Job.reports).count (.flushed w) =
          jobs.count (.flushed w) := List.count_filter rfl
      rw [← reports, sifted]
      exact reports _
    have inside : scope < h.scopes.length := by
      by_contra beyond
      rw [Host.queued, List.getElem?_eq_none (Nat.le_of_not_lt beyond)] at found
      cases found
    have kept (k w : Nat) : (queueAt (h.setQueue scope opened).scopes k).count (.flushed w) =
        (queueAt h.scopes k).count (.flushed w) := by
      rw [queueAt_setQueue scope opened inside]
      split
      · rename_i here
        rw [here]
        exact same w
      · rfl
    refine patient.keep rfl (.pop scope opened) (fun k w => (kept k w).le) ?_ fun _ => id
    intro w wait _ _ _ member
    rw [← List.count_pos_iff] at member ⊢
    exact (kept wait.scope w).symm ▸ member

theorem Patient.enlist (patient : h.Patient) (scopes : List Scope) (names : Directory)
    (name : String) (scope : Nat) (kind : WaitKind) (inside : scope < h.scopes.length)
    (persist : Persist h.scopes scopes)
    (origin : ∀ k w, .flushed w ∈ queueAt scopes k →
      .flushed w ∈ queueAt h.scopes k ∨ w = h.waits.length ∧ k = scope ∧ kind = .flush false)
    (once : ∀ k w, (queueAt scopes k).count (.flushed w) ≤ 1)
    (stays : ∀ k w, .flushed w ∈ queueAt h.scopes k → .flushed w ∈ queueAt scopes k)
    (due : kind = .flush false → cancelledAt scopes scope = false →
      .flushed h.waits.length ∈ queueAt scopes scope) :
    Patient { h with waits := h.waits ++ [⟨name, scope, kind, false⟩], scopes, names } where
  home w wait there := by
    rcases getElem?_concat_cases _ _ _ _ there with before | ⟨rfl, rfl⟩
    · exact (patient.home w wait before).trans_le persist.length_le
    · exact inside.trans_le persist.length_le
  reports k w member := by
    rcases origin k w member with before | ⟨rfl, rfl, rfl⟩
    · obtain ⟨wait, there, home, flush⟩ := patient.reports k w before
      have known := (List.getElem?_eq_some_iff.mp there).1
      exact ⟨wait, (List.getElem?_append_left known).trans there, home, flush⟩
    · exact ⟨⟨name, k, .flush false, false⟩, by simp, rfl, rfl⟩
  once := once
  due w wait there flush running live := by
    rcases getElem?_concat_cases _ _ _ _ there with before | ⟨rfl, rfl⟩
    · exact stays _ w (patient.due w wait before flush running (persist.live live))
    · exact due flush live
  finished w wait ran there flush ended := by
    rcases getElem?_concat_cases _ _ _ _ there with before | ⟨rfl, rfl⟩
    · exact patient.finished w wait ran before flush ended
    · cases ended

theorem Patient.startWait (patient : h.Patient) (name : String) (scope : Nat) (kind : WaitKind)
    (inside : scope < h.scopes.length) (other : ∀ ran, kind ≠ .flush ran) :
    (h.startWait name scope kind).Patient :=
  patient.enlist _ _ name scope kind inside (.refl _) (fun _ _ => .inl) patient.once
    (fun _ _ => id) fun flush => absurd flush (other false)

theorem Patient.flush (patient : h.Patient) (name : String) (scope : Nat)
    (inside : scope < h.scopes.length) : (h.flush name scope).Patient := by
  refine patient.enlist _ _ name scope (.flush false) inside
    (.push scope (.flushed h.waits.length)) ?_ ?_ ?_ ?_
  · intro k w member
    rw [queueAt_push] at member
    split at member
    · rename_i here
      rcases List.mem_append.mp member with old | new
      · exact .inl old
      · cases List.mem_singleton.mp new
        exact .inr ⟨rfl, here.1, rfl⟩
    · exact .inl member
  · intro k w
    rw [queueAt_push]
    split
    · have new : Job.flushed h.waits.length ∉ queueAt h.scopes k := by
        intro member
        obtain ⟨wait, there, -⟩ := patient.reports k _ member
        exact absurd (List.getElem?_eq_some_iff.mp there).1 (Nat.lt_irrefl _)
      change (queueAt h.scopes k ++ [Job.flushed _]).count (Job.flushed w) ≤ 1
      rw [List.count_append, List.count_singleton]
      split
      · rename_i same
        obtain rfl : h.waits.length = w := by simpa using same
        rw [List.count_eq_zero.mpr new]
      · exact patient.once k w
    · exact patient.once k w
  · intro k w member
    rw [queueAt_push]
    split
    · exact List.mem_append_left _ member
    · exact member
  · intro _ live
    have opens := openAt_of_live h.scopes scope inside ((Persist.push scope _).live live)
    rw [queueAt_push, if_pos ⟨rfl, opens⟩]
    exact List.mem_append_right _ List.mem_cons_self

theorem Patient.openDialog (patient : h.Patient) (name : String) (scope : Nat)
    (dialog : Session.NewDialog) : (Session.openDialog h name scope dialog).1.Patient := by
  have dropped : (h.dropDialog name).Patient :=
    patient.edits (fun _ => id) (ample_unreported.dropDialog name)
  have opened (s : Snapshot) (hooks : Hooks Call) : (h.openPrompt name scope s hooks).Patient :=
    dropped.of_eq rfl rfl fun _ => List.mem_cons_of_mem _
  cases dialog with
  | loading => exact dropped.of_eq rfl rfl fun _ => id
  | panel kind visible => cases kind <;> exact dropped.of_eq rfl rfl fun _ => id
  | confirm hooks start =>
      cases start with
      | blank => exact opened _ _
      | snapshot s => exact opened _ _
      | saved bytes =>
          simp only [Session.openDialog]
          split
          · exact opened _ _
          · exact patient

theorem Patient.finish (patient : h.Patient) (task : TaskRef) (outcome : Outcome) :
    (h.finish task outcome).1.Patient := by
  cases task with
  | caller | follower => exact patient
  | work w =>
      simp only [Host.finish]
      split
      · exact patient.of_eq rfl rfl fun _ => id
      · exact patient
  | wait w =>
      simp only [Host.finish]
      split
      · rename_i name scope ended there
        split
        · exact patient
        · refine patient.updateWait w _ [] fun wait found =>
            ⟨rfl, rfl, ?_, fun unrun => (by cases unrun), .inl⟩
          cases there.symm.trans found
          simp
      · exact patient

theorem Patient.act (patient : h.Patient) (sound : h.ledger.Sound) (s : Session.Step) :
    (Session.act h s).1.Patient := by
  have named {α : Type} (found : Option α) (f : α → Host)
      (each : ∀ x, found = some x → (f x).Patient) : (found.elim h f).Patient := by
    cases found with
    | none => exact patient
    | some x => exact each x rfl
  have answered {α β : Type} (found : Option α) (nothing : β) (f : α → Host × β)
      (each : ∀ x, (f x).1.Patient) : (found.elim (h, nothing) f).1.Patient := by
    cases found with
    | none => exact patient
    | some x => exact each x
  cases small : s.edits with
  | true =>
      exact patient.edits (fun _ => id) (ample_unreported.act s small fun c _ =>
        ample_unreported.call c (fun _ _ _ _ _ => rfl) (fun _ _ _ _ _ => rfl) fun _ _ _ _ => trivial)
  | false =>
      cases s with
      | openScope name parent => exact patient.openScope name _
      | openDialog name scope dialog =>
          exact answered _ _ _ fun s => patient.openDialog name s dialog
      | release scope => exact answered _ _ _ fun s => patient.release s
      | flush scope task =>
          exact named _ _ fun s found => patient.flush task s (scope_of_name sound scope s found)
      | whenCancelled scope task =>
          exact named _ _ fun s found =>
            patient.startWait task s _ (scope_of_name sound scope s found) (by simp)
      | spawn scope task =>
          exact named _ _ fun s found =>
            patient.startWait task s _ (scope_of_name sound scope s found) (by simp)
      | finish task outcome => exact answered _ _ _ fun t => patient.finish t outcome
      | _ => cases small

theorem patient_initial : initial.Patient where
  home w wait there := by cases there
  reports scope w member := by
    have empty : queueAt initial.scopes scope = [] := by
      rcases scope with _ | scope <;> rfl
    rw [empty] at member
    cases member
  once scope w := by rcases scope with _ | scope <;> exact Nat.zero_le _
  due w wait there := by cases there
  finished w wait ran there := by cases there

theorem Reachable.patient (reachable : h.Reachable) : h.Patient := by
  induction reachable with
  | refl => exact patient_initial
  | tail before step ih =>
      cases step with
      | act s => exact ih.act (Reachable.ledger before).sound s
      | move m _ taken => exact ih.move m taken

end Host

end ModalHost
