import ModalHost.Host.Scope
import ModalHost.Proofs.Lists

/-! The queues of a host by the number of their scope: what launches, dispatches, cancellations and
new scopes make of them, and of those of their jobs that somebody has an eye on. -/

namespace ModalHost

/-- The jobs that are queued on a scope; there are none on a scope that is not there. -/
def queueAt (scopes : List Scope) (k : Nat) : List Job := (scopes[k]?.map (·.queue)).getD []

def cancelledAt (scopes : List Scope) (k : Nat) : Bool := scopes[k]?.any (·.cancelled)

def openAt (scopes : List Scope) (k : Nat) : Bool := scopes[k]?.any (!·.cancelled)

variable (scopes later : List Scope) (k : Nat)

theorem openAt_of_live (inside : k < scopes.length) (live : cancelledAt scopes k = false) :
    openAt scopes k = true := by
  unfold cancelledAt at live
  unfold openAt
  rw [List.getElem?_eq_getElem inside] at live ⊢
  simpa using live

theorem shut_of_dead (dead : cancelledAt scopes k = true) : openAt scopes k = false := by
  unfold cancelledAt at dead
  unfold openAt
  cases found : scopes[k]? with
  | none => rfl
  | some s =>
      rw [found, Option.any_some] at dead
      simp [dead]

theorem queueAt_of_front (lineage : List Nat) (job : Job) (jobs : List Job)
    (front : scopes[k]? = some ⟨lineage, false, job :: jobs⟩) :
    queueAt scopes k = job :: jobs ∧ cancelledAt scopes k = false := by
  simp [queueAt, cancelledAt, front]

theorem queueAt_push (home : Nat) (job : Job) :
    queueAt (scopes.modify home (·.push job)) k =
      if k = home ∧ openAt scopes home = true then queueAt scopes k ++ [job]
      else queueAt scopes k := by
  by_cases same : k = home
  · subst same
    simp only [queueAt, openAt, List.getElem?_modify_eq, true_and]
    cases scopes[k]? with
    | none => rfl
    | some s => cases dead : s.cancelled <;> simp [Scope.push, dead]
  · simp [queueAt, same, Ne.symm same]

theorem openAt_push (home : Nat) (job : Job) :
    openAt (scopes.modify home (·.push job)) k = openAt scopes k := by
  by_cases same : k = home
  · subst same
    simp only [openAt, List.getElem?_modify_eq]
    cases scopes[k]? with
    | none => rfl
    | some s => cases dead : s.cancelled <;> simp [Scope.push, dead]
  · simp [openAt, Ne.symm same]

def pushAll (scopes : List Scope) (home : Nat) (jobs : List Job) : List Scope :=
  jobs.foldl (fun scopes job => scopes.modify home (·.push job)) scopes

theorem queueAt_pushAll (home : Nat) (jobs : List Job) :
    queueAt (pushAll scopes home jobs) k =
      if k = home ∧ openAt scopes home = true then queueAt scopes k ++ jobs
      else queueAt scopes k := by
  induction jobs generalizing scopes with
  | nil => simp [pushAll]
  | cons job jobs ih =>
      change queueAt (pushAll (scopes.modify home (·.push job)) home jobs) k = _
      rw [ih, openAt_push, queueAt_push]
      split
      · rw [List.append_assoc, List.singleton_append]
      · rfl

theorem pushAll_dead (home : Nat) (jobs : List Job) (dead : cancelledAt scopes home = true) :
    pushAll scopes home jobs = scopes := by
  have dropped (job : Job) : scopes.modify home (·.push job) = scopes := by
    apply modify_eq_self
    intro s found
    rw [cancelledAt, found, Option.any_some] at dead
    rw [Scope.push, if_pos dead]
  induction jobs with
  | nil => rfl
  | cons job jobs ih =>
      change pushAll (scopes.modify home (·.push job)) home jobs = scopes
      rw [dropped, ih]

theorem flags_pushAll (home : Nat) (jobs : List Job) :
    (pushAll scopes home jobs).map (·.cancelled) = scopes.map (·.cancelled) := by
  induction jobs generalizing scopes with
  | nil => rfl
  | cons job jobs ih =>
      have pushed : (scopes.modify home (·.push job)).map (·.cancelled) = scopes.map (·.cancelled) :=
        map_modify_invisible _ _ home scopes fun s => by
          unfold Scope.push
          split <;> rfl
      exact (ih (scopes.modify home (·.push job))).trans pushed

theorem queueAt_pop (home : Nat) (jobs : List Job) (inside : home < scopes.length) :
    queueAt (scopes.modify home fun s => { s with queue := jobs }) k =
      if k = home then jobs else queueAt scopes k := by
  by_cases same : k = home
  · subst same
    simp [queueAt, List.getElem?_eq_getElem inside]
  · simp [queueAt, same, Ne.symm same]

theorem queueAt_cancel (root : Nat) :
    queueAt (scopes.map (·.cancelBy root)) k = [] ∨
      queueAt (scopes.map (·.cancelBy root)) k = queueAt scopes k := by
  simp only [queueAt, List.getElem?_map]
  cases scopes[k]? with
  | none => exact .inl rfl
  | some s =>
      by_cases below : s.lineage.contains root = true
      · left
        simp only [Option.map_some, Option.getD_some, Scope.cancelBy, below, if_true]
      · exact .inr (by simp only [Option.map_some, Option.getD_some, Scope.cancelBy, if_neg below])

theorem queueAt_cancel_live (root : Nat)
    (live : cancelledAt (scopes.map (·.cancelBy root)) k = false) :
    queueAt (scopes.map (·.cancelBy root)) k = queueAt scopes k := by
  simp only [queueAt, cancelledAt, List.getElem?_map] at live ⊢
  cases found : scopes[k]? with
  | none => rfl
  | some s =>
      rw [found, Option.map_some, Option.any_some] at live
      rw [Option.map_some, Option.map_some, Option.map_some]
      unfold Scope.cancelBy at live ⊢
      split at live
      · simp at live
      · rename_i apart
        rw [if_neg apart]

theorem queueAt_branch (lineage : List Nat) (cancelled : Bool) :
    queueAt (scopes ++ [⟨lineage, cancelled, []⟩]) k = queueAt scopes k := by
  simp only [queueAt, List.getElem?_append]
  split
  · rfl
  · rename_i beyond
    rw [List.getElem?_eq_none (l := scopes) (by omega)]
    cases at_end : k - scopes.length with
    | zero => rfl
    | succ n => rfl

def Persist (scopes later : List Scope) : Prop :=
  ∀ (k : Nat) (s : Scope), scopes[k]? = some s →
    ∃ t, later[k]? = some t ∧ (s.cancelled = true → t.cancelled = true)

namespace Persist

variable {scopes later}

theorem refl (scopes : List Scope) : Persist scopes scopes :=
  fun _ s found => ⟨s, found, id⟩

theorem trans {last : List Scope} (first : Persist scopes later) (second : Persist later last) :
    Persist scopes last := by
  intro k s found
  obtain ⟨t, there, kept⟩ := first k s found
  obtain ⟨u, here, still⟩ := second k t there
  exact ⟨u, here, fun dead => still (kept dead)⟩

theorem length_le (persist : Persist scopes later) : scopes.length ≤ later.length := by
  by_contra shorter
  have inside : later.length < scopes.length := by omega
  obtain ⟨t, there, -⟩ := persist later.length _ (List.getElem?_eq_getElem inside)
  rw [List.getElem?_eq_none (Nat.le_refl _)] at there
  cases there

theorem live (persist : Persist scopes later) {k : Nat} (alive : cancelledAt later k = false) :
    cancelledAt scopes k = false := by
  unfold cancelledAt at alive ⊢
  cases found : scopes[k]? with
  | none => rfl
  | some s =>
      obtain ⟨t, there, kept⟩ := persist k s found
      rw [there, Option.any_some] at alive
      rw [Option.any_some]
      apply Bool.eq_false_iff.mpr
      intro dead
      rw [kept dead] at alive
      cases alive

theorem dead (persist : Persist scopes later) {k : Nat} (cancelled : cancelledAt scopes k = true) :
    cancelledAt later k = true := by
  by_contra alive
  rw [Bool.not_eq_true] at alive
  rw [persist.live alive] at cancelled
  cases cancelled

theorem modify (home : Nat) (f : Scope → Scope) (same : ∀ s, (f s).cancelled = s.cancelled) :
    Persist scopes (scopes.modify home f) := by
  intro k s found
  rw [List.getElem?_modify, found]
  refine ⟨_, rfl, ?_⟩
  intro dead
  dsimp only
  split
  · rw [same, dead]
  · exact dead

theorem push (home : Nat) (job : Job) : Persist scopes (scopes.modify home (·.push job)) := by
  apply modify
  intro s
  unfold Scope.push
  split <;> rfl

theorem pushAll (home : Nat) (jobs : List Job) :
    Persist scopes (ModalHost.pushAll scopes home jobs) := by
  induction jobs generalizing scopes with
  | nil => exact .refl scopes
  | cons job jobs ih => exact (push home job).trans ih

theorem pop (home : Nat) (jobs : List Job) :
    Persist scopes (scopes.modify home fun s => { s with queue := jobs }) :=
  modify home _ fun _ => rfl

theorem cancel (root : Nat) : Persist scopes (scopes.map (·.cancelBy root)) := by
  intro k s found
  refine ⟨s.cancelBy root, by simp [found], ?_⟩
  intro dead
  unfold Scope.cancelBy
  split
  · rfl
  · exact dead

theorem branch (s : Scope) : Persist scopes (scopes ++ [s]) := by
  intro k t found
  refine ⟨t, ?_, id⟩
  rw [List.getElem?_append_left (List.getElem?_eq_some_iff.mp found).1, found]

end Persist

namespace Scope

def sift (keep : Job → Bool) (s : Scope) : Scope := { s with queue := s.queue.filter keep }

variable (keep : Job → Bool)

theorem sift_push (s : Scope) (job : Job) (kept : keep job = true) :
    (s.push job).sift keep = (s.sift keep).push job := by
  unfold push
  cases dead : s.cancelled <;> simp [sift, kept, dead]

theorem sift_push_other (s : Scope) (job : Job) (other : keep job = false) :
    (s.push job).sift keep = s.sift keep := by
  unfold push
  cases dead : s.cancelled <;> simp [sift, other, dead]

theorem sift_cancelBy (root : Nat) (s : Scope) :
    (s.cancelBy root).sift keep = (s.sift keep).cancelBy root := by
  unfold cancelBy
  by_cases below : s.lineage.contains root = true <;> simp_all [sift]

theorem sift_openHold (blind : ∀ opened, keep (.hold opened) = false) (jobs opened : List Job)
    (found : openHold jobs = some opened) : opened.filter keep = jobs.filter keep := by
  fun_induction openHold jobs generalizing opened with
  | case1 => simp at found
  | case2 jobs =>
      obtain rfl : .hold true :: jobs = opened := Option.some.inj found
      simp [blind]
  | case3 job jobs _ ih =>
      rcases Option.map_eq_some_iff.mp found with ⟨rest, opens, rfl⟩
      simp only [List.filter_cons, ih rest opens]

end Scope

theorem queueAt_sift (keep : Job → Bool) :
    queueAt (scopes.map (·.sift keep)) k = (queueAt scopes k).filter keep := by
  simp only [queueAt, List.getElem?_map]
  cases scopes[k]? <;> rfl

theorem cancelledAt_sift (keep : Job → Bool) :
    cancelledAt (scopes.map (·.sift keep)) k = cancelledAt scopes k := by
  simp only [cancelledAt, List.getElem?_map]
  cases scopes[k]? <;> rfl

end ModalHost
