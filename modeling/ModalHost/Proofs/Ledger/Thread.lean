import ModalHost.Proofs.Ledger.Mooring

/-! The thread of a work is the part of a ledger that is about the work alone. While the scope of its
loading dialog is live, each of its calls enters once, and leaves once when it is through. -/

namespace ModalHost

def Job.of (w : Nat) (job : Job) : Bool := job.passage?.any (·.1.1 == w)

def Event.of (w : Nat) (e : Event) : Bool := e.passage?.any (·.1.1 == w)

def own (call : Nat × Nat) (entries : List ((Nat × Nat) × Passage)) : List Passage :=
  entries.filterMap fun entry => if entry.1 = call then some entry.2 else none

theorem own_append (call : Nat × Nat) (before after : List ((Nat × Nat) × Passage)) :
    own call (before ++ after) = own call before ++ own call after :=
  List.filterMap_append

theorem own_filter {α : Type} (view : α → Option ((Nat × Nat) × Passage)) (keep : α → Bool)
    (call : Nat × Nat)
    (seen : ∀ x passage, view x = some (call, passage) → keep x = true) (xs : List α) :
    own call ((xs.filter keep).filterMap view) = own call (xs.filterMap view) := by
  induction xs with
  | nil => rfl
  | cons x xs ih =>
      unfold own at ih ⊢
      cases kept : keep x with
      | true =>
          rw [List.filter_cons_of_pos kept]
          cases shown : view x with
          | none => simp [shown, ih]
          | some entry => simp only [List.filterMap_cons, shown, ih]
      | false =>
          rw [List.filter_cons_of_neg (by simp [kept]), ih]
          cases shown : view x with
          | none => simp [shown]
          | some entry =>
              have apart : entry.1 ≠ call := by
                intro same
                rw [seen x entry.2 (by rw [shown, ← same])] at kept
                cases kept
              simp [shown, apart]

namespace Work

def told (work : Work) : Job → Work
  | .enter _ _ level => work.entered level
  | .leave _ _ level true => work.left level
  | _ => work

/-- The levels that a work can be at. It leaves its levels with a value. -/
def Staged (work : Work) : Prop :=
  match work.stage with
  | .entering level _ => 1 ≤ level ∧ level ≤ work.depth
  | .inside | .ended => True
  | .leaving level _ =>
    1 ≤ level ∧ level ≤ work.depth ∧ ∃ text, work.outcome = some (.value text)

/-- The outermost `reach` levels of a work have been started. -/
def Reaches (work : Work) (reach : Nat) : Prop :=
  match work.stage with
  | .entering level _ => reach = level
  | .inside | .leaving _ _ => reach = work.depth
  | .ended => reach ≤ work.depth

/-- What the call at a level has queued when `reach` levels have been started, and the outermost
`armed` of these are not left yet. -/
def expected (reach armed level : Nat) : List Passage :=
  (if 1 ≤ level ∧ level ≤ reach then [.enter] else []) ++
    if armed < level ∧ level ≤ reach then [.leave] else []

theorem expected_held (reach armed level : Nat) (outermost : 1 ≤ level) (held : level ≤ armed)
    (started : armed ≤ reach) : expected reach armed level = [.enter] := by
  unfold expected
  rw [if_pos ⟨outermost, by omega⟩, if_neg (by omega), List.append_nil]

theorem expected_through (reach armed level : Nat) (left : armed < level)
    (started : level ≤ reach) : expected reach armed level = [.enter, .leave] := by
  unfold expected
  rw [if_pos ⟨by omega, started⟩, if_pos ⟨left, started⟩]
  rfl

theorem expected_beyond (reach armed level : Nat) (beyond : reach < level) :
    expected reach armed level = [] := by
  unfold expected
  rw [if_neg (by omega), if_neg (by omega), List.append_nil]

theorem expected_none (level : Nat) : expected 0 0 level = [] := by
  unfold expected
  rw [if_neg (by omega), if_neg (by omega), List.append_nil]

theorem expected_enter (w reach level : Nat) :
    expected reach reach level ++ own (w, level) [((w, reach + 1), .enter)] =
      expected (reach + 1) (reach + 1) level := by
  have inside : ¬(reach < level ∧ level ≤ reach) := by omega
  have further : ¬(reach + 1 < level ∧ level ≤ reach + 1) := by omega
  unfold expected own
  rw [if_neg inside, if_neg further, List.append_nil, List.append_nil]
  by_cases here : reach + 1 = level
  · have before : ¬(1 ≤ level ∧ level ≤ reach) := by omega
    have now : 1 ≤ level ∧ level ≤ reach + 1 := by omega
    rw [if_neg before, if_pos now]
    simp [here]
  · have same : (1 ≤ level ∧ level ≤ reach + 1) ↔ 1 ≤ level ∧ level ≤ reach := by omega
    simp [same, here]

theorem expected_leave (w reach armed level : Nat) (started : armed < reach) :
    expected reach (armed + 1) level ++ own (w, level) [((w, armed + 1), .leave)] =
      expected reach armed level := by
  unfold expected own
  rw [List.append_assoc]
  congr 1
  by_cases here : armed + 1 = level
  · have before : ¬(armed + 1 < level ∧ level ≤ reach) := by omega
    have now : armed < level ∧ level ≤ reach := by omega
    rw [if_neg before, if_pos now]
    simp [here]
  · have same : (armed < level ∧ level ≤ reach) ↔ armed + 1 < level ∧ level ≤ reach := by omega
    simp [same, here]

theorem expected_leaves (loading w reach armed level : Nat) (started : armed ≤ reach) :
    expected reach armed level ++
        own (w, level) ((leaves loading w armed).filterMap Job.passage?) =
      expected reach 0 level := by
  induction armed with
  | zero => exact List.append_nil _
  | succ armed ih =>
      have first : (leaves loading w (armed + 1)).filterMap Job.passage? =
          [((w, armed + 1), Passage.leave)] ++ (leaves loading w armed).filterMap Job.passage? :=
        rfl
      rw [first, own_append, ← List.append_assoc, expected_leave w reach armed level started]
      exact ih (by omega)

theorem armed_le_reach {work : Work} {reach : Nat} (staged : work.Staged)
    (reaches : work.Reaches reach) : work.armed ≤ reach ∧ reach ≤ work.depth := by
  unfold Staged at staged
  unfold Reaches at reaches
  unfold armed
  cases stage : work.stage <;> simp only [stage] at staged reaches ⊢ <;> omega

end Work

structure Thread where
  work : Work
  /-- The enters and leaves of the work that have run, the latest first. -/
  ran : List Event
  /-- Those that are still queued. -/
  waiting : List Job

namespace Thread

inductive Step (w : Nat) (t : Thread) : Thread → Prop
  | rested : Step w t t
  | given (can : t.work.canFinish = true) (outcome : Outcome) :
      Step w t { t with work := { t.work with outcome := some outcome } }
  | ran (job : Job) (jobs : List Job) (front : t.waiting = job :: jobs) (e : Event)
      (same : e.passage? = job.passage?) : Step w t ⟨t.work.told job, e :: t.ran, jobs⟩
  | proceeded (stage : Stage) (jobs : List Job) (how : t.work.Proceeds w false stage jobs) :
      Step w t ⟨{ t.work with stage }, t.ran, t.waiting ++ jobs⟩

def trace (t : Thread) : List ((Nat × Nat) × Passage) :=
  t.ran.reverse.filterMap Event.passage? ++ t.waiting.filterMap Job.passage?

def Waits (w : Nat) (t : Thread) : Prop :=
  match t.work.stage with
  | .entering level false => .enter t.work.loading w level ∈ t.waiting
  | .leaving level false => .leave t.work.loading w level true ∈ t.waiting
  | _ => True

structure Sane (w : Nat) (t : Thread) : Prop where
  staged : t.work.Staged
  waits : t.Waits w
  calls : ∃ reach, t.work.Reaches reach ∧
    ∀ level, own (w, level) t.trace = Work.expected reach t.work.armed level

variable {w : Nat} {t u : Thread}

theorem trace_ran (job : Job) (jobs : List Job) (front : t.waiting = job :: jobs) (e : Event)
    (same : e.passage? = job.passage?) (work : Work) :
    trace ⟨work, e :: t.ran, jobs⟩ = t.trace := by
  unfold trace
  rw [front, List.reverse_cons, List.filterMap_append, List.append_assoc]
  congr 1
  cases passed : job.passage? <;> simp [same, passed]

theorem trace_proceeded (jobs : List Job) (work : Work) :
    trace ⟨work, t.ran, t.waiting ++ jobs⟩ = t.trace ++ jobs.filterMap Job.passage? := by
  unfold trace
  rw [List.filterMap_append, List.append_assoc]

theorem Step.trace_grows (step : t.Step w u) : t.trace <+: u.trace := by
  cases step with
  | rested => exact List.prefix_rfl
  | given => exact List.prefix_rfl
  | ran job jobs front e same =>
      exact ⟨[], (List.append_nil _).trans (trace_ran job jobs front e same _).symm⟩
  | proceeded stage jobs =>
      rw [trace_proceeded]
      exact List.prefix_append _ _

end Thread

namespace Work

variable (work : Work) (job : Job)

theorem told_stage : (work.told job).stage = work.stage ∨
    (∃ level, work.stage = .entering level false ∧ (work.told job).stage = .entering level true) ∨
      ∃ level, work.stage = .leaving level false ∧ (work.told job).stage = .leaving level true := by
  cases job with
  | enter i w level =>
      unfold told entered
      dsimp only
      split
      · rename_i waits
        exact .inr (.inl ⟨level, waits, rfl⟩)
      · exact .inl rfl
  | leave i w level awaited =>
      cases awaited with
      | true =>
          unfold told left
          dsimp only
          split
          · rename_i waits
            exact .inr (.inr ⟨level, waits, rfl⟩)
          · exact .inl rfl
      | false => exact .inl rfl
  | _ => exact .inl rfl

theorem told_frame : (work.told job).loading = work.loading ∧
    (work.told job).depth = work.depth ∧ (work.told job).outcome = work.outcome := by
  unfold told entered left
  split
  · split <;> exact ⟨rfl, rfl, rfl⟩
  · split <;> exact ⟨rfl, rfl, rfl⟩
  · exact ⟨rfl, rfl, rfl⟩

theorem told_armed : (work.told job).armed = work.armed := by
  obtain ⟨-, depth, -⟩ := work.told_frame job
  unfold armed
  obtain same | ⟨level, before, after⟩ | ⟨level, before, after⟩ := work.told_stage job
  · rw [same, depth]
  · rw [before, after]
  · rw [before, after]

theorem Staged.told {work : Work} (staged : work.Staged) (job : Job) : (work.told job).Staged := by
  obtain ⟨-, depth, outcome⟩ := work.told_frame job
  unfold Staged at staged ⊢
  rw [depth, outcome]
  obtain same | ⟨level, before, after⟩ | ⟨level, before, after⟩ := work.told_stage job
  · rw [same]
    exact staged
  · rw [before] at staged
    rw [after]
    exact staged
  · rw [before] at staged
    rw [after]
    exact staged

theorem Reaches.told {work : Work} {reach : Nat} (reaches : work.Reaches reach) (job : Job) :
    (work.told job).Reaches reach := by
  obtain ⟨-, depth, -⟩ := work.told_frame job
  unfold Reaches at reaches ⊢
  rw [depth]
  obtain same | ⟨level, before, after⟩ | ⟨level, before, after⟩ := work.told_stage job
  · rw [same]
    exact reaches
  · rw [before] at reaches
    rw [after]
    exact reaches
  · rw [before] at reaches
    rw [after]
    exact reaches

theorem Staged.given {work : Work} (staged : work.Staged) (can : work.canFinish = true)
    (outcome : Outcome) : { work with outcome := some outcome : Work }.Staged := by
  unfold Staged at staged ⊢
  unfold canFinish at can
  cases stage : work.stage with
  | entering level done => simpa [stage] using staged
  | inside => trivial
  | leaving level done => simp [stage] at can
  | ended => trivial

/-- A work goes on to a level that it can be at, and queues the jobs that make up for the levels that
it starts or leaves. -/
theorem Proceeds.calls {work : Work} {w : Nat} {stage : Stage} {jobs : List Job}
    (how : work.Proceeds w false stage jobs) (staged : work.Staged) (reach : Nat)
    (reaches : work.Reaches reach) :
    { work with stage : Work }.Staged ∧ ∃ further, { work with stage : Work }.Reaches further ∧
      ∀ level, expected reach work.armed level ++ own (w, level) (jobs.filterMap Job.passage?) =
        expected further { work with stage : Work }.armed level := by
  have room := armed_le_reach staged reaches
  cases how with
  | deeper level done before through deeper =>
      simp only [Staged, Reaches, before] at staged reaches
      subst reaches
      refine ⟨⟨Nat.le_add_left 1 reach, Nat.succ_le_of_lt deeper⟩, reach + 1, rfl, ?_⟩
      intro other
      have armed : work.armed = reach := by rw [Work.armed, before]
      rw [armed]
      exact expected_enter w reach other
  | begun level done before through full =>
      simp only [Staged, Reaches, before] at staged reaches
      subst reaches
      refine ⟨trivial, work.depth, rfl, ?_⟩
      intro other
      have armed : work.armed = reach := by rw [Work.armed, before]
      have all : reach = work.depth := by omega
      rw [armed, all]
      exact List.append_nil _
  | outward level text given before =>
      have full : reach = work.depth ∧ level + 1 ≤ work.depth ∧ work.armed = level + 1 := by
        unfold Staged at staged
        unfold Reaches at reaches
        unfold armed
        obtain ⟨inside, innermost⟩ | ⟨done, leaving, -⟩ := before
        · rw [inside] at reaches ⊢
          exact ⟨reaches, by omega, innermost.symm⟩
        · rw [leaving] at staged reaches ⊢
          exact ⟨reaches, by omega, rfl⟩
      obtain ⟨all, inner, armed⟩ := full
      refine ⟨⟨Nat.le_add_left 1 level, inner, text, given⟩, reach, all, ?_⟩
      intro other
      rw [armed]
      exact expected_leave w reach level other (by omega)
  | returned text given before =>
      have full : reach = work.depth ∧ work.armed = 0 := by
        unfold Reaches at reaches
        unfold armed
        obtain ⟨inside, bare⟩ | ⟨level, done, outermost, leaving, -⟩ := before
        · rw [inside] at reaches ⊢
          exact ⟨reaches, bare⟩
        · rw [leaving] at reaches ⊢
          exact ⟨reaches, Nat.sub_eq_zero_of_le outermost⟩
      obtain ⟨all, armed⟩ := full
      refine ⟨trivial, reach, Nat.le_of_eq all, ?_⟩
      intro other
      rw [armed]
      exact List.append_nil _
  | dropped waits =>
      refine ⟨trivial, reach, room.2, ?_⟩
      intro other
      exact expected_leaves work.loading w reach work.armed other room.1

end Work

namespace Thread

variable {w : Nat} {t u : Thread}

theorem Waits.told (waits : t.Waits w) (job : Job) (jobs : List Job)
    (front : t.waiting = job :: jobs) (ran : List Event) :
    Waits w ⟨t.work.told job, ran, jobs⟩ := by
  obtain ⟨loading, -, -⟩ := t.work.told_frame job
  unfold Waits at waits ⊢
  dsimp only
  obtain same | ⟨level, -, after⟩ | ⟨level, -, after⟩ := t.work.told_stage job
  · rw [front] at waits
    rw [same, loading]
    cases stage : t.work.stage with
    | entering level done =>
        cases done with
        | true => trivial
        | false =>
            simp only [stage] at waits ⊢
            rcases List.mem_cons.mp waits with rfl | later
            · simp [Work.told, Work.entered, stage] at same
            · exact later
    | leaving level done =>
        cases done with
        | true => trivial
        | false =>
            simp only [stage] at waits ⊢
            rcases List.mem_cons.mp waits with rfl | later
            · simp [Work.told, Work.left, stage] at same
            · exact later
    | inside => trivial
    | ended => trivial
  · rw [after]
    trivial
  · rw [after]
    trivial

theorem Step.sane (step : t.Step w u) (sane : t.Sane w) : u.Sane w := by
  obtain ⟨staged, waits, reach, reaches, calls⟩ := sane
  cases step with
  | rested => exact ⟨staged, waits, reach, reaches, calls⟩
  | given can outcome => exact ⟨staged.given can outcome, waits, reach, reaches, calls⟩
  | ran job jobs front e same =>
      refine ⟨staged.told job, waits.told job jobs front _, reach, reaches.told job, ?_⟩
      intro level
      rw [trace_ran job jobs front e same, Work.told_armed]
      exact calls level
  | proceeded stage jobs how =>
      obtain ⟨next, further, reached, made⟩ := how.calls staged reach reaches
      refine ⟨next, ?_, further, reached, ?_⟩
      · cases how with
        | deeper => exact List.mem_append_right _ List.mem_cons_self
        | outward => exact List.mem_append_right _ List.mem_cons_self
        | begun => trivial
        | returned => trivial
        | dropped => trivial
      · intro level
        rw [trace_proceeded, own_append, calls level]
        exact made level

end Thread

end ModalHost
