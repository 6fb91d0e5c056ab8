import ModalHost.Proofs.Flushes

/-! The pane of a dialog is what decides whether it is shown, as long as it is only shown and
hidden: its cell, and the calls that wait on its scope. `Pane.Step` lists all that can happen to
it. -/

namespace ModalHost

namespace Cell

variable (c : Cell Bool)

theorem set_cases (b : Bool) :
    c.set b = c ∨ c.set b = ⟨!c.value, c.version + 1⟩ ∧ b = !c.value := by
  obtain ⟨value, version⟩ := c
  cases value <;> cases b <;> simp [set, publish]

theorem value_foldl (bs : List Bool) : (bs.foldl set c).value = bs.getLast?.getD c.value := by
  induction bs generalizing c with
  | nil => rfl
  | cons b bs ih =>
      rw [List.foldl_cons, ih, value_set]
      cases bs with
      | nil => rfl
      | cons e bs => rw [List.getLast?_cons_cons, List.getLast?_cons, Option.getD_some,
          Option.getD_some]

theorem version_foldl_le (bs : List Bool) : c.version ≤ (bs.foldl set c).version := by
  induction bs generalizing c with
  | nil => exact Nat.le_refl _
  | cons b bs ih =>
      refine Nat.le_trans ?_ (ih (c.set b))
      rw [version_set]
      split <;> omega

theorem version_foldl (bs : List Bool) :
    (bs.foldl set c).version ≠ c.version ↔ (!c.value) ∈ bs := by
  induction bs generalizing c with
  | nil => simp
  | cons b bs ih =>
      rw [List.foldl_cons, List.mem_cons]
      by_cases same : c.value = b
      · have rests : c.set b = c := if_pos same
        rw [rests, ih]
        simp [← same]
      · have later := version_foldl_le (c.set b) bs
        rw [version_set, if_neg same] at later
        have other : (!c.value) = b := by
          cases value : c.value <;> cases b <;> simp_all
        exact ⟨fun _ => .inl other, fun _ => by omega⟩

end Cell

namespace Job

/-- Whether a job is to show or to hide a dialog. -/
def asks (d : DialogRef) : Job → Option Bool
  | .setLoading i shown => if d = .loading i then some shown else none
  | .setPanel k shown => if d = .panel k then some shown else none
  | _ => none

/-- Whether a job enters or leaves a level of loading blocks of a dialog. -/
def passes (d : DialogRef) : Job → Bool
  | .enter i _ _ | .leave i _ _ _ => d = .loading i
  | _ => false

/-- Whether a job is a call on a dialog, or reports that those before it have run. -/
def onPane (d : DialogRef) (job : Job) : Bool := (job.asks d).isSome || job.reports

theorem onPane_of_asks {d : DialogRef} {job : Job} {b : Bool} (asks : job.asks d = some b) :
    job.onPane d = true := by
  rw [onPane, asks, Option.isSome_some, Bool.true_or]

end Job

structure Pane where
  /-- The scope of the dialog, and its cell. -/
  place : Option (Nat × Cell Bool)
  /-- The calls on the dialog that wait, and the reports to flushes. -/
  jobs : List Job
  dead : Bool

namespace Pane

variable {d : DialogRef} {P Q R : Pane} {k : Nat} {c : Cell Bool} {asked more : List Bool}
variable {allowed : Job → Prop}

def written (d : DialogRef) (job : Job) (place : Nat × Cell Bool) : Nat × Cell Bool :=
  (place.1, (job.asks d).elim place.2 place.2.set)

inductive Step (d : DialogRef) (allowed : Job → Prop) (P : Pane) : List Bool → Pane → Prop
  | rests : Step d allowed P [] P
  | asked (b : Bool) (job : Job) (asks : job.asks d = some b) (live : P.dead = false) :
      Step d allowed P [b] { P with jobs := P.jobs ++ [job] }
  | lost (b : Bool) (dead : P.dead = true) : Step d allowed P [b] P
  | flushes (w : Nat) (live : P.dead = false) :
      Step d allowed P [] { P with jobs := P.jobs ++ [.flushed w] }
  | cancelled : Step d allowed P [] { P with jobs := [], dead := true }
  | ran (job : Job) (jobs : List Job) (front : P.jobs = job :: jobs) (live : P.dead = false)
      (permitted : allowed job) :
      Step d allowed P [] { P with jobs, place := P.place.map (written d job) }

theorem Step.of_eq (same : Q = P) : Step d allowed P [] Q := by
  rw [same]
  exact .rests

inductive Path (d : DialogRef) (P : Pane) : List Bool → Pane → Prop
  | refl : Path d P [] P
  | tail (asked more : List Bool) (Q R : Pane) (allowed : Job → Prop) (path : Path d P asked Q)
      (step : Step d allowed Q more R) : Path d P (asked ++ more) R

/-- The calls that have been made and not run. -/
def waiting (d : DialogRef) (P : Pane) : List Bool := P.jobs.filterMap (Job.asks d)

theorem Step.frozen (step : Step d allowed P more Q) (dead : P.dead = true) :
    Q.dead = true ∧ Q.place = P.place := by
  cases step with
  | rests | lost => exact ⟨dead, rfl⟩
  | cancelled => exact ⟨rfl, rfl⟩
  | asked _ _ _ live | flushes _ live | ran _ _ _ live _ => cases dead.symm.trans live

theorem Path.frozen (path : Path d P asked Q) (dead : P.dead = true) :
    Q.dead = true ∧ Q.place = P.place := by
  induction path with
  | refl => exact ⟨dead, rfl⟩
  | tail _ _ _ _ _ _ step ih =>
      obtain ⟨still, same⟩ := step.frozen ih.1
      exact ⟨still, same.trans ih.2⟩

theorem Step.alternates (step : Step d allowed P more Q) (place : P.place = some (k, c)) :
    ∃ e, Q.place = some (k, e) ∧ (e = c ∨ e = ⟨!c.value, c.version + 1⟩ ∧
      ∃ job, allowed job ∧ job.asks d = some !c.value) := by
  cases step with
  | rests | asked | lost | flushes | cancelled => exact ⟨c, place, .inl rfl⟩
  | ran job jobs front live permitted =>
      refine ⟨(job.asks d).elim c c.set, by simp [place, written], ?_⟩
      cases asks : job.asks d with
      | none => exact .inl rfl
      | some b =>
          rcases c.set_cases b with same | ⟨written, rfl⟩
          · exact .inl same
          · exact .inr ⟨written, job, permitted, asks⟩

/-- Of the calls on a dialog, those at the front have taken effect, one after the other; on a live
scope, the others wait. -/
def Effects (d : DialogRef) (k : Nat) (c : Cell Bool) (calls : List Bool) (P : Pane) : Prop :=
  ∃ ran rest, ran ++ rest = calls ∧ P.place = some (k, ran.foldl Cell.set c) ∧
    (P.dead = false → rest = P.waiting d)

theorem Effects.start (place : P.place = some (k, c)) : Effects d k c (P.waiting d) P :=
  ⟨[], P.waiting d, rfl, place, fun _ => rfl⟩

theorem Effects.step {calls : List Bool} (effects : Effects d k c calls P)
    (step : Step d allowed P more Q) : Effects d k c (calls ++ more) Q := by
  obtain ⟨ran, rest, all, place, waits⟩ := effects
  cases step with
  | rests => exact ⟨ran, rest, by simpa using all, place, waits⟩
  | asked b job asks live =>
      refine ⟨ran, rest ++ [b], by rw [← List.append_assoc, all], place, fun _ => ?_⟩
      simp [waits live, waiting, asks]
  | lost b dead =>
      refine ⟨ran, rest ++ [b], by rw [← List.append_assoc, all], place, fun live => ?_⟩
      cases dead.symm.trans live
  | flushes w live =>
      refine ⟨ran, rest, by simpa using all, place, fun _ => ?_⟩
      simp [waits live, waiting, Job.asks]
  | cancelled => exact ⟨ran, rest, by simpa using all, place, nofun⟩
  | ran job jobs front live =>
      have queue := waits live
      unfold waiting at queue
      rw [front] at queue
      cases asks : job.asks d with
      | none =>
          rw [List.filterMap_cons_none asks] at queue
          exact ⟨ran, rest, by simpa using all, by simp [place, written, asks], fun _ => queue⟩
      | some b =>
          rw [List.filterMap_cons_some asks] at queue
          refine ⟨ran ++ [b], jobs.filterMap (Job.asks d), ?_, ?_, fun _ => rfl⟩
          · rw [← all, queue]
            simp
          · simp [place, written, asks]

theorem Effects.path {calls : List Bool} (effects : Effects d k c calls P)
    (path : Path d P asked Q) : Effects d k c (calls ++ asked) Q := by
  induction path with
  | refl => rwa [List.append_nil]
  | tail asked more Q R allowed path step ih =>
      rw [← List.append_assoc]
      exact ih.step step

/-- A report to a flush still waits, and behind it what was asked since; or, on a live scope, only
calls wait that were made since. -/
def Fenced (d : DialogRef) (w : Nat) (since : List Bool) (P : Pane) : Prop :=
  (∃ before after, P.dead = false ∧ P.jobs = before ++ .flushed w :: after ∧
      after.filterMap (Job.asks d) = since) ∨
    (P.dead = false → P.waiting d <:+ since)

theorem Fenced.step {w : Nat} {since : List Bool} (fenced : Fenced d w since P)
    (step : Step d allowed P more Q) : Fenced d w (since ++ more) Q := by
  rcases fenced with ⟨before, after, live, queue, behind⟩ | short
  · cases step with
    | rests => exact .inl ⟨before, after, live, queue, by simpa using behind⟩
    | asked b job asks =>
        refine .inl ⟨before, after ++ [job], live, ?_, ?_⟩
        · simp [queue]
        · simp [behind, asks]
    | lost b dead => cases live.symm.trans dead
    | flushes v =>
        refine .inl ⟨before, after ++ [.flushed v], live, ?_, ?_⟩
        · simp [queue]
        · simp [behind, Job.asks]
    | cancelled => exact .inr nofun
    | ran job jobs front =>
        rw [List.append_nil]
        rw [front] at queue
        cases before with
        | nil =>
            obtain ⟨-, rfl⟩ := List.cons.inj queue
            exact .inr fun _ => ⟨[], behind⟩
        | cons _ before =>
            obtain ⟨-, rfl⟩ := List.cons.inj queue
            exact .inl ⟨before, after, live, rfl, behind⟩
  · right
    intro live
    cases step with
    | rests => simpa using short live
    | asked b job asks =>
        obtain ⟨earlier, all⟩ := short live
        exact ⟨earlier, by simp [← all, waiting, asks]⟩
    | lost b dead => cases dead.symm.trans live
    | flushes v => simpa [waiting, List.filterMap_cons, Job.asks] using short live
    | cancelled => cases live
    | ran job jobs front =>
        have least := short live
        unfold waiting at least ⊢
        rw [front] at least
        rw [List.append_nil]
        cases asks : job.asks d with
        | none => rwa [List.filterMap_cons_none asks] at least
        | some b =>
            rw [List.filterMap_cons_some asks] at least
            exact (List.suffix_cons b _).trans least

theorem Fenced.path {w : Nat} {since : List Bool} (fenced : Fenced d w since P)
    (path : Path d P asked Q) : Fenced d w (since ++ asked) Q := by
  induction path with
  | refl => rwa [List.append_nil]
  | tail asked more Q R allowed path step ih =>
      rw [← List.append_assoc]
      exact ih.step step

/-- Once the report is gone from a live scope, all calls that were made before it have taken
effect. -/
theorem Fenced.effects {w : Nat} {earlier since : List Bool} (fenced : Fenced d w since P)
    (effects : Effects d k c (earlier ++ since) P) (live : P.dead = false)
    (reported : .flushed w ∉ P.jobs) :
    ∃ later, later <+: since ∧ P.place = some (k, (earlier ++ later).foldl Cell.set c) := by
  have short : P.waiting d <:+ since := by
    rcases fenced with ⟨before, after, -, queue, -⟩ | short
    · simp [queue] at reported
    · exact short live
  obtain ⟨later, all⟩ := short
  obtain ⟨ran, rest, calls, place, waits⟩ := effects
  rw [waits live, ← all, ← List.append_assoc] at calls
  exact ⟨later, ⟨_, all⟩, List.append_cancel_right calls ▸ place⟩

end Pane

end ModalHost
