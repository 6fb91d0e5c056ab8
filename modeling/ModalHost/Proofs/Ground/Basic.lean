import ModalHost.Proofs.Ground.Tree
import ModalHost.Proofs.Queues
import Mathlib.Logic.Relation

/-! The ground of a host is what its dialogs stand on: the tree of scopes with the cancellations in
it, and the panels with their jobs. `Ground.Step` lists all that can happen to it. -/

namespace ModalHost

def Job.ofPanel : Job → Bool
  | .setPanel _ _ => true
  | _ => false

/-- Cancellations, and the ends of callers that a cancellation brings about. -/
def Event.ofCancellation : Event → Bool
  | .cancelled _ | .ended (.caller _) _ .cancelled => true
  | _ => false

structure Ground where
  /-- All scopes, each with those of its jobs that are about panels. -/
  scopes : List Scope
  panels : List Panel
  /-- The cancellations and the callers they ended, the latest first. -/
  log : List Event

namespace Ground

def setQueue (γ : Ground) (scope : Nat) (queue : List Job) : Ground :=
  { γ with scopes := γ.scopes.modify scope fun s => { s with queue } }

inductive Step (mayEnd : Prop) (γ : Ground) : Ground → Prop
  | cancelled (root : Nat) (inside : root < γ.scopes.length) :
      Step mayEnd γ { γ with
        scopes := γ.scopes.map (·.cancelBy root)
        log := .cancelled root :: γ.log }
  | branched (s : Scope) (parent : Option Nat) (fresh : s.queue = [])
      (place : (s.lineage, s.cancelled) = (treeOf γ.scopes).branch parent) :
      Step mayEnd γ { γ with scopes := γ.scopes ++ [s] }
  | opened (kind : PanelKind) (scope : Nat) (visible : Bool) (inside : scope < γ.scopes.length) :
      Step mayEnd γ { γ with panels := γ.panels ++ [.new kind scope visible] }
  | tended (k : Nat) (handle : Bool) :
      Step mayEnd γ { γ with panels := γ.panels.modify k fun p => { p with handle } }
  | toggled (k : Nat) (p : Panel) (found : γ.panels[k]? = some p) (shown : Bool) :
      Step mayEnd γ { γ with scopes := γ.scopes.modify p.scope (·.push (.setPanel k shown)) }
  | ran (scope : Nat) (lineage : List Nat) (k : Nat) (shown : Bool) (jobs : List Job)
      (front : γ.scopes[scope]? = some ⟨lineage, false, .setPanel k shown :: jobs⟩) :
      Step mayEnd γ { γ.setQueue scope jobs with
        panels := γ.panels.modify k (·.setShown shown) }
  | ended (may : mayEnd) (c : Nat) (name : String) :
      Step mayEnd γ { γ with log := .ended (.caller c) name .cancelled :: γ.log }

variable {mayEnd : Prop} {γ δ : Ground}

theorem Step.weaken (step : Step False γ δ) : Step mayEnd γ δ := by
  cases step with
  | cancelled root inside => exact .cancelled root inside
  | branched s parent fresh place => exact .branched s parent fresh place
  | opened kind scope visible inside => exact .opened kind scope visible inside
  | tended k handle => exact .tended k handle
  | toggled k p found shown => exact .toggled k p found shown
  | ran scope lineage k shown jobs front => exact .ran scope lineage k shown jobs front
  | ended may c name => exact may.elim

def Path (mayEnd : Prop) : Ground → Ground → Prop := Relation.ReflTransGen (Step mayEnd)

theorem Path.of_eq (same : δ = γ) : Path mayEnd γ δ := by
  rw [same]
  exact .refl

theorem Path.weaken (path : Path False γ δ) : Path mayEnd γ δ :=
  Relation.ReflTransGen.mono (fun _ _ step => Step.weaken step) _ _ path

def blank : Ground := ⟨[⟨[0], false, []⟩], [], []⟩

/-- What a ground keeps to: its scopes form a tree that shows what was cancelled, panels are on
scopes that are there, and the jobs of a panel are queued on its scope. -/
structure Firm (γ : Ground) : Prop where
  rooted : Tree.Rooted (treeOf γ.scopes) γ.log
  homes (k : Nat) (p : Panel) : γ.panels[k]? = some p → p.scope < γ.scopes.length
  jobs (scope k : Nat) (shown : Bool) : .setPanel k shown ∈ queueAt γ.scopes scope →
    ∃ p, γ.panels[k]? = some p ∧ p.scope = scope

theorem firm_blank : Firm blank where
  rooted := {
    lineage k node found := by
      cases k with
      | zero =>
          cases found
          exact .inl rfl
      | succ k => cases found
    known root happened := (List.not_mem_nil happened).elim
    dead k node found := by
      cases k with
      | zero =>
          cases found
          simp [blank]
      | succ k => cases found }
  homes k p found := by cases found
  jobs scope k shown member := by
    cases scope <;> exact (List.not_mem_nil member).elim

theorem Step.panel_stays (step : Step mayEnd γ δ) (k : Nat) (p : Panel)
    (found : γ.panels[k]? = some p) : ∃ q, δ.panels[k]? = some q ∧ q.scope = p.scope := by
  cases step with
  | opened kind scope visible =>
      exact ⟨p, by rw [List.getElem?_append_left (List.getElem?_eq_some_iff.mp found).1, found],
        rfl⟩
  | tended j handle =>
      exact stays_modify (fun p => { p with handle }) Panel.scope (fun _ => rfl) _ j k p found
  | ran scope lineage j shown =>
      exact stays_modify (·.setShown shown) Panel.scope (fun _ => rfl) _ j k p found
  | cancelled | branched | toggled | ended => exact ⟨p, found, rfl⟩

theorem Step.job_origin (step : Step mayEnd γ δ) (scope k : Nat) (shown : Bool)
    (member : .setPanel k shown ∈ queueAt δ.scopes scope) :
    .setPanel k shown ∈ queueAt γ.scopes scope ∨
      ∃ p, γ.panels[k]? = some p ∧ p.scope = scope := by
  cases step with
  | cancelled root inside =>
      rcases queueAt_cancel γ.scopes scope root with gone | same
      · rw [gone] at member
        exact (List.not_mem_nil member).elim
      · exact .inl (same ▸ member)
  | branched s parent fresh place =>
      obtain ⟨lineage, cancelled, queue⟩ := s
      obtain rfl : queue = [] := fresh
      exact .inl (queueAt_branch γ.scopes scope lineage cancelled ▸ member)
  | toggled j p found asked =>
      rw [queueAt_push] at member
      split at member
      · rename_i here
        rcases List.mem_append.mp member with before | new
        · exact .inl before
        · obtain ⟨rfl, rfl⟩ := Job.setPanel.inj (List.mem_singleton.mp new)
          exact .inr ⟨p, found, here.1.symm⟩
      · exact .inl member
  | ran home lineage j asked jobs front =>
      change _ ∈ queueAt (γ.scopes.modify home fun s => { s with queue := jobs }) scope at member
      rw [queueAt_pop _ _ _ _ (List.getElem?_eq_some_iff.mp front).1] at member
      split at member
      · rename_i here
        rw [here, (queueAt_of_front γ.scopes home lineage _ jobs front).1]
        exact .inl (List.mem_cons_of_mem _ member)
      · exact .inl member
  | opened | tended | ended => exact .inl member

theorem Step.panel_origin (step : Step mayEnd γ δ) (k : Nat) (p : Panel)
    (there : δ.panels[k]? = some p) :
    (∃ q, γ.panels[k]? = some q ∧ q.scope = p.scope) ∨ p.scope < γ.scopes.length := by
  cases step with
  | opened kind scope visible inside =>
      rcases getElem?_concat_cases _ _ _ _ there with before | ⟨-, rfl⟩
      · exact .inl ⟨p, before, rfl⟩
      · exact .inr inside
  | tended j handle =>
      exact .inl (origin_modify (fun p => { p with handle }) Panel.scope (fun _ => rfl) _ j k p
        there)
  | ran scope lineage j shown =>
      exact .inl (origin_modify (·.setShown shown) Panel.scope (fun _ => rfl) _ j k p there)
  | cancelled | branched | toggled | ended => exact .inl ⟨p, there, rfl⟩

theorem Step.persist (step : Step mayEnd γ δ) : Persist γ.scopes δ.scopes := by
  cases step with
  | cancelled root inside => exact .cancel root
  | branched s parent fresh place => exact .branch s
  | toggled k p found shown => exact .push p.scope _
  | ran scope lineage k shown jobs front => exact .pop scope jobs
  | opened | tended | ended => exact .refl _

theorem Step.firm (step : Step mayEnd γ δ) (firm : Firm γ) : Firm δ where
  rooted := by
    have rooted := firm.rooted
    cases step with
    | cancelled root inside =>
        rw [Tree.treeOf_cancelBy]
        exact rooted.cancel root (by simpa [treeOf] using inside)
    | branched s parent fresh place =>
        simp only [treeOf, List.map_append, List.map_cons, List.map_nil, place]
        exact rooted.branch parent
    | toggled k p found shown =>
        simp only [Tree.treeOf_push]
        exact rooted
    | ran scope lineage k shown jobs front =>
        have same := Tree.treeOf_modify γ.scopes scope (fun s => { s with queue := jobs })
          fun _ => rfl
        exact same ▸ rooted
    | ended may c name => exact rooted.mono _ (by simp)
    | opened | tended => exact rooted
  homes k p there := by
    refine Nat.lt_of_lt_of_le ?_ step.persist.length_le
    rcases step.panel_origin k p there with ⟨q, before, same⟩ | inside
    · exact same ▸ firm.homes k q before
    · exact inside
  jobs scope k shown member := by
    have homed : ∃ p, γ.panels[k]? = some p ∧ p.scope = scope := by
      rcases step.job_origin scope k shown member with before | new
      · exact firm.jobs scope k shown before
      · exact new
    obtain ⟨p, found, home⟩ := homed
    obtain ⟨q, there, same⟩ := step.panel_stays k p found
    exact ⟨q, there, same.trans home⟩

theorem Path.firm (path : Path mayEnd γ δ) (firm : Firm γ) : Firm δ := by
  induction path with
  | refl => exact firm
  | tail _ step ih => exact step.firm ih

theorem Path.persist (path : Path mayEnd γ δ) : Persist γ.scopes δ.scopes := by
  induction path with
  | refl => exact .refl _
  | tail _ step ih => exact ih.trans step.persist

theorem Step.panel_rests (step : Step mayEnd γ δ) (firm : Firm γ) (k : Nat) (p : Panel)
    (found : γ.panels[k]? = some p) (dead : cancelledAt γ.scopes p.scope = true) :
    ∃ q, δ.panels[k]? = some q ∧ q.scope = p.scope ∧ q.shown = p.shown := by
  have kept (j : Nat) (f : Panel → Panel)
      (same : ∀ q, ((f q).scope, (f q).shown) = (q.scope, q.shown)) :
      ∃ q, (γ.panels.modify j f)[k]? = some q ∧ q.scope = p.scope ∧ q.shown = p.shown := by
    obtain ⟨q, there, view⟩ :=
      stays_modify f (fun q => (q.scope, q.shown)) same γ.panels j k p found
    exact ⟨q, there, congrArg Prod.fst view, congrArg Prod.snd view⟩
  cases step with
  | opened kind scope visible =>
      exact ⟨p, by rw [List.getElem?_append_left (List.getElem?_eq_some_iff.mp found).1, found],
        rfl, rfl⟩
  | tended j handle => exact kept j _ fun _ => rfl
  | ran scope lineage j shown jobs front =>
      obtain ⟨queue, live⟩ := queueAt_of_front γ.scopes scope lineage _ jobs front
      -- the job of another panel: this one is on a scope whose dispatcher has stopped
      have other : j ≠ k := by
        rintro rfl
        obtain ⟨q, here, home⟩ := firm.jobs scope j shown (queue ▸ List.mem_cons_self)
        obtain rfl : p = q := Option.some.inj (found.symm.trans here)
        rw [home, live] at dead
        cases dead
      exact ⟨p, by simp [other, found], rfl, rfl⟩
  | cancelled | branched | toggled | ended => exact ⟨p, found, rfl, rfl⟩

theorem Path.panel_rests (path : Path mayEnd γ δ) (firm : Firm γ) (k : Nat) (p : Panel)
    (found : γ.panels[k]? = some p) (dead : cancelledAt γ.scopes p.scope = true) :
    ∃ q, δ.panels[k]? = some q ∧ q.scope = p.scope ∧ q.shown = p.shown := by
  induction path with
  | refl => exact ⟨p, found, rfl, rfl⟩
  | tail before step ih =>
      obtain ⟨q, there, home, shown⟩ := ih
      have still := (Path.persist before).dead dead
      rw [← home] at still
      obtain ⟨r, here, same, kept⟩ := step.panel_rests (Path.firm before firm) k q there still
      exact ⟨r, here, same.trans home, kept.trans shown⟩

end Ground

namespace Host

def ground (h : Host) : Ground where
  scopes := h.scopes.map (·.sift Job.ofPanel)
  panels := h.panels
  log := h.history.filter Event.ofCancellation

end Host

end ModalHost
