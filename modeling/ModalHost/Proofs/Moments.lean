import ModalHost.Proofs.Ground.Runs

/-! The moments of a run. A hook makes its calls one by one, and what holds between them is seen as
well, so a run goes on from a moment in the midst of a delivery too. -/

namespace ModalHost

/-- A point that a run passes: between two steps, or while an answer is delivered, with the calls
that its hook has still to make. -/
inductive Moment
  | between (h : Host)
  | within (h : Host) (i request : Nat) (rest : List Call)

namespace Moment

def host : Moment → Host
  | between h => h
  | within h _ _ _ => h

/-- The answer that is being delivered to a prompt. -/
def due : Moment → Nat → Option Nat
  | between _ => fun _ => none
  | within _ i request _ => Host.delivering i request

/-- What comes next: a step is made, a hook starts or makes its next call, or a delivery ends. -/
inductive Next : Moment → Moment → Prop
  | acts (h : Host) (s : Session.Step) : Next (between h) (between (Session.act h s).1)
  | moves (h : Host) (m : Move) (next : Host) (taken : h.move? m = some next)
      (quiet : ∀ i p a, m = .deliver i → ¬ h.Accepting i p a) : Next (between h) (between next)
  | hears (h : Host) (i : Nat) (p : Prompt) (a : Answer) (accepting : h.Accepting i p a) :
      Next (between h)
        (within (h.heard i p a) i a.request ((p.hooks.on a.tap.decision).getD []))
  | calls (h : Host) (i request : Nat) (c : Call) (rest : List Call) :
      Next (within h i request (c :: rest)) (within (h.call c) i request rest)
  | settles (h : Host) (i request : Nat) (p : Prompt) (present : h.prompts[i]? = some p) :
      Next (within h i request []) (between (h.launch p.scope (.settle i request)))

def Run : Moment → Moment → Prop := Relation.ReflTransGen Next

/-- The moments that a run from the start comes to. -/
def Reached (m : Moment) : Prop := Run (between .initial) m

def strand (m : Moment) (i : Nat) : Strand := m.host.strand i (m.due i)

structure Kept (m : Moment) : Prop where
  woven : m.host.Woven m.due
  ledger : m.host.ledger.Reachable
  firm : m.host.ground.Firm

variable {m n : Moment}

theorem Next.path {allowed : Job → Prop} (next : m.Next n) (kept : m.Kept) (i : Nat)
    (permitted : ∀ h after scope lineage job jobs, m = between h → n = between after →
      h.dispatch? scope = some after → h.scopes[scope]? = some ⟨lineage, false, job :: jobs⟩ →
      job.prompt? = some i → allowed job) :
    Strand.Path i allowed (m.strand i) (n.strand i) := by
  have woven := kept.woven
  cases next with
  | acts h s => exact Host.path_act i none kept.ledger.sound woven.tidy s
  | moves h move next taken =>
      refine Host.path_move i woven move next taken ?_
      rintro scope lineage job jobs rfl front about
      exact permitted h next scope lineage job jobs rfl rfl taken front about
  | hears h j p a accepting => exact Host.path_heard i woven.tidy j p a accepting
  | calls h j request c rest => exact Host.path_call i _ woven.tidy c
  | settles h j request p present =>
      unfold Moment.strand
      dsimp only [host, due]
      by_cases same : j = i
      · subst same
        rw [Host.strand_launch _ _ _ _ _ rfl, Host.delivering, if_pos rfl]
        exact .single (.settled p present request rfl)
      · rw [Host.strand_launch_other _ _ _ _ _ (by simpa [Job.prompt?] using same),
          Host.delivering, if_neg (Ne.symm same)]
        exact .refl

theorem Next.strand (next : m.Next n) (kept : m.Kept) (i : Nat) :
    Strand.Path i (fun _ => True) (m.strand i) (n.strand i) :=
  next.path kept i fun _ _ _ _ _ _ _ _ _ _ _ => trivial

theorem Next.ledger (next : m.Next n) (kept : m.Kept) :
    Ledger.Path (fun _ => True) m.host.ledger n.host.ledger := by
  have sound := kept.ledger.sound
  cases next with
  | acts h s => exact Host.track_act sound s
  | moves h move next taken =>
      exact Host.track_move sound move next taken fun _ _ _ _ _ _ => trivial
  | hears h i p a accepting =>
      rw [host, host, Host.ledger_heard]
      exact .refl
  | calls h i request c rest => exact Host.track_call sound c
  | settles h i request p present =>
      rw [host, host, Host.ledger_launch_other _ _ _ rfl]
      exact .refl

theorem Next.ground_cases (next : m.Next n) (kept : m.Kept) :
    Ground.Path False m.host.ground n.host.ground ∨ ∃ c, m.host.CancelsWait c n.host := by
  have sound := kept.ledger.sound
  cases next with
  | acts h s => exact Host.ground_act sound s
  | moves h move next taken quiet => exact Host.ground_move move next taken quiet
  | hears h i p a accepting =>
      rw [host, host, Host.ground_heard]
      exact .inl .refl
  | calls h i request c rest => exact Host.ground_call sound c
  | settles h i request p present =>
      rw [host, host, Host.ground_launch_other _ _ _ rfl]
      exact .inl .refl

theorem Next.ground (next : m.Next n) (kept : m.Kept) :
    Ground.Path True m.host.ground n.host.ground := by
  rcases next.ground_cases kept with quiet | ⟨c, cancels⟩
  · exact quiet.weaken
  · obtain ⟨name, ground⟩ := cancels.ground
    rw [ground]
    exact .single (.ended trivial c name)

theorem Next.kept (next : m.Next n) (kept : m.Kept) : n.Kept where
  woven i := (kept.woven i).trans (next.strand kept i)
  ledger := kept.ledger.path (next.ledger kept)
  firm := (next.ground kept).firm kept.firm

theorem kept_initial : (between .initial).Kept where
  woven := Host.woven_initial
  ledger := .refl
  firm := Ground.firm_blank

theorem Run.kept (run : m.Run n) (kept : m.Kept) : n.Kept := by
  induction run with
  | refl => exact kept
  | tail _ next ih => exact next.kept ih

theorem Reached.kept (reached : m.Reached) : m.Kept := Run.kept reached kept_initial

theorem Run.strand (run : m.Run n) (kept : m.Kept) (i : Nat) :
    Strand.Path i (fun _ => True) (m.strand i) (n.strand i) := by
  induction run with
  | refl => exact .refl
  | tail before next ih => exact ih.trans (next.strand (Run.kept before kept) i)

theorem Run.ledger (run : m.Run n) (kept : m.Kept) :
    Ledger.Path (fun _ => True) m.host.ledger n.host.ledger := by
  induction run with
  | refl => exact .refl
  | tail before next ih => exact ih.trans (next.ledger (Run.kept before kept))

theorem Run.ground (run : m.Run n) (kept : m.Kept) :
    Ground.Path True m.host.ground n.host.ground := by
  induction run with
  | refl => exact .refl
  | tail before next ih => exact ih.trans (next.ground (Run.kept before kept))

theorem run_calls (h : Host) (i request : Nat) (made rest : List Call) :
    Run (within h i request (made ++ rest)) (within (made.foldl Host.call h) i request rest) := by
  induction made generalizing h with
  | nil => exact .refl
  | cons c made ih => exact .head (.calls h i request c (made ++ rest)) (ih (h.call c))

end Moment

namespace Host

open Moment

variable {h : Host}

theorem Advances.moments {next : Host} (step : h.Advances next)
    (woven : h.Woven fun _ => none) : Run (.between h) (.between next) := by
  cases step with
  | act s => exact .single (.acts h s)
  | move m _ taken =>
      by_cases accepts : ∃ i p a, m = .deliver i ∧ h.Accepting i p a
      · obtain ⟨i, p, a, rfl, accepting⟩ := accepts
        have calls := run_calls (h.heard i p a) i a.request ((p.hooks.on a.tap.decision).getD []) []
        rw [List.append_nil] at calls
        have heard : Strand.Path i (fun _ => True) (h.strand i none) _ :=
          path_heard i woven.tidy i p a accepting
        have path := heard.trans
          (path_calls i (woven.heard accepting) ((p.hooks.on a.tap.decision).getD []))
        obtain ⟨last, there, here⟩ := path_scope path p accepting.present
        have delivered : next = _ := Option.some.inj (taken.symm.trans accepting.deliver)
        rw [delivered, accept_eq i p accepting.present, ← here]
        exact .tail (.head (.hears h i p a accepting) calls) (.settles _ i a.request last there)
      · refine .single (.moves h m next taken ?_)
        rintro i p a rfl accepting
        exact accepts ⟨i, p, a, rfl, accepting⟩

theorem Leads.moments {next : Host} (run : Leads h next) (reachable : h.Reachable) :
    Run (.between h) (.between next) := by
  induction run with
  | refl => exact .refl
  | tail before step ih =>
      exact ih.trans (step.moments (Reachable.woven (reachable.trans before)))

theorem Reachable.reached (reachable : h.Reachable) : (Moment.between h).Reached :=
  Leads.moments reachable .refl

end Host

end ModalHost
