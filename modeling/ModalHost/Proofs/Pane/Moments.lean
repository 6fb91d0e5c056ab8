import ModalHost.Proofs.Pane.Runs

/-! Runs that are watched for the calls on one dialog, while no block of work passes it. -/

namespace ModalHost

/-- What a run by turns asks of a dialog. -/
def Host.asked (d : DialogRef) (h : Host) : List (Session.Step ⊕ Move) → List Bool
  | [] => []
  | .inl s :: turns => s.asks h d ++ asked d (Session.act h s).1 turns
  | .inr m :: turns => asked d ((h.move? m).getD h) turns

namespace Moment

variable {d : DialogRef} {k : Nat} {c : Cell Bool} {m n o : Moment} {calls more : List Bool}

inductive Asks (d : DialogRef) : Moment → List Bool → Moment → Prop
  | acts (h : Host) (s : Session.Step) :
      Asks d (between h) (s.asks h d) (between (Session.act h s).1)
  | moves (h : Host) (m : Move) (next : Host) (taken : h.move? m = some next)
      (quiet : ∀ i p a, m = .deliver i → ¬ h.Accepting i p a) :
      Asks d (between h) [] (between next)
  | hears (h : Host) (i : Nat) (p : Prompt) (a : Answer) (accepting : h.Accepting i p a) :
      Asks d (between h) []
        (within (h.heard i p a) i a.request ((p.hooks.on a.tap.decision).getD []))
  | calls (h : Host) (i request : Nat) (c : Call) (rest : List Call) :
      Asks d (within h i request (c :: rest)) (c.asks h d) (within (h.call c) i request rest)
  | settles (h : Host) (i request : Nat) (p : Prompt) (present : h.prompts[i]? = some p) :
      Asks d (within h i request []) [] (between (h.launch p.scope (.settle i request)))

theorem Asks.next (asks : Asks d m calls n) : m.Next n := by
  cases asks with
  | acts h s => exact .acts h s
  | moves h m next taken quiet => exact .moves h m next taken quiet
  | hears h i p a accepting => exact .hears h i p a accepting
  | calls h i request c rest => exact .calls h i request c rest
  | settles h i request p present => exact .settles h i request p present

theorem Next.asks (next : m.Next n) (d : DialogRef) : ∃ calls, Asks d m calls n := by
  cases next with
  | acts h s => exact ⟨_, .acts h s⟩
  | moves h m next taken quiet => exact ⟨_, .moves h m next taken quiet⟩
  | hears h i p a accepting => exact ⟨_, .hears h i p a accepting⟩
  | calls h i request c rest => exact ⟨_, .calls h i request c rest⟩
  | settles h i request p present => exact ⟨_, .settles h i request p present⟩

/-- A block of work enters or leaves a level of the dialog. -/
def Passes (d : DialogRef) (m n : Moment) : Prop := Runs (fun job => job.passes d = true) m n

/-- A stretch of a run in which no block of work passes the dialog, with all calls that are made to
show or hide it. -/
inductive Watched (d : DialogRef) (m : Moment) : List Bool → Moment → Prop
  | refl : Watched d m [] m
  | tail (calls more : List Bool) (n o : Moment) (run : Watched d m calls n)
      (asks : Asks d n more o) (idle : ¬ Passes d n o) : Watched d m (calls ++ more) o

theorem RunsWithout.watched (run : RunsWithout (fun job => job.passes d = true) m n) :
    ∃ calls, Watched d m calls n := by
  induction run with
  | refl => exact ⟨[], .refl⟩
  | tail _ last ih =>
      obtain ⟨calls, watched⟩ := ih
      obtain ⟨more, asks⟩ := last.1.asks d
      exact ⟨calls ++ more, .tail _ _ _ _ watched asks last.2⟩

theorem Watched.trans (first : Watched d m calls n) (later : Watched d n more o) :
    Watched d m (calls ++ more) o := by
  induction later with
  | refl => rwa [List.append_nil]
  | tail early last _ _ _ asks idle ih =>
      rw [← List.append_assoc]
      exact .tail _ _ _ _ ih asks idle

theorem Watched.turns (turns : List (Session.Step ⊕ Move)) (h : Host)
    (spared : ∀ n < turns.length, (h.run (turns.take n)).spares (Job.passes d) = true)
    (undelivered : ∀ i, .inr (.deliver i) ∉ turns) :
    Watched d (between h) (h.asked d turns) (between (h.run turns)) := by
  induction turns generalizing h with
  | nil => exact .refl
  | cons turn turns ih =>
      have idle (next : Host) : ¬ Passes d (between h) (between next) :=
        Host.not_runsJob_of_spares (spared 0 (Nat.succ_pos _)) fun _ => id
      have later (next : Host) (turned : h.run [turn] = next) :
          Watched d (between next) (next.asked d turns) (between (next.run turns)) := by
        subst turned
        exact ih _ (fun n below => spared (n + 1) (Nat.succ_lt_succ below)) fun i member =>
          undelivered i (List.mem_cons_of_mem _ member)
      cases turn with
      | inl s => exact (Watched.tail [] _ _ _ .refl (.acts h s) (idle _)).trans (later _ rfl)
      | inr m =>
          have quiet (i : Nat) (p : Prompt) (a : Answer) (same : m = .deliver i) :
              ¬ h.Accepting i p a :=
            absurd (same ▸ List.mem_cons_self) (undelivered i)
          have rest := later ((h.move? m).getD h) rfl
          cases taken : h.move? m with
          | none =>
              rw [taken] at rest
              simp only [Host.asked, Host.run, List.foldl_cons, Sum.elim_inr, taken]
              exact rest
          | some next =>
              rw [taken] at rest
              simp only [Host.asked, Host.run, List.foldl_cons, Sum.elim_inr, taken]
              exact (Watched.tail [] [] _ _ .refl (.moves h m next taken quiet) (idle _)).trans rest

theorem Watched.run (watched : Watched d m calls n) : m.Run n := by
  induction watched with
  | refl => exact .refl
  | tail _ _ _ _ _ asks _ ih => exact ih.tail asks.next

theorem Asks.pane (asks : Asks d m calls n) (idle : ¬ Passes d m n) (kept : m.Kept)
    (place : m.host.place d = some (k, c)) :
    Pane.Step d (fun job => Runs (· = job) m n) (m.host.pane d k) calls (n.host.pane d k) := by
  have sound := kept.ledger.sound
  cases asks with
  | acts h s => exact Host.pane_act sound kept.firm place s
  | moves h move next taken quiet =>
      exact Host.pane_move kept.ledger.moored kept.firm place move taken quiet idle fun _ => id
  | hears h i p a accepting => exact .of_eq (Host.pane_heard i p a)
  | calls h i request call rest =>
      exact Host.pane_call (Host.inside_of_place sound kept.firm place) place call
  | settles h i request p present => exact .of_eq (Host.pane_launch_other _ _ rfl)

theorem Watched.pane (watched : Watched d m calls n) (kept : m.Kept)
    (place : m.host.place d = some (k, c)) :
    Pane.Path d (m.host.pane d k) calls (n.host.pane d k) := by
  induction watched with
  | refl => exact .refl
  | tail calls more n o run asks idle ih =>
      obtain ⟨ran, rest, -, there, -⟩ := (Pane.Effects.start place).path ih
      exact .tail _ _ _ _ _ ih (asks.pane idle (Run.kept run.run kept) there)

theorem Next.patient (next : m.Next n) (kept : m.Kept) (patient : m.host.Patient) :
    n.host.Patient := by
  cases next with
  | acts h s => exact patient.act kept.ledger.sound s
  | moves h move next taken => exact patient.move move taken
  | hears h i p a accepting =>
      have emptied : (h.updatePrompt i fun p => { p with mailbox := none }).Patient :=
        patient.of_eq rfl rfl fun _ => id
      exact emptied.edits (fun _ => id) (Host.ample_unreported.heard i p a fun _ _ => trivial)
  | calls h i request c rest =>
      exact patient.edits (fun _ => id) (Host.ample_unreported.call c (fun _ _ _ _ _ => rfl)
        (fun _ _ _ _ _ => rfl) fun _ _ _ _ => trivial)
  | settles h i request p present =>
      exact patient.edits (fun _ => id) (Host.ample_unreported.launch p.scope _ rfl)

theorem Run.patient (run : m.Run n) (kept : m.Kept) (patient : m.host.Patient) :
    n.host.Patient := by
  induction run with
  | refl => exact patient
  | tail before next ih => exact next.patient (Run.kept before kept) ih

theorem Reached.patient (reached : m.Reached) : m.host.Patient :=
  Run.patient reached kept_initial Host.patient_initial

end Moment

end ModalHost
