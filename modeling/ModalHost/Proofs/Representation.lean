import ModalHost.Proofs.Strand.Runs
import ModalHost.Proofs.Strand.History

/-! What holds of a confirm dialog at every point of every run, also while one of its hooks runs. -/

namespace ModalHost.Host

/-- The dialog is shown exactly when it is not idle, and never with the sentinel; its visuals are
those that were handed out with the request published last; and whoever is parked waits for the
newest request, so an answer that is accepted is for nobody else. -/
theorem prompt_represented {h : Host} (seen : h.Seen) (i : Nat) (p : Prompt)
    (present : h.prompts[i]? = some p) :
    (p.shown.value = true ↔ p.phase ≠ .idle) ∧
      (p.shown.value = true → p.visuals.value ≠ .empty) ∧
      p.published ≤ p.issued ∧
      (∀ visuals, .issued i p.published visuals ∈ h.history ↔ visuals = p.visuals.value) ∧
      (∀ q, p.parked = some q → q.request = p.issued) ∧
      ∀ a q, p.accepts a = true → p.parked = some q → p.callerOf a.request = some q.caller := by
  rcases seen.strand i with ⟨due, strand⟩
  have coherent := strand.coherent p present
  have scheduled := strand.scheduled.present p present
  have attended := strand.attended.present p present
  refine ⟨coherent.phase, ?_, scheduled.orderly.le, ?_, attended.newest, ?_⟩
  · intro shown sentinel
    have asks := coherent.visuals shown
    rw [sentinel, Visuals.isEmpty_empty] at asks
    simp at asks
  · intro visuals
    rw [← mem_log h i due _ (by simp [Event.concerns]), ← mem_requests]
    constructor
    · intro member
      exact scheduled.unique p.published visuals p.visuals.value member scheduled.current
    · rintro rfl
      exact scheduled.current
  · intro a q counts held
    have newest := ((p.accepts_iff a).mp counts).1
    rw [Prompt.callerOf_eq_some, held, newest, ← attended.newest q held]

/-- A dialog is restored, and its hook asks again while the answer to it is delivered. -/
def insisting : Hooks Call := ⟨"k", some [.await "d" (.ofTitle "Really?") "t"], none⟩

def restored : List (Session.Step ⊕ Move) :=
  [.inl (.openDialog "d" "main" (.confirm insisting (.snapshot ⟨true, .ofTitle "Delete?"⟩))),
    .inl (.call (.press (.fresh "d") .confirmed)),
    .inr (.dispatch 0)]

theorem restored_prompt_represented : ∃ (h : Host) (p : Prompt), h.Seen ∧
    h.prompts[0]? = some p ∧ p.phase = .resolving ∧ p.shown.value = true ∧
    p.parked = some ⟨1, 0⟩ ∧ p.issued = 1 ∧ .issued 0 p.published (.ofTitle "Delete?") ∈ h.history := by
  have accepting : (initial.run restored).Accepting 0
      { scope := 0, handle := true, shown := ⟨true, 0⟩, visuals := ⟨.ofTitle "Delete?", 0⟩
        phase := .awaitingInput, issued := 0, published := 0, parked := none
        hooks := insisting, mailbox := some ⟨0, .confirmed, none, 0⟩ }
      ⟨0, .confirmed, none, 0⟩ := ⟨rfl, rfl, rfl, rfl⟩
  have seen := Seen.within _ (Reachable.run .refl restored) 0 _ _ accepting
    [.await "d" (.ofTitle "Really?") "t"] [] rfl
  have represented := prompt_represented seen 0 _ rfl
  exact ⟨_, _, seen, rfl, rfl, represented.1.mpr (by decide), rfl,
    (represented.2.2.2.2.1 ⟨1, 0⟩ rfl).symm, (represented.2.2.2.1 _).mpr rfl⟩

end ModalHost.Host
