import ModalHost.Proofs.Strand.Runs
import ModalHost.Proofs.Strand.Coherence
import ModalHost.Proofs.Strand.Timeline

/-! Every answer that is accepted was given for the request that is on screen. -/

namespace ModalHost.Host

/-- The answer is for the newest request, which is published and shown, and it was given after that
request was handed out. If it came through a picture, no request was handed out since the picture
was taken, and the prompt still looks like it. -/
theorem accepted_answer_current {h : Host} (reachable : h.Reachable) (i : Nat) (p : Prompt)
    (a : Answer) (accepting : h.Accepting i p a) :
    a.request = p.issued ∧ a.request = p.published ∧ p.shown.value = true ∧
      a.request ≤ a.tap.newest ∧
      ∀ picture, a.tap.picture = some picture → picture.request = a.request ∧
        picture.newest = p.issued ∧ picture.visuals = p.visuals.value := by
  have strand := reachable.woven i
  have coherent := strand.coherent p accepting.present
  have scheduled := strand.scheduled.present p accepting.present
  have timely := scheduled.answer a accepting.full
  have counts := (p.accepts_iff a).mp accepting.counts
  have appeared := timely.appeared
  have ahead := scheduled.orderly.le
  have current : a.request = p.published := by
    have newest := counts.1
    omega
  refine ⟨counts.1, current, coherent.phase.mpr (by simp [counts.2]), timely.known, ?_⟩
  intro picture taken
  rcases timely.picture picture taken with ⟨same, genuine⟩
  have known := genuine.known
  have stamped := genuine.stamped
  have issued := timely.stamped
  have newest := counts.1
  refine ⟨same.symm, by omega, ?_⟩
  apply scheduled.unique p.published
  · rw [← current, same]
    exact genuine.showed
  · exact scheduled.current

def pressed : List (Session.Step ⊕ Move) :=
  [.inl (.openDialog "d" "main" (.confirm .none .blank)),
    .inl (.call (.await "d" (.ofTitle "Delete?") "t")),
    .inr (.dispatch 0),
    .inl (.overlay "d" (some "r")),
    .inl (.call (.press (.kept "r") .confirmed)),
    .inr (.dispatch 0)]

theorem pressed_answer_current : ∃ p a picture, (initial.run pressed).Accepting 0 p a ∧
    a.tap.picture = some picture ∧ a.request = p.issued ∧ picture.newest = p.issued ∧
    picture.visuals = p.visuals.value := by
  have accepting : (initial.run pressed).Accepting 0
      { scope := 0, handle := true, shown := ⟨true, 1⟩, visuals := ⟨.ofTitle "Delete?", 1⟩
        phase := .awaitingInput, issued := 1, published := 1, parked := some ⟨1, 0⟩
        hooks := .none, mailbox := some ⟨1, .confirmed, some ⟨1, .ofTitle "Delete?", 1⟩, 1⟩ }
      ⟨1, .confirmed, some ⟨1, .ofTitle "Delete?", 1⟩, 1⟩ := ⟨rfl, rfl, rfl, rfl⟩
  have current := accepted_answer_current (Reachable.run .refl pressed) 0 _ _ accepting
  have pictured := current.2.2.2.2 _ rfl
  exact ⟨_, _, _, accepting, rfl, current.1, pictured.2.1, pictured.2.2⟩

end ModalHost.Host
