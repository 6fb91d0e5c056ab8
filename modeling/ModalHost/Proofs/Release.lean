import ModalHost.Proofs.Counting

/-! What is left of a loading dialog when all calls on it are over. -/

namespace ModalHost.Host

variable {h : Host}

/-- Every call on a loading dialog has returned or was dropped. -/
def Over (h : Host) (i : Nat) : Prop :=
  ∀ (w : Nat) (work : Work), h.works[w]? = some work → work.loading = i → work.armed = 0

theorem held_over (i : Nat) (returned : h.Over i) : h.ledger.held i = 0 := by
  apply List.sum_eq_zero
  intro n member
  obtain ⟨work, there, rfl⟩ := List.mem_map.mp member
  obtain ⟨w, at_w⟩ := List.mem_iff_getElem?.mp there
  unfold Work.holds
  split
  · rename_i mine
    exact returned w work at_w mine
  · rfl

theorem frozen_when_cancelled (before : Host) (started : before.Reachable) (run : Leads before h)
    (i : Nat) (m l : Loading) (here : before.loadings[i]? = some m)
    (there : h.loadings[i]? = some l) (dead : before.isCancelled m.scope = true) :
    l.inFlight = m.inFlight ∧ l.shown = m.shown := by
  have path := run.ledger started
  obtain ⟨next, at_i, -, shown, count, -⟩ :=
    Ledger.Path.frozen path started.ledger i m here (by simpa using dead)
  obtain rfl : next = l := Option.some.inj (at_i.symm.trans there)
  exact ⟨count, shown⟩

/-- When all calls on a loading dialog are over and its jobs have run, it counts none on a live
scope. On a cancelled one it counts those that ran when the scope was cancelled, since the leaves
that they queue are dropped, and so the overlay that was shown for them stays. A dialog that counts
none and that nobody has shown is hidden. -/
theorem released_unless_cancelled (reachable : h.Reachable) (i : Nat) (l : Loading)
    (found : h.loadings[i]? = some l) (returned : h.Over i) (drained : h.Drained i l) :
    (h.isCancelled l.scope = false → l.inFlight = 0) ∧
    (∀ (before : Host) (m : Loading), before.Reachable → Leads before h →
      before.loadings[i]? = some m → before.isCancelled m.scope = true →
        (l.inFlight = 0 ↔ m.inFlight = 0) ∧ l.shown = m.shown) ∧
    (RunsWithout (· = .setLoading i true) initial h → l.inFlight = 0 → l.shown.value = false) := by
  refine ⟨?_, ?_, ?_⟩
  · intro live
    rw [count_drained reachable i l found live drained]
    exact held_over i returned
  · intro before m started run here dead
    obtain ⟨count, shown⟩ := frozen_when_cancelled before started run i m l here found dead
    exact ⟨by rw [count], shown⟩
  · intro run none
    have modest := Ledger.Path.modest (run.ledger .refl) i (fun other => other rfl) l found
    apply Bool.eq_false_iff.mpr
    intro shown
    have running := modest shown
    omega

def droppedBlock : List (Session.Step ⊕ Move) :=
  [.inl (.openDialog "d" "main" .loading), .inl (.work "d" "w" none 1), .inr (.dispatch 0),
    .inr (.advanceWork 0), .inl (.call (.abandon "w")), .inr (.dispatch 0)]

theorem droppedBlock_released : ∃ l : Loading,
    (initial.run droppedBlock).loadings[0]? = some l ∧ l.inFlight = 0 ∧ l.shown.value = false := by
  have returned : (initial.run droppedBlock).Over 0 := by
    intro w work there _
    rcases w with _ | w
    · obtain rfl := Option.some.inj there
      rfl
    · cases there
  have silent : RunsWithout (· = .setLoading 0 true) initial (initial.run droppedBlock) := by
    apply RunsWithout.run _ fun job => job matches .setLoading _ _
    · rintro _ rfl
      rfl
    · decide
  have released := released_unless_cancelled (Reachable.run .refl droppedBlock) 0 _ rfl returned nofun
  exact ⟨_, rfl, released.1 rfl, released.2.2 silent (released.1 rfl)⟩

def cancelledBlock : List (Session.Step ⊕ Move) :=
  [.inl (.openDialog "d" "main" .loading), .inl (.work "d" "w" none 1), .inr (.dispatch 0),
    .inr (.advanceWork 0), .inl (.call (.cancel "main")), .inl (.finish "w" (.value "1")),
    .inr (.advanceWork 0), .inr (.advanceWork 0)]

/-- The call has returned and nothing is left to run, but its block is still counted and the overlay
still shown. -/
theorem cancelledBlock_still_shown : ¬ ∀ (h : Host) (i : Nat) (l : Loading), h.Reachable →
    RunsWithout (· = .setLoading i true) initial h → h.loadings[i]? = some l → h.Over i →
      h.Rests i l → l.inFlight = 0 ∧ l.shown.value = false := by
  intro released
  have silent : RunsWithout (· = .setLoading 0 true) initial (initial.run cancelledBlock) := by
    apply RunsWithout.run _ fun job => job matches .setLoading _ _
    · rintro _ rfl
      rfl
    · decide
  have returned : (initial.run cancelledBlock).Over 0 := by
    intro w work there _
    rcases w with _ | w
    · obtain rfl := Option.some.inj there
      rfl
    · cases there
  obtain ⟨l, found⟩ : ∃ l, (initial.run cancelledBlock).loadings[0]? = some l := ⟨_, rfl⟩
  have rests : (initial.run cancelledBlock).Rests 0 l := by
    constructor
    · intro job member
      obtain rfl := Option.some.inj found
      cases member
    · intro w work there _
      rcases w with _ | w
      · rfl
      · cases there
  have none := (released _ 0 l (Reachable.run .refl cancelledBlock) silent found returned rests).1
  obtain rfl := Option.some.inj found
  cases none

end ModalHost.Host
