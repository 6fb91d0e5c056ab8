import ModalHost.Proofs.Schedules.Chains
import ModalHost.Proofs.Schedules.Descent

/-! From the states that single calls lead to, all runs end alike. -/

namespace ModalHost.Host

variable {h g next : Host}

/-- The order of the moves that can be taken does not matter, nor does it later. -/
inductive Calm (h : Host) : Prop
  | trailing (k : Nat) (trailing : h.Trailing k)
  | answering (k i : Nat) (answering : h.Answering k i)
  | working (k w : Nat) (working : h.Working k w)
  | fallen (fallen : h.Fallen)

namespace Calm

theorem housed (calm : h.Calm) : h.Housed := by
  cases calm with
  | trailing k trailing => exact trailing.housed
  | answering k i answering => exact answering.housed
  | working k w working => exact working.housed
  | fallen fallen => exact fallen.housed

theorem silent (calm : h.Calm) (i : Nat) (delivered : h.deliver? i = some next) : h.Silent i := by
  have rests (slots : h.deliver? i = none) : h.Silent i := by
    rw [slots] at delivered
    cases delivered
  cases calm with
  | trailing k trailing => exact rests (trailing.slots i)
  | answering k j answering =>
      by_cases same : i = j
      · exact same ▸ answering.silent
      · exact rests (answering.slots i same)
  | working k w working => exact rests (working.slots i)
  | fallen fallen => exact rests (fallen.slots i)

theorem step (calm : h.Calm) (m : Move) (draws : m.renders = false) (taken : h.move? m = some next) :
    next.Calm := by
  cases calm with
  | trailing k trailing => exact .trailing k (trailing.step m draws taken)
  | answering k i answering =>
      rcases answering.only m draws taken with ⟨rfl, tap, queue⟩ | ⟨rfl, empty⟩
      · exact .answering k i (answering.dispatch taken tap queue)
      · exact .trailing k (answering.deliver empty taken)
  | working k w working =>
      rcases working.only m draws taken with ⟨rfl, job, queue, awaited⟩ | ⟨rfl, empty⟩
      · exact .working k w (working.dispatch taken job queue awaited)
      · rcases working.work empty taken with on | closing
        · exact .working k w on
        · exact .trailing k closing
  | fallen fallen => exact .fallen (fallen.step m draws taken)

theorem diamond (calm : h.Calm) {t u : Host} (m n : Move) (draws : m.renders = false)
    (draws' : n.renders = false) (other : m ≠ n) (one : h.move? m = some t)
    (two : h.move? n = some u) : Swaps m n t u := by
  cases calm with
  | trailing k trailing => exact trailing.diamond m n draws draws' other one two
  | answering k i answering => exact absurd (answering.unique m n draws draws' one two) other
  | working k w working => exact absurd (working.unique m n draws draws' one two) other
  | fallen fallen => exact fallen.diamond m n draws draws' other one two

theorem alike (alike : h.Alike g) (calm : h.Calm) : g.Calm := by
  obtain ⟨⟨followers, history, rfl⟩, -, -⟩ := alike
  have agrees : h.Agrees { h with followers, history } := ⟨rfl, rfl, rfl⟩
  have works {w : Nat} (rests : h.advanceWork? w = none) :
      advanceWork? { h with followers, history } w = none := rests_work agrees rfl rests
  have callers {c : Nat} (rests : h.resumeCaller? c = none) :
      resumeCaller? { h with followers, history } c = none := rests_caller agrees rfl rests
  have slots {i : Nat} (rests : h.deliver? i = none) :
      deliver? { h with followers, history } i = none := rests_deliver rests rfl id
  have thread {k : Nat} (thread : h.Thread k) : Thread k { h with followers, history } :=
    thread.keep agrees (fun _ _ => rfl) rfl rfl
  cases calm with
  | trailing k t =>
      exact .trailing k { thread t.toThread with
        inert := t.inert
        slots := fun i => slots (t.slots i)
        attended := t.attended
        works := fun w => works (t.works w) }
  | answering k i a =>
      exact .answering k i { thread a.toThread with
        callers := fun c => callers (a.callers c)
        works := fun w => works (a.works w)
        home := a.home
        silent := a.silent
        slots := fun j other => slots (a.slots j other)
        front := a.front.imp_right fun ⟨tap, queue, rests⟩ => ⟨tap, queue, slots rests⟩ }
  | working k w x =>
      exact .working k w { thread x.toThread with
        callers := fun c => callers (x.callers c)
        slots := fun i => slots (x.slots i)
        works := fun v other => works (x.works v other)
        home := x.home
        front := x.front.imp_right fun ⟨job, queue, awaited, rests⟩ =>
          ⟨job, queue, awaited, works rests⟩ }
  | fallen f =>
      exact .fallen {
        queues := f.queues
        slots := fun i => slots (f.slots i)
        housed := f.housed
        works := fun w work there => (f.works w work there).imp_left works }

end Calm

theorem commutes : Commutes move? (fun m => m.renders = true) Calm Alike where
  symm := Alike.symm
  trans := Alike.trans
  refl := Alike.refl
  calm_alike := Calm.alike
  calm_step {h next m} loud calm taken := calm.step m (Bool.not_eq_true _ ▸ loud) taken
  still {h next m} quiet taken := by
    cases m with
    | followShown f => exact .renderer f (.inl taken)
    | followVisuals f => exact .renderer f (.inr taken)
    | _ => cases quiet
  follows {h g next m} loud calm alike taken := by
    refine (echo calm.housed m (Bool.not_eq_true _ ▸ loud) ?_ taken).follows taken alike
    rintro i rfl
    exact calm.silent i taken
  diamond {h t u m n} loud loud' other calm one two :=
    calm.diamond m n (Bool.not_eq_true _ ▸ loud) (Bool.not_eq_true _ ▸ loud') other one two

end ModalHost.Host
