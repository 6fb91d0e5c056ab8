import ModalHost.Host.State
import ModalHost.Proofs.Lists
import Mathlib.Data.List.Basic

/-! The tree of scopes: a scope is cancelled exactly if it, or one it was opened under, has been. -/

namespace ModalHost

abbrev Tree := List (List Nat × Bool)

def treeOf (scopes : List Scope) : Tree := scopes.map fun s => (s.lineage, s.cancelled)

/-- The scope that a scope was opened under. -/
def parentAt (tree : Tree) (k : Nat) : Option Nat := tree[k]?.bind fun node => node.1[1]?

/-- A scope lies under itself, and under all that its parent lies under. -/
inductive Under (tree : Tree) (root : Nat) : Nat → Prop
  | itself : Under tree root root
  | child (k parent : Nat) (opened : parentAt tree k = some parent)
      (above : Under tree root parent) : Under tree root k

namespace Tree

theorem treeOf_place (scopes : List Scope) (k : Nat) (s : Scope) (found : scopes[k]? = some s) :
    (treeOf scopes)[k]? = some (s.lineage, s.cancelled) := by
  rw [treeOf, List.getElem?_map, found, Option.map_some]

def cancelBy (root : Nat) (node : List Nat × Bool) : List Nat × Bool :=
  (node.1, node.1.contains root || node.2)

theorem treeOf_cancelBy (scopes : List Scope) (root : Nat) :
    treeOf (scopes.map (·.cancelBy root)) = (treeOf scopes).map (cancelBy root) := by
  simp only [treeOf, List.map_map]
  apply List.map_congr_left
  intro s _
  by_cases below : s.lineage.contains root = true
  · rw [Function.comp_apply, Function.comp_apply, Scope.cancelBy, if_pos below, cancelBy, below,
      Bool.true_or]
  · rw [Function.comp_apply, Function.comp_apply, Scope.cancelBy, if_neg below, cancelBy,
      Bool.eq_false_iff.mpr below, Bool.false_or]

theorem treeOf_modify (scopes : List Scope) (home : Nat) (f : Scope → Scope)
    (same : ∀ s, ((f s).lineage, (f s).cancelled) = (s.lineage, s.cancelled)) :
    treeOf (scopes.modify home f) = treeOf scopes :=
  map_modify_invisible f _ home scopes same

theorem treeOf_push (scopes : List Scope) (home : Nat) (job : Job) :
    treeOf (scopes.modify home (·.push job)) = treeOf scopes := by
  apply treeOf_modify
  intro s
  unfold Scope.push
  split <;> rfl

def branch (tree : Tree) (parent : Option Nat) : List Nat × Bool :=
  let above := parent.bind (tree[·]?)
  (tree.length :: (above.map (·.1)).getD [], above.any (·.2))

theorem branch_cases (tree : Tree) (parent : Option Nat) :
    tree.branch parent = ([tree.length], false) ∨
      ∃ (q : Nat) (above : List Nat × Bool), tree[q]? = some above ∧
        tree.branch parent = (tree.length :: above.1, above.2) := by
  unfold branch
  cases found : parent.bind (tree[·]?) with
  | none => exact .inl rfl
  | some above =>
      obtain ⟨q, -, here⟩ := Option.bind_eq_some_iff.mp found
      exact .inr ⟨q, above, here, rfl⟩

/-- Every scope but a root continues the lineage of an older one, and its own number comes first. It
is cancelled exactly if some scope of its lineage has been, and only scopes that are there have. -/
structure Rooted (tree : Tree) (log : List Event) : Prop where
  lineage (k : Nat) (node : List Nat × Bool) : tree[k]? = some node →
    node.1 = [k] ∨ ∃ parent above, parent < k ∧ tree[parent]? = some above ∧ node.1 = k :: above.1
  known (root : Nat) : .cancelled root ∈ log → root < tree.length
  dead (k : Nat) (node : List Nat × Bool) : tree[k]? = some node →
    (node.2 = true ↔ ∃ root ∈ node.1, .cancelled root ∈ log)

variable {tree : Tree} {log : List Event}

namespace Rooted

theorem cancel (rooted : Rooted tree log) (root : Nat) (inside : root < tree.length) :
    Rooted (tree.map (cancelBy root)) (.cancelled root :: log) where
  lineage k node there := by
    rw [List.getElem?_map, Option.map_eq_some_iff] at there
    obtain ⟨former, found, rfl⟩ := there
    rcases rooted.lineage k former found with alone | ⟨parent, above, older, here, continued⟩
    · exact .inl alone
    · exact .inr ⟨parent, cancelBy root above, older, by simp [here], continued⟩
  known other happened := by
    rw [List.length_map]
    rcases List.mem_cons.mp happened with now | before
    · obtain rfl : other = root := Event.cancelled.inj now
      exact inside
    · exact rooted.known other before
  dead k node there := by
    rw [List.getElem?_map, Option.map_eq_some_iff] at there
    obtain ⟨former, found, rfl⟩ := there
    calc (cancelBy root former).2 = true
        ↔ root ∈ former.1 ∨ former.2 = true := by simp [cancelBy]
      _ ↔ root ∈ former.1 ∨ ∃ other ∈ former.1, .cancelled other ∈ log := by
        rw [rooted.dead k former found]
      _ ↔ ∃ other ∈ (cancelBy root former).1, .cancelled other ∈ .cancelled root :: log := by
        simp only [cancelBy, List.mem_cons, Event.cancelled.injEq, and_or_left, exists_or,
          exists_eq_right]

/-- A scope is opened after all cancellations so far, so it cannot be among the cancelled roots; it
is cancelled if the scope it is opened under is. -/
theorem branch (rooted : Rooted tree log) (parent : Option Nat) :
    Rooted (tree ++ [tree.branch parent]) log where
  lineage k node there := by
    have kept (q : Nat) (above : List Nat × Bool) (found : tree[q]? = some above) :
        (tree ++ [tree.branch parent])[q]? = some above := by
      rw [List.getElem?_append_left (List.getElem?_eq_some_iff.mp found).1, found]
    rcases getElem?_concat_cases tree _ node k there with before | ⟨rfl, rfl⟩
    · rcases rooted.lineage k node before with alone | ⟨q, above, older, found, continued⟩
      · exact .inl alone
      · exact .inr ⟨q, above, older, kept q above found, continued⟩
    · rcases tree.branch_cases parent with alone | ⟨q, above, here, continued⟩
      · exact .inl (congrArg Prod.fst alone)
      · exact .inr ⟨q, above, (List.getElem?_eq_some_iff.mp here).1, kept q above here,
          congrArg Prod.fst continued⟩
  known root happened := by
    rw [List.length_append]
    exact Nat.lt_add_right 1 (rooted.known root happened)
  dead k node there := by
    rcases getElem?_concat_cases tree _ node k there with before | ⟨rfl, rfl⟩
    · exact rooted.dead k node before
    · have new : .cancelled tree.length ∉ log := fun happened =>
        Nat.lt_irrefl _ (rooted.known _ happened)
      rcases tree.branch_cases parent with alone | ⟨q, above, here, continued⟩
      · simp [alone, new]
      · simp [continued, new, rooted.dead q above here]

theorem mono (rooted : Rooted tree log) (e : Event) (other : ∀ root, e ≠ .cancelled root) :
    Rooted tree (e :: log) where
  lineage := rooted.lineage
  known root happened := rooted.known root (by simpa [Ne.symm (other root)] using happened)
  dead k node there := by
    rw [rooted.dead k node there]
    simp [fun root => Ne.symm (other root)]

theorem head (rooted : Rooted tree log) (k : Nat) (node : List Nat × Bool)
    (found : tree[k]? = some node) : node.1[0]? = some k := by
  rcases rooted.lineage k node found with alone | ⟨_, _, -, -, continued⟩
  · rw [alone]
    rfl
  · rw [continued]
    rfl

theorem parent (rooted : Rooted tree log) (k parent : Nat) (node : List Nat × Bool)
    (found : tree[k]? = some node) (opened : parentAt tree k = some parent) :
    parent < k ∧ ∃ above, tree[parent]? = some above ∧ node.1 = k :: above.1 := by
  rw [parentAt, found, Option.bind_some] at opened
  rcases rooted.lineage k node found with alone | ⟨q, above, older, here, continued⟩
  · rw [alone] at opened
    cases opened
  · rw [continued, List.getElem?_cons_succ, rooted.head q above here] at opened
    obtain rfl : q = parent := Option.some.inj opened
    exact ⟨older, above, here, continued⟩

theorem mem_lineage (rooted : Rooted tree log) (root k : Nat) (node : List Nat × Bool)
    (found : tree[k]? = some node) : root ∈ node.1 ↔ Under tree root k := by
  constructor
  · intro member
    -- a lineage is continued from an older scope, so the induction is on the number of the scope
    induction k using Nat.strongRecOn generalizing node with
    | ind k ih =>
        rcases rooted.lineage k node found with alone | ⟨q, above, older, here, continued⟩
        · rw [alone, List.mem_singleton] at member
          exact member ▸ .itself
        · rw [continued, List.mem_cons] at member
          have opened : parentAt tree k = some q := by
            rw [parentAt, found, Option.bind_some, continued, List.getElem?_cons_succ,
              rooted.head q above here]
          rcases member with rfl | higher
          · exact .itself
          · exact .child k q opened (ih q older above here higher)
  · intro under
    induction under generalizing node with
    | itself => exact List.mem_of_getElem? (rooted.head root node found)
    | child k q opened _ ih =>
        obtain ⟨-, above, here, continued⟩ := rooted.parent k q node found opened
        rw [continued]
        exact List.mem_cons_of_mem k (ih above here)

theorem le_of_under (rooted : Rooted tree log) {root k : Nat} (inside : k < tree.length)
    (under : Under tree root k) : root ≤ k := by
  induction under with
  | itself => exact Nat.le_refl root
  | child k parent opened _ ih =>
      obtain ⟨older, -⟩ := rooted.parent k parent _ (List.getElem?_eq_getElem inside) opened
      exact Nat.le_trans (ih (Nat.lt_trans older inside)) (Nat.le_of_lt older)

theorem apart (rooted : Rooted tree log) (k parent : Nat) (opened : parentAt tree k = some parent) :
    ¬ Under tree k parent ∧
      ∀ sibling, sibling ≠ k → parentAt tree sibling = some parent → ¬ Under tree k sibling := by
  obtain ⟨node, found, -⟩ := Option.bind_eq_some_iff.mp opened
  obtain ⟨older, above, here, -⟩ := rooted.parent k parent node found opened
  have inside := (List.getElem?_eq_some_iff.mp here).1
  have aside : ¬ Under tree k parent := fun under => by
    have le := rooted.le_of_under inside under
    omega
  refine ⟨aside, ?_⟩
  intro sibling other beside under
  cases under with
  | itself => exact other rfl
  | child _ same there higher =>
      obtain rfl : parent = same := Option.some.inj (beside.symm.trans there)
      exact aside higher

end Rooted

end Tree

end ModalHost
