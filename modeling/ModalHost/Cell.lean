/-!
Observable cells: a value with the number of writes that observers are told of.
-/
namespace ModalHost

structure Cell (α : Type) where
  value : α
  version : Nat
  deriving DecidableEq, Repr

namespace Cell

variable {α : Type}

def new (value : α) : Cell α := ⟨value, 0⟩

/-- A write that observers are told of whatever the value was. -/
def publish (cell : Cell α) (value : α) : Cell α := ⟨value, cell.version + 1⟩

/-- A write that observers are told of only if the value changes. -/
def set [DecidableEq α] (cell : Cell α) (value : α) : Cell α :=
  if cell.value = value then cell else cell.publish value

@[simp] theorem value_new (value : α) : (new value).value = value := rfl

@[simp] theorem value_publish (cell : Cell α) (value : α) : (cell.publish value).value = value :=
  rfl

@[simp] theorem value_set [DecidableEq α] (cell : Cell α) (value : α) :
    (cell.set value).value = value := by
  unfold set
  split <;> simp_all

theorem version_set [DecidableEq α] (cell : Cell α) (value : α) :
    (cell.set value).version = if cell.value = value then cell.version else cell.version + 1 := by
  unfold set
  split <;> rfl

end Cell

end ModalHost
