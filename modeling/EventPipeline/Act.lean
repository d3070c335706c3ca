import EventPipeline.Log

/-! # Actions

An `Act ω α` is something done to a world of type `ω`: it answers a value of type `α`, leaves a
world behind and logs entries on the way. Actions follow one another with `bind`, which joins their
logs.
-/

namespace EventPipeline

/-- An action on a world, answering a value and logging entries. -/
def Act (ω α : Type) := ω → α × ω × List LogEntry

namespace Act

variable {ω α β : Type}

/-- Answers without doing anything. -/
def pure (a : α) : Act ω α := fun w => (a, w, [])

/-- Does one action and then the one its answer calls for. -/
def bind (act : Act ω α) (next : α → Act ω β) : Act ω β := fun w =>
  let (a, w, log) := act w
  let (b, w, more) := next a w
  (b, w, log ++ more)

instance : Monad (Act ω) where
  pure := Act.pure
  bind := Act.bind

/-- Logs an entry. -/
def log (e : LogEntry) : Act ω Unit := fun w => ((), w, [e])

/-- Looks at the world. -/
def read (f : ω → α) : Act ω α := fun w => (f w, w, [])

/-- Changes the world. -/
def modify (f : ω → ω) : Act ω Unit := fun w => ((), f w, [])

@[simp] theorem pure_apply (a : α) (w : ω) : (Pure.pure a : Act ω α) w = (a, w, []) := rfl

@[simp] theorem bind_apply (act : Act ω α) (next : α → Act ω β) (w : ω) :
    (act >>= next) w =
      ((next (act w).1 (act w).2.1).1, (next (act w).1 (act w).2.1).2.1,
        (act w).2.2 ++ (next (act w).1 (act w).2.1).2.2) := rfl

@[simp] theorem log_apply (e : LogEntry) (w : ω) : log e w = ((), w, [e]) := rfl

@[simp] theorem read_apply (f : ω → α) (w : ω) : read f w = (f w, w, []) := rfl

@[simp] theorem modify_apply (f : ω → ω) (w : ω) : modify f w = ((), f w, []) := rfl

end Act

end EventPipeline
