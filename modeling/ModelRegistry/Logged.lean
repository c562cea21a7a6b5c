/-!
# Values with a log

A `Logged ε α` is a value together with the entries noted while it was made. Visiting a list makes
one logged step for each item, in order.
-/

namespace ModelRegistry

structure Logged (ε α : Type) where
  value : α
  log : List ε

namespace Logged

variable {ε α β : Type}

def note (entry : ε) : Logged ε Unit := ⟨(), [entry]⟩

instance : Monad (Logged ε) where
  pure a := ⟨a, []⟩
  bind x f := ⟨(f x.value).value, x.log ++ (f x.value).log⟩

@[simp] theorem value_pure (a : α) : (pure a : Logged ε α).value = a := rfl

@[simp] theorem log_pure (a : α) : (pure a : Logged ε α).log = [] := rfl

@[simp] theorem value_bind (x : Logged ε α) (f : α → Logged ε β) :
    (x >>= f).value = (f x.value).value := rfl

@[simp] theorem log_bind (x : Logged ε α) (f : α → Logged ε β) :
    (x >>= f).log = x.log ++ (f x.value).log := rfl

def visit (f : α → Logged ε β) : List α → Logged ε (List β)
  | [] => pure []
  | a :: as => do
    let b ← f a
    let bs ← visit f as
    return b :: bs

theorem value_visit (f : α → Logged ε β) (as : List α) :
    (visit f as).value = as.map fun a => (f a).value := by
  induction as with
  | nil => rfl
  | cons a as ih => simp [visit, ih]

theorem log_visit (f : α → Logged ε β) (as : List α) :
    (visit f as).log = as.flatMap fun a => (f a).log := by
  induction as with
  | nil => rfl
  | cons a as ih => simp [visit, ih]

end Logged

end ModelRegistry
