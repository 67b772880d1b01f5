/-! # Computations that leave a trail

`Traced ω ε α` is a computation that records events of type `ω` and then
either fails with an `ε` or yields an `α`. The events recorded before a
failure are kept, in the order in which they arose.
-/

namespace Bindgen

/-- The events of a computation, in order, together with its outcome. -/
structure Traced (ω ε α : Type) where
  events : List ω
  outcome : Except ε α

namespace Traced

variable {ω ε α β γ : Type}

def done (a : α) : Traced ω ε α := ⟨[], .ok a⟩

def note (event : ω) : Traced ω ε Unit := ⟨[event], .ok ()⟩

def notes (events : List ω) : Traced ω ε Unit := ⟨events, .ok ()⟩

def fail (cause : ε) : Traced ω ε α := ⟨[], .error cause⟩

/-- Run `x`, then `f` on its value; the events of `x` come first, and a
failure of `x` ends the computation. -/
def andThen (x : Traced ω ε α) (f : α -> Traced ω ε β) : Traced ω ε β :=
  match x with
  | ⟨before, .ok a⟩ =>
    let y := f a
    ⟨before ++ y.events, y.outcome⟩
  | ⟨before, .error e⟩ => ⟨before, .error e⟩

instance : Monad (Traced ω ε) where
  pure := done
  bind := andThen

theorem andThen_ok (events : List ω) (a : α) (f : α -> Traced ω ε β) :
    andThen ⟨events, .ok a⟩ f = ⟨events ++ (f a).events, (f a).outcome⟩ := rfl

@[simp] theorem done_andThen (a : α) (f : α -> Traced ω ε β) :
    andThen (done a) f = f a := by
  simp [andThen, done]

@[simp] theorem andThen_done (x : Traced ω ε α) : andThen x done = x := by
  obtain ⟨events, outcome⟩ := x
  cases outcome <;> simp [andThen, done]

theorem andThen_assoc (x : Traced ω ε α) (f : α -> Traced ω ε β) (g : β -> Traced ω ε γ) :
    andThen (andThen x f) g = andThen x fun a => andThen (f a) g := by
  obtain ⟨events, outcome⟩ := x
  cases outcome with
  | error e => rfl
  | ok a =>
    simp only [andThen_ok]
    obtain ⟨inner, outcome⟩ := f a
    cases outcome <;> simp [andThen]

instance : LawfulMonad (Traced ω ε) := LawfulMonad.mk' _
  (fun x => andThen_done x)
  (fun a f => done_andThen a f)
  (fun x f g => andThen_assoc x f g)

def traverse (f : α -> Traced ω ε β) : List α -> Traced ω ε (List β)
  | [] => done []
  | a :: as => do
    let b ← f a
    let bs ← traverse f as
    done (b :: bs)

def fold (f : β -> α -> Traced ω ε β) : β -> List α -> Traced ω ε β
  | b, [] => done b
  | b, a :: as => do
    let b ← f b a
    fold f b as

/-- Like `traverse`, for a function that also needs to know that its argument
is an element of the list. -/
def traverseMem : (as : List α) -> ((a : α) -> a ∈ as -> Traced ω ε β) -> Traced ω ε (List β)
  | [], _ => done []
  | a :: as, f => do
    let b ← f a (List.mem_cons_self ..)
    let bs ← traverseMem as fun a' h => f a' (List.mem_cons_of_mem _ h)
    done (b :: bs)

theorem traverseMem_eq_traverse (f : α -> Traced ω ε β) (as : List α) :
    (traverseMem as fun a _ => f a) = traverse f as := by
  induction as with
  | nil => rfl
  | cons a as ih => simp [traverseMem, traverse, ih]

/-- The same computation with its cause of failure carried into another type. -/
def mapError {ε' : Type} (f : ε -> ε') (x : Traced ω ε α) : Traced ω ε' α :=
  ⟨x.events, match x.outcome with
    | .ok a => .ok a
    | .error e => .error (f e)⟩

end Traced

end Bindgen
