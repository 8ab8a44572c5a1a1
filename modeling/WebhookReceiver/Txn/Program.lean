/-!
Programs that talk to a transactional store, as trees of statements. A program
runs one statement at a time and continues with the answer; `commit` and
`rollback` end the transaction that its statements since the last end make up.
Every answer may be an exception, so a program says for each statement what it
does when the statement fails. Nothing here says what a statement means: that is
the `System` of `Txn.World`.
-/

namespace Txn

/-- A program over the statements `S`. `R s` is what the statement `s` answers,
`ε` the exceptions and `α` the program's own result. -/
inductive Prog (S : Type) (R : S → Type) (ε α : Type) : Type where
  | done (result : Except ε α)
  | stmt (s : S) (next : Except ε (R s) → Prog S R ε α)
  | commit (next : Except ε Unit → Prog S R ε α)
  | rollback (next : Except ε Unit → Prog S R ε α)

namespace Prog

variable {S : Type} {R : S → Type} {ε α β γ : Type}

/-- Continue with the outcome of `first`, be it a value or an exception. -/
def andThen (first : Prog S R ε α) (next : Except ε α → Prog S R ε β) : Prog S R ε β :=
  match first with
  | .done result => next result
  | .stmt s rest => .stmt s fun answer => (rest answer).andThen next
  | .commit rest => .commit fun answer => (rest answer).andThen next
  | .rollback rest => .rollback fun answer => (rest answer).andThen next

/-- What follows a value; an exception skips it. -/
def onValue (next : α → Prog S R ε β) : Except ε α → Prog S R ε β
  | .ok value => next value
  | .error e => .done (.error e)

/-- What follows an exception; a value skips it. -/
def onError (handler : ε → Prog S R ε α) : Except ε α → Prog S R ε α
  | .ok value => .done (.ok value)
  | .error e => handler e

/-- The program has come to its result. -/
def isDone : Prog S R ε α → Bool
  | .done _ => true
  | _ => false

theorem isDone_iff {prog : Prog S R ε α} : prog.isDone = true ↔ ∃ result, prog = .done result := by
  cases prog <;> simp [isDone]

instance : Monad (Prog S R ε) where
  pure value := .done (.ok value)
  bind first next := first.andThen (onValue next)

instance : MonadExceptOf ε (Prog S R ε) where
  throw e := .done (.error e)
  tryCatch body handler := body.andThen (onError handler)

/-- A single statement, answering what the store answers. -/
def perform (s : S) : Prog S R ε (R s) := .stmt s .done

/-- A computation that touches no store. -/
def ofExcept (result : Except ε α) : Prog S R ε α := .done result

@[simp] theorem bind_eq (first : Prog S R ε α) (next : α → Prog S R ε β) :
    first >>= next = first.andThen (onValue next) := rfl

@[simp] theorem pure_eq (value : α) : (pure value : Prog S R ε α) = .done (.ok value) := rfl

@[simp] theorem throw_eq (e : ε) : (throw e : Prog S R ε α) = .done (.error e) := rfl

@[simp] theorem tryCatch_eq (body : Prog S R ε α) (handler : ε → Prog S R ε α) :
    tryCatch body handler = body.andThen (onError handler) := rfl

@[simp] theorem andThen_done (result : Except ε α) (next : Except ε α → Prog S R ε β) :
    (done result : Prog S R ε α).andThen next = next result := rfl

@[simp] theorem onValue_ok (next : α → Prog S R ε β) (value : α) :
    onValue next (.ok value) = next value := rfl

@[simp] theorem onValue_error (next : α → Prog S R ε β) (e : ε) :
    onValue next (.error e) = .done (.error e) := rfl

@[simp] theorem onError_ok (handler : ε → Prog S R ε α) (value : α) :
    onError handler (.ok value) = .done (.ok value) := rfl

@[simp] theorem onError_error (handler : ε → Prog S R ε α) (e : ε) :
    onError handler (.error e) = handler e := rfl

/-- Every statement that the program can come to is of a kind. -/
def Only (P : S → Prop) : Prog S R ε α → Prop
  | .done _ => True
  | .stmt s next => P s ∧ ∀ answer, (next answer).Only P
  | .commit next => ∀ answer, (next answer).Only P
  | .rollback next => ∀ answer, (next answer).Only P

theorem Only.mono {P P' : S → Prop} {prog : Prog S R ε α} (weaker : ∀ s, P s → P' s) (only : prog.Only P) :
    prog.Only P' := by
  induction prog with
  | done result => exact trivial
  | stmt s next ih => exact ⟨weaker s only.1, fun answer => ih answer (only.2 answer)⟩
  | commit next ih => exact fun answer => ih answer (only answer)
  | rollback next ih => exact fun answer => ih answer (only answer)

theorem only_andThen {P : S → Prop} {first : Prog S R ε α} {next : Except ε α → Prog S R ε β}
    (begins : first.Only P) (goesOn : ∀ result, (next result).Only P) : (first.andThen next).Only P := by
  induction first with
  | done result => exact goesOn result
  | stmt s rest ih => exact ⟨begins.1, fun answer => ih answer (begins.2 answer)⟩
  | commit rest ih => exact fun answer => ih answer (begins answer)
  | rollback rest ih => exact fun answer => ih answer (begins answer)

end Prog

end Txn
