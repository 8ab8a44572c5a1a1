import WebhookReceiver.Txn.Lone

/-!
Pieces of a transaction, for a thread with the store to itself.

`Prog.Piece` says at once what most pieces of a program are worth knowing of: they end no
transaction, their statements are of one kind, and they raise nothing but what the store may
raise to them. `lone_keeps` runs such a piece: what every statement of the kind keeps, the
piece keeps.
-/

namespace Txn

variable {Db W Lock Inp Call S : Type} {R : S → Type} {ε α β γ : Type} {P : S → Prop} {T : ε → Prop}

/-- The program ends no transaction, its statements are of a kind, and if what the store raises
is of a kind, so is what the program raises. -/
def Prog.Piece (P : S → Prop) (T : ε → Prop) : Prog S R ε α → Prop
  | .done result => ∀ e, result = .error e → T e
  | .stmt s next => P s ∧ (∀ a, (next (.ok a)).Piece P T) ∧ ∀ e, T e → (next (.error e)).Piece P T
  | .commit _ | .rollback _ => False

namespace Prog

theorem piece_pure (value : α) : (pure value : Prog S R ε α).Piece P T := by
  rintro e ⟨⟩

theorem piece_throw {e : ε} (kind : T e) : (throw e : Prog S R ε α).Piece P T := by
  rintro _ ⟨⟩
  exact kind

theorem piece_perform {s : S} (kind : P s) : (perform s : Prog S R ε (R s)).Piece P T := by
  refine ⟨kind, fun a => ?_, fun e raised => ?_⟩
  · rintro _ ⟨⟩
  · rintro _ ⟨⟩
    exact raised

theorem piece_andThen {first : Prog S R ε γ} {next : Except ε γ → Prog S R ε β} (begins : first.Piece P T)
    (values : ∀ value, (next (.ok value)).Piece P T) (errors : ∀ e, T e → (next (.error e)).Piece P T) :
    (first.andThen next).Piece P T := by
  induction first with
  | done result =>
    cases result with
    | ok value => exact values value
    | error e => exact errors e (begins e rfl)
  | stmt s rest ih =>
    obtain ⟨kind, answered, failed⟩ := begins
    exact ⟨kind, fun a => ih _ (answered a), fun e raised => ih _ (failed e raised)⟩
  | commit rest ih => exact begins.elim
  | rollback rest ih => exact begins.elim

theorem piece_bind {first : Prog S R ε γ} {next : γ → Prog S R ε β} (begins : first.Piece P T)
    (goesOn : ∀ value, (next value).Piece P T) : (first >>= next).Piece P T := by
  refine piece_andThen begins goesOn fun e raised => ?_
  rintro _ ⟨⟩
  exact raised

/-- Of what a piece raises nothing is said. -/
theorem piece_of_only {prog : Prog S R ε α} (inner : prog.Inner) (only : prog.Only P) :
    prog.Piece P fun _ => True := by
  induction prog with
  | done result => exact fun _ _ => trivial
  | stmt s next ih => exact ⟨only.1, fun a => ih _ (inner _) (only.2 _), fun e _ => ih _ (inner _) (only.2 _)⟩
  | commit next ih => exact inner.elim
  | rollback next ih => exact inner.elim

end Prog

section Lone

variable {σ : System Db W Lock Inp Call S R ε α} {t : Tid} {call : Call}
    {strikes : List (Ev W S R ε) → ε → Prop}
  {c : Lone Db W Call S R ε}

theorem lone_and {prog : Prog S R ε β} {Q Q' : Except ε β → Lone Db W Call S R ε → Prop}
    (met : σ.lone t call strikes prog c Q) (met' : σ.lone t call strikes prog c Q') :
    σ.lone t call strikes prog c fun r c => Q r c ∧ Q' r c := by
  induction prog generalizing c with
  | done result => exact ⟨met, met'⟩
  | stmt s next ih =>
    constructor
    · intro input reply ran
      exact ih _ (met.1 input reply ran) (met'.1 input reply ran)
    · intro e striking
      exact ih _ (met.2 e striking) (met'.2 e striking)
  | commit next ih => exact ⟨ih _ met.1 met'.1, fun e striking => ih _ (met.2 e striking) (met'.2 e striking)⟩
  | rollback next ih => exact fun answer ends => ih _ (met answer ends) (met' answer ends)

/-- A piece keeps what each of its statements keeps. -/
theorem lone_keeps {I : Lone Db W Call S R ε → Prop}
    (answered : ∀ c s input reply, I c → P s →
      σ.exec (fun _ _ => true) input (σ.applyAll c.writes c.db) s = some reply →
      I { c with
        db := σ.applyAll reply.instant c.db
        writes := c.writes ++ reply.writes
        trace := c.trace ++ [.stmt s reply.answer] } ∧ ∀ e, reply.answer = .error e → T e)
    (struck : ∀ c s e, I c → strikes c.trace e → I { c with trace := c.trace ++ [.stmt s (.error e)] } ∧ T e)
    {prog : Prog S R ε β} (piece : prog.Piece P T) (begun : I c) :
    σ.lone t call strikes prog c fun r c' => I c' ∧ ∀ e, r = .error e → T e := by
  induction prog generalizing c with
  | done result => exact ⟨begun, piece⟩
  | stmt s next ih =>
    obtain ⟨kind, values, errors⟩ := piece
    constructor
    · intro input reply ran
      obtain ⟨goesOn, raised⟩ := answered c s input reply begun kind ran
      cases told : reply.answer with
      | ok a => exact ih _ (values a) (told ▸ goesOn)
      | error e => exact ih _ (errors e (raised e told)) (told ▸ goesOn)
    · intro e striking
      obtain ⟨goesOn, raised⟩ := struck c s e begun striking
      exact ih _ (errors e raised) goesOn
  | commit next ih => exact piece.elim
  | rollback next ih => exact piece.elim

end Lone

end Txn
