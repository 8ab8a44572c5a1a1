import WebhookReceiver.Txn.Recovery
import WebhookReceiver.Txn.Logic

/-!
What a transaction commits after what its call has already done.

The condition `wp` describes each transaction by the store it commits on. `along`
follows a program through its transactions without a store, by its trace and its waiting
writes alone, so it tells the phases of a call apart. `Discipline.phased` promises both
at once, and a program that meets both conditions keeps it (`Verified.phased`).
-/

namespace Txn

namespace Discipline

variable {Db W Lock Inp Call S Fact : Type} {R : S → Type} {ε α β γ : Type}
  {σ : System Db W Lock Inp Call S R ε α} (D : Discipline σ Fact)

/-- On every path of a program, from some waiting writes and a trace on: what is
committed meets `Φ`, and the end meets `Q`. -/
def along (Φ : List (Ev W S R ε) → List W → Prop) : Prog S R ε β → List W → List (Ev W S R ε) →
    (Except ε β → List W → List (Ev W S R ε) → Prop) → Prop
  | .done result, writes, trace, Q => Q result writes trace
  | .stmt s next, writes, trace, Q =>
    (∀ e, along Φ (next (.error e)) writes (trace ++ [.stmt s (.error e)]) Q) ∧
    ∀ a lesson, D.teaches s a lesson →
      along Φ (next (.ok a)) (writes ++ lesson.writes) (trace ++ [.stmt s (.ok a)]) Q
  | .commit next, writes, trace, Q =>
    Φ trace writes ∧ (∀ told, along Φ (next told) [] (trace ++ [.committed writes]) Q) ∧
    ∀ e, along Φ (next (.error e)) [] (trace ++ [.rolledBack]) Q
  | .rollback next, _, trace, Q => ∀ told, along Φ (next told) [] (trace ++ [.rolledBack]) Q

/-- The discipline that also tells the phases of its calls apart. -/
def phased (Φ : Call → List (Ev W S R ε) → List W → Prop)
    (Ψ : Call → Except ε α → List (Ev W S R ε) → Prop) : Discipline σ Fact :=
  { D with
    commits := fun call trace db writes => D.commits call trace db writes ∧ Φ call trace writes
    returns := fun call result trace => D.returns call result trace ∧ Ψ call result trace }

variable {D} {Φ : List (Ev W S R ε) → List W → Prop} {writes : List W} {trace : List (Ev W S R ε)}

/-! ## Rules -/

theorem along_mono {prog : Prog S R ε β} {Q Q' : Except ε β → List W → List (Ev W S R ε) → Prop}
    (weaker : ∀ r writes trace, Q r writes trace → Q' r writes trace)
    (met : D.along Φ prog writes trace Q) : D.along Φ prog writes trace Q' := by
  induction prog generalizing writes trace with
  | done result => exact weaker _ _ _ met
  | stmt s next ih =>
    exact ⟨fun e => ih _ (met.1 e), fun a lesson taught => ih _ (met.2 a lesson taught)⟩
  | commit next ih =>
    exact ⟨met.1, fun told => ih _ (met.2.1 told), fun e => ih _ (met.2.2 e)⟩
  | rollback next ih => exact fun told => ih _ (met told)

theorem along_andThen {first : Prog S R ε γ} {next : Except ε γ → Prog S R ε β}
    {Q : Except ε β → List W → List (Ev W S R ε) → Prop}
    (met : D.along Φ first writes trace fun r writes trace => D.along Φ (next r) writes trace Q) :
    D.along Φ (first.andThen next) writes trace Q := by
  induction first generalizing writes trace with
  | done result => exact met
  | stmt s rest ih =>
    exact ⟨fun e => ih _ (met.1 e), fun a lesson taught => ih _ (met.2 a lesson taught)⟩
  | commit rest ih =>
    exact ⟨met.1, fun told => ih _ (met.2.1 told), fun e => ih _ (met.2.2 e)⟩
  | rollback rest ih => exact fun told => ih _ (met told)

/-- A value leaves the writes and the trace that meet `P`; an exception may leave anything. -/
def Gives (P : β → List W → List (Ev W S R ε) → Prop) : Except ε β → List W → List (Ev W S R ε) → Prop
  | .ok value, writes, trace => P value writes trace
  | .error _, _, _ => True

theorem along_bind {first : Prog S R ε γ} {next : γ → Prog S R ε β}
    {P : γ → List W → List (Ev W S R ε) → Prop} {Q : β → List W → List (Ev W S R ε) → Prop}
    (met : D.along Φ first writes trace (Gives P))
    (rest : ∀ value writes trace, P value writes trace → D.along Φ (next value) writes trace (Gives Q)) :
    D.along Φ (first >>= next) writes trace (Gives Q) := by
  refine along_andThen (along_mono (fun r writes trace given => ?_) met)
  cases r with
  | ok value => exact rest value writes trace given
  | error e => exact trivial

theorem along_perform {s : S} {P : R s → List W → List (Ev W S R ε) → Prop}
    (answered : ∀ a lesson, D.teaches s a lesson → P a (writes ++ lesson.writes) (trace ++ [.stmt s (.ok a)])) :
    D.along Φ (Prog.perform s) writes trace (Gives P) :=
  ⟨fun _ => trivial, answered⟩

/-- A program that is held to nothing. -/
theorem along_trivial {prog : Prog S R ε β} (free : ∀ trace writes, Φ trace writes) :
    D.along Φ prog writes trace fun _ _ _ => True := by
  induction prog generalizing writes trace with
  | done result => exact trivial
  | stmt s next ih => exact ⟨fun e => ih _, fun a lesson _ => ih _⟩
  | commit next ih => exact ⟨free _ _, fun told => ih _, fun e => ih _⟩
  | rollback next ih => exact fun told => ih _

section Kinds

variable {P : S → Prop} {K : W → Prop} {I : List (Ev W S R ε) → Prop}

/-- Whole transactions of statements that write rows of a kind only. -/
theorem along_only {prog : Prog S R ε β} (only : prog.Only P)
    (kinds : ∀ s a lesson, P s → D.teaches s a lesson → ∀ write ∈ lesson.writes, K write)
    (kept : ∀ trace ev, (∀ writes, ev = .committed writes → ∀ write ∈ writes, K write) → I trace →
      I (trace ++ [ev]))
    (commits : ∀ trace writes, (∀ write ∈ writes, K write) → I trace → Φ trace writes)
    (pending : ∀ write ∈ writes, K write) (begun : I trace) :
    D.along Φ prog writes trace fun _ writes trace => (∀ write ∈ writes, K write) ∧ I trace := by
  induction prog generalizing writes trace with
  | done result => exact ⟨pending, begun⟩
  | stmt s next ih =>
    constructor
    · intro e
      exact ih _ (only.2 _) pending (kept _ _ (by simp) begun)
    · intro a lesson taught
      refine ih _ (only.2 _) (fun write member => ?_) (kept _ _ (by simp) begun)
      rcases List.mem_append.mp member with old | new
      · exact pending write old
      · exact kinds s a lesson only.1 taught write new
  | commit next ih =>
    refine ⟨commits _ _ pending begun, fun told => ?_, fun e => ?_⟩
    · exact ih _ (only _) (by simp) (kept _ _ (by rintro _ ⟨⟩; exact pending) begun)
    · exact ih _ (only _) (by simp) (kept _ _ (by simp) begun)
  | rollback next ih => exact fun told => ih _ (only _) (by simp) (kept _ _ (by simp) begun)

/-- A piece of a transaction of such statements. -/
theorem along_piece {T : ε → Prop} {prog : Prog S R ε β} (throws : prog.Throws T) (only : prog.Only P)
    (kinds : ∀ s a lesson, P s → D.teaches s a lesson → ∀ write ∈ lesson.writes, K write)
    (kept : ∀ trace s answer, I trace → I (trace ++ [.stmt s answer])) (begun : I trace) :
    D.along Φ prog writes trace fun _ writes' trace =>
      (∃ more, writes' = writes ++ more ∧ ∀ write ∈ more, K write) ∧ I trace := by
  induction prog generalizing writes trace with
  | done result => exact ⟨⟨[], by simp⟩, begun⟩
  | stmt s next ih =>
    constructor
    · intro e
      exact ih _ (throws.2 _) (only.2 _) (kept _ _ _ begun)
    · intro a lesson taught
      refine along_mono ?_ (ih _ (throws.2 _) (only.2 _) (kept _ _ _ begun))
      rintro r writes' trace' ⟨⟨more, rfl, kind⟩, holds⟩
      refine ⟨⟨lesson.writes ++ more, List.append_assoc .., fun write member => ?_⟩, holds⟩
      rcases List.mem_append.mp member with first | later
      · exact kinds s a lesson only.1 taught write first
      · exact kind write later
  | commit next ih => exact throws.elim
  | rollback next ih => exact throws.elim

end Kinds

/-! ## Both conditions at once -/

section Phased

variable {Φ : Call → List (Ev W S R ε) → List W → Prop}
  {Ψ : Call → Except ε α → List (Ev W S R ε) → Prop} {call : Call}

theorem wp_phased {prog : Prog S R ε β} {c : Ctx Db W Lock S R ε}
    {Q : Except ε β → Ctx Db W Lock S R ε → Prop} {Q' : Except ε β → List W → List (Ev W S R ε) → Prop}
    (met : D.wp call prog c Q) (met' : D.along (Φ call) prog c.writes c.trace Q') :
    (D.phased Φ Ψ).wp call prog c fun r c => Q r c ∧ Q' r c.writes c.trace := by
  induction prog generalizing c with
  | done result => exact ⟨met, met'⟩
  | stmt s next ih =>
    obtain ⟨obeyed, failed, answered⟩ := met
    exact ⟨obeyed, fun e raised => ih _ (failed e raised) (met'.1 e),
      fun a lesson taught facts => ih _ (answered a lesson taught facts) (met'.2 a lesson taught)⟩
  | commit next ih =>
    obtain ⟨described, ⟨keep, kept, ended⟩, failed⟩ := met
    exact ⟨⟨described, met'.1⟩, ⟨keep, kept, fun answer ends db good facts =>
      ih _ (ended answer ends db good facts) (met'.2.1 answer)⟩,
      fun e faulted db good => ih _ (failed e faulted db good) (met'.2.2 e)⟩
  | rollback next ih =>
    exact fun answer ends db good => ih _ (met answer ends db good) (met' answer)

theorem Verified.phased (verified : D.Verified) (told : ∀ call, D.calls call →
    D.along (Φ call) (σ.program call) [] [] fun r _ trace => Ψ call r trace) :
    (D.phased Φ Ψ).Verified := by
  intro call called db good
  exact wp_phased (verified call called db good) (told call called)

end Phased

end Discipline

end Txn
