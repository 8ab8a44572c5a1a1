import WebhookReceiver.Solitude
import WebhookReceiver.Store.Blanks
import WebhookReceiver.Txn.Pairs

/-!
Statements on two stores that differ only where payloads reach.

`errorText` is what a write persists about a failure. `textBond` is what the stores of two
passes have in common whose payloads differ, and the lemmas `answers_..` say of each
statement of a pass what the two stores answer. The stores refuse alike unless an argument
is out of the range of the driver (`Stmt.quotes`, `Refusals`).
-/

namespace WebhookReceiver

open Txn (Bond)

/-! ## What is persisted about a failure -/

/-- A string about a failure, with the column it is in. -/
inductive ErrorText where
  | errorDetail (text : String)
  | lastError (text : String)
  | reason (text : String)
  deriving DecidableEq

def Write.errorText : Write → Option ErrorText
  | .insertAttempt row => row.errorDetail.map .errorDetail
  | .updateEvent _ queue => queue.lastError.map .lastError
  | .insertEntry row => some (.reason row.reason)
  | _ => none

/-- The strings that a pass has persisted, oldest first. -/
def Trace.errorTexts (trace : Trace) : List ErrorText := (Txn.commits trace).flatten.filterMap Write.errorText

/-! ## What two passes have in common -/

/-- Neither write is about a failure, or both put a pair of details into the same form. -/
inductive Said (said : String → String → Prop) : Option ErrorText → Option ErrorText → Prop where
  | silent : Said said none none
  | text {detail detail' : String} (form : String → ErrorText) (injective : Function.Injective form)
      (told : said detail detail') : Said said (some (form detail)) (some (form detail'))

/-- Two stores, and the writes on them, that differ only where payloads reach, and in pairs
of details. -/
def textBond (svc : Service) (said : String → String → Prop) : Bond svc.system where
  store db db' := db.blank = db'.blank
  write written written' :=
    written.blank = written'.blank ∧ Said said written.errorText written'.errorText
  kept := fun stores writes => apply_akin stores writes.1
  shared := fun _ stores => apply_akin stores rfl

section Answers

variable {svc : Service} {said : String → String → Prop}

theorem same_writes {writes : List Write} (silent : ∀ write ∈ writes, write.errorText = none) :
    List.Forall₂ (textBond svc said).write writes writes := by
  refine List.forall₂_same.mpr fun write member => ⟨rfl, ?_⟩
  rw [silent write member]
  exact .silent

theorem draw_written (table : Table) :
    List.Forall₂ (textBond svc said).write [.draw table] [.draw table] :=
  same_writes (by simp [Write.errorText])

theorem read_silent {ρ : Type} {answer : ρ} {locks : List (Lock × Txn.Mode)}
    {reply : Txn.Reply Write Lock Exc ρ} (ran : read answer locks = some reply) :
    reply.writes = [] ∧ reply.instant = [] := by
  obtain rfl := Option.some.inj ran
  exact ⟨rfl, rfl⟩

/-- A blind statement says nothing about a failure. -/
theorem blind_silent {s : Stmt} (blind : s.blind = true) {avail : Lock → Txn.Mode → Bool} {input : Input}
    {view : Db} {reply : Txn.Reply Write Lock Exc s.Answer} (ran : s.exec avail input view = some reply) :
    (∀ write ∈ reply.writes, write.errorText = none) ∧ ∀ write ∈ reply.instant, write.errorText = none := by
  have drawn : ∀ table, ∀ write ∈ [Write.draw table], write.errorText = none := by simp [Write.errorText]
  have silent : reply.writes = [] ∧ reply.instant = [] →
      (∀ write ∈ reply.writes, write.errorText = none) ∧ ∀ write ∈ reply.instant, write.errorText = none := by
    rintro ⟨writes, instant⟩
    simp [writes, instant]
  cases s with
  | insertAccount externalRef =>
    simp only [Stmt.exec, execInsertAccount] at ran
    obtain ⟨instant, writes⟩ := insertUnder_shape ran
    refine ⟨fun write member => ?_, instant ▸ drawn _⟩
    rw [writes write member]
    rfl
  | insertAttempt attempt =>
    have none : attempt.errorDetail = none := Option.isNone_iff_eq_none.mp blind
    simp only [Stmt.exec, execInsertAttempt] at ran
    obtain ⟨instant, writes⟩ := insertUnder_shape ran
    refine ⟨fun write member => ?_, instant ▸ drawn _⟩
    rw [writes write member, Write.errorText, none, Option.map_none]
  | accountIdOf externalRef =>
    simp only [Stmt.exec] at ran
    split at ran
    · obtain rfl := Option.some.inj ran
      exact silent ⟨rfl, rfl⟩
    · exact silent (read_silent ran)
  | now | uniform | maxAttemptNumber | setLockTimeout | advisoryXactLock => exact silent (read_silent ran)
  | _ => cases blind

/-- Two runs of a blind statement are told the same. -/
theorem answers_blind {s : Stmt} (blind : s.blind = true) : (textBond svc said).Answers s s Eq := by
  intro avail input view view' reply reply' akin ran ran'
  have same : s.exec avail input view = s.exec avail input view' := by
    rw [← exec_blank view blind, ← exec_blank view' blind]
    exact congrArg (s.exec avail input) akin
  obtain rfl : reply = reply' := Option.some.inj (ran.symm.trans (same.trans ran'))
  obtain ⟨writes, instant⟩ := blind_silent blind ran
  exact ⟨rfl, fun _ => ⟨same_writes writes, fun db db' => (textBond svc said).sharedAll _⟩⟩

/-- Two inserts under the same key of rows that are alike. -/
theorem insertUnder_pair {ρ : Type} {A : Except Exc ρ → Except Exc ρ → Prop} {avail : Lock → Txn.Mode → Bool}
    {key : Lock} {table : Table} {taken : Bool} {conflict : Except Exc ρ} {unmet : Option Exc}
    {inserted inserted' : ρ} {write write' : Write} {locks : List (Lock × Txn.Mode)}
    {reply reply' : Txn.Reply Write Lock Exc ρ} (given : A conflict conflict)
    (broken : ∀ e, A (.error e) (.error e)) (made : A (.ok inserted) (.ok inserted'))
    (alike : (textBond svc said).write write write')
    (ran : insertUnder avail key table taken conflict unmet inserted write locks = some reply)
    (ran' : insertUnder avail key table taken conflict unmet inserted' write' locks = some reply') :
    List.Forall₂ (textBond svc said).write reply.writes reply'.writes ∧
      List.Forall₂ (textBond svc said).write reply.instant reply'.instant ∧ A reply.answer reply'.answer := by
  rcases insertUnder_some ran with ⟨there, rfl⟩ | ⟨free, e, unmet, rfl⟩ | ⟨free, whole, rfl⟩
  · rcases insertUnder_some ran' with ⟨-, rfl⟩ | ⟨free', -⟩ | ⟨free', -⟩
    · exact ⟨.nil, draw_written table, given⟩
    · simp [there] at free'
    · simp [there] at free'
  · rcases insertUnder_some ran' with ⟨there', -⟩ | ⟨-, e', unmet', rfl⟩ | ⟨-, whole', -⟩
    · simp [free] at there'
    · obtain rfl : e = e' := Option.some.inj (unmet.symm.trans unmet')
      exact ⟨.nil, draw_written table, broken e⟩
    · simp [unmet] at whole'
  · rcases insertUnder_some ran' with ⟨there', -⟩ | ⟨-, e', unmet', -⟩ | ⟨-, -, rfl⟩
    · simp [free] at there'
    · simp [whole] at unmet'
    · exact ⟨.cons alike .nil, draw_written table, made⟩

/-- Statements that make pairs of writes whatever they answer. -/
theorem answers_of_exec {s s' : Stmt} {A : Except Exc s.Answer → Except Exc s'.Answer → Prop}
    (alike : ∀ avail input view view' reply reply', Db.blank view = Db.blank view' →
      s.exec avail input view = some reply → s'.exec avail input view' = some reply' →
      List.Forall₂ (textBond svc said).write reply.writes reply'.writes ∧
        List.Forall₂ (textBond svc said).write reply.instant reply'.instant ∧ A reply.answer reply'.answer) :
    (textBond svc said).Answers s s' A := by
  intro avail input view view' reply reply' akin ran ran'
  obtain ⟨writes, instant, answered⟩ := alike avail input view view' reply reply' akin ran ran'
  exact ⟨answered, fun _ => ⟨writes, fun db db' stores => (textBond svc said).keptAll stores instant⟩⟩

theorem answers_insertAttempt {attempt : Attempt} {detail detail' : String} (told : said detail detail') :
    (textBond svc said).Answers (.insertAttempt { attempt with errorDetail := some detail })
      (.insertAttempt { attempt with errorDetail := some detail' }) fun a a' => a = a' := by
  refine answers_of_exec fun avail input view view' reply reply' akin ran ran' => ?_
  simp only [Stmt.exec] at ran ran'
  rw [← execInsertAttempt_blank, akin] at ran
  rw [← execInsertAttempt_blank] at ran'
  refine insertUnder_pair rfl (fun _ => rfl) rfl ⟨?_, ?_⟩ ran ran'
  · rfl
  · exact .text .errorDetail (fun _ _ => ErrorText.errorDetail.inj) told

theorem answers_insertDeadLetterEntry {eventId made : Nat} {reason reason' : String}
    (told : Said said (some (.reason reason)) (some (.reason reason'))) :
    (textBond svc said).Answers (.insertDeadLetterEntry eventId made reason)
      (.insertDeadLetterEntry eventId made reason') fun a a' => a = a' := by
  refine answers_of_exec fun avail input view view' reply reply' akin ran ran' => ?_
  simp only [Stmt.exec] at ran ran'
  rw [← execInsertDeadLetterEntry_blank, akin] at ran
  rw [← execInsertDeadLetterEntry_blank] at ran'
  refine insertUnder_pair rfl (fun _ => rfl) rfl ⟨?_, ?_⟩ ran ran'
  · rfl
  · exact told

/-- A row that two stores have in common, or that neither has. -/
theorem map_pair {ρ κ : Type} {f : ρ → κ} {found found' : Option ρ} (same : found.map f = found'.map f) :
    (found = none ∧ found' = none) ∨ ∃ row row', found = some row ∧ found' = some row' ∧ f row = f row' := by
  cases found <;> cases found' <;> simp_all

theorem event?_pair {view view' : Db} (akin : view.blank = view'.blank) (id : Nat) :
    (view.event? id = none ∧ view'.event? id = none) ∨
    ∃ row row', view.event? id = some row ∧ view'.event? id = some row' ∧ row.blank = row'.blank :=
  map_pair (by rw [← event?_blank, ← event?_blank, akin])

theorem account?_pair {view view' : Db} (akin : view.blank = view'.blank) (id : Nat) :
    (view.account? id = none ∧ view'.account? id = none) ∨
    ∃ row row', view.account? id = some row ∧ view'.account? id = some row' ∧ row.blank = row'.blank :=
  map_pair (by rw [← account?_blank, ← account?_blank, akin])

/-- The two answers are the same event, but for its payload. -/
def SameEvent (a a' : Except Exc (Option StoredEvent)) : Prop :=
  a.map (Option.map StoredEvent.blank) = a'.map (Option.map StoredEvent.blank)

theorem answers_claim {eventId : Nat} {due : Time} :
    (textBond svc said).Answers (.claim eventId due) (.claim eventId due) SameEvent := by
  refine answers_of_exec fun avail input view view' reply reply' akin ran ran' => ?_
  simp only [Stmt.exec] at ran ran'
  rcases event?_pair akin eventId with ⟨none, none'⟩ | ⟨row, row', found, found', same⟩
  · rw [none] at ran
    rw [none'] at ran'
    cases ran
    cases ran'
    exact ⟨.nil, .nil, rfl⟩
  · have status : row.status = row'.status := congrArg (·.status) same
    have ready : row.nextAttemptAt = row'.nextAttemptAt := congrArg (·.nextAttemptAt) same
    have seen : row.toDomain.blank = row'.toDomain.blank := congrArg EventRow.toDomain same
    simp only [found, status, ready] at ran
    simp only [found'] at ran'
    split at ran
    · rename_i taken
      rw [if_pos taken] at ran'
      cases ran
      cases ran'
      exact ⟨.nil, .nil, congrArg (fun event => Except.ok (some event)) seen⟩
    · rename_i left
      rw [if_neg left] at ran'
      cases ran
      cases ran'
      exact ⟨.nil, .nil, rfl⟩

theorem answers_loadForUpdate {eventId : Nat} :
    (textBond svc said).Answers (.loadForUpdate eventId) (.loadForUpdate eventId) SameEvent := by
  refine answers_of_exec fun avail input view view' reply reply' akin ran ran' => ?_
  simp only [Stmt.exec] at ran ran'
  rcases event?_pair akin eventId with ⟨none, none'⟩ | ⟨row, row', found, found', same⟩
  · rw [none] at ran
    rw [none'] at ran'
    cases ran
    cases ran'
    exact ⟨.nil, .nil, rfl⟩
  · have seen : row.toDomain.blank = row'.toDomain.blank := congrArg EventRow.toDomain same
    rw [found] at ran
    rw [found'] at ran'
    cases ran
    cases ran'
    exact ⟨.nil, .nil, congrArg (fun event => Except.ok (some event)) seen⟩

theorem answers_updateEvent {eventId : Nat} {values values' : EventQueue → EventQueue}
    (alike : ∀ queue queue', queue.blank = queue'.blank → (values queue).blank = (values' queue').blank ∧
      Said said (Write.updateEvent eventId (values queue)).errorText
        (Write.updateEvent eventId (values' queue')).errorText) :
    (textBond svc said).Answers (.updateEvent eventId values) (.updateEvent eventId values')
      fun a a' => a = a' := by
  refine answers_of_exec fun avail input view view' reply reply' akin ran ran' => ?_
  simp only [Stmt.exec] at ran ran'
  rcases event?_pair akin eventId with ⟨none, none'⟩ | ⟨row, row', found, found', same⟩
  · rw [none] at ran
    rw [none'] at ran'
    cases ran
    cases ran'
    exact ⟨.nil, .nil, rfl⟩
  · have queue : row.toEventQueue.blank = row'.toEventQueue.blank := congrArg (·.toEventQueue) same
    obtain ⟨blank, told⟩ := alike _ _ queue
    rw [found] at ran
    rw [found'] at ran'
    cases ran
    cases ran'
    exact ⟨.cons ⟨congrArg (Write.updateEvent eventId) blank, told⟩ .nil, .nil, rfl⟩

theorem answers_balanceAndVersion {accountId : Nat} :
    (textBond svc said).Answers (.balanceAndVersion accountId) (.balanceAndVersion accountId) fun a a' =>
      a.map AccountState.blank = a'.map AccountState.blank := by
  refine answers_of_exec fun avail input view view' reply reply' akin ran ran' => ?_
  simp only [Stmt.exec] at ran ran'
  rcases account?_pair akin accountId with ⟨none, none'⟩ | ⟨row, row', found, found', same⟩
  · rw [none] at ran
    rw [none'] at ran'
    cases ran
    cases ran'
    exact ⟨.nil, .nil, rfl⟩
  · have state : row.toAccountState.blank = row'.toAccountState.blank := congrArg (·.toAccountState) same
    rw [found] at ran
    rw [found'] at ran'
    cases ran
    cases ran'
    exact ⟨.nil, .nil, congrArg Except.ok state⟩

end Answers

/-! ## What a refused argument gives away -/

/-- A value is quoted in a few characters. -/
theorem quoted_length (value : Int) : (quoted value).length ≤ 43 := by
  have dots : "...".length = 3 := by decide
  simp only [quoted]
  split
  · simp only [String.length_append, String.length_ofList, List.length_take]
    omega
  · omega

/-- A detail that is short enough is kept as it is. -/
theorem redactedDetail_short {exc : Exc} (foreign : exc.isProcessingError = false)
    (short : (exc.cls ++ ": " ++ exc.message).length ≤ errorDetailLimit) :
    redactedDetail exc = exc.cls ++ ": " ++ exc.message := by
  simp only [redactedDetail, foreign, Bool.false_eq_true, if_false]
  rw [List.take_of_length_le (by rwa [String.length_toList]), String.ofList_toList]

/-- The arguments of a statement are few: their numbers have one digit. -/
theorem redactedDetail_invalidArgument {index : Nat} (few : (toString index).length = 1) (value : Int) :
    redactedDetail (invalidArgument index value) =
      (invalidArgument index value).cls ++ ": " ++ (invalidArgument index value).message := by
  have bound := quoted_length value
  have driver :
      "(sqlalchemy.dialects.postgresql.asyncpg.Error) <class 'asyncpg.exceptions.DataError'>: ".length = 87 := by
    decide
  have argument : "invalid input for query argument $".length = 34 := by decide
  have range : " (value out of int64 range)".length = 27 := by decide
  have cls : "DBAPIError".length = 10 := by decide
  have colon : ": ".length = 2 := by decide
  refine redactedDetail_short rfl ?_
  simp only [invalidArgument, String.length_append, errorDetailLimit]
  omega

/-- The detail gives away how the value is quoted. -/
theorem quoted_of_redactedDetail {index : Nat} (few : (toString index).length = 1) {value value' : Int}
    (same : redactedDetail (invalidArgument index value) = redactedDetail (invalidArgument index value')) :
    quoted value = quoted value' := by
  rw [redactedDetail_invalidArgument few, redactedDetail_invalidArgument few] at same
  simpa [invalidArgument, String.append_right_inj, String.append_left_inj] using same

/-- It is told apart from the detail of a column that is out of range. -/
theorem redactedDetail_invalidArgument_ne {index : Nat} (few : (toString index).length = 1) (value : Int) :
    redactedDetail (invalidArgument index value) ≠ redactedDetail (dataError "bigint out of range") := by
  intro same
  have driver :
      "(sqlalchemy.dialects.postgresql.asyncpg.Error) <class 'asyncpg.exceptions.DataError'>: ".length = 87 := by
    decide
  have other : (redactedDetail (dataError "bigint out of range")).length ≤ 31 := by decide
  rw [← same, redactedDetail_invalidArgument few] at other
  simp only [invalidArgument, String.length_append] at other
  omega

/-- How the driver would quote the argument that the payload gives, should it refuse it. -/
def Stmt.quotes : Stmt → Option String
  | .insertLedgerEntry _ _ amount => if isBigint amount then none else some (quoted amount)
  | .updateAccount _ given _ => if isBigint given then none else some (quoted given)
  | _ => none

/-- The details differ, and nothing else that `_record_failure` looks at. -/
def Clash (e e' : Exc) : Prop :=
  e.isException = true ∧ e'.isException = true ∧ isRetryable e = isRetryable e' ∧
    redactedDetail e ≠ redactedDetail e'

/-- Two exceptions of one class, raised for arguments that are quoted alike or not. -/
def Refusals (quotes quotes' : Option String) (e e' : Exc) : Prop :=
  e.cls = e'.cls → if quotes = quotes' then e = e' else Clash e e'

/-- Where two statements both answer, or both fail. -/
def Alike {ρ ρ' : Type} (quotes quotes' : Option String) (P : ρ → ρ' → Prop) :
    Except Exc ρ → Except Exc ρ' → Prop
  | .ok a, .ok a' => P a a'
  | .error e, .error e' => Refusals quotes quotes' e e'
  | _, _ => True

theorem refusals_rfl {quotes : Option String} {e : Exc} : Refusals quotes quotes e e := by
  intro _
  rw [if_pos rfl]

theorem alike_of_eq {ρ : Type} {quotes : Option String} {a a' : Except Exc ρ} (same : a = a') :
    Alike quotes quotes Eq a a' := by
  subst same
  cases a with
  | ok value => exact rfl
  | error e => exact refusals_rfl

/-- The driver refuses the same argument of both statements. -/
theorem refusals_invalidArgument {index : Nat} (few : (toString index).length = 1) (value value' : Int) :
    Refusals (some (quoted value)) (some (quoted value')) (invalidArgument index value)
      (invalidArgument index value') := by
  intro _
  split
  · rename_i same
    rw [invalidArgument, invalidArgument, Option.some.inj same]
  · rename_i other
    exact ⟨rfl, rfl, rfl, fun same => other (congrArg some (quoted_of_redactedDetail few same))⟩

section Movements

variable {svc : Service} {said : String → String → Prop}

/-- An insert that fails after all has broken a constraint, and has drawn a number in vain. -/
theorem insertUnder_fails {ρ : Type} {avail : Lock → Txn.Mode → Bool} {key : Lock} {table : Table}
    {taken violated : Bool} {value inserted : ρ} {raised : Exc} {write : Write}
    {locks : List (Lock × Txn.Mode)} {reply : Txn.Reply Write Lock Exc ρ} {e : Exc}
    (ran : insertUnder avail key table taken (.ok value) (check violated raised) inserted write
      locks = some reply)
    (failed : reply.answer = .error e) : e = raised ∧ reply.writes = [] ∧ reply.instant = [.draw table] := by
  rcases insertUnder_some ran with ⟨-, rfl⟩ | ⟨-, e', broken, rfl⟩ | ⟨-, -, rfl⟩
  · cases failed
  · cases failed
    simp only [check, Option.ite_none_right_eq_some, Option.some.injEq] at broken
    exact ⟨broken.2.symm, rfl, rfl⟩
  · cases failed

theorem answers_insertLedgerEntry {accountId eventId : Nat} {amount amount' : Int} :
    (textBond svc said).Answers (.insertLedgerEntry accountId eventId amount)
      (.insertLedgerEntry accountId eventId amount')
      (Alike (Stmt.insertLedgerEntry accountId eventId amount).quotes
        (Stmt.insertLedgerEntry accountId eventId amount').quotes fun a a' => a.isSome = a'.isSome) := by
  intro avail input view view' reply reply' akin ran ran'
  have akin : view.blank = view'.blank := akin
  have event : (view.event? eventId).isNone = (view'.event? eventId).isNone := by
    simpa [event?_blank] using congrArg (fun db => (Db.event? db eventId).isNone) akin
  have account : (view.account? accountId).isNone = (view'.account? accountId).isNone := by
    simpa [account?_blank] using congrArg (fun db => (Db.account? db accountId).isNone) akin
  have posted : (view.ledgerOf? eventId).isSome = (view'.ledgerOf? eventId).isSome := by
    simpa [ledgerOf?_blank] using congrArg (fun db => (Db.ledgerOf? db eventId).isSome) akin
  change execInsertLedgerEntry avail view accountId eventId amount = _ at ran
  change execInsertLedgerEntry avail view' accountId eventId amount' = _ at ran'
  simp only [execInsertLedgerEntry, event, account, posted] at ran
  simp only [execInsertLedgerEntry] at ran'
  simp only [Stmt.quotes]
  cases fits : isBigint amount with
  | true =>
    simp only [fits, Bool.not_true, Bool.false_eq_true, if_false] at ran
    cases fits' : isBigint amount' with
    | true =>
      simp only [fits', Bool.not_true, Bool.false_eq_true, if_false] at ran'
      have alike : (textBond svc said).write
          (.insertLedger ⟨view.seq .ledger, accountId, eventId, amount⟩)
          (.insertLedger ⟨view'.seq .ledger, accountId, eventId, amount'⟩) := ⟨rfl, .silent⟩
      obtain ⟨writes, instant, answer⟩ := insertUnder_pair
        (A := Alike none none fun a a' : Option Nat => a.isSome = a'.isSome) (by exact rfl)
        (fun _ => refusals_rfl) (by exact rfl) alike ran ran'
      exact ⟨answer, fun _ => ⟨writes, fun db db' stores => (textBond svc said).keptAll stores instant⟩⟩
    | false =>
      simp only [fits', Bool.not_false, if_true] at ran'
      cases ran'
      cases answer : reply.answer with
      | ok a => exact ⟨trivial, fun whole => (whole trivial).elim⟩
      | error e =>
        obtain ⟨rfl, writes, instant⟩ := insertUnder_fails ran answer
        have classes : "IntegrityError" ≠ "DBAPIError" := by decide
        refine ⟨fun same => (classes same).elim, fun _ => ⟨by rw [writes]; exact .nil, ?_⟩⟩
        rw [instant]
        exact fun db db' stores => (blank_draw db).trans stores
  | false =>
    simp only [fits, Bool.not_false, if_true] at ran
    cases ran
    cases fits' : isBigint amount' with
    | true =>
      simp only [fits', Bool.not_true, Bool.false_eq_true, if_false] at ran'
      cases answer : reply'.answer with
      | ok a => exact ⟨trivial, fun whole => (whole trivial).elim⟩
      | error e =>
        obtain ⟨rfl, writes, instant⟩ := insertUnder_fails ran' answer
        have classes : "IntegrityError" ≠ "DBAPIError" := by decide
        refine ⟨fun same => (classes same.symm).elim, fun _ => ⟨by rw [writes]; exact .nil, ?_⟩⟩
        rw [instant]
        exact fun db db' stores => stores.trans (blank_draw db').symm
    | false =>
      simp only [fits', Bool.not_false, if_true] at ran'
      cases ran'
      exact ⟨refusals_invalidArgument (by decide) amount amount', fun _ => ⟨.nil, fun db db' => id⟩⟩

/-- What comes of the update of an account, when the driver takes its argument. -/
inductive Updated (accountId : Nat) (values : AccountState → AccountState) (view : Db) :
    Txn.Reply Write Lock Exc Unit → Prop where
  | absent (none : view.account? accountId = none) : Updated accountId values view { answer := .ok () }
  | written {row : AccountRow} {locks : List (Lock × Txn.Mode)} (found : view.account? accountId = some row) :
      Updated accountId values view {
        answer := .ok (), writes := [.updateAccount accountId (values row.toAccountState)], locks := locks }
  | outOfRange : Updated accountId values view { answer := .error (dataError "bigint out of range") }
  | negative :
      Updated accountId values view { answer := .error (integrityError "23514" "version_non_negative") }

theorem updateAccount_cases {accountId : Nat} {given : Int} {values : AccountState → AccountState} {view : Db}
    {reply : Txn.Reply Write Lock Exc Unit} (fits : isBigint given = true)
    (ran : execUpdateAccount view accountId given values = some reply) :
    Updated accountId values view reply := by
  simp only [execUpdateAccount, fits, Bool.not_true, Bool.false_eq_true, if_false] at ran
  split at ran
  · rename_i none
    cases ran
    exact .absent none
  · rename_i row found
    split at ran
    · cases ran
      exact .outOfRange
    · split at ran
      · cases ran
        exact .negative
      · cases ran
        exact .written found

/-- A range that is left is told apart from an argument that is refused. -/
theorem refusals_outOfRange (given : Int) :
    Refusals (some (quoted given)) none (invalidArgument 1 given) (dataError "bigint out of range") ∧
    Refusals none (some (quoted given)) (dataError "bigint out of range") (invalidArgument 1 given) := by
  have apart : redactedDetail (invalidArgument 1 given) ≠ redactedDetail (dataError "bigint out of range") :=
    redactedDetail_invalidArgument_ne (by decide) given
  constructor
  · intro _
    rw [if_neg (by simp)]
    exact ⟨rfl, rfl, rfl, apart⟩
  · intro _
    rw [if_neg (by simp)]
    exact ⟨rfl, rfl, rfl, apart.symm⟩

theorem answers_updateAccount {accountId : Nat} {given given' : Int}
    {values values' : AccountState → AccountState}
    (alike : ∀ state state', AccountState.blank state = AccountState.blank state' →
      (values state).blank = (values' state').blank) :
    (textBond svc said).Answers (.updateAccount accountId given values)
    (.updateAccount accountId given' values')
      (Alike (Stmt.updateAccount accountId given values).quotes
        (Stmt.updateAccount accountId given' values').quotes fun a a' => a = a') := by
  intro avail input view view' reply reply' akin ran ran'
  change execUpdateAccount view accountId given values = _ at ran
  change execUpdateAccount view' accountId given' values' = _ at ran'
  have data : "DBAPIError" ≠ "IntegrityError" := by decide
  have still : ∀ db db', (textBond svc said).store db db' → (textBond svc said).store db db' := fun _ _ => id
  simp only [Stmt.quotes]
  cases fits : isBigint given with
  | true =>
    have done := updateAccount_cases fits ran
    cases fits' : isBigint given' with
    | true =>
      have done' := updateAccount_cases fits' ran'
      cases done with
      | absent none =>
        cases done' with
        | absent => exact ⟨trivial, fun _ => ⟨.nil, still⟩⟩
        | written found =>
          rcases account?_pair akin accountId with ⟨-, none'⟩ | ⟨row, row', found', -⟩
          · simp [found] at none'
          · simp [none] at found'
        | outOfRange => exact ⟨trivial, fun whole => (whole trivial).elim⟩
        | negative => exact ⟨trivial, fun whole => (whole trivial).elim⟩
      | @written row _ found =>
        cases done' with
        | absent none =>
          rcases account?_pair akin accountId with ⟨none', -⟩ | ⟨row, row', -, found', -⟩
          · simp [found] at none'
          · simp [none] at found'
        | @written row' _ found' =>
          rcases account?_pair akin accountId with ⟨none, -⟩ | ⟨seen, seen', there, there', same⟩
          · simp [found] at none
          · have state : row.toAccountState.blank = row'.toAccountState.blank := by
              rw [Option.some.inj (found.symm.trans there), Option.some.inj (found'.symm.trans there')]
              exact congrArg (·.toAccountState) same
            exact ⟨trivial, fun _ => ⟨.cons
              ⟨congrArg (Write.updateAccount accountId) (alike _ _ state), .silent⟩ .nil,
              still⟩⟩
        | outOfRange => exact ⟨trivial, fun whole => (whole trivial).elim⟩
        | negative => exact ⟨trivial, fun whole => (whole trivial).elim⟩
      | outOfRange =>
        cases done' with
        | outOfRange => exact ⟨refusals_rfl, fun _ => ⟨.nil, still⟩⟩
        | negative => exact ⟨fun same => (data same).elim, fun _ => ⟨.nil, still⟩⟩
        | absent => exact ⟨trivial, fun whole => (whole trivial).elim⟩
        | written => exact ⟨trivial, fun whole => (whole trivial).elim⟩
      | negative =>
        cases done' with
        | outOfRange => exact ⟨fun same => (data same.symm).elim, fun _ => ⟨.nil, still⟩⟩
        | negative => exact ⟨refusals_rfl, fun _ => ⟨.nil, still⟩⟩
        | absent => exact ⟨trivial, fun whole => (whole trivial).elim⟩
        | written => exact ⟨trivial, fun whole => (whole trivial).elim⟩
    | false =>
      simp only [execUpdateAccount, fits', Bool.not_false, if_true] at ran'
      cases ran'
      cases done with
      | outOfRange => exact ⟨(refusals_outOfRange given').2, fun _ => ⟨.nil, still⟩⟩
      | negative => exact ⟨fun same => (data same.symm).elim, fun _ => ⟨.nil, still⟩⟩
      | absent => exact ⟨trivial, fun whole => (whole trivial).elim⟩
      | written => exact ⟨trivial, fun whole => (whole trivial).elim⟩
  | false =>
    simp only [execUpdateAccount, fits, Bool.not_false, if_true] at ran
    cases ran
    cases fits' : isBigint given' with
    | true =>
      cases updateAccount_cases fits' ran' with
      | outOfRange => exact ⟨(refusals_outOfRange given).1, fun _ => ⟨.nil, still⟩⟩
      | negative => exact ⟨fun same => (data same).elim, fun _ => ⟨.nil, still⟩⟩
      | absent => exact ⟨trivial, fun whole => (whole trivial).elim⟩
      | written => exact ⟨trivial, fun whole => (whole trivial).elim⟩
    | false =>
      simp only [execUpdateAccount, fits', Bool.not_false, if_true] at ran'
      cases ran'
      exact ⟨refusals_invalidArgument (by decide) given given', fun _ => ⟨.nil, still⟩⟩

end Movements

end WebhookReceiver
