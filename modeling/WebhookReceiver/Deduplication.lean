import WebhookReceiver.Lifecycle

/-!
One row for each idempotency key, however many deliveries of it run at once.

`ingest_event` puts its answer together from an insert that may lose and a select that
may follow. The log of the committed transactions is kept beside the store
(`Deduplicated`): until a delivery of the key has committed there is no row, and from
then on there is the row that all answers name, and one answer that calls it new.
-/

namespace WebhookReceiver

/-- Anything but retention, with these failures from outside. -/
def Scope.delivering (faults : Exc → Prop) : Scope := ⟨fun call => call.isPurge = false, faults⟩

/-- The call delivers an event under this key. -/
def Call.carries (svc : Service) (source key : String) : Call → Bool
  | .ingest event => event.source = source ∧ event.idempotencyKey = key
  | .deliver request =>
    match svc.route request with
    | .ok routed => (request.event routed).source = source ∧ (request.event routed).idempotencyKey = key
    | .error _ => false
  | _ => false

/-- What a delivery has returned. -/
def Call.returned? : Call → Outcome → Option IngestResult
  | .ingest _, .ingested result => some result
  | .deliver _, .answered (.accepted result) => some result
  | _, _ => none

/-- The transaction is a delivery of the key that calls its event new. -/
def isFirst (svc : Service) (source key : String) (entry : Commit) : Bool :=
  entry.call.carries svc source key && ((Trace.ingestAnswer entry.trace).any fun result => !result.duplicate)

theorem carries_iff {svc : Service} {source key : String} {call : Call} :
    call.carries svc source key = true ↔
      ∃ event, call.stores svc event ∧ event.source = source ∧ event.idempotencyKey = key := by
  cases call with
  | ingest event => simp [Call.carries, Call.stores]
  | deliver request => cases routed : svc.route request <;> simp [Call.carries, Call.stores, routed]
  | _ => simp [Call.carries, Call.stores]

theorem stores_unique {svc : Service} {call : Call} {event other : IncomingEvent}
    (stores : call.stores svc event) (also : call.stores svc other) : event = other := by
  cases call with
  | ingest stored => exact Eq.trans stores also.symm
  | deliver request =>
    obtain ⟨routed, known, rfl⟩ := stores
    obtain ⟨routed', known', rfl⟩ := also
    rw [known, Except.ok.injEq] at known'
    rw [known']
  | _ => cases stores

theorem carries_not_over {svc : Service} {source key : String} {call : Call} {eventId : Nat}
    (carried : call.carries svc source key = true) (passing : call.passesOver eventId = true) : False := by
  cases call with
  | process id => cases carried
  | replay id requestedBy reason => cases carried
  | _ => cases passing

/-- The deliveries of a key that have committed, and the row of the key. -/
inductive Deduplicated (svc : Service) (source key : String) (log : List Commit) (db : Db) : Prop where
  | unseen (absent : ∀ row ∈ db.events, ¬ (row.source = source ∧ row.idempotencyKey = key))
      (nobody : ∀ entry ∈ log, entry.call.carries svc source key = false)
  | seen {row : EventRow} (member : row ∈ db.events)
      (keyed : row.source = source ∧ row.idempotencyKey = key)
      (committed : ∃ entry ∈ log, entry.call.carries svc source key = true)
      (answers : ∀ entry ∈ log, entry.call.carries svc source key = true →
        ∃ duplicate, Trace.ingestAnswer entry.trace = some ⟨row.id, duplicate⟩)
      (one : (log.filter (isFirst svc source key)).length = 1)

theorem delivering_purging {faults : Exc → Prop} : ¬ (Scope.delivering faults).purging :=
  not_purging fun _ called => called

/-- A delivery of the key has inserted the row, or found it. -/
theorem Committed.delivery {svc : Service} {scope : Scope} {source key : String} {call : Call}
    {trace : Trace} {db : Db} {writes : List Write}
    (committed : Committed svc scope call trace db writes)
    (carried : call.carries svc source key = true) :
    ∃ event result, event.source = source ∧ event.idempotencyKey = key ∧
      trace.ingestAnswer = some result ∧ IngestTx scope.purging event db result writes := by
  obtain ⟨event, stores, named, keyed⟩ := carries_iff.mp carried
  cases committed with
  | idle passing => exact (carries_not_over carried passing).elim
  | dealt passing done => exact (carries_not_over carried passing).elim
  | failed passing done => exact (carries_not_over carried passing).elim
  | started replay done => simp [replay, Call.carries] at carried
  | finished replay done => simp [replay, Call.carries] at carried
  | moved triage named done => simp [triage, Call.carries] at carried
  | stored stores' answered done =>
    have same := stores_unique stores' stores
    subst same
    exact ⟨_, _, named, keyed, answered, done⟩
  | purged purge done => simp [purge, Call.carries] at carried

section Steps

variable {svc : Service} {faults : Exc → Prop} {source key : String} {log : List Commit} {entry : Commit}
  (good : Wf entry.before)
  (committed : Committed svc (.delivering faults) entry.call entry.trace entry.before entry.writes)
include good committed

/-- A transaction that is no delivery of the key. -/
theorem Deduplicated.other (still : Wf (entry.before.after entry.writes))
    (called : entry.call.isPurge = false) (other : entry.call.carries svc source key = false)
    (deduplicated : Deduplicated svc source key log entry.before) :
    Deduplicated svc source key (log ++ [entry]) (entry.before.after entry.writes) := by
  cases deduplicated with
  | unseen absent nobody =>
    refine .unseen (fun row member keyed => ?_) ?_
    · have earlier : ∀ before, entry.before.event? row.id = some before →
          row.toIncomingEvent = before.toIncomingEvent → False := by
        intro before found kept
        have keyedToo : before.source = source ∧ before.idempotencyKey = key := by
          rw [← kept]
          exact keyed
        exact absent before (List.mem_of_find?_eq_some found) keyedToo
      cases committed.eventStep (event?_of_mem still member) with
      | same before spared => exact earlier row before rfl
      | dealt found kept pending status count recorded => exact earlier _ found kept
      | failed found kept status count recorded => exact earlier _ found kept
      | requeued found kept replay status spared => exact earlier _ found kept
      | stored gone unused status count spared delivered =>
        have carried := carries_iff.mpr ⟨_, delivered, keyed.1, keyed.2⟩
        simp [other] at carried
    · intro earlier member
      rcases List.mem_append.mp member with old | new
      · exact nobody earlier old
      · rw [List.mem_singleton.mp new]
        exact other
  | @seen row member keyed delivered answers one =>
    obtain ⟨row', found, kept⟩ := committed.keeps_event called (event?_of_mem good member)
    have keyed' : row'.source = source ∧ row'.idempotencyKey = key := by
      rw [kept]
      exact keyed
    refine .seen (List.mem_of_find?_eq_some found) keyed' ?_ ?_ ?_
    · obtain ⟨first, old, carried⟩ := delivered
      exact ⟨first, List.mem_append_left _ old, carried⟩
    · intro earlier member carried
      rw [event?_id found]
      rcases List.mem_append.mp member with old | new
      · exact answers earlier old carried
      · rw [List.mem_singleton.mp new, other] at carried
        cases carried
    · simp [List.filter_append, isFirst, other, ← one]

/-- A delivery of the key. -/
theorem Deduplicated.delivery (carried : entry.call.carries svc source key = true)
    (deduplicated : Deduplicated svc source key log entry.before) :
    Deduplicated svc source key (log ++ [entry]) (entry.before.after entry.writes) := by
  obtain ⟨event, result, rfl, rfl, answered, done⟩ := committed.delivery carried
  have here : entry ∈ log ++ [entry] := by simp
  generalize entry.writes = writes at done ⊢
  cases done with
  | @inserted id at' storable fresh unused first =>
    cases deduplicated with
    | seen member keyed delivered answers one => exact absurd keyed (first _ member)
    | unseen absent nobody =>
      let row : EventRow := { event with
        status := .pending, attemptCount := 0, nextAttemptAt := at', processedAt := none,
        lastError := none, id := id, receivedAt := at' }
      have there : row ∈ (entry.before.after [.insertEvent row]).events := by
        simp [Write.apply]
      refine .seen there ⟨rfl, rfl⟩ ⟨entry, here, carried⟩ ?_ ?_
      · intro earlier member ours
        rcases List.mem_append.mp member with old | new
        · simp [nobody earlier old] at ours
        · rw [List.mem_singleton.mp new]
          exact ⟨false, answered⟩
      · have silent : log.filter (isFirst svc event.source event.idempotencyKey) = [] := by
          rw [List.filter_eq_nil_iff]
          intro earlier member
          simp [isFirst, nobody earlier member]
        have news : isFirst svc event.source event.idempotencyKey entry = true := by
          simp [isFirst, carried, answered]
        simp [List.filter_append, silent, news]
  | @duplicate id known =>
    obtain ⟨known, there, about, keyed⟩ := known delivering_purging
    cases deduplicated with
    | unseen absent nobody => exact absurd keyed (absent known there)
    | @seen row member keyed' delivered answers one =>
      have same : known = row :=
        List.inj_on_of_nodup_map good.eventKeys there member
          (Prod.ext (keyed.1.trans keyed'.1.symm) (keyed.2.trans keyed'.2.symm))
      subst same
      refine .seen member keyed' ⟨entry, here, carried⟩ ?_ ?_
      · intro earlier listed ours
        rcases List.mem_append.mp listed with old | new
        · exact answers earlier old ours
        · rw [List.mem_singleton.mp new, about]
          exact ⟨true, answered⟩
      · have repeated : isFirst svc event.source event.idempotencyKey entry = false := by
          simp [isFirst, answered]
        simp [List.filter_append, repeated, ← one]

end Steps

/-! ## Runs -/

/-- The rows of a key. -/
def Db.rowsOf (db : Db) (source key : String) : List EventRow :=
  db.events.filter fun row => row.source = source ∧ row.idempotencyKey = key

theorem rowsOf_of_mem {db : Db} (good : Wf db) {row : EventRow} {source key : String}
    (member : row ∈ db.events) (keyed : row.source = source ∧ row.idempotencyKey = key) :
    db.rowsOf source key = [row] := by
  have there : row ∈ db.rowsOf source key := by simp [Db.rowsOf, member, keyed]
  have unique : (db.rowsOf source key).Nodup :=
    (List.Nodup.of_map _ good.eventIds).filter _
  have only : ∀ other ∈ db.rowsOf source key, other = row := by
    intro other listed
    simp only [Db.rowsOf, List.mem_filter, decide_eq_true_eq] at listed
    exact List.inj_on_of_nodup_map good.eventKeys listed.1 member
      (Prod.ext (listed.2.1.trans keyed.1.symm) (listed.2.2.trans keyed.2.symm))
  rcases shape : db.rowsOf source key with _ | ⟨first, _ | ⟨second, rest⟩⟩
  · simp [shape] at there
  · rw [only first (by simp [shape])]
  · rw [shape] at unique
    have differ := (List.nodup_cons.mp unique).1
    rw [only first (by simp [shape]), only second (by simp [shape])] at differ
    simp at differ

/-- Why a delivery may raise: a failure from outside, an event that no column takes,
or a signature that cannot be checked. -/
def Service.excuses (svc : Service) (faults : Exc → Prop) (call : Call) (e : Exc) : Prop :=
  faults e ∨ (∃ event, call.stores svc event ∧ event.storable = false) ∨
    ∃ request secret now, call = .deliver request ∧
      Signature.verifySignature svc.hmac secret request.rawBody
        (request.headers.get? Signature.header) now
        svc.settings.signatureTimestampToleranceSeconds = .error e

theorem Service.History.deduplicated {svc : Service} {faults : Exc → Prop} {start last : Db}
    {log : List Commit} {source key : String}
    (past : svc.History (.delivering faults) start last log)
    (unknown : ∀ row ∈ start.events, ¬ (row.source = source ∧ row.idempotencyKey = key)) :
    Deduplicated svc source key log last := by
  refine past.along (P := Deduplicated svc source key) (.unseen unknown (by simp)) ?_ ?_ ?_
  · rintro log db table (⟨absent, nobody⟩ | ⟨member, keyed, delivered, answers, one⟩)
    · exact .unseen absent nobody
    · exact .seen member keyed delivered answers one
  · exact fun ids purging => absurd purging delivering_purging
  · intro log entry good still called committed earlier
    cases carried : entry.call.carries svc source key with
    | false => exact earlier.other good committed still called carried
    | true => exact earlier.delivery good committed carried

/-- What a finished delivery returned is what its committed transaction answered. -/
theorem returned_logged {svc : Service} {scope : Scope} {start : Db} (good : Wf start) {w : World}
    (reached : svc.Reaches scope (.init start) w) {t : Nat}
    {th : Txn.Thread Write Call Stmt Stmt.Answer Exc Outcome} (here : w.threads t = some th)
    {outcome : Outcome} (ended : th.prog = .done (.ok outcome)) {result : IngestResult}
    (returned : th.call.returned? outcome = some result) :
    ∃ entry ∈ w.log, entry.call = th.call ∧ Trace.ingestAnswer entry.trace = some result := by
  have described := reaches_returned good reached here ended
  have answers : Trace.answers th.trace result := by
    generalize th.call = call at described returned
    cases call with
    | ingest event =>
      cases outcome with
      | ingested answer =>
        cases returned
        exact described
      | _ => cases returned
    | deliver request =>
      cases outcome with
      | answered response =>
        cases response with
        | accepted answer =>
          cases returned
          exact described.1
        | _ => cases returned
      | _ => cases returned
    | _ => cases returned
  obtain ⟨before, writes, seen, answered⟩ := answers
  obtain ⟨entry, member, -, called, rfl, -⟩ :=
    Txn.Reach.logged reached t th before writes [] here (by simpa using seen)
  exact ⟨entry, member, called, answered⟩

/-- However many deliveries of a key run at once, and whatever becomes of them: no row
if none of them committed; else one row, which every answer names, and one answer that
calls it new. None of them raises because of another. -/
theorem ingested_once (svc : Service) (faults : Exc → Prop) {start : Db} (good : Wf start)
    (source key : String)
    (unknown : ∀ row ∈ start.events, ¬ (row.source = source ∧ row.idempotencyKey = key)) {w : World}
    (reached : svc.Reaches (.delivering faults) (.init start) w) :
    ((∀ entry ∈ w.log, entry.call.carries svc source key = false) → w.db.rowsOf source key = []) ∧
    ((∃ entry ∈ w.log, entry.call.carries svc source key = true) → ∃ row,
      w.db.rowsOf source key = [row] ∧
      (∀ entry ∈ w.log, entry.call.carries svc source key = true →
        ∃ duplicate, Trace.ingestAnswer entry.trace = some ⟨row.id, duplicate⟩) ∧
      (w.log.filter (isFirst svc source key)).length = 1) ∧
    (∀ t th outcome result, w.threads t = some th → th.prog = .done (.ok outcome) →
      th.call.returned? outcome = some result →
      ∃ entry ∈ w.log, entry.call = th.call ∧ Trace.ingestAnswer entry.trace = some result) ∧
    ∀ t th e, w.threads t = some th → th.call.carries svc source key = true →
      th.prog = .done (.error e) → svc.excuses faults th.call e := by
  obtain ⟨wf, past⟩ := reaches_history good reached
  have deduplicated := past.deduplicated unknown
  refine ⟨fun nobody => ?_, fun somebody => ?_, ?_, ?_⟩
  · cases deduplicated with
    | unseen absent nobody =>
      rw [Db.rowsOf, List.filter_eq_nil_iff]
      intro row member
      simpa using absent row member
    | seen member keyed delivered answers one =>
      obtain ⟨entry, listed, carried⟩ := delivered
      simp [nobody entry listed] at carried
  · cases deduplicated with
    | unseen absent nobody =>
      obtain ⟨entry, listed, carried⟩ := somebody
      simp [nobody entry listed] at carried
    | @seen row member keyed delivered answers one =>
      exact ⟨row, rowsOf_of_mem wf member keyed, answers, one⟩
  · intro t th outcome result here ended returned
    exact returned_logged good reached here ended returned
  · intro t th e here carried ended
    have described := reaches_returned good reached here ended
    generalize th.call = call at described carried
    cases call with
    | ingest event =>
      rcases described with fault | unstorable | purging
      · exact Or.inl fault
      · exact Or.inr (Or.inl ⟨event, rfl, unstorable⟩)
      · exact absurd purging delivering_purging
    | deliver request =>
      rcases described with fault | purging | ⟨routed, known, unstorable⟩ | ⟨unrouted, -⟩ |
        ⟨secret, now, -, -, unsigned⟩
      · exact Or.inl fault
      · exact absurd purging delivering_purging
      · exact Or.inr (Or.inl ⟨_, ⟨routed, known, rfl⟩, unstorable⟩)
      · simp [Call.carries, unrouted] at carried
      · exact Or.inr (Or.inr ⟨request, secret, now, rfl, unsigned⟩)
    | _ => cases carried

/-- Two deliveries of a key at once, and one that rolled back before them. -/
theorem ingested_once_sample : ∃ w,
    Sample.service.Reaches (.delivering (· = integrityError "08006" "")) (.init Db.empty) w ∧
    w.log.length = 2 ∧ (w.db.rowsOf "acme" "c").map (·.id) = [2] ∧
    (w.log.filter (isFirst Sample.service "acme" "c")).length = 1 := by
  let event := Sample.credit "c" 100 1
  let schedule : List Action :=
    .spawn 0 (.ingest event) :: .spawn 1 (.ingest event) :: .spawn 2 (.ingest event) ::
    Sample.steps 0 1 ++ .fault 0 (integrityError "08006" "") :: Sample.steps 1 2 ++ Sample.steps 2 3
  obtain ⟨w, reached, shown⟩ := Sample.service.reaches_test
    (.delivering (· = integrityError "08006" "")) (.init Db.empty) schedule
    (fun w => w.log.length = 2 ∧ (w.db.rowsOf "acme" "c").map (·.id) = [2] ∧
      w.log.any fun entry => entry.call.carries Sample.service "acme" "c")
    (by simp [schedule, Sample.steps, Scope.permits, Scope.delivering, Call.isPurge])
    (by decide +kernel)
  simp only [decide_eq_true_eq] at shown
  obtain ⟨both, one, somebody⟩ := shown
  obtain ⟨entry, member, carried⟩ := List.any_eq_true.mp somebody
  obtain ⟨-, told, -, -⟩ := ingested_once Sample.service _ wf_empty "acme" "c" (by simp [Db.empty]) reached
  obtain ⟨row, -, -, first⟩ := told ⟨entry, member, carried⟩
  exact ⟨w, reached, both, one, first⟩

end WebhookReceiver
