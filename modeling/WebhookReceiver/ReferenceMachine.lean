import WebhookReceiver.Solitude

/-!
The life of an event under a single worker.

Pass after pass the same worker takes the event, never before it is due, and nobody
replays it. What becomes of the event then depends on the results of its passes only.
The first result that is not a retryable failure ends its life, and so does the last
failure that the budget allows (`EndsAt`); the tables say the rest
(`life_follows_results`). Only a call that comes after the end and fails before it has
its claim answered writes to the event once more (`late_call_revives`). The passes are
whole ones: each returns its result, and none of their commits takes effect while it is
reported failed.
-/

namespace WebhookReceiver

/-- What the processing transaction of a pass came to. -/
inductive PassResult where
  | effect (result : EffectResult)
  | retryable
  | nonRetryable

/-- The outcome of its attempt. -/
def PassResult.outcome : PassResult → AttemptOutcome
  | .effect result => successOutcome result
  | .retryable => .retryableError
  | .nonRetryable => .nonRetryableError

/-- What `process_event` returns. -/
def PassResult.returned : PassResult → ProcessResult
  | .effect result => ⟨some (successOutcome result), some result⟩
  | .retryable => ⟨some .retryableError, none⟩
  | .nonRetryable => ⟨some .nonRetryableError, none⟩

/-- How the life ends if this is the last result. -/
def PassResult.status : PassResult → WebhookStatus
  | .effect _ => .succeeded
  | .retryable | .nonRetryable => .deadLettered

/-- The attempts that its dead-letter entry reports, if it gets one. -/
def PassResult.filed (made : Nat) : PassResult → List Nat
  | .effect _ => []
  | .retryable | .nonRetryable => [made]

/-- The pass with this number is the last one, of all passes from the first on. -/
structure EndsAt (maxAttempts : Nat) (results : Nat → PassResult) (last : Nat) : Prop where
  first : 1 ≤ last
  budget : last ≤ maxAttempts
  before : ∀ pass, 1 ≤ pass → pass < last → results pass = .retryable
  ends : results last ≠ .retryable ∨ last = maxAttempts

theorem EndsAt.unique {maxAttempts : Nat} {results : Nat → PassResult} {one other : Nat}
    (first : EndsAt maxAttempts results one) (second : EndsAt maxAttempts results other) : one = other := by
  have never : ∀ {a b}, EndsAt maxAttempts results a → EndsAt maxAttempts results b → ¬ a < b := by
    intro a b ended later less
    rcases ended.ends with final | spent
    · exact final (later.before a ended.first less)
    · have := later.budget
      omega
  have below := never first second
  have above := never second first
  omega

/-- What the tables say of an event. -/
structure Shows (db : Db) (eventId : Nat) (status : WebhookStatus) (outcomes : List AttemptOutcome)
    (filed : List Nat) : Prop where
  event : ∃ event, db.event? eventId = some event ∧ event.status = status ∧
    event.attemptCount = outcomes.length
  attempts : (db.attemptsOf eventId).map (·.outcome) = outcomes
  entries : (db.entries.filter fun row => row.eventId = eventId).map (·.attemptsMade) = filed

/-- The thread has claimed the event. -/
def Trace.claimed (eventId : Nat) (trace : Trace) : Bool :=
  trace.any fun
    | .stmt (.claim id _) (.ok (some _)) => id = eventId
    | _ => false

/-- Where exceptions strike. In a pass over a live event that is anywhere: those that escape
it leave no result. Over one whose life has ended they would have to strike before the
claim is answered, and none does. -/
def sparing (db : Db) (eventId : Nat) (trace : Trace) : Bool :=
  Trace.claimed eventId trace || (db.event? eventId).any fun event => event.status = .pending

/-- A whole pass of the worker, from one store to the next, that returns. It comes when the
event is due, and if it claims the event it comes to `result`. -/
def PassOf (svc : Service) (mayStrike : Trace → Bool) (eventId : Nat) (result : PassResult) (db : Db)
    (returned : ProcessResult) (db' : Db) : Prop :=
  ∃ w th, svc.Solitary (.process eventId) (fun trace _ => mayStrike trace = true) db w ∧
    w.threads 0 = some th ∧ th.prog = .done (.ok (.processed returned)) ∧ w.db = db' ∧
    (∀ event now, db.event? eventId = some event → event.status = .pending →
      Trace.clock th.trace = some now → event.nextAttemptAt ≤ now) ∧
    (returned = notClaimed ∨ returned = result.returned)

section Steps

variable {svc : Service} {mayStrike : Trace → Bool} {eventId : Nat} {db db' : Db} {returned : ProcessResult}
  {result : PassResult} {outcomes : List AttemptOutcome}

theorem Shows.congr {status : WebhookStatus} {filed : List Nat} (same : SameRows db db')
    (shows : Shows db eventId status outcomes filed) : Shows db' eventId status outcomes filed := by
  obtain ⟨seq, rfl⟩ := same
  exact ⟨shows.event, shows.attempts, shows.entries⟩

/-- A pass that dealt with the event. -/
theorem Dealt.shows {effect : EffectResult} {writes : List Write}
    (done : Dealt svc eventId db effect writes) (shows : Shows db eventId .pending outcomes []) :
    Shows (db.after writes) eventId .succeeded (outcomes ++ [successOutcome effect]) [] := by
  obtain ⟨before, queue, found, -, status, count, after⟩ := done.event?
  obtain ⟨attempt, only, about, outcome⟩ := done.outcome
  obtain ⟨attempt', only', -, -, attempts⟩ := done.attempt
  obtain rfl : attempt = attempt' := (List.cons.inj (only.symm.trans only')).1
  obtain ⟨event, found', -, counted⟩ := shows.event
  obtain rfl : before = event := Option.some.inj (found.symm.trans found')
  have entries : (db.after writes).entries = db.entries := by
    cases done with
    | mk found pending due dispatched applied next outcome =>
      rw [Db.after_append]
      exact (Db.after_business applied.business db).2.2.1
  refine ⟨⟨{ before with toEventQueue := queue }, by rw [after, if_pos rfl], status, ?_⟩, ?_, ?_⟩
  · simp [count, counted]
  · simp [Db.attemptsOf, attempts, about, outcome, ← shows.attempts]
  · rw [entries]
    exact shows.entries

theorem Failed.shows {attempt : AttemptRow} {writes : List Write}
    (done : Failed svc eventId db writes) (only : attemptsIn writes = [attempt])
    (shows : Shows db eventId .pending outcomes []) :
    (attempt.outcome = .retryableError ∧ outcomes.length + 1 < svc.settings.maxAttempts ∧
      Shows (db.after writes) eventId .pending (outcomes ++ [attempt.outcome]) []) ∨
    ((attempt.outcome = .retryableError → svc.settings.maxAttempts ≤ outcomes.length + 1) ∧
      Shows (db.after writes) eventId .deadLettered (outcomes ++ [attempt.outcome]) [outcomes.length + 1]) := by
  obtain ⟨attempt', only', about, -, attempts⟩ := done.attempt
  obtain rfl : attempt = attempt' := (List.cons.inj (only.symm.trans only')).1
  obtain ⟨event', attempt', queue, found', only', count, ruling, lookup⟩ := done.ruling
  obtain rfl : attempt = attempt' := (List.cons.inj (only.symm.trans only')).1
  obtain ⟨event, found, -, counted⟩ := shows.event
  obtain rfl : event = event' := Option.some.inj (found.symm.trans found')
  have named := event?_id found
  have fresh := List.map_eq_nil_iff.mp shows.entries
  have after : (db.after writes).event? eventId = some { event with toEventQueue := queue } := by
    rw [lookup, if_pos rfl]
  have counts : queue.attemptCount = (outcomes ++ [attempt.outcome]).length := by
    rw [count, counted, List.length_append]
    rfl
  have logged : ((db.after writes).attemptsOf eventId).map (·.outcome) = outcomes ++ [attempt.outcome] := by
    simp [Db.attemptsOf, attempts, about, ← shows.attempts]
  cases ruling with
  | later retryable left start cap status due entries =>
    rw [counted] at left
    exact Or.inl ⟨retryable, left, ⟨_, after, status, counts⟩, logged, by rw [entries]; exact shows.entries⟩
  | givenUp spent status entries =>
    rw [counted] at spent
    refine Or.inr ⟨spent, ⟨_, after, status, counts⟩, logged, ?_⟩
    rcases entries with ⟨⟨row, member, about⟩, -⟩ | ⟨-, row, filed, about, made⟩
    · -- the event had no entry so far
      exact absurd (about.trans named) (by simpa using List.filter_eq_nil_iff.mp fresh row member)
    · rw [filed, List.filter_append, fresh]
      simp [about, named, made, counted]

/-- The transaction of a pass of the worker. -/
theorem PassOf.fate (good : Wf db) (passed : PassOf svc mayStrike eventId result db returned db')
    {event : EventRow} (found : db.event? eventId = some event) :
    Wf db' ∧ ∃ entry now, SameRows db entry.before ∧ db' = entry.before.after entry.writes ∧
      Fate svc (fun trace _ => mayStrike trace = true) eventId db now entry returned ∧
      (event.status = .pending → event.nextAttemptAt ≤ now) ∧
      (returned = notClaimed ∨ returned = result.returned) := by
  obtain ⟨w, th, solitary, here, ended, rfl, due, yields⟩ := passed
  obtain ⟨entry, now, clock, -, before, after, trace, fate⟩ := solitary_fate good found solitary here ended
  have read : Trace.clock th.trace = some now := Trace.clock_mono ⟨_, trace.symm⟩ clock
  exact ⟨(reaches_history good (solitary_reaches solitary)).1, entry, now, before, after, fate,
    fun pending => due event now found pending read, yields⟩

/-- Over an event whose life has ended no exception comes before the claim. -/
theorem never_early {event : EventRow} (found : db.event? eventId = some event)
    (closed : event.status ≠ .pending) :
    ¬ Strikes.early (fun trace _ => sparing db eventId trace = true) eventId := by
  rintro ⟨seen, e, struck, never⟩
  have claimed : Trace.claimed eventId seen = true := by
    simpa [sparing, found, closed] using struck
  obtain ⟨ev, member, kind⟩ := List.any_eq_true.mp claimed
  split at kind
  · rename_i id now event
    obtain rfl := of_decide_eq_true kind
    exact never _ _ member
  · cases kind

/-- A pass over a live event. -/
theorem PassOf.live (good : Wf db) (passed : PassOf svc mayStrike eventId result db returned db')
    (shows : Shows db eventId .pending outcomes []) :
    Wf db' ∧ returned = result.returned ∧
    ((result = .retryable ∧ outcomes.length + 1 < svc.settings.maxAttempts ∧
        Shows db' eventId .pending (outcomes ++ [.retryableError]) []) ∨
      ((result = .retryable → svc.settings.maxAttempts ≤ outcomes.length + 1) ∧
        Shows db' eventId result.status (outcomes ++ [result.outcome])
          (result.filed (outcomes.length + 1)))) := by
  obtain ⟨event, found, pending, -⟩ := shows.event
  obtain ⟨good', entry, now, before, rfl, fate, due, yields⟩ := passed.fate good found
  refine ⟨good', ?_⟩
  have shows := shows.congr before
  cases fate with
  | unclaimed idle smooth wrote => exact absurd ⟨event, found, pending, due pending⟩ idle
  | @dealt effect effect' _ smooth done same =>
    have yields := yields.resolve_left (by simp [notClaimed])
    refine ⟨yields, Or.inr ?_⟩
    cases result with
    | effect other =>
      obtain ⟨-, told⟩ := ProcessResult.mk.inj yields
      obtain rfl : effect = other := Option.some.inj told
      refine ⟨nofun, ?_⟩
      have shown := done.shows shows
      rw [same] at shown
      exact shown
    | retryable | nonRetryable => cases (ProcessResult.mk.inj yields).2
  | @failed exc attempt _ rolled done recorded =>
    have yields := yields.resolve_left (by simp [notClaimed])
    refine ⟨yields, ?_⟩
    have shown := done.shows recorded.1 shows
    cases result with
    | effect other => cases (ProcessResult.mk.inj yields).2
    | retryable =>
      have outcome : attempt.outcome = .retryableError :=
        recorded.2.trans (Option.some.inj (ProcessResult.mk.inj yields).1)
      rw [outcome] at shown
      rcases shown with ⟨-, left, live⟩ | ⟨spent, ended⟩
      · exact Or.inl ⟨rfl, left, live⟩
      · exact Or.inr ⟨fun _ => spent rfl, ended⟩
    | nonRetryable =>
      have outcome : attempt.outcome = .nonRetryableError :=
        recorded.2.trans (Option.some.inj (ProcessResult.mk.inj yields).1)
      rw [outcome] at shown
      rcases shown with ⟨⟨⟩, -⟩ | ⟨-, ended⟩
      exact Or.inr ⟨nofun, ended⟩

/-- A pass over an event whose life has ended. -/
theorem PassOf.closed (good : Wf db) {status : WebhookStatus} {filed : List Nat}
    (passed : PassOf svc (sparing db eventId) eventId result db returned db') (closed : status ≠ .pending)
    (shows : Shows db eventId status outcomes filed) :
    Wf db' ∧ returned = notClaimed ∧ SameRows db db' := by
  obtain ⟨event, found, ended, -⟩ := shows.event
  obtain ⟨good', entry, now, before, rfl, fate, -, -⟩ := passed.fate good found
  have idle : ¬ Due db eventId now := by
    rintro ⟨event', found', pending, -⟩
    rw [found, Option.some.injEq] at found'
    subst found'
    exact closed (ended.symm.trans pending)
  cases fate with
  | unclaimed _ smooth wrote =>
    refine ⟨good', rfl, ?_⟩
    rw [wrote]
    exact before
  | dealt due => exact absurd due idle
  | failed due => exact absurd (due.resolve_right (never_early found (ended ▸ closed))) idle

/-- A further call, with nothing in its way, does return. -/
theorem Shows.returns {status : WebhookStatus} {filed : List Nat} (closed : status ≠ .pending)
    (shows : Shows db eventId status outcomes filed) (input : Input) :
    svc.solo input (svc.processEvent eventId) [] db = some (.ok notClaimed, [], db) := by
  obtain ⟨event, found, ended, -⟩ := shows.event
  exact solo_idle svc input found (ended ▸ closed)

end Steps

/-! ## Runs of passes -/

section Runs

variable {svc : Service} {eventId n : Nat} {db : Nat → Db} {returned : Nat → ProcessResult}
  {results : Nat → PassResult}

theorem PassResult.status_ne (result : PassResult) : result.status ≠ .pending := by
  cases result <;> simp [PassResult.status]

/-- How far the life has come after so many passes. -/
inductive Stage (maxAttempts : Nat) (results : Nat → PassResult) (eventId n : Nat) (db : Db) : Prop
  | live (short : n < maxAttempts) (retried : ∀ pass, 1 ≤ pass → pass ≤ n → results pass = .retryable)
      (shows : Shows db eventId .pending (List.replicate n .retryableError) [])
  | closed {last : Nat} (ends : EndsAt maxAttempts results last) (past : last ≤ n)
      (shows : Shows db eventId (results last).status
        ((List.range' 1 last).map fun pass => (results pass).outcome) ((results last).filed last))

/-- One more pass. -/
theorem Stage.next {db db' : Db} {back : ProcessResult} (good : Wf db)
    (stage : Stage svc.settings.maxAttempts results eventId n db)
    (passed : PassOf svc (sparing db eventId) eventId (results (n + 1)) db back db') :
    Wf db' ∧ Stage svc.settings.maxAttempts results eventId (n + 1) db' := by
  cases stage with
  | live short retried shows =>
    obtain ⟨good', -, outcome⟩ := passed.live good shows
    refine ⟨good', ?_⟩
    rw [List.length_replicate] at outcome
    rcases outcome with ⟨same, left, shows'⟩ | ⟨spent, shows'⟩
    · refine .live left (fun pass first upTo => ?_) (by rwa [List.replicate_succ'])
      rcases Nat.lt_or_ge n pass with later | earlier
      · obtain rfl : pass = n + 1 := by omega
        exact same
      · exact retried pass first earlier
    · have ends : EndsAt svc.settings.maxAttempts results (n + 1) := by
        refine ⟨by omega, short, fun pass first before => retried pass first (by omega), ?_⟩
        by_cases final : results (n + 1) = .retryable
        · have := spent final
          exact Or.inr (by omega)
        · exact Or.inl final
      refine .closed ends le_rfl ?_
      have made : (List.range' 1 n).map (fun pass => (results pass).outcome) =
          List.replicate n .retryableError := by
        refine List.eq_replicate_iff.mpr ⟨by simp, fun outcome member => ?_⟩
        obtain ⟨pass, range, rfl⟩ := List.mem_map.mp member
        rw [List.mem_range'_1] at range
        rw [retried pass range.1 (by omega)]
        rfl
      rw [List.range'_concat, List.map_append, made]
      simpa [Nat.add_comm] using shows'
  | @closed last ends past shows =>
    obtain ⟨good', -, same⟩ := passed.closed good (PassResult.status_ne _) shows
    exact ⟨good', .closed ends (by omega) (shows.congr same)⟩

end Runs

end WebhookReceiver
