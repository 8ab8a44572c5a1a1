import WebhookReceiver.Passes

/-!
Replay, triage, ingestion and retention keep the discipline too, and with them every
call of the service: `verified`. From here on a run is its history of committed
transactions, each as `Describes` says (`history`, `stretch`).
-/

namespace WebhookReceiver

open Txn (Mode Prog)

variable {svc : Service} {scope : Scope} {call : Call} {db : Db} {locks : Locks} {trace : Trace}

/-! ## Triage of a dead-letter entry -/

theorem Trace.isOpen_append {s : Stmt} {answer : Except Exc s.Answer} (still : Trace.isOpen trace) :
    Trace.isOpen (trace ++ [.stmt s answer]) := by
  intro ev member
  rcases List.mem_append.mp member with old | new
  · exact still ev old
  · exact ⟨s, answer, List.mem_singleton.mp new⟩

/-- Why `dlq.transition` raises in a transaction that began as `trace` shows. -/
def Unmoved (scope : Scope) (entryId : Nat) (target : DlqStatus) (trace : Trace) (e : Exc)
    (seen : Trace) : Prop :=
  (Trace.isOpen trace → Trace.isOpen seen) ∧
    (scope.faults e ∨
      (.stmt (.entryStatusForUpdate entryId) (.error e) ∈ seen ∧ e = noResultFound) ∨
      seen.forbids entryId target e)

/-- `dlq.transition` moves the entry as it finds it under its row lock. -/
theorem wp_transition (good : Wf db) {entryId : Nat} {target : DlqStatus} {now : Time}
    {note : Option String} {writes : List Write} (untouched : (db.after writes).entries = db.entries)
    (owned : ∀ row ∈ db.entries, row.id = entryId →
      (target = .needsReview → locks.onEvent row.eventId) ∧
        (target = .replaying → (.eventRow row.eventId, .excl) ∈ locks)) :
    svc.wp scope call (Dlq.transition entryId target now note) ⟨db, writes, locks, trace⟩
      (Yields db (Unmoved scope entryId target trace) fun _ writes' _ _ =>
        ∃ row moved, row.id = entryId ∧ Moves db target row moved ∧ writes' = writes ++ moved) := by
  have lookup : ∀ {row}, Db.entry? (db.after writes) entryId = some row →
      row ∈ db.entries ∧ row.id = entryId := by
    intro row found
    have named : row.id = entryId := by simpa using List.find?_some found
    have member := List.mem_of_find?_eq_some found
    rw [untouched] at member
    exact ⟨member, named⟩
  unfold Dlq.transition
  refine wp_execute trivial (fun e raised => ⟨Trace.isOpen_append, raised.imp_right fun missing =>
    Or.inl ⟨List.mem_append_right _ (List.mem_singleton_self _), missing⟩⟩) ?_
  rintro status lesson ⟨row, rfl, rfl⟩ known
  have found := known (.entry entryId (some row)) (by simp) (by simp [Guarded])
  obtain ⟨member, rfl⟩ := lookup found
  refine wp_bind ?_
  cases moved : ensureTransition row.status target with
  | error e =>
    refine ⟨Trace.isOpen_append, Or.inr (Or.inr ⟨row.status, ?_, moved⟩)⟩
    exact List.mem_append_right _ (List.mem_singleton_self _)
  | ok u =>
    have there : row ∈ (db.after writes).entries := untouched ▸ member
    have only : ∀ entry ∈ (db.after writes).entries, entry.id = row.id → entry = row := by
      rw [untouched]
      exact fun entry listed same => List.inj_on_of_nodup_map good.entryIds listed member same
    simp only [List.append_nil]
    refine wp_execute ⟨⟨row, there, rfl⟩, fun entry listed same => ?_⟩
      (fun e raised => ⟨fun still => Trace.isOpen_append (Trace.isOpen_append still),
        Or.inl (raised.resolve_right False.elim)⟩) ?_
    · rw [only entry listed same]
      obtain ⟨back, taken⟩ := owned row member rfl
      exact ⟨ensureTransition_open moved, fun _ status => Locks.onEvent_mono (back status),
        fun _ status => List.mem_append_left _ (taken status)⟩
    rintro ⟨⟩ lesson ⟨again, -, rfl⟩ known
    have same := known (.entry row.id (some again)) (by simp) (by simp [Guarded])
    obtain rfl : row = again := Option.some.inj (found.symm.trans same)
    refine wp_execute trivial (fun e raised => ⟨fun still =>
      Trace.isOpen_append (Trace.isOpen_append (Trace.isOpen_append still)),
      Or.inl (raised.resolve_right False.elim)⟩) ?_
    intro entry lesson taught known
    cases entry with
    | none =>
      -- the entry cannot vanish under its row lock
      cases taught
      have gone := known (.entry row.id none) (by simp) (by simp [Guarded])
      simp only [Fact.holds, Db.entry?, List.find?_eq_none, Db.after_append] at gone
      have still := gone _ (List.mem_map_of_mem there)
      simp at still
    | some entry =>
      cases taught
      exact ⟨rfl, row, _, rfl, .move member (ensureTransition_ok moved), List.append_nil _⟩

theorem wp_triage (good : Wf db) {entryId : Nat} {action : TriageAction} {note : Option String} :
    svc.wp scope (.triage entryId action note) (triage entryId action note) ⟨db, [], [], []⟩
      fun r c => Returns svc scope (.triage entryId action note) (r.map .triaged) c.trace := by
  refine wp_sessionScope
    (X := fun e seen => Trace.isOpen seen ∧
      ((∃ struck, scope.faults struck ∧ (e = struck ∨ e = httpException struck.message)) ∨
        Refused entryId action.target e seen))
    (P := fun _ writes _ _ => ∃ row, row.id = entryId ∧ Moves db action.target row writes) ?_ ?_ ?_
  · have fresh : Trace.isOpen [] := fun ev member => by cases member
    refine wp_execute trivial (fun e raised => ⟨Trace.isOpen_append fresh,
      Or.inl ⟨e, raised.resolve_right False.elim, Or.inl rfl⟩⟩) ?_
    intro entry lesson taught known
    cases entry with
    | none =>
      exact ⟨Trace.isOpen_append fresh, Or.inr (Or.inl ⟨List.mem_singleton_self _, rfl⟩)⟩
    | some entry =>
      cases taught
      have begun : Trace.isOpen ([] ++ [.stmt (.getEntry entryId) (.ok (some entry))]) :=
        Trace.isOpen_append fresh
      refine Txn.Discipline.wp_andThen (Txn.Discipline.wp_mono ?_
        (wp_look (X := Unmoved scope entryId action.target
            ([] ++ [.stmt (.getEntry entryId) (.ok (some entry))]))
          (P := fun _ writes _ _ => ∃ row, row.id = entryId ∧ Moves db action.target row writes)
          trivial (fun e raised => ⟨Trace.isOpen_append, Or.inl (raised.resolve_right False.elim)⟩)
          (fun _ _ taught => taught) fun now => ?_))
      · intro r c yielded
        cases r with
        | ok entry => exact yielded
        | error e =>
          obtain ⟨still, why⟩ := yielded
          rw [Prog.onError_error]
          split
          · rename_i illegal
            refine ⟨still begun, ?_⟩
            rcases why with faulted | ⟨-, rfl⟩ | forbidden
            · exact Or.inl ⟨e, faulted, Or.inr rfl⟩
            · simp [noResultFound] at illegal
            · exact Or.inr (Or.inr (Or.inr ⟨e, forbidden, rfl⟩))
          · rename_i legal
            refine ⟨still begun, ?_⟩
            rcases why with faulted | missing | ⟨current, seen, refused⟩
            · exact Or.inl ⟨e, faulted, Or.inl rfl⟩
            · exact Or.inr (Or.inr (Or.inl missing))
            · exact absurd (ensureTransition_error refused).2 legal
      · refine Txn.Discipline.wp_mono ?_ (wp_transition good rfl fun row member same => ?_)
        · intro r c yielded
          cases r with
          | ok entry =>
            obtain ⟨rfl, row, moved, named, legal, rfl⟩ := yielded
            exact ⟨rfl, row, named, legal⟩
          | error e => exact ⟨fun still => yielded.1 (Trace.isOpen_append still), yielded.2⟩
        · cases action <;> exact ⟨fun never => (by cases never), fun never => (by cases never)⟩
  · rintro entry writes locks trace ⟨row, rfl, moved⟩
    refine ⟨⟨row, rfl, moved⟩, [], by simp, fun _ _ _ => ?_⟩
    cases moved with
    | move member legal => exact ⟨trace, _, rfl⟩
  · rintro e db trace (⟨seen, rfl, still, struck | refused⟩ | faulted) _
    · exact Or.inl struck
    · exact Or.inr ⟨seen, rfl, still, refused⟩
    · exact Or.inl ⟨e, faulted, Or.inl rfl⟩

/-! ## Replay -/

/-- The dead-letter entry of an event whose row is locked. What it does not show, no
entry of the event has. -/
theorem wp_entryForEvent {eventId : Nat} {writes : List Write} (held : locks.onEvent eventId)
    (untouched : (db.after writes).entries = db.entries) :
    svc.wp scope call (Dlq.entryForEvent eventId) ⟨db, writes, locks, trace⟩
      (Freely db fun found writes' locks' _ => writes' = writes ∧ locks' = locks ∧
        (∀ entry, found = some entry → ∃ row ∈ db.entries, row.id = entry.id ∧ row.eventId = eventId) ∧
        ∀ status, Guarded (svc.regime scope) locks (.noEntryIn eventId status) →
          (∀ entry, found = some entry → entry.status ≠ status) →
          (Fact.noEntryIn eventId status).holds db) := by
  refine wp_execute_last trivial (fun _ _ => trivial) ?_
  intro found lesson taught known
  have open' : ∀ status, Guarded (svc.regime scope) locks (.noEntryIn eventId status) →
      status ∈ [DlqStatus.needsReview, .replaying] := by
    intro status guard
    cases status with
    | needsReview => simp
    | replaying => simp
    | _ => cases guard
  cases found with
  | none =>
    cases taught
    refine ⟨by simp, by simp, fun _ none => (by cases none), fun status guard _ => ?_⟩
    have absent := known (.noEntryIn eventId status) (by simpa using open' status guard)
      (by simpa using guard)
    simpa only [Fact.holds, untouched] using absent
  | some entry =>
    cases taught
    have present := known (.entryOf eventId entry.id) (by simp) (Locks.onEvent_mono held)
    simp only [Fact.holds, untouched] at present
    refine ⟨by simp, by simp, ?_, fun status guard differs => ?_⟩
    · rintro _ ⟨⟩
      exact present
    · have apart : status ≠ entry.status := (differs entry rfl).symm
      have absent := known (.noEntryIn eventId status)
        (List.mem_cons_of_mem _ (List.mem_map_of_mem (List.mem_filter.mpr
          ⟨open' status guard, by simpa using apart⟩))) (by simpa using guard)
      simpa only [Fact.holds, untouched] using absent

/-- The entry that `entry_for_event` found is the event's entry. -/
theorem entry_ofEvent {eventId entryId : Nat} {row : EntryRow} (good : Wf db)
    (member : row ∈ db.entries) (named : row.id = entryId)
    (found : ∃ entry ∈ db.entries, entry.id = entryId ∧ entry.eventId = eventId) :
    row.eventId = eventId := by
  obtain ⟨entry, there, alike, about⟩ := found
  rw [← List.inj_on_of_nodup_map good.entryIds there member (alike.trans named.symm)]
  exact about

/-- A transition of the entry that `entry_for_event` found moves the event's entry. -/
theorem Moves.ofEvent {eventId entryId : Nat} {target : DlqStatus} {row : EntryRow}
    {moved : List Write} (good : Wf db) (legal : Moves db target row moved) (named : row.id = entryId)
    (found : ∃ entry ∈ db.entries, entry.id = entryId ∧ entry.eventId = eventId) :
    row.eventId = eventId ∧ moved ≠ [] := by
  cases legal with
  | move member legal => exact ⟨entry_ofEvent good member named found, by simp⟩

theorem wp_markDlqReplaying (good : Wf db) {eventId : Nat} {now : Time} {writes : List Write}
    (held : (.eventRow eventId, .excl) ∈ locks) (untouched : (db.after writes).entries = db.entries) :
    svc.wp scope call (markDlqReplaying eventId now) ⟨db, writes, locks, trace⟩
      (Freely db fun _ writes' _ _ => ∃ marked, writes' = writes ++ marked ∧
        (marked = [] ∨ ∃ row, row.eventId = eventId ∧ Moves db .replaying row marked) ∧
        (marked = [] → (Fact.noEntryIn eventId .needsReview).holds db)) := by
  unfold markDlqReplaying
  refine wp_seq (wp_entryForEvent ⟨.excl, held⟩ untouched) ?_
  rintro found _ locks₁ trace₁ ⟨rfl, rfl, present, absent⟩
  cases found with
  | none => exact ⟨rfl, [], by simp, Or.inl rfl, fun _ => absent _ held fun _ none => by cases none⟩
  | some entry =>
    simp only
    split
    · rename_i differs
      refine ⟨rfl, [], by simp, Or.inl rfl, fun _ => absent _ held ?_⟩
      rintro _ ⟨⟩
      exact differs
    · refine wp_seq (wp_anyhow (wp_transition good untouched fun row member same => ?_)) ?_
      · rw [entry_ofEvent good member same (present entry rfl)]
        exact ⟨fun _ => ⟨.excl, held⟩, fun _ => held⟩
      · rintro _ _ _ _ ⟨row, moved, named, legal, rfl⟩
        obtain ⟨about, some⟩ := legal.ofEvent good named (present entry rfl)
        exact ⟨rfl, moved, rfl, Or.inr ⟨row, about, legal⟩, fun none => absurd none some⟩

theorem wp_settleDlq (good : Wf db) {eventId : Nat} {outcome : ReplayOutcome} {now : Time}
    {writes : List Write} (held : locks.onEvent eventId)
    (untouched : (db.after writes).entries = db.entries) :
    svc.wp scope call (settleDlq eventId outcome now) ⟨db, writes, locks, trace⟩
      (Freely db fun _ writes' _ _ => ∃ settled, writes' = writes ++ settled ∧
        (settled = [] ∨ ∃ row, row.eventId = eventId ∧
          (outcome = .failed ∧ Moves db .needsReview row settled ∨
            outcome ≠ .failed ∧ Moves db .resolved row settled)) ∧
        (settled = [] → (Fact.noEntryIn eventId .replaying).holds db)) := by
  unfold settleDlq
  refine wp_seq (wp_entryForEvent held untouched) ?_
  rintro found _ locks₁ trace₁ ⟨rfl, rfl, present, absent⟩
  cases found with
  | none => exact ⟨rfl, [], by simp, Or.inl rfl, fun _ => absent _ held fun _ none => by cases none⟩
  | some entry =>
    simp only
    split
    · rename_i differs
      refine ⟨rfl, [], by simp, Or.inl rfl, fun _ => absent _ held ?_⟩
      rintro _ ⟨⟩
      exact differs
    · have owned : ∀ {target : DlqStatus}, target ≠ .replaying → ∀ row ∈ db.entries,
          row.id = entry.id → (target = .needsReview → locks₁.onEvent row.eventId) ∧
            (target = .replaying → (.eventRow row.eventId, .excl) ∈ locks₁) := by
        intro target apart row member same
        rw [entry_ofEvent good member same (present entry rfl)]
        exact ⟨fun _ => held, fun there => absurd there apart⟩
      by_cases failed : outcome = .failed
      · simp only [if_pos failed]
        refine wp_seq (wp_anyhow (wp_transition good untouched (owned (by simp)))) ?_
        rintro _ _ _ _ ⟨row, moved, named, legal, rfl⟩
        obtain ⟨about, some⟩ := legal.ofEvent good named (present entry rfl)
        exact ⟨rfl, moved, rfl, Or.inr ⟨row, about, Or.inl ⟨failed, legal⟩⟩, fun none => absurd none some⟩
      · simp only [if_neg failed]
        refine wp_seq (wp_anyhow (wp_transition good untouched (owned (by simp)))) ?_
        rintro _ _ _ _ ⟨row, moved, named, legal, rfl⟩
        obtain ⟨about, some⟩ := legal.ofEvent good named (present entry rfl)
        exact ⟨rfl, moved, rfl, Or.inr ⟨row, about, Or.inr ⟨failed, legal⟩⟩, fun none => absurd none some⟩

/-- An idle thread on a well formed store. -/
def Idle : Ctx → Prop
  | c => ∃ db trace, c = ⟨db, [], [], trace⟩ ∧ Wf db

theorem Trace.clock_mono {now : Time} {more : Trace} (kept : trace <+: more)
    (read : trace.clock = some now) : more.clock = some now := by
  obtain ⟨rest, rfl⟩ := kept
  rw [Trace.clock, List.findSome?_append]
  rw [Trace.clock] at read
  rw [read]
  rfl

theorem wp_startReplay (good : Wf db) {eventId : Nat} {requestedBy : String} {reason : Option String}
    {now : Time} (read : Trace.clock trace = some now) :
    svc.wp scope (.replay eventId requestedBy reason) (startReplay eventId now) ⟨db, [], [], trace⟩
      fun _ c => Idle c := by
  refine wp_sessionScope (X := fun _ _ => True) (P := fun _ writes _ trace =>
    StartTx eventId db writes ∧ Clocked eventId trace writes) ?_ ?_
    (fun e db trace _ good => ⟨db, trace, rfl, good⟩)
  · refine Txn.Discipline.wp_mono ?_ (Txn.Discipline.wp_trace (Q := Freely db fun _ writes _ _ =>
      StartTx eventId db writes ∧
        ∀ queue, Write.updateEvent eventId queue ∈ writes → queue.nextAttemptAt = now) ?_)
    · rintro r c ⟨yielded, kept⟩
      cases r with
      | error e => exact trivial
      | ok u =>
        obtain ⟨rfl, started, due⟩ := yielded
        exact ⟨rfl, started, fun queue member => by rw [due queue member]; exact Trace.clock_mono kept read⟩
    · refine wp_execute trivial (fun _ _ => trivial) ?_
      intro loaded lesson taught known
      cases loaded with
      | none => exact trivial
      | some event =>
        obtain ⟨row, rfl, rfl, rfl⟩ := taught
        have found := known (.event row.id (some row)) (by simp) ⟨.excl, by simp⟩
        refine wp_seq (wp_updateEvent found (by rfl)) ?_
        rintro ⟨⟩ _ locks₁ trace₁ ⟨more, rfl⟩
        refine wp_weaken (wp_markDlqReplaying good (more (by simp)) (by rfl)) ?_
        rintro ⟨⟩ _ locks₂ trace₂ ⟨marked, rfl, marks, unmarked⟩
        refine ⟨.requeued found marks unmarked, fun queue member => ?_⟩
        have moved : Write.updateEvent row.id queue ∉ marked := by
          rcases marks with rfl | ⟨entry, -, moves⟩
          · simp
          · cases moves with
            | move member legal => simp
        simp only [List.cons_append, List.nil_append, List.mem_cons, Write.updateEvent.injEq, true_and,
          moved, or_false] at member
        rw [member]
  · intro _ writes locks trace started
    exact ⟨Or.inl started, [], by simp, fun db good _ => ⟨db, _, rfl, good⟩⟩

theorem wp_finishReplay (good : Wf db) {eventId : Nat} {requestedBy : String} {reason : Option String}
    {now : Time} {outcome : ReplayOutcome}
    (honest : outcome ≠ .failed →
      Trace.unclaimed eventId trace = true ∨ (¬ scope.purging → (Fact.dealtWith eventId).holds db)) :
    svc.wp scope (.replay eventId requestedBy reason)
      (finishReplay eventId requestedBy reason now outcome) ⟨db, [], [], trace⟩ fun _ _ => True := by
  have settles : svc.wp scope (.replay eventId requestedBy reason) (do
      let resulting ← Queue.latestAttemptId eventId
      Queue.recordReplayRequest ⟨eventId, requestedBy, now, reason, outcome, resulting⟩
      let settledAt ← execute .now
      settleDlq eventId outcome settledAt) ⟨db, [], [], trace⟩
      (Freely db fun _ writes _ _ => ∃ resulting settled,
        writes = .insertReplay ⟨eventId, requestedBy, now, reason, outcome, resulting⟩ :: settled ∧
        (settled = [] ∨ ∃ row, row.eventId = eventId ∧
          (outcome = .failed ∧ Moves db .needsReview row settled ∨
            outcome ≠ .failed ∧ Moves db .resolved row settled)) ∧
        (settled = [] → (Fact.noEntryIn eventId .replaying).holds db)) := by
    refine wp_look trivial (fun _ _ => trivial) (fun _ _ taught => taught) fun resulting => ?_
    refine wp_execute trivial (fun _ _ => trivial) ?_
    rintro ⟨⟩ lesson ⟨event, more, rfl⟩ known
    refine wp_look trivial (fun _ _ => trivial) (fun _ _ taught => taught) fun settledAt => ?_
    refine wp_weaken (wp_settleDlq good ⟨.share, by simp⟩ (by rfl)) ?_
    rintro ⟨⟩ _ locks₁ trace₁ ⟨settled, rfl, how, unsettled⟩
    exact ⟨resulting, settled, rfl, how, unsettled⟩
  refine wp_sessionScope (X := fun _ _ => True) (P := fun _ writes _ trace =>
    FinishTx scope.purging eventId trace db writes) ?_ ?_ (fun _ _ _ _ _ => trivial)
  · refine Txn.Discipline.wp_mono ?_ (Txn.Discipline.wp_trace settles)
    rintro r c ⟨yielded, kept⟩
    cases r with
    | error e => exact trivial
    | ok u =>
      obtain ⟨rfl, resulting, settled, written, how, unsettled⟩ := yielded
      refine ⟨rfl, ?_⟩
      rw [written]
      refine .finished rfl (fun fine => ?_) how unsettled
      exact (honest fine).imp_left (Trace.unclaimed_mono kept.subset)
  · intro _ writes locks trace finished
    exact ⟨Or.inr (Or.inr finished), [], by simp, fun _ _ _ => trivial⟩

/-- Only a failure, or nothing claimed at all, lacks an effect result. -/
theorem outcomeOf_honest {result : ProcessResult} (fine : (outcomeOf result).1 ≠ .failed) :
    result.outcome = none ∨ result.effect.isSome := by
  obtain ⟨outcome, effect⟩ := result
  cases outcome with
  | none => exact Or.inl rfl
  | some outcome =>
    cases effect with
    | none => exact absurd rfl fine
    | some effect => exact Or.inr rfl

theorem wp_replayEvent (good : Wf db) {eventId : Nat} {requestedBy : String} {reason : Option String} :
    svc.wp scope (.replay eventId requestedBy reason) (svc.replayEvent eventId requestedBy reason)
      ⟨db, [], [], []⟩ fun _ _ => True := by
  unfold Service.replayEvent
  refine wp_now (fun _ _ _ => trivial) fun now => ?_
  refine wp_bind (Txn.Discipline.wp_mono ?_ (wp_startReplay good rfl))
  rintro r _ ⟨db₁, trace₁, rfl, good₁⟩
  cases r with
  | error e => exact trivial
  | ok u =>
    have passes : Passes svc scope (.replay eventId requestedBy reason) eventId :=
      fun _ _ _ described => Or.inr (Or.inl described)
    refine wp_bind (Txn.Discipline.wp_mono ?_ (wp_processEvent good₁ passes))
    rintro r _ ⟨⟨db₂, trace₂, rfl, good₂⟩, done⟩
    cases r with
    | error e => exact trivial
    | ok result =>
      obtain ⟨dealt, unclaimed⟩ := done result rfl
      refine wp_bind (Txn.Discipline.wp_mono ?_ (wp_finishReplay good₂ fun fine => ?_))
      · intro r c _
        cases r <;> exact trivial
      · exact (outcomeOf_honest fine).imp unclaimed dealt

/-! ## Ingestion -/

theorem wp_ingestEvent {event : IncomingEvent} :
    svc.wp scope call (ingestEvent event) ⟨db, [], [], trace⟩
      (Yields db (fun e _ => scope.faults e ∨ event.storable = false ∨ scope.purging)
        fun result writes _ trace => trace.ingestAnswer = some result ∧
          IngestTx scope.purging event db result writes) := by
  unfold ingestEvent
  refine wp_execute trivial (fun e raised => ?_) ?_
  · exact raised.imp_right Or.inl
  intro inserted lesson taught known
  cases inserted with
  | some id =>
    obtain ⟨storable, at', rfl⟩ := taught
    have fresh := known (.freshEvent id) (by simp) (by simp [Guarded])
    have first := known (.noEventKey event.source event.idempotencyKey) (by simp) (by simp [Guarded])
    exact ⟨rfl, by simp [Trace.ingestAnswer], .inserted storable fresh.1 fresh.2.1 first⟩
  | none =>
    obtain ⟨storable, id, rfl⟩ := taught
    have present : Obeys (svc.regime scope) [] db (.eventIdOf event.source event.idempotencyKey) := by
      intro spared
      obtain ⟨row, member, -, same⟩ :=
        known (.hasEventKey event.source event.idempotencyKey id) (by simp) (Or.inl spared)
      exact ⟨row, member, same⟩
    refine wp_execute present (fun e raised => ?_) ?_
    · exact raised.imp_right Or.inr
    · rintro existing lesson rfl known
      exact ⟨rfl, by simp [Trace.ingestAnswer], .duplicate (fun spared =>
        known (.hasEventKey event.source event.idempotencyKey existing) (by simp) (Or.inl spared))
        storable⟩

/-- The transaction of `ingest_event`, wherever it is called from. -/
theorem wp_ingestScope {event : IncomingEvent}
    (described : ∀ trace result writes, Trace.ingestAnswer trace = some result →
      IngestTx scope.purging event db result writes → Describes svc scope call trace db writes) :
    svc.wp scope call (sessionScope (ingestEvent event)) ⟨db, [], [], trace⟩ fun r c =>
      match r with
      | .ok result => Trace.answers c.trace result ∧ event.storable = true
      | .error e => scope.faults e ∨ event.storable = false ∨ scope.purging := by
  refine wp_sessionScope wp_ingestEvent ?_ ?_
  · rintro result writes locks trace ⟨answered, stored⟩
    have storable : event.storable = true := by
      cases stored with
      | inserted storable fresh unused first => exact storable
      | duplicate known storable => exact storable
    exact ⟨described trace result writes answered stored, [], by simp,
      fun _ _ _ => ⟨⟨trace, writes, rfl, answered⟩, storable⟩⟩
  · rintro e db trace (⟨seen, -, raised⟩ | faulted) _
    · exact raised
    · exact Or.inl faulted

theorem wp_deliver {request : Request} :
    svc.wp scope (.deliver request) (svc.ingest request) ⟨db, [], [], []⟩
      fun r c => Returns svc scope (.deliver request) (r.map .answered) c.trace := by
  unfold Service.ingest
  split
  · rename_i tooLarge
    exact tooLarge
  · split
    · rename_i unknown
      exact Or.inl unknown
    · rename_i secret known
      refine wp_now (fun e _ faulted => Or.inl faulted) fun now => ?_
      split
      · rename_i exc forged
        have refused : svc.refuses request ([] ++ [.stmt .now (.ok now)]) exc :=
          ⟨secret, now, known, rfl, forged⟩
        split
        · exact Or.inr ⟨exc, refused⟩
        · exact Or.inr (Or.inr (Or.inr (Or.inr refused)))
      · split
        · rename_i exc misrouted
          split
          · rename_i malformed
            exact ⟨⟨now, rfl⟩, exc, misrouted, malformed⟩
          · rename_i other
            exact Or.inr (Or.inr (Or.inr (Or.inl ⟨misrouted, other⟩)))
        · rename_i routed known
          refine wp_bind (Txn.Discipline.wp_mono ?_ (wp_ingestScope fun trace result writes answered stored =>
            ⟨routed, result, known, answered, stored⟩))
          intro r c ended
          cases r with
          | ok result => exact ⟨ended.1, routed, known, ended.2⟩
          | error e =>
            rcases ended with faulted | refused | purging
            · exact Or.inl faulted
            · exact Or.inr (Or.inr (Or.inl ⟨routed, known, refused⟩))
            · exact Or.inr (Or.inl purging)

/-! ## Retention -/

theorem Purges.clerical {write : Write} (purges : Purges db write) : write.business = false := by
  cases purges <;> rfl

/-- Retention deletes events and changes none. -/
theorem event?_of_purged {writes : List Write} (purges : ∀ write ∈ writes, Purges db write)
    {view : Db} {id : Nat} {row : EventRow} (found : (view.after writes).event? id = some row) :
    view.event? id = some row := by
  induction writes generalizing view with
  | nil => exact found
  | cons write rest ih =>
    obtain ⟨first, others⟩ := List.forall_mem_cons.mp purges
    have before := ih others found
    rw [event?_apply] at before
    cases first with
    | attempts => exact before
    | @event gone cutoff found expired free =>
      simp only [Write.onEvent] at before
      split at before
      · cases before
      · exact before

theorem wp_purgeEach (purging : scope.purging) {cutoff : Time} {ids : List Nat} {writes : List Write}
    (purges : ∀ write ∈ writes, Purges db write) :
    svc.wp scope call (purgeEach cutoff ids) ⟨db, writes, locks, trace⟩
      (Freely db fun _ writes' _ _ => ∀ write ∈ writes', Purges db write) := by
  induction ids generalizing writes locks trace with
  | nil => exact ⟨rfl, purges⟩
  | cons id rest ih =>
    unfold purgeEach
    refine wp_execute purging (fun _ _ => trivial) ?_
    intro purged lesson taught known
    cases purged with
    | false =>
      cases taught
      refine wp_seq (ih (by simpa using purges)) ?_
      exact fun more writes' _ _ purges' => ⟨rfl, purges'⟩
    | true =>
      obtain ⟨row, entries, more, expired, mine, -, rfl⟩ := taught
      have view := known (.event id (some row)) (by simp) ⟨.excl, List.mem_append_right _ mine⟩
      have free := known (.noLedger id) (by simp) (Or.inr (List.mem_append_right _ mine))
      have found := event?_of_purged purges view
      obtain rfl := event?_id found
      simp only [Fact.holds, (Db.after_clerical (fun write member => (purges write member).clerical) db).2]
        at free
      have all : ∀ write ∈ writes ++ [.deleteEvent row.id], Purges db write := by
        intro write member
        rcases List.mem_append.mp member with old | new
        · exact purges write old
        · rw [List.mem_singleton.mp new]
          exact .event found expired free
      refine wp_seq (ih all) ?_
      exact fun more writes' _ _ purges' => ⟨rfl, purges'⟩

theorem wp_purgeHistory {olderThan : Int} (purging : scope.purging) :
    svc.wp scope (.purge olderThan) (purgeHistory olderThan) ⟨db, [], [], trace⟩ fun _ _ => True := by
  refine wp_sessionScope (X := fun _ _ => True) (P := fun _ writes _ _ => ∀ write ∈ writes, Purges db write)
    ?_ ?_ (fun _ _ _ _ _ => trivial)
  · refine wp_look trivial (fun _ _ => trivial) (fun _ _ taught => taught) fun now => ?_
    refine wp_execute purging (fun _ _ => trivial) ?_
    rintro attempts lesson ⟨ids, more, rfl⟩ known
    have first : ∀ write ∈ [Write.deleteAttempts ids], Purges db write := by
      simpa using Purges.attempts
    refine wp_look trivial (fun _ _ => trivial) (fun _ _ taught => taught) fun candidates => ?_
    refine wp_seq (wp_purgeEach purging first) ?_
    exact fun events writes _ _ purges => ⟨rfl, purges⟩
  · exact fun _ writes _ _ purges => ⟨purges, [], by simp, fun _ _ _ => trivial⟩

/-! ## Every call -/

/-- Every call of the service keeps the discipline. -/
theorem verified (svc : Service) (scope : Scope) : (svc.discipline scope).Verified := by
  intro call called db good
  cases call with
  | process eventId =>
    refine wp_bind (Txn.Discipline.wp_mono ?_ (wp_processEvent good fun _ _ _ described => described))
    rintro (e | result) c _ <;> exact trivial
  | replay eventId requestedBy reason =>
    refine wp_bind (Txn.Discipline.wp_mono ?_ (wp_replayEvent good))
    rintro (e | result) c _ <;> exact trivial
  | triage entryId action note =>
    refine wp_bind (Txn.Discipline.wp_mono ?_ (wp_triage good))
    rintro (e | entry) c ended <;> exact ended
  | ingest event =>
    refine wp_bind (Txn.Discipline.wp_mono ?_ (wp_ingestScope fun trace result writes answered stored =>
      ⟨result, answered, stored⟩))
    rintro (e | result) c ended
    · exact ended
    · exact ended.1
  | deliver request =>
    refine wp_bind (Txn.Discipline.wp_mono ?_ wp_deliver)
    rintro (e | response) c ended <;> exact ended
  | purge olderThan =>
    refine wp_bind (Txn.Discipline.wp_mono ?_ (wp_purgeHistory ⟨olderThan, called⟩))
    rintro (e | counts) c _ <;> exact trivial

end WebhookReceiver
