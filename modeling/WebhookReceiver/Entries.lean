import WebhookReceiver.Custody

/-!
The dead-letter entries, transaction by transaction.

`EntryStep` says what a committed transaction can have made of one entry: nothing, a
move along an edge of `DlqStatus.allowed`, or a new entry under review. Every move is
decided on a status read under the row lock of the entry, so what the edges promise
holds for every order in which triage, replays and failures overlap
(`entries_follow_triage`).
-/

namespace WebhookReceiver

/-! ## The moves of a transaction -/

def Write.move? : Write → Option (Nat × DlqStatus)
  | .updateEntry id triage => some (id, triage.status)
  | _ => none

/-- The entries that a transaction moves, each with its new status. -/
def movesIn (writes : List Write) : List (Nat × DlqStatus) := writes.filterMap Write.move?

/-- What a committed transaction can have made of an entry that is there after it. -/
inductive EntryStep (svc : Service) (scope : Scope) (trace : Trace) (db : Db) (writes : List Write)
    (row : EntryRow) : Prop where
  | same (before : row ∈ db.entries) (unmoved : ∀ status, (row.id, status) ∉ movesIn writes)
  /-- A pass gave the event up, which had no entry. -/
  | filed (absent : ∀ other ∈ db.entries, other.eventId ≠ row.eventId)
      (status : row.status = .needsReview) (unresolved : row.resolvedAt = none)
      (failed : Failed svc row.eventId db writes)
  /-- A replay took it up or settled it, or an operator did. -/
  | moved {before : EntryRow} {target : DlqStatus} {now : Time} {note : Option String}
      (member : before ∈ db.entries) (legal : target ∈ before.status.allowed)
      (triaged : row = { before with
        toEntryTriage := ⟨target, if target.terminal then some now else before.resolvedAt, note⟩ })
      (wrote : (before.id, target) ∈ movesIn writes)
      (mover : target = .replaying ∧ StartTx before.eventId db writes ∨
        target = .needsReview ∧ FinishTx scope.purging before.eventId trace db writes ∨
        target.terminal = true)

section Steps

variable {svc : Service} {scope : Scope} {call : Call} {trace : Trace} {db : Db}
  {writes : List Write} {row : EntryRow}

theorem movesIn_business (business : ∀ write ∈ writes, write.business = true) :
    movesIn writes = [] := by
  refine List.filterMap_eq_nil_iff.mpr fun write member => ?_
  have moves := business write member
  cases write with
  | updateEntry id triage => cases moves
  | _ => rfl

theorem Dealt.entries {eventId : Nat} {result : EffectResult}
    (done : Dealt svc eventId db result writes) :
    movesIn writes = [] ∧ (db.after writes).entries = db.entries := by
  cases done with
  | @mk event effect result business attempt found pending due dispatched applied next outcome =>
    obtain ⟨-, -, entries, -⟩ := Db.after_business applied.business db
    constructor
    · have silent := movesIn_business applied.business
      simp only [movesIn, List.filterMap_append] at silent ⊢
      rw [silent]
      rfl
    · rw [Db.after_append]
      exact entries

/-- A failure files an entry, or it leaves the entries alone. -/
theorem Failed.entries {eventId : Nat} (done : Failed svc eventId db writes) :
    movesIn writes = [] ∧ ((db.after writes).entries = db.entries ∨
      (∀ row ∈ db.entries, row.eventId ≠ eventId) ∧ ∃ row : EntryRow, row.eventId = eventId ∧
        row.status = .needsReview ∧ row.resolvedAt = none ∧
        (db.after writes).entries = db.entries ++ [row]) := by
  cases done with
  | @mk event exc attempt verdict found next outcome recorded judged =>
    have same := event?_id found
    cases judged with
    | rescheduled retryable left start cap => exact ⟨rfl, Or.inl rfl⟩
    | deadLettered spent filing =>
      rcases filing with ⟨present, rfl⟩ | ⟨absent, entryId, at', rfl⟩
      · exact ⟨rfl, Or.inl rfl⟩
      · refine ⟨rfl, Or.inr ⟨fun row member => same ▸ absent row member, ?_⟩⟩
        exact ⟨⟨⟨.needsReview, none, none⟩, entryId, event.id, _, _, at'⟩, same, rfl, rfl, rfl⟩

theorem purges_entries (purges : ∀ write ∈ writes, Purges db write) (view : Db) :
    movesIn writes = [] ∧ (view.after writes).entries ⊆ view.entries := by
  induction writes generalizing view with
  | nil => exact ⟨rfl, List.Subset.refl _⟩
  | cons write rest ih =>
    obtain ⟨first, others⟩ := List.forall_mem_cons.mp purges
    obtain ⟨silent, later⟩ := ih others (write.apply view)
    cases first with
    | attempts => exact ⟨silent, later⟩
    | event found expired free => exact ⟨silent, List.Subset.trans later (List.filter_subset_self _)⟩

/-- A move changes the row it is about and no other. -/
theorem Moves.entry {target : DlqStatus} {moved : EntryRow} (good : Wf db)
    (moves : Moves db target moved writes) (view : Db) (same : view.entries = db.entries)
    (after : row ∈ (view.after writes).entries) :
    movesIn writes = [(moved.id, target)] ∧
    (row ∈ db.entries ∧ row.id ≠ moved.id ∨
      ∃ now note, moved ∈ db.entries ∧ target ∈ moved.status.allowed ∧ row = { moved with
        toEntryTriage := ⟨target, if target.terminal then some now else moved.resolvedAt, note⟩ }) := by
  cases moves with
  | @move now note member legal =>
    refine ⟨rfl, ?_⟩
    simp only [Db.after_cons, Db.after_nil, Write.apply, same] at after
    obtain ⟨before, there, rfl⟩ := List.mem_map.mp after
    by_cases hit : before.id = moved.id
    · obtain rfl := List.inj_on_of_nodup_map good.entryIds there member hit
      exact Or.inr ⟨now, note, member, legal, if_pos rfl⟩
    · rw [if_neg hit]
      exact Or.inl ⟨there, hit⟩

/-- A transaction whose only move is this one. -/
theorem Moves.entryStep {target : DlqStatus} {moved : EntryRow} {settled : List Write} (good : Wf db)
    (moves : Moves db target moved settled) (view : Db) (same : view.entries = db.entries)
    (after : row ∈ (view.after settled).entries) (only : movesIn writes = movesIn settled)
    (mover : target = .replaying ∧ StartTx moved.eventId db writes ∨
      target = .needsReview ∧ FinishTx scope.purging moved.eventId trace db writes ∨
      target.terminal = true) : EntryStep svc scope trace db writes row := by
  obtain ⟨written, ⟨before, other⟩ | ⟨now, note, member, legal, triaged⟩⟩ := moves.entry good view same after
  · refine .same before fun status there => ?_
    rw [only, written, List.mem_singleton] at there
    exact other (Prod.mk.inj there).1
  · exact .moved member legal triaged (by rw [only, written]; exact List.mem_singleton_self _) mover

/-- A transaction moves one entry at most. -/
theorem Committed.moves (committed : Committed svc scope call trace db writes) :
    movesIn writes = [] ∨ ∃ moved target, moved ∈ db.entries ∧ target ∈ moved.status.allowed ∧
      movesIn writes = [(moved.id, target)] := by
  have one : ∀ {target moved settled}, Moves db target moved settled →
      movesIn writes = movesIn settled → ∃ moved target, moved ∈ db.entries ∧
        target ∈ moved.status.allowed ∧ movesIn writes = [(moved.id, target)] := by
    intro target moved settled moves only
    cases moves with
    | move member legal => exact ⟨moved, target, member, legal, only⟩
  cases committed with
  | idle => exact Or.inl rfl
  | dealt passing done => exact Or.inl done.entries.1
  | failed passing done => exact Or.inl done.entries.1
  | started replay done =>
    cases done with
    | requeued found marks =>
      rcases marks with rfl | ⟨moved, rfl, moves⟩
      · exact Or.inl rfl
      · exact Or.inr (one moves rfl)
  | finished replay done =>
    cases done with
    | finished about honest settles =>
      rcases settles with rfl | ⟨moved, rfl, ⟨-, moves⟩ | ⟨-, moves⟩⟩
      · exact Or.inl rfl
      · exact Or.inr (one moves rfl)
      · exact Or.inr (one moves rfl)
  | moved triage named done => exact Or.inr (one done rfl)
  | stored stores answered done => cases done <;> exact Or.inl rfl
  | purged purge done => exact Or.inl (purges_entries done db).1

/-- What a transaction did to an entry, whatever call committed it. -/
theorem Committed.entryStep (good : Wf db) (committed : Committed svc scope call trace db writes)
    (after : row ∈ (db.after writes).entries) : EntryStep svc scope trace db writes row := by
  have unmoved : movesIn writes = [] → row ∈ db.entries → EntryStep svc scope trace db writes row :=
    fun silent before => .same before (by simp [silent])
  cases committed with
  | idle => exact unmoved rfl after
  | dealt passing done => exact unmoved done.entries.1 (done.entries.2 ▸ after)
  | failed passing done =>
    obtain ⟨silent, same | ⟨absent, new, about, status, unresolved, added⟩⟩ := done.entries
    · exact unmoved silent (same ▸ after)
    · rw [added] at after
      rcases List.mem_append.mp after with old | there
      · exact unmoved silent old
      · obtain rfl := List.mem_singleton.mp there
        exact .filed (about ▸ absent) status unresolved (about ▸ done)
  | started replay done =>
    have whole := done
    cases done with
    | requeued found marks =>
      rcases marks with rfl | ⟨moved, rfl, moves⟩
      · exact unmoved rfl after
      · exact moves.entryStep good (Write.apply _ db) rfl after rfl (Or.inl ⟨rfl, whole⟩)
  | finished replay done =>
    have whole := done
    cases done with
    | @finished request settled about honest settles =>
      rcases settles with rfl | ⟨moved, rfl, ⟨-, moves⟩ | ⟨-, moves⟩⟩
      · exact unmoved rfl after
      · exact moves.entryStep good (Write.apply _ db) rfl after rfl (Or.inr (Or.inl ⟨rfl, whole⟩))
      · exact moves.entryStep good (Write.apply _ db) rfl after rfl (Or.inr (Or.inr rfl))
  | @moved entryId action note target writes triage named done =>
    exact done.entryStep good db rfl after rfl (Or.inr (Or.inr (by cases action <;> rfl)))
  | stored stores answered done => cases done <;> exact unmoved rfl after
  | purged purge done =>
    obtain ⟨silent, fewer⟩ := purges_entries done db
    exact unmoved silent (fewer after)

end Steps

/-! ## What the edges promise -/

/-- A transaction moves the entry of an event to RESOLVED or DISCARDED. -/
def signsOff (id : Nat) (entry : Commit) : Bool :=
  entry.before.entries.any fun row => row.eventId = id ∧
    (movesIn entry.writes).any fun move => move.1 = row.id ∧ move.2.terminal

/-- A transaction takes an entry along an edge of the transition table, or files a new
one under review, or leaves it. -/
def FollowsEdges (entry : Commit) : Prop :=
  ∀ row ∈ (entry.before.after entry.writes).entries,
    (∃ before ∈ entry.before.entries, before.id = row.id ∧ before.eventId = row.eventId ∧
      (row = before ∨ row.status ∈ before.status.allowed)) ∨
    (∀ before ∈ entry.before.entries, before.eventId ≠ row.eventId) ∧ row.status = .needsReview

/-- What is RESOLVED or DISCARDED stays, every column of it, as long as its event does. -/
def TerminalIsFinal (w w' : World) : Prop :=
  ∀ row ∈ w.db.entries, row.status.terminal = true →
    (row ∈ w'.db.entries ∨ row.eventId ∈ w'.db.purged) ∧
      ∀ row' ∈ w'.db.entries, row'.eventId = row.eventId → row' = row

/-- A triage request that is answered has signed its entry off. One that is refused has
committed nothing: something struck it, or it found no entry, or the entry was in a
status that the move is illegal from. -/
def TriageAnswered (scope : Scope) (w : World) : Prop :=
  ∀ t th entryId action note, w.threads t = some th → th.call = .triage entryId action note →
    (∀ outcome, th.prog = .done (.ok outcome) → ∃ entry ∈ w.log, entry.tid = t ∧
      movesIn entry.writes = [(entryId, action.target)] ∧
      ∃ row ∈ entry.before.entries, row.id = entryId ∧ action.target ∈ row.status.allowed ∧
        signsOff row.eventId entry = true) ∧
    ∀ e, th.prog = .done (.error e) →
      (∃ struck, scope.faults struck ∧ (e = struck ∨ e = httpException struck.message)) ∨
      (∀ writes, .committed writes ∉ th.trace) ∧
        (.stmt (.getEntry entryId) (.ok none) ∈ th.trace ∨
          .stmt (.entryStatusForUpdate entryId) (.error noResultFound) ∈ th.trace ∨
          ∃ current exc, .stmt (.entryStatusForUpdate entryId) (.ok current) ∈ th.trace ∧
            ensureTransition current action.target = .error exc ∧
            exc.cls = "InvalidDlqTransitionError" ∧ e = httpException exc.message)

section Steps

variable {svc : Service} {scope : Scope} {call : Call} {trace : Trace} {db : Db} {writes : List Write}
  {row : EntryRow}

theorem terminal_stuck {status target : DlqStatus} (terminal : status.terminal = true) :
    target ∉ status.allowed := by
  cases status with
  | resolved => simp [DlqStatus.allowed]
  | discarded => simp [DlqStatus.allowed]
  | _ => cases terminal

theorem EntryStep.edges {entry : Commit}
    (step : EntryStep svc scope entry.trace entry.before entry.writes row) :
    (∃ before ∈ entry.before.entries, before.id = row.id ∧ before.eventId = row.eventId ∧
      (row = before ∨ row.status ∈ before.status.allowed)) ∨
    (∀ before ∈ entry.before.entries, before.eventId ≠ row.eventId) ∧ row.status = .needsReview := by
  cases step with
  | same before unmoved => exact Or.inl ⟨row, before, rfl, rfl, Or.inl rfl⟩
  | filed absent status unresolved failed => exact Or.inr ⟨absent, status⟩
  | @moved before target now note member legal triaged wrote mover =>
    subst triaged
    exact Or.inl ⟨before, member, rfl, rfl, Or.inr legal⟩

theorem EntryStep.resolved (step : EntryStep svc scope trace db writes row)
    (resolved : ∀ row ∈ db.entries, row.resolvedAt.isSome = row.status.terminal) :
    row.resolvedAt.isSome = row.status.terminal := by
  cases step with
  | same before unmoved => exact resolved row before
  | filed absent status unresolved failed => rw [status, unresolved]; rfl
  | @moved before target now note member legal triaged wrote mover =>
    subst triaged
    cases terminal : target.terminal with
    | true => simp
    | false =>
      have still : before.status.terminal = false :=
        Bool.eq_false_of_not_eq_true fun stuck => terminal_stuck stuck legal
      simp [resolved before member, still]

/-- The entry of an event is terminal, or the event is gone. -/
def SignedOff (id : Nat) (P : EntryRow → Prop) (db : Db) : Prop :=
  id ∈ db.purged ∨ ∃ row ∈ db.entries, row.eventId = id ∧ row.status.terminal = true ∧ P row

theorem SignedOff.unique {id : Nat} {P : EntryRow → Prop} (good : Wf db) (settled : SignedOff id P db)
    (member : row ∈ db.entries) (about : row.eventId = id) : row.status.terminal = true ∧ P row := by
  rcases settled with gone | ⟨other, there, same, terminal, holds⟩
  · obtain ⟨event, known, same⟩ := good.entryEvent row member
    exact absurd (same.trans about ▸ gone) (good.purgedGone event known)
  · obtain rfl := List.inj_on_of_nodup_map good.entryEvents there member (same.trans about.symm)
    exact ⟨terminal, holds⟩

theorem Committed.keeps_signedOff {id : Nat} {P : EntryRow → Prop} (good : Wf db)
    (committed : Committed svc scope call trace db writes)
    (settled : SignedOff id P db) : SignedOff id P (db.after writes) := by
  by_cases deleted : Write.deleteEvent id ∈ writes
  · exact Or.inl (purged_after (Or.inr deleted))
  rcases settled with gone | ⟨row, member, about, terminal, holds⟩
  · exact Or.inl (purged_after (Or.inl gone))
  obtain ⟨row', after, same⟩ := hasEntry_after deleted ⟨row, member, about⟩
  refine Or.inr ⟨row', after, same, ?_⟩
  have settled : SignedOff id P db := Or.inr ⟨row, member, about, terminal, holds⟩
  cases committed.entryStep good after with
  | same before unmoved => exact settled.unique good before same
  | filed absent status unresolved failed => exact absurd (about.trans same.symm) (absent row member)
  | @moved before target now note there legal triaged wrote mover =>
    subst triaged
    exact absurd legal (terminal_stuck (settled.unique good there same).1)

/-- Who signs an entry off finds it open. -/
theorem Committed.signsOff_open {id : Nat} {entry : Commit} (good : Wf entry.before)
    (committed : Committed svc scope entry.call entry.trace entry.before entry.writes)
    (settling : signsOff id entry = true) : ∃ row ∈ entry.before.entries, row.eventId = id ∧
      row.status.terminal = false ∧ ∃ target, movesIn entry.writes = [(row.id, target)] ∧
        target.terminal = true := by
  obtain ⟨row, member, moved⟩ := List.any_eq_true.mp settling
  simp only [decide_eq_true_eq, List.any_eq_true] at moved
  obtain ⟨about, ⟨id', target⟩, there, rfl, terminal⟩ := moved
  rcases committed.moves with none | ⟨other, target', listed, legal, only⟩
  · rw [none] at there
    cases there
  · rw [only, List.mem_singleton, Prod.mk.injEq] at there
    obtain ⟨same, rfl⟩ := there
    obtain rfl := List.inj_on_of_nodup_map good.entryIds member listed same
    have isOpen : row.status.terminal = false :=
      Bool.eq_false_of_not_eq_true fun stuck => terminal_stuck stuck legal
    exact ⟨row, member, about, isOpen, target, only, terminal⟩

theorem Committed.begins_signedOff {id : Nat} {entry : Commit} (good : Wf entry.before)
    (committed : Committed svc scope entry.call entry.trace entry.before entry.writes)
    (settling : signsOff id entry = true) :
    SignedOff id (fun _ => True) (entry.before.after entry.writes) := by
  by_cases deleted : Write.deleteEvent id ∈ entry.writes
  · exact Or.inl (purged_after (Or.inr deleted))
  obtain ⟨row, member, about, isOpen, target, only, terminal⟩ := committed.signsOff_open good settling
  obtain ⟨row', after, same⟩ := hasEntry_after deleted ⟨row, member, about⟩
  refine Or.inr ⟨row', after, same, ?_, trivial⟩
  have alike : ∀ {other}, other ∈ entry.before.entries → other.eventId = id → other = row :=
    fun there named => List.inj_on_of_nodup_map good.entryEvents there member (named.trans about.symm)
  cases committed.entryStep good after with
  | same before unmoved =>
    obtain rfl := alike before same
    exact absurd (only ▸ List.mem_singleton_self _) (unmoved target)
  | filed absent status unresolved failed => exact absurd (about.trans same.symm) (absent row member)
  | @moved before target' now note there legal triaged wrote mover =>
    rw [only, List.mem_singleton, Prod.mk.injEq] at wrote
    rw [triaged]
    exact wrote.2 ▸ terminal

end Steps

section Triage

variable {svc : Service} {scope : Scope} {w : World}

theorem triage_answered (reached : svc.Reaches scope (.init Db.empty) w) : TriageAnswered scope w := by
  intro t th entryId action note here called
  obtain ⟨-, past⟩ := reaches_history wf_empty reached
  constructor
  · intro outcome ended
    have returned := reaches_returned wf_empty reached here ended
    rw [called] at returned
    obtain ⟨seen, triage, shown⟩ := returned
    obtain ⟨entry, member, own, same, -, written⟩ :=
      Txn.Reach.logged reached t th seen _ [] here (by simpa using shown)
    obtain ⟨_, _, -, -, -, -, described, -⟩ := past.at member
    rw [same, called] at described
    obtain ⟨row, named, moves⟩ := described
    have moved : movesIn entry.writes = [(row.id, action.target)] ∧ row ∈ entry.before.entries ∧
        action.target ∈ row.status.allowed := by
      generalize entry.writes = writes at moves
      cases moves with
      | move there legal => exact ⟨rfl, there, legal⟩
    obtain ⟨only, there, legal⟩ := moved
    refine ⟨entry, member, own, named ▸ only, row, there, named, legal, ?_⟩
    have terminal : action.target.terminal = true := by cases action <;> rfl
    exact List.any_eq_true.mpr ⟨row, there, by simp [only, terminal]⟩
  · intro e ended
    have returned := reaches_returned wf_empty reached here ended
    rw [called] at returned
    rcases returned with struck | ⟨seen, shown, still, refused⟩
    · exact Or.inl struck
    · refine Or.inr ⟨fun writes committed => ?_, ?_⟩
      · rw [shown] at committed
        rcases List.mem_append.mp committed with before | last
        · obtain ⟨s, answer, same⟩ := still _ before
          cases same
        · simp at last
      · have kept : seen ⊆ th.trace := shown ▸ List.subset_append_left ..
        rcases refused with ⟨none, -⟩ | ⟨missing, rfl⟩ | ⟨exc, ⟨current, read, illegal⟩, answer⟩
        · exact Or.inl (kept none)
        · exact Or.inr (Or.inl (kept missing))
        · exact Or.inr (Or.inr ⟨current, exc, kept read, illegal, (ensureTransition_error illegal).2, answer⟩)

end Triage

/-- In every run, whatever else goes on: entries follow the edges, the entry of an
event is signed off at most once, and triage answers accordingly; what is terminal is
final, and exactly what is terminal has a resolution time. -/
theorem entries_follow_triage (svc : Service) (scope : Scope) {w : World}
    (reached : svc.Reaches scope (.init Db.empty) w) :
    (∀ entry ∈ w.log, FollowsEdges entry) ∧
    (∀ id, (w.log.filter (signsOff id)).length ≤ 1) ∧
    TriageAnswered scope w ∧
    (∀ w', svc.Reaches scope w w' → TerminalIsFinal w w') ∧
    ∀ row ∈ w.db.entries, row.resolvedAt.isSome = row.status.terminal := by
  obtain ⟨-, past⟩ := reaches_history wf_empty reached
  refine ⟨?_, fun id => ?_, triage_answered reached, ?_, ?_⟩
  · intro entry member row after
    obtain ⟨_, _, -, -, good, -, described, -⟩ := past.at member
    exact (described.cases.entryStep good after).edges
  · have since : w.log.Pairwise fun earlier later => signsOff id earlier = true →
        SignedOff id (fun _ => True) later.before := by
      refine (past.since (P := SignedOff id fun _ => True) ?_ ?_ ?_ ?_).1
      · exact fun entry member good committed settling => committed.begins_signedOff good settling
      · exact fun table holds => holds
      · exact fun ids _ holds => holds
      · exact fun entry member good called committed holds => committed.keeps_signedOff good holds
    refine filter_length_le_one (since.imp_of_mem fun {earlier later} _ member settled settling => ?_)
    obtain ⟨_, _, -, -, good, -, described, -⟩ := past.at member
    refine Bool.eq_false_of_not_eq_true fun again => ?_
    obtain ⟨row, there, about, isOpen, -⟩ := described.cases.signsOff_open good again
    rw [((settled settling).unique good there about).1] at isOpen
    cases isOpen
  · intro w' later row member terminal
    obtain ⟨log, -, onward⟩ := reaches_stretch wf_empty reached later
    obtain ⟨good, -⟩ := reaches_history wf_empty (reached.trans later)
    have settled : SignedOff row.eventId (· = row) w'.db := by
      refine onward.keeps (P := SignedOff row.eventId (· = row)) ?_ ?_ ?_ ?_
      · exact Or.inr ⟨row, member, rfl, terminal, rfl⟩
      · exact fun table holds => holds
      · exact fun ids _ holds => holds
      · exact fun entry member good called committed holds => committed.keeps_signedOff good holds
    refine ⟨?_, fun row' there about => (settled.unique good there about).2⟩
    rcases settled with gone | ⟨row', there, -, -, rfl⟩
    · exact Or.inr gone
    · exact Or.inl there
  · let Resolved (db : Db) : Prop := ∀ row ∈ db.entries, row.resolvedAt.isSome = row.status.terminal
    refine past.keeps (P := Resolved) (by simp [Resolved, Db.empty]) ?_ ?_ ?_
    · exact fun table holds => holds
    · exact fun ids _ holds => holds
    · exact fun entry member good called committed holds row after =>
        (committed.entryStep good after).resolved holds

/-- Two operators pick the same entry. The one who locks it first wins; the other waits,
finds it RESOLVED and is refused. -/
theorem entries_follow_triage_sample : ∃ w, Sample.service.Reaches .any (.init Db.empty) w ∧
    w.db.entries.map (·.status) = [.resolved] ∧ (w.log.filter (signsOff 1)).length = 1 ∧
    (∀ entry ∈ w.log, FollowsEdges entry) ∧
    (∀ id, (w.log.filter (signsOff id)).length ≤ 1) ∧
    TriageAnswered .any w ∧
    (∀ w', Sample.service.Reaches .any w w' → TerminalIsFinal w w') ∧
    ∀ row ∈ w.db.entries, row.resolvedAt.isSome = row.status.terminal := by
  let schedule : List Action :=
    Sample.deadLettered ++ .spawn 2 (.triage 1 .resolve (some "done by hand")) ::
    .spawn 3 (.triage 1 .discard none) :: Sample.steps 2 3 ++ Sample.steps 3 2 ++
    Sample.steps 2 3 ++ Sample.steps 3 2
  obtain ⟨w, reached, shown⟩ := Sample.service.reaches_test .any (.init Db.empty) schedule
    (fun w => w.db.entries.map (·.status) = [.resolved] ∧ (w.log.filter (signsOff 1)).length = 1)
    (fun action _ => Scope.any_permits action) (by decide +kernel)
  simp only [decide_eq_true_eq] at shown
  exact ⟨w, reached, shown.1, shown.2, entries_follow_triage Sample.service .any reached⟩

end WebhookReceiver
