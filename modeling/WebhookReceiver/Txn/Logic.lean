import WebhookReceiver.Txn.World

/-!
A program logic for transactions that interleave.

A `Discipline` says which writes a thread's locks entitle it to, and which facts
about the store a statement's answer establishes for as long as the thread keeps
its locks. Because such a fact survives what other threads may write, everything
a transaction has learned is still true at the moment it commits, so one store
serves to reason about the whole transaction: the store it commits on.

- `wp` is the verification condition of a program. `Ctx.db` is the store the
  open transaction will commit on, and every fact learned on the way is a fact
  about that one store.
- `Sound` is the invariant of the world: the store is well formed, and each
  thread's remaining program meets its condition on every store that agrees with
  what the thread has learned. `Sound.step` preserves it.
- `History` is what is left of a run when the threads are forgotten: the
  committed transactions one after the other, each with its description
  (`Discipline.commits`), and the instant writes between them.
  `Verified.history` extracts it from any run.
-/

namespace Txn

variable {Db W Lock Inp Call S Fact : Type} {R : S → Type} {ε α β : Type}

/-- What an answer is worth: the writes it stands for, the locks taken for it
and the facts it establishes. -/
structure Lesson (W Lock Fact : Type) where
  writes : List W := []
  locks : List (Lock × Mode) := []
  facts : List Fact := []

/-- Two threads may hold these locks at the same time. -/
def Compatible (own other : List (Lock × Mode)) : Prop :=
  ∀ lock mode, ((lock, .excl) ∈ own → (lock, mode) ∉ other) ∧
    ((lock, .excl) ∈ other → (lock, mode) ∉ own)

/-- An exclusive lock of one's own is nobody else's. -/
theorem Compatible.excl {own other : List (Lock × Mode)} (apart : Compatible own other) {lock : Lock}
    {mode : Mode} (mine : (lock, .excl) ∈ own) (theirs : (lock, mode) ∈ other) : False :=
  (apart lock mode).1 mine theirs

theorem Compatible.symm {own other : List (Lock × Mode)} (apart : Compatible own other) :
    Compatible other own :=
  fun lock mode => ⟨(apart lock mode).2, (apart lock mode).1⟩

/-- Apply writes in order, each of them licensed where it is applied. -/
def LicensedAll (σ : System Db W Lock Inp Call S R ε α)
    (licensed : List (Lock × Mode) → Db → W → Prop) (locks : List (Lock × Mode)) :
    List W → Db → Prop
  | [], _ => True
  | write :: rest, db => licensed locks db write ∧ LicensedAll σ licensed locks rest (σ.apply write db)

theorem licensedAll_append {σ : System Db W Lock Inp Call S R ε α}
    {licensed : List (Lock × Mode) → Db → W → Prop} {locks : List (Lock × Mode)}
    {first rest : List W} {db : Db} :
    LicensedAll σ licensed locks (first ++ rest) db ↔
      LicensedAll σ licensed locks first db ∧
        LicensedAll σ licensed locks rest (σ.applyAll first db) := by
  induction first generalizing db with
  | nil => simp [LicensedAll]
  | cons write first ih => simp [LicensedAll, ih, and_assoc]

/-- Each of these writes is licensed on some store. -/
theorem LicensedAll.mem {σ : System Db W Lock Inp Call S R ε α}
    {licensed : List (Lock × Mode) → Db → W → Prop} {locks : List (Lock × Mode)} {writes : List W} {db : Db}
    {write : W} (licence : LicensedAll σ licensed locks writes db) (member : write ∈ writes) :
    ∃ db, licensed locks db write := by
  induction writes generalizing db with
  | nil => cases member
  | cons first rest ih =>
    rcases List.mem_cons.mp member with rfl | later
    · exact ⟨db, licence.1⟩
    · exact ih licence.2 later

/-- The rules that the statements, the locks and the programs of a system keep.

`licensed locks db w` lets a thread with these locks apply `w` to `db`;
`guarded locks f` says the locks keep the fact `f` true; `teaches s a l` gives what
the answer `a` to `s` is worth; `obeys` is what the program owes before it may
issue a statement. `calls` and `faults` bound the runs the discipline speaks of,
`commits` and `returns` describe what a transaction commits and what a call
returns. -/
structure Discipline (σ : System Db W Lock Inp Call S R ε α) (Fact : Type) where
  wf : Db → Prop
  licensed : List (Lock × Mode) → Db → W → Prop
  holds : Fact → Db → Prop
  guarded : List (Lock × Mode) → Fact → Prop
  teaches : (s : S) → R s → Lesson W Lock Fact → Prop
  obeys : List (Lock × Mode) → Db → S → Prop
  raises : S → ε → Prop
  calls : Call → Prop
  faults : ε → Prop
  commits : Call → List (Ev W S R ε) → Db → List W → Prop
  returns : Call → Except ε α → List (Ev W S R ε) → Prop
  licensed_mono : ∀ {locks more db w}, licensed locks db w → licensed (locks ++ more) db w
  guarded_mono : ∀ {locks more f}, guarded locks f → guarded (locks ++ more) f
  wf_apply : ∀ {locks db w}, wf db → licensed locks db w → wf (σ.apply w db)
  /-- What another thread may write leaves a guarded fact true, also under the
  writes that wait. -/
  stable : ∀ {own other db w f} (writes : List W), wf db → Compatible own other →
    licensed other db w → guarded own f → holds f (σ.applyAll writes db) →
    holds f (σ.applyAll writes (σ.apply w db))
  exec_instant : ∀ {avail inp view s reply} {locks : List (Lock × Mode)}, wf view →
    obeys locks view s → σ.exec avail inp view s = some reply →
    ∀ db, LicensedAll σ licensed [] reply.instant db
  exec_error : ∀ {avail inp view s reply e} {locks : List (Lock × Mode)}, wf view →
    obeys locks view s → σ.exec avail inp view s = some reply → reply.answer = .error e →
    reply.writes = [] ∧ raises s e
  exec_teaches : ∀ {avail inp s reply a} {locks : List (Lock × Mode)} {writes : List W} {db : Db},
    wf db → wf (σ.applyAll writes db) → obeys locks (σ.applyAll writes db) s →
    σ.exec avail inp (σ.applyAll writes db) s = some reply → reply.answer = .ok a →
    ∃ facts, teaches s a ⟨reply.writes, reply.locks, facts⟩ ∧
      ∀ f ∈ facts, guarded (locks ++ reply.locks) f →
        holds f (σ.applyAll writes (σ.applyAll reply.instant db))
  /-- The writes of a statement are licensed by the locks it took and the facts
  it established. -/
  teaches_licensed : ∀ {s a lesson view} {locks : List (Lock × Mode)}, wf view → teaches s a lesson →
    obeys locks view s →
    (∀ f ∈ lesson.facts, guarded (locks ++ lesson.locks) f → holds f view) →
    LicensedAll σ licensed (locks ++ lesson.locks) lesson.writes view

/-- Where a program stands in its current transaction. -/
structure Ctx (Db W Lock S : Type) (R : S → Type) (ε : Type) where
  /-- The store the transaction commits on. -/
  db : Db
  writes : List W := []
  locks : List (Lock × Mode) := []
  trace : List (Ev W S R ε) := []

namespace Discipline

variable {σ : System Db W Lock Inp Call S R ε α} (D : Discipline σ Fact)

/-- The actions the discipline speaks of. -/
def Permits : Action Inp Call ε → Prop
  | .spawn _ call => D.calls call
  | .fault _ e => D.faults e
  | .lost _ e => D.faults e
  | .run _ _ => True
  | .kill _ => True

/-- The outcomes of a `commit` or a `rollback`. -/
def Ends (answer : Except ε Unit) : Prop :=
  answer = .ok () ∨ ∃ e, D.faults e ∧ answer = .error e

/-- The verification condition of a program. -/
def wp (call : Call) : Prog S R ε β → Ctx Db W Lock S R ε →
    (Except ε β → Ctx Db W Lock S R ε → Prop) → Prop
  | .done result, c, Q => Q result c
  | .stmt s next, c, Q =>
    D.obeys c.locks (σ.applyAll c.writes c.db) s ∧
    (∀ e, D.faults e ∨ D.raises s e →
      wp call (next (.error e)) { c with trace := c.trace ++ [.stmt s (.error e)] } Q) ∧
    ∀ a lesson, D.teaches s a lesson →
      (∀ f ∈ lesson.facts, D.guarded (c.locks ++ lesson.locks) f →
        D.holds f (σ.applyAll c.writes c.db)) →
      wp call (next (.ok a))
        ⟨c.db, c.writes ++ lesson.writes, c.locks ++ lesson.locks, c.trace ++ [.stmt s (.ok a)]⟩ Q
  | .commit next, c, Q =>
    D.commits call c.trace c.db c.writes ∧
    (∃ keep : List Fact,
      (∀ f ∈ keep, D.guarded [] f ∧ D.holds f (σ.applyAll c.writes c.db)) ∧
      ∀ answer, D.Ends answer → ∀ db, D.wf db → (∀ f ∈ keep, D.holds f db) →
        wp call (next answer) ⟨db, [], [], c.trace ++ [.committed c.writes]⟩ Q) ∧
    ∀ e, D.faults e → ∀ db, D.wf db →
      wp call (next (.error e)) ⟨db, [], [], c.trace ++ [.rolledBack]⟩ Q
  | .rollback next, c, Q =>
    ∀ answer, D.Ends answer → ∀ db, D.wf db →
      wp call (next answer) ⟨db, [], [], c.trace ++ [.rolledBack]⟩ Q

variable {D} {call : Call}

/-- A weaker postcondition is met as well. -/
theorem wp_mono {prog : Prog S R ε β} {c : Ctx Db W Lock S R ε}
    {Q Q' : Except ε β → Ctx Db W Lock S R ε → Prop} (weaker : ∀ r c, Q r c → Q' r c)
    (met : D.wp call prog c Q) : D.wp call prog c Q' := by
  induction prog generalizing c with
  | done result => exact weaker _ _ met
  | stmt s next ih =>
    obtain ⟨obeyed, failed, answered⟩ := met
    exact ⟨obeyed, fun e raised => ih _ (failed e raised),
      fun a lesson said facts => ih _ (answered a lesson said facts)⟩
  | commit next ih =>
    obtain ⟨described, ⟨keep, kept, ended⟩, failed⟩ := met
    exact ⟨described, ⟨keep, kept, fun answer ends db good facts =>
      ih _ (ended answer ends db good facts)⟩, fun e faulted db good => ih _ (failed e faulted db good)⟩
  | rollback next ih =>
    exact fun answer ends db good => ih _ (met answer ends db good)

/-- A program followed by another: the condition of the first carries the
condition of the second. -/
theorem wp_andThen {γ : Type} {first : Prog S R ε γ} {next : Except ε γ → Prog S R ε β}
    {c : Ctx Db W Lock S R ε} {Q : Except ε β → Ctx Db W Lock S R ε → Prop}
    (met : D.wp call first c fun r c => D.wp call (next r) c Q) :
    D.wp call (first.andThen next) c Q := by
  induction first generalizing c with
  | done result => exact met
  | stmt s rest ih =>
    obtain ⟨obeyed, failed, answered⟩ := met
    exact ⟨obeyed, fun e raised => ih _ (failed e raised),
      fun a lesson said facts => ih _ (answered a lesson said facts)⟩
  | commit rest ih =>
    obtain ⟨described, ⟨keep, kept, ended⟩, failed⟩ := met
    exact ⟨described, ⟨keep, kept, fun answer ends db good facts =>
      ih _ (ended answer ends db good facts)⟩, fun e faulted db good => ih _ (failed e faulted db good)⟩
  | rollback rest ih =>
    exact fun answer ends db good => ih _ (met answer ends db good)

/-- A program forgets nothing it has seen. -/
theorem wp_trace {prog : Prog S R ε β} {c : Ctx Db W Lock S R ε}
    {Q : Except ε β → Ctx Db W Lock S R ε → Prop} (met : D.wp call prog c Q) :
    D.wp call prog c fun r c' => Q r c' ∧ c.trace <+: c'.trace := by
  have longer : ∀ {seen : List (Ev W S R ε)} {ev : Ev W S R ε} {r : Except ε β}
      {c' : Ctx Db W Lock S R ε}, Q r c' ∧ seen ++ [ev] <+: c'.trace → Q r c' ∧ seen <+: c'.trace :=
    fun ⟨holds, kept⟩ => ⟨holds, (List.prefix_append _ _).trans kept⟩
  induction prog generalizing c with
  | done result => exact ⟨met, List.prefix_refl _⟩
  | stmt s next ih =>
    obtain ⟨obeyed, failed, answered⟩ := met
    exact ⟨obeyed, fun e raised => wp_mono (fun _ _ => longer) (ih _ (failed e raised)),
      fun a lesson said facts => wp_mono (fun _ _ => longer) (ih _ (answered a lesson said facts))⟩
  | commit next ih =>
    obtain ⟨described, ⟨keep, kept, ended⟩, failed⟩ := met
    exact ⟨described, ⟨keep, kept, fun answer ends db good facts =>
      wp_mono (fun _ _ => longer) (ih _ (ended answer ends db good facts))⟩,
      fun e faulted db good => wp_mono (fun _ _ => longer) (ih _ (failed e faulted db good))⟩
  | rollback next ih =>
    exact fun answer ends db good => wp_mono (fun _ _ => longer) (ih _ (met answer ends db good))

/-! ## Facts under other threads' writes -/

theorem wf_applyAll {locks : List (Lock × Mode)} {writes : List W} {db : Db} (good : D.wf db)
    (licence : LicensedAll σ D.licensed locks writes db) : D.wf (σ.applyAll writes db) := by
  induction writes generalizing db with
  | nil => exact good
  | cons write rest ih => exact ih (D.wf_apply good licence.1) licence.2

theorem licensedAll_mono {locks more : List (Lock × Mode)} {writes : List W} {db : Db}
    (licence : LicensedAll σ D.licensed locks writes db) :
    LicensedAll σ D.licensed (locks ++ more) writes db := by
  induction writes generalizing db with
  | nil => trivial
  | cons write rest ih => exact ⟨D.licensed_mono licence.1, ih licence.2⟩

theorem stable_all {own other : List (Lock × Mode)} {writes foreign : List W} {db : Db} {f : Fact}
    (good : D.wf db) (apart : Compatible own other)
    (licence : LicensedAll σ D.licensed other foreign db) (guard : D.guarded own f)
    (known : D.holds f (σ.applyAll writes db)) :
    D.holds f (σ.applyAll writes (σ.applyAll foreign db)) := by
  induction foreign generalizing db with
  | nil => exact known
  | cons write rest ih =>
    exact ih (D.wf_apply good licence.1) licence.2
      (D.stable writes good apart licence.1 guard known)

theorem compatible_nil (own : List (Lock × Mode)) : Compatible own [] := by
  intro lock mode
  simp

variable (D)

/-! ## The invariant of the world -/

/-- What a thread has learned, each fact under the writes that waited then. -/
abbrev Known (W Fact : Type) := List W → Fact → Prop

/-- A store on which everything learned holds. -/
def Agrees (known : Known W Fact) (db : Db) : Prop :=
  ∀ writes f, known writes f → D.holds f (σ.applyAll writes db)

/-- A thread is on course: it holds the locks that guard what it has learned,
all of it is true now, and on any store where it is true the waiting writes are
licensed and the rest of the program meets its condition. -/
structure OnCourse (held : LockTable Lock) (db : Db) (t : Tid) (th : Thread W Call S R ε α)
    (locks : List (Lock × Mode)) (known : Known W Fact) : Prop where
  owned : ∀ lock mode, (lock, mode) ∈ locks → (t, mode) ∈ held lock
  guard : ∀ writes f, known writes f → D.guarded locks f
  agrees : D.Agrees known db
  licence : ∀ db, D.wf db → D.Agrees known db → LicensedAll σ D.licensed locks th.writes db
  condition : ∀ db, D.wf db → D.Agrees known db →
    D.wp th.call th.prog ⟨db, th.writes, locks, th.trace⟩ fun r c => D.returns th.call r c.trace

/-- The committed transactions of a run, one after the other, and the instant
writes between them. -/
inductive History (start : Db) : Db → List (Entry Db W Call S R ε) → Prop where
  | start : History start start []
  | instant {db : Db} {log : List (Entry Db W Call S R ε)} {write : W} :
      History start db log → D.wf db → D.licensed [] db write →
      History start (σ.apply write db) log
  | commit {log : List (Entry Db W Call S R ε)} (entry : Entry Db W Call S R ε)
      {locks : List (Lock × Mode)} :
      History start entry.before log → D.wf entry.before →
      LicensedAll σ D.licensed locks entry.writes entry.before → D.calls entry.call →
      D.commits entry.call entry.trace entry.before entry.writes →
      History start (σ.applyAll entry.writes entry.before) (log ++ [entry])

variable {D} in
theorem History.trans {first middle last : Db} {log more : List (Entry Db W Call S R ε)}
    (before : D.History first middle log) (after : D.History middle last more) :
    D.History first last (log ++ more) := by
  induction after with
  | start => simpa using before
  | instant _ good licence ih => exact ih.instant good licence
  | commit entry _ good licence called described ih =>
    rw [← List.append_assoc]
    exact ih.commit entry good licence called described

variable {D} in
theorem History.instants {start db : Db} {log : List (Entry Db W Call S R ε)} {writes : List W}
    (past : D.History start db log) (good : D.wf db)
    (licence : LicensedAll σ D.licensed [] writes db) :
    D.History start (σ.applyAll writes db) log := by
  induction writes generalizing db with
  | nil => exact past
  | cons write rest ih =>
    exact ih (past.instant good licence.1) (D.wf_apply good licence.1) licence.2

/-- The invariant: a well formed store, exclusive locks, every thread on course,
and a history that leads from `start` to the store through the transactions that
`before` does not list. -/
structure Sound (start : Db) (before : List (Entry Db W Call S R ε))
    (w : World Db W Lock Call S R ε α) : Prop where
  wf : D.wf w.db
  exclusive : w.held.Exclusive
  called : ∀ t th, w.threads t = some th → D.calls th.call
  course : ∀ t th, w.threads t = some th → ∃ locks known, D.OnCourse w.held w.db t th locks known
  history : ∃ log, w.log = before ++ log ∧ D.History start w.db log

/-- Every call the discipline speaks of meets its condition. -/
def Verified : Prop :=
  ∀ call, D.calls call → ∀ db, D.wf db →
    D.wp call (σ.program call) ⟨db, [], [], []⟩ fun r c => D.returns call r c.trace

variable {D}

/-- Other threads' writes and locks leave a thread on course. -/
private theorem OnCourse.foreign {held held' : LockTable Lock} {db : Db} {t : Tid}
    {th : Thread W Call S R ε α} {locks other : List (Lock × Mode)} {known : Known W Fact}
    {foreign : List W} (on : D.OnCourse held db t th locks known) (good : D.wf db)
    (apart : Compatible locks other) (licence : LicensedAll σ D.licensed other foreign db)
    (kept : ∀ lock mode, (t, mode) ∈ held lock → (t, mode) ∈ held' lock) :
    D.OnCourse held' (σ.applyAll foreign db) t th locks known where
  owned := fun lock mode member => kept lock mode (on.owned lock mode member)
  guard := on.guard
  agrees := fun writes f learned =>
    stable_all good apart licence (on.guard writes f learned) (on.agrees writes f learned)
  licence := on.licence
  condition := on.condition

/-- The locks of two threads never conflict. -/
private theorem compatible_of_exclusive {held : LockTable Lock} {t u : Tid}
    {own other : List (Lock × Mode)} (alone : held.Exclusive) (differ : u ≠ t)
    (mine : ∀ lock mode, (lock, mode) ∈ own → (u, mode) ∈ held lock)
    (theirs : ∀ lock mode, (lock, mode) ∈ other → (t, mode) ∈ held lock) :
    Compatible own other := by
  intro lock mode
  constructor
  · intro excl member
    exact differ (alone lock u t mode (mine _ _ excl) (theirs _ _ member)).symm
  · intro excl member
    exact differ (alone lock t u mode (theirs _ _ excl) (mine _ _ member))

/-- A thread at the start of a transaction, with nothing learned but `keep`. -/
private theorem OnCourse.fresh {held : LockTable Lock} {db : Db} {t : Tid}
    {th : Thread W Call S R ε α} (keep : List Fact) (idle : th.writes = [])
    (kept : ∀ f ∈ keep, D.guarded [] f ∧ D.holds f db)
    (met : ∀ db, D.wf db → (∀ f ∈ keep, D.holds f db) →
      D.wp th.call th.prog ⟨db, [], [], th.trace⟩ fun r c => D.returns th.call r c.trace) :
    D.OnCourse held db t th [] fun writes f => writes = [] ∧ f ∈ keep where
  owned := by simp
  guard := fun writes f learned => (kept f learned.2).1
  agrees := by
    rintro writes f ⟨rfl, member⟩
    exact (kept f member).2
  licence := by
    intro db good agrees
    rw [idle]
    trivial
  condition := by
    intro db good agrees
    rw [idle]
    exact met db good fun f member => agrees [] f ⟨rfl, member⟩

section Step

variable {start : Db} {before : List (Entry Db W Call S R ε)}
  {w w' : World Db W Lock Call S R ε α} {t : Tid} {th : Thread W Call S R ε α}

/-- The other threads stay on course when thread `t` is replaced and writes
what its locks license. -/
private theorem Sound.others (sound : D.Sound start before w) {held' : LockTable Lock}
    {locks : List (Lock × Mode)} {foreign : List W} {thread : Option (Thread W Call S R ε α)}
    (owned : ∀ lock mode, (lock, mode) ∈ locks → (t, mode) ∈ w.held lock)
    (licence : LicensedAll σ D.licensed locks foreign w.db)
    (kept : ∀ u lock mode, u ≠ t → (u, mode) ∈ w.held lock → (u, mode) ∈ held' lock)
    {u : Tid} {other : Thread W Call S R ε α} (differ : u ≠ t)
    (member : Function.update w.threads t thread u = some other) :
    D.calls other.call ∧
      ∃ locks known, D.OnCourse held' (σ.applyAll foreign w.db) u other locks known := by
  rw [Function.update_of_ne differ] at member
  obtain ⟨own, known, on⟩ := sound.course u other member
  have apart : Compatible own locks := compatible_of_exclusive sound.exclusive differ on.owned owned
  exact ⟨sound.called u other member, own, known,
    on.foreign sound.wf apart licence fun lock mode => kept u lock mode differ⟩

/-- One thread moves: it is on course again and the others still are. -/
private theorem Sound.moved (sound : D.Sound start before w) (t : Tid) {held' : LockTable Lock}
    (locks : List (Lock × Mode)) (foreign : List W) {thread : Option (Thread W Call S R ε α)}
    {log : List (Entry Db W Call S R ε)}
    (owned : ∀ lock mode, (lock, mode) ∈ locks → (t, mode) ∈ w.held lock)
    (licence : LicensedAll σ D.licensed locks foreign w.db)
    (kept : ∀ u lock mode, u ≠ t → (u, mode) ∈ w.held lock → (u, mode) ∈ held' lock)
    (alone : held'.Exclusive)
    (moved : ∀ th, thread = some th → D.calls th.call ∧
      ∃ locks known, D.OnCourse held' (σ.applyAll foreign w.db) t th locks known)
    (past : ∃ more, log = before ++ more ∧ D.History start (σ.applyAll foreign w.db) more) :
    D.Sound start before
      ⟨σ.applyAll foreign w.db, held', Function.update w.threads t thread, log⟩ where
  wf := wf_applyAll sound.wf licence
  exclusive := alone
  called := by
    intro u other member
    by_cases same : u = t
    · subst same
      exact (moved other (by simpa using member)).1
    · exact (sound.others owned licence kept same member).1
  course := by
    intro u other member
    by_cases same : u = t
    · subst same
      exact (moved other (by simpa using member)).2
    · exact (sound.others owned licence kept same member).2
  history := past

theorem keeps_release {u : Tid} {lock : Lock} {mode : Mode} (differ : u ≠ t)
    (held : (u, mode) ∈ w.held lock) : (u, mode) ∈ w.held.release t lock :=
  LockTable.mem_release.mpr ⟨held, differ⟩

/-- A transaction that ends without effect. -/
private theorem Sound.abandon (sound : D.Sound start before w) (here : w.threads t = some th)
    {prog : Prog S R ε α}
    (met : ∀ db, D.wf db → D.wp th.call prog ⟨db, [], [], th.trace ++ [.rolledBack]⟩
      fun r c => D.returns th.call r c.trace) :
    D.Sound start before (w.abandon t th prog) := by
  refine sound.moved t [] [] (by simp) trivial
    (fun u lock mode differ => keeps_release differ) sound.exclusive.release ?_ sound.history
  rintro _ ⟨⟩
  exact ⟨sound.called t th here, [], _, OnCourse.fresh [] rfl (by simp)
    fun db good _ => met db good⟩

/-- A transaction that commits. -/
private theorem Sound.conclude (sound : D.Sound start before w) (here : w.threads t = some th)
    {locks : List (Lock × Mode)} {known : Known W Fact}
    (on : D.OnCourse w.held w.db t th locks known)
    (described : D.commits th.call th.trace w.db th.writes) {keep : List Fact} {prog : Prog S R ε α}
    (kept : ∀ f ∈ keep, D.guarded [] f ∧ D.holds f (σ.applyAll th.writes w.db))
    (met : ∀ db, D.wf db → (∀ f ∈ keep, D.holds f db) →
      D.wp th.call prog ⟨db, [], [], th.trace ++ [.committed th.writes]⟩
        fun r c => D.returns th.call r c.trace) :
    D.Sound start before (w.conclude σ t th prog) := by
  have licence := on.licence w.db sound.wf on.agrees
  refine sound.moved t locks th.writes on.owned licence
    (fun u lock mode differ => keeps_release differ) sound.exclusive.release ?_ ?_
  · rintro _ ⟨⟩
    exact ⟨sound.called t th here, [], _, OnCourse.fresh keep rfl kept met⟩
  · obtain ⟨log, same, past⟩ := sound.history
    refine ⟨log ++ [⟨t, th.call, th.trace, w.db, th.writes⟩], ?_, ?_⟩
    · simp [same]
    · exact History.commit ⟨t, th.call, th.trace, w.db, th.writes⟩ past sound.wf licence
        (sound.called t th here) described

/-- A statement that fails before it does anything. -/
private theorem Sound.refuse (sound : D.Sound start before w) (here : w.threads t = some th)
    {s : S} {next : Except ε (R s) → Prog S R ε α} (shape : th.prog = .stmt s next) {e : ε}
    (faulted : D.faults e) : D.Sound start before (w.refuse t th s next e) := by
  obtain ⟨locks, known, on⟩ := sound.course t th here
  refine sound.moved t [] [] (by simp) trivial
    (fun u lock mode _ member => member) sound.exclusive ?_ sound.history
  rintro _ ⟨⟩
  refine ⟨sound.called t th here, locks, known, on.owned, on.guard, on.agrees, on.licence, ?_⟩
  intro db good agrees
  have condition := on.condition db good agrees
  rw [shape] at condition
  exact condition.2.1 e (Or.inl faulted)

/-- A thread whose next step is the end of its transaction, and how it ends. -/
private theorem Sound.ended (sound : D.Sound start before w) (here : w.threads t = some th)
    {next : Except ε Unit → Prog S R ε α} (shape : th.prog = .commit next)
    {answer : Except ε Unit} (ends : D.Ends answer) :
    D.Sound start before (w.conclude σ t th (next answer)) := by
  obtain ⟨locks, known, on⟩ := sound.course t th here
  have condition := on.condition w.db sound.wf on.agrees
  rw [shape] at condition
  obtain ⟨described, ⟨keep, kept, after⟩, -⟩ := condition
  exact sound.conclude here on described kept (after answer ends)

/-- The invariant speaks of a later stretch of the run as well. -/
theorem Sound.restart (sound : D.Sound start before w) : D.Sound w.db w.log w :=
  { sound with history := ⟨[], by simp, .start⟩ }

theorem sound_init {db : Db} (good : D.wf db) :
    D.Sound db [] (World.init db : World Db W Lock Call S R ε α) where
  wf := good
  exclusive := LockTable.exclusive_none
  called := by simp [World.init]
  course := by simp [World.init]
  history := ⟨[], rfl, .start⟩

variable [DecidableEq Lock]

/-- A statement that is carried out. -/
private theorem Sound.answer (sound : D.Sound start before w) (here : w.threads t = some th)
    {s : S} {next : Except ε (R s) → Prog S R ε α} (shape : th.prog = .stmt s next) {inp : Inp}
    {reply : Reply W Lock ε (R s)}
    (ran : σ.exec (w.held.available t) inp (σ.applyAll th.writes w.db) s = some reply)
    (free : ∀ wanted ∈ reply.locks, w.held.available t wanted.1 wanted.2 = true) :
    D.Sound start before (w.answer σ t th s next reply) := by
  obtain ⟨locks, known, on⟩ := sound.course t th here
  have pending := on.licence w.db sound.wf on.agrees
  have now := on.condition w.db sound.wf on.agrees
  rw [shape] at now
  have view : D.wf (σ.applyAll th.writes w.db) := wf_applyAll sound.wf pending
  have instants := D.exec_instant view now.1 ran w.db
  have still : D.Agrees known (σ.applyAll reply.instant w.db) := fun writes f learned =>
    stable_all sound.wf (compatible_nil locks) instants (on.guard writes f learned)
      (on.agrees writes f learned)
  have owned : ∀ lock mode, (lock, mode) ∈ locks ++ reply.locks →
      (t, mode) ∈ w.held.grant t reply.locks lock := by
    intro lock mode member
    rw [LockTable.mem_grant]
    rcases List.mem_append.mp member with old | new
    · exact Or.inr (on.owned lock mode old)
    · exact Or.inl ⟨rfl, new⟩
  refine sound.moved t [] reply.instant (by simp) instants
    (fun u lock mode _ member => LockTable.mem_grant.mpr (Or.inr member))
    (sound.exclusive.grant free) ?_ ?_
  · rintro _ ⟨⟩
    refine ⟨sound.called t th here, ?_⟩
    cases answered : reply.answer with
    | error e =>
      obtain ⟨silent, raised⟩ := D.exec_error view now.1 ran answered
      refine ⟨locks, known, fun lock mode member => owned lock mode (List.mem_append_left _ member),
        on.guard, still, ?_, ?_⟩
      · simpa [silent] using on.licence
      · intro db good agrees
        have condition := on.condition db good agrees
        rw [shape] at condition
        simpa [silent] using condition.2.1 e (Or.inr raised)
    | ok a =>
      obtain ⟨facts, said, established⟩ := D.exec_teaches sound.wf view now.1 ran answered
      -- from here on the thread also knows what this answer established
      let known' : Known W Fact := fun writes f => known writes f ∨
        (writes = th.writes ∧ f ∈ facts ∧ D.guarded (locks ++ reply.locks) f)
      have older : ∀ db, D.Agrees known' db → D.Agrees known db :=
        fun db agrees writes f learned => agrees writes f (Or.inl learned)
      have newer : ∀ db, D.Agrees known' db → ∀ f ∈ facts,
          D.guarded (locks ++ reply.locks) f → D.holds f (σ.applyAll th.writes db) :=
        fun db agrees f member guard => agrees th.writes f (Or.inr ⟨rfl, member, guard⟩)
      refine ⟨locks ++ reply.locks, known', owned, ?_, ?_, ?_, ?_⟩
      · rintro writes f (old | ⟨-, -, guard⟩)
        · exact D.guarded_mono (on.guard writes f old)
        · exact guard
      · rintro writes f (old | ⟨rfl, member, guard⟩)
        · exact still writes f old
        · exact established f member guard
      · intro db good agrees
        have first := on.licence db good (older db agrees)
        have obeyed := on.condition db good (older db agrees)
        rw [shape] at obeyed
        exact licensedAll_append.mpr ⟨licensedAll_mono first,
          D.teaches_licensed (wf_applyAll good first) said obeyed.1 (newer db agrees)⟩
      · intro db good agrees
        have condition := on.condition db good (older db agrees)
        rw [shape] at condition
        exact condition.2.2 a _ said (newer db agrees)
  · obtain ⟨log, same, past⟩ := sound.history
    exact ⟨log, same, past.instants sound.wf instants⟩

theorem Sound.step (verified : D.Verified) (sound : D.Sound start before w)
    {action : Action Inp Call ε} (permitted : D.Permits action)
    (stepped : step σ w action = some w') : D.Sound start before w' := by
  cases step_cases stepped with
  | @spawned t call =>
    refine sound.moved t [] [] (by simp) trivial
      (fun u lock mode _ member => member) sound.exclusive ?_ sound.history
    rintro _ ⟨⟩
    exact ⟨permitted, [], _, OnCourse.fresh [] rfl (by simp)
      fun db good _ => verified call permitted db good⟩
  | answered here shape ran free => exact sound.answer here shape ran free
  | refused here shape => exact sound.refuse here shape permitted
  | concluded here shape how =>
    refine sound.ended here shape ?_
    rcases how with ⟨-, rfl⟩ | ⟨e, rfl, rfl⟩
    · exact Or.inl rfl
    · exact Or.inr ⟨e, permitted, rfl⟩
  | @rolledBack action t th next told here shape how =>
    obtain ⟨locks, known, on⟩ := sound.course t th here
    have condition := on.condition w.db sound.wf on.agrees
    rw [shape] at condition
    refine sound.abandon here (condition _ ?_)
    rcases how with ⟨-, rfl⟩ | ⟨e, rfl, rfl⟩
    · exact Or.inl rfl
    · exact Or.inr ⟨e, permitted, rfl⟩
  | @uncommitted t e th next here shape =>
    obtain ⟨locks, known, on⟩ := sound.course t th here
    have condition := on.condition w.db sound.wf on.agrees
    rw [shape] at condition
    exact sound.abandon here (condition.2.2 e permitted)
  | @killed t =>
    exact sound.moved t [] [] (by simp) trivial
      (fun u lock mode differ => keeps_release differ) sound.exclusive.release (by simp)
      sound.history

/-- The invariant over a whole run. -/
theorem Sound.reach (verified : D.Verified) (sound : D.Sound start before w)
    (reached : Reach σ (fun _ action => D.Permits action) w w') : D.Sound start before w' := by
  induction reached with
  | start => exact sound
  | next _ permitted stepped ih => exact ih.step verified permitted stepped

/-- A run is a history of committed transactions. -/
theorem Verified.history (verified : D.Verified) {db : Db} (good : D.wf db)
    (reached : Reach σ (fun _ action => D.Permits action) (World.init db) w) :
    D.wf w.db ∧ D.History db w.db w.log := by
  have sound := (sound_init (D := D) good).reach verified reached
  obtain ⟨log, same, past⟩ := sound.history
  rw [List.nil_append] at same
  exact ⟨sound.wf, same ▸ past⟩

/-- So is every later stretch of a run. -/
theorem Verified.stretch (verified : D.Verified) {db : Db} (good : D.wf db)
    (reached : Reach σ (fun _ action => D.Permits action) (World.init db) w)
    (later : Reach σ (fun _ action => D.Permits action) w w') :
    ∃ log, w'.log = w.log ++ log ∧ D.History w.db w'.db log :=
  (((sound_init (D := D) good).reach verified reached).restart.reach verified later).history

/-- A thread owes its next statement nothing any more, on the store as it is now. -/
theorem Verified.obeyed (verified : D.Verified) {db : Db} (good : D.wf db)
    (reached : Reach σ (fun _ action => D.Permits action) (World.init db) w)
    (here : w.threads t = some th) {s : S} {next : Except ε (R s) → Prog S R ε α}
    (shape : th.prog = .stmt s next) :
    D.wf (σ.applyAll th.writes w.db) ∧ ∃ locks, D.obeys locks (σ.applyAll th.writes w.db) s := by
  have sound := (sound_init (D := D) good).reach verified reached
  obtain ⟨locks, known, on⟩ := sound.course t th here
  have condition := on.condition w.db sound.wf on.agrees
  rw [shape] at condition
  exact ⟨wf_applyAll sound.wf (on.licence w.db sound.wf on.agrees), locks, condition.1⟩

/-- What waits in a thread is licensed by locks that it holds. -/
theorem Verified.holding (verified : D.Verified) {db : Db} (good : D.wf db)
    (reached : Reach σ (fun _ action => D.Permits action) (World.init db) w)
    (here : w.threads t = some th) :
    ∃ locks, (∀ lock mode, (lock, mode) ∈ locks → (t, mode) ∈ w.held lock) ∧
      LicensedAll σ D.licensed locks th.writes w.db := by
  have sound := (sound_init (D := D) good).reach verified reached
  obtain ⟨locks, known, on⟩ := sound.course t th here
  exact ⟨locks, on.owned, on.licence w.db sound.wf on.agrees⟩

theorem Verified.exclusive (verified : D.Verified) {db : Db} (good : D.wf db)
    (reached : Reach σ (fun _ action => D.Permits action) (World.init db) w) : w.held.Exclusive :=
  ((sound_init (D := D) good).reach verified reached).exclusive

/-- What a call returned, it returned by its description. -/
theorem Verified.returned (verified : D.Verified) {db : Db} (good : D.wf db)
    (reached : Reach σ (fun _ action => D.Permits action) (World.init db) w)
    (here : w.threads t = some th) {result : Except ε α} (ended : th.prog = .done result) :
    D.returns th.call result th.trace := by
  obtain ⟨locks, known, on⟩ := ((sound_init (D := D) good).reach verified reached).course t th here
  have condition := on.condition w.db
    ((sound_init (D := D) good).reach verified reached).wf on.agrees
  rw [ended] at condition
  exact condition

end Step

end Discipline

end Txn
