import WebhookReceiver.Deduplication

/-!
What becomes of an authenticated delivery.

The wire format accepts more than the table takes: any non-negative sequence, any text,
instants before the year 1 and after 9999, and whatever `json.loads` makes of a body.
`deliveries_answered_iff` says which
authenticated deliveries are answered as they should be, with 200 and one row or with
400 and nothing done. All others raise, and the provider sends them again
(`sequence_beyond_bigint`).
-/

namespace WebhookReceiver

/-- The request passes the three checks before its body is looked at, at the time that
the call has read. -/
def Service.authenticates (svc : Service) (request : Request) (trace : Trace) : Prop :=
  request.rawBody.length ≤ svc.settings.maxPayloadBytes ∧
    ∃ secret now, svc.settings.secretForSource request.source = some secret ∧
      trace.clock = some now ∧
      Signature.verifySignature svc.hmac secret request.rawBody
        (request.headers.get? Signature.header) now
        svc.settings.signatureTimestampToleranceSeconds = .ok ()

/-- The limits of the table, for what the wire format lets through. -/
structure WithinLimits (request : Request) (routed : WebhookEnvelope × String) : Prop where
  sequence : ∀ n ∈ routed.1.sequence, n < 2 ^ 63
  text : ∀ s ∈ [request.source, routed.2, routed.1.id, routed.1.type, routed.1.entity.type,
    routed.1.entity.id], isText s = true
  occurred : datetimeMin ≤ routed.1.occurredAt ∧ routed.1.occurredAt ≤ datetimeMax
  payload : storableFields routed.1.data = true
  headers : storableFields (Schemas.redactHeaders request.headers) = true

/-- The body is refused as malformed, or it is within the limits of the table. -/
def Service.takes (svc : Service) (request : Request) : Prop :=
  (∀ exc, svc.route request = .error exc → exc.kind = .malformedPayload) ∧
    ∀ routed, svc.route request = .ok routed → WithinLimits request routed

/-- The request is answered 200 and its key has one row, or 400 and the store has been
asked nothing but the time. -/
def Accepted (svc : Service) (w : World) (request : Request)
    (th : Txn.Thread Write Call Stmt Stmt.Answer Exc Outcome) : Prop :=
  (∃ result routed row, th.prog = .done (.ok (.answered (.accepted result))) ∧
    svc.route request = .ok routed ∧ w.db.rowsOf request.source routed.2 = [row] ∧
    row.id = result.eventId) ∨
  ∃ detail now, th.prog = .done (.ok (.answered (.badRequest detail))) ∧ Trace.asked th.trace now

theorem storable_iff {request : Request} {routed : WebhookEnvelope × String} :
    (request.event routed).storable = true ↔ WithinLimits request routed := by
  have range : routed.1.sequence.all isBigint = true ↔ ∀ n ∈ routed.1.sequence, n < 2 ^ 63 := by
    rw [Option.all_eq_true]
    refine forall₂_congr fun n given => ?_
    have positive := routed.1.sequence_bound n given
    simp only [isBigint, Bool.and_eq_true, decide_eq_true_eq]
    omega
  constructor
  · intro fits
    simp only [Request.event, Schemas.toIncomingEvent, IncomingEvent.storable, Bool.and_eq_true] at fits
    obtain ⟨⟨⟨⟨⟨⟨⟨⟨⟨source, id⟩, key⟩, type⟩, entityType⟩, entityId⟩, payload⟩, headers⟩, sequence⟩,
      occurred⟩ := fits
    exact ⟨range.mp sequence, by simp [source, key, id, type, entityType, entityId],
      of_decide_eq_true occurred, payload, headers⟩
  · rintro ⟨sequence, text, occurred, payload, headers⟩
    simp only [List.forall_mem_cons] at text
    obtain ⟨source, key, id, type, entityType, entityId, -⟩ := text
    simp [Request.event, Schemas.toIncomingEvent, IncomingEvent.storable, source, key, id, type,
      entityType, entityId, payload, headers, range.mpr sequence, occurred.1, occurred.2]

/-- The row that an accepted delivery names is the one row of its key. -/
theorem accepted_row {svc : Service} {faults : Exc → Prop} {w : World}
    (reached : svc.Reaches (.delivering faults) (.init Db.empty) w) {t : Nat}
    {th : Txn.Thread Write Call Stmt Stmt.Answer Exc Outcome} (here : w.threads t = some th)
    {request : Request} (called : th.call = .deliver request) {result : IngestResult}
    (ended : th.prog = .done (.ok (.answered (.accepted result)))) {routed : WebhookEnvelope × String}
    (known : svc.route request = .ok routed) :
    ∃ row, w.db.rowsOf request.source routed.2 = [row] ∧ row.id = result.eventId := by
  obtain ⟨good, past⟩ := reaches_history wf_empty reached
  have logged : ∃ entry ∈ w.log, entry.call = th.call ∧ Trace.ingestAnswer entry.trace = some result :=
    returned_logged wf_empty reached here ended (by rw [called]; rfl)
  obtain ⟨entry, member, same, answered⟩ := logged
  have carried : entry.call.carries svc request.source routed.2 = true := by
    rw [same, called]
    exact carries_iff.mpr ⟨request.event routed, ⟨routed, known, rfl⟩, rfl, rfl⟩
  have deduplicated : Deduplicated svc request.source routed.2 w.log w.db :=
    past.deduplicated (by simp [Db.empty])
  cases deduplicated with
  | unseen absent nobody =>
    rw [nobody entry member] at carried
    cases carried
  | @seen row there keyed committed answers one =>
    obtain ⟨duplicate, named⟩ := answers entry member carried
    rw [answered, Option.some.injEq] at named
    exact ⟨row, rowsOf_of_mem good there keyed, by rw [named]⟩

/-- While the database can be reached and retention does not run, exactly those
authenticated deliveries are answered as they should be whose body the service takes. -/
theorem deliveries_answered_iff (svc : Service) {w : World}
    (reached : svc.Reaches (.delivering fun _ => False) (.init Db.empty) w) {t : Nat}
    {th : Txn.Thread Write Call Stmt Stmt.Answer Exc Outcome} (here : w.threads t = some th)
    {request : Request} (called : th.call = .deliver request) {result : Except Exc Outcome}
    (ended : th.prog = .done result) (authenticated : svc.authenticates request th.trace) :
    Accepted svc w request th ↔ svc.takes request := by
  have returned := reaches_returned wf_empty reached here ended
  rw [called] at returned
  obtain ⟨short, secret, now, configured, read, signed⟩ := authenticated
  constructor
  · rintro (⟨answer, routed, row, shown, known, -⟩ | ⟨detail, asked, shown, -⟩)
    · rw [shown] at ended
      cases ended
      obtain ⟨-, routed', known', storable⟩ := returned
      rw [known, Except.ok.injEq] at known'
      subst known'
      refine ⟨fun exc refused => ?_, fun other also => ?_⟩
      · rw [known] at refused
        cases refused
      · rw [known, Except.ok.injEq] at also
        exact also ▸ storable_iff.mp storable
    · rw [shown] at ended
      cases ended
      obtain ⟨-, e, refused, malformed⟩ := returned
      refine ⟨fun exc also => ?_, fun routed known => ?_⟩
      · rw [refused, Except.error.injEq] at also
        exact also ▸ malformed
      · rw [refused] at known
        cases known
  · rintro ⟨malformed, within⟩
    -- what the signature check saw is what authenticates the request
    have accepts : ∀ e, ¬ svc.refuses request th.trace e := by
      rintro e ⟨secret', now', configured', asked, refused⟩
      rw [configured, Option.some.injEq] at configured'
      rw [asked, Trace.clock] at read
      cases read
      rw [← configured', signed] at refused
      cases refused
    cases result with
    | error e =>
      rcases returned with fault | purging | ⟨routed, known, unstorable⟩ | ⟨refused, other⟩ | refused
      · exact fault.elim
      · exact absurd purging delivering_purging
      · rw [storable_iff.mpr (within routed known)] at unstorable
        cases unstorable
      · exact absurd (malformed e refused) other
      · exact absurd refused (accepts e)
    | ok outcome =>
      cases outcome with
      | answered response =>
        cases response with
        | payloadTooLarge => exact absurd (Nat.lt_of_lt_of_le returned short) (Nat.lt_irrefl _)
        | unauthorized =>
          rcases returned with none | ⟨e, refused⟩
          · rw [none] at configured
            cases configured
          · exact absurd refused (accepts e)
        | badRequest detail =>
          obtain ⟨⟨asked, only⟩, -⟩ := returned
          exact Or.inr ⟨detail, asked, ended, only⟩
        | accepted answer =>
          obtain ⟨-, routed, known, -⟩ := returned
          obtain ⟨row, one, named⟩ := accepted_row reached here called ended known
          exact Or.inl ⟨answer, routed, row, ended, known, one, named⟩
      | _ => exact returned.elim

/-! ## A signed delivery -/

deriving instance DecidableEq for Request

namespace Sample

/-- A credit of account `A` with this sequence, as a provider sends it: the bytes of
`{"id":"evt_1","type":"balance.credited","occurred_at":"1970-01-01T00:00:00Z",`
`"entity":{"type":"account","id":"A"},"data":{"amount":100},"sequence":…}`. -/
def body (sequence : Nat) : Bytes :=
  [123, 34, 105, 100, 34, 58, 34, 101, 118, 116, 95, 49, 34, 44, 34, 116, 121, 112, 101, 34,
    58, 34, 98, 97, 108, 97, 110, 99, 101, 46, 99, 114, 101, 100, 105, 116, 101, 100, 34, 44,
    34, 111, 99, 99, 117, 114, 114, 101, 100, 95, 97, 116, 34, 58, 34, 49, 57, 55, 48, 45, 48,
    49, 45, 48, 49, 84, 48, 48, 58, 48, 48, 58, 48, 48, 90, 34, 44, 34, 101, 110, 116, 105, 116,
    121, 34, 58, 123, 34, 116, 121, 112, 101, 34, 58, 34, 97, 99, 99, 111, 117, 110, 116, 34,
    44, 34, 105, 100, 34, 58, 34, 65, 34, 125, 44, 34, 100, 97, 116, 97, 34, 58, 123, 34, 97,
    109, 111, 117, 110, 116, 34, 58, 49, 48, 48, 125, 44, 34, 115, 101, 113, 117, 101, 110, 99,
    101, 34, 58] ++
    encodeUtf8 (toString sequence) ++ [125]

def decoded (sequence : Nat) : JsonObject :=
  [("id", .str "evt_1"), ("type", .str "balance.credited"), ("occurred_at", .str "1970-01-01T00:00:00Z"),
    ("entity", .obj [("type", .str "account"), ("id", .str "A")]), ("data", .obj [("amount", .int 100)]),
    ("sequence", .int sequence)]

def envelope (sequence : Nat) : WebhookEnvelope where
  id := "evt_1"
  type := "balance.credited"
  occurredAt := 0
  entity := ⟨"account", "A", by decide, by decide⟩
  data := [("amount", .int 100)]
  sequence := some sequence
  id_bounds := by decide
  type_bounds := by decide
  sequence_bound := by simp

/-- A deployment with one secret. The library code is given on this one body: what
`json.loads` and pydantic make of it, and the HMAC-SHA256 of it with the timestamp 0. -/
def signed (sequence : Nat) (digest : String) : Service where
  registry := Balance.registry
  settings := { Sample.service.settings with webhookSecrets := [("acme", "secret")] }
  advisoryLockKey := fun _ _ => 0
  hmac := fun key message =>
    if key = encodeUtf8 "secret" ∧ message = Signature.signedPayload 0 (body sequence) then digest else ""
  wire := {
    loads := fun rawBody =>
      if rawBody = body sequence then .ok (.obj (decoded sequence))
      else .error ⟨"JSONDecodeError", "Expecting value: line 1 column 1 (char 0)", .other none⟩
    modelValidate := fun _ => .ok (envelope sequence) }

def delivery (sequence : Nat) (digest : String) (headers : Headers) : Request :=
  ⟨"acme", ("X-Webhook-Signature", "t=0,v1=" ++ digest) :: headers, body sequence⟩

def digestOne : String := "e667361f8c757883063ee7dac0601072a080d3a6b2476746529ab54306c2f0a4"
def digestBeyond : String := "a1a0044c82465e40769ed29ac4a8fe6d19d03314a85396495846091c14a6d6c8"

end Sample

def Call.isDelivery (request : Request) : Call → Bool
  | .deliver other => other = request
  | _ => false

theorem isDelivery_iff {request : Request} {call : Call} :
    call.isDelivery request = true ↔ call = .deliver request := by
  cases call <;> simp [Call.isDelivery]

/-- If a program ended with an exception. -/
private def hasRaised : Program Outcome → Bool
  | .done (.error _) => true
  | _ => false

private theorem hasRaised_iff {prog : Program Outcome} :
    hasRaised prog = true ↔ ∃ e, prog = .done (.error e) := by
  cases prog with
  | done result => cases result <;> simp [hasRaised]
  | stmt => simp [hasRaised]
  | commit => simp [hasRaised]
  | rollback => simp [hasRaised]

/-- The delivery of a signed credit, alone, with as many steps as it takes. -/
def Sample.deliver (sequence : Nat) (digest : String) (n : Nat) : List Action :=
  .spawn 0 (.deliver (Sample.delivery sequence digest [])) :: Sample.steps 0 n

theorem Sample.signed_authenticates (sequence : Nat) (digest : String) {trace : Trace}
    (signed : Signature.verifySignature (Sample.signed sequence digest).hmac "secret"
      (Sample.body sequence) (some ("t=0,v1=" ++ digest)) 0 300 = .ok ())
    (short : (Sample.body sequence).length ≤ 1048576) (read : trace.clock = some 0) :
    (Sample.signed sequence digest).authenticates (Sample.delivery sequence digest []) trace :=
  ⟨short, "secret", 0, rfl, read,
    by simpa [Headers.get?, Sample.delivery, Signature.header, Sample.signed, Sample.service] using signed⟩

/-- The signed credit is delivered and answered 200. -/
theorem deliveries_answered_iff_sample : ∃ w th,
    (Sample.signed 1 Sample.digestOne).Reaches (.delivering fun _ => False) (.init Db.empty) w ∧
    w.threads 0 = some th ∧
    Accepted (Sample.signed 1 Sample.digestOne) w (Sample.delivery 1 Sample.digestOne []) th := by
  let svc := Sample.signed 1 Sample.digestOne
  let request := Sample.delivery 1 Sample.digestOne []
  obtain ⟨w, reached, shown⟩ := svc.reaches_test (.delivering fun _ => False) (.init Db.empty)
    (Sample.deliver 1 Sample.digestOne 3)
    (fun w => (w.threads 0).any fun th => th.call.isDelivery request ∧ th.prog.isDone ∧
      Trace.clock th.trace = some 0)
    (by simp [Sample.deliver, Sample.steps, Scope.permits, Scope.delivering, Call.isPurge])
    (by decide +kernel)
  simp only [Option.any_eq_true, decide_eq_true_eq, isDelivery_iff, Txn.Prog.isDone_iff] at shown
  obtain ⟨th, here, called, ⟨result, ended⟩, read⟩ := shown
  have authenticated := Sample.signed_authenticates 1 Sample.digestOne (by decide +kernel)
    (by decide +kernel) read
  have storable : ((svc.route request).toOption.any fun routed => (request.event routed).storable) = true := by
    decide +kernel
  have takes : svc.takes request := by
    constructor
    · intro exc refused
      simp [refused, Except.toOption] at storable
    · intro routed known
      rw [known] at storable
      exact storable_iff.mp storable
  exact ⟨w, th, reached, here,
    (deliveries_answered_iff svc reached here called ended authenticated).mpr takes⟩

/-- A credit with the sequence 2^63 authenticates, is well formed to the wire, and
raises: no row, and an answer that is neither 200 nor 400. -/
theorem sequence_beyond_bigint : ¬ ∀ w t th request result,
    (Sample.signed (2 ^ 63) Sample.digestBeyond).Reaches (.delivering fun _ => False) (.init Db.empty) w →
    w.threads t = some th → th.call = .deliver request → th.prog = .done result →
    (Sample.signed (2 ^ 63) Sample.digestBeyond).authenticates request th.trace →
    Accepted (Sample.signed (2 ^ 63) Sample.digestBeyond) w request th := by
  let svc := Sample.signed (2 ^ 63) Sample.digestBeyond
  let request := Sample.delivery (2 ^ 63) Sample.digestBeyond []
  obtain ⟨w, reached, shown⟩ := svc.reaches_test (.delivering fun _ => False) (.init Db.empty)
    (Sample.deliver (2 ^ 63) Sample.digestBeyond 3)
    (fun w => (w.threads 0).any fun th => th.call.isDelivery request &&
      decide (Trace.clock th.trace = some 0) && hasRaised th.prog)
    (by simp [Sample.deliver, Sample.steps, Scope.permits, Scope.delivering, Call.isPurge])
    (by decide +kernel)
  simp only [Option.any_eq_true, Bool.and_eq_true, decide_eq_true_eq, isDelivery_iff] at shown
  obtain ⟨th, here, ⟨called, read⟩, raised⟩ := shown
  obtain ⟨e, ended⟩ := hasRaised_iff.mp raised
  intro accepted
  have authenticated := Sample.signed_authenticates (2 ^ 63) Sample.digestBeyond (by decide +kernel)
    (by decide +kernel) read
  rcases accepted w 0 th request _ reached here called ended authenticated with
    ⟨_, _, _, other, -⟩ | ⟨_, _, other, -⟩ <;> simp [ended] at other

end WebhookReceiver
