import WebhookReceiver.Runs

/-!
What a rejected caller sees (`api/middleware.py`, `_UNAUTHORIZED` of
`api/webhooks.py`).

The 401 of the ingestion endpoint is one response object, made when the module is
loaded. Sending a response puts the object's own header list into the message, and
the correlation-id middleware appends to the list that it finds there. Every other
answer is an object of its own. So the process keeps one list, and each 401 leaves
its correlation id behind for the next (`unauthorized_after`): the answer depends on
nobody exactly as long as nobody was rejected before (`rejections_alike_iff`).
-/

namespace WebhookReceiver

/-- Headers as they are sent. -/
abbrev RawHeaders := List (String × Bytes)

structure HttpResponse where
  status : Nat
  rawHeaders : RawHeaders
  body : Bytes
  deriving DecidableEq

/-- A `JSONResponse` with this body. -/
def jsonResponse (status : Nat) (body : Bytes) : HttpResponse where
  status := status
  rawHeaders := [("content-length", encodeUtf8 (toString body.length)),
    ("content-type", encodeUtf8 "application/json")]
  body := body

/-- `webhooks.py::_UNAUTHORIZED`, as it is made. -/
def unauthorizedResponse : HttpResponse :=
  jsonResponse 401 (encodeUtf8 "\x7b\"detail\":\"signature verification failed\"\x7d")

/-! ## The middleware -/

def correlationIdHeader : String := "X-Request-Id"

/-- `str.isprintable` of a latin-1 character. -/
def isPrintable (c : Char) : Bool :=
  let n := c.toNat
  (32 ≤ n ∧ n ≤ 126) ∨ (161 ≤ n ∧ n ≠ 173)

/-- `middleware.py::_inbound_id`. -/
def inboundId (headers : Headers) : Option String :=
  (headers.get? correlationIdHeader).bind fun value =>
    let candidate := pyStrip value.toList
    if candidate ≠ [] ∧ candidate.length ≤ 128 ∧ candidate.all isPrintable then
      some (String.ofList candidate)
    else none

/-- The header that `send_with_header` appends. -/
def idHeader (correlationId : String) : String × Bytes :=
  (lower correlationIdHeader, encodeUtf8 correlationId)

/-- A request, the `uuid4().hex` that is there for it, and what the endpoint answers. -/
structure Exchange where
  request : Request
  minted : String
  answer : Response

def Exchange.correlationId (exchange : Exchange) : String :=
  (inboundId exchange.request.headers).getD exchange.minted

def Exchange.rejected (exchange : Exchange) : Bool := exchange.answer = .unauthorized

/-! ## The process -/

/-- What the app process keeps from one request to the next. -/
structure Process where
  unauthorized : HttpResponse

def Process.start : Process := ⟨unauthorizedResponse⟩

/-- `middleware.py::send_with_header`: the header goes into the list of the response. -/
def HttpResponse.sendWithHeader (response : HttpResponse) (correlationId : String) : HttpResponse :=
  { response with rawHeaders := response.rawHeaders ++ [idHeader correlationId] }

/-- One request: the process after it, and the response that is sent. `render` makes
the response of an answer that has one of its own. -/
def Process.handle (render : Response → HttpResponse) (process : Process) (exchange : Exchange) :
    Process × HttpResponse :=
  match exchange.answer with
  | .unauthorized =>
    let edited := process.unauthorized.sendWithHeader exchange.correlationId
    (⟨edited⟩, edited)
  | answer => (process, (render answer).sendWithHeader exchange.correlationId)

def Process.after (render : Response → HttpResponse) (process : Process) (history : List Exchange) :
    Process :=
  history.foldl (fun process exchange => (process.handle render exchange).1) process

/-- What a request is sent after a history. -/
def sentAfter (render : Response → HttpResponse) (history : List Exchange) (exchange : Exchange) :
    HttpResponse :=
  ((Process.start.after render history).handle render exchange).2

section Process

variable {render : Response → HttpResponse}

/-- What one request leaves behind. -/
theorem handle_unauthorized (process : Process) (exchange : Exchange) :
    (process.handle render exchange).1.unauthorized =
      if exchange.rejected then process.unauthorized.sendWithHeader exchange.correlationId
      else process.unauthorized := by
  unfold Process.handle
  split
  · rename_i answer
    simp [Exchange.rejected, answer]
  · rename_i answer
    have accepted : exchange.rejected = false := decide_eq_false answer
    simp [accepted]

/-- The shared response has collected the ids of all who were rejected. -/
theorem unauthorized_after (process : Process) (history : List Exchange) :
    (process.after render history).unauthorized = { process.unauthorized with
      rawHeaders := process.unauthorized.rawHeaders ++
        (history.filter Exchange.rejected).map fun exchange => idHeader exchange.correlationId } := by
  induction history generalizing process with
  | nil => simp [Process.after]
  | cons exchange rest ih =>
    have step := ih (process.handle render exchange).1
    rw [handle_unauthorized] at step
    refine step.trans ?_
    by_cases rejected : exchange.rejected = true
    · simp [rejected, HttpResponse.sendWithHeader]
    · simp [rejected]

theorem sentAfter_rejected (history : List Exchange) {exchange : Exchange}
    (rejected : exchange.answer = .unauthorized) :
    sentAfter render history exchange = { unauthorizedResponse with
      rawHeaders := unauthorizedResponse.rawHeaders ++
        ((history.filter Exchange.rejected ++ [exchange]).map fun exchange =>
          idHeader exchange.correlationId) } := by
  have shared := @unauthorized_after render Process.start history
  simp only [sentAfter, Process.handle, rejected, HttpResponse.sendWithHeader, shared]
  simp [Process.start]

/-- The ids that a rejected caller is told. -/
theorem ids_sentAfter (history : List Exchange) {exchange : Exchange}
    (rejected : exchange.answer = .unauthorized) :
    (sentAfter render history exchange).rawHeaders.filter (fun header =>
        header.1 = lower correlationIdHeader) =
      (history.filter Exchange.rejected ++ [exchange]).map fun exchange =>
        idHeader exchange.correlationId := by
  have name : lower correlationIdHeader = "x-request-id" := lower_eq (by decide)
  have base : unauthorizedResponse.rawHeaders.filter (fun header =>
      header.1 = lower correlationIdHeader) = [] := by
    simp [unauthorizedResponse, jsonResponse, name]
  rw [sentAfter_rejected history rejected]
  simp only [List.filter_append, base, List.nil_append]
  refine List.filter_eq_self.mpr fun header member => ?_
  obtain ⟨earlier, -, rfl⟩ := List.mem_map.mp member
  simp [idHeader]

end Process

/-- A rejected request is answered the same after both histories, with its own
correlation id and no other, exactly if nobody was rejected in either. -/
theorem rejections_alike_iff (render : Response → HttpResponse) (first second : List Exchange)
    (exchange : Exchange) (rejected : exchange.answer = .unauthorized) :
    (sentAfter render first exchange = sentAfter render second exchange ∧
      (sentAfter render first exchange).rawHeaders.filter (fun header =>
        header.1 = lower correlationIdHeader) = [idHeader exchange.correlationId]) ↔
      ∀ earlier ∈ first ++ second, earlier.answer ≠ .unauthorized := by
  have nobody (history : List Exchange) : history.filter Exchange.rejected = [] ↔
      ∀ earlier ∈ history, earlier.answer ≠ .unauthorized := by
    simp [List.filter_eq_nil_iff, Exchange.rejected]
  have alone (history : List Exchange) : (sentAfter render history exchange).rawHeaders.filter
      (fun header => header.1 = lower correlationIdHeader) = [idHeader exchange.correlationId] ↔
        history.filter Exchange.rejected = [] := by
    rw [ids_sentAfter history rejected]
    simp
  rw [List.forall_mem_append, ← nobody, ← nobody]
  constructor
  · rintro ⟨same, own⟩
    have other := own
    rw [same] at other
    exact ⟨(alone first).mp own, (alone second).mp other⟩
  · rintro ⟨none, none'⟩
    refine ⟨?_, (alone first).mpr none⟩
    rw [sentAfter_rejected first rejected, sentAfter_rejected second rejected, none, none']

/-! ## Two callers -/

/-- A run of the service gives the request this answer. -/
def Service.Gives (svc : Service) (exchange : Exchange) : Prop :=
  ∃ w t th, svc.Reaches .any (.init Db.empty) w ∧ w.threads t = some th ∧
    th.call = .deliver exchange.request ∧ th.prog = .done (.ok (.answered exchange.answer))

/-- A request to a source that nobody has configured. -/
def Sample.probe (minted : String) : Exchange := ⟨⟨"paypal", [], []⟩, minted, .unauthorized⟩

theorem Sample.probe_rejected (minted : String) : Sample.service.Gives (Sample.probe minted) := by
  let call : Call := .deliver (Sample.probe minted).request
  have answered : Sample.service.program call = .done (.ok (.answered .unauthorized)) := by
    simp [Service.program, Service.ingest, Sample.service, Sample.probe, call, Settings.secretForSource]
  have spawned : Sample.service.Reaches .any (.init Db.empty)
      ((Txn.World.init Db.empty).setThread 0 (some ⟨call, Sample.service.program call, [], []⟩)) :=
    Txn.Reach.start.next (Scope.any_permits (.spawn 0 call)) rfl
  exact ⟨_, 0, ⟨call, Sample.service.program call, [], []⟩, spawned, rfl, rfl, answered⟩

/-- The first rejection of a process, whatever else it has answered before. -/
theorem rejections_alike_iff_sample :
    sentAfter (fun _ => ⟨200, [], []⟩) [⟨⟨"acme", [], []⟩, "a", .accepted ⟨1, false⟩⟩] (Sample.probe "b") =
      sentAfter (fun _ => ⟨200, [], []⟩) [] (Sample.probe "b") :=
  ((rejections_alike_iff _ _ _ (Sample.probe "b") rfl).mpr (by simp)).1

/-- The second of two callers that are rejected is told the first one's id. -/
theorem rejections_differ : ¬ ∀ (svc : Service) (render : Response → HttpResponse) first second exchange,
    (∀ earlier ∈ first ++ second, svc.Gives earlier) → svc.Gives exchange →
    exchange.answer = .unauthorized →
    sentAfter render first exchange = sentAfter render second exchange ∧
      (sentAfter render first exchange).rawHeaders.filter (fun header =>
        header.1 = lower correlationIdHeader) = [idHeader exchange.correlationId] := by
  intro alike
  have given : ∀ earlier ∈ [] ++ [Sample.probe "a"], Sample.service.Gives earlier := by
    rintro earlier member
    obtain rfl := List.mem_singleton.mp member
    exact Sample.probe_rejected "a"
  have told := (alike Sample.service (fun _ => ⟨200, [], []⟩) [] [Sample.probe "a"] (Sample.probe "b")
    given (Sample.probe_rejected "b") rfl).1
  have lengths := congrArg (fun response => response.rawHeaders.length) told
  simp [sentAfter_rejected, Sample.probe, Exchange.rejected] at lengths

end WebhookReceiver
