import WebhookReceiver.Api.Authenticity
import WebhookReceiver.Origins

/-!
The signature header, written and read.

`scripts/send_webhook.py::_send` writes the header that `signature.py::_parse_header`
reads back. `sentHeader_wellFormed` is the round trip, for every timestamp that a float
holds; `int` reads what `str` wrote (`pyInt_decimal`). So of a delivery that the script
sends only the age of its timestamp is left to decide on (`sent_answered`).
-/

namespace WebhookReceiver

/-- The 64 hex digits of an HMAC-SHA256. -/
structure Hmac.Sha256 (hmac : Hmac) : Prop where
  hexadecimal : hmac.Hexadecimal
  length : ∀ key message, (hmac key message).toList.length = 64

namespace Signature

/-! ## `str` and `int` -/

theorem digit_range {c : Char} (digit : c.isDigit = true) : 48 ≤ c.toNat ∧ c.toNat ≤ 57 := by
  obtain ⟨low, high⟩ := Char.isDigit_iff_toNat.mp digit
  exact ⟨low, high⟩

theorem pyDigits_digits {s : List Char} (nonempty : s ≠ []) (digits : ∀ c ∈ s, c.isDigit = true) (value : Nat) :
    pyDigits s value = some (Nat.ofDigitChars 10 s value) := by
  induction s generalizing value with
  | nil => exact absurd rfl nonempty
  | cons c rest ih =>
    obtain ⟨first, others⟩ := List.forall_mem_cons.mp digits
    have next : value * 10 + (c.toNat - 48) = 10 * value + (c.toNat - '0'.toNat) := by
      have zero : '0'.toNat = 48 := rfl
      omega
    cases rest with
    | nil => rw [pyDigits, if_pos first, next, Nat.ofDigitChars_cons, Nat.ofDigitChars_nil]
    | cons d more =>
      obtain ⟨second, -⟩ := List.forall_mem_cons.mp others
      have plain : d.toNat ≠ 95 := by
        have range := digit_range second
        omega
      rw [pyDigits, if_pos first, if_neg plain, ih (by simp) others, next]
      exact congrArg some Nat.ofDigitChars_cons.symm

/-- Text without spaces is its own `strip`. -/
theorem stripOf_free {space : Char → Bool} {s : List Char} (free : ∀ c ∈ s, space c = false) :
    stripOf space s = s := by
  have kept : ∀ {s : List Char}, (∀ c ∈ s, space c = false) → s.dropWhile space = s := by
    intro s free
    cases s with
    | nil => rfl
    | cons c rest => exact List.dropWhile_cons_of_neg (by simp [free c List.mem_cons_self])
  rw [stripOf, kept free, kept fun c member => free c (List.mem_reverse.mp member), List.reverse_reverse]

theorem intSpace_decimal {t : Int} {c : Char} (member : c ∈ decimal t) : isIntSpace c = false := by
  rcases decimal_chars member with digit | rfl
  · have range := digit_range digit
    rw [isIntSpace, if_pos (by omega), decide_eq_false_iff_not]
    omega
  · rfl

theorem decimal_pySpace {t : Int} {c : Char} (member : c ∈ decimal t) : isPySpace c = false := by
  rcases decimal_chars member with digit | rfl
  · have range := digit_range digit
    simp only [isPySpace, decide_eq_false_iff_not]
    omega
  · rfl

/-- `int(str(t))` is `t`. -/
theorem pyInt_decimal (t : Int) : pyInt (decimal t) = some t := by
  rw [pyInt, stripOf_free fun c => intSpace_decimal]
  have read : ∀ n, pyDigits (Nat.toDigits 10 n) 0 = some n := by
    intro n
    have digits : ∀ c ∈ Nat.toDigits 10 n, c.isDigit = true := fun c =>
      Nat.isDigit_of_mem_toDigits (by decide) (by decide)
    rw [pyDigits_digits Nat.toDigits_ne_nil digits]
    exact congrArg some Nat.ofDigitChars_ten_toDigits
  cases t with
  | negSucc n =>
    simp only [decimal]
    rw [if_pos (show '-'.toNat = 45 by decide), read]
    rfl
  | ofNat n =>
    have digits : ∀ c ∈ Nat.toDigits 10 n, c.isDigit = true := fun c =>
      Nat.isDigit_of_mem_toDigits (by decide) (by decide)
    have known := read n
    simp only [decimal]
    cases written : Nat.toDigits 10 n with
    | nil => exact absurd written Nat.toDigits_ne_nil
    | cons c rest =>
      rw [written] at digits known
      have range := digit_range (digits c List.mem_cons_self)
      simp only
      rw [if_neg (by omega), if_neg (by omega), known]
      rfl

theorem utf8ByteSize_ascii {s : String} (ascii : ∀ c ∈ s.toList, c.toNat < 128) :
    s.utf8ByteSize = s.toList.length := by
  have bytes : s.utf8ByteSize = (s.toList.flatMap String.utf8EncodeChar).length := by
    rw [← String.size_toByteArray, ← String.utf8Encode_toList, List.utf8Encode, List.size_toByteArray]
  rw [bytes, List.length_flatMap]
  have one : s.toList.map (fun c => (String.utf8EncodeChar c).length) = s.toList.map fun _ => 1 :=
    List.map_congr_left fun c member => by rw [utf8EncodeChar_ascii (ascii c member)]; rfl
  rw [one]
  simp

/-! ## Separators -/

theorem pySplit_append {separator : Char} {part : List Char} (free : separator ∉ part) (rest : List Char) :
    pySplit separator (part ++ separator :: rest) = part :: pySplit separator rest := by
  induction part with
  | nil => simp [pySplit]
  | cons c more ih =>
    have other : c ≠ separator := fun same => free (same ▸ List.mem_cons_self)
    rw [List.cons_append, pySplit, if_neg other, ih fun inside => free (List.mem_cons_of_mem _ inside)]

theorem pySplit_free {separator : Char} {part : List Char} (free : separator ∉ part) :
    pySplit separator part = [part] := by
  induction part with
  | nil => rfl
  | cons c more ih =>
    have other : c ≠ separator := fun same => free (same ▸ List.mem_cons_self)
    rw [pySplit, if_neg other, ih fun inside => free (List.mem_cons_of_mem _ inside)]

/-! ## The header of a delivery -/

/-- The value that `_send` gives the header. -/
def sentHeader (hmac : Hmac) (secret : String) (timestamp : Int) (body : Bytes) : String :=
  "t=" ++ toString timestamp ++ ",v1=" ++ expectedSignature hmac secret timestamp body

section Sent

variable {hmac : Hmac} {secret : String} {timestamp : Int} {body : Bytes}

theorem sentHeader_toList : (sentHeader hmac secret timestamp body).toList =
    (['t', '='] ++ decimal timestamp) ++ ',' ::
      (['v', '1', '='] ++ (expectedSignature hmac secret timestamp body).toList) := by
  simp only [sentHeader, String.toList_append, toList_toString]
  simp

theorem hexadecimal_plain {c : Char} (digit : c ∈ "0123456789abcdef".toList) :
    c ≠ ',' ∧ isPySpace c = false ∧ c.toNat < 128 := by
  have all : ("0123456789abcdef".toList.all fun c => c ≠ ',' ∧ isPySpace c = false ∧ c.toNat < 128) = true := by
    decide +kernel
  exact of_decide_eq_true (List.all_eq_true.mp all c digit)

theorem sent_segments (hex : hmac.Hexadecimal) : segments (sentHeader hmac secret timestamp body) =
    [['t', '='] ++ decimal timestamp,
      ['v', '1', '='] ++ (expectedSignature hmac secret timestamp body).toList] := by
  rw [segments, sentHeader_toList, pySplit_append, pySplit_free]
  · intro comma
    simp only [List.cons_append, List.nil_append, List.mem_cons] at comma
    rcases comma with other | other | other | member
    · exact absurd other (by decide)
    · exact absurd other (by decide)
    · exact absurd other (by decide)
    · exact (hexadecimal_plain (hex _ _ _ member)).1 rfl
  · intro comma
    simp only [List.cons_append, List.nil_append, List.mem_cons] at comma
    rcases comma with other | other | member
    · exact absurd other (by decide)
    · exact absurd other (by decide)
    · rcases decimal_chars member with digit | other
      · exact absurd digit (by decide)
      · exact absurd other (by decide)

theorem toDigits_short {n k : Nat} (positive : 0 < k) (below : n < 10 ^ k) : (Nat.toDigits 10 n).length ≤ k :=
  (Nat.length_toDigits_le_iff (by decide) positive).mpr below

/-- The digits of a number below `2^1024`, a sign and the 64 digits of a digest. -/
theorem sentHeader_short (sha : hmac.Sha256) (fits : FitsFloat timestamp) :
    (sentHeader hmac secret timestamp body).utf8ByteSize ≤ maxHeaderBytes := by
  have power : 2 ^ 1024 - 2 ^ 970 < 10 ^ 309 := by decide +kernel
  have digits : (decimal timestamp).length ≤ 310 := by
    rw [FitsFloat] at fits
    cases timestamp with
    | ofNat n =>
      have short : (Nat.toDigits 10 n).length ≤ 309 :=
        toDigits_short (by decide) (Nat.lt_trans fits power)
      simp only [decimal]
      omega
    | negSucc n =>
      have short : (Nat.toDigits 10 (n + 1)).length ≤ 309 :=
        toDigits_short (by decide) (Nat.lt_trans fits power)
      simp only [decimal, List.length_cons]
      omega
  have ascii : ∀ c ∈ (sentHeader hmac secret timestamp body).toList, c.toNat < 128 := by
    intro c member
    rw [sentHeader_toList] at member
    simp only [List.cons_append, List.nil_append, List.mem_cons, List.mem_append] at member
    rcases member with rfl | rfl | member | rfl | rfl | rfl | rfl | member
    · decide
    · decide
    · exact (decimal_ascii member).1
    · decide
    · decide
    · decide
    · decide
    · exact (hexadecimal_plain (sha.hexadecimal _ _ _ member)).2.2
  rw [utf8ByteSize_ascii ascii, sentHeader_toList]
  simp only [List.length_append, List.length_cons, List.length_nil, expectedSignature, sha.length,
    maxHeaderBytes]
  omega

/-! The two parts, read back. -/

theorem dated_partition : pyPartition '=' (pyStrip (['t', '='] ++ decimal timestamp)) =
    some (['t'], decimal timestamp) := by
  rw [pyStrip, stripOf_free]
  · rfl
  · intro c member
    simp only [List.cons_append, List.nil_append, List.mem_cons] at member
    rcases member with rfl | rfl | member
    · rfl
    · rfl
    · exact decimal_pySpace member

theorem signed_partition (hex : hmac.Hexadecimal) :
    pyPartition '=' (pyStrip (['v', '1', '='] ++ (expectedSignature hmac secret timestamp body).toList)) =
      some (['v', '1'], (expectedSignature hmac secret timestamp body).toList) := by
  rw [pyStrip, stripOf_free]
  · rfl
  · intro c member
    simp only [List.cons_append, List.nil_append, List.mem_cons] at member
    rcases member with rfl | rfl | rfl | member
    · rfl
    · rfl
    · rfl
    · exact (hexadecimal_plain (hex _ _ _ member)).2.1

theorem timestampIn_sent (hex : hmac.Hexadecimal) :
    (segments (sentHeader hmac secret timestamp body)).filterMap timestampIn = [timestamp] := by
  have dated : timestampIn (['t', '='] ++ decimal timestamp) = some timestamp := by
    rw [timestampIn, dated_partition]
    exact pyInt_decimal timestamp
  have undated : timestampIn (['v', '1', '='] ++ (expectedSignature hmac secret timestamp
      body).toList) = none := by
    rw [timestampIn, signed_partition hex]
    rfl
  rw [sent_segments hex, List.filterMap_cons_some dated, List.filterMap_cons_none undated]
  rfl

theorem signatureIn_sent (hex : hmac.Hexadecimal) :
    (segments (sentHeader hmac secret timestamp body)).filterMap signatureIn =
      [expectedSignature hmac secret timestamp body] := by
  have unsigned : signatureIn (['t', '='] ++ decimal timestamp) = none := by
    rw [signatureIn, dated_partition]
    rfl
  have signed : signatureIn (['v', '1', '='] ++ (expectedSignature hmac secret timestamp body).toList) =
      some (expectedSignature hmac secret timestamp body) := by
    rw [signatureIn, signed_partition hex]
    exact congrArg some String.ofList_toList
  rw [sent_segments hex, List.filterMap_cons_none unsigned, List.filterMap_cons_some signed]
  rfl

theorem sentHeader_wellFormed (sha : hmac.Sha256) (fits : FitsFloat timestamp) :
    WellFormed (sentHeader hmac secret timestamp body) timestamp
      [expectedSignature hmac secret timestamp body] := by
  refine ⟨sentHeader_short sha fits, ?_, ?_, ?_, List.cons_ne_nil _ _⟩
  · rw [sent_segments sha.hexadecimal]
    intro part member
    simp only [List.mem_cons, List.not_mem_nil, or_false] at member
    rcases member with rfl | rfl
    · exact ⟨_, _, dated_partition, fun _ => by rw [pyInt_decimal]; rfl⟩
    · exact ⟨_, _, signed_partition sha.hexadecimal, fun other => absurd other (by decide)⟩
  · rw [timestampIn_sent sha.hexadecimal]
    rfl
  · exact signatureIn_sent sha.hexadecimal

end Sent

/-- What the script sends is accepted while its timestamp is current, and refused as out of
date when it is not. -/
theorem verifySignature_sent {hmac : Hmac} (sha : hmac.Sha256) (secret : String) (body : Bytes)
    {timestamp : Int}
    (fits : FitsFloat timestamp) (now : Time) (toleranceSeconds : Int) :
    (verifySignature hmac secret body (some (sentHeader hmac secret timestamp body)) now
      toleranceSeconds = .ok () ↔
      Current timestamp now toleranceSeconds) ∧
    ∀ e, verifySignature hmac secret body (some (sentHeader hmac secret timestamp body)) now toleranceSeconds =
      .error e → e.kind = .signature := by
  have good : WellFormed (sentHeader hmac secret timestamp body) timestamp
    [expectedSignature hmac secret timestamp body] := sentHeader_wellFormed sha fits
  have ascii : ∀ candidate ∈ [expectedSignature hmac secret timestamp body], isAscii candidate = true := by
    intro candidate member
    rw [List.mem_singleton.mp member]
    exact isAscii_of_hexadecimal sha.hexadecimal _ _
  constructor
  · rw [verifySignature_ok_iff (isAscii_of_hexadecimal sha.hexadecimal) good ascii fits]
    simp
  · exact (verifySignature_wellFormed sha.hexadecimal (parseHeader_ok_iff.mpr good)).mpr ⟨fits, fun _ => ascii⟩

end Signature

/-! ## A delivery by the script -/

/-- The arguments that `_send` reads. -/
structure SendArgs where
  source : String
  skew : Int
  idempotencyKey : Option String

/-- `int(time.time()) + args.skew`, for what `time.time()` returned. -/
def SendArgs.timestamp (args : SendArgs) (time : ℚ) : Int := truncate time + args.skew

/-- What reaches the endpoint of a delivery that `_send` makes at a time. The HTTP client adds
headers of its own. -/
structure SendArgs.Sends (args : SendArgs) (hmac : Hmac) (secret : String) (time : ℚ) (request : Request) :
    Prop where
  source : request.source = args.source
  signature : request.headers.get? Signature.header =
    some (Signature.sentHeader hmac secret (args.timestamp time) request.rawBody)
  key : request.headers.get? Schemas.idempotencyKeyHeader = args.idempotencyKey

/-- In every run, a delivery by the script that is answered is answered 401 exactly if its
timestamp is further from the clock of the service than the tolerance, in doubles. -/
theorem sent_answered (svc : Service) (sha : svc.hmac.Sha256) {w : World}
    (reached : svc.Reaches .any (.init Db.empty) w) {t : Nat}
    {th : Txn.Thread Write Call Stmt Stmt.Answer Exc Outcome} (here : w.threads t = some th) {request : Request}
    (called : th.call = .deliver request) {response : Response}
    (ended : th.prog = .done (.ok (.answered response))) {args : SendArgs} {secret : String} {time : ℚ}
    (sent : args.Sends svc.hmac secret time request)
    (configured : svc.settings.secretForSource args.source = some secret)
    (short : request.rawBody.length ≤ svc.settings.maxPayloadBytes)
    (fits : Signature.FitsFloat (args.timestamp time)) :
    ∃ now, Trace.clock th.trace = some now ∧ (response = .unauthorized ↔
      svc.settings.signatureTimestampToleranceSeconds < Signature.skew (args.timestamp time) now) := by
  have returned := reaches_returned wf_empty reached here ended
  have admitted := answers_admitted reached here ended
  rw [called] at returned admitted
  have outcome := fun now => Signature.verifySignature_sent sha secret request.rawBody fits now
    svc.settings.signatureTimestampToleranceSeconds
  by_cases refused : response = .unauthorized
  · subst refused
    rcases returned with unknown | ⟨e, secret', now, known, asked, refused⟩
    · rw [sent.source, configured] at unknown
      cases unknown
    · rw [sent.source, configured, Option.some.injEq] at known
      subst known
      rw [sent.signature] at refused
      refine ⟨now, by rw [asked]; rfl, iff_of_true rfl (not_le.mp fun current => ?_)⟩
      rw [(outcome now).1.mpr current] at refused
      cases refused
  · have large : response ≠ .payloadTooLarge := by
      rintro rfl
      exact Nat.not_lt.mpr short returned
    obtain ⟨-, secret', now, known, read, accepted⟩ := admitted request response rfl rfl large refused
    rw [sent.source, configured, Option.some.injEq] at known
    subst known
    rw [sent.signature] at accepted
    exact ⟨now, read, iff_of_false refused (not_lt.mpr ((outcome now).1.mp accepted))⟩

/-- One credit, sent at the time 0 without a skew, to a deployment whose HMAC is given on
its message. -/
def Sample.hashed : Service := { Sample.signed 1 Sample.digestOne with hmac := fun _ _ => Sample.digestOne }

private theorem Sample.hashed_sha : Sample.hashed.hmac.Sha256 where
  hexadecimal := by
    intro key message
    have digits : (Sample.digestOne.toList.all fun c => c ∈ "0123456789abcdef".toList) = true := by
      decide +kernel
    exact fun c member => of_decide_eq_true (List.all_eq_true.mp digits c member)
  length := by
    intro key message
    show Sample.digestOne.toList.length = 64
    decide +kernel

/-- The response that a program ended with. -/
private def Sample.reply : Program Outcome → Option Response
  | .done (.ok (.answered response)) => some response
  | _ => none

private theorem Sample.reply_some {prog : Program Outcome} {response : Response}
    (replied : Sample.reply prog = some response) : prog = .done (.ok (.answered response)) := by
  unfold Sample.reply at replied
  split at replied
  · cases replied
    rfl
  · cases replied

/-- The header that the script writes for the credit, at a skew of zero, is accepted. -/
theorem sent_answered_sample : ∃ w th response, Sample.hashed.Reaches .any (.init Db.empty) w ∧
    w.threads 0 = some th ∧ th.prog = .done (.ok (.answered response)) ∧ response ≠ .unauthorized ∧
    ∃ now, Trace.clock th.trace = some now ∧
      (response = .unauthorized ↔ Sample.hashed.settings.signatureTimestampToleranceSeconds <
        Signature.skew (SendArgs.timestamp ⟨"acme", 0, none⟩ 0) now) := by
  let request := Sample.delivery 1 Sample.digestOne []
  obtain ⟨w, reached, shown⟩ := Sample.hashed.reaches_test .any (.init Db.empty)
    (Sample.deliver 1 Sample.digestOne 3)
    (fun w => (w.threads 0).any fun th =>
      th.call.isDelivery request && (Sample.reply th.prog).any (· ≠ .unauthorized))
    (by simp [Sample.deliver, Sample.steps, Scope.permits, Scope.any])
    (by decide +kernel)
  simp only [Option.any_eq_true, Bool.and_eq_true, decide_eq_true_eq, isDelivery_iff] at shown
  obtain ⟨th, here, called, response, replied, accepted⟩ := shown
  have ended := Sample.reply_some replied
  have sent : SendArgs.Sends ⟨"acme", 0, none⟩ Sample.hashed.hmac "secret" 0 request :=
    ⟨rfl, by decide +kernel, by decide +kernel⟩
  have configured : Sample.hashed.settings.secretForSource "acme" = some "secret" := by decide +kernel
  have short : request.rawBody.length ≤ Sample.hashed.settings.maxPayloadBytes := by decide +kernel
  have fits : Signature.FitsFloat (SendArgs.timestamp ⟨"acme", 0, none⟩ 0) := by
    unfold Signature.FitsFloat
    decide +kernel
  exact ⟨w, th, response, reached, here, ended, accepted, sent_answered Sample.hashed
    Sample.hashed_sha reached here
    called ended sent configured short fits⟩

end WebhookReceiver
