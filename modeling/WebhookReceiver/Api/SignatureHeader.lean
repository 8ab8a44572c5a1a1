import WebhookReceiver.Api.Signature

/-!
What an `X-Webhook-Signature` header can do to `verify_signature`.

The parser reads the header segment by segment; `WellFormed` says at once what it
accepts and what it makes of it (`parseHeader_ok_iff`). From there on two operations
are partial: a float cannot hold every integer, and `hmac.compare_digest` refuses
text that is not ASCII. `verify_signature` keeps to `SignatureError` exactly for the
headers that reach neither (`fails_as_signature_iff`).
-/

namespace WebhookReceiver

/-- A hex digest: lower-case hexadecimal digits. -/
def Hmac.Hexadecimal (hmac : Hmac) : Prop :=
  ∀ key message, ∀ c ∈ (hmac key message).toList, c ∈ "0123456789abcdef".toList

namespace Signature

/-! ## The segments of a header -/

def segments (rawHeader : String) : List (List Char) := pySplit ',' rawHeader.toList

/-- A segment with a `=`, and with an integer where it gives the timestamp. -/
def Readable (part : List Char) : Prop :=
  ∃ key value, pyPartition '=' (pyStrip part) = some (key, value) ∧
    (key = ['t'] → (pyInt value).isSome = true)

/-- The timestamp that a segment gives. -/
def timestampIn (part : List Char) : Option Int :=
  (pyPartition '=' (pyStrip part)).bind fun field =>
    if field.1 = ['t'] then pyInt field.2 else none

/-- The signature that a segment offers. -/
def signatureIn (part : List Char) : Option String :=
  (pyPartition '=' (pyStrip part)).bind fun field =>
    if field.1 = ['v', '1'] then some (String.ofList field.2) else none

/-- The header is one that the parser accepts: of several timestamps the last one
counts, and every signature is offered. -/
structure WellFormed (rawHeader : String) (timestamp : Int) (offered : List String) : Prop where
  short : rawHeader.utf8ByteSize ≤ maxHeaderBytes
  readable : ∀ part ∈ segments rawHeader, Readable part
  signedAt : ((segments rawHeader).filterMap timestampIn).getLast? = some timestamp
  offers : (segments rawHeader).filterMap signatureIn = offered
  some : offered ≠ []

theorem parseSegment_readable {part : List Char} (readable : Readable part)
    (found : Option Int × List String) :
    parseSegment part found = .ok ((timestampIn part).or found.1, found.2 ++ (signatureIn part).toList) := by
  obtain ⟨key, value, parted, dated⟩ := readable
  simp only [parseSegment, timestampIn, signatureIn, parted, Option.bind_some]
  by_cases first : key = ['t']
  · obtain ⟨timestamp, read⟩ := Option.isSome_iff_exists.mp (dated first)
    subst first
    simp [read]
  · by_cases second : key = ['v', '1']
    · subst second
      simp
    · simp [first, second]

theorem parseSegment_unreadable {part : List Char} (unreadable : ¬ Readable part)
    (found : Option Int × List String) :
    ∃ e, parseSegment part found = .error e ∧ e.kind = .signature := by
  cases parted : pyPartition '=' (pyStrip part) with
  | none => exact ⟨_, by simp only [parseSegment, parted]; rfl, rfl⟩
  | some field =>
    obtain ⟨key, value⟩ := field
    by_cases dated : key = ['t']
    · cases read : pyInt value with
      | none => exact ⟨_, by simp only [parseSegment, parted, dated, read, if_true]; rfl, rfl⟩
      | some timestamp => exact absurd ⟨key, value, parted, fun _ => by simp [read]⟩ unreadable
    · exact absurd ⟨key, value, parted, fun named => absurd named dated⟩ unreadable

theorem parseSegments_readable {parts : List (List Char)} (readable : ∀ part ∈ parts, Readable part)
    (found : Option Int × List String) :
    parseSegments parts found = .ok ((parts.filterMap timestampIn).getLast?.or found.1,
      found.2 ++ parts.filterMap signatureIn) := by
  induction parts generalizing found with
  | nil => simp [parseSegments]
  | cons part rest ih =>
    obtain ⟨first, others⟩ := List.forall_mem_cons.mp readable
    simp only [parseSegments, parseSegment_readable first, ih others]
    have last : ((part :: rest).filterMap timestampIn).getLast? =
        (rest.filterMap timestampIn).getLast?.or (timestampIn part) := by
      cases dated : timestampIn part with
      | none => simp [dated]
      | some timestamp => simp [dated, List.getLast?_cons]
    have offered : (part :: rest).filterMap signatureIn =
        (signatureIn part).toList ++ rest.filterMap signatureIn := by
      cases signed : signatureIn part <;> simp [signed]
    rw [last, offered, Option.or_assoc, List.append_assoc]

theorem parseSegments_unreadable {parts : List (List Char)}
    (unreadable : ¬ ∀ part ∈ parts, Readable part) (found : Option Int × List String) :
    ∃ e, parseSegments parts found = .error e ∧ e.kind = .signature := by
  induction parts generalizing found with
  | nil => simp at unreadable
  | cons part rest ih =>
    by_cases first : Readable part
    · simp only [parseSegments, parseSegment_readable first]
      exact ih (fun others => unreadable (List.forall_mem_cons.mpr ⟨first, others⟩)) _
    · obtain ⟨e, refused, kind⟩ := parseSegment_unreadable first found
      exact ⟨e, by simp only [parseSegments, refused], kind⟩

/-- The parser accepts what is well formed, and refuses everything else with a
`SignatureError`. -/
theorem parseHeader_cases (rawHeader : String) :
    (∃ timestamp offered, WellFormed rawHeader timestamp offered ∧
      parseHeader rawHeader = .ok (timestamp, offered)) ∨
    (∀ timestamp offered, ¬ WellFormed rawHeader timestamp offered) ∧
      ∃ e, parseHeader rawHeader = .error e ∧ e.kind = .signature := by
  unfold parseHeader
  split
  · rename_i large
    refine Or.inr ⟨fun timestamp offered good => ?_, _, rfl, rfl⟩
    exact absurd good.short (Nat.not_le.mpr large)
  · rename_i short
    by_cases readable : ∀ part ∈ segments rawHeader, Readable part
    · have parsed := parseSegments_readable readable (none, [])
      simp only [segments] at parsed
      simp only [parsed, Option.or_none, List.nil_append]
      cases last : ((segments rawHeader).filterMap timestampIn).getLast? with
      | none =>
        simp only [segments] at last
        simp only [last]
        refine Or.inr ⟨fun timestamp offered good => ?_, _, rfl, rfl⟩
        have dated := good.signedAt
        simp only [segments] at dated
        rw [last] at dated
        cases dated
      | some timestamp =>
        cases offers : (segments rawHeader).filterMap signatureIn with
        | nil =>
          simp only [segments] at last offers
          simp only [last, offers]
          exact Or.inr ⟨fun timestamp offered good => good.some (good.offers.symm.trans offers), _, rfl, rfl⟩
        | cons signature more =>
          refine Or.inl ⟨timestamp, signature :: more,
            ⟨Nat.not_lt.mp short, readable, last, offers, List.cons_ne_nil _ _⟩, ?_⟩
          simp only [segments] at last offers
          simp only [last, offers]
    · obtain ⟨e, refused, kind⟩ := parseSegments_unreadable readable (none, [])
      refine Or.inr ⟨fun timestamp offered good => readable good.readable, e, ?_, kind⟩
      simp only [segments] at refused
      simp only [refused]

theorem parseHeader_ok_iff {rawHeader : String} {timestamp : Int} {offered : List String} :
    parseHeader rawHeader = .ok (timestamp, offered) ↔ WellFormed rawHeader timestamp offered := by
  rcases parseHeader_cases rawHeader with ⟨timestamp', offered', good, parsed⟩ | ⟨never, e, refused, -⟩
  · rw [parsed]
    constructor
    · intro same
      cases same
      exact good
    · intro other
      have dated := good.signedAt.symm.trans other.signedAt
      have signed := good.offers.symm.trans other.offers
      cases dated
      cases signed
      rfl
  · rw [refused]
    exact ⟨fun absent => (by cases absent), fun good => absurd good (never timestamp offered)⟩

/-! ## The partial operations -/

/-- A float holds the integer. -/
def FitsFloat (timestamp : Int) : Prop := timestamp.natAbs < 2 ^ 1024 - 2 ^ 970

/-- The signed time is within the tolerance, as far as doubles tell. -/
def Current (timestamp : Int) (now : Time) (toleranceSeconds : Int) : Prop :=
  skew timestamp now ≤ toleranceSeconds

theorem checkTimestamp_cases (timestamp : Int) (now : Time) (toleranceSeconds : Int) :
    (FitsFloat timestamp ∧ Current timestamp now toleranceSeconds ∧
      checkTimestamp timestamp now toleranceSeconds = .ok ()) ∨
    ∃ e, checkTimestamp timestamp now toleranceSeconds = .error e ∧
      (e.kind = .signature ∧ FitsFloat timestamp ∧ ¬ Current timestamp now toleranceSeconds ∨
        e.kind ≠ .signature ∧ ¬ FitsFloat timestamp) := by
  unfold checkTimestamp
  split
  · rename_i huge
    exact Or.inr ⟨_, rfl, Or.inr ⟨by simp [overflowError], Nat.not_lt.mpr huge⟩⟩
  · rename_i fits
    split
    · rename_i late
      exact Or.inr ⟨_, rfl, Or.inl ⟨rfl, Nat.not_le.mp fits, not_le.mpr late⟩⟩
    · rename_i current
      exact Or.inl ⟨Nat.not_le.mp fits, not_lt.mp current, rfl⟩

theorem countMatches_ascii {expected : String} (digest : isAscii expected = true)
    {offered : List String} (ascii : ∀ candidate ∈ offered, isAscii candidate = true) :
    ∃ found, countMatches expected offered = .ok found := by
  induction offered with
  | nil => exact ⟨0, rfl⟩
  | cons candidate rest ih =>
    obtain ⟨first, others⟩ := List.forall_mem_cons.mp ascii
    obtain ⟨more, counted⟩ := ih others
    simp only [countMatches, compareDigest, digest, first, Bool.and_self, if_true, counted]
    exact ⟨_, rfl⟩

theorem countMatches_foreign {expected : String} {offered : List String}
    (foreign : ¬ ∀ candidate ∈ offered, isAscii candidate = true) :
    ∃ e, countMatches expected offered = .error e ∧ e.kind ≠ .signature := by
  induction offered with
  | nil => simp at foreign
  | cons candidate rest ih =>
    by_cases compared : (isAscii expected && isAscii candidate) = true
    · have others : ¬ ∀ candidate ∈ rest, isAscii candidate = true := fun all =>
        foreign (List.forall_mem_cons.mpr ⟨(Bool.and_eq_true_iff.mp compared).2, all⟩)
      obtain ⟨e, raised, kind⟩ := ih others
      refine ⟨e, ?_, kind⟩
      simp only [countMatches, compareDigest, if_pos compared, raised]
      rfl
    · refine ⟨typeError "comparing strings with non-ASCII characters is not supported", ?_,
        by simp [typeError]⟩
      simp only [countMatches, compareDigest, if_neg compared]
      rfl

theorem isAscii_of_hexadecimal {hmac : Hmac} (hex : hmac.Hexadecimal) (key message : Bytes) :
    isAscii (hmac key message) = true := by
  refine List.all_eq_true.mpr fun c member => ?_
  have digits : ∀ c ∈ "0123456789abcdef".toList, c.toNat < 128 := by simp
  exact decide_eq_true (digits c (hex key message c member))

/-! ## Verification -/

/-- If the header is well formed, a float holds its timestamp, and unless it is out of
date all the signatures that it offers are ASCII. -/
def Comparable (rawHeader : String) (now : Time) (toleranceSeconds : Int) : Prop :=
  ∀ timestamp offered, WellFormed rawHeader timestamp offered → FitsFloat timestamp ∧
    (Current timestamp now toleranceSeconds → ∀ candidate ∈ offered, isAscii candidate = true)

/-- What happens to a header that parses. -/
theorem verifySignature_wellFormed {hmac : Hmac} (hex : hmac.Hexadecimal) {secret header : String}
    {rawBody : Bytes} {now : Time} {toleranceSeconds timestamp : Int} {offered : List String}
    (parsed : parseHeader header = .ok (timestamp, offered)) :
    (∀ e, verifySignature hmac secret rawBody (some header) now toleranceSeconds = .error e →
      e.kind = .signature) ↔ FitsFloat timestamp ∧
        (Current timestamp now toleranceSeconds → ∀ candidate ∈ offered, isAscii candidate = true) := by
  have unfolded : verifySignature hmac secret rawBody (some header) now toleranceSeconds = (do
      checkTimestamp timestamp now toleranceSeconds
      let found ← countMatches (expectedSignature hmac secret timestamp rawBody) offered
      if found = 0 then throw (signatureMismatchError "no offered signature matches")) := by
    simp only [verifySignature, parsed, bind, Except.bind]
  have digest := isAscii_of_hexadecimal hex (encodeUtf8 secret) (signedPayload timestamp rawBody)
  rw [unfolded]
  rcases checkTimestamp_cases timestamp now toleranceSeconds with
    ⟨fits, current, checked⟩ | ⟨e, checked, why⟩
  · rw [checked]
    by_cases ascii : ∀ candidate ∈ offered, isAscii candidate = true
    · refine ⟨fun _ => ⟨fits, fun _ => ascii⟩, fun _ e raised => ?_⟩
      obtain ⟨found, counted⟩ := countMatches_ascii digest ascii
      simp only [expectedSignature, counted, bind, Except.bind] at raised
      split at raised
      · cases raised
        rfl
      · cases raised
    · obtain ⟨e, raised, kind⟩ := @countMatches_foreign
        (expectedSignature hmac secret timestamp rawBody) offered ascii
      refine ⟨fun all => absurd (all e ?_) kind, fun good => absurd (good.2 current) ascii⟩
      simp only [raised, bind, Except.bind]
  · rw [checked]
    have stopped : ∀ e', (do
        (.error e : Except Exc Unit)
        let found ← countMatches (expectedSignature hmac secret timestamp rawBody) offered
        if found = 0 then throw (signatureMismatchError "no offered signature matches")) =
          .error e' ↔ e' = e := by
      intro e'
      simp only [bind, Except.bind, Except.error.injEq, eq_comm]
    simp only [stopped, forall_eq]
    rcases why with ⟨kind, fits, late⟩ | ⟨kind, huge⟩
    · exact ⟨fun _ => ⟨fits, fun current => absurd current late⟩, fun _ => kind⟩
    · exact ⟨fun good => absurd good kind, fun good => absurd good.1 huge⟩

/-- `verify_signature` fails as a `SignatureError` or not at all exactly on what can be
compared. -/
theorem fails_as_signature_iff (hmac : Hmac) (hex : hmac.Hexadecimal) (secret : String)
    (rawBody : Bytes) (rawHeader : Option String) (now : Time) (toleranceSeconds : Int) :
    (∀ e, verifySignature hmac secret rawBody rawHeader now toleranceSeconds = .error e →
      e.kind = .signature) ↔ ∀ header, rawHeader = some header → Comparable header now toleranceSeconds := by
  cases rawHeader with
  | none =>
    refine ⟨fun _ header absent => (by cases absent), fun _ e raised => ?_⟩
    cases raised
    rfl
  | some header =>
    rcases parseHeader_cases header with ⟨timestamp, offered, good, parsed⟩ | ⟨never, e, refused, kind⟩
    · have comparable : (∀ header', some header = some header' →
          Comparable header' now toleranceSeconds) ↔ FitsFloat timestamp ∧
            (Current timestamp now toleranceSeconds → ∀ candidate ∈ offered, isAscii candidate = true) := by
        constructor
        · exact fun all => all header rfl timestamp offered good
        · rintro one _ ⟨⟩ timestamp' offered' good'
          have same := (parseHeader_ok_iff.mpr good').symm.trans parsed
          cases same
          exact one
      rw [comparable]
      exact verifySignature_wellFormed hex parsed
    · refine ⟨fun _ header' same timestamp offered good => ?_, fun _ e' raised => ?_⟩
      · cases same
        exact absurd good (never timestamp offered)
      · have stopped : verifySignature hmac secret rawBody (some header) now toleranceSeconds = .error e := by
          simp only [verifySignature, refused]
          rfl
        rw [stopped] at raised
        cases raised
        exact kind

/-- The HMAC-SHA256 of `0.{}` under `secret`, for every key and message. -/
private def digest : Hmac :=
  fun _ _ => "4bbe8d39de1ffea42cffafb4727e02f761bef8ed2886b51575ce417d542e918f"

private theorem digest_hexadecimal : digest.Hexadecimal := by
  intro key message
  have digits : ((digest [] []).toList.all fun c => c ∈ "0123456789abcdef".toList) = true := by
    decide +kernel
  exact fun c member => of_decide_eq_true (List.all_eq_true.mp digits c member)

/-- A genuine signature of an empty JSON object. -/
theorem fails_as_signature_iff_sample : Comparable ("t=0,v1=" ++ digest [] []) 0 300 := by
  have authentic : verifySignature digest "secret" [123, 125] (some ("t=0,v1=" ++ digest [] [])) 0 300 =
      .ok () := by decide +kernel
  refine (fails_as_signature_iff digest digest_hexadecimal "secret" [123, 125]
    (some ("t=0,v1=" ++ digest [] [])) 0 300).mp ?_ _ rfl
  rw [authentic]
  intro e raised
  cases raised

/-- One `é` in the place of a signature: a `TypeError` comes out. -/
theorem foreign_signature_raises : ¬ ∀ (hmac : Hmac), hmac.Hexadecimal → ∀ secret rawBody rawHeader now
    toleranceSeconds, 0 < toleranceSeconds → ∀ e,
      verifySignature hmac secret rawBody rawHeader now toleranceSeconds = .error e →
      e.kind = .signature := by
  intro always
  have raised : verifySignature digest "secret" [123, 125] (some "t=0,v1=\u00e9") 0 300 =
      .error (typeError "comparing strings with non-ASCII characters is not supported") := by
    decide +kernel
  have kind := always digest digest_hexadecimal "secret" [123, 125] _ 0 300 (by decide) _ raised
  simp [typeError] at kind

end Signature

end WebhookReceiver
