import WebhookReceiver.Api.SignatureHeader

/-!
What an accepted signature stands for.

`verify_signature` accepts exactly one grammar of headers (`accepts_iff`), and what it
computes the digest of says both when and what was signed (`signedPayload_injective`):
the timestamp is rendered in decimal, so the first `.` ends it whatever the body holds.
-/

namespace WebhookReceiver

namespace Signature

/-! ## Acceptance -/

/-- Comparing every candidate finds out whether the digest is among them. -/
theorem countMatches_mem {expected : String} (digest : isAscii expected = true) {offered : List String}
    (ascii : ∀ candidate ∈ offered, isAscii candidate = true) :
    ∃ found, countMatches expected offered = .ok found ∧ (found = 0 ↔ expected ∉ offered) := by
  induction offered with
  | nil => exact ⟨0, rfl, by simp⟩
  | cons candidate rest ih =>
    obtain ⟨first, others⟩ := List.forall_mem_cons.mp ascii
    obtain ⟨more, counted, none⟩ := ih others
    have compared : compareDigest expected candidate = .ok (decide (expected = candidate)) := by
      simp [compareDigest, digest, first]
    refine ⟨(if expected = candidate then 1 else 0) + more, ?_, ?_⟩
    · simp only [countMatches, compared, counted, bind, Except.bind, decide_eq_true_eq]
      rfl
    · by_cases same : expected = candidate <;> simp [same, none]

/-- What becomes of a header that parses. -/
theorem verifySignature_parsed {hmac : Hmac} {secret header : String} {rawBody : Bytes} {now : Time}
    {toleranceSeconds timestamp : Int} {offered : List String}
    (parsed : parseHeader header = .ok (timestamp, offered)) :
    verifySignature hmac secret rawBody (some header) now toleranceSeconds = (do
      checkTimestamp timestamp now toleranceSeconds
      let found ← countMatches (expectedSignature hmac secret timestamp rawBody) offered
      if found = 0 then throw (signatureMismatchError "no offered signature matches")) := by
  simp only [verifySignature, parsed, bind, Except.bind]

theorem verifySignature_ok_iff {hmac : Hmac} (digest : ∀ key message, isAscii (hmac key message) = true)
    {secret header : String} {rawBody : Bytes} {now : Time} {toleranceSeconds timestamp : Int}
    {offered : List String} (good : WellFormed header timestamp offered)
    (ascii : ∀ candidate ∈ offered, isAscii candidate = true) (fits : FitsFloat timestamp) :
    verifySignature hmac secret rawBody (some header) now toleranceSeconds = .ok () ↔
      Current timestamp now toleranceSeconds ∧
        expectedSignature hmac secret timestamp rawBody ∈ offered := by
  rw [verifySignature_parsed (parseHeader_ok_iff.mpr good)]
  rcases checkTimestamp_cases timestamp now toleranceSeconds with
    ⟨-, current, checked⟩ | ⟨e, checked, why⟩
  · obtain ⟨found, counted, none⟩ :=
      countMatches_mem (digest (encodeUtf8 secret) (signedPayload timestamp rawBody)) ascii
    rw [checked]
    simp only [expectedSignature, counted, bind, Except.bind, current, true_and]
    by_cases zero : found = 0
    · rw [if_pos zero]
      exact ⟨fun accepted => (by cases accepted), fun member => absurd member (none.mp zero)⟩
    · rw [if_neg zero]
      exact ⟨fun _ => not_not.mp (mt none.mpr zero), fun _ => rfl⟩
  · rw [checked]
    have late : ¬ Current timestamp now toleranceSeconds := by
      rcases why with ⟨-, -, late⟩ | ⟨-, huge⟩
      · exact late
      · exact absurd fits huge
    exact ⟨fun accepted => (by cases accepted), fun both => absurd both.1 late⟩

/-! ### ASCII headers -/

theorem mem_of_mem_pySplit {separator : Char} {s part : List Char} (member : part ∈ pySplit separator s) :
    part ⊆ s := by
  induction s generalizing part with
  | nil =>
    obtain rfl := List.mem_singleton.mp member
    exact List.Subset.refl _
  | cons c rest ih =>
    simp only [pySplit] at member
    split at member
    · rcases List.mem_cons.mp member with rfl | later
      · exact List.nil_subset _
      · exact List.subset_cons_of_subset c (ih later)
    · split at member
      · rename_i none
        obtain rfl := List.mem_singleton.mp member
        exact List.cons_subset_cons c (List.nil_subset _)
      · rename_i first others parts
        rcases List.mem_cons.mp member with rfl | later
        · exact List.cons_subset_cons c (ih (by rw [parts]; exact List.mem_cons_self))
        · exact List.subset_cons_of_subset c (ih (by rw [parts]; exact List.mem_cons_of_mem _ later))

theorem pyStrip_subset (s : List Char) : pyStrip s ⊆ s := by
  intro c member
  have kept := (List.dropWhile_sublist _).subset (List.mem_reverse.mp member)
  exact (List.dropWhile_sublist _).subset (List.mem_reverse.mp kept)

theorem pyPartition_subset {separator : Char} {s key value : List Char}
    (parted : pyPartition separator s = some (key, value)) : value ⊆ s := by
  induction s generalizing key with
  | nil => cases parted
  | cons c rest ih =>
    simp only [pyPartition] at parted
    split at parted
    · cases parted
      exact List.subset_cons_self _ _
    · obtain ⟨⟨key', value'⟩, later, same⟩ := Option.map_eq_some_iff.mp parted
      cases same
      exact List.subset_cons_of_subset c (ih later)

/-- What a header offers is part of its text. -/
theorem isAscii_of_offered {header : String} (text : isAscii header = true) {part : List Char}
    (member : part ∈ segments header) {candidate : String} (offered : signatureIn part = some candidate) :
    isAscii candidate = true := by
  obtain ⟨⟨key, value⟩, parted, signed⟩ := Option.bind_eq_some_iff.mp offered
  split at signed
  · cases signed
    have inside : value ⊆ header.toList := fun c here =>
      mem_of_mem_pySplit member (pyStrip_subset part (pyPartition_subset parted here))
    refine List.all_eq_true.mpr fun c here => ?_
    rw [String.toList_ofList] at here
    exact List.all_eq_true.mp text c (inside here)
  · cases signed

/-! ### The clock -/

section Clock

variable {now : Time} {timestamp tolerance : Int}

/-- Before the year 2242 a double tells microseconds apart, so no signed time is let
through too late or turned away too early. -/
theorem lag_le_iff (clock : |now| < 2 ^ 33 * 1000000) (nonneg : 0 ≤ tolerance) (small : tolerance < 2 ^ 32) :
    toDouble (totalSeconds now - toDouble timestamp) ≤ tolerance ↔
      (now : ℚ) / 1000000 - timestamp ≤ tolerance := by
  unfold totalSeconds
  obtain ⟨least, most⟩ := abs_lt.mp clock
  have clock' : |(now : ℚ) / 1000000| < 2 ^ 33 := by
    rw [abs_div, div_lt_iff₀ (by norm_num)]
    exact_mod_cast clock
  have tolerable : (tolerance : ℚ) < 2 ^ 32 := by exact_mod_cast small
  have nonneg' : (0 : ℚ) ≤ tolerance := by exact_mod_cast nonneg
  have near := abs_le.mp (toDouble_near (k := 33) clock')
  rw [abs_lt] at clock'
  have low : ((-2 ^ 33 : Int) : ℚ) ≤ toDouble ((now : ℚ) / 1000000) :=
    int_le_toDouble (by norm_num) (by push_cast; linarith)
  have high : toDouble ((now : ℚ) / 1000000) ≤ ((2 ^ 33 : Int) : ℚ) :=
    toDouble_le_int (by norm_num) (by push_cast; linarith)
  generalize double : toDouble ((now : ℚ) / 1000000) = clock at near low high ⊢
  push_cast at low high
  rcases lt_or_ge timestamp (-2 ^ 34) with early | early
  · -- signed long ago
    have early' : (timestamp : ℚ) < -2 ^ 34 := by exact_mod_cast early
    have signed : toDouble timestamp ≤ ((-2 ^ 34 : Int) : ℚ) :=
      toDouble_le_int (by norm_num) (by push_cast; linarith)
    have apart : ((2 ^ 33 : Int) : ℚ) ≤ toDouble (clock - toDouble timestamp) := by
      refine int_le_toDouble (by norm_num) ?_
      push_cast at signed ⊢
      linarith
    push_cast at apart
    constructor <;> intro <;> linarith
  rcases lt_or_ge (2 ^ 34) timestamp with late | late
  · -- signed for the far future
    have late' : (2 : ℚ) ^ 34 < timestamp := by exact_mod_cast late
    have signed : ((2 ^ 34 : Int) : ℚ) ≤ toDouble timestamp :=
      int_le_toDouble (by norm_num) (by push_cast; linarith)
    have apart : toDouble (clock - toDouble timestamp) ≤ ((0 : Int) : ℚ) := by
      refine toDouble_le_int (by norm_num) ?_
      push_cast at signed ⊢
      linarith
    push_cast at apart
    constructor <;> intro <;> linarith
  · have signedAt : |timestamp| ≤ 2 ^ 34 := abs_le.mpr ⟨early, late⟩
    have own : toDouble timestamp = timestamp := toDouble_intCast (lt_of_le_of_lt signedAt (by norm_num))
    rw [own]
    constructor
    · intro within
      by_contra late
      rw [not_le] at late
      -- the clock counts microseconds, so it is late by one of them at least
      have next : (timestamp + tolerance : ℚ) + 1 / 1000000 ≤ (now : ℚ) / 1000000 := by
        have whole : (timestamp + tolerance) * 1000000 < now := by
          have scaled := (lt_div_iff₀ (by norm_num : (0 : ℚ) < 1000000)).mp (lt_sub_iff_add_lt'.mp late)
          exact_mod_cast scaled
        rw [le_div_iff₀ (by norm_num)]
        have step : (timestamp + tolerance) * 1000000 + 1 ≤ now := whole
        have cast : ((timestamp + tolerance) * 1000000 + 1 : ℚ) ≤ now := by exact_mod_cast step
        linarith
      rcases lt_or_ge (clock - timestamp) (2 ^ 32) with short | long
      · have bounded : |clock - timestamp| < 2 ^ 32 := abs_lt.mpr ⟨by linarith, short⟩
        have exact := abs_le.mp (toDouble_near (k := 32) bounded)
        norm_num at near exact
        linarith
      · have far : ((2 ^ 32 : Int) : ℚ) ≤ toDouble (clock - timestamp) :=
          int_le_toDouble (by norm_num) (by push_cast; exact long)
        push_cast at far
        linarith
    · intro within
      have limit : clock ≤ ((timestamp + tolerance : Int) : ℚ) := by
        rw [← double]
        refine toDouble_le_int ?_ (by push_cast; linarith)
        rw [abs_lt]
        constructor <;> omega
      refine toDouble_le_int (abs_lt.mpr ⟨by omega, by omega⟩) ?_
      push_cast at limit
      linarith

/-- There the skew is compared as if it were exact. -/
theorem current_iff (clock : |now| < 2 ^ 33 * 1000000) (nonneg : 0 ≤ tolerance)
    (small : tolerance < 2 ^ 32) :
    Current timestamp now tolerance ↔ |(now : ℚ) / 1000000 - timestamp| ≤ tolerance := by
  have behind := @lag_le_iff now timestamp tolerance clock nonneg small
  have ahead := @lag_le_iff (-now) (-timestamp) tolerance (by rwa [abs_neg]) nonneg small
  have flipped : toDouble (totalSeconds (-now) - toDouble ((-timestamp : Int) : ℚ)) =
      -toDouble (totalSeconds now - toDouble timestamp) := by
    rw [totalSeconds, totalSeconds, ← toDouble_neg, Int.cast_neg, Int.cast_neg, neg_div, toDouble_neg,
      toDouble_neg]
    congr 1
    ring
  rw [flipped] at ahead
  push_cast at ahead
  rw [Current, skew, abs_le, abs_le, behind]
  constructor
  · rintro ⟨early, late⟩
    exact ⟨by linarith [ahead.mp (by linarith)], late⟩
  · rintro ⟨early, late⟩
    exact ⟨by linarith [ahead.mpr (by linarith)], late⟩

end Clock

/-- `verify_signature` accepts an ASCII header exactly if it is short, every segment has a
`=`, every `t` segment has an integer, there is one, the last of these is current, and
some `v1` segment has the digest for it. Up to the year 2242 and for tolerances below
2 ^ 32 seconds, a time is current exactly if it is within the tolerance. -/
theorem accepts_iff (hmac : Hmac) (digest : ∀ key message, isAscii (hmac key message) = true)
    (secret : String) (rawBody : Bytes) (header : String) (now : Time) (toleranceSeconds : Int)
    (text : isAscii header = true)
    (fits : ∀ timestamp, ((segments header).filterMap timestampIn).getLast? = some timestamp →
      FitsFloat timestamp) :
    (verifySignature hmac secret rawBody (some header) now toleranceSeconds = .ok () ↔
      header.utf8ByteSize ≤ maxHeaderBytes ∧ (∀ part ∈ segments header, Readable part) ∧
      ∃ timestamp, ((segments header).filterMap timestampIn).getLast? = some timestamp ∧
        Current timestamp now toleranceSeconds ∧
        ∃ part ∈ segments header,
          signatureIn part = some (expectedSignature hmac secret timestamp rawBody)) ∧
    (|now| < 2 ^ 33 * 1000000 → 0 ≤ toleranceSeconds → toleranceSeconds < 2 ^ 32 →
      ∀ timestamp, Current timestamp now toleranceSeconds ↔
        |(now : ℚ) / 1000000 - timestamp| ≤ toleranceSeconds) := by
  refine ⟨?_, fun clock nonneg small timestamp => current_iff clock nonneg small⟩
  have ascii : ∀ candidate ∈ (segments header).filterMap signatureIn, isAscii candidate = true := by
    intro candidate offered
    obtain ⟨part, member, signed⟩ := List.mem_filterMap.mp offered
    exact isAscii_of_offered text member signed
  constructor
  · intro accepted
    rcases parseHeader_cases header with ⟨timestamp, offered, good, parsed⟩ | ⟨never, e, refused, -⟩
    · have offers := good.offers
      subst offers
      obtain ⟨current, matched⟩ := (verifySignature_ok_iff digest good ascii (fits _ good.signedAt)).mp accepted
      exact ⟨good.short, good.readable, timestamp, good.signedAt, current, List.mem_filterMap.mp matched⟩
    · simp [verifySignature, refused, bind, Except.bind] at accepted
  · rintro ⟨short, readable, timestamp, signedAt, current, part, member, signed⟩
    have matched := List.mem_filterMap.mpr ⟨part, member, signed⟩
    have good : WellFormed header timestamp ((segments header).filterMap signatureIn) :=
      ⟨short, readable, signedAt, rfl, List.ne_nil_of_mem matched⟩
    exact (verifySignature_ok_iff digest good ascii (fits _ signedAt)).mpr ⟨current, matched⟩

/-- The HMAC-SHA256 of `0.{}` under `secret`, for every key and message. -/
private def genuine : Hmac :=
  fun _ _ => "4bbe8d39de1ffea42cffafb4727e02f761bef8ed2886b51575ce417d542e918f"

private theorem genuine_ascii (key message : Bytes) : isAscii (genuine key message) = true := by
  show isAscii "4bbe8d39de1ffea42cffafb4727e02f761bef8ed2886b51575ce417d542e918f" = true
  decide

/-- A header in the middle of a key rotation, with a scheme that nobody knows yet and a
timestamp that is overridden. -/
private def rotated : String := "t=9, v2=x,v1=00, t=0,v1=" ++ genuine [] []

/-- The rotated header is accepted, and so it is all that an accepted header is. -/
theorem accepts_iff_sample : rotated.utf8ByteSize ≤ maxHeaderBytes ∧
    (∀ part ∈ segments rotated, Readable part) ∧
    ∃ timestamp, ((segments rotated).filterMap timestampIn).getLast? = some timestamp ∧
      Current timestamp 0 300 ∧ ∃ part ∈ segments rotated,
        signatureIn part = some (expectedSignature genuine "secret" timestamp [123, 125]) := by
  have authentic : verifySignature genuine "secret" [123, 125] (some rotated) 0 300 = .ok () := by
    decide +kernel
  have dated : ((segments rotated).filterMap timestampIn).getLast? = some 0 := by decide +kernel
  refine (accepts_iff genuine genuine_ascii "secret" [123, 125] rotated 0 300 (by decide +kernel) ?_).1.mp
    authentic
  intro timestamp last
  obtain rfl : 0 = timestamp := Option.some.inj (dated.symm.trans last)
  show (0 : Int).natAbs < 2 ^ 1024 - 2 ^ 970
  decide +kernel

/-- In the year 2514 a double is 4 microseconds wide, and a time that is one microsecond
out of date passes for current. -/
theorem late_timestamp_accepted : ¬ ∀ (hmac : Hmac) (secret : String) (rawBody : Bytes) (header : String)
    (now : Time) (toleranceSeconds : Int), (∀ key message, isAscii (hmac key message) = true) →
    isAscii header = true → 0 < toleranceSeconds →
    (∀ timestamp, ((segments header).filterMap timestampIn).getLast? = some timestamp →
      FitsFloat timestamp) →
    verifySignature hmac secret rawBody (some header) now toleranceSeconds = .ok () →
    ∃ timestamp, ((segments header).filterMap timestampIn).getLast? = some timestamp ∧
      |(now : ℚ) / 1000000 - timestamp| ≤ toleranceSeconds := by
  let header : String := "t=17179869184,v1=" ++ genuine [] []
  have dated : ((segments header).filterMap timestampIn).getLast? = some 17179869184 := by decide +kernel
  have accepted : verifySignature genuine "secret" [123, 125] (some header) 17179869484000001 300 =
      .ok () := by decide +kernel
  intro within
  obtain ⟨timestamp, last, near⟩ := within genuine "secret" [123, 125] header 17179869484000001 300
    genuine_ascii (by decide +kernel) (by decide)
    (fun timestamp last => by
      obtain rfl : 17179869184 = timestamp := Option.some.inj (dated.symm.trans last)
      show (17179869184 : Int).natAbs < 2 ^ 1024 - 2 ^ 970
      decide +kernel) accepted
  obtain rfl : 17179869184 = timestamp := Option.some.inj (dated.symm.trans last)
  exact absurd near (by decide +kernel)

/-! ## What is signed -/

theorem toDigits_injective {m n : Nat} (same : Nat.toDigits 10 m = Nat.toDigits 10 n) : m = n := by
  calc
    m = Nat.ofDigitChars 10 (Nat.toDigits 10 m) 0 := Nat.ofDigitChars_ten_toDigits.symm
    _ = Nat.ofDigitChars 10 (Nat.toDigits 10 n) 0 := by rw [same]
    _ = n := Nat.ofDigitChars_ten_toDigits

/-- `str` of an integer: its digits, after a sign if it is negative. -/
def decimal : Int → List Char
  | .ofNat n => Nat.toDigits 10 n
  | .negSucc n => '-' :: Nat.toDigits 10 (n + 1)

theorem toList_toString (t : Int) : (toString t).toList = decimal t := by
  cases t with
  | ofNat n => exact Nat.toList_repr
  | negSucc n =>
    rw [Int.toString_eq_repr]
    simp [Int.repr, decimal]

theorem decimal_chars {t : Int} {c : Char} (member : c ∈ decimal t) : c.isDigit = true ∨ c = '-' := by
  cases t with
  | ofNat n => exact Or.inl (Nat.isDigit_of_mem_toDigits (by decide) (by decide) member)
  | negSucc n =>
    rcases List.mem_cons.mp member with rfl | digit
    · exact Or.inr rfl
    · exact Or.inl (Nat.isDigit_of_mem_toDigits (by decide) (by decide) digit)

theorem decimal_injective {t t' : Int} (same : decimal t = decimal t') : t = t' := by
  have unsigned : ∀ {m n : Nat}, Nat.toDigits 10 m ≠ '-' :: Nat.toDigits 10 n := by
    intro m n equal
    have sign : '-' ∈ Nat.toDigits 10 m := equal ▸ List.mem_cons_self
    exact absurd (Nat.isDigit_of_mem_toDigits (by decide) (by decide) sign) (by decide)
  cases t with
  | ofNat m =>
    cases t' with
    | ofNat n => exact congrArg Int.ofNat (toDigits_injective same)
    | negSucc n => exact absurd same unsigned
  | negSucc m =>
    cases t' with
    | ofNat n => exact absurd same.symm unsigned
    | negSucc n =>
      have digits := toDigits_injective (List.cons.inj same).2
      exact congrArg Int.negSucc (by omega)

/-- The byte of an ASCII character. -/
def byteOf (c : Char) : UInt8 := UInt8.ofNat c.toNat

theorem utf8EncodeChar_ascii {c : Char} (ascii : c.toNat < 128) : String.utf8EncodeChar c = [byteOf c] := by
  have one : c.utf8Size = 1 := by
    rw [Char.utf8Size_eq_one_iff, UInt32.le_iff_toNat_le]
    exact Nat.le_of_lt_succ ascii
  rw [String.utf8EncodeChar_eq_singleton one]
  rfl

theorem byteOf_toNat {c : Char} (ascii : c.toNat < 128) : (byteOf c).toNat = c.toNat := by
  simp only [byteOf, UInt8.toNat_ofNat']
  omega

theorem map_byteOf_injective {s s' : List Char} (ascii : ∀ c ∈ s, c.toNat < 128)
    (ascii' : ∀ c ∈ s', c.toNat < 128) (same : s.map byteOf = s'.map byteOf) : s = s' := by
  have back : ∀ {s : List Char}, (∀ c ∈ s, c.toNat < 128) →
      (s.map byteOf).map (fun byte => Char.ofNat byte.toNat) = s := by
    intro s ascii
    rw [List.map_map]
    refine (List.map_congr_left fun c member => ?_).trans (List.map_id s)
    show Char.ofNat (byteOf c).toNat = c
    rw [byteOf_toNat (ascii c member)]
    exact Char.ofNat_toNat c
  rw [← back ascii, same, back ascii']

theorem decimal_ascii {t : Int} {c : Char} (member : c ∈ decimal t) : c.toNat < 128 ∧ c.toNat ≠ 46 := by
  rcases decimal_chars member with digit | rfl
  · obtain ⟨low, high⟩ := Char.isDigit_iff_toNat.mp digit
    have zero : '0'.toNat = 48 := rfl
    have nine : '9'.toNat = 57 := rfl
    omega
  · decide

/-- The timestamp and the body, apart. -/
theorem signedPayload_eq (t : Int) (rawBody : Bytes) :
    signedPayload t rawBody = (decimal t).map byteOf ++ 46 :: rawBody := by
  have rendered : encodeUtf8 (toString t) = (decimal t).map byteOf := by
    rw [encodeUtf8, toList_toString, List.map_eq_flatMap]
    exact List.flatMap_congr fun c member => utf8EncodeChar_ascii (decimal_ascii member).1
  rw [signedPayload, rendered, List.append_assoc]
  rfl

/-- Where the first separator is, is determined by the whole. -/
theorem append_separator_injective {α : Type} {separator : α} {first first' rest rest' : List α}
    (free : separator ∉ first) (free' : separator ∉ first')
    (same : first ++ separator :: rest = first' ++ separator :: rest') : first = first' ∧ rest = rest' := by
  induction first generalizing first' with
  | nil =>
    cases first' with
    | nil => exact ⟨rfl, (List.cons.inj same).2⟩
    | cons c more => exact absurd ((List.cons.inj same).1 ▸ List.mem_cons_self) free'
  | cons c more ih =>
    cases first' with
    | nil => exact absurd ((List.cons.inj same).1 ▸ List.mem_cons_self) free
    | cons c' more' =>
      obtain ⟨rfl, others⟩ := List.cons.inj same
      obtain ⟨rfl, rest⟩ := ih (fun inside => free (List.mem_cons_of_mem _ inside))
        (fun inside => free' (List.mem_cons_of_mem _ inside)) others
      exact ⟨rfl, rest⟩

/-- The first `.` ends the timestamp, whatever the body holds. -/
theorem signedPayload_injective {t t' : Int} {rawBody rawBody' : Bytes}
    (same : signedPayload t rawBody = signedPayload t' rawBody') : t = t' ∧ rawBody = rawBody' := by
  rw [signedPayload_eq, signedPayload_eq] at same
  have free : ∀ t, (46 : UInt8) ∉ (decimal t).map byteOf := by
    intro t dot
    obtain ⟨c, member, is⟩ := List.mem_map.mp dot
    obtain ⟨ascii, other⟩ := decimal_ascii member
    exact other ((byteOf_toNat ascii).symm.trans (congrArg UInt8.toNat is))
  obtain ⟨digits, rest⟩ := append_separator_injective (free t) (free t') same
  have chars := map_byteOf_injective (fun c member => (decimal_ascii member).1)
    (fun c member => (decimal_ascii member).1) digits
  exact ⟨decimal_injective chars, rest⟩

theorem mem_of_countMatches {expected : String} {offered : List String} {found : Nat}
    (counted : countMatches expected offered = .ok found) (some : found ≠ 0) : expected ∈ offered := by
  induction offered generalizing found with
  | nil =>
    cases counted
    exact absurd rfl some
  | cons candidate rest ih =>
    simp only [countMatches, bind, Except.bind] at counted
    split at counted
    · cases counted
    · rename_i matched compared
      split at counted
      · cases counted
      · rename_i more others
        cases counted
        cases matched with
        | false => exact List.mem_cons_of_mem _ (ih others (by simpa using some))
        | true =>
          rw [compareDigest] at compared
          split at compared
          · obtain rfl : expected = candidate := of_decide_eq_true (Except.ok.inj compared)
            exact List.mem_cons_self
          · cases compared

/-- What is accepted carries the digest of what it was computed for. -/
theorem mem_of_accepted {hmac : Hmac} {secret header : String} {rawBody : Bytes} {now : Time}
    {toleranceSeconds timestamp : Int} {offered : List String}
    (parsed : parseHeader header = .ok (timestamp, offered))
    (accepted : verifySignature hmac secret rawBody (some header) now toleranceSeconds = .ok ()) :
    expectedSignature hmac secret timestamp rawBody ∈ offered := by
  rw [verifySignature_parsed parsed] at accepted
  simp only [bind, Except.bind] at accepted
  split at accepted
  · cases accepted
  · split at accepted
    · cases accepted
    · rename_i found counted
      refine mem_of_countMatches counted fun none => ?_
      rw [if_pos none] at accepted
      cases accepted

/-- The encoding of what is signed is injective. So if all that a header offers was
computed for timestamps and bodies of some set, then what it is accepted for is in the
set, or two different payloads have one HMAC. -/
theorem signatures_bind_time_and_body :
    (∀ (t t' : Int) (rawBody rawBody' : Bytes), signedPayload t rawBody = signedPayload t' rawBody' →
      t = t' ∧ rawBody = rawBody') ∧
    ∀ (hmac : Hmac) (secret header : String) (rawBody : Bytes) (now : Time)
      (toleranceSeconds timestamp : Int) (offered : List String) (signed : Int → Bytes → Prop),
      parseHeader header = .ok (timestamp, offered) →
      (∀ candidate ∈ offered, ∃ t body, signed t body ∧ candidate = expectedSignature hmac secret t body) →
      verifySignature hmac secret rawBody (some header) now toleranceSeconds = .ok () →
      signed timestamp rawBody ∨ ∃ t body, signed t body ∧
        signedPayload t body ≠ signedPayload timestamp rawBody ∧
        hmac (encodeUtf8 secret) (signedPayload t body) =
          hmac (encodeUtf8 secret) (signedPayload timestamp rawBody) := by
  refine ⟨fun _ _ _ _ => signedPayload_injective, ?_⟩
  intro hmac secret header rawBody now toleranceSeconds timestamp offered signed parsed computed accepted
  obtain ⟨t, body, known, same⟩ := computed _ (mem_of_accepted parsed accepted)
  by_cases equal : signedPayload t body = signedPayload timestamp rawBody
  · obtain ⟨rfl, rfl⟩ := signedPayload_injective equal
    exact Or.inl known
  · exact Or.inr ⟨t, body, known, equal, same.symm⟩

private def signedOnce (t : Int) (body : Bytes) : Prop := t = 0 ∧ body = [123, 125]

/-- What was signed once is accepted for what it was signed for. -/
theorem signatures_bind_time_and_body_sample :
    verifySignature genuine "secret" [123, 125] (some ("t=0,v1=" ++ genuine [] [])) 0 300 = .ok () ∧
    (signedOnce 0 [123, 125] ∨ ∃ t body, signedOnce t body ∧
      signedPayload t body ≠ signedPayload 0 [123, 125] ∧
      genuine (encodeUtf8 "secret") (signedPayload t body) =
        genuine (encodeUtf8 "secret") (signedPayload 0 [123, 125])) := by
  have authentic : verifySignature genuine "secret" [123, 125] (some ("t=0,v1=" ++ genuine [] [])) 0 300 =
      .ok () := by decide +kernel
  have parsed : parseHeader ("t=0,v1=" ++ genuine [] []) = .ok (0, [genuine [] []]) := by decide +kernel
  refine ⟨authentic, signatures_bind_time_and_body.2 genuine "secret" _ [123, 125] 0 300 0 _ signedOnce
    parsed ?_ authentic⟩
  intro candidate offered
  exact ⟨0, [123, 125], ⟨rfl, rfl⟩, List.mem_singleton.mp offered⟩

end Signature

end WebhookReceiver
