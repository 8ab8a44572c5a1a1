import WebhookReceiver.Domain.Failure
import WebhookReceiver.Domain.Settings

/-!
Signature verification (`api/signature.py`).

HMAC-SHA256 is a parameter: a function of the key and the signed bytes to the hex
digest. Header text is what the server decodes from latin-1, where the only
decimal digits are the ASCII ones, so `pyInt` knows no others. The skew is computed in
doubles, as the source does.
-/

namespace WebhookReceiver

open Rounding

abbrev Bytes := List UInt8

/-- `hmac.new(key, message, sha256).hexdigest()`. -/
abbrev Hmac := Bytes → Bytes → String

/-- `str.encode("utf-8")`. -/
def encodeUtf8 (s : String) : Bytes := s.toList.flatMap String.utf8EncodeChar

/-! ## Text, as Python handles it -/

/-- `str.isspace` of one character. -/
def isPySpace (c : Char) : Bool :=
  let n := c.toNat
  (9 ≤ n ∧ n ≤ 13) ∨ (28 ≤ n ∧ n ≤ 32) ∨ n = 133 ∨ n = 160 ∨ n = 0x1680 ∨
    (0x2000 ≤ n ∧ n ≤ 0x200a) ∨ n = 0x2028 ∨ n = 0x2029 ∨ n = 0x202f ∨ n = 0x205f ∨ n = 0x3000

def stripOf (space : Char → Bool) (s : List Char) : List Char :=
  ((s.dropWhile space).reverse.dropWhile space).reverse

/-- `str.strip()`. -/
def pyStrip (s : List Char) : List Char := stripOf isPySpace s

/-- What `int` skips: of ASCII the spaces of the C locale, beyond it those of `str`. -/
def isIntSpace (c : Char) : Bool :=
  if c.toNat < 128 then (9 ≤ c.toNat ∧ c.toNat ≤ 13) ∨ c.toNat = 32 else isPySpace c

/-- `str.split(separator)`. -/
def pySplit (separator : Char) : List Char → List (List Char)
  | [] => [[]]
  | c :: rest =>
    if c = separator then [] :: pySplit separator rest
    else match pySplit separator rest with
      | [] => [[c]]
      | part :: parts => (c :: part) :: parts

/-- `str.partition(separator)`, or `none` without the separator. -/
def pyPartition (separator : Char) : List Char → Option (List Char × List Char)
  | [] => none
  | c :: rest =>
    if c = separator then some ([], rest)
    else (pyPartition separator rest).map fun parts => (c :: parts.1, parts.2)

/-- Digits with single underscores between them, most significant first. -/
def pyDigits : List Char → Nat → Option Nat
  | [], _ => none
  | [c], value => if c.isDigit then some (value * 10 + (c.toNat - 48)) else none
  | c :: d :: rest, value =>
    if c.isDigit then
      if d.toNat = 95 then pyDigits rest (value * 10 + (c.toNat - 48))
      else pyDigits (d :: rest) (value * 10 + (c.toNat - 48))
    else none

/-- `int(text)`, or `none` for its `ValueError`. -/
def pyInt (s : List Char) : Option Int :=
  match stripOf isIntSpace s with
  | c :: rest =>
    if c.toNat = 45 then (pyDigits rest 0).map fun n => -(n : Int)
    else if c.toNat = 43 then (pyDigits rest 0).map Int.ofNat
    else (pyDigits (c :: rest) 0).map Int.ofNat
  | [] => none

def isAscii (s : String) : Bool := s.toList.all fun c => c.toNat < 128

namespace Signature

def header : String := "X-Webhook-Signature"
def maxHeaderBytes : Nat := 1024

/-- The bytes that are signed: `timestamp.raw_body`. -/
def signedPayload (timestamp : Int) (rawBody : Bytes) : Bytes :=
  encodeUtf8 (toString timestamp) ++ encodeUtf8 "." ++ rawBody

/-- `signature.py::expected_signature`. -/
def expectedSignature (hmac : Hmac) (secret : String) (timestamp : Int) (rawBody : Bytes) : String :=
  hmac (encodeUtf8 secret) (signedPayload timestamp rawBody)

/-- One turn of the loop of `_parse_header`. -/
def parseSegment (part : List Char) (found : Option Int × List String) :
    Except Exc (Option Int × List String) :=
  match pyPartition '=' (pyStrip part) with
  | none => .error (malformedSignatureHeaderError
      ("malformed segment in signature header: " ++ pyRepr (String.ofList part)))
  | some (key, value) =>
    if key = ['t'] then
      match pyInt value with
      | none => .error (malformedSignatureHeaderError
          ("signature timestamp is not an integer: " ++ pyRepr (String.ofList value)))
      | some timestamp => .ok (some timestamp, found.2)
    else if key = ['v', '1'] then .ok (found.1, found.2 ++ [String.ofList value])
    else .ok found

def parseSegments : List (List Char) → Option Int × List String → Except Exc (Option Int × List String)
  | [], found => .ok found
  | part :: rest, found =>
    match parseSegment part found with
    | .error e => .error e
    | .ok found => parseSegments rest found

/-- `signature.py::_parse_header`. -/
def parseHeader (rawHeader : String) : Except Exc (Int × List String) :=
  if rawHeader.utf8ByteSize > maxHeaderBytes then
    .error (malformedSignatureHeaderError "signature header too large")
  else
    match parseSegments (pySplit ',' rawHeader.toList) (none, []) with
    | .error e => .error e
    | .ok (none, _) => .error (malformedSignatureHeaderError "signature header has no `t` field")
    | .ok (some _, []) => .error (malformedSignatureHeaderError "signature header has no `v1` field")
    | .ok (some timestamp, signature :: more) => .ok (timestamp, signature :: more)

/-- `abs(now.timestamp() - timestamp)`. -/
def skew (timestamp : Int) (now : Time) : ℚ := |toDouble (totalSeconds now - toDouble timestamp)|

/-- `signature.py::_check_timestamp`. An integer that no float can hold makes the
subtraction raise; floats and integers compare exactly. -/
def checkTimestamp (timestamp : Int) (now : Time) (toleranceSeconds : Int) : Except Exc Unit :=
  if 2 ^ 1024 - 2 ^ 970 ≤ timestamp.natAbs then
    .error (overflowError "int too large to convert to float")
  else if skew timestamp now > toleranceSeconds then
    .error (timestampOutsideToleranceError ("signed timestamp is " ++
      toString (roundHalfEven (skew timestamp now)) ++ "s away, tolerance is " ++
      toString toleranceSeconds ++ "s"))
  else .ok ()

/-- `hmac.compare_digest` on two strings. -/
def compareDigest (a b : String) : Except Exc Bool :=
  if isAscii a && isAscii b then .ok (a = b)
  else .error (typeError "comparing strings with non-ASCII characters is not supported")

/-- The number of offered signatures that match. -/
def countMatches (expected : String) : List String → Except Exc Nat
  | [] => .ok 0
  | candidate :: rest => do
    let matched ← compareDigest expected candidate
    let more ← countMatches expected rest
    return (if matched then 1 else 0) + more

/-- `signature.py::verify_signature`. -/
def verifySignature (hmac : Hmac) (secret : String) (rawBody : Bytes) (rawHeader : Option String)
    (now : Time) (toleranceSeconds : Int) : Except Exc Unit :=
  match rawHeader with
  | none => .error (malformedSignatureHeaderError ("missing " ++ header ++ " header"))
  | some rawHeader => do
    let (timestamp, offered) ← parseHeader rawHeader
    checkTimestamp timestamp now toleranceSeconds
    let expected := expectedSignature hmac secret timestamp rawBody
    let found ← countMatches expected offered
    if found = 0 then throw (signatureMismatchError "no offered signature matches")

end Signature

end WebhookReceiver
