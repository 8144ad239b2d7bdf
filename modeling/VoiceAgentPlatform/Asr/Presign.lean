import VoiceAgentPlatform.Asr.SignerPatch
import VoiceAgentPlatform.Lib.Date
import VoiceAgentPlatform.Lib.JsonText
import VoiceAgentPlatform.Lib.UrlQuery

/-!
# Presigned URLs for Transcribe

The query string of a presigned URL is put together by hand, signed, and sent. SHA-256 and HMAC are any
functions.

* `canonicalQuerystring`, `signature`, `buildTranscribePresignedUrl`: as the source has them.
* `canonicalQuerystring_eq`: the string is that of the signing parameters and the request parameters.
* `Signs`: the signature of a query string, by the steps of the signing process.
* `presigning_canonical`: its order, what it decodes to, how it is signed, and when nothing is signed.
* `buildTranscribePresignedUrl_map`: the signer of stream B, with the query string written out.
-/

namespace Asr

namespace Presign

open Calendar.Date UrlQuery

/-! ### The code -/

/-- SHA-256, and HMAC of a key and a message. -/
structure Hash where
  sha256 : List UInt8 → List UInt8
  hmac : List UInt8 → List UInt8 → List UInt8

/-- `datetime.utcnow()`. -/
structure UtcTime where
  date : Calendar.Date
  hour : Fin 24
  minute : Fin 60
  second : Fin 60

/-- `now.strftime("%Y%m%d")`. -/
def UtcTime.datestamp (now : UtcTime) : List Char :=
  digits 4 now.date.year ++ (digits 2 now.date.month ++ digits 2 now.date.day)

/-- `now.strftime("%Y%m%dT%H%M%SZ")`. -/
def UtcTime.amzDate (now : UtcTime) : List Char :=
  now.datestamp ++ 'T' :: (digits 2 now.hour ++ (digits 2 now.minute ++ (digits 2 now.second ++ ['Z'])))

/-- `credentials`. -/
structure Credentials where
  accessKey : Option String
  secretKey : Option String
  sessionToken : Option String

/-- The arguments, with their defaults. -/
structure Args where
  region : String
  credentials : Credentials
  sampleRate : ℤ
  mediaEncoding : String := "pcm"
  languageCode : Option String := none
  identifyLanguage : Bool := false
  identifyMultipleLanguages : Bool := false
  languageOptions : Option String := none
  preferredLanguage : Option String := none
  enablePartialResultsStabilization : Bool := true
  partialResultsStability : String := "high"

/-- The text of an argument; without one it is empty. -/
def text (value : Option String) : String := PyText.orDefault value ""

def Args.identifyOn (a : Args) : Bool := a.identifyMultipleLanguages || a.identifyLanguage

def method : List Char := "GET".toList
def service : List Char := "transcribe".toList
def canonicalUri : List Char := "/stream-transcription-websocket".toList
def signedHeaders : List Char := "host".toList
def algorithm : List Char := "AWS4-HMAC-SHA256".toList

def Args.endpoint (a : Args) : List Char :=
  "wss://transcribestreaming.".toList ++ a.region.toList ++ ".amazonaws.com:8443".toList

def Args.host (a : Args) : List Char :=
  "transcribestreaming.".toList ++ a.region.toList ++ ".amazonaws.com:8443".toList

def Args.credentialScopeQs (a : Args) (now : UtcTime) : List Char :=
  now.datestamp ++ "%2F".toList ++ a.region.toList ++ "%2F".toList ++ service ++ "%2Faws4_request".toList

/-- A part that is only there if `given`. -/
def addPart (given : Bool) (part qs : List Char) : List Char := if given then qs ++ part else qs

/-- `canonical_querystring`, without the signature. -/
def canonicalQuerystring (now : UtcTime) (a : Args) : List Char :=
  let accessKey := (text a.credentials.accessKey).toList
  let token := text a.credentials.sessionToken
  -- The parameters are appended in the order in which they are to be sorted.
  let qs := "X-Amz-Algorithm=".toList ++ algorithm
  let qs := qs ++ ("&X-Amz-Credential=".toList ++ accessKey ++ "%2F".toList ++ a.credentialScopeQs now)
  let qs := qs ++ ("&X-Amz-Date=".toList ++ now.amzDate)
  let qs := qs ++ "&X-Amz-Expires=300".toList
  let qs := addPart (token ≠ "") ("&X-Amz-Security-Token=".toList ++ quote token.toList) qs
  let qs := qs ++ ("&X-Amz-SignedHeaders=".toList ++ signedHeaders)
  let qs := addPart a.enablePartialResultsStabilization
    "&enable-partial-results-stabilization=true".toList qs
  let qs := addPart a.identifyLanguage "&identify-language=true".toList qs
  let qs := addPart a.identifyMultipleLanguages "&identify-multiple-languages=true".toList qs
  let qs := addPart (text a.languageCode ≠ "")
    ("&language-code=".toList ++ (text a.languageCode).toList) qs
  let qs := addPart (text a.languageOptions ≠ "")
    ("&language-options=".toList ++ quote (text a.languageOptions).toList) qs
  let qs := addPart (a.mediaEncoding ≠ "") ("&media-encoding=".toList ++ a.mediaEncoding.toList) qs
  let qs := addPart (a.partialResultsStability ≠ "")
    ("&partial-results-stability=".toList ++ a.partialResultsStability.toList) qs
  let qs := addPart (text a.preferredLanguage ≠ "")
    ("&preferred-language=".toList ++ (text a.preferredLanguage).toList) qs
  addPart (a.sampleRate ≠ 0) ("&sample-rate=".toList ++ (toString a.sampleRate).toList) qs

/-- `s.encode("utf-8")`. -/
def encode (s : List Char) : List UInt8 := s.flatMap String.utf8EncodeChar

/-- `digest.hex()`. -/
def hex (digest : List UInt8) : List Char :=
  digest.flatMap fun b => [Json.hexDigit (b.toNat / 16), Json.hexDigit (b.toNat % 16)]

/-- `canonical_request` for a query string. -/
def canonicalRequest (hash : Hash) (a : Args) (query : List Char) : List Char :=
  let canonicalHeaders := "host:".toList ++ a.host ++ ['\n']
  let payloadHash := hex (hash.sha256 [])
  method ++ '\n' :: canonicalUri ++ '\n' :: query ++ '\n' :: canonicalHeaders ++ '\n' :: signedHeaders ++
    '\n' :: payloadHash

/-- `string_to_sign`. -/
def stringToSign (hash : Hash) (now : UtcTime) (a : Args) (query : List Char) : List Char :=
  let credentialScope :=
    now.datestamp ++ '/' :: a.region.toList ++ '/' :: service ++ "/aws4_request".toList
  algorithm ++ '\n' :: now.amzDate ++ '\n' :: credentialScope ++ '\n' ::
    hex (hash.sha256 (encode (canonicalRequest hash a query)))

/-- The signature of a query string. -/
def signature (hash : Hash) (now : UtcTime) (a : Args) (query : List Char) : List Char :=
  let kDate := hash.hmac (encode ("AWS4".toList ++ (text a.credentials.secretKey).toList))
    (encode now.datestamp)
  let kRegion := hash.hmac kDate (encode a.region.toList)
  let kService := hash.hmac kRegion (encode service)
  let kSigning := hash.hmac kService (encode "aws4_request".toList)
  hex (hash.hmac kSigning (encode (stringToSign hash now a query)))

/-- `build_transcribe_presigned_url`, or the text of its `ValueError`. -/
def buildTranscribePresignedUrl (hash : Hash) (now : UtcTime) (a : Args) : Except String String :=
  if text a.credentials.accessKey = "" || text a.credentials.secretKey = "" then
    .error "AWS credentials are required"
  -- The modes exclude each other, and each has what it requires.
  else if a.identifyOn && text a.languageCode ≠ "" then
    .error ("language_code is mutually exclusive with identify_language / " ++
      "identify_multiple_languages")
  else if a.identifyOn &&
      !(text a.languageOptions ≠ "" && PyText.strip (text a.languageOptions) ≠ "") then
    .error ("language_options is required (non-empty) when identify_language " ++
      "or identify_multiple_languages is set")
  else if !a.identifyOn && text a.languageCode = "" then
    .error "language_code is required when no identify-* mode is set"
  else
    let query := canonicalQuerystring now a
    -- The signature is of everything before it.
    .ok (String.ofList (a.endpoint ++ canonicalUri ++ '?' ::
      (query ++ "&X-Amz-Signature=".toList ++ signature hash now a query)))

/-! ### What is to hold -/

/-- The parameters of the signing process, but for the signature. -/
def signingParams (now : UtcTime) (a : Args) : List (String × String) :=
  [("X-Amz-Algorithm", "AWS4-HMAC-SHA256"),
    ("X-Amz-Credential", text a.credentials.accessKey ++ "/" ++ String.ofList now.datestamp ++ "/" ++
      a.region ++ "/transcribe/aws4_request"),
    ("X-Amz-Date", String.ofList now.amzDate), ("X-Amz-Expires", "300")] ++
  optionalParam "X-Amz-Security-Token" a.credentials.sessionToken ++
  [("X-Amz-SignedHeaders", "host")]

/-- The request parameters that are given and not empty. -/
def requestParams (a : Args) : List (String × String) :=
  (if a.enablePartialResultsStabilization then
    [("enable-partial-results-stabilization", "true")] else []) ++
  (if a.identifyLanguage then [("identify-language", "true")] else []) ++
  (if a.identifyMultipleLanguages then [("identify-multiple-languages", "true")] else []) ++
  optionalParam "language-code" a.languageCode ++
  optionalParam "language-options" a.languageOptions ++
  optionalParam "media-encoding" (some a.mediaEncoding) ++
  optionalParam "partial-results-stability" (some a.partialResultsStability) ++
  optionalParam "preferred-language" a.preferredLanguage ++
  (if a.sampleRate = 0 then [] else [("sample-rate", toString a.sampleRate)])

/-- The arguments that have to be unreserved; the session token and the language options do not. -/
structure Args.Plain (a : Args) : Prop where
  accessKey : Unreserved (text a.credentials.accessKey).toList
  region : Unreserved a.region.toList
  languageCode : Unreserved (text a.languageCode).toList
  preferredLanguage : Unreserved (text a.preferredLanguage).toList
  mediaEncoding : Unreserved a.mediaEncoding.toList
  partialResultsStability : Unreserved a.partialResultsStability.toList

/-- The arguments for which the docstring has a `ValueError`. -/
inductive Args.Refused (a : Args) : Prop
  | credentials (h : text a.credentials.accessKey = "" ∨ text a.credentials.secretKey = "")
  | exclusive (h : a.identifyOn = true ∧ text a.languageCode ≠ "")
  | options (h : a.identifyOn = true ∧ PyText.strip (text a.languageOptions) = "")
  | languageCode (h : a.identifyOn = false ∧ text a.languageCode = "")

/-- The names in a query string. -/
def names (query : List Char) : List String :=
  (query.splitOn '&').map fun part => String.ofList (part.takeWhile (· ≠ '='))

/-- The bytes of a text. -/
def utf8 (s : String) : List UInt8 := s.toUTF8.data.toList

/-- A digest in hexadecimal, with small letters. -/
def hexText (digest : List UInt8) : String :=
  String.ofList (digest.flatMap fun b => [Nat.digitChar (b.toNat / 16), Nat.digitChar (b.toNat % 16)])

/-- The key that is derived from a secret for a day, a region and the service. -/
def signingKey (hmac : List UInt8 → List UInt8 → List UInt8) (secret day region : String) : List UInt8 :=
  ["transcribe", "aws4_request"].foldl (fun key scope => hmac key (utf8 scope))
    (hmac (hmac (utf8 ("AWS4" ++ secret)) (utf8 day)) (utf8 region))

/-- The signature is the MAC, in hexadecimal, of a text that ends with the hash of the canonical request,
and a line of the canonical request is the query string. -/
def Signs (hash : Hash) (now : UtcTime) (a : Args) (query signature : String) : Prop :=
  ∃ request toSign : String,
    request = "GET\n/stream-transcription-websocket\n" ++ query ++ "\nhost:transcribestreaming." ++
      a.region ++ ".amazonaws.com:8443\n\nhost\n" ++ hexText (hash.sha256 []) ∧
    toSign = "AWS4-HMAC-SHA256\n" ++ String.ofList now.amzDate ++ "\n" ++ String.ofList now.datestamp ++
      "/" ++ a.region ++ "/transcribe/aws4_request\n" ++ hexText (hash.sha256 (utf8 request)) ∧
    signature = hexText (hash.hmac
      (signingKey hash.hmac (text a.credentials.secretKey) (String.ofList now.datestamp) a.region)
      (utf8 toSign))

/-- A URL is that of a query string and the signature of it; the names of the query string are in strict
order, and it decodes to what it is made for. -/
structure Canonical (hash : Hash) (now : UtcTime) (a : Args) (query : List Char) (url : String) : Prop where
  ordered : (names query).Pairwise (· < ·)
  decoded : parse query = some (signingParams now a ++ requestParams a)
  wire : ∃ signature, Signs hash now a (String.ofList query) signature ∧
    url = "wss://transcribestreaming." ++ a.region ++
      ".amazonaws.com:8443/stream-transcription-websocket?" ++ String.ofList query ++ "&X-Amz-Signature=" ++
      signature

/-! ### The query string -/

theorem unreserved_digits (w n : ℕ) : Unreserved (digits w n) := by
  have hdigit : ∀ k : Fin 10, isUnreserved (digitChar k.val) = true := by decide
  intro c hc
  obtain ⟨k, hk, rfl⟩ := exists_of_mem_digits hc
  exact hdigit ⟨k, hk⟩

theorem unreserved_datestamp (now : UtcTime) : Unreserved now.datestamp :=
  (unreserved_digits 4 _).append ((unreserved_digits 2 _).append (unreserved_digits 2 _))

theorem unreserved_amzDate (now : UtcTime) : Unreserved now.amzDate := by
  have hz : Unreserved ['Z'] := by simp [Unreserved, isUnreserved]
  refine (unreserved_datestamp now).append (List.forall_mem_cons.mpr ⟨by decide, ?_⟩)
  exact (unreserved_digits 2 _).append ((unreserved_digits 2 _).append ((unreserved_digits 2 _).append hz))

theorem unreserved_toDigits (n : ℕ) : Unreserved (Nat.toDigits 10 n) := by
  intro c hc
  have hdigit := Nat.isDigit_of_mem_toDigits (by decide) (by decide) hc
  simp [isUnreserved, Char.isAlphanum, hdigit]

theorem unreserved_int (n : ℤ) : Unreserved (toString n).toList := by
  cases n with
  | ofNat n =>
    rw [show (toString (Int.ofNat n)).toList = Nat.toDigits 10 n from String.toList_ofList]
    exact unreserved_toDigits n
  | negSucc n =>
    have htext : (toString (Int.negSucc n)).toList = '-' :: Nat.toDigits 10 (n + 1) := by
      rw [show toString (Int.negSucc n) = "-" ++ String.ofList (Nat.toDigits 10 (n + 1)) from rfl,
        String.toList_append]
      exact congrArg ('-' :: ·) String.toList_ofList
    rw [htext]
    exact List.forall_mem_cons.mpr ⟨by decide, unreserved_toDigits _⟩

/-- A part adds its parameter. -/
theorem addPart_eq {given : Bool} {part : List Char} {p : String × String} (qs : List Char)
    (hpart : given = true → part = '&' :: written p) :
    addPart given part qs = qs ++ (if given then [p] else []).flatMap fun q => '&' :: written q := by
  cases given with
  | false => exact (List.append_nil qs).symm
  | true => rw [addPart, if_pos rfl, if_pos rfl, List.flatMap_singleton, hpart rfl]

theorem optionalParam_eq (name : String) (value : Option String) :
    optionalParam name value = if text value ≠ "" then [(name, text value)] else [] := by
  cases value with
  | none => rfl
  | some v =>
    by_cases hv : v = ""
    · simp [optionalParam, text, PyText.orDefault, hv]
    · simp [optionalParam, text, PyText.orDefault, hv]

/-- A part that is written by hand is that of a parameter. -/
theorem part_eq (part name value : String) (hpart : part.toList = '&' :: (name.toList ++ ['=']))
    (hname : Unreserved name.toList) :
    part.toList ++ quote value.toList = '&' :: written (name, value) := by
  rw [hpart, written, quote_of_unreserved hname]
  simp

theorem plainPart_eq (part name value : String) (hpart : part.toList = '&' :: (name.toList ++ ['=']))
    (hname : Unreserved name.toList) (hvalue : Unreserved value.toList) :
    part.toList ++ value.toList = '&' :: written (name, value) := by
  rw [← part_eq part name value hpart hname, quote_of_unreserved hvalue]

@[simp] theorem text_some (v : String) : text (some v) = v := by
  by_cases hv : v = ""
  · simp [text, PyText.orDefault, hv]
  · simp [text, PyText.orDefault, hv]

/-- The part of an optional text, quoted. -/
theorem addQuoted_eq (part name : String) (value : Option String) (qs : List Char)
    (hpart : part.toList = '&' :: (name.toList ++ ['='])) (hname : Unreserved name.toList) :
    addPart (text value ≠ "") (part.toList ++ quote (text value).toList) qs =
      qs ++ (optionalParam name value).flatMap fun q => '&' :: written q := by
  rw [addPart_eq qs fun _ => part_eq part name _ hpart hname, optionalParam_eq]
  simp only [decide_eq_true_eq]

/-- The part of an optional text, as it is. -/
theorem addPlain_eq (part name : String) (value : Option String) (qs : List Char)
    (hpart : part.toList = '&' :: (name.toList ++ ['='])) (hname : Unreserved name.toList)
    (hvalue : Unreserved (text value).toList) :
    addPart (text value ≠ "") (part.toList ++ (text value).toList) qs =
      qs ++ (optionalParam name value).flatMap fun q => '&' :: written q := by
  rw [← addQuoted_eq part name value qs hpart hname, quote_of_unreserved hvalue]

theorem addText_eq (part name value : String) (qs : List Char)
    (hpart : part.toList = '&' :: (name.toList ++ ['='])) (hname : Unreserved name.toList)
    (hvalue : Unreserved value.toList) :
    addPart (value ≠ "") (part.toList ++ value.toList) qs =
      qs ++ (optionalParam name (some value)).flatMap fun q => '&' :: written q := by
  have hadd := addPlain_eq part name (some value) qs hpart hname (by rwa [text_some])
  rwa [text_some] at hadd

theorem addFlag_eq (part name : String) (given : Bool) (qs : List Char)
    (hpart : part.toList = '&' :: (name.toList ++ '=' :: "true".toList)) (hname : Unreserved name.toList) :
    addPart given part.toList qs =
      qs ++ (if given then [(name, "true")] else []).flatMap fun q => '&' :: written q :=
  addPart_eq qs fun _ => by rw [hpart, written_of_unreserved hname (by decide)]

theorem addRate_eq (rate : ℤ) (qs : List Char) :
    addPart (rate ≠ 0) ("&sample-rate=".toList ++ (toString rate).toList) qs =
      qs ++ (if rate = 0 then [] else [("sample-rate", toString rate)]).flatMap
        fun q => '&' :: written q := by
  rw [addPart_eq qs fun _ => plainPart_eq "&sample-rate=" "sample-rate" (toString rate) (by decide)
    (by decide) (unreserved_int rate)]
  by_cases hzero : rate = 0
  · rw [if_pos hzero, if_neg (by simpa using hzero)]
  · rw [if_neg hzero, if_pos (by simpa using hzero)]

/-- A slash is encoded. -/
theorem quote_scope {s t : List Char} (hs : Unreserved s) :
    quote (s ++ '/' :: t) = s ++ "%2F".toList ++ quote t := by
  rw [quote_append, quote_of_unreserved hs, quote_cons, List.append_assoc]
  rfl

theorem credential_eq (now : UtcTime) {a : Args} (h : a.Plain) :
    "&X-Amz-Credential=".toList ++ (text a.credentials.accessKey).toList ++ "%2F".toList ++
      a.credentialScopeQs now =
    '&' :: written ("X-Amz-Credential", text a.credentials.accessKey ++ "/" ++
      String.ofList now.datestamp ++ "/" ++ a.region ++ "/transcribe/aws4_request") := by
  have htail : quote "transcribe/aws4_request".toList = service ++ "%2Faws4_request".toList := by decide
  have hvalue : (text a.credentials.accessKey ++ "/" ++ String.ofList now.datestamp ++ "/" ++ a.region ++
      "/transcribe/aws4_request").toList = (text a.credentials.accessKey).toList ++ '/' ::
        (now.datestamp ++ '/' :: (a.region.toList ++ '/' :: "transcribe/aws4_request".toList)) := by
    simp
  rw [← part_eq "&X-Amz-Credential=" "X-Amz-Credential" _ (by decide) (by decide), hvalue,
    quote_scope h.accessKey, quote_scope (unreserved_datestamp now), quote_scope h.region, htail,
    Args.credentialScopeQs]
  simp only [List.append_assoc]

/-- The query string is that of its parameters. -/
theorem canonicalQuerystring_eq (now : UtcTime) {a : Args} (h : a.Plain) :
    canonicalQuerystring now a = write (signingParams now a ++ requestParams a) := by
  have hdate : "&X-Amz-Date=".toList ++ now.amzDate =
      '&' :: written ("X-Amz-Date", String.ofList now.amzDate) := by
    have hpart := plainPart_eq "&X-Amz-Date=" "X-Amz-Date" (String.ofList now.amzDate) (by decide)
      (by decide)
    rw [String.toList_ofList] at hpart
    exact hpart (unreserved_amzDate now)
  have hexpires : "&X-Amz-Expires=300".toList = '&' :: written ("X-Amz-Expires", "300") :=
    plainPart_eq "&X-Amz-Expires=" "X-Amz-Expires" "300" (by decide) (by decide) (by decide)
  have hheaders : "&X-Amz-SignedHeaders=".toList ++ signedHeaders =
      '&' :: written ("X-Amz-SignedHeaders", "host") :=
    plainPart_eq "&X-Amz-SignedHeaders=" "X-Amz-SignedHeaders" "host" (by decide) (by decide) (by decide)
  have halgorithm : "X-Amz-Algorithm=".toList ++ algorithm =
      written ("X-Amz-Algorithm", "AWS4-HMAC-SHA256") := by
    rw [written_of_unreserved (by decide) (by decide)]
    decide
  have hwrite : write (signingParams now a ++ requestParams a) =
      written ("X-Amz-Algorithm", "AWS4-HMAC-SHA256") ++
      ((signingParams now a).drop 1 ++ requestParams a).flatMap fun q => '&' :: written q := by
    rw [← write_cons]
    rfl
  have htoken (qs : List Char) := addQuoted_eq "&X-Amz-Security-Token=" "X-Amz-Security-Token"
    a.credentials.sessionToken qs (by decide) (by decide)
  have hstabilization (qs : List Char) := addFlag_eq "&enable-partial-results-stabilization=true"
    "enable-partial-results-stabilization" a.enablePartialResultsStabilization qs (by decide) (by decide)
  have hidentify (qs : List Char) := addFlag_eq "&identify-language=true" "identify-language"
    a.identifyLanguage qs (by decide) (by decide)
  have hmultiple (qs : List Char) := addFlag_eq "&identify-multiple-languages=true"
    "identify-multiple-languages" a.identifyMultipleLanguages qs (by decide) (by decide)
  have hcode (qs : List Char) := addPlain_eq "&language-code=" "language-code" a.languageCode qs
    (by decide) (by decide) h.languageCode
  have hoptions (qs : List Char) := addQuoted_eq "&language-options=" "language-options"
    a.languageOptions qs (by decide) (by decide)
  have hpreferred (qs : List Char) := addPlain_eq "&preferred-language=" "preferred-language"
    a.preferredLanguage qs (by decide) (by decide) h.preferredLanguage
  have hencoding (qs : List Char) := addText_eq "&media-encoding=" "media-encoding"
    a.mediaEncoding qs (by decide) (by decide) h.mediaEncoding
  have hstability (qs : List Char) := addText_eq "&partial-results-stability="
    "partial-results-stability" a.partialResultsStability qs (by decide) (by decide)
    h.partialResultsStability
  rw [hwrite, canonicalQuerystring]
  -- Each part of the code is the written parameter that stands in its place on the other side.
  simp only [halgorithm, credential_eq now h, hdate, hexpires, hheaders, htoken, hstabilization, hidentify,
    hmultiple, hcode, hoptions, hencoding, hstability, hpreferred, addRate_eq]
  simp only [signingParams, requestParams, List.cons_append, List.drop_one, List.tail_cons, List.nil_append,
    List.flatMap_cons, List.flatMap_append, List.append_assoc]

/-! ### Order -/

/-- The names of all parameters. -/
def allNames : List String :=
  ["X-Amz-Algorithm", "X-Amz-Credential", "X-Amz-Date", "X-Amz-Expires", "X-Amz-Security-Token",
    "X-Amz-SignedHeaders", "enable-partial-results-stabilization", "identify-language",
    "identify-multiple-languages", "language-code", "language-options", "media-encoding",
    "partial-results-stability", "preferred-language", "sample-rate"]

theorem allNames_sorted : allNames.Pairwise (· < ·) := by decide +kernel

theorem allNames_unreserved : ∀ name ∈ allNames, Unreserved name.toList := by decide +kernel

theorem optionalParam_sublist (name : String) (value : Option String) :
    ((optionalParam name value).map Prod.fst).Sublist [name] := by
  rw [optionalParam_eq]
  split_ifs
  · exact List.Sublist.refl _
  · exact List.nil_sublist _

theorem flag_sublist (name value : String) (given : Prop) [Decidable given] :
    ((if given then [(name, value)] else []).map Prod.fst).Sublist [name] := by
  split_ifs
  · exact List.Sublist.refl _
  · exact List.nil_sublist _

/-- The names of the parameters, whichever of them are there. -/
theorem params_sublist (now : UtcTime) (a : Args) :
    ((signingParams now a ++ requestParams a).map Prod.fst).Sublist allNames := by
  have hrate : ((if a.sampleRate = 0 then [] else [("sample-rate", toString a.sampleRate)]).map
      Prod.fst).Sublist ["sample-rate"] := by
    rw [← ite_not]
    exact flag_sublist _ _ _
  simp only [signingParams, requestParams, List.map_append]
  have hsigning := List.Sublist.refl ["X-Amz-Algorithm", "X-Amz-Credential", "X-Amz-Date",
      "X-Amz-Expires"]
    |>.append (optionalParam_sublist "X-Amz-Security-Token" a.credentials.sessionToken)
    |>.append (List.Sublist.refl ["X-Amz-SignedHeaders"])
  refine hsigning.append ?_
  exact (flag_sublist _ _ _).append (flag_sublist _ _ _) |>.append (flag_sublist _ _ _)
    |>.append (optionalParam_sublist _ _) |>.append (optionalParam_sublist _ _)
    |>.append (optionalParam_sublist _ _) |>.append (optionalParam_sublist _ _)
    |>.append (optionalParam_sublist _ _) |>.append hrate

/-- The names in a query string are those of its parameters. -/
theorem names_write {p : String × String} {ps : List (String × String)}
    (h : ∀ q ∈ p :: ps, Unreserved q.1.toList) : names (write (p :: ps)) = (p :: ps).map Prod.fst := by
  rw [names, splitOn_write, List.map_map]
  refine List.map_congr_left fun q hq => ?_
  have hname : ∀ c ∈ q.1.toList, decide (c ≠ '=') = true := by
    intro c hc
    refine decide_eq_true fun heq => ?_
    have hfree := h q hq c hc
    rw [heq] at hfree
    exact absurd hfree (by decide)
  rw [Function.comp_apply, written, quote_of_unreserved (h q hq), List.takeWhile_append_of_pos hname]
  simp

/-! ### The signature -/

theorem encode_toList (s : String) : encode s.toList = utf8 s := by
  rw [utf8, String.toUTF8_eq_toByteArray, ← String.utf8Encode_toList, List.utf8Encode]
  simp [encode]

theorem utf8_ofList (cs : List Char) : utf8 (String.ofList cs) = encode cs := by
  rw [← encode_toList, String.toList_ofList]

theorem hex_eq (digest : List UInt8) : hex digest = (hexText digest).toList := by
  have hdigit : ∀ n : Fin 16, Json.hexDigit n.val = Nat.digitChar n.val := by decide
  rw [hexText, String.toList_ofList, hex]
  refine List.flatMap_congr fun b _ => ?_
  have hb := b.toNat_lt
  rw [hdigit ⟨b.toNat / 16, by omega⟩, hdigit ⟨b.toNat % 16, by omega⟩]

/-- The canonical request, its constant parts written out. -/
theorem canonicalRequest_eq (hash : Hash) (a : Args) (query : List Char) :
    canonicalRequest hash a query = ("GET\n/stream-transcription-websocket\n" ++ String.ofList query ++
      "\nhost:transcribestreaming." ++ a.region ++ ".amazonaws.com:8443\n\nhost\n" ++
      hexText (hash.sha256 [])).toList := by
  have hopen : "GET\n/stream-transcription-websocket\n".toList =
      method ++ '\n' :: (canonicalUri ++ ['\n']) := by
    decide
  have hhost : "\nhost:transcribestreaming.".toList = '\n' :: ("host:".toList ++
      "transcribestreaming.".toList) := by decide
  have hclose : ".amazonaws.com:8443\n\nhost\n".toList =
      ".amazonaws.com:8443".toList ++ '\n' :: '\n' :: (signedHeaders ++ ['\n']) := by decide
  have heq : a.host = "transcribestreaming.".toList ++ a.region.toList ++ ".amazonaws.com:8443".toList := rfl
  rw [canonicalRequest, heq, hex_eq]
  simp only [String.toList_append, String.toList_ofList, hopen, hhost, hclose, List.append_assoc,
    List.cons_append, List.nil_append]

/-- The string to sign, its constant parts written out. -/
theorem stringToSign_eq (hash : Hash) (now : UtcTime) (a : Args) (query : List Char) :
    stringToSign hash now a query = ("AWS4-HMAC-SHA256\n" ++ String.ofList now.amzDate ++ "\n" ++
      String.ofList now.datestamp ++ "/" ++ a.region ++ "/transcribe/aws4_request\n" ++
      hexText (hash.sha256 (encode (canonicalRequest hash a query)))).toList := by
  have hopen : "AWS4-HMAC-SHA256\n".toList = algorithm ++ ['\n'] := by decide
  have hline : "\n".toList = ['\n'] := by decide
  have hslash : "/".toList = ['/'] := by decide
  have hscope : "/transcribe/aws4_request\n".toList =
      '/' :: (service ++ ("/aws4_request".toList ++ ['\n'])) := by decide
  rw [stringToSign, hex_eq]
  simp only [String.toList_append, String.toList_ofList, hopen, hline, hslash, hscope, List.append_assoc,
    List.cons_append, List.nil_append]

/-- The key of the code is the derived key. -/
theorem signingKey_eq (hash : Hash) (now : UtcTime) (a : Args) :
    signingKey hash.hmac (text a.credentials.secretKey) (String.ofList now.datestamp) a.region =
      hash.hmac (hash.hmac (hash.hmac
        (hash.hmac (encode ("AWS4".toList ++ (text a.credentials.secretKey).toList)) (encode now.datestamp))
        (encode a.region.toList)) (encode service)) (encode "aws4_request".toList) := by
  simp only [signingKey, List.foldl_cons, List.foldl_nil, ← encode_toList, String.toList_append,
    String.toList_ofList]
  rfl

/-- The code signs by the steps of the signing process. -/
theorem signs_signature (hash : Hash) (now : UtcTime) (a : Args) (query : List Char) :
    Signs hash now a (String.ofList query) (String.ofList (signature hash now a query)) := by
  refine ⟨String.ofList (canonicalRequest hash a query), String.ofList (stringToSign hash now a query),
    ?_, ?_, ?_⟩
  · rw [canonicalRequest_eq, String.ofList_toList]
  · rw [stringToSign_eq, String.ofList_toList, utf8_ofList]
  · rw [signature, hex_eq, String.ofList_toList, signingKey_eq, utf8_ofList]

/-! ### All arguments -/

theorem accepted_eq {hash : Hash} {now : UtcTime} {a : Args} {url : String}
    (h : buildTranscribePresignedUrl hash now a = .ok url) :
    url = "wss://transcribestreaming." ++ a.region ++
      ".amazonaws.com:8443/stream-transcription-websocket?" ++ String.ofList (canonicalQuerystring now a) ++
      "&X-Amz-Signature=" ++ String.ofList (signature hash now a (canonicalQuerystring now a)) := by
  rw [buildTranscribePresignedUrl] at h
  split_ifs at h
  have hpath : ".amazonaws.com:8443/stream-transcription-websocket?".toList =
      ".amazonaws.com:8443".toList ++ (canonicalUri ++ ['?']) := by decide
  have hendpoint : a.endpoint =
      "wss://transcribestreaming.".toList ++ a.region.toList ++ ".amazonaws.com:8443".toList := rfl
  rw [← Except.ok.inj h, ← String.toList_inj, hendpoint]
  simp only [String.toList_append, String.toList_ofList, hpath, List.append_assoc, List.cons_append,
    List.nil_append]

theorem isError_iff_refused (hash : Hash) (now : UtcTime) (a : Args) :
    (∃ message, buildTranscribePresignedUrl hash now a = .error message) ↔ a.Refused := by
  have hstrip : PyText.strip "" = "" := by decide
  rw [buildTranscribePresignedUrl]
  -- One refusal for each check.
  split_ifs with hcredentials hexclusive hoptions hcode
  · exact ⟨fun _ => .credentials (by simpa using hcredentials), fun _ => ⟨_, rfl⟩⟩
  · exact ⟨fun _ => .exclusive (by simpa using hexclusive), fun _ => ⟨_, rfl⟩⟩
  · refine ⟨fun _ => .options ?_, fun _ => ⟨_, rfl⟩⟩
    simp only [Bool.and_eq_true, Bool.not_eq_true', Bool.and_eq_false_iff, decide_eq_false_iff_not,
      not_not] at hoptions
    refine ⟨hoptions.1, hoptions.2.elim (fun hempty => ?_) id⟩
    rw [hempty, hstrip]
  · exact ⟨fun _ => .languageCode (by simpa using hcode), fun _ => ⟨_, rfl⟩⟩
  · refine ⟨fun ⟨_, h⟩ => (by cases h), fun h => ?_⟩
    exfalso
    cases h with
    | credentials h => exact hcredentials (by simpa using h)
    | exclusive h => exact hexclusive (by simpa using h)
    | options h => exact hoptions (by simp [h.1, h.2])
    | languageCode h => exact hcode (by simpa using h)

/-- What is accepted is presigned as it should be, and only what the docstring has is not accepted. -/
theorem presigning_canonical (hash : Hash) (now : UtcTime) (a : Args) (h : a.Plain) :
    (∀ url, buildTranscribePresignedUrl hash now a = .ok url →
      ∃ query, Canonical hash now a query url) ∧
    ((∃ message, buildTranscribePresignedUrl hash now a = .error message) ↔ a.Refused) := by
  refine ⟨fun url hurl => ⟨canonicalQuerystring now a, ?_⟩, isError_iff_refused hash now a⟩
  have hquery := canonicalQuerystring_eq now h
  have hsublist := params_sublist now a
  obtain ⟨p, ps, hparams⟩ : ∃ p ps, signingParams now a ++ requestParams a = p :: ps :=
    ⟨_, _, rfl⟩
  rw [hparams] at hquery hsublist
  refine ⟨?_, ?_, _, signs_signature hash now a _, accepted_eq hurl⟩
  · rw [hquery, names_write fun q hq =>
      allNames_unreserved _ (hsublist.subset (List.mem_map_of_mem hq))]
    exact allNames_sorted.sublist hsublist
  · rw [hquery, parse_write, hparams]

/-- Temporary credentials, and several languages. -/
def twoLanguages : Args where
  region := "us-east-1"
  credentials := ⟨some "AKID", some "secret", some "a+b/c=="⟩
  sampleRate := 16000
  identifyMultipleLanguages := true
  languageOptions := some "zh-HK,en-US"

/-- Nothing but the messages, in the place of digests. -/
def noHash : Hash := ⟨id, fun _ message => message⟩

theorem noon_valid :
    1 ≤ 2026 ∧ 2026 ≤ 9999 ∧ 1 ≤ 5 ∧ 5 ≤ 12 ∧ 1 ≤ 4 ∧ 4 ≤ Calendar.daysInMonth 2026 5 := by
  decide

def noon : UtcTime := ⟨⟨2026, 5, 4, noon_valid⟩, 12, 0, 0⟩

theorem twoLanguages_plain : twoLanguages.Plain :=
  ⟨by decide, by decide, by decide, by decide, by decide, by decide⟩

theorem presigning_canonical_twoLanguages : ∃ url query, Canonical noHash noon twoLanguages query url :=
  ⟨_, (presigning_canonical noHash noon twoLanguages twoLanguages_plain).1 _ rfl⟩

/-! ### The signer of stream B -/

/-- The arguments that the signer of stream B passes on. -/
def ofRequest (request : SignRequest) (stability : String)
    (identifyLanguage identifyMultipleLanguages : Bool)
    (languageOptions preferredLanguage : Option String) : Args where
  region := request.region
  credentials := ⟨request.accessKey, request.secretKey, request.sessionToken⟩
  sampleRate := request.sampleRate
  mediaEncoding := request.mediaEncoding
  identifyLanguage := identifyLanguage
  identifyMultipleLanguages := identifyMultipleLanguages
  languageOptions := languageOptions
  preferredLanguage := preferredLanguage
  enablePartialResultsStabilization := request.enablePartialResultsStabilization
  partialResultsStability := stability

theorem requestParams_ofRequest (request : SignRequest) (stability : String)
    (identifyLanguage identifyMultipleLanguages : Bool)
    (languageOptions preferredLanguage : Option String) :
    requestParams (ofRequest request stability identifyLanguage identifyMultipleLanguages languageOptions
      preferredLanguage) =
    (if request.enablePartialResultsStabilization then
      [("enable-partial-results-stabilization", "true")] else []) ++
    (if identifyLanguage then [("identify-language", "true")] else []) ++
    (if identifyMultipleLanguages then [("identify-multiple-languages", "true")] else []) ++
    optionalParam "language-options" languageOptions ++
    optionalParam "media-encoding" (some request.mediaEncoding) ++
    optionalParam "partial-results-stability" (some stability) ++
    optionalParam "preferred-language" preferredLanguage ++
    (if request.sampleRate = 0 then [] else [("sample-rate", toString request.sampleRate)]) := by
  have hcode : optionalParam "language-code" none = [] := rfl
  -- The rate is an integer on one side and a natural number on the other.
  have hrate : (if (request.sampleRate : ℤ) = 0 then [] else
      [("sample-rate", toString (request.sampleRate : ℤ))]) =
      if request.sampleRate = 0 then [] else [("sample-rate", toString request.sampleRate)] := by
    by_cases hzero : request.sampleRate = 0
    · rw [if_pos hzero, if_pos (Int.natCast_eq_zero.mpr hzero)]
    · rw [if_neg hzero, if_neg (Int.natCast_eq_zero.not.mpr hzero)]
      rfl
  simp only [requestParams, ofRequest, hcode, List.append_nil]
  congr 1

/-- What the seam of the connects calls a signed URL are the request parameters of the URL. -/
theorem signed_eq (hash : Hash) (now : UtcTime) (request : SignRequest) (stability : String)
    (identifyLanguage identifyMultipleLanguages : Bool)
    (languageOptions preferredLanguage : Option String) :
    let a := ofRequest request stability identifyLanguage identifyMultipleLanguages languageOptions
      preferredLanguage
    (buildTranscribePresignedUrl hash now a).map (fun _ => requestParams a) =
      Asr.buildTranscribePresignedUrl request stability identifyLanguage identifyMultipleLanguages
        languageOptions preferredLanguage := by
  intro a
  have hstrip : PyText.strip "" = "" := by decide
  have hcode : text a.languageCode = "" := rfl
  have hblank : (!(text a.languageOptions ≠ "" && PyText.strip (text a.languageOptions) ≠ "")) =
      decide (PyText.strip (PyText.orDefault languageOptions "") = "") := by
    show (!(decide (text languageOptions ≠ "") && decide (PyText.strip (text languageOptions) ≠ ""))) = _
    by_cases hempty : PyText.orDefault languageOptions "" = ""
    · simp [text, hempty, hstrip]
    · by_cases hspace : PyText.strip (PyText.orDefault languageOptions "") = ""
      · simp [text, hspace]
      · simp [text, hempty, hspace]
  have hexclusive : (a.identifyOn && decide (text a.languageCode ≠ "")) = false := by simp [hcode]
  have hneeded : (!a.identifyOn && decide (text a.languageCode = "")) = !a.identifyOn := by simp [hcode]
  rw [buildTranscribePresignedUrl, Asr.buildTranscribePresignedUrl, hblank, hexclusive, hneeded,
    if_neg Bool.false_ne_true]
  -- The two models test the same conditions in the same order.
  by_cases hcredentials : (text a.credentials.accessKey = "" || text a.credentials.secretKey = "") = true
  · rw [if_pos hcredentials]
    exact (if_pos hcredentials).symm
  rw [if_neg hcredentials]
  refine Eq.trans ?_ (if_neg hcredentials).symm
  by_cases hoptions : (a.identifyOn &&
      decide (PyText.strip (PyText.orDefault languageOptions "") = "")) = true
  · rw [if_pos hoptions]
    exact (if_pos hoptions).symm
  rw [if_neg hoptions]
  refine Eq.trans ?_ (if_neg hoptions).symm
  by_cases hneither : (!a.identifyOn) = true
  · rw [if_pos hneither]
    exact (if_pos hneither).symm
  rw [if_neg hneither]
  refine Eq.trans ?_ (if_neg hneither).symm
  exact congrArg Except.ok (requestParams_ofRequest ..)

end Presign

end Asr
