import VoiceAgentPlatform.Lib.Json
import VoiceAgentPlatform.Lib.Marker

/-!
# The MiniMax speech service

`SimpleMiniMaxTTSService.run_tts` of `bot.py`: a request for the speech of a text, answered by a stream
of server-sent events, which is read chunk by chunk.

* `request`: what is posted.
* `handleData`: what an event says, with the exceptions of Python for values of unexpected types.
* `processBlock`: one block of the stream, from its `data:` up to the next one.
* `readChunks`: the reader, with the buffer that it keeps between two chunks.
* `runTts`: all frames of a text.
-/

namespace Tts

abbrev Bytes := List UInt8

/-- The fields of the service that a request depends on. A setting that is `None` is `PyVal.none`. -/
structure Service where
  apiKey : String
  groupId : String
  baseUrl : String
  model : PyVal
  voice : PyVal
  speed : PyVal
  volume : PyVal
  pitch : PyVal
  emotion : PyVal
  languageBoost : PyVal
  audioBitrate : ℕ
  audioFormat : String
  audioChannel : ℕ
  audioSampleRate : ℕ
  sampleRate : ℕ

/-- `TTSService.chunk_size`: half a second of samples of two bytes. -/
def Service.chunkSize (service : Service) : ℕ := service.sampleRate

/-- What is posted to the service. -/
structure Request where
  url : String
  headers : List (String × String)
  json : PyDict

/-- An empty group id would be read as another account. -/
def requestUrl (service : Service) : String :=
  if service.groupId ≠ "" ∧ PyText.strip service.groupId ≠ "" then service.baseUrl
  else String.ofList (service.baseUrl.toList.takeWhile (· ≠ '?'))

/-- The settings of the voice. -/
def voiceSetting (service : Service) : PyDict :=
  let setting : PyDict := [("voice_id", service.voice), ("speed", service.speed),
    ("vol", service.volume), ("pitch", service.pitch)]
  match service.emotion with
  | .none => setting
  | emotion => setting.set "emotion" emotion

/-- The body of a request. -/
def payload (service : Service) (text : String) : PyDict :=
  let body : PyDict := [("stream", .bool true), ("model", service.model), ("text", .str text),
    ("voice_setting", .dict (voiceSetting service)),
    ("audio_setting", .dict [("bitrate", .int service.audioBitrate),
      ("format", .str service.audioFormat), ("channel", .int service.audioChannel),
      ("sample_rate", .int service.audioSampleRate)])]
  match service.languageBoost with
  | .none => body
  | .str "Chinese,Yue" =>
    -- The Cantonese reading of one character is forced.
    (body.set "language_boost" (.str "Chinese,Yue")).set "pronunciation_dict"
      (.dict [("tone", .list [.str "返/(faan1)"])])
  | boost => body.set "language_boost" boost

/-- What is posted for a text. -/
def request (service : Service) (text : String) : Request where
  url := requestUrl service
  headers := [("accept", "application/json, text/plain, */*"), ("Content-Type", "application/json"),
    ("Authorization", "Bearer " ++ service.apiKey)]
  json := payload service text

/-- What comes back: a failure before or while the connection is made, or a response with the chunks of
its body, after which the connection may break. -/
inductive Reply where
  | requestFailed (e : String)
  | connectFailed (e : String)
  | response (status : ℤ) (text : Except String String) (chunks : List Bytes) (broken : Option String)

/-- A frame of the pipeline. -/
inductive Frame where
  | audio (audio : Bytes) (sampleRate : ℕ) (numChannels : ℕ) (contextId : String)
  | error (error : String)
deriving DecidableEq

/-- `type(value).__name__`. -/
def typeName : PyVal → String
  | .none => "NoneType"
  | .bool _ => "bool"
  | .int _ => "int"
  | .float _ => "float"
  | .nan => "float"
  | .infinity _ => "float"
  | .decimal _ => "decimal.Decimal"
  | .str _ => "str"
  | .list _ => "list"
  | .dict _ => "dict"

/-- `value.get(key, default)`, which only a dictionary has. -/
def getKey (value : PyVal) (key : String) (default : PyVal) : Except String PyVal :=
  match value with
  | .dict d => .ok ((PyDict.get? d key).getD default)
  | value => .error ("'" ++ typeName value ++ "' object has no attribute 'get'")

/-- `key in value`. -/
def contains (value : PyVal) (key : String) : Except String Bool :=
  match value with
  | .dict d => .ok (PyDict.get? d key).isSome
  | .list xs => .ok (xs.any fun x => match x with
    | .str s => s = key
    | _ => false)
  | .str s => .ok (Marker.find key.toList s.toList).isSome
  | value => .error ("argument of type '" ++ typeName value ++ "' is not iterable")

/-- `value != 0`. -/
def notZero : PyVal → Bool
  | .bool b => b
  | .int i => i ≠ 0
  | .float q => q ≠ 0
  | .decimal q => q ≠ 0
  | _ => true

/-- The white space that `bytes.fromhex` skips. -/
def isHexSpace (c : Char) : Bool :=
  c = ' ' || c = '\t' || c = '\n' || c = '\r' || c.toNat = 11 || c.toNat = 12

/-- `bytes.fromhex` on the characters of a string: pairs of digits, with white space between them. -/
def hexBytes? : List Char → Option Bytes
  | [] => some []
  | [c] => if isHexSpace c then some [] else none
  | c :: d :: cs =>
    if isHexSpace c then hexBytes? (d :: cs)
    else do
      let high ← Json.hexValue? c
      let low ← Json.hexValue? d
      return UInt8.ofNat (high * 16 + low) :: (← hexBytes? cs)

/-- `bytes.fromhex(value)`, with `none` for its `ValueError`. -/
def fromHex (value : PyVal) : Except String (Option Bytes) :=
  match value with
  | .str s => .ok (hexBytes? s.toList)
  | value => .error ("fromhex() argument must be str, not " ++ typeName value)

/-- What a block leads to: nothing, audio, or the end of the stream with an error. -/
inductive Outcome where
  | skip
  | audio (pcm : Bytes)
  | error (message : PyVal)

/-- What the audio of an event leads to. -/
def handleAudio (audio : PyVal) : Except String Outcome :=
  let audioHex := audio.orElse (.str "")
  if !audioHex.truthy then .ok .skip
  else
    match fromHex audioHex with
    | .error e => .error e
    | .ok none => .ok .skip
    | .ok (some []) => .ok .skip
    | .ok (some (b :: bs)) => .ok (.audio (b :: bs))

/-- What the value of an event says. -/
def handleData (data : PyVal) : Except String Outcome := do
  let base := (← getKey (data.orElse (.dict [])) "base_resp" .none).orElse (.dict [])
  if notZero (← getKey base "status_code" (.int 0)) then
    return .error (← getKey base "status_msg" data)
  if ← contains data "extra_info" then
    -- The last event of a stream, a summary.
    return .skip
  let inner := (← getKey (data.orElse (.dict [])) "data" .none).orElse (.dict [])
  handleAudio (← getKey inner "audio" .none)

/-- `b"data:"`. -/
def marker : Bytes := [100, 97, 116, 97, 58]

/-- One block of the stream; what is no JSON text is passed over. -/
def processBlock [Json.Python] (block : Bytes) : Except String Outcome :=
  match String.fromUTF8? (block.drop 5).toByteArray with
  | none => .ok .skip
  | some text =>
    match Json.loads text with
    | .ok data => handleData data
    | .error .decode => .ok .skip
    -- Only a `JSONDecodeError` is caught.
    | .error (.digits n) =>
      .error ("Exceeds the limit (4300 digits) for integer string conversion: value has " ++ toString n ++
        " digits; use sys.set_int_max_str_digits() to increase the limit")
    | .error (.recursion what) =>
      .error ("maximum recursion depth exceeded while decoding a JSON " ++ what ++
        " from a unicode string")

/-- `pcm[i : i + size] for i in range(0, len(pcm), size)`. -/
def slices (size : ℕ) (pcm : Bytes) : List Bytes :=
  (List.range ((pcm.length + size - 1) / size)).map fun i => (pcm.drop (i * size)).take size

section

-- `str` writes a value into an f-string.
variable [Json.Python] (str : PyVal → String) (service : Service) (contextId : String)

/-- The frames of an event's audio. -/
def audioFrames (pcm : Bytes) : List Frame :=
  let chunkBytes := if service.chunkSize = 0 then 960 else service.chunkSize
  (slices chunkBytes pcm).map fun audio => .audio audio service.audioSampleRate 1 contextId

/-- The frame of an event that reports an error. -/
def errorFrame (message : PyVal) : Frame := .error ("MiniMax error: " ++ str message)

/-- The frame of an exception. -/
def failureFrame (e : String) : Frame := .error ("MiniMax stream failed: " ++ e)

/-- Walk all complete blocks of the buffer, of which `fuel` more may be read: the frames, and the buffer
that is kept, or `none` if the reader has returned. -/
def walkBuffer : ℕ → Bytes → List Frame × Option Bytes
  | 0, buffer => ([], some buffer)
  | fuel + 1, buffer =>
    match Marker.find marker buffer with
    | none => ([], some buffer)
    | some start =>
      match Marker.find marker (buffer.drop (start + 5)) with
      -- The block may go on in the next chunk.
      | none => ([], some (buffer.drop start))
      | some n =>
        let block := (buffer.drop start).take (5 + n)
        let rest := buffer.drop (start + 5 + n)
        match processBlock block with
        -- A block that cannot be read ends the stream.
        | .error e => ([failureFrame e], none)
        | .ok .skip => walkBuffer fuel rest
        | .ok (.error message) => ([errorFrame str message], none)
        | .ok (.audio pcm) =>
          let later := walkBuffer fuel rest
          (audioFrames service contextId pcm ++ later.1, later.2)

/-- The reader: the frames of the chunks that are still to come, and whether it has not returned. -/
def readChunks : Bytes → List Bytes → List Frame × Bool
  | _, [] => ([], true)
  | buffer, raw :: chunks =>
    if raw = [] then readChunks buffer chunks
    else
      match walkBuffer str service contextId ((buffer ++ raw).length + 1) (buffer ++ raw) with
      | (frames, none) => (frames, false)
      | (frames, some buffer) =>
        let later := readChunks buffer chunks
        (frames ++ later.1, later.2)

/-- `run_tts`: what is left in the buffer when the stream ends is not looked at. -/
def runTts (post : Request → Reply) (text : String) : List Frame :=
  match post (request service text) with
  | .requestFailed e => [.error ("MiniMax request failed: " ++ e)]
  | .connectFailed e => [failureFrame e]
  | .response status body chunks broken =>
    if status ≠ 200 then
      match body with
      | .error e => [failureFrame e]
      | .ok body =>
        [.error ("MiniMax HTTP " ++ toString status ++ ": " ++ String.ofList (body.toList.take 200))]
    else
      -- A stream that breaks off says so behind the frames it has given.
      match readChunks str service contextId [] chunks, broken with
      | (frames, true), some e => frames ++ [failureFrame e]
      | (frames, _), _ => frames

end

end Tts
