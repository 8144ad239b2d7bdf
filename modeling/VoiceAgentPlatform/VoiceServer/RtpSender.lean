import Mathlib.Data.List.Forall2
import VoiceAgentPlatform.Lib.Run
import VoiceAgentPlatform.VoiceServer.RtpPacket
import VoiceAgentPlatform.VoiceServer.RtpSession

/-!
# The RTP sender

The outbound queue of `rtp-session.ts` and its send timer. The mu-law encoder is a parameter.

* `RtpAudio`: a session with its queue and the numbers of its next packet.
* `sendAudio`, `clearQueue`, `setMuted`, `tick`: its methods, and one turn of the send timer.
* `sendings`: the packets of a run of these events.
* `IsPacket`, `Encodes`: the bytes of a datagram, and the payload for PCM.
* `StreamPreserved`: the packets carry the audio that was accepted; `stream_preserved` says that they
  do in every run.
-/

namespace VoiceServer

/-- `SAMPLES_PER_PACKET`. -/
def samplesPerPacket : ℕ := 160

/-- `MULAW_SILENCE`. -/
def mulawSilence : UInt8 := 0xFF

/-- An RTP session with its outbound audio. -/
structure RtpAudio extends RtpSession where
  sequenceNumber : BitVec 16
  timestamp : BitVec 32
  ssrc : BitVec 32
  outboundQueue : List (List UInt8)
  muted : Bool

/-- The samples of PCM bytes, which have the low byte first. -/
def pcmSamples : List UInt8 → List (BitVec 16)
  | low :: high :: pcm => .ofNat 16 (low.toNat + 256 * high.toNat) :: pcmSamples pcm
  | _ => []

/-- The loop of `drainQueue`: the chunks that make up `remaining` bytes, and the queue that is left. -/
def drain : ℕ → List (List UInt8) → List (List UInt8) × List (List UInt8)
  | _, [] => ([], [])
  | remaining, chunk :: queue =>
    if remaining = 0 then ([], chunk :: queue)
    else if chunk.length ≤ remaining then
      let (chunks, queue) := drain (remaining - chunk.length) queue
      (chunk :: chunks, queue)
    else
      -- The chunk is split, and what is left of it stays at the head of the queue.
      ([chunk.take remaining], chunk.drop remaining :: queue)

/-- `drainQueue`: the bytes, padded with silence, and the queue that is left. -/
def drainQueue (bytes : ℕ) (queue : List (List UInt8)) : List UInt8 × List (List UInt8) :=
  let (chunks, queue) := drain bytes queue
  let result := chunks.flatten
  if result.length < bytes then (result ++ List.replicate (bytes - result.length) 0, queue)
  else (result, queue)

/-- The payload for the PCM of a packet, or for a silent packet. -/
def payloadOf (encode : List (BitVec 16) → List UInt8) : Option (List UInt8) → List UInt8
  | some pcm => encode (pcmSamples pcm)
  | none => List.replicate samplesPerPacket mulawSilence

namespace RtpAudio

/-- A session that has been created, with its random numbers. -/
def new (localPort : ℕ) (sequenceNumber : BitVec 16) (timestamp ssrc : BitVec 32) : RtpAudio :=
  { RtpSession.new localPort with
    sequenceNumber, timestamp, ssrc, outboundQueue := [], muted := false }

/-- `sendAudio`. -/
def sendAudio (r : RtpAudio) (pcmBuffer : List UInt8) : RtpAudio :=
  if !r.running then r
  else if r.muted then r
  else { r with outboundQueue := r.outboundQueue ++ [pcmBuffer] }

/-- `clearQueue`. -/
def clearQueue (r : RtpAudio) : RtpAudio := { r with outboundQueue := [] }

/-- `setMuted`. -/
def setMuted (r : RtpAudio) (muted : Bool) : RtpAudio :=
  if r.muted = muted then r
  else { r with muted, outboundQueue := if muted then [] else r.outboundQueue }

/-- The PCM of the next packet, none for silence, and the queue that is left. -/
def nextFrame (r : RtpAudio) : Option (List UInt8) × List (List UInt8) :=
  if r.outboundQueue ≠ [] then
    let (pcm, queue) := drainQueue (samplesPerPacket * 2) r.outboundQueue
    (some pcm, queue)
  else (none, [])

/-- One turn of the send timer: the session, and the packet that it sends, if it does. -/
def tick (encode : List (BitVec 16) → List UInt8) (r : RtpAudio) : RtpAudio × Option (List UInt8) :=
  if !r.running || !r.socket || r.remoteIp = "" || r.remotePort = 0 then (r, none)
  -- `send` throws for a number that is no port: the PCM is taken, and the numbers stay.
  else if ¬ (0 < r.remotePort ∧ r.remotePort < 65536) then ({ r with outboundQueue := r.nextFrame.2 }, none)
  else
    let (pcm, queue) := r.nextFrame
    -- Both numbers wrap around, the sequence number at 16 bits and the timestamp at 32.
    ({ r with
        outboundQueue := queue
        sequenceNumber := r.sequenceNumber + 1
        timestamp := r.timestamp + .ofNat 32 samplesPerPacket },
      some (buildPacket r.sequenceNumber r.timestamp r.ssrc (payloadOf encode pcm)))

/-- The session is started and has a remote endpoint, with a port of UDP. A muted session has an empty
queue, as the methods ensure. -/
structure Sending (r : RtpAudio) : Prop where
  running : r.running = true
  socket : r.socket = true
  remoteIp : r.remoteIp ≠ ""
  remotePort : 0 < r.remotePort ∧ r.remotePort < 65536
  quiet : r.muted = true → r.outboundQueue = []

end RtpAudio

open RtpAudio

/-- What happens to a session while it sends. -/
inductive AudioEvent where
  | sendAudio (pcmBuffer : List UInt8)
  | clearQueue
  | setMuted (muted : Bool)
  | tick
  deriving DecidableEq

/-- A packet that was sent, with the PCM that it encodes, and whether the queue ran dry. -/
structure Sent where
  datagram : List UInt8
  frame : Option (List UInt8)
  dry : Bool

variable (encode : List (BitVec 16) → List UInt8)

/-- The session after an event. -/
def audioStep (r : RtpAudio) : AudioEvent → RtpAudio
  | .sendAudio pcmBuffer => r.sendAudio pcmBuffer
  | .clearQueue => r.clearQueue
  | .setMuted muted => r.setMuted muted
  | .tick => (r.tick encode).1

/-- The packet that an event sends. -/
def sentBy (r : RtpAudio) : AudioEvent → Option Sent
  | .tick => (r.tick encode).2.map fun datagram =>
    { datagram, frame := r.nextFrame.1, dry := r.nextFrame.2.flatten.isEmpty }
  | _ => none

/-- The packets that a run sends. -/
def sendings : RtpAudio → List AudioEvent → List Sent
  | _, [] => []
  | r, e :: es => (sentBy encode r e).toList ++ sendings (audioStep encode r e) es

/-- The bytes that an event adds to the stream: nothing is accepted while the session is muted. -/
def accepted (r : RtpAudio) : AudioEvent → List UInt8
  | .sendAudio pcmBuffer => if r.running && !r.muted then pcmBuffer else []
  | _ => []

/-- The bytes that a run adds to the stream. -/
def acceptedIn : RtpAudio → List AudioEvent → List UInt8
  | _, [] => []
  | r, e :: es => accepted r e ++ acceptedIn (audioStep encode r e) es

/-- The event clears the queue, or mutes the session. -/
def Cuts (r : RtpAudio) : AudioEvent → Prop
  | .clearQueue => True
  | .setMuted muted => muted = true ∧ r.muted = false
  | _ => False

/-- The packet carries `data`, filled up with zeros only if the queue ran dry. -/
structure Carries (data : List UInt8) (p : Sent) : Prop where
  fits : data.length ≤ samplesPerPacket * 2
  frame : (p.frame = none ∧ data = []) ∨
    p.frame = some (data ++ List.replicate (samplesPerPacket * 2 - data.length) 0)
  dry : data.length < samplesPerPacket * 2 → p.dry = true

/-- The number that bytes are, the highest one first. -/
def bigEndian (bytes : List UInt8) : ℕ := bytes.foldl (fun n b => n * 256 + b.toNat) 0

/-- The datagram is an RTP packet of version 2 and payload type 0, without padding, extension, CSRC and
marker: a header of 12 bytes with these numbers, and the payload behind it. -/
structure IsPacket (datagram : List UInt8) (sequenceNumber timestamp ssrc : ℕ) (payload : List UInt8) :
    Prop where
  flags : datagram.take 2 = [0x80, 0x00]
  sequenceNumber : bigEndian ((datagram.drop 2).take 2) = sequenceNumber
  timestamp : bigEndian ((datagram.drop 4).take 4) = timestamp
  ssrc : bigEndian ((datagram.drop 8).take 4) = ssrc
  length : datagram.length = 12 + payload.length
  payload : datagram.drop 12 = payload

/-- The payload is the encoding of the samples whose bytes are the PCM, or 160 bytes of silence. -/
def Encodes (payload : List UInt8) : Option (List UInt8) → Prop
  | some pcm => ∃ samples, pcmBytes samples = pcm ∧ payload = encode samples
  | none => payload = List.replicate 160 0xFF

/-- The packets of a run carry its audio. -/
structure StreamPreserved (r : RtpAudio) (es : List AudioEvent) : Prop where
  /-- Every turn of the timer sends one packet. -/
  one_per_tick : (sendings encode r es).length = es.count .tick
  /-- The packets have 160 bytes of payload and are numbered one after the other. -/
  numbered : ∀ i p, (sendings encode r es)[i]? = some p →
    ∃ payload, payload.length = 160 ∧ Encodes encode payload p.frame ∧
      IsPacket p.datagram ((r.sequenceNumber.toNat + i) % 2 ^ 16)
        ((r.timestamp.toNat + 160 * i) % 2 ^ 32) r.ssrc.toNat payload
  /-- Where nothing is cleared or muted, the packets carry what was in the queue and what was
  accepted, in this order, up to what is in the queue in the end. -/
  conserved : ∀ pre part post, es = pre ++ part ++ post →
    Run.Guarded (audioStep encode) (fun r e => ¬ Cuts r e) (Run.exec (audioStep encode) r pre) part →
    ∃ data, List.Forall₂ Carries data (sendings encode (Run.exec (audioStep encode) r pre) part) ∧
      data.flatten ++ (Run.exec (audioStep encode) r (pre ++ part)).outboundQueue.flatten =
        (Run.exec (audioStep encode) r pre).outboundQueue.flatten ++
          acceptedIn encode (Run.exec (audioStep encode) r pre) part
  /-- Nothing from before a cut is left. -/
  cut : ∀ pre e post, es = pre ++ e :: post → Cuts (Run.exec (audioStep encode) r pre) e →
    (Run.exec (audioStep encode) r (pre ++ [e])).outboundQueue = []
  /-- Nothing is in the queue of a muted session. -/
  quiet : ∀ pre post, es = pre ++ post → (Run.exec (audioStep encode) r pre).muted = true →
    (Run.exec (audioStep encode) r pre).outboundQueue = []

/-! ### Draining the queue -/

/-- No byte is lost or taken twice. -/
theorem flatten_drain (n : ℕ) (queue : List (List UInt8)) :
    (drain n queue).1.flatten ++ (drain n queue).2.flatten = queue.flatten := by
  induction queue generalizing n with
  | nil => rfl
  | cons chunk queue ih =>
    rw [drain]
    split_ifs with hzero hfits
    · rfl
    · show (chunk ++ _) ++ _ = chunk ++ queue.flatten
      rw [List.append_assoc, ih]
    · show (chunk.take n ++ []) ++ (chunk.drop n ++ queue.flatten) = chunk ++ queue.flatten
      rw [List.append_nil, ← List.append_assoc, List.take_append_drop]

theorem length_drain_le (n : ℕ) (queue : List (List UInt8)) :
    (drain n queue).1.flatten.length ≤ n := by
  induction queue generalizing n with
  | nil => exact Nat.zero_le n
  | cons chunk queue ih =>
    rw [drain]
    split_ifs with hzero hfits
    · exact Nat.zero_le n
    · show (chunk ++ _).length ≤ n
      rw [List.length_append]
      have := ih (n - chunk.length)
      omega
    · show (chunk.take n ++ []).length ≤ n
      rw [List.append_nil]
      exact List.length_take_le n chunk

/-- If the bytes do not suffice, nothing is left. -/
theorem drain_eq_nil_of_lt {n : ℕ} {queue : List (List UInt8)}
    (h : (drain n queue).1.flatten.length < n) : (drain n queue).2 = [] := by
  induction queue generalizing n with
  | nil => rfl
  | cons chunk queue ih =>
    rw [drain] at h ⊢
    split_ifs at h ⊢ with hzero hfits
    · omega
    · apply ih
      have hlength : (chunk ++ (drain (n - chunk.length) queue).1.flatten).length < n := h
      rw [List.length_append] at hlength
      omega
    · have hlength : (chunk.take n ++ []).length < n := h
      rw [List.append_nil, List.length_take] at hlength
      omega

/-- A drained packet is the bytes that were taken, filled up with zeros. -/
theorem drainQueue_eq (n : ℕ) (queue : List (List UInt8)) :
    drainQueue n queue = ((drain n queue).1.flatten ++
      List.replicate (n - (drain n queue).1.flatten.length) 0, (drain n queue).2) := by
  have hle := length_drain_le n queue
  show (if _ then _ else _) = _
  split_ifs with hshort
  · rfl
  · rw [Nat.sub_eq_zero_of_le (Nat.le_of_not_lt hshort), List.replicate_zero, List.append_nil]

theorem length_pcmSamples (pcm : List UInt8) : (pcmSamples pcm).length = pcm.length / 2 := by
  induction pcm using pcmSamples.induct with
  | case1 low high pcm ih =>
    rw [pcmSamples, List.length_cons, ih, List.length_cons, List.length_cons]
    omega
  | case2 pcm hshort =>
    match pcm with
    | [] => rfl
    | [_] => simp [pcmSamples]
    | low :: high :: rest => exact absurd rfl (hshort low high rest)

/-- The samples of PCM bytes have those bytes. -/
theorem pcmBytes_pcmSamples {pcm : List UInt8} (h : pcm.length % 2 = 0) :
    pcmBytes (pcmSamples pcm) = pcm := by
  induction pcm using pcmSamples.induct with
  | case1 low high pcm ih =>
    -- The two bytes of the first sample are those that it was made of.
    have hlow : UInt8.ofNat ((low.toNat + 256 * high.toNat) % 2 ^ 16) = low := by
      apply UInt8.toNat_inj.mp
      have := low.toNat_lt
      rw [UInt8.toNat_ofNat']
      omega
    have hhigh : UInt8.ofNat ((low.toNat + 256 * high.toNat) % 2 ^ 16 / 256) = high := by
      apply UInt8.toNat_inj.mp
      have := low.toNat_lt
      have := high.toNat_lt
      rw [UInt8.toNat_ofNat']
      omega
    have hrest := ih (by simp only [List.length_cons] at h; omega)
    rw [pcmBytes] at hrest
    rw [pcmSamples, pcmBytes, List.flatMap_cons, hrest, BitVec.toNat_ofNat, hlow, hhigh]
    rfl
  | case2 pcm hshort =>
    match pcm with
    | [] => rfl
    | [_] => cases h
    | low :: high :: rest => exact absurd rfl (hshort low high rest)

/-! ### Packets -/

theorem bigEndian_be16 (v : BitVec 16) : bigEndian (be16 v) = v.toNat := by
  have := v.isLt
  simp only [bigEndian, be16, List.foldl_cons, List.foldl_nil, UInt8.toNat_ofNat']
  omega

theorem bigEndian_be32 (v : BitVec 32) : bigEndian (be32 v) = v.toNat := by
  have := v.isLt
  simp only [bigEndian, be32, List.foldl_cons, List.foldl_nil, UInt8.toNat_ofNat']
  omega

/-- A packet that was built has its numbers and its payload. -/
theorem isPacket_buildPacket (sequenceNumber : BitVec 16) (timestamp ssrc : BitVec 32)
    (payload : List UInt8) :
    IsPacket (buildPacket sequenceNumber timestamp ssrc payload) sequenceNumber.toNat timestamp.toNat
      ssrc.toNat payload where
  flags := rfl
  sequenceNumber := bigEndian_be16 sequenceNumber
  timestamp := bigEndian_be32 timestamp
  ssrc := bigEndian_be32 ssrc
  length := by
    simp only [buildPacket, List.length_append, List.length_cons, List.length_nil, length_be16, length_be32]
  payload := rfl

/-! ### One event -/

variable {encode} {r : RtpAudio} {e : AudioEvent}

namespace RtpAudio

theorem Sending.tick_eq (h : r.Sending) : r.tick encode =
    ({ r with
        outboundQueue := r.nextFrame.2
        sequenceNumber := r.sequenceNumber + 1
        timestamp := r.timestamp + .ofNat 32 samplesPerPacket },
      some (buildPacket r.sequenceNumber r.timestamp r.ssrc (payloadOf encode r.nextFrame.1))) := by
  have hport : r.remotePort ≠ 0 := (Int.ne_of_lt h.remotePort.1).symm
  rw [tick, if_neg (by simp [h.running, h.socket, h.remoteIp, hport]), if_neg (not_not.mpr h.remotePort)]

/-- A packet carries what it takes from the queue. -/
theorem nextFrame_carries (datagram : List UInt8) :
    ∃ data, Carries data
        { datagram, frame := r.nextFrame.1, dry := r.nextFrame.2.flatten.isEmpty } ∧
      data ++ r.nextFrame.2.flatten = r.outboundQueue.flatten := by
  by_cases hempty : r.outboundQueue = []
  · refine ⟨[], ⟨Nat.zero_le _, Or.inl ⟨?_, rfl⟩, fun _ => ?_⟩, ?_⟩
    all_goals simp [nextFrame, hempty]
  · have hnext : r.nextFrame = (some (drainQueue (samplesPerPacket * 2) r.outboundQueue).1,
        (drainQueue (samplesPerPacket * 2) r.outboundQueue).2) := if_pos hempty
    rw [hnext, drainQueue_eq]
    refine ⟨(drain (samplesPerPacket * 2) r.outboundQueue).1.flatten,
      ⟨length_drain_le _ _, Or.inr rfl, fun hshort => ?_⟩, flatten_drain _ _⟩
    show (List.flatten _).isEmpty = true
    rw [drain_eq_nil_of_lt hshort]
    rfl

end RtpAudio

/-- Every event keeps the session sending. -/
theorem sending_audioStep (h : r.Sending) (e : AudioEvent) : (audioStep encode r e).Sending := by
  rcases e with pcmBuffer | - | muted | -
  · show (r.sendAudio pcmBuffer).Sending
    rw [sendAudio]
    split_ifs with hstopped hmuted
    · exact h
    · exact h
    · exact ⟨h.running, h.socket, h.remoteIp, h.remotePort, fun hm => absurd hm hmuted⟩
  · exact ⟨h.running, h.socket, h.remoteIp, h.remotePort, fun _ => rfl⟩
  · show (r.setMuted muted).Sending
    rw [setMuted]
    -- Unmuting keeps the queue, muting empties it.
    split_ifs with hsame hmuted
    · exact h
    · exact ⟨h.running, h.socket, h.remoteIp, h.remotePort, fun _ => rfl⟩
    · exact ⟨h.running, h.socket, h.remoteIp, h.remotePort, fun hm => absurd hm hmuted⟩
  · show (r.tick encode).1.Sending
    rw [h.tick_eq]
    refine ⟨h.running, h.socket, h.remoteIp, h.remotePort, fun hmuted => ?_⟩
    show r.nextFrame.2 = []
    rw [nextFrame, if_neg (not_not.mpr (h.quiet hmuted))]

variable (encode) in
/-- What an event that does not cut the stream sends and leaves in the queue is what was in the queue
and what it adds. -/
theorem RtpAudio.Sending.conserved_step (h : r.Sending) (hcut : ¬ Cuts r e) :
    ∃ data, List.Forall₂ Carries data (sentBy encode r e).toList ∧
      data.flatten ++ (audioStep encode r e).outboundQueue.flatten =
        r.outboundQueue.flatten ++ accepted r e := by
  rcases e with pcmBuffer | - | muted | -
  · refine ⟨[], List.Forall₂.nil, ?_⟩
    show (r.sendAudio pcmBuffer).outboundQueue.flatten = _ ++ (if _ then _ else _)
    rw [sendAudio, h.running]
    cases r.muted <;> simp
  · exact absurd trivial hcut
  · refine ⟨[], List.Forall₂.nil, ?_⟩
    show (r.setMuted muted).outboundQueue.flatten = r.outboundQueue.flatten ++ []
    rw [List.append_nil, setMuted]
    split_ifs with hsame hmuted
    · rfl
    · -- The session would have been muted before.
      have hwas : r.muted = false := by
        rw [hmuted] at hsame
        exact Bool.eq_false_iff.mpr hsame
      exact absurd ⟨hmuted, hwas⟩ hcut
    · rfl
  · obtain ⟨data, hcarries, hqueue⟩ := nextFrame_carries (r := r)
      (buildPacket r.sequenceNumber r.timestamp r.ssrc (payloadOf encode r.nextFrame.1))
    refine ⟨[data], ?_, ?_⟩
    · rw [sentBy, h.tick_eq]
      exact List.Forall₂.cons hcarries List.Forall₂.nil
    · show [data].flatten ++ (r.tick encode).1.outboundQueue.flatten = _ ++ []
      rw [h.tick_eq, List.append_nil, List.flatten_singleton]
      exact hqueue

/-- The payload of a packet encodes its PCM, with one byte for each of the samples. -/
theorem encodes_nextPayload (hencode : ∀ samples, (encode samples).length = samples.length) :
    (payloadOf encode r.nextFrame.1).length = 160 ∧
      Encodes encode (payloadOf encode r.nextFrame.1) r.nextFrame.1 := by
  rw [nextFrame]
  split_ifs with hempty
  · have hle := length_drain_le (samplesPerPacket * 2) r.outboundQueue
    have hlength : (drainQueue (samplesPerPacket * 2) r.outboundQueue).1.length = 320 := by
      rw [drainQueue_eq, List.length_append, List.length_replicate, Nat.add_sub_of_le hle]
      rfl
    refine ⟨?_, _, pcmBytes_pcmSamples (by omega), rfl⟩
    show (encode (pcmSamples (drainQueue (samplesPerPacket * 2) r.outboundQueue).1)).length = 160
    rw [hencode, length_pcmSamples, hlength]
  · exact ⟨List.length_replicate, rfl⟩

/-! ### Runs -/

theorem sending_exec (h : r.Sending) (es : List AudioEvent) :
    (Run.exec (audioStep encode) r es).Sending :=
  Run.exec_invariant (I := Sending) (fun _ e h => sending_audioStep h e) h es

/-- A run that does not cut the stream. -/
theorem RtpAudio.Sending.conserved (h : r.Sending) {es : List AudioEvent}
    (hcut : Run.Guarded (audioStep encode) (fun r e => ¬ Cuts r e) r es) :
    ∃ data, List.Forall₂ Carries data (sendings encode r es) ∧
      data.flatten ++ (Run.exec (audioStep encode) r es).outboundQueue.flatten =
        r.outboundQueue.flatten ++ acceptedIn encode r es := by
  induction es generalizing r with
  | nil =>
    refine ⟨[], List.Forall₂.nil, ?_⟩
    rw [acceptedIn, List.append_nil]
    rfl
  | cons e es ih =>
    obtain ⟨data, hcarries, hqueue⟩ := h.conserved_step encode hcut.1
    obtain ⟨data', hcarries', hqueue'⟩ := ih (sending_audioStep h e) hcut.2
    refine ⟨data ++ data', List.rel_append hcarries hcarries', ?_⟩
    -- What is sent first, then what the rest of the run does with the queue.
    calc (data ++ data').flatten ++ (Run.exec (audioStep encode) r (e :: es)).outboundQueue.flatten
        = data.flatten ++ (data'.flatten ++
            (Run.exec (audioStep encode) (audioStep encode r e) es).outboundQueue.flatten) := by
          rw [List.flatten_append, List.append_assoc]
          rfl
      _ = data.flatten ++ ((audioStep encode r e).outboundQueue.flatten ++
            acceptedIn encode (audioStep encode r e) es) := by rw [hqueue']
      _ = (r.outboundQueue.flatten ++ accepted r e) ++
            acceptedIn encode (audioStep encode r e) es := by rw [← List.append_assoc, hqueue]
      _ = r.outboundQueue.flatten ++ acceptedIn encode r (e :: es) := List.append_assoc _ _ _

variable (encode) in
/-- The numbers of the next packet, after an event that sends a packet and after any other one. -/
theorem RtpAudio.Sending.numbers_step (h : r.Sending) (e : AudioEvent) :
    (audioStep encode r e).ssrc = r.ssrc ∧
      (sentBy encode r e).toList.length = [e].count .tick ∧
      (audioStep encode r e).sequenceNumber =
        r.sequenceNumber + .ofNat 16 ([e].count .tick) ∧
      (audioStep encode r e).timestamp =
        r.timestamp + .ofNat 32 (160 * [e].count .tick) := by
  rcases e with pcmBuffer | - | muted | -
  · show (r.sendAudio pcmBuffer).ssrc = _ ∧ _ ∧ (r.sendAudio pcmBuffer).sequenceNumber = _ ∧
      (r.sendAudio pcmBuffer).timestamp = _
    rw [sendAudio]
    split_ifs <;> simp [sentBy]
  · simp [audioStep, clearQueue, sentBy]
  · show (r.setMuted muted).ssrc = _ ∧ _ ∧ (r.setMuted muted).sequenceNumber = _ ∧
      (r.setMuted muted).timestamp = _
    rw [setMuted]
    split_ifs <;> simp [sentBy]
  · -- A turn of the timer sends, as the session does.
    rw [audioStep, sentBy, h.tick_eq]
    exact ⟨rfl, rfl, rfl, rfl⟩

/-- The packet of an event has the numbers of the session. -/
theorem RtpAudio.Sending.sentBy_eq_some (h : r.Sending) {p : Sent}
    (hp : sentBy encode r e = some p) :
    p.frame = r.nextFrame.1 ∧
      p.datagram = buildPacket r.sequenceNumber r.timestamp r.ssrc (payloadOf encode p.frame) := by
  rcases e with pcmBuffer | - | muted | -
  all_goals try cases hp
  rw [sentBy, h.tick_eq] at hp
  obtain rfl := Option.some.inj hp
  exact ⟨rfl, rfl⟩

/-- The packets of a run are numbered from those of the session on. -/
theorem RtpAudio.Sending.numbered
    (hencode : ∀ samples, (encode samples).length = samples.length) (h : r.Sending)
    (es : List AudioEvent) (i : ℕ) (p : Sent) (hp : (sendings encode r es)[i]? = some p) :
    ∃ payload, payload.length = 160 ∧ Encodes encode payload p.frame ∧
      IsPacket p.datagram ((r.sequenceNumber.toNat + i) % 2 ^ 16)
        ((r.timestamp.toNat + 160 * i) % 2 ^ 32) r.ssrc.toNat payload := by
  induction es generalizing r i with
  | nil => cases hp
  | cons e es ih =>
    obtain ⟨hssrc, hlength, hsequence, htimestamp⟩ := h.numbers_step encode e
    rw [sendings] at hp
    rcases Nat.lt_or_ge i (sentBy encode r e).toList.length with hfirst | hlater
    · -- The packet of the first event.
      rw [List.getElem?_append_left hfirst] at hp
      have hmem : p ∈ (sentBy encode r e).toList := List.mem_of_getElem? hp
      obtain ⟨hframe, hdatagram⟩ := h.sentBy_eq_some (Option.mem_toList.mp hmem)
      have hone : (sentBy encode r e).toList.length ≤ 1 := by
        cases sentBy encode r e <;> simp
      obtain rfl : i = 0 := by omega
      have hpayload := @encodes_nextPayload encode r hencode
      refine ⟨payloadOf encode p.frame, ?_, ?_, ?_⟩
      · rw [hframe]
        exact hpayload.1
      · rw [hframe]
        exact hpayload.2
      · rw [hdatagram, Nat.add_zero, Nat.mul_zero, Nat.add_zero, Nat.mod_eq_of_lt r.sequenceNumber.isLt,
          Nat.mod_eq_of_lt r.timestamp.isLt]
        exact isPacket_buildPacket _ _ _ _
    · rw [List.getElem?_append_right hlater] at hp
      obtain ⟨payload, hpayload, hencodes, hpacket⟩ := ih (sending_audioStep h e) _ hp
      refine ⟨payload, hpayload, hencodes, ?_⟩
      rw [hlength] at hlater hpacket
      have hindex : [e].count .tick + (i - [e].count .tick) = i := Nat.add_sub_cancel' hlater
      -- The later packets are counted from the session after the first event.
      have hnumber : ((audioStep encode r e).sequenceNumber.toNat + (i - [e].count .tick)) % 2 ^ 16 =
          (r.sequenceNumber.toNat + i) % 2 ^ 16 := by
        rw [hsequence, BitVec.toNat_add, BitVec.toNat_ofNat]
        omega
      have htime : ((audioStep encode r e).timestamp.toNat + 160 * (i - [e].count .tick)) % 2 ^ 32 =
          (r.timestamp.toNat + 160 * i) % 2 ^ 32 := by
        rw [htimestamp, BitVec.toNat_add, BitVec.toNat_ofNat]
        omega
      rwa [hnumber, htime, hssrc] at hpacket

/-- A run sends one packet for each turn of the timer. -/
theorem RtpAudio.Sending.length_sendings (h : r.Sending) (es : List AudioEvent) :
    (sendings encode r es).length = es.count .tick := by
  induction es generalizing r with
  | nil => rfl
  | cons e es ih =>
    obtain ⟨-, hlength, -⟩ := h.numbers_step encode e
    rw [sendings, List.length_append, hlength, ih (sending_audioStep h e), ← List.count_append]
    rfl

/-- A cut empties the queue. -/
theorem outboundQueue_of_cuts (hcut : Cuts r e) : (audioStep encode r e).outboundQueue = [] := by
  rcases e with pcmBuffer | - | muted | -
  · exact absurd hcut id
  · rfl
  · obtain ⟨rfl, hwas⟩ := hcut
    show (r.setMuted true).outboundQueue = []
    rw [setMuted, if_neg (by simp [hwas])]
    rfl
  · exact absurd hcut id

/-- Whatever is queued, cleared and muted between the turns of the timer: every turn sends one packet
of 160 bytes, the packets are numbered one after the other, and between two cuts they carry the audio
that was accepted, in order, with zeros only where the queue ran dry. -/
theorem stream_preserved (encode : List (BitVec 16) → List UInt8)
    (hencode : ∀ samples, (encode samples).length = samples.length) (r : RtpAudio) (h : r.Sending)
    (es : List AudioEvent) : StreamPreserved encode r es where
  one_per_tick := h.length_sendings es
  numbered := h.numbered hencode es
  conserved pre part post hes hcut := by
    rw [Run.exec_append]
    exact (sending_exec h pre).conserved hcut
  cut pre e post hes hcut := by
    rw [Run.exec_append]
    exact outboundQueue_of_cuts hcut
  quiet pre post hes := (sending_exec h pre).quiet

/-- The mu-law encoding of one sample. -/
def encodeSample (sample : BitVec 16) : UInt8 :=
  let sign := if sample.msb then 0x80 else 0
  -- The magnitude is clipped and biased, which leaves its highest bit between the bits 7 and 14.
  let magnitude := min sample.toInt.natAbs 32635 + 0x84
  let exponent := Nat.log2 (magnitude / 128)
  .ofNat (255 - (sign + exponent * 16 + magnitude / 2 ^ (exponent + 3) % 16))

/-- A session whose numbers are about to wrap around. -/
def startedSession : RtpAudio :=
  let r := RtpAudio.new 40000 65535 4294967200 7
  { r with toRtpSession := (r.toRtpSession.start.listening).setRemote "10.0.0.1" 4000 }

/-- More than one packet of audio is queued, the second packet is filled up, a third one is silent. -/
theorem stream_preserved_twoPackets :
    StreamPreserved (List.map encodeSample) startedSession
      [.sendAudio (List.replicate 400 1), .tick, .tick, .setMuted true,
        .sendAudio (List.replicate 40 2), .tick] :=
  stream_preserved _ (fun _ => List.length_map _) startedSession
    ⟨rfl, rfl, by decide, ⟨by decide, by decide⟩, fun _ => rfl⟩ _

end VoiceServer
