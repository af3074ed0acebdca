import Statefeed.Model.FrameReader

set_option autoImplicit false

namespace Statefeed.FrameReader

open Effect Effect.Op

variable {codec : Codec}

def payloadOutcome (codec : Codec) (limit length : Nat) (bytes : Bytes) :
    Except ClientError (Option Wire.Envelope) × Bytes :=
  if length > limit then (.error (.frameTooLarge length limit), bytes)
  else if bytes.length < length then (.error .unexpectedEof, [])
  else (codec.decodePayload (bytes.take length), bytes.drop length)

def outcome (codec : Codec) (limit : Nat) : Bytes → Except ClientError (Option Wire.Envelope) × Bytes
  | [] => (.ok none, [])
  | first :: others =>
    if others.length < 3 then (.error .unexpectedEof, [])
    else payloadOutcome codec limit (BigEndian.decode ([first] ++ others.take 3)) (others.drop 3)

theorem readExact_of_le {reader : FrameReader} {wanted : Nat}
    (enough : wanted ≤ reader.inner.remaining.length) :
    ∃ after, readExact wanted reader = (.ok (reader.inner.remaining.take wanted),
      { reader with inner := after }) ∧ after.remaining = reader.inner.remaining.drop wanted := by
  obtain ⟨taken, left⟩ := Source.readExact_of_le enough
  refine ⟨_, ?_, left⟩
  unfold readExact
  rw [taken]

theorem readExact_of_lt {reader : FrameReader} {wanted : Nat}
    (short : reader.inner.remaining.length < wanted) :
    ∃ after, readExact wanted reader = (.error .unexpectedEof, { reader with inner := after }) ∧
      after.remaining = [] := by
  obtain ⟨failed, left⟩ := Source.readExact_of_lt short
  refine ⟨_, ?_, left⟩
  unfold readExact
  rw [failed]

structure Ends (reader : FrameReader) (told : Except ClientError (Option Wire.Envelope) × Bytes)
    (call : Except ClientError (Option Wire.Envelope) × FrameReader) : Prop where
  result : call.1 = told.1
  left : call.2.inner.remaining = told.2
  limit : call.2.maxFrameBytes = reader.maxFrameBytes
  requested : call.2.requested = reader.requested ∨
    ∃ length ≤ reader.maxFrameBytes, call.2.requested = reader.requested ++ [length]

def readBehind (codec : Codec) (length : Nat) : Op FrameReader ClientError (Option Wire.Envelope) := do
  let reader ← get
  if length > reader.maxFrameBytes then throw (.frameTooLarge length reader.maxFrameBytes)
  else readPayload codec length

theorem ends_behind (reader : FrameReader) (length : Nat) :
    Ends reader (payloadOutcome codec reader.maxFrameBytes length reader.inner.remaining)
      (readBehind codec length reader) := by
  unfold payloadOutcome
  by_cases large : length > reader.maxFrameBytes
  · have refused : readBehind codec length reader =
        (.error (.frameTooLarge length reader.maxFrameBytes), reader) := by
      change (if _ then _ else _ : Op FrameReader _ _) reader = _
      rw [if_pos large]
      rfl
    rw [if_pos large, refused]
    exact ⟨rfl, rfl, rfl, .inl rfl⟩
  have fits := not_lt.mp large
  let asked : FrameReader := { reader with requested := reader.requested ++ [length] }
  have asks : readBehind codec length reader =
      (readExact length >>= fun payload => ofExcept (codec.decodePayload payload)) asked := by
    change (if _ then _ else _ : Op FrameReader _ _) reader = _
    rw [if_neg large]
    rfl
  rw [if_neg large, asks]
  split
  · next short =>
    obtain ⟨after, failed, left⟩ := @readExact_of_lt asked length short
    rw [bind_of_fails failed]
    exact ⟨rfl, left, rfl, .inr ⟨length, fits, rfl⟩⟩
  · next enough =>
    obtain ⟨after, returned, left⟩ := @readExact_of_le asked length (not_lt.mp enough)
    rw [bind_of_returns returned]
    exact ⟨rfl, left, rfl, .inr ⟨length, fits, rfl⟩⟩

theorem ends_read (reader : FrameReader) :
    Ends reader (outcome codec reader.maxFrameBytes reader.inner.remaining) (read codec reader) := by
  cases starts : reader.inner.remaining with
  | nil =>
    have empty := Source.remaining_eq_nil.mp starts
    obtain ⟨inner, limit, requested⟩ := reader
    cases empty
    exact ⟨rfl, rfl, rfl, .inl rfl⟩
  | cons first others =>
    obtain ⟨one, left⟩ := Source.read_one starts
    let next : FrameReader := { reader with inner := (reader.inner.read 1).2 }
    have reads : readInner 1 reader = (.ok [first], next) := by
      change (Except.ok (reader.inner.read 1).1, _) = _
      rw [one]
    have goes : read codec reader = (readExact 3 >>= fun rest =>
        readBehind codec (BigEndian.decode ([first] ++ rest))) next := bind_of_returns reads
    rw [goes, outcome]
    split
    · next short =>
      obtain ⟨after, failed, empty⟩ := @readExact_of_lt next 3 (left.symm ▸ short)
      rw [bind_of_fails failed]
      exact ⟨rfl, empty, rfl, .inl rfl⟩
    · next enough =>
      obtain ⟨after, returned, rest⟩ := @readExact_of_le next 3 (left.symm ▸ not_lt.mp enough)
      rw [bind_of_returns returned]
      have ends := @ends_behind codec { next with inner := after }
        (BigEndian.decode ([first] ++ next.inner.remaining.take 3))
      change Ends _ (payloadOutcome codec reader.maxFrameBytes _ after.remaining) _ at ends
      have same : next.inner.remaining = others := left
      rw [rest, same] at ends
      rw [same]
      exact ⟨ends.result, ends.left, ends.limit, ends.requested⟩

def told (codec : Codec) (limit : Nat) :
    Nat → Bytes → List (Except ClientError (Option Wire.Envelope))
  | 0, _ => []
  | count + 1, bytes =>
    (outcome codec limit bytes).1 :: told codec limit count (outcome codec limit bytes).2

theorem results_eq_told (count : Nat) (reader : FrameReader) :
    results codec count reader = told codec reader.maxFrameBytes count reader.inner.remaining := by
  induction count generalizing reader with
  | zero => rfl
  | succ count ih =>
    have ends := @ends_read codec reader
    rw [results, told, ih, ends.result, ends.left, ends.limit]

structure Sound (codec : Codec) (limit : Nat) (frame : Wire.Frame) : Prop where
  encoded : Wire.encodeFrame frame.payload limit = .ok frame
  inverts : codec.Inverts frame.payload

variable {limit : Nat} {frame : Wire.Frame}

theorem Sound.length (sound : Sound codec limit frame) :
    frame.length = (codec.encode frame.payload).length ∧ frame.length ≤ limit ∧
      frame.length < 2 ^ 32 := by
  have encoded := sound.encoded
  have length := sound.inverts.length
  unfold Wire.encodeFrame at encoded
  split_ifs at encoded with large overflow
  have frame_eq : frame.payload.encodedLen = frame.length := congrArg Wire.Frame.length
    (Except.ok.inj encoded)
  omega

theorem outcome_header {header : Bytes} (four : header.length = 4) (rest : Bytes) :
    outcome codec limit (header ++ rest) =
      payloadOutcome codec limit (BigEndian.decode header) rest := by
  match header, four with
  | [first, second, third, fourth], _ => simp [outcome]

theorem outcome_short {bytes : Bytes} (some : bytes ≠ []) (short : bytes.length < 4) :
    outcome codec limit bytes = (.error .unexpectedEof, []) := by
  cases bytes with
  | nil => exact absurd rfl some
  | cons first others =>
    rw [List.length_cons] at short
    rw [outcome, if_pos (by omega)]

theorem Sound.outcome_header {reader : Nat} (sound : Sound codec limit frame) (wider : limit ≤ reader)
    (rest : Bytes) :
    outcome codec reader (BigEndian.encode 4 frame.length ++ rest) =
      if rest.length < frame.length then (.error .unexpectedEof, [])
      else (codec.decodePayload (rest.take frame.length), rest.drop frame.length) := by
  obtain ⟨_, within, small⟩ := sound.length
  have length : BigEndian.decode (BigEndian.encode 4 frame.length) = frame.length := by
    rw [BigEndian.decode_encode]
    exact Nat.mod_eq_of_lt small
  rw [FrameReader.outcome_header (BigEndian.length_encode 4 _), length, payloadOutcome,
    if_neg (by omega)]

theorem Sound.outcome_whole {reader : Nat} (sound : Sound codec limit frame) (wider : limit ≤ reader)
    (rest : Bytes) :
    outcome codec reader (frame.bytes codec ++ rest) = (.ok (some frame.payload), rest) := by
  obtain ⟨length, _, _⟩ := sound.length
  have decoded : codec.decodePayload (codec.encode frame.payload) = .ok (some frame.payload) := by
    unfold Codec.decodePayload
    rw [sound.inverts.decode]
  unfold Wire.Frame.bytes
  rw [List.append_assoc, sound.outcome_header wider, if_neg (by simp [length]), length,
    List.take_left, List.drop_left, decoded]

theorem Sound.outcome_broken {reader offset : Nat} (sound : Sound codec limit frame)
    (wider : limit ≤ reader) (positive : 0 < offset) (within : offset < (frame.bytes codec).length) :
    outcome codec reader ((frame.bytes codec).take offset) = (.error .unexpectedEof, []) := by
  obtain ⟨length, _, _⟩ := sound.length
  have cut : ((frame.bytes codec).take offset).length = offset := List.length_take_of_le within.le
  rcases Nat.lt_or_ge offset 4 with inside | behind
  · refine outcome_short (fun empty => ?_) (cut.symm ▸ inside)
    rw [empty] at cut
    exact positive.ne cut
  · have four := BigEndian.length_encode 4 frame.length
    unfold Wire.Frame.bytes at within ⊢
    rw [List.length_append, four] at within
    rw [List.take_append, four, List.take_of_length_le (by rw [four]; exact behind),
      sound.outcome_header wider, if_pos]
    rw [List.length_take]
    omega

def bytesOf (codec : Codec) (frames : List Wire.Frame) : Bytes := frames.flatMap (·.bytes codec)

def complete (codec : Codec) : Nat → List Wire.Frame → List Wire.Frame
  | _, [] => []
  | offset, frame :: rest =>
    if (frame.bytes codec).length ≤ offset then
      frame :: complete codec (offset - (frame.bytes codec).length) rest
    else []

theorem take_bytesOf (frames : List Wire.Frame) (offset : Nat) :
    (bytesOf codec frames).take offset = bytesOf codec (complete codec offset frames) ∨
      ∃ frame ∈ frames, ∃ part, 0 < part ∧ part < (frame.bytes codec).length ∧
        (bytesOf codec frames).take offset =
          bytesOf codec (complete codec offset frames) ++ (frame.bytes codec).take part := by
  induction frames generalizing offset with
  | nil => exact .inl (by simp [bytesOf, complete])
  | cons frame rest ih =>
    have split : bytesOf codec (frame :: rest) = frame.bytes codec ++ bytesOf codec rest := rfl
    rw [split, complete]
    split
    · next whole =>
      have again : bytesOf codec (frame :: complete codec (offset - (frame.bytes codec).length) rest) =
          frame.bytes codec ++
            bytesOf codec (complete codec (offset - (frame.bytes codec).length) rest) := rfl
      rw [List.take_append, List.take_of_length_le whole, again]
      rcases ih (offset - (frame.bytes codec).length) with boundary | ⟨other, member, part, inside⟩
      · exact .inl (congrArg _ boundary)
      · obtain ⟨positive, within, cut⟩ := inside
        refine .inr ⟨other, List.mem_cons_of_mem _ member, part, positive, within, ?_⟩
        rw [cut, List.append_assoc]
    · next broken =>
      have within := not_le.mp broken
      rw [List.take_append_of_le_length within.le]
      rcases Nat.eq_zero_or_pos offset with rfl | positive
      · exact .inl rfl
      · exact .inr ⟨frame, List.mem_cons_self, offset, positive, within, rfl⟩

theorem complete_initial (frames : List Wire.Frame) (offset : Nat) :
    complete codec offset frames <+: frames := by
  induction frames generalizing offset with
  | nil => exact List.prefix_rfl
  | cons frame rest ih =>
    rw [complete]
    split
    · exact List.cons_prefix_cons.mpr ⟨rfl, ih _⟩
    · exact List.nil_prefix

theorem told_nil (count : Nat) : told codec limit count [] = List.replicate count (.ok none) := by
  induction count with
  | zero => rfl
  | succ count ih => exact congrArg _ ih

theorem told_bytesOf {reader : Nat} {frames : List Wire.Frame}
    (sound : ∀ frame ∈ frames, Sound codec limit frame) (wider : limit ≤ reader) (count : Nat)
    (rest : Bytes) :
    told codec reader (frames.length + count) (bytesOf codec frames ++ rest) =
      frames.map (fun frame => .ok (some frame.payload)) ++ told codec reader count rest := by
  induction frames with
  | nil => simp [bytesOf]
  | cons frame others ih =>
    have split : bytesOf codec (frame :: others) ++ rest =
        frame.bytes codec ++ (bytesOf codec others ++ rest) := List.append_assoc _ _ _
    have steps : (frame :: others).length + count = others.length + count + 1 := by
      rw [List.length_cons]
      omega
    have whole := (sound frame List.mem_cons_self).outcome_whole wider (bytesOf codec others ++ rest)
    rw [split, steps, told, whole, ih fun other member => sound other (List.mem_cons_of_mem _ member)]
    rfl

theorem sound_of_encoded {envelopes : List Wire.Envelope} {frames : List Wire.Frame}
    (encoded : envelopes.mapM (Wire.encodeFrame · limit) = .ok frames)
    (inverts : ∀ envelope ∈ envelopes, codec.Inverts envelope) :
    frames.map Wire.Frame.payload = envelopes ∧ ∀ frame ∈ frames, Sound codec limit frame := by
  induction envelopes generalizing frames with
  | nil =>
    cases encoded
    exact ⟨rfl, fun _ member => absurd member List.not_mem_nil⟩
  | cons envelope rest ih =>
    rw [List.mapM_cons] at encoded
    cases first : Wire.encodeFrame envelope limit with
    | error failure =>
      rw [first] at encoded
      cases encoded
    | ok frame =>
      cases others : rest.mapM (Wire.encodeFrame · limit) with
      | error failure =>
        rw [first, others] at encoded
        cases encoded
      | ok tail =>
        rw [first, others] at encoded
        cases encoded
        obtain ⟨payloads, sound⟩ := ih others fun other member =>
          inverts other (List.mem_cons_of_mem _ member)
        have payload := Wire.encodeFrame_payload first
        have own : Sound codec limit frame := by
          refine ⟨?_, ?_⟩
          · rw [payload]
            exact first
          · rw [payload]
            exact inverts envelope List.mem_cons_self
        refine ⟨by rw [List.map_cons, payload, payloads], fun other member => ?_⟩
        rcases List.mem_cons.mp member with rfl | later
        · exact own
        · exact sound other later

def after (codec : Codec) : Nat → FrameReader → FrameReader
  | 0, reader => reader
  | count + 1, reader => after codec count (read codec reader).2

theorem requested_after (count : Nat) (reader : FrameReader)
    (small : ∀ size ∈ reader.requested, size ≤ reader.maxFrameBytes) :
    ∀ size ∈ (after codec count reader).requested, size ≤ reader.maxFrameBytes := by
  induction count generalizing reader with
  | zero => exact small
  | succ count ih =>
    have ends := @ends_read codec reader
    rw [after, ← ends.limit]
    refine ih _ ?_
    rw [ends.limit]
    rcases ends.requested with same | ⟨length, fits, grown⟩
    · rw [same]
      exact small
    · rw [grown]
      intro size member
      rcases List.mem_append.mp member with earlier | last
      · exact small size earlier
      · rw [List.mem_singleton.mp last]
        exact fits

theorem consumed_of_outcome {bytes rest : Bytes} {envelope : Wire.Envelope}
    (returned : outcome codec limit bytes = (.ok (some envelope), rest)) :
    ∃ header payload, bytes = header ++ (payload ++ rest) ∧ header.length = 4 ∧
      payload.length = BigEndian.decode header ∧ codec.decode payload = some envelope := by
  cases bytes with
  | nil => cases returned
  | cons first others =>
    rw [outcome] at returned
    split at returned
    · cases returned
    next enough =>
    unfold payloadOutcome at returned
    split at returned
    · cases returned
    split at returned
    · cases returned
    next long =>
    obtain ⟨decoded, rfl⟩ := Prod.mk.inj returned
    refine ⟨[first] ++ others.take 3,
      (others.drop 3).take (BigEndian.decode ([first] ++ others.take 3)), ?_, ?_, ?_, ?_⟩
    · rw [List.take_append_drop, List.append_assoc, List.take_append_drop]
      rfl
    · simp only [List.length_append, List.length_singleton, List.length_take]
      omega
    · exact List.length_take_of_le (not_lt.mp long)
    · unfold Codec.decodePayload at decoded
      split at decoded
      · next found =>
        cases decoded
        exact found
      · cases decoded

theorem take_payloads {frames kept : List Wire.Frame} (within : kept <+: frames) :
    kept.map Wire.Frame.payload = (frames.map Wire.Frame.payload).take kept.length := by
  obtain ⟨rest, rfl⟩ := within
  rw [List.map_append]
  exact (List.take_left' (List.length_map _)).symm

/-- A reader returns the envelopes whose frames are in the stream and whole, notices a clean end and
nothing else as the end, and takes exactly one announced payload for each envelope. -/
theorem framing_self_delimiting (codec : Codec) (reader : FrameReader) :
    (∀ (written : Nat) (envelopes : List Wire.Envelope) (frames : List Wire.Frame),
      envelopes.mapM (Wire.encodeFrame · written) = .ok frames →
      (∀ envelope ∈ envelopes, codec.Inverts envelope) → written ≤ reader.maxFrameBytes →
      (reader.inner.remaining = bytesOf codec frames →
        ∀ count, results codec (envelopes.length + count) reader =
          envelopes.map (fun envelope => .ok (some envelope)) ++ List.replicate count (.ok none)) ∧
      ∀ offset, reader.inner.remaining = (bytesOf codec frames).take offset →
        let kept := complete codec offset frames
        let returned := (envelopes.take kept.length).map fun envelope => .ok (some envelope)
        (bytesOf codec kept = (bytesOf codec frames).take offset →
          ∀ count, results codec (kept.length + count) reader =
            returned ++ List.replicate count (.ok none)) ∧
        (bytesOf codec kept ≠ (bytesOf codec frames).take offset →
          results codec (kept.length + 1) reader = returned ++ [.error .unexpectedEof])) ∧
    (reader.requested = [] → ∀ count, ∀ size ∈ (after codec count reader).requested,
      size ≤ reader.maxFrameBytes) ∧
    (∀ envelope later, read codec reader = (.ok (some envelope), later) →
      ∃ header payload, reader.inner.remaining = header ++ (payload ++ later.inner.remaining) ∧
        header.length = 4 ∧ payload.length = BigEndian.decode header ∧
        codec.decode payload = some envelope) := by
  refine ⟨fun written envelopes frames encoded inverts wider => ?_, fun fresh count => ?_,
    fun envelope later returned => ?_⟩
  · obtain ⟨payloads, sound⟩ := sound_of_encoded encoded inverts
    have counted : frames.length = envelopes.length := by rw [← payloads, List.length_map]
    refine ⟨fun whole count => ?_, fun offset cut => ?_⟩
    · -- Every frame is returned, and every read after them finds the clean end.
      have all := told_bytesOf sound wider count []
      rw [List.append_nil, told_nil, counted] at all
      rw [results_eq_told, whole, all, ← payloads, List.map_map]
      rfl
    · intro kept returned
      have within := @complete_initial codec frames offset
      have keptSound : ∀ frame ∈ kept, Sound codec written frame := fun frame member =>
        sound frame (within.subset member)
      have same : kept.map (fun frame => .ok (some frame.payload)) = returned := by
        have taken : kept.map Wire.Frame.payload = envelopes.take kept.length := by
          rw [take_payloads within, payloads]
        change _ = (envelopes.take kept.length).map _
        rw [← taken, List.map_map]
        rfl
      refine ⟨fun boundary count => ?_, fun inside => ?_⟩
      · -- At a frame boundary the cut is a clean end.
        have all := told_bytesOf keptSound wider count []
        rw [List.append_nil, told_nil, boundary, same] at all
        rw [results_eq_told, cut, all]
      · rcases @take_bytesOf codec frames offset with boundary | ⟨frame, member, part, split⟩
        · exact absurd boundary.symm inside
        · -- The complete frames are returned, and the part of the next one is no clean end.
          obtain ⟨positive, short, broken⟩ := split
          have fails := (sound frame member).outcome_broken wider positive short
          rw [results_eq_told, cut, broken, told_bytesOf keptSound wider, same, told, fails]
          rfl
  · refine requested_after count reader ?_
    rw [fresh]
    exact fun _ member => absurd member List.not_mem_nil
  · have ends := @ends_read codec reader
    rw [returned] at ends
    refine @consumed_of_outcome codec reader.maxFrameBytes _ _ envelope ?_
    rw [ends.left]
    exact Prod.ext ends.result.symm rfl

def sampleEnvelope (sequence : Nat) (gap : Wire.Gap) : Wire.Envelope where
  protocolVersion := 1
  bootId := []
  sequence := sequence
  configGeneration := 1
  emittedAtMonotonicNs := 0
  event := some (.gap gap)

def firstSample : Wire.Envelope := sampleEnvelope 7 { lastContiguousSequence := 0, reason := "" }

def secondSample : Wire.Envelope := sampleEnvelope 8 { lastContiguousSequence := 6, reason := "lag" }

def firstBytes : Bytes := [8, 1, 24, 7, 32, 1, 138, 1, 0]

def secondBytes : Bytes := [8, 1, 24, 8, 32, 1, 138, 1, 7, 8, 6, 18, 3, 108, 97, 103]

def sampleCodec : Codec where
  encode envelope := if envelope.sequence = 7 then firstBytes else secondBytes
  decode bytes :=
    if bytes = firstBytes then some firstSample
    else if bytes = secondBytes then some secondSample
    else none

def sampleReader (inner : Source UInt8) : FrameReader where
  inner := inner
  maxFrameBytes := 16
  requested := []

def wholeSource : Source UInt8 :=
  [⟨[0, 0], by decide⟩, ⟨[0, 9, 8, 1, 24, 7, 32, 1, 138, 1, 0, 0, 0], by decide⟩,
    ⟨[0, 16, 8, 1, 24, 8, 32, 1, 138, 1, 7, 8, 6, 18, 3, 108, 97, 103], by decide⟩]

def cutSource : Source UInt8 :=
  [⟨[0, 0, 0, 9, 8, 1, 24, 7], by decide⟩, ⟨[32, 1, 138, 1, 0, 0, 0, 0, 16, 8, 1, 24], by decide⟩]

theorem framing_self_delimiting_sample :
    results sampleCodec 4 (sampleReader wholeSource) =
        [.ok (some firstSample), .ok (some secondSample), .ok none, .ok none] ∧
      results sampleCodec 2 (sampleReader cutSource) =
        [.ok (some firstSample), .error .unexpectedEof] := by
  have inverts : ∀ envelope ∈ [firstSample, secondSample], sampleCodec.Inverts envelope := by
    intro envelope member
    simp only [List.mem_cons, List.not_mem_nil, or_false] at member
    rcases member with rfl | rfl
    · exact ⟨by decide, rfl⟩
    · exact ⟨by decide, rfl⟩
  have encoded : [firstSample, secondSample].mapM (Wire.encodeFrame · 16) =
      .ok [{ length := 9, payload := firstSample }, { length := 16, payload := secondSample }] := rfl
  constructor
  · obtain ⟨streams, _, _⟩ := framing_self_delimiting sampleCodec (sampleReader wholeSource)
    exact (streams 16 _ _ encoded inverts (by decide)).1 (by decide) 2
  · obtain ⟨streams, _, _⟩ := framing_self_delimiting sampleCodec (sampleReader cutSource)
    exact ((streams 16 _ _ encoded inverts (by decide)).2 20 (by decide)).2 (by decide)

end Statefeed.FrameReader
