import MirrorCast.Program.AvcUtils

/-! # `TSPacketizer`: multiplexing access units into an MPEG-2 transport stream -/

namespace MirrorCast

open Java

/-- What the packetizer reads of a `MediaFormat`. -/
structure MediaFormat where
  mime : Option (List Char)
  /-- `csd-0`, `csd-1`, … up to the first one missing -/
  csd : List (List UInt8)
  isADTS : Option ℤ
  channelCount : Option ℤ
  sampleRate : Option ℤ
  deriving DecidableEq, Repr

/-- The range of an `ABuffer` with `TIME_US` and `IS_IDR` of its metadata. -/
structure ABuffer where
  data : List UInt8
  timeUs : ℤ
  isIDR : Bool
  deriving DecidableEq, Repr

/-- `new ABuffer(capacity)`, with `capacity` computed as an `int`. -/
def newABuffer (capacity : ℤ) : Except JavaException (List UInt8) :=
  if int32 capacity < 0 then .error .illegalArgument
  else .ok (List.replicate (int32 capacity).toNat 0)

namespace TSPacketizer

def EMIT_HDCP20_DESCRIPTOR : BitVec 32 := 1
def EMIT_HDCP21_DESCRIPTOR : BitVec 32 := 2

def EMIT_PAT_AND_PMT : BitVec 32 := 1
def EMIT_PCR : BitVec 32 := 2
def IS_ENCRYPTED : BitVec 32 := 4
def PREPEND_SPS_PPS_TO_IDR_FRAMES : BitVec 32 := 8

def PID_PMT : ℕ := 0x100
def PID_PCR : ℕ := 0x1000

def ERANGE : ℤ := 34
def ERROR_UNSUPPORTED : ℤ := -1010

/-! ## Media types -/

def MIMETYPE_VIDEO_AVC : List Char := ['v', 'i', 'd', 'e', 'o', '/', 'a', 'v', 'c']

def MIMETYPE_AUDIO_AAC : List Char :=
  ['a', 'u', 'd', 'i', 'o', '/', 'm', 'p', '4', 'a', '-', 'l', 'a', 't', 'm']

def MIMETYPE_AUDIO_RAW : List Char := ['a', 'u', 'd', 'i', 'o', '/', 'r', 'a', 'w']

def toLowerCase (s : List Char) : List Char := s.map Char.toLower

def startsWith (start : List Char) (mime : Option (List Char)) : Bool :=
  mime.any fun s => start.isPrefixOf (toLowerCase s)

def equalsIgnoreCase (type : List Char) (mime : Option (List Char)) : Bool :=
  mime.any fun s => decide (toLowerCase s = type)

def isVideo : Option (List Char) → Bool := startsWith ['v', 'i', 'd', 'e', 'o', '/']
def isAudio : Option (List Char) → Bool := startsWith ['a', 'u', 'd', 'i', 'o', '/']
def isH264 : Option (List Char) → Bool := equalsIgnoreCase MIMETYPE_VIDEO_AVC
def isAAC : Option (List Char) → Bool := equalsIgnoreCase MIMETYPE_AUDIO_AAC
def isPCMAudio : Option (List Char) → Bool := equalsIgnoreCase MIMETYPE_AUDIO_RAW

/-! ## CRC -/

/-- Entry `i` of the table that `initCrcTable` fills. -/
def CRC_TABLE (i : BitVec 8) : BitVec 32 :=
  let poly := 0x04C11DB7#32
  Nat.iterate (fun crc : BitVec 32 =>
    (crc <<< 1) ^^^ (if crc &&& 0x80000000#32 ≠ 0 then poly else 0)) 8 (i.setWidth 32 <<< 24)

def crc32 (crcData : List UInt8) : BitVec 32 :=
  crcData.foldl (fun crc content =>
    (crc <<< 8) ^^^ CRC_TABLE (((crc >>> 24) ^^^ content.toBitVec.setWidth 32).setWidth 8))
    0xFFFFFFFF#32

/-- `putInt(value)`. -/
def putInt (value : BitVec 32) : List UInt8 :=
  [toByte (value.toNat / 2 ^ 24 : ℕ), toByte (value.toNat / 2 ^ 16 : ℕ),
    toByte (value.toNat / 2 ^ 8 : ℕ), toByte value.toNat]

/-! ## Tracks -/

structure Track where
  mFormat : MediaFormat
  mPID : ℕ
  mStreamType : ℕ
  mStreamID : ℕ
  mContinuityCounter : ℕ
  mCSD : List (List UInt8)
  mDescriptors : List (List UInt8)
  mAudioLacksATDSHeaders : Bool
  mFinalized : Bool
  mExtractedCSD : Bool
  deriving DecidableEq, Repr

/-- `++counter`, back to zero at sixteen. -/
def nextCounter (counter : ℕ) : ℕ := if counter + 1 = 16 then 0 else counter + 1

namespace Track

def new (format : MediaFormat) (PID streamType streamID : ℕ) : Track :=
  ⟨format, PID, streamType, streamID, 0, [], [], false, false, false⟩

def isAudio (track : Track) : Bool := TSPacketizer.isAudio track.mFormat.mime
def isVideo (track : Track) : Bool := TSPacketizer.isVideo track.mFormat.mime
def isH264 (track : Track) : Bool := TSPacketizer.isH264 track.mFormat.mime
def isAAC (track : Track) : Bool := TSPacketizer.isAAC track.mFormat.mime
def isPCMAudio (track : Track) : Bool := TSPacketizer.isPCMAudio track.mFormat.mime

def extractCSDIfNecessary (track : Track) : Track :=
  if track.mExtractedCSD then track
  else
    { track with
      mCSD := if track.isH264 || track.isAAC then track.mCSD ++ track.mFormat.csd else track.mCSD
      mAudioLacksATDSHeaders :=
        if track.isAAC && decide (track.mFormat.isADTS.getD 0 = 0) then true
        else track.mAudioLacksATDSHeaders
      mExtractedCSD := true }

def prependCSD (track : Track) (accessUnit : List UInt8) : Except JavaException (List UInt8) := do
  let dup ← newABuffer (accessUnit.length + track.mCSD.flatten.length)
  putAt dup 0 (track.mCSD.flatten ++ accessUnit)

/-- The seven bytes in front of an AAC frame, from the first two of its codec data. -/
def adtsHeader (codecSpecificData0 codecSpecificData1 : UInt8) (aac_frame_length : ℕ) :
    List UInt8 :=
  let profile : ℤ := (codecSpecificData0 >>> 3).toNat - 1
  let sampling_freq_index := (codecSpecificData0 &&& 7) <<< 1 ||| codecSpecificData1 >>> 7
  let channel_configuration := codecSpecificData1 >>> 3 &&& 0x0f
  [0xff, 0xf9,
    toByte (profile * 2 ^ 6) ||| sampling_freq_index <<< 2 ||| (channel_configuration >>> 2 &&& 1),
    (channel_configuration &&& 3) <<< 6 ||| toByte (aac_frame_length / 2 ^ 11 : ℕ),
    toByte (aac_frame_length / 2 ^ 3 : ℕ), (toByte aac_frame_length &&& 7) <<< 5, 0]

def prependADTSHeader (track : Track) (accessUnit : List UInt8) :
    Except JavaException (List UInt8) :=
  match track.mCSD with
  | [codecSpecificData0 :: codecSpecificData1 :: _] => do
      let aac_frame_length := accessUnit.length + 7
      let dup ← newABuffer aac_frame_length
      putAt dup 0 (adtsHeader codecSpecificData0 codecSpecificData1 aac_frame_length ++ accessUnit)
  | [_] => .error .arrayIndexOutOfBounds
  | _ => .error .runtime

/-- The access unit that is packetized: with the codec data or an ADTS header in front. -/
def prepend (track : Track) (flags : BitVec 32) (accessUnit : ABuffer) :
    Except JavaException (List UInt8) :=
  if track.isH264 ∧ flags &&& PREPEND_SPS_PPS_TO_IDR_FRAMES ≠ 0 ∧
      AvcUtils.isIDR accessUnit.isIDR accessUnit.data then
    track.prependCSD accessUnit.data
  else if track.isAAC ∧ track.mAudioLacksATDSHeaders then
    if flags &&& IS_ENCRYPTED ≠ 0 then .error .runtime
    else track.prependADTSHeader accessUnit.data
  else .ok accessUnit.data

/-- The AVC video descriptor and the AVC timing and HRD descriptor. -/
def avcDescriptors (profile : List UInt8) : List (List UInt8) :=
  [[40, 4] ++ profile ++ [0x3f], [42, 2, 0x7e, 0x1f]]

/-- The LPCM audio stream descriptor. -/
def lpcmDescriptor (sampleRate : ℤ) : List UInt8 :=
  let sampling_frequency : UInt8 := if sampleRate = 44100 then 1 else 2
  [0x83, 2, sampling_frequency <<< 5 ||| (3 : UInt8) <<< 1, (1 : UInt8) <<< 5 ||| 0xf]

/-- `profile_idc`, `constraint_set*` and `level_idc` out of the first codec data. -/
def profileBytes (mCSD : List (List UInt8)) : Except JavaException (List UInt8) :=
  match mCSD with
  | [] => .ok [66, 0xc0, 31]
  | [_] => .error .runtime
  | sps :: _ :: _ =>
      if sps.length < 4 then .error .bufferUnderflow
      else if sps.take 4 ≠ [0, 0, 0, 1] then .error .runtime
      else if sps.length ≤ 7 then .error .runtime
      else .ok ((sps.drop 5).take 3)

def makeFinalize (track : Track) : Except JavaException Track :=
  if track.mFinalized then .ok track
  else if track.isH264 then do
    let profile ← profileBytes track.mCSD
    return { track with
      mDescriptors := track.mDescriptors ++ avcDescriptors profile, mFinalized := true }
  else if track.isPCMAudio then
    match track.mFormat.channelCount, track.mFormat.sampleRate with
    | none, _ => .error .nullPointer
    | some channelCount, sampleRate =>
        if channelCount ≠ 2 then .error .runtime
        else
          match sampleRate with
          | none => .error .nullPointer
          | some sampleRate =>
              if sampleRate = 44100 ∨ sampleRate = 48000 then
                .ok { track with
                  mDescriptors := track.mDescriptors ++ [lpcmDescriptor sampleRate]
                  mFinalized := true }
              else .error .runtime
  else .ok { track with mFinalized := true }

/-- The description of the track in the PMT. -/
def streamInfo (track : Track) : Except JavaException (List UInt8) :=
  let ES_info_length := track.mDescriptors.flatten.length
  if 0xfff < ES_info_length then .error .runtime
  else
    .ok ([toByte track.mStreamType, 0xe0 ||| toByte (track.mPID / 2 ^ 8 : ℕ), toByte track.mPID,
      0xf0 ||| toByte (ES_info_length / 2 ^ 8 : ℕ), toByte ES_info_length] ++
        track.mDescriptors.flatten)

end Track

end TSPacketizer

structure TSPacketizer where
  mFlags : BitVec 32
  mTracks : List TSPacketizer.Track
  mProgramInfoDescriptors : List (List UInt8)
  mPATContinuityCounter : ℕ
  mPMTContinuityCounter : ℕ
  deriving DecidableEq, Repr

namespace TSPacketizer

/-- The descriptor with tag 5 and format identifier `HDCP`. -/
def hdcpDescriptor : List UInt8 := [0x05, 5, 72, 68, 67, 80, 0x20]

def new (flags : BitVec 32) : Except JavaException TSPacketizer :=
  if flags &&& (EMIT_HDCP20_DESCRIPTOR ||| EMIT_HDCP21_DESCRIPTOR) ≠ 0 then
    if flags &&& EMIT_HDCP20_DESCRIPTOR ≠ 0 ∧ flags &&& EMIT_HDCP21_DESCRIPTOR ≠ 0 then
      .error .runtime
    else .ok ⟨flags, [], [hdcpDescriptor], 0, 0⟩
  else .ok ⟨flags, [], [], 0, 0⟩

/-- First PID of the media kind. -/
def PIDStart (mime : Option (List Char)) : Option ℕ :=
  if isVideo mime then some 0x1011 else if isAudio mime then some 0x1100 else none

/-- Stream type with the first and last stream ID. -/
def streamKind (mime : Option (List Char)) : Option (ℕ × ℕ × ℕ) :=
  if isH264 mime then some (0x1b, 0xe0, 0xef)
  else if isAAC mime then some (0x0f, 0xc0, 0xdf)
  else if isPCMAudio mime then some (0x83, 0xbd, 0xbd)
  else none

def addTrack (s : TSPacketizer) (format : MediaFormat) : ℤ × TSPacketizer :=
  match PIDStart format.mime, streamKind format.mime with
  | some PIDStart, some (streamType, streamIDStart, streamIDStop) =>
      let numTracksOfThisType := s.mTracks.countP fun track => track.mStreamType == streamType
      let PID := PIDStart + s.mTracks.countP fun track =>
        isAudio format.mime && track.isAudio || isVideo format.mime && track.isVideo
      let streamID := streamIDStart + numTracksOfThisType
      if streamIDStop < streamID then (-ERANGE, s)
      else (0, { s with mTracks := s.mTracks ++ [Track.new format PID streamType streamID] })
  | _, _ => (ERROR_UNSUPPORTED, s)

def extractCSDIfNecessary (s : TSPacketizer) (trackIndex : ℤ) :
    Except JavaException (ℤ × TSPacketizer) :=
  if s.mTracks.length ≤ trackIndex then .ok (-ERANGE, s)
  else if trackIndex < 0 then .error .arrayIndexOutOfBounds
  else .ok (0, { s with
    mTracks := s.mTracks.modify trackIndex.toNat Track.extractCSDIfNecessary })

/-! ## The number of packets -/

/-- The payload of a packet with room for `sizeAvailableForPayload` bytes of `remaining`. -/
def payloadBytes (alignPayload : Bool) (sizeAvailableForPayload remaining : ℕ) : ℕ :=
  if sizeAvailableForPayload < remaining then
    if alignPayload ∧ 16 < sizeAvailableForPayload then
      sizeAvailableForPayload - sizeAvailableForPayload % 16
    else sizeAvailableForPayload
  else remaining

theorem payloadBytes_pos (alignPayload : Bool) {available remaining : ℕ}
    (havailable : 0 < available) (hremaining : 0 < remaining) :
    0 < payloadBytes alignPayload available remaining := by
  unfold payloadBytes
  split_ifs <;> omega

theorem payloadBytes_le (alignPayload : Bool) (available remaining : ℕ) :
    payloadBytes alignPayload available remaining ≤ remaining := by
  unfold payloadBytes
  split_ifs <;> omega

/-- The packets behind the first one, counted by the loop kept for debugging. -/
def debugTSPackets (alignPayload : Bool) (numBytesOfPayloadRemaining : ℕ) : ℕ :=
  if 0 < numBytesOfPayloadRemaining then
    let numBytesOfPayload := payloadBytes alignPayload (188 - 4) numBytesOfPayloadRemaining
    debugTSPackets alignPayload (numBytesOfPayloadRemaining - numBytesOfPayload) + 1
  else 0
termination_by numBytesOfPayloadRemaining
decreasing_by
  rename_i hpos
  have hcopy := payloadBytes_pos alignPayload (show 0 < 188 - 4 by decide) hpos
  omega

/-- The packets behind the first one, in closed form. -/
def moreTSPackets (alignPayload : Bool) (numBytesOfPayloadRemaining : ℕ) : ℕ :=
  let sizeAvailableForPayload := 188 - 4
  let sizeAvailableForAlignedPayload :=
    if alignPayload then sizeAvailableForPayload - sizeAvailableForPayload % 16
    else sizeAvailableForPayload
  let numFullTSPackets := numBytesOfPayloadRemaining / sizeAvailableForAlignedPayload
  let left := numBytesOfPayloadRemaining - numFullTSPackets * sizeAvailableForAlignedPayload
  numFullTSPackets +
    if numFullTSPackets = 0 ∧ 0 < left then 1
    else if 0 < numFullTSPackets ∧ sizeAvailableForPayload < left + sizeAvailableForAlignedPayload
    then 1
    else 0

/-- The size of the PES header, `PES_private_data_len` and the flags byte in front included. -/
def PES_header_size (PES_private_data_len numStuffingBytes : ℕ) : ℕ :=
  14 + numStuffingBytes + if 0 < PES_private_data_len then PES_private_data_len + 1 else 0

/-- The packets of a unit of `size` bytes, where `more` counts those behind the first one. -/
def countTSPackets (more : Bool → ℕ → ℕ) (alignPayload : Bool) (headerSize size : ℕ) : ℕ :=
  1 + more alignPayload (size - payloadBytes alignPayload (188 - 4 - headerSize) size)

/-- `numTSPackets`, before those of the tables and the PCR are added. -/
def numTSPackets (alignPayload : Bool) (headerSize size : ℕ) : Except JavaException ℕ :=
  if 188 - 4 < headerSize then .error .runtime
  else .ok (countTSPackets moreTSPackets alignPayload headerSize size)

/-! ## Emission -/

/-- The buffer with the position of `packetDataStart`. -/
structure Output where
  buffer : List UInt8
  packetDataStart : ℕ
  deriving DecidableEq, Repr

namespace Output

/-- `packetDataStart.position(packetDataStart.position() + 188)`. -/
def advance (o : Output) : Except JavaException Output :=
  if o.buffer.length < o.packetDataStart + 188 then .error .illegalArgument
  else .ok { o with packetDataStart := o.packetDataStart + 188 }

/-- `bytes` and `0xff` up to the end of the packet. -/
def putFilled (o : Output) (bytes : List UInt8) : Except JavaException Output := do
  let sizeLeft := 188 - bytes.length
  let buffer ← putAt o.buffer o.packetDataStart (bytes ++ List.replicate sizeLeft 0xff)
  advance { o with buffer }

/-- `bytes`, which have to end where the packet ends. -/
def putChecked (o : Output) (bytes : List UInt8) : Except JavaException Output := do
  let buffer ← putAt o.buffer o.packetDataStart bytes
  if bytes.length ≠ 188 then .error .runtime else advance { o with buffer }

end Output

/-- `data` with its checksum. -/
def withCRC (data : List UInt8) : List UInt8 := data ++ putInt (crc32 data)

def PAT (mPATContinuityCounter : ℕ) : List UInt8 :=
  [0x47, 0x40, 0x00, 0x10 ||| toByte mPATContinuityCounter, 0x00] ++
    withCRC [0x00, 0xb0, 0x0d, 0x00, 0x00, 0xc3, 0x00, 0x00, 0x00, 0x01,
      0xe0 ||| toByte (PID_PMT / 2 ^ 8 : ℕ), toByte PID_PMT]

/-- The PMT of finalized tracks. -/
def PMT (mPMTContinuityCounter : ℕ) (mProgramInfoDescriptors : List (List UInt8))
    (mTracks : List Track) : Except JavaException (List UInt8) :=
  let program_info_length := mProgramInfoDescriptors.flatten.length
  if 0x400 ≤ program_info_length then .error .runtime
  else do
    let streams ← mTracks.mapM Track.streamInfo
    let body := [0x00, 0x01, 0xc3, 0x00, 0x00,
      0xe0 ||| toByte (PID_PCR / 2 ^ 8 : ℕ), toByte PID_PCR,
      0xf0 ||| toByte (program_info_length / 2 ^ 8 : ℕ), toByte program_info_length] ++
        mProgramInfoDescriptors.flatten ++ streams.flatten
    let section_length := body.length + 4
    return [0x47, 0x40 ||| toByte (PID_PMT / 2 ^ 8 : ℕ), toByte PID_PMT,
      0x10 ||| toByte mPMTContinuityCounter, 0x00] ++
        withCRC ([0x02, 0xb0 ||| toByte (section_length / 2 ^ 8 : ℕ), toByte section_length] ++ body)

/-- The PAT and the PMT, which finalizes all tracks. -/
def emitTables (s : TSPacketizer) (o : Output) : Except JavaException (TSPacketizer × Output) := do
  let mPATContinuityCounter := nextCounter s.mPATContinuityCounter
  let o ← o.putFilled (PAT mPATContinuityCounter)
  let mPMTContinuityCounter := nextCounter s.mPMTContinuityCounter
  let mTracks ← s.mTracks.mapM Track.makeFinalize
  let table ← PMT mPMTContinuityCounter s.mProgramInfoDescriptors mTracks
  let o ← o.putFilled table
  return ({ s with mTracks, mPATContinuityCounter, mPMTContinuityCounter }, o)

/-- The packet with the program clock reference. -/
def pcrPacket (nowUs : ℤ) : List UInt8 :=
  let PCR := int64 (nowUs * 27)
  let PCR_base := PCR.tdiv 300
  let PCR_ext := PCR.tmod 300
  [0x47, 0x40 ||| toByte (PID_PCR / 2 ^ 8 : ℕ), toByte PID_PCR, 0x20, 0xb7, 0x10,
    toByte (PCR_base / 2 ^ 25), toByte (PCR_base / 2 ^ 17), toByte (PCR_base / 2 ^ 9),
    (toByte PCR_base &&& 1) <<< 7 ||| 0x7e ||| (toByte (PCR_ext / 2 ^ 8) &&& 1), toByte PCR_ext]

/-- A packet of an elementary stream: header, adaptation field and payload. -/
def tsPacket (start : UInt8) (PID continuityCounter numPaddingBytes : ℕ) (payload : List UInt8) :
    List UInt8 :=
  [0x47, start ||| toByte (PID / 2 ^ 8 : ℕ), toByte PID,
    (if 0 < numPaddingBytes then (0x30 : UInt8) else 0x10) ||| toByte continuityCounter] ++
  (if 0 < numPaddingBytes then
    toByte (numPaddingBytes - 1 : ℕ) ::
      if 2 ≤ numPaddingBytes then 0x00 :: List.replicate (numPaddingBytes - 2) 0xff else []
  else []) ++ payload

def PTSBytes (PTS : ℤ) : List UInt8 :=
  [(0x20 : UInt8) ||| (toByte (PTS / 2 ^ 30) &&& 7) <<< 1 ||| 1, toByte (PTS / 2 ^ 22),
    (toByte (PTS / 2 ^ 15) &&& 0x7f) <<< 1 ||| 1, toByte (PTS / 2 ^ 7),
    (toByte PTS &&& 0x7f) <<< 1 ||| 1]

/-- The private data behind the flags byte that announces it. -/
def privateBytes (PES_private_data : Option (List UInt8)) (PES_private_data_len : ℕ) :
    Except JavaException (List UInt8) :=
  if 0 < PES_private_data_len then
    match PES_private_data with
    | none => .error .nullPointer
    | some PES_private_data =>
        if PES_private_data.length < PES_private_data_len then .error .illegalArgument
        else .ok (0x8e :: PES_private_data.take PES_private_data_len)
  else .ok []

/-- The arguments of `packetize`, with the time it reads from the clock. -/
structure Args where
  trackIndex : ℤ
  accessUnit : ABuffer
  flags : BitVec 32
  PES_private_data : Option (List UInt8)
  PES_private_data_len : ℕ
  numStuffingBytes : ℕ
  nowUs : ℤ
  deriving DecidableEq, Repr

namespace Args

def headerSize (a : Args) : ℕ := PES_header_size a.PES_private_data_len a.numStuffingBytes

def emitsTables (a : Args) : Prop := a.flags &&& EMIT_PAT_AND_PMT ≠ 0

def emitsPCR (a : Args) : Prop := a.flags &&& EMIT_PCR ≠ 0

instance (a : Args) : Decidable a.emitsTables := inferInstanceAs (Decidable (_ ≠ _))

instance (a : Args) : Decidable a.emitsPCR := inferInstanceAs (Decidable (_ ≠ _))

/-- `(timeUs * 9L) / 100L`. -/
def PTS (a : Args) : ℤ := (int64 (a.accessUnit.timeUs * 9)).tdiv 100

end Args

/-- The PES header of a unit on `track`. -/
def pesHeader (track : Track) (a : Args) (unit : List UInt8) : Except JavaException (List UInt8) :=
  let privateLength := if 0 < a.PES_private_data_len then a.PES_private_data_len + 1 else 0
  let PES_packet_length := unit.length + 8 + a.numStuffingBytes + privateLength
  if 65536 ≤ PES_packet_length ∧ ¬ track.isVideo then .error .runtime
  else do
    let PES_packet_length := if 65536 ≤ PES_packet_length then 0 else PES_packet_length
    let headerLength := 0x05 + a.numStuffingBytes + privateLength
    let privateData ← privateBytes a.PES_private_data a.PES_private_data_len
    return [0x00, 0x00, 0x01, toByte track.mStreamID, toByte (PES_packet_length / 2 ^ 8 : ℕ),
      toByte PES_packet_length, 0x84, if 0 < a.PES_private_data_len then 0x81 else 0x80,
      toByte headerLength] ++ PTSBytes a.PTS ++ privateData ++
        List.replicate a.numStuffingBytes 0xff

/-- The packets behind the first one, and the track's counter afterwards. -/
def emitRest (PID : ℕ) (alignPayload : Bool) (unit : List UInt8) (offset continuityCounter : ℕ)
    (o : Output) : Except JavaException (Output × ℕ) :=
  if offset < unit.length then do
    let sizeAvailableForPayload := 188 - 4
    let copy := payloadBytes alignPayload sizeAvailableForPayload (unit.length - offset)
    let numPaddingBytes := sizeAvailableForPayload - copy
    let o ← o.putChecked
      (tsPacket 0x00 PID continuityCounter numPaddingBytes ((unit.drop offset).take copy))
    emitRest PID alignPayload unit (offset + copy) (nextCounter continuityCounter) o
  else .ok (o, continuityCounter)
termination_by unit.length - offset
decreasing_by
  rename_i hmore
  have hcopy := payloadBytes_pos alignPayload (show 0 < 188 - 4 by decide)
    (Nat.sub_pos_of_lt hmore)
  omega

/-- The PES packet of `unit` on `track`. -/
def emitPES (alignPayload : Bool) (track : Track) (a : Args) (unit : List UInt8) (o : Output) :
    Except JavaException (Output × Track) := do
  let header ← pesHeader track a unit
  let sizeAvailableForPayload := 188 - 4 - a.headerSize
  let copy := payloadBytes alignPayload sizeAvailableForPayload unit.length
  let numPaddingBytes := sizeAvailableForPayload - copy
  let o ← o.putChecked
    (tsPacket 0x40 track.mPID track.mContinuityCounter numPaddingBytes (header ++ unit.take copy))
  let (o, mContinuityCounter) ← emitRest track.mPID alignPayload unit copy
    (nextCounter track.mContinuityCounter) o
  return (o, { track with mContinuityCounter })

def alignPayload (s : TSPacketizer) : Bool :=
  decide (s.mFlags &&& (EMIT_HDCP20_DESCRIPTOR ||| EMIT_HDCP21_DESCRIPTOR) ≠ 0)

/-- Where the packets go out: the error code, `packets[0]` and the packetizer afterwards. -/
structure Packetized where
  err : ℤ
  packets : Option (List UInt8)
  packetizer : TSPacketizer
  deriving DecidableEq, Repr

/-- The part of `packetize` that writes into the buffer of `numTSPackets` packets; `i` is the
index of the object `track` refers to. -/
def emit (s : TSPacketizer) (i : ℕ) (a : Args) (unit : List UInt8) (numTSPackets : ℕ) :
    Except JavaException Packetized := do
  let buffer ← newABuffer (numTSPackets * 188 : ℕ)
  let (s, o) ← (if a.emitsTables then s.emitTables ⟨buffer, 0⟩ else .ok (s, ⟨buffer, 0⟩))
  -- the loop that writes the PMT leaves its last track in the variable
  let i := if a.emitsTables then s.mTracks.length - 1 else i
  let o ← (if a.emitsPCR then o.putFilled (pcrPacket a.nowUs) else .ok o)
  match s.mTracks[i]? with
  | none => .error .arrayIndexOutOfBounds
  | some track => do
      let (o, track) ← emitPES s.alignPayload track a unit o
      if o.packetDataStart ≠ buffer.length then .error .runtime
      else .ok ⟨0, some o.buffer, { s with mTracks := s.mTracks.set i track }⟩

def packetize (s : TSPacketizer) (a : Args) : Except JavaException Packetized :=
  if s.mTracks.length ≤ a.trackIndex then .ok ⟨-ERANGE, none, s⟩
  else if a.trackIndex < 0 then .error .arrayIndexOutOfBounds
  else
    match s.mTracks[a.trackIndex.toNat]? with
    | none => .error .arrayIndexOutOfBounds
    | some track => do
        let unit ← track.prepend a.flags a.accessUnit
        let n ← numTSPackets s.alignPayload a.headerSize unit.length
        let n := n + (if a.emitsTables then 2 else 0) + (if a.emitsPCR then 1 else 0)
        s.emit a.trackIndex.toNat a unit n

end TSPacketizer

end MirrorCast
