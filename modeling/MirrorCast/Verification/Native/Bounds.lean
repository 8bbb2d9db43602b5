import MirrorCast.Verification.Native.ClientInfo
import MirrorCast.Verification.Native.ParameterSets
import Mathlib.Logic.Relation

/-! # When the receive thread stays in its buffers -/

namespace MirrorCast.Native.Receiving

open C Java Chunked Native.MediaServer

variable {valueString : List UInt8 → Option (List UInt8)} {goJni : Bool} {client : Client}

/-! ## The calls of `read_data` -/

/-- The client info that the thread uses, and nothing if it does not get it. -/
def info (sent : Sent) : List UInt8 := (array sent).1.elim [] Prod.snd

/-- A buffer has room for the array, and its length is none below zero. -/
structure SpsPpsFit (sent : Sent) : Prop where
  fits : ArrayFits DATA_BUFFER sent
  nonneg : ∀ want data, (array sent).1 = some (want, data) → 0 ≤ want

/-- The client with the array for `orientation`. -/
def Client.keep (client : Client) (orientation : ℤ) :
    Option (ℤ × List UInt8) → Client
  | none => client
  | some (_, data) =>
      if orientation = 1 then { client with sps_pps_portrait := data }
      else { client with sps_pps_landscape := data }

/-- The fields of the client that the decoder is set up from. -/
structure Configurable (client : Client) (orientation : ℤ) : Prop where
  codecName : 0 ∈ client.codecName.val
  mime : 0 ∈ client.mime.val
  readable : client.mime.val.takeWhile (· ≠ 0) = Client.AVC →
    Readable (client.sps_pps orientation)

/-- The array behind the one that comes next. -/
def secondArray (sent : Sent) : Option (ℤ × List UInt8) × Sent := array (array sent).2

/-- An array that arrives as a whole. -/
def Round (sent sent' : Sent) : Prop := ∃ out, array sent = (some out, sent')

/-- Whatever arrives before it, the buffer has room for every array. -/
def FramesFit (sent : Sent) : Prop :=
  ∀ sent', Relation.ReflTransGen Round sent sent' → ArrayFits DATA_BUFFER sent'

/-- What a client may send to a thread that starts with the globals of `client`. -/
structure Safe (goJni : Bool) (client : Client) (sent : Sent) : Prop where
  fits : ArrayFits 1024 sent
  info : InfoFits goJni (info sent)
  first : goJni = true → SpsPpsFit (array sent).2
  second : goJni = true → SpsPpsFit (array (array sent).2).2
  decoder : goJni = true → Configurable (client.keep 1 (array (array sent).2).1) 1
  frames : FramesFit (if goJni then (secondArray (array sent).2).2 else (array sent).2)

end MirrorCast.Native.Receiving
