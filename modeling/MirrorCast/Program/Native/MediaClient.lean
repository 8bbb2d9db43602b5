import MirrorCast.Library.C
import MirrorCast.Library.Machine

/-! # `MediaClient.cpp`: the sending end of the TCP stream -/

namespace MirrorCast.Native

/-- A message for `sendData`, and what a `write` of it returns if it comes to that: an error, or
the number of bytes taken, as POSIX allows. -/
structure Call where
  data : List UInt8
  written : ℤ
  allowed : written = -1 ∨ 1 ≤ written ∧ written ≤ data.length
  deriving DecidableEq

/-- The globals of the sender, the bytes that have gone into the socket, and whether
`sendDataError` has been called. -/
structure Sender where
  server_sock_fd : ℤ
  isRecording : Bool
  isPlaying1 : Bool
  isPlaying2 : Bool
  socket : List UInt8
  reported : Bool
  deriving DecidableEq, Repr

namespace MediaClient

/-- `set_client_info(info, length)`: what it leaves in `client_info`. -/
def set_client_info (info : List UInt8) (length : ℕ) : Except C.Undefined (List UInt8) :=
  C.strncpy (List.replicate 1024 0) info length

/-- What `client_connect()` writes once it is connected. -/
def client_connect (client_info : List UInt8) (client_info_length : ℕ) : List UInt8 :=
  let dnl := [Java.toByte client_info_length, Java.toByte (client_info_length / 2 ^ 8),
    Java.toByte (client_info_length / 2 ^ 16), Java.toByte (client_info_length / 2 ^ 24)]
  dnl ++ client_info.take client_info_length

/-- `send_data(data_buffer, length)`: what it returns, and what the socket has got then. -/
def send_data (s : Sender) (c : Call) : ℤ × List UInt8 :=
  if s.server_sock_fd ≠ -1 then (c.written, s.socket ++ c.data.take c.written.toNat)
  else (-1, s.socket)

end MediaClient

namespace MediaCodec

/-- `sendData(data_buffer, length)`, under `mutex1`. -/
def sendData (s : Sender) (c : Call) : Sender :=
  if s.isRecording then
    let (sendLength, socket) := MediaClient.send_data s c
    if sendLength ≤ 0 then
      { s with socket, isRecording := false, isPlaying1 := false, isPlaying2 := false,
               reported := true }
    else { s with socket }
  else s

def sendStep : Machine.Step Sender Call Empty Empty := fun s c => .ok (sendData s c, [])

/-- What a sequence of `sendData` calls leaves. -/
def sendAll (s : Sender) (calls : List Call) : Sender := calls.foldl sendData s

end MediaCodec

end MirrorCast.Native
