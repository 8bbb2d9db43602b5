import MirrorCast.Program.ANetworkSession

/-! # `WifiDisplaySource`: the RTSP source -/

namespace MirrorCast

open Java ANetworkSession

namespace WifiDisplaySource

/-- What a `WHAT_BINARY_DATA` notification of the playback session makes of the RTSP session. -/
def sendBinaryData (s : Session) (channel : ℤ) (data : Data) (size : ℕ) :
    Except JavaException Session :=
  if 0xff ≤ channel then .error .runtime
  else if 0xffff ≤ size then .error .runtime
  else do
    let header := Data.allocate 4 (by decide)
    let header ← header.put 0x24
    let header ← header.put (toByte channel)
    let header ← header.put (toByte (size / 2 ^ 8 : ℕ))
    let header ← header.put (toByte size)
    let (s, _) ← s.sendRequest header header.remaining none
    let (s, _) ← s.sendRequest data size none
    return s

end WifiDisplaySource

end MirrorCast
