import MirrorCast.Library.Java

/-! # `VideoEncoder.checkFormat`: the size and the rates of the encoded video -/

namespace MirrorCast.VideoEncoder

open Java

def VIDEO_BIT_RATE_MIN : ℤ := 500000
def VIDEO_BIT_RATE_MAX : ℤ := 10000000
def FRAME_RATE_MIN : ℤ := 10
def FRAME_RATE_MAX : ℤ := 30
def I_FRAME_INTERVAL_MIN : ℤ := 1
def I_FRAME_INTERVAL_MAX : ℤ := 60
def COLOR_FormatSurface : ℤ := 0x7f000789

/-- The keys that `checkFormat` gets; `initEncoder` has made sure that they are there. -/
structure MediaFormat where
  KEY_WIDTH : ℤ
  KEY_HEIGHT : ℤ
  KEY_BIT_RATE : ℤ
  KEY_FRAME_RATE : ℤ
  KEY_I_FRAME_INTERVAL : ℤ
  KEY_CAPTURE_RATE : Option ℤ
  KEY_COLOR_FORMAT : Option ℤ
  deriving DecidableEq, Repr

structure DisplayMetrics where
  widthPixels : ℤ
  heightPixels : ℤ
  deriving DecidableEq, Repr

/-- The fields that `checkFormat` sets; `mFrameRate` is a `float` with the value of an `int`. -/
structure Encoder where
  mWidth : ℤ
  mHeight : ℤ
  mFrameRate : ℤ
  deriving DecidableEq, Repr

/-- A calculation with `int`s. Its state are the products so far, before they are cut. -/
abbrev Calculation := StateT (List ℤ) (Except JavaException)

/-- `a * b`. -/
def mul (a b : ℤ) : Calculation ℤ := do
  modify (· ++ [a * b])
  return int32 (a * b)

/-- `a / b`; an `ArithmeticException` is a `RuntimeException`. -/
def div (a b : ℤ) : Calculation ℤ :=
  if b = 0 then throw .runtime else return int32 (a.tdiv b)

/-- `if ((n & 1) == 1) n -= 1`. -/
def roundToEven (n : ℤ) : ℤ := if n % 2 = 1 then int32 (n - 1) else n

/-- `newWidth` and `newHeight`. -/
def newSize (mWidth mHeight displayWidth displayHeight : ℤ) : Calculation (ℤ × ℤ) := do
  let left ← mul mWidth displayHeight
  let right ← mul displayWidth mHeight
  if right < left then -- mWidth is much bigger
    let newWidth := displayWidth
    let newHeight ← div (← mul mHeight newWidth) mWidth
    return (newWidth, roundToEven newHeight)
  else
    let left ← mul mWidth displayHeight
    let right ← mul displayWidth mHeight
    if left < right then -- mHeight is much bigger
      let newHeight := displayHeight
      let newWidth ← div (← mul mWidth newHeight) mHeight
      return (roundToEven newWidth, newHeight)
    else return (displayWidth, displayHeight)

/-- What `checkFormat` sets once `mWidth` and `mHeight` are known. -/
def setFormat (format : MediaFormat) (mWidth mHeight : ℤ) : Encoder × MediaFormat :=
  let bitRate := max VIDEO_BIT_RATE_MIN (min format.KEY_BIT_RATE VIDEO_BIT_RATE_MAX)
  let mFrameRate := max FRAME_RATE_MIN (min format.KEY_FRAME_RATE FRAME_RATE_MAX)
  let iFrameInterval :=
    max I_FRAME_INTERVAL_MIN (min format.KEY_I_FRAME_INTERVAL I_FRAME_INTERVAL_MAX)
  (⟨mWidth, mHeight, mFrameRate⟩,
    { KEY_WIDTH := mWidth
      KEY_HEIGHT := mHeight
      KEY_BIT_RATE := bitRate
      KEY_FRAME_RATE := mFrameRate
      KEY_I_FRAME_INTERVAL := iFrameInterval
      KEY_CAPTURE_RATE := some mFrameRate
      KEY_COLOR_FORMAT := some COLOR_FormatSurface })

def checkFormat (mDisplayMetrics : DisplayMetrics) (format : MediaFormat) :
    Calculation (Encoder × MediaFormat) := do
  let displayWidth := mDisplayMetrics.widthPixels
  let displayHeight := mDisplayMetrics.heightPixels
  if displayWidth < format.KEY_WIDTH ∨ displayHeight < format.KEY_HEIGHT then
    let size ← newSize format.KEY_WIDTH format.KEY_HEIGHT displayWidth displayHeight
    return setFormat format size.1 size.2
  else return setFormat format format.KEY_WIDTH format.KEY_HEIGHT

end MirrorCast.VideoEncoder
