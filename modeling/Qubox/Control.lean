import Qubox.Library.Bytes

/-!
# Control messages

The messages of a control channel. Floating-point fields are given by their bits. The kinds
that no modelled reader looks into are given by the text they are sent as.
-/

namespace Qubox

structure RateFeedback where
  rttMs : UInt16
  lossX1000 : UInt16
  jitterMs : UInt16
  oneWayDelayMs : UInt32
  oneWayDelayMinMs : UInt32
  deriving DecidableEq

inductive ClipboardPayload where
  | text (utf8 : String)
  | imagePng (width height : UInt32) (png : Bytes)
  | clear
  deriving DecidableEq

structure MicStreamConfig where
  sampleRateHz : UInt32 := 48000
  channels : UInt8 := 1
  frameMs : UInt8 := 20
  bitrateBps : UInt32 := 64000
  aecEnabled : Bool := true
  nsEnabled : Bool := true
  agcEnabled : Bool := true
  deriving DecidableEq

inductive ControlMsg where
  | rateFeedback (feedback : RateFeedback)
  | clipboardChanged (seq : UInt64) (payload : ClipboardPayload)
  | micStart (config : MicStreamConfig)
  | micStop
  | other (text : Bytes)
  deriving DecidableEq

end Qubox
