import Mathlib.Algebra.Group.Int.Defs
import Mathlib.Algebra.Group.Nat.Defs
import Mathlib.Data.List.AList

/-!
# Wire types of the signaling protocol

The messages exchanged between peers and the signaling server, with the fields
of the protocol crate under their own names. Fixed-size byte arrays are bit
vectors of the same width (a `Uuid` is 128 bits, an Ed25519 key or an HMAC tag
256), enumerations are inductive types, and times are natural numbers of
milliseconds whose machine bound is `u64Max`.

The serialised forms are not modelled. What the server does with a text frame
that does not decode is part of the socket loop.
-/

namespace Qubox

abbrev Uuid := BitVec 128

namespace Uuid

/-- `Uuid::nil()`: tenant of self-hosted peers and marker of a presence fan-out. -/
def nil : Uuid := 0

def isNil (id : Uuid) : Bool := id == nil

def hexDigit (n : Nat) : Char := if n < 10 then Char.ofNat (48 + n) else Char.ofNat (87 + n)

/-- Lower-case hexadecimal digits of `count` nibbles, the highest first. -/
def hexNibbles (value : Nat) : Nat → List Char
  | 0 => []
  | count + 1 => hexDigit (value / 16 ^ count % 16) :: hexNibbles value count

/-- The hyphenated form printed by `Display`. -/
def toText (id : Uuid) : String :=
  let digits := hexNibbles id.toNat 32
  let group (first length : Nat) := String.ofList ((digits.drop first).take length)
  "-".intercalate [group 0 8, group 8 4, group 12 4, group 16 4, group 20 12]

end Uuid

/-- The largest value of a machine `u64`. -/
def u64Max : Nat := 2 ^ 64 - 1

/-- `u64::saturating_add`. -/
def saturatingAdd (a b : Nat) : Nat := min (a + b) u64Max

/-- `u64::saturating_mul`. -/
def saturatingMul (a b : Nat) : Nat := min (a * b) u64Max

/-- The cast `value as u64` of a signed 64-bit integer. -/
def asU64 (value : Int) : Nat := (value % 2 ^ 64).toNat

abbrev PublicKey := BitVec 256
abbrev HmacTag := BitVec 256

inductive PeerRole where
  | host
  | client
  deriving DecidableEq, Repr

inductive PlatformOs where
  | linux
  | windows
  | macos
  | android
  deriving DecidableEq, Repr

inductive TransportKind where
  | nativeQuic
  | webRtc
  | relayQuic
  | webTransport
  deriving DecidableEq, Repr

inductive VideoCodec where
  | h264
  | h265
  | av1
  deriving DecidableEq, Repr

inductive ScaleMode where
  | fit
  | fill
  | crop
  | native
  deriving DecidableEq, Repr

inductive CaptureKind where
  | pipewire
  | x11
  | desktopDuplication
  | screenCaptureKit
  | mediaProjection
  deriving DecidableEq, Repr

inductive ColorSpace where
  | bt709
  | bt2020
  | bt2100Pq
  | bt2100Hlg
  | scRgb
  deriving DecidableEq, Repr

structure DisplayDescriptor where
  id : UInt32
  name : String
  width : UInt32
  height : UInt32
  x : Int32 := 0
  y : Int32 := 0
  primary : Bool := false
  active : Bool := true
  deriving DecidableEq

structure CapabilityProfile where
  transports : List TransportKind := []
  capture : List CaptureKind := []
  encoders : List VideoCodec := []
  decoders : List VideoCodec := []
  notes : List String := []
  displays : List DisplayDescriptor := []
  deriving DecidableEq

def CapabilityProfile.supportsTransport (profile : CapabilityProfile)
    (transport : TransportKind) : Bool :=
  profile.transports.contains transport

structure PeerDescriptor where
  deviceId : Uuid
  peerId : Uuid
  deviceName : String
  role : PeerRole
  os : PlatformOs
  capabilities : CapabilityProfile
  deriving DecidableEq

structure PairingRequest where
  requestId : Uuid
  hostPeerId : Uuid
  clientLabel : String
  deriving DecidableEq

structure PairingDecision where
  requestId : Uuid
  approved : Bool
  deriving DecidableEq

structure PairingRequested where
  requestId : Uuid
  hostPeerId : Uuid
  client : PeerDescriptor
  clientLabel : String
  deriving DecidableEq

structure PairingGrant where
  hostPeerId : Uuid
  clientPeerId : Uuid
  deriving DecidableEq

structure SessionPermissions where
  input : Bool := true
  clipboard : Bool := true
  mic : Bool := true
  gamepad : Bool := true
  keyboard : Bool := true
  mouse : Bool := true
  deriving DecidableEq

structure CaptureRegion where
  x : UInt32
  y : UInt32
  width : UInt32
  height : UInt32
  deriving DecidableEq

structure VideoStreamPreferences where
  codec : Option VideoCodec := none
  width : Option UInt32 := none
  height : Option UInt32 := none
  framerate : Option UInt32 := none
  bitrateKbps : Option UInt32 := none
  scaleMode : Option ScaleMode := none
  displayIndex : Option UInt32 := none
  captureRegion : Option CaptureRegion := none
  encoder : Option String := none
  colorSpace : Option ColorSpace := none
  bitDepth : UInt8 := 8
  maxFramerate : Option UInt32 := none
  targetFramerate : Option UInt32 := none
  deriving DecidableEq

structure StartSessionRequest where
  sessionId : Uuid
  targetHostId : Uuid
  requestedTransport : Option TransportKind := none
  preferredCodec : Option VideoCodec := none
  video : Option VideoStreamPreferences := none
  permissions : SessionPermissions := {}
  syncOnly : Bool := false
  consentId : Option Uuid := none
  deriving DecidableEq

structure IceServer where
  urls : List String
  username : Option String
  credential : Option String
  deriving DecidableEq

structure SessionCredential where
  token : String
  expiresUnixMillis : Nat
  sessionId : Uuid
  hostPubkey : PublicKey
  clientPubkey : PublicKey
  issuedUnixMillis : Nat
  hmac : HmacTag
  deriving DecidableEq

structure SessionPlan where
  sessionId : Uuid
  targetHostId : Uuid
  transport : TransportKind
  codec : VideoCodec
  clientCredential : SessionCredential
  iceServers : List IceServer
  permissions : SessionPermissions
  syncOnly : Bool
  deriving DecidableEq

structure SessionRequested where
  sessionId : Uuid
  client : PeerDescriptor
  transport : TransportKind
  codec : VideoCodec
  hostCredential : SessionCredential
  clientCredential : SessionCredential
  iceServers : List IceServer
  video : Option VideoStreamPreferences
  permissions : SessionPermissions
  syncOnly : Bool
  deriving DecidableEq

inductive SessionSignal where
  | sdpOffer (sdp : String)
  | sdpAnswer (sdp : String)
  | iceCandidate (candidate : String) (sdpMid : Option String) (sdpMlineIndex : Option UInt16)
  | nativeQuicTicket (alpn ticketB64 : String)
  | webTransportTicket (ticketB64 : String)
  | ready
  deriving DecidableEq

structure RelaySignal where
  sessionId : Uuid
  fromPeerId : Uuid
  toPeerId : Uuid
  signal : SessionSignal
  deriving DecidableEq

/-! ## Cloud-signed bundles -/

structure SessionCaps where
  input : Bool := false
  clipboard : Bool := false
  mic : Bool := false
  files : Bool := false
  audio : Bool := false
  deriving DecidableEq

structure ViewerToHost where
  v : UInt8
  jti : String
  sid : String
  sub : String
  aud : String
  iat : Int
  exp : Int
  caps : SessionCaps
  viewerDtlsFp : String
  selectedDisplayId : Option UInt32
  deriving DecidableEq

structure TurnCreds where
  username : String
  credential : String
  deriving DecidableEq

structure IceAllowlist where
  v : UInt8
  jti : String
  exp : Int
  urls : List String
  creds : Option TurnCreds
  deriving DecidableEq

structure SignedKill where
  v : UInt8
  jti : String
  sid : String
  aud : String
  sub : String
  iat : Int
  exp : Int
  reason : String
  deriving DecidableEq

structure SignedBundle where
  kid : String
  v : UInt8
  payload : String
  sig : String
  deriving DecidableEq

structure SignedKillEnvelope where
  payload : SignedKill
  envelope : SignedBundle
  deriving DecidableEq

structure StartSessionBundleRequest where
  request : StartSessionRequest
  viewerBundle : SignedBundle
  iceAllowlist : Option SignedBundle
  deriving DecidableEq

structure PinProof where
  pinHashMatch : Bool
  deriving DecidableEq

structure SessionBundleInfo where
  sessionId : Uuid
  jti : String
  viewerDtlsFp : String
  expUnixMs : Nat
  caps : SessionCaps
  sub : String
  pinProof : Option PinProof
  selectedDisplayId : Option UInt32
  deriving DecidableEq

structure SignedHello where
  descriptor : PeerDescriptor
  publicKey : PublicKey
  signature : List UInt8
  deriving DecidableEq

/-! ## Messages -/

structure Welcome where
  selfId : Uuid
  message : String
  deriving DecidableEq

structure PresenceEvent where
  peer : PeerDescriptor
  connected : Bool
  deriving DecidableEq

structure ErrorMessage where
  code : String
  message : String
  deriving DecidableEq

inductive ClientMessage where
  | hello (descriptor : PeerDescriptor)
  | signedHello (hello : SignedHello)
  | listHosts
  | requestPairing (request : PairingRequest)
  | pairingDecision (decision : PairingDecision)
  | startSession (request : StartSessionRequest)
  | startSessionWithBundle (request : StartSessionBundleRequest)
  | relaySignal (signal : RelaySignal)
  | heartbeat
  | revokePairing (hostPeerId clientPeerId : Uuid)
  | kickSession (sessionId : Uuid) (reason : String)
  | createShareLink (ttlSecs : Nat) (permissions : SessionPermissions)
  | redeemShareLink (code clientLabel : String)
  | signedKill (envelope : SignedBundle)
  | operatorDecision (sessionId : Uuid) (accept : Bool)
  deriving DecidableEq

/-- Messages the server puts on an outbound channel. `SessionActivity`, which
only the cloud sends, is left out. -/
inductive ServerMessage where
  | welcome (welcome : Welcome)
  | hosts (hosts : List PeerDescriptor)
  | pairingRequested (request : PairingRequested)
  | pairingEstablished (grant : PairingGrant)
  | pairingRejected (requestId : Uuid) (reason : String)
  | sessionPlanned (plan : SessionPlan)
  | sessionRequested (request : SessionRequested)
  | signal (signal : RelaySignal)
  | presence (event : PresenceEvent)
  | heartbeatAck
  | error (message : ErrorMessage)
  | shareLinkCreated (code : String) (expiresUnixMs : Nat) (urlHint : String)
  | sessionKicked (sessionId : Uuid) (reason : String)
  | pairingRevoked (hostPeerId clientPeerId : Uuid)
  | sessionConsentPending (consentId clientPeerId hostPeerId : Uuid) (expiresAtUnixMs : Nat)
      (clientLabel : String)
  | sessionBundleAccepted (info : SessionBundleInfo)
  | signedKillReceived (envelope : SignedKillEnvelope)
  deriving DecidableEq

end Qubox
