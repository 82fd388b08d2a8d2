import Mathlib.Logic.Function.Basic
import Qubox.Control
import Qubox.FileSync.Transfer
import Qubox.Library.Stepping

/-!
# Clipboard synchronisation

Each of two peers polls its clipboard and sends what is new to the other, which puts it into
its own clipboard. The watcher of a peer knows the last content it sent; the applier knows
the last sequence number it applied; neither knows what the other did. Beside them, the state
keeps a log and some notes on each peer, which no program reads.
-/

namespace Qubox.Clipboard

open FileSync (utf8)

/-! ## The clipboard of a system -/

/-- `arboard::ImageData` -/
structure Image where
  width : UInt32
  height : UInt32
  bytes : Bytes
  deriving DecidableEq

structure Contents where
  text : Option String := none
  image : Option Image := none
  deriving DecidableEq

structure ClipboardImage where
  width : UInt32
  height : UInt32
  png : Bytes
  deriving DecidableEq

structure ClipboardSnapshot where
  text : Option String := none
  image : Option ClipboardImage := none
  deriving DecidableEq

structure ClipboardSyncConfig where
  textEnabled : Bool := true
  imageEnabled : Bool := true
  deriving DecidableEq

/-- The PNG coder and the content hash. -/
structure Codecs (Hash : Type) where
  encodePng : UInt32 → UInt32 → Bytes → Option Bytes
  decodePng : Bytes → Option Image
  blake3 : Bytes → Hash
  /-- PNG keeps every pixel. -/
  lossless : ∀ {width height bytes png}, encodePng width height bytes = some png →
    decodePng png = some ⟨width, height, bytes⟩

def maxImagePixels : Nat := 4096 * 4096

section

variable {Hash : Type} (codecs : Codecs Hash)

/-- An image that is empty, too large or does not encode is left out. -/
def readImage (image : Image) : Option ClipboardImage :=
  if image.bytes.isEmpty ∨ maxImagePixels < image.width.toNat * image.height.toNat then none
  else (codecs.encodePng image.width image.height image.bytes).map
    (⟨image.width, image.height, ·⟩)

def readSnapshot (config : ClipboardSyncConfig) (contents : Contents) : ClipboardSnapshot where
  text := if config.textEnabled then contents.text.filter (· ≠ "") else none
  image := if config.imageEnabled then contents.image.bind (readImage codecs) else none

def snapshotToPayload (snapshot : ClipboardSnapshot) : ClipboardPayload :=
  match snapshot.image, snapshot.text with
  | some image, _ => .imagePng image.width image.height image.png
  | none, some text => .text text
  | none, none => .clear

def applyPayload : ClipboardPayload → Option Contents
  | .text utf8 => some { text := some utf8 }
  | .imagePng _ _ png => (codecs.decodePng png).map fun image => { image := some image }
  | .clear => some {}

def littleEndian (n : UInt32) : Bytes := (Bytes.ofNatBE 4 n.toNat).reverse

def hashPayload : ClipboardPayload → Hash
  | .text text => codecs.blake3 (utf8 text)
  | .imagePng width height png => codecs.blake3 (littleEndian width ++ littleEndian height ++ png)
  | .clear => codecs.blake3 []

end

/-! ## Watcher and applier -/

/-- The fields of `ClipboardChanged`. -/
structure ClipboardChange where
  seq : UInt64
  payload : ClipboardPayload
  deriving DecidableEq

structure ClipboardWatcher (Hash : Type) where
  nextSeq : UInt64 := 0
  lastHash : Option Hash := none
  lastWasClear : Bool := false

section

variable {Hash : Type} [DecidableEq Hash] (codecs : Codecs Hash)

/-- `poll_once`, once the clipboard has been read. -/
def ClipboardWatcher.poll (watcher : ClipboardWatcher Hash) (payload : ClipboardPayload) :
    ClipboardWatcher Hash × Option ClipboardChange :=
  if some (hashPayload codecs payload) = watcher.lastHash then (watcher, none)
  else if payload = .clear ∧ watcher.lastWasClear then (watcher, none)
  else
    let seq := watcher.nextSeq + 1
    ({ nextSeq := seq, lastHash := some (hashPayload codecs payload),
       lastWasClear := payload = .clear }, some ⟨seq, payload⟩)

end

def seqAdvances (lastSeenSeq incomingSeq : UInt64) : Bool := lastSeenSeq < incomingSeq

/-! ## Two peers -/

inductive Side where
  | left
  | right
  deriving DecidableEq

def Side.other : Side → Side
  | left => right
  | right => left

structure ClipboardPeer (Hash : Type) where
  config : ClipboardSyncConfig
  contents : Contents
  watcher : ClipboardWatcher Hash := {}
  lastSeq : UInt64 := 0
  /-- The applier put the contents there, and the user has copied nothing since. -/
  isRemote : Bool := false
  /-- The applier has put something there since the watcher last sent. -/
  overtaken : Bool := false
  lastSent : Option ClipboardPayload := none
  lastApplied : Option ClipboardPayload := none
  /-- What the watcher saw at its last poll. -/
  polled : Option Contents := none

inductive ClipboardEvent where
  | copied
  /-- `echo`: the applier of the same peer had put the payload there. -/
  | sent (echo : Bool)
  /-- A poll that sends nothing. `missed`: since the poll before, the user has changed the
  contents, be it from an empty text to a cleared clipboard. -/
  | passed (missed : Bool)
  deriving DecidableEq

def ClipboardEvent.isSent : ClipboardEvent → Bool
  | sent _ => true
  | _ => false

structure ClipboardPair (Hash : Type) where
  peer : Side → ClipboardPeer Hash
  /-- The changes on their way to a side. -/
  inbox : Side → List ClipboardChange := fun _ => []
  log : List ClipboardEvent := []

inductive ClipboardStep where
  | copies (side : Side) (contents : Contents)
  /-- `readable`: the system lets the watcher read the clipboard. -/
  | polls (side : Side) (readable : Bool)
  /-- `writable`: the system lets the applier write the clipboard. -/
  | delivers (side : Side) (writable : Bool)

namespace ClipboardPeer

variable {Hash : Type} [DecidableEq Hash] (codecs : Codecs Hash) (peer : ClipboardPeer Hash)

/-- What the watcher reads from a clipboard. -/
def reads (contents : Contents) : ClipboardPayload :=
  snapshotToPayload (readSnapshot codecs peer.config contents)

def payload : ClipboardPayload := peer.reads codecs peer.contents

def copy (contents : Contents) : ClipboardPeer Hash :=
  { peer with contents, isRemote := false }

/-- A poll that sends nothing. -/
def pass (watcher : ClipboardWatcher Hash) : ClipboardPeer Hash :=
  { peer with watcher, polled := some peer.contents }

def sent (watcher : ClipboardWatcher Hash) : ClipboardPeer Hash :=
  { peer.pass watcher with overtaken := false, lastSent := some (peer.payload codecs) }

/-- `ClipboardApplier::apply` -/
def apply (change : ClipboardChange) (writable : Bool) : ClipboardPeer Hash :=
  if seqAdvances peer.lastSeq change.seq then
    match if writable then applyPayload codecs change.payload else none with
    | some contents =>
        { peer with
          contents
          lastSeq := change.seq
          isRemote := true
          overtaken := true
          lastApplied := some change.payload }
    | none => peer
  else peer

end ClipboardPeer

namespace ClipboardPair

variable {Hash : Type} [DecidableEq Hash] (codecs : Codecs Hash) (pair : ClipboardPair Hash)

def start (config : Side → ClipboardSyncConfig) (contents : Side → Contents) :
    ClipboardPair Hash where
  peer side := { config := config side, contents := contents side }

def setPeer (side : Side) (peer : ClipboardPeer Hash) : ClipboardPair Hash :=
  { pair with peer := Function.update pair.peer side peer }

def poll (side : Side) : ClipboardPair Hash :=
  let peer := pair.peer side
  match peer.watcher.poll codecs (peer.payload codecs) with
  | (watcher, some change) =>
      { pair.setPeer side (peer.sent codecs watcher) with
        inbox := Function.update pair.inbox side.other (pair.inbox side.other ++ [change])
        log := pair.log ++ [.sent peer.isRemote] }
  | (watcher, none) =>
      { pair.setPeer side (peer.pass watcher) with
        log := pair.log ++ [.passed (!peer.isRemote && peer.polled.any (· ≠ peer.contents))] }

def deliver (side : Side) (change : ClipboardChange) (rest : List ClipboardChange)
    (writable : Bool) : ClipboardPair Hash :=
  { pair.setPeer side ((pair.peer side).apply codecs change writable) with
    inbox := Function.update pair.inbox side rest }

def step : ClipboardStep → Option (ClipboardPair Hash)
  | .copies side contents =>
      some { pair.setPeer side ((pair.peer side).copy contents) with log := pair.log ++ [.copied] }
  | .polls side readable => some (if readable then pair.poll codecs side else pair)
  | .delivers side writable =>
      match pair.inbox side with
      | [] => none
      | change :: rest => some (pair.deliver codecs side change rest writable)

def run : ClipboardPair Hash → List ClipboardStep → Option (ClipboardPair Hash) :=
  Stepping.run (step codecs)

/-! ## Synchronisation without echo -/

/-- Nothing is on its way, and there is nothing of a user left to send. -/
def Quiet : Prop :=
  ∀ side, pair.inbox side = [] ∧ ((pair.peer side).isRemote = false →
    ((pair.peer side).watcher.poll codecs ((pair.peer side).payload codecs)).2 = none)

def sinceCopy : List ClipboardEvent := pair.log.reverse.takeWhile (· ≠ .copied)

structure Synced : Prop where
  noEcho : .sent true ∉ pair.log
  /-- Since the user last copied something, each peer has sent one change at most. -/
  finite : pair.sinceCopy.countP ClipboardEvent.isSent ≤ 2
  equal : pair.Quiet codecs → (pair.peer .left).contents = (pair.peer .right).contents
  changesSent : .passed true ∉ pair.log

/-- The payload that a watcher reads is all there is on the clipboard. -/
def Whole (side : Side) (contents : Contents) : Prop :=
  applyPayload codecs ((pair.peer side).reads codecs contents) = some contents

/-- New contents have the hash that was last sent only if they are what was last sent. -/
def Distinct (side : Side) (contents : Contents) : Prop :=
  some (hashPayload codecs ((pair.peer side).reads codecs contents)) =
      (pair.peer side).watcher.lastHash →
    (pair.peer side).lastSent = some ((pair.peer side).reads codecs contents)

/-- The user copies contents that a payload can say, and not again what the watcher sent last
after something else came from the other side. The watcher does not see contents from the
other side, unless they are what it sent last, and sends nothing while something is on its
way from there. The applier can write. -/
def Careful : ClipboardStep → Prop
  | .copies side contents =>
      pair.Whole codecs side contents ∧ pair.Distinct codecs side contents ∧
        (some (hashPayload codecs ((pair.peer side).reads codecs contents)) =
            (pair.peer side).watcher.lastHash → (pair.peer side).overtaken = false)
  | .polls side readable => readable →
      ((pair.peer side).isRemote ∨ pair.inbox side ≠ [] →
        some (hashPayload codecs ((pair.peer side).payload codecs)) =
          (pair.peer side).watcher.lastHash) ∧
      (pair.peer side).watcher.nextSeq < (pair.peer side).watcher.nextSeq + 1
  | .delivers side writable => writable ∧ ∀ change ∈ (pair.inbox side).head?, ∀ contents,
      applyPayload codecs change.payload = some contents → pair.Distinct codecs side contents

def CarefulSteps : ClipboardPair Hash → List ClipboardStep → Prop :=
  Stepping.Meets (step codecs) (Careful codecs)

end ClipboardPair

end Qubox.Clipboard
