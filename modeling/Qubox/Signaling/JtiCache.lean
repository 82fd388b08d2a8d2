import Qubox.Library.Table

/-!
# The single-use cache of bundle identifiers

`JtiCache` remembers accepted bundle identifiers until their expiry and keeps
the denylist filled by signed kills. Entries carry only an expiry, so both
buckets are tables from identifiers to milliseconds. `lru` is maintained as the
source maintains it, although no operation reads it.
-/

namespace Qubox.Signaling

inductive JtiError where
  | replay
  | killed
  | capacity
  | invalid
  deriving DecidableEq, Repr

def JtiError.text : JtiError → String
  | .replay => "jti replay rejected (single-use enforcement)"
  | .killed => "jti is on local kill denylist"
  | .capacity => "jti cache is full (fail-closed)"
  | .invalid => "jti is malformed"

structure JtiCache where
  seen : AList (fun _ : String => Nat)
  denied : AList (fun _ : String => Nat)
  maxEntries : Nat
  lru : List String

namespace JtiCache

def defaultMaxEntries : Nat := 100000

def withCapacity (maxEntries : Nat) : JtiCache where
  seen := ∅
  denied := ∅
  maxEntries := max maxEntries 1
  lru := []

def new : JtiCache := withCapacity defaultMaxEntries

/-- `char::is_control`: the code points of the general category `Cc`. -/
def isControl (c : Char) : Bool := c.toNat ≤ 0x1F || (0x7F ≤ c.toNat && c.toNat ≤ 0x9F)

def validateJti (jti : String) : Except JtiError Unit :=
  if jti.isEmpty then .error .invalid
  else if 256 < jti.utf8ByteSize then .error .invalid
  else if jti.toList.any isControl then .error .invalid
  else .ok ()

/-- Drop every entry whose expiry is not in the future. -/
def pruneExpired (cache : JtiCache) (nowUnixMs : Nat) : JtiCache :=
  let seen := cache.seen.retain (fun _ exp => decide (nowUnixMs < exp))
  { cache with
    seen
    denied := cache.denied.retain (fun _ exp => decide (nowUnixMs < exp))
    lru := cache.lru.filter (fun jti => (seen.lookup jti).isSome) }

def isDenied (cache : JtiCache) (jti : String) (nowUnixMs : Nat) : Bool :=
  match cache.denied.lookup jti with
  | some exp => decide (nowUnixMs < exp)
  | none => false

def isSeen (cache : JtiCache) (jti : String) (nowUnixMs : Nat) : Bool :=
  match cache.seen.lookup jti with
  | some exp => decide (nowUnixMs < exp)
  | none => false

def forgetSeen (cache : JtiCache) (jti : String) : JtiCache :=
  { cache with seen := cache.seen.erase jti, lru := cache.lru.filter (· ≠ jti) }

/-- The insertion at the end of `check_and_mark`, fail-closed at capacity. -/
def mark (cache : JtiCache) (jti : String) (expUnixMs : Nat) : Except JtiError Unit × JtiCache :=
  if cache.maxEntries ≤ cache.seen.entries.length + cache.denied.entries.length then
    (.error .capacity, cache)
  else
    (.ok (), { cache with
      seen := cache.seen.insert jti expUnixMs
      lru := cache.lru ++ [jti] })

/-- Check that `jti` is fresh and mark it as seen. A live denial wins over a
live acceptance; an expired entry of either kind is dropped on the way. -/
def checkAndMark (cache : JtiCache) (jti : String) (expUnixMs nowUnixMs : Nat) :
    Except JtiError Unit × JtiCache :=
  match validateJti jti with
  | .error e => (.error e, cache)
  | .ok () =>
    let pruned := cache.pruneExpired nowUnixMs
    if pruned.isDenied jti nowUnixMs then (.error .killed, pruned)
    else
      let allowed := { pruned with denied := pruned.denied.erase jti }
      if allowed.isSeen jti nowUnixMs then (.error .replay, allowed)
      else if (allowed.seen.lookup jti).isSome then (allowed.forgetSeen jti).mark jti expUnixMs
      else allowed.mark jti expUnixMs

/-- Put `jti` on the kill denylist, dropping its acceptance record. -/
def denylist (cache : JtiCache) (jti : String) (expUnixMs : Nat) :
    Except JtiError Unit × JtiCache :=
  match validateJti jti with
  | .error e => (.error e, cache)
  | .ok () =>
    let forgotten := cache.forgetSeen jti
    (.ok (), { forgotten with denied := forgotten.denied.insert jti expUnixMs })

end JtiCache

end Qubox.Signaling
