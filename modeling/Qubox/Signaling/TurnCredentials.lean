import Mathlib.Data.List.TakeWhile
import Qubox.Identity.Device
import Qubox.Library.Checked
import Qubox.Library.Numeral
import Qubox.Signaling.IceFilter

/-!
# TURN credentials

The signaling server and the host each mint short-term credentials from the secret
they share. The username is made of four parts with colons between them, and the
password is its tag. HMAC-SHA1 and base64 are given functions.

The two agree on everything but the configuration: the server reads the lifetime as
a `u32` and the host as a `u64`, and only the host takes an empty secret for none.
-/

namespace Qubox.Signaling

open FileSync (utf8)

/-- HMAC-SHA1 of a key and a message, and the standard base64 engine. -/
structure TurnCrypto where
  hmacSha1 : Bytes → Bytes → Bytes
  encode : Bytes → String
  decode : List Char → Option Bytes

/-- No text of the base64 alphabet has a colon. -/
structure TurnCrypto.Alphabet (crypto : TurnCrypto) : Prop where
  encode : ∀ bytes, ':' ∉ (crypto.encode bytes).toList
  decode : ∀ text bytes, crypto.decode text = some bytes → ':' ∉ text

/-- The variables that are read; one that is not Unicode counts as missing. -/
structure TurnEnv where
  /-- `QUBOX_TURN_SECRET` -/
  secret : Option String
  /-- `QUBOX_TURN_URLS` -/
  urls : Option String
  /-- `QUBOX_TURN_REGIONS` -/
  regions : Option String
  /-- `QUBOX_TURN_TTL_SECS` -/
  ttlSecs : Option String
  /-- `QUBOX_TURN_SECRET_PREVIOUS` -/
  previousSecret : Option String

/-- A lifetime in a word of `bits` bits, or one hour. -/
def ttlOf (bits : Nat) (value : Option String) : Nat :=
  match value.map fun v => Numeral.parse bits v.toList with
  | some (.ok ttl) => ttl
  | _ => 3600

/-- `SystemTime::now().duration_since(UNIX_EPOCH).unwrap_or_default().as_secs()`: the
clock counts in an `i64`, and a time before the epoch is an error. -/
def unixSecs (clock : Int64) : Nat := clock.toNatClampNeg

/-! ## The server -/

structure TurnServerConfig where
  url : String
  weight : Nat
  region : String
  deriving DecidableEq

structure TurnConfig where
  urls : List TurnServerConfig
  sharedSecret : String
  defaultTtl : Nat
  previousSecret : Option String

structure TurnCredentials where
  urls : List String
  username : String
  password : String
  ttl : Nat
  deriving DecidableEq

structure TurnState where
  configured : Bool
  config : TurnConfig

/-- `split(separator).map(str::trim).filter(|s| !s.is_empty())` -/
def splitTrimmed (separator : Char) (text : List Char) : List (List Char) :=
  ((text.splitOn separator).map trim).filter (· ≠ [])

/-- The servers of one entry `region|url;url`, or of URLs without a region. -/
def regionServers (entry : List Char) : List TurnServerConfig :=
  let (region, urls) :=
    match entry.dropWhile (· ≠ '|') with
    | _ :: urls => (trim (entry.takeWhile (· ≠ '|')), urls)
    | [] => ([], entry)
  (splitTrimmed ';' urls).map fun url => ⟨String.ofList url, 1, String.ofList region⟩

def addUrl (servers : List TurnServerConfig) (url : List Char) : List TurnServerConfig :=
  if servers.any fun s => s.url = String.ofList url then servers
  else servers ++ [⟨String.ofList url, 1, ""⟩]

def turnServers (env : TurnEnv) : List TurnServerConfig :=
  let regional := (splitTrimmed ',' (env.regions.getD "").toList).flatMap regionServers
  (splitTrimmed ',' (env.urls.getD "").toList).foldl addUrl regional

namespace TurnState

def fromEnv (env : TurnEnv) : TurnState :=
  let ttl := ttlOf 32 env.ttlSecs
  match env.secret, turnServers env with
  | some sharedSecret, servers@(_ :: _) =>
    { configured := true
      config := {
        urls := servers
        sharedSecret
        defaultTtl := ttl
        previousSecret := env.previousSecret } }
  | _, _ =>
    { configured := false
      config := { urls := [], sharedSecret := "", defaultTtl := ttl, previousSecret := none } }

end TurnState

/-- The order of `sort_by`: STUN first, then by text. -/
def stunFirst (a b : String) : Bool :=
  let aStun := "stun:".toList.isPrefixOf a.toList
  let bStun := "stun:".toList.isPrefixOf b.toList
  if aStun = bStun then a ≤ b else aStun

section Minting

variable (crypto : TurnCrypto)

def issueCredentials (cfg : TurnConfig) (clock : Int64) (sessionId : Uuid) (peerIdStr : String) :
    Option TurnCredentials := do
  let expiry ← Checked.word 64 (unixSecs clock + cfg.defaultTtl)
  let expiryStr := expiry.repr
  let expiryHmac := crypto.encode (crypto.hmacSha1 (utf8 cfg.sharedSecret) (utf8 expiryStr))
  let username :=
    expiryStr ++ ":" ++ expiryHmac ++ ":peer=" ++ peerIdStr ++ ":session=" ++ sessionId.toText
  let password := crypto.encode (crypto.hmacSha1 (utf8 cfg.sharedSecret) (utf8 username))
  return {
    urls := (cfg.urls.map TurnServerConfig.url).mergeSort stunFirst
    username
    password
    ttl := cfg.defaultTtl }

/-- The key in a peer string: hexadecimal, or base64 of 32 bytes. -/
def decodePubkey (raw : String) : Option Bytes :=
  let trimmed := trim raw.toList
  if trimmed = [] then none
  else if trimmed.length = 64 ∧ trimmed.all (fun c => (Identity.hexValue c).isSome) then
    Identity.hexDecodeChars trimmed
  else (crypto.decode trimmed).filter fun bytes => bytes.length = 32

/-! ## The host -/

structure ResolvedIce where
  servers : List IceServer
  skipReason : Option String
  deriving DecidableEq

def isTurnUrl (url : String) : Bool :=
  "turn:".toList.isPrefixOf url.toList || "turns:".toList.isPrefixOf url.toList

def mintForSession (env : TurnEnv) (clock : Int64) (sessionId peerId : Uuid)
    (servers : List IceServer) : Option ResolvedIce :=
  match env.secret.filter (· ≠ "") with
  | none =>
    let hasTurn := (servers.flatMap IceServer.urls).any isTurnUrl
    some {
      servers
      skipReason :=
        if hasTurn then some "QUBOX_TURN_SECRET unset; turn: servers left without credentials"
        else none }
  | some secret => do
    let expiry ← Checked.word 64 (unixSecs clock + ttlOf 64 env.ttlSecs)
    let expiryStr := expiry.repr
    let expiryHmac := crypto.encode (crypto.hmacSha1 (utf8 secret) (utf8 expiryStr))
    let username :=
      expiryStr ++ ":" ++ expiryHmac ++ ":peer=" ++ peerId.toText ++ ":session=" ++ sessionId.toText
    let password := crypto.encode (crypto.hmacSha1 (utf8 secret) (utf8 username))
    let mint (s : IceServer) : IceServer :=
      if s.username.isSome && s.credential.isSome then s
      else if !s.urls.any isTurnUrl then s
      else { urls := s.urls, username := some username, credential := some password }
    return { servers := servers.map mint, skipReason := none }

/-! ## Agreement -/

/-- A peer string that a minter can be given: one that names a key, or the text of an id. -/
def PeerText (peer : String) : Prop :=
  (decodePubkey crypto peer).isSome ∨ ∃ id : Uuid, peer = id.toText

/-- The servers with the credentials where a turn or turns URL has none. -/
def withCredentials (credentials : TurnCredentials) (s : IceServer) : IceServer :=
  if (∃ url ∈ s.urls, isTurnUrl url = true) ∧ (s.username = none ∨ s.credential = none) then
    { s with username := some credentials.username, credential := some credentials.password }
  else s

/-- The peer and the session that a username names. -/
def parties (username : String) : Option (String × String) :=
  match username.toList.splitOn ':' with
  | [_, _, peer, session] =>
    some (String.ofList (peer.drop "peer=".length), String.ofList (session.drop "session=".length))
  | _ => none

/-- Both sides mint the same credentials, and a username tells what it is for. -/
structure Agree (env : TurnEnv) : Prop where
  issued : ∀ clock session peer, PeerText crypto peer → ∃ credentials,
    issueCredentials crypto (TurnState.fromEnv env).config clock session peer = some credentials
  same : ∀ clock session peer servers, ∃ credentials,
    issueCredentials crypto (TurnState.fromEnv env).config clock session (Uuid.toText peer) =
        some credentials ∧
      (mintForSession crypto env clock session peer servers).map ResolvedIce.servers =
        some (servers.map (withCredentials credentials))
  split : ∀ clock session peer credentials, PeerText crypto peer →
    issueCredentials crypto (TurnState.fromEnv env).config clock session peer = some credentials →
    let cfg := (TurnState.fromEnv env).config
    let expiry := (unixSecs clock + cfg.defaultTtl).repr
    credentials.username.toList.splitOn ':' =
        [expiry.toList,
          (crypto.encode (crypto.hmacSha1 (utf8 cfg.sharedSecret) (utf8 expiry))).toList,
          ("peer=" ++ peer).toList, ("session=" ++ session.toText).toList] ∧
      parties credentials.username = some (peer, session.toText)
  apart : ∀ clock session peer credentials clock' session' peer' credentials',
    PeerText crypto peer → PeerText crypto peer' →
    issueCredentials crypto (TurnState.fromEnv env).config clock session peer = some credentials →
    issueCredentials crypto (TurnState.fromEnv env).config clock' session' peer' =
      some credentials' →
    credentials.username = credentials'.username → session = session' ∧ peer = peer'

/-! ## Texts without colons -/

theorem colon_not_mem_repr (n : Nat) : ':' ∉ n.repr.toList := by
  rw [Nat.toList_repr]
  intro member
  exact absurd (Nat.isDigit_of_mem_toDigits (by decide) (by decide) member) (by decide)

theorem colon_not_mem_hexNibbles (value count : Nat) : ':' ∉ Uuid.hexNibbles value count := by
  have all : ∀ n < 16, Uuid.hexDigit n ≠ ':' := by decide
  induction count with
  | zero => exact List.not_mem_nil
  | succ count ih =>
      rw [Uuid.hexNibbles, List.mem_cons, not_or]
      exact ⟨(all _ (Nat.mod_lt _ (by decide))).symm, ih⟩

theorem colon_not_mem_toText (id : Uuid) : ':' ∉ id.toText.toList := by
  intro member
  apply colon_not_mem_hexNibbles id.toNat 32
  rw [← Uuid.filter_toText]
  exact List.mem_filter.mpr ⟨member, by decide⟩

theorem mem_dropWhile {α : Type} {p : α → Bool} {a : α} {l : List α} (member : a ∈ l)
    (kept : p a = false) : a ∈ l.dropWhile p := by
  rw [← List.takeWhile_append_dropWhile (p := p) (l := l), List.mem_append] at member
  rcases member with front | back
  · exact absurd (List.mem_takeWhile_imp front) (by rw [kept]; exact Bool.false_ne_true)
  · exact back

/-- Trimming only takes whitespace. -/
theorem mem_trim {c : Char} {text : List Char} (member : c ∈ text) (kept : isWhitespace c = false) :
    c ∈ trim text := by
  rw [trim, List.mem_reverse]
  apply mem_dropWhile _ kept
  rw [List.mem_reverse]
  exact mem_dropWhile member kept

variable {crypto}

theorem PeerText.colon_not_mem (alphabet : crypto.Alphabet) {peer : String}
    (text : PeerText crypto peer) : ':' ∉ peer.toList := by
  rcases text with decoded | ⟨id, rfl⟩
  · intro member
    have trimmed := mem_trim member (by decide)
    rw [decodePubkey] at decoded
    split at decoded
    · cases decoded
    · split at decoded
      case isTrue hex => exact absurd (List.all_eq_true.mp hex.2 ':' trimmed) (by decide)
      case isFalse =>
        obtain ⟨bytes, found⟩ := Option.isSome_iff_exists.mp decoded
        exact alphabet.decode _ bytes (Option.eq_some_of_filter_eq_some found) trimmed
  · exact colon_not_mem_toText id

/-! ## What is minted -/

/-- The username that both sides write. -/
def usernameOf (crypto : TurnCrypto) (secret : String) (expiry : Nat) (session : Uuid)
    (peer : String) : String :=
  expiry.repr ++ ":" ++ crypto.encode (crypto.hmacSha1 (utf8 secret) (utf8 expiry.repr)) ++
    ":peer=" ++ peer ++ ":session=" ++ session.toText

def passwordOf (crypto : TurnCrypto) (secret username : String) : String :=
  crypto.encode (crypto.hmacSha1 (utf8 secret) (utf8 username))

variable {cfg : TurnConfig} {clock : Int64} {session : Uuid} {peer : String}

theorem issueCredentials_eq_some {credentials : TurnCredentials} :
    issueCredentials crypto cfg clock session peer = some credentials ↔
      unixSecs clock + cfg.defaultTtl < 2 ^ 64 ∧
        { urls := (cfg.urls.map TurnServerConfig.url).mergeSort stunFirst
          username :=
            usernameOf crypto cfg.sharedSecret (unixSecs clock + cfg.defaultTtl) session peer
          password := passwordOf crypto cfg.sharedSecret
            (usernameOf crypto cfg.sharedSecret (unixSecs clock + cfg.defaultTtl) session peer)
          ttl := cfg.defaultTtl } = credentials := by
  rw [issueCredentials, Option.bind_eq_bind, Option.bind_eq_some_iff]
  constructor
  · rintro ⟨expiry, word, rest⟩
    obtain ⟨fits, rfl⟩ := Checked.word_eq_some.mp word
    exact ⟨fits, Option.some.inj rest⟩
  · rintro ⟨fits, rfl⟩
    exact ⟨_, Checked.word_eq fits, rfl⟩

theorem splitOn_usernameOf (alphabet : crypto.Alphabet) (secret : String) (expiry : Nat)
    (session : Uuid) (plain : ':' ∉ peer.toList) :
    (usernameOf crypto secret expiry session peer).toList.splitOn ':' =
      [expiry.repr.toList,
        (crypto.encode (crypto.hmacSha1 (utf8 secret) (utf8 expiry.repr))).toList,
        ("peer=" ++ peer).toList, ("session=" ++ session.toText).toList] := by
  have peerPart : ':' ∉ ("peer=" ++ peer).toList := by
    rw [String.toList_append, List.mem_append, not_or]
    exact ⟨by decide, plain⟩
  have sessionPart : ':' ∉ ("session=" ++ session.toText).toList := by
    rw [String.toList_append, List.mem_append, not_or]
    exact ⟨by decide, colon_not_mem_toText session⟩
  have parts : (usernameOf crypto secret expiry session peer).toList =
      expiry.repr.toList ++ ':' ::
        ((crypto.encode (crypto.hmacSha1 (utf8 secret) (utf8 expiry.repr))).toList ++ ':' ::
          (("peer=" ++ peer).toList ++ ':' :: ("session=" ++ session.toText).toList)) := by
    simp [usernameOf]
  rw [parts, List.splitOn_append_cons_self_of_not_mem (colon_not_mem_repr expiry),
    List.splitOn_append_cons_self_of_not_mem (alphabet.encode _),
    List.splitOn_append_cons_self_of_not_mem peerPart, List.splitOn_eq_singleton sessionPart]

theorem parties_usernameOf (alphabet : crypto.Alphabet) (secret : String) (expiry : Nat)
    (session : Uuid) (plain : ':' ∉ peer.toList) :
    parties (usernameOf crypto secret expiry session peer) = some (peer, session.toText) := by
  have behind (label text : String) :
      String.ofList ((label ++ text).toList.drop label.length) = text := by
    rw [String.toList_append, ← String.length_toList, List.drop_left, String.ofList_toList]
  rw [parties, splitOn_usernameOf alphabet secret expiry session plain]
  simp only [behind]

theorem parties_of_issued (alphabet : crypto.Alphabet) (plain : ':' ∉ peer.toList)
    {credentials : TurnCredentials}
    (issued : issueCredentials crypto cfg clock session peer = some credentials) :
    parties credentials.username = some (peer, session.toText) := by
  obtain ⟨-, rfl⟩ := issueCredentials_eq_some.mp issued
  exact parties_usernameOf alphabet _ _ session plain

/-- Usernames with different expiries differ. -/
theorem expiry_of_usernameOf (alphabet : crypto.Alphabet) {secret secret' : String}
    {expiry expiry' : Nat} (fits : expiry < 2 ^ 64) (fits' : expiry' < 2 ^ 64)
    (plain : ':' ∉ peer.toList)
    (same : usernameOf crypto secret expiry session peer =
      usernameOf crypto secret' expiry' session peer) : expiry = expiry' := by
  have parts := splitOn_usernameOf alphabet secret expiry session plain
  rw [same, splitOn_usernameOf alphabet secret' expiry' session plain] at parts
  have digits := (List.cons.inj parts).1
  have read := Numeral.parse_repr fits
  rw [← digits, Numeral.parse_repr fits'] at read
  exact (Except.ok.inj read).symm

/-! ## The lifetime -/

/-- No lifetime is given that only fits in the wider word. -/
def NarrowTtl (value : Option String) : Prop :=
  ∀ v ∈ value, ∀ ttl, Numeral.parse 64 v.toList = .ok ttl → ttl < 2 ^ 32

theorem ttlOf_lt {bits : Nat} (wide : 12 ≤ bits) (value : Option String) :
    ttlOf bits value < 2 ^ bits := by
  rw [ttlOf]
  split
  · rename_i ttl found
    obtain ⟨v, -, read⟩ := Option.map_eq_some_iff.mp found
    exact Numeral.parse_lt read
  · exact Nat.lt_of_lt_of_le (by decide) (Nat.pow_le_pow_right (by decide) wide)

/-- The widths only differ in what they accept. -/
theorem ttlOf_eq {value : Option String} (narrow : NarrowTtl value) :
    ttlOf 32 value = ttlOf 64 value := by
  cases value with
  | none => rfl
  | some v =>
      rw [ttlOf, ttlOf, Option.map_some, Option.map_some]
      cases wide : Numeral.parse 64 v.toList with
      | ok ttl =>
          have denotes := (Numeral.parse_eq_ok.mp wide).1
          rw [Numeral.parse_eq_ok.mpr ⟨denotes, narrow v rfl ttl wide⟩]
      | error e =>
          cases read : Numeral.parse 32 v.toList with
          | error _ => rfl
          | ok ttl =>
              obtain ⟨denotes, small⟩ := Numeral.parse_eq_ok.mp read
              have also : Numeral.parse 64 v.toList = .ok ttl :=
                Numeral.parse_eq_ok.mpr ⟨denotes, Nat.lt_trans small (by decide)⟩
              exact nomatch wide.symm.trans also

/-- The server does not see a lifetime that needs the wider word. -/
theorem ttlOf_wide {v : String} {ttl : Nat} (read : Numeral.parse 64 v.toList = .ok ttl)
    (wide : 2 ^ 32 ≤ ttl) : ttlOf 32 (some v) = 3600 ∧ ttlOf 64 (some v) = ttl := by
  rw [ttlOf, ttlOf, Option.map_some, Option.map_some, read]
  cases narrow : Numeral.parse 32 v.toList with
  | error _ => exact ⟨rfl, rfl⟩
  | ok small =>
      obtain ⟨denotes, fits⟩ := Numeral.parse_eq_ok.mp narrow
      have also : Numeral.parse 64 v.toList = .ok small :=
        Numeral.parse_eq_ok.mpr ⟨denotes, Nat.lt_trans fits (by decide)⟩
      obtain rfl := Except.ok.inj (read.symm.trans also)
      omega

theorem expiry_lt (clock : Int64) {ttl : Nat} (small : ttl < 2 ^ 32) :
    unixSecs clock + ttl < 2 ^ 64 := by
  have now := clock.toNatClampNeg_lt
  rw [unixSecs]
  omega

/-! ## The two sides -/

variable {env : TurnEnv} {secret : String}

theorem fromEnv_config (configured : (TurnState.fromEnv env).configured = true) :
    env.secret = some (TurnState.fromEnv env).config.sharedSecret ∧
      (TurnState.fromEnv env).config.defaultTtl = ttlOf 32 env.ttlSecs := by
  revert configured
  rw [TurnState.fromEnv]
  split
  · rename_i found _
    exact fun _ => ⟨found, rfl⟩
  · exact nofun

theorem mint_eq_withCredentials (credentials : TurnCredentials) (s : IceServer) :
    (if s.username.isSome && s.credential.isSome then s
      else if !s.urls.any isTurnUrl then s
      else {
        urls := s.urls
        username := some credentials.username
        credential := some credentials.password }) = withCredentials credentials s := by
  obtain ⟨urls, username, credential⟩ := s
  have turn : urls.any isTurnUrl = true ↔ ∃ url ∈ urls, isTurnUrl url = true := List.any_eq_true
  rw [withCredentials]
  cases username with
  | none => by_cases has : urls.any isTurnUrl = true <;> simp [has, ← turn]
  | some name =>
      cases credential with
      | none => by_cases has : urls.any isTurnUrl = true <;> simp [has, ← turn]
      | some word => simp

/-- A host with a secret gives the servers what the server would issue for its id. -/
theorem mintForSession_eq (found : env.secret = some secret) (nonempty : secret ≠ "")
    (peer : Uuid) (servers : List IceServer) {credentials : TurnCredentials}
    (fits : unixSecs clock + ttlOf 64 env.ttlSecs < 2 ^ 64)
    (username : credentials.username =
      usernameOf crypto secret (unixSecs clock + ttlOf 64 env.ttlSecs) session peer.toText)
    (password : credentials.password = passwordOf crypto secret credentials.username) :
    (mintForSession crypto env clock session peer servers).map ResolvedIce.servers =
      some (servers.map (withCredentials credentials)) := by
  have kept : (some secret).filter (· ≠ "") = some secret := by
    rw [Option.filter_some, if_pos (by exact decide_eq_true nonempty)]
  have minted := List.map_congr_left fun s (_ : s ∈ servers) =>
    mint_eq_withCredentials credentials s
  rw [mintForSession, found, kept]
  dsimp only
  rw [Checked.word_eq fits, ← minted, password, username, passwordOf, usernameOf]
  rfl

/-- An empty secret is none to the host, and the servers are left as they are. -/
theorem mintForSession_empty (found : env.secret = some "") (clock : Int64) (session peer : Uuid)
    (servers : List IceServer) :
    (mintForSession crypto env clock session peer servers).map ResolvedIce.servers =
      some servers := by
  rw [mintForSession, found]
  rfl

end Minting

/-- A server that waits for credentials. -/
def relayServer : IceServer := ⟨["turn:relay"], none, none⟩

theorem withCredentials_relayServer (credentials : TurnCredentials) :
    withCredentials credentials relayServer =
      ⟨["turn:relay"], some credentials.username, some credentials.password⟩ := by
  have waits : (∃ url ∈ relayServer.urls, isTurnUrl url = true) ∧
      (relayServer.username = none ∨ relayServer.credential = none) :=
    ⟨⟨"turn:relay", List.mem_singleton_self _, by decide⟩, .inl rfl⟩
  rw [withCredentials, if_pos waits]
  rfl

section Disagreement

variable {crypto : TurnCrypto} {env : TurnEnv}

/-- With an empty secret only the server mints. -/
theorem Agree.secret_ne (agree : Agree crypto env) : env.secret ≠ some "" := by
  intro empty
  obtain ⟨credentials, -, minted⟩ := agree.same 0 0 0 [relayServer]
  rw [mintForSession_empty empty] at minted
  have same := List.singleton_inj.mp (Option.some.inj minted)
  rw [withCredentials_relayServer] at same
  exact nomatch congrArg IceServer.username same

/-- A lifetime that only the host reads makes another expiry. -/
theorem Agree.narrow (agree : Agree crypto env) (alphabet : crypto.Alphabet)
    (configured : (TurnState.fromEnv env).configured = true) : NarrowTtl env.ttlSecs := by
  obtain ⟨found, lifetime⟩ := fromEnv_config configured
  obtain ⟨credentials, issued, minted⟩ := agree.same 0 0 0 [relayServer]
  obtain ⟨-, rfl⟩ := issueCredentials_eq_some.mp issued
  generalize (TurnState.fromEnv env).config = cfg at found lifetime minted
  intro v given ttl read
  by_contra wide
  obtain ⟨server, host⟩ := ttlOf_wide read (Nat.le_of_not_lt wide)
  have zero : unixSecs 0 = 0 := rfl
  have fits : unixSecs 0 + ttlOf 64 env.ttlSecs < 2 ^ 64 := by
    rw [zero, Nat.zero_add]
    exact ttlOf_lt (by decide) _
  let username := usernameOf crypto cfg.sharedSecret (unixSecs 0 + ttlOf 64 env.ttlSecs) 0
    (Uuid.toText 0)
  let own : TurnCredentials := ⟨[], username, passwordOf crypto cfg.sharedSecret username, 0⟩
  have hosts : (mintForSession crypto env 0 0 0 [relayServer]).map ResolvedIce.servers =
      some ([relayServer].map (withCredentials own)) :=
    mintForSession_eq found (fun empty => agree.secret_ne (found.trans (congrArg some empty))) 0 _
      fits rfl rfl
  have same := List.singleton_inj.mp (Option.some.inj (minted.symm.trans hosts))
  rw [withCredentials_relayServer, withCredentials_relayServer] at same
  have usernames := Option.some.inj (congrArg IceServer.username same)
  have expiry := expiry_of_usernameOf alphabet ?_ fits (colon_not_mem_toText 0) usernames
  · rw [lifetime, given, server, host] at expiry
    omega
  · rw [lifetime, zero, Nat.zero_add]
    exact Nat.lt_trans (ttlOf_lt (by decide) _) (by decide)

end Disagreement

/-- The minters agree, and their usernames are unambiguous, exactly if the secret is not
empty and the lifetime is not one that only fits in the wider word. -/
theorem agree_iff (crypto : TurnCrypto) (alphabet : crypto.Alphabet) (env : TurnEnv)
    (configured : (TurnState.fromEnv env).configured = true) :
    Agree crypto env ↔ env.secret ≠ some "" ∧ NarrowTtl env.ttlSecs := by
  constructor
  · intro agree
    exact ⟨agree.secret_ne, agree.narrow alphabet configured⟩
  · rintro ⟨nonempty, narrow⟩
    obtain ⟨found, lifetime⟩ := fromEnv_config configured
    generalize cfgEq : (TurnState.fromEnv env).config = cfg at found lifetime
    rw [found] at nonempty
    have small := ttlOf_lt (by decide : 12 ≤ 32) env.ttlSecs
    rw [← lifetime] at small
    have same := ttlOf_eq narrow
    constructor
    · intro clock session peer text
      rw [cfgEq]
      exact ⟨_, issueCredentials_eq_some.mpr ⟨expiry_lt clock small, rfl⟩⟩
    · intro clock session peer servers
      rw [cfgEq]
      refine ⟨_, issueCredentials_eq_some.mpr ⟨expiry_lt clock small, rfl⟩, ?_⟩
      apply mintForSession_eq found (fun empty => nonempty (congrArg some empty))
      · rw [← same, ← lifetime]
        exact expiry_lt clock small
      · rw [← same, ← lifetime]
      · rfl
    · intro clock session peer credentials text issued
      rw [cfgEq] at issued ⊢
      have plain := text.colon_not_mem alphabet
      refine ⟨?_, parties_of_issued alphabet plain issued⟩
      obtain ⟨-, rfl⟩ := issueCredentials_eq_some.mp issued
      exact splitOn_usernameOf alphabet _ _ session plain
    · intro clock session peer credentials clock' session' peer' credentials' text text' issued
        issued' equal
      have named := parties_of_issued alphabet (text.colon_not_mem alphabet) issued
      have named' := parties_of_issued alphabet (text'.colon_not_mem alphabet) issued'
      rw [equal] at named
      obtain ⟨peers, sessions⟩ := Prod.mk.inj (Option.some.inj (named.symm.trans named'))
      exact ⟨Uuid.toText_injective sessions, peers⟩

namespace Sample

def turnUsername : String :=
  "1700003600:UFVPHi030d9a7dvQfHKkSHvih3o=:peer=00000000-0000-0000-0000-000000000005" ++
    ":session=00000000-0000-0000-0000-000000000007"

def expiryTag : Bytes :=
  [80, 85, 79, 30, 45, 55, 209, 223, 90, 237, 219, 208, 124, 114, 164, 72, 123, 226, 135, 122]

def usernameTag : Bytes :=
  [229, 8, 235, 172, 99, 227, 104, 172, 162, 68, 247, 100, 8, 186, 44, 155, 53, 125, 184, 35]

/-- HMAC-SHA1 of an expiry and a username under the key `secret`, and base64 of the two
tags. -/
def turnCrypto : TurnCrypto where
  hmacSha1 key message :=
    if key ≠ utf8 "secret" then []
    else if message = utf8 "1700003600" then expiryTag
    else if message = utf8 turnUsername then usernameTag
    else []
  encode bytes :=
    if bytes = expiryTag then "UFVPHi030d9a7dvQfHKkSHvih3o="
    else if bytes = usernameTag then "5QjrrGPjaKyiRPdkCLosmzV9uCM="
    else ""
  decode _ := none

theorem turnCrypto_alphabet : turnCrypto.Alphabet := by
  constructor
  · intro bytes
    simp only [turnCrypto]
    split
    · decide
    · split
      · decide
      · decide
  · exact nofun

def turnEnv (ttlSecs : Option String) : TurnEnv where
  secret := some "secret"
  urls := some "turn:relay.example.org:3478"
  regions := none
  ttlSecs := ttlSecs
  previousSecret := none

theorem turnEnv_configured (ttlSecs : Option String) :
    (TurnState.fromEnv (turnEnv ttlSecs)).configured = true := by
  have same : turnServers (turnEnv ttlSecs) = turnServers (turnEnv none) := rfl
  have servers : turnServers (turnEnv none) = [⟨"turn:relay.example.org:3478", 1, ""⟩] := by
    decide
  rw [TurnState.fromEnv, same, servers]
  rfl

/-- With the usual lifetime the two sides agree, on this username among others. -/
theorem turnEnv_agree :
    Agree turnCrypto (turnEnv none) ∧
      (issueCredentials turnCrypto (TurnState.fromEnv (turnEnv none)).config 1700000000 7
        (Uuid.toText 5)).map (fun c => (c.username, c.password)) =
          some (turnUsername, "5QjrrGPjaKyiRPdkCLosmzV9uCM=") := by
  refine ⟨?_, by decide⟩
  apply (agree_iff turnCrypto turnCrypto_alphabet (turnEnv none) (turnEnv_configured none)).mpr
  exact ⟨by decide, nofun⟩

/-- A lifetime of 2^32 seconds is an hour to the server. -/
theorem turnEnv_not_agree :
    ¬ ∀ crypto : TurnCrypto, crypto.Alphabet → ∀ env,
      (TurnState.fromEnv env).configured = true → Agree crypto env := by
  intro agree
  have configured := turnEnv_configured (some "4294967296")
  have narrow := (agree turnCrypto turnCrypto_alphabet _ configured).narrow turnCrypto_alphabet
    configured
  have read : Numeral.parse 64 "4294967296".toList = .ok 4294967296 := by decide
  exact absurd (narrow _ rfl _ read) (by decide)

end Sample

end Qubox.Signaling
