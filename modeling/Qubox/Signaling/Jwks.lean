import Mathlib.Data.List.Induction
import Qubox.Library.Bytes
import Qubox.Library.History
import Qubox.Library.JsonText
import Qubox.Library.Table

/-!
# The cache of signing keys

`lookup` answers from the key document fetched last, while it is fresh; else it
fetches again, and falls back to the old document for a while if that fails. The
cache holds nothing but the document fetched last, whatever calls came before, so
a key that has gone from it is not answered with again.
-/

namespace Qubox.Signaling

namespace Jwks

/-- An error with its contexts, the outermost first. -/
abbrev Failure := List String

abbrev PublicKey := { bytes : Bytes // bytes.length = 32 }

structure JwkEntry where
  kid : String
  publicKey : PublicKey
  deriving DecidableEq

/-- An entry as it stands in the document. -/
structure Entry where
  kid : Option String
  kty : Option String
  crv : Option String
  x : Option String

/-- What is read with the JSON and Base64 libraries. -/
structure Decoders where
  json : Bytes → Except Failure (List Entry)
  urlSafe : String → Except Failure Bytes
  standard : String → Except Failure Bytes

def withContext {α : Type} (context : String) : Except Failure α → Except Failure α :=
  Except.mapError (context :: ·)

section Parsing

variable (decoders : Decoders)

/-- One round of the loop of `parse_jwks`; entries of other kinds are passed over. -/
def parseEntry (idx : Nat) (entry : Entry) : Except Failure (Option JwkEntry) :=
  if entry.kty ≠ some "OKP" then .ok none
  else if entry.crv ≠ some "Ed25519" then .ok none
  else
    match entry.x with
    | none => .ok none
    | some x => do
        let pkBytes ← withContext ("decode JWK `x` for entry " ++ toString idx) <|
          match decoders.urlSafe x with
          | .ok bytes => .ok bytes
          | .error _ => decoders.standard x
        if size : pkBytes.length = 32 then
          .ok (some ⟨entry.kid.getD ("entry-" ++ toString idx), ⟨pkBytes, size⟩⟩)
        else .error ["JWK `x` is not 32 bytes"]

def parseEntries : Nat → List Entry → Except Failure (List JwkEntry)
  | _, [] => .ok []
  | idx, entry :: rest => do
      let out ← parseEntry decoders idx entry
      let more ← parseEntries (idx + 1) rest
      .ok (out.toList ++ more)

def parseJwks (bytes : Bytes) : Except Failure (List JwkEntry) := do
  let keys ← withContext "JWKS JSON parse" (decoders.json bytes)
  let out ← parseEntries decoders 0 keys
  if out.isEmpty then
    if keys.isEmpty then .error ["JWKS document contains no OKP/Ed25519 entries"]
    else .error ["JWKS document contained keys but none matched kty=OKP/crv=Ed25519"]
  else .ok out

end Parsing

structure JwksPolicy where
  ttl : Nat
  maxStale : Nat
  strict : Bool

structure CacheSnapshot where
  fetchedAt : Nat
  keys : AList fun _ : String => PublicKey

inductive JwksError where
  | unknownKid (kid : String)
  | unreachable (err : Failure)
  | unreachableAndStale (err : Failure)
  deriving DecidableEq

structure JwksClient where
  url : String
  policy : JwksPolicy
  decoders : Decoders

/-- A call of `lookup`: when it looks at the cache, what the fetcher answers if it is
asked, and the time after that. -/
structure Call where
  kid : String
  startedAt : Nat
  reply : Except Failure Bytes
  fetchedAt : Nat

namespace JwksClient

variable (client : JwksClient)

/-- The first look at the cache. -/
def fastPath (cache : Option CacheSnapshot) (call : Call) : Option PublicKey :=
  cache.bind fun snapshot =>
    if call.startedAt - snapshot.fetchedAt < client.policy.ttl then snapshot.keys.lookup call.kid
    else none

def fetchNow (call : Call) : Except Failure CacheSnapshot := do
  let bytes ← call.reply
  let parsed ← withContext ("parse JWKS document from " ++ client.url)
    (parseJwks client.decoders bytes)
  .ok ⟨call.fetchedAt, parsed.foldl (fun keys entry => keys.insert entry.kid entry.publicKey) ∅⟩

def orUnknown (kid : String) : Option PublicKey → Except JwksError PublicKey
  | some pk => .ok pk
  | none => .error (.unknownKid kid)

/-- The answer when the fetch has failed. -/
def fallBack (cache : Option CacheSnapshot) (call : Call) (err : Failure) :
    Except JwksError PublicKey :=
  match cache with
  | none => .error (.unreachable err)
  | some snapshot =>
      if call.fetchedAt - snapshot.fetchedAt ≤ client.policy.maxStale then
        orUnknown call.kid (snapshot.keys.lookup call.kid)
      else if client.policy.strict then .error (.unreachableAndStale err)
      else .error (.unreachable err)

/-- The answer to a call, and the cache behind it. -/
def lookup (cache : Option CacheSnapshot) (call : Call) :
    Except JwksError PublicKey × Option CacheSnapshot :=
  match client.fastPath cache call with
  | some pk => (.ok pk, cache)
  | none =>
      match client.fetchNow call with
      | .ok snapshot => (orUnknown call.kid (snapshot.keys.lookup call.kid), some snapshot)
      | .error err => (client.fallBack cache call err, cache)

/-! ## What has been fetched -/

/-- The cache after some calls of a new client. -/
def cacheAfter (past : List Call) : Option CacheSnapshot :=
  past.foldl (fun cache call => (client.lookup cache call).2) none

end JwksClient

/-- A key document and when it was fetched. -/
structure Document where
  entries : List JwkEntry
  fetchedAt : Nat
  deriving DecidableEq

/-- The key that the document gives; of several entries the last counts. -/
def Document.key (document : Document) (kid : String) : Option PublicKey :=
  (document.entries.reverse.find? fun entry => entry.kid = kid).map JwkEntry.publicKey

def Document.snapshot (document : Document) : CacheSnapshot where
  fetchedAt := document.fetchedAt
  keys := document.entries.foldl (fun keys entry => keys.insert entry.kid entry.publicKey) ∅

theorem lookup_insertAll (entries : List JwkEntry) (keys : AList fun _ : String => PublicKey)
    (kid : String) :
    (entries.foldl (fun keys entry => keys.insert entry.kid entry.publicKey) keys).lookup kid =
      ((entries.reverse.find? fun entry => entry.kid = kid).map JwkEntry.publicKey).or
        (keys.lookup kid) := by
  induction entries generalizing keys with
  | nil => rfl
  | cons entry entries ih =>
      rw [List.foldl_cons, ih, List.reverse_cons, List.find?_append, AList.lookup_insert_ite]
      cases entries.reverse.find? fun entry => entry.kid = kid with
      | some later => rfl
      | none =>
          by_cases same : entry.kid = kid
          · simp [same]
          · simp [same, Ne.symm same]

theorem Document.lookup_snapshot (document : Document) (kid : String) :
    document.snapshot.keys.lookup kid = document.key kid := by
  rw [Document.snapshot, lookup_insertAll]
  exact Option.or_none

namespace JwksClient

variable (client : JwksClient)

/-- The document that the call fetches if it asks for one. -/
def document (call : Call) : Except Failure Document := do
  let bytes ← call.reply
  let entries ← withContext ("parse JWKS document from " ++ client.url)
    (parseJwks client.decoders bytes)
  .ok ⟨entries, call.fetchedAt⟩

/-- The call, made after these, asks the endpoint. -/
def Asks (past : List Call) (call : Call) : Prop :=
  client.fastPath (client.cacheAfter past) call = none

/-- The documents fetched by the calls, in order. -/
def fetchedBy (cache : Option CacheSnapshot) (call : Call) : List Document :=
  match client.fastPath cache call, client.document call with
  | none, .ok document => [document]
  | _, _ => []

def documents (calls : List Call) : List Document :=
  List.notes (fun cache call => (client.lookup cache call).2) client.fetchedBy none calls

/-- The document is young enough for the call, made after these. -/
def Usable (past : List Call) (call : Call) (document : Document) : Prop :=
  call.startedAt - document.fetchedAt < client.policy.ttl ∨
    (client.Asks past call ∧ client.document call = .ok document) ∨
    (client.Asks past call ∧ (client.document call).isOk = false ∧
      call.fetchedAt - document.fetchedAt ≤ client.policy.maxStale)

section Laws

variable {client} {past : List Call} {call : Call} {pk : PublicKey}

theorem fetchNow_eq (call : Call) :
    client.fetchNow call = (client.document call).map Document.snapshot := by
  rw [fetchNow, document]
  cases call.reply with
  | error err => rfl
  | ok bytes =>
      simp only [bind, Except.bind]
      cases withContext ("parse JWKS document from " ++ client.url)
        (parseJwks client.decoders bytes) <;> rfl

/-- A call leaves the document that it fetched in the cache, or else what was there. -/
theorem lookup_cache (cache : Option CacheSnapshot) (call : Call) :
    (client.lookup cache call).2 =
      ((client.fetchedBy cache call).getLast?.map Document.snapshot).or cache := by
  rw [lookup, fetchedBy, fetchNow_eq]
  cases client.fastPath cache call with
  | some pk => rfl
  | none => cases client.document call <;> rfl

/-- The cache holds the document fetched last. -/
theorem cacheAfter_eq (past : List Call) :
    client.cacheAfter past = (client.documents past).getLast?.map Document.snapshot := by
  induction past using List.reverseRecOn with
  | nil => rfl
  | append_singleton past call ih =>
      rw [documents, List.notes_concat, ← documents, List.getLast?_append, cacheAfter,
        List.foldl_concat, ← cacheAfter, lookup_cache, Option.map_or, ← ih]

theorem documents_concat (past : List Call) (call : Call) :
    client.documents (past ++ [call]) =
      client.documents past ++ client.fetchedBy (client.cacheAfter past) call :=
  List.notes_concat ..

theorem orUnknown_eq_ok {kid : String} {found : Option PublicKey} :
    orUnknown kid found = .ok pk ↔ found = some pk := by
  cases found with
  | none => exact iff_of_false nofun nofun
  | some other => simp [orUnknown]

/-- The fast path answers from the document fetched last, which is fresh. -/
theorem fastPath_eq_some (found : client.fastPath (client.cacheAfter past) call = some pk) :
    ∃ document, (client.documents past).getLast? = some document ∧
      document.key call.kid = some pk ∧
      call.startedAt - document.fetchedAt < client.policy.ttl := by
  rw [fastPath, cacheAfter_eq] at found
  cases latest : (client.documents past).getLast? with
  | none =>
      rw [latest] at found
      cases found
  | some document =>
      rw [latest, Option.map_some, Option.bind_some] at found
      split at found
      case isTrue fresh =>
        rw [document.lookup_snapshot] at found
        exact ⟨document, rfl, found, fresh⟩
      case isFalse => cases found

/-- The fallback answers from the document fetched last, which is not too old. -/
theorem fallBack_eq_ok {err : Failure}
    (found : client.fallBack (client.cacheAfter past) call err = .ok pk) :
    ∃ document, (client.documents past).getLast? = some document ∧
      document.key call.kid = some pk ∧
      call.fetchedAt - document.fetchedAt ≤ client.policy.maxStale := by
  rw [cacheAfter_eq] at found
  cases latest : (client.documents past).getLast? with
  | none =>
      rw [latest] at found
      cases found
  | some document =>
      rw [latest, Option.map_some, fallBack] at found
      split at found
      case isTrue recent =>
        rw [orUnknown_eq_ok, document.lookup_snapshot] at found
        exact ⟨document, rfl, found, recent⟩
      case isFalse => split at found <;> cases found

/-- A key is answered from the document fetched last, this call included, and only
while that may be used. -/
theorem lookup_eq_ok (found : (client.lookup (client.cacheAfter past) call).1 = .ok pk) :
    ∃ document, (client.documents (past ++ [call])).getLast? = some document ∧
      document.key call.kid = some pk ∧ client.Usable past call document := by
  rw [lookup, fetchNow_eq] at found
  rw [documents_concat, fetchedBy]
  cases fast : client.fastPath (client.cacheAfter past) call with
  | some cached =>
      rw [fast] at found
      cases found
      obtain ⟨document, latest, key, fresh⟩ := fastPath_eq_some fast
      exact ⟨document, by rw [List.append_nil, latest], key, .inl fresh⟩
  | none =>
      rw [fast] at found
      cases fetched : client.document call with
      | ok document =>
          rw [fetched] at found
          have answered := orUnknown_eq_ok.mp found
          rw [document.lookup_snapshot] at answered
          exact ⟨document, List.getLast?_concat .., answered, .inr (.inl ⟨fast, fetched⟩)⟩
      | error err =>
          rw [fetched] at found
          obtain ⟨document, latest, key, recent⟩ := fallBack_eq_ok found
          refine ⟨document, by rw [List.append_nil, latest], key, .inr (.inr ⟨fast, ?_, recent⟩)⟩
          rw [fetched]
          rfl

theorem documents_prefix (past later : List Call) :
    client.documents past <+: client.documents (past ++ later) := by
  rw [documents, documents, List.notes_append]
  exact List.prefix_append _ _

end Laws

/-- Lookups honour freshness: a key is answered from the document fetched last, which
is fresh, or was fetched by the call, or is recent enough where the fetch failed; and a
key that the document does not have is answered only once a later document has it. -/
theorem lookup_honoursFreshness :
    (∀ past call pk, (client.lookup (client.cacheAfter past) call).1 = .ok pk →
      ∃ document, (client.documents (past ++ [call])).getLast? = some document ∧
        document.key call.kid = some pk ∧ client.Usable past call document) ∧
    ∀ past document kid, (client.documents past).getLast? = some document →
      document.key kid = none →
        ∀ later call pk, call.kid = kid →
          (client.lookup (client.cacheAfter (past ++ later)) call).1 = .ok pk →
            ∃ again ∈ (client.documents (past ++ later ++ [call])).drop
              (client.documents past).length, again.key kid = some pk := by
  refine ⟨fun past call pk => lookup_eq_ok, ?_⟩
  rintro past document kid latest absent later call pk rfl found
  obtain ⟨again, newest, key, -⟩ := lookup_eq_ok found
  refine ⟨again, ?_, key⟩
  have grown : client.documents past <+: client.documents (past ++ (later ++ [call])) :=
    documents_prefix past (later ++ [call])
  rw [← List.append_assoc] at grown
  obtain ⟨more, whole⟩ := grown
  rw [← whole, List.drop_left]
  rw [← whole] at newest
  cases more using List.reverseRecOn with
  | nil =>
      rw [List.append_nil, latest] at newest
      cases newest
      cases absent.symm.trans key
  | append_singleton more last =>
      rw [← List.append_assoc, List.getLast?_concat] at newest
      cases newest
      exact List.mem_append_right _ (List.mem_singleton_self _)

end JwksClient

namespace Sample

/-- JSON without escapes and numbers. -/
def plainTokens : JsonValue.Tokens Empty where
  quote s := '"' :: s.toList ++ ['"']
  number := Empty.elim
  readString text :=
    match (text.drop 1).span (· ≠ '"') with
    | (letters, _ :: rest) => some (String.ofList letters, rest)
    | (_, []) => none
  readNumber _ := none

/-- A member that is a string. -/
def textOf (members : List (String × JsonValue Empty)) (name : String) : Option String :=
  match members.lookup name with
  | some (.string text) => some text
  | _ => none

def entryOf : JsonValue Empty → Option Entry
  | .object members =>
      some ⟨textOf members "kid", textOf members "kty", textOf members "crv", textOf members "x"⟩
  | _ => none

def entriesOf : JsonValue Empty → Option (List Entry)
  | .object members =>
      match members.lookup "keys" with
      | some (.array items) => items.mapM entryOf
      | _ => none
  | _ => none

def sextet (c : Char) : Option Nat :=
  if c.isUpper then some (c.toNat - 65)
  else if c.isLower then some (c.toNat - 71)
  else if c.isDigit then some (c.toNat + 4)
  else if c = '-' then some 62
  else if c = '_' then some 63
  else none

/-- Base64 for URLs, without padding; the bits that are left over have to be 0. -/
def decodeUrlSafe (text : String) : Except Failure Bytes :=
  match text.toList.mapM sextet with
  | none => .error ["Invalid symbol"]
  | some sextets =>
      let bits := sextets.foldl (64 * · + ·) 0
      let spare := 6 * sextets.length % 8
      if spare = 6 then .error ["Invalid input length"]
      else if bits % 2 ^ spare ≠ 0 then .error ["Invalid last symbol"]
      else .ok (Bytes.ofNatBE (6 * sextets.length / 8) (bits / 2 ^ spare))

def rotating : JwksClient where
  url := "https://test/jwks"
  policy := ⟨300, 3600, true⟩
  decoders :=
    { json := fun bytes =>
        match (JsonValue.parse plainTokens 127 (bytes.map fun b => Char.ofNat b.toNat)).bind
            entriesOf with
        | some entries => .ok entries
        | none => .error ["expected value at line 1 column 1"]
      urlSafe := decodeUrlSafe
      standard := fun _ => .error ["Invalid padding"] }

def oldKey : PublicKey := ⟨List.replicate 32 7, rfl⟩
def newKey : PublicKey := ⟨List.replicate 32 251, rfl⟩

/-- A document with one key. -/
def documentOf (kid x : String) : Bytes :=
  ("\x7b\"keys\": [\x7b\"kty\": \"OKP\", \"crv\": \"Ed25519\", \"kid\": \"" ++ kid ++ "\", \"x\": \"" ++ x ++
    "\"\x7d]\x7d").toList.map fun c => UInt8.ofNat c.toNat

def oldDocument : Bytes := documentOf "a" "BwcHBwcHBwcHBwcHBwcHBwcHBwcHBwcHBwcHBwcHBwc"
def newDocument : Bytes := documentOf "b" "-_v7-_v7-_v7-_v7-_v7-_v7-_v7-_v7-_v7-_v7-_s"

theorem parsed_old : parseJwks rotating.decoders oldDocument = .ok [⟨"a", oldKey⟩] := by
  decide +kernel

theorem parsed_new : parseJwks rotating.decoders newDocument = .ok [⟨"b", newKey⟩] := by
  decide +kernel

def first : Call := ⟨"a", 0, .ok oldDocument, 0⟩
def outage : Call := ⟨"a", 1000, .error ["JWKS HTTP GET https://test/jwks"], 1001⟩
def rotated : Call := ⟨"b", 2000, .ok newDocument, 2000⟩
def returned : Call := ⟨"a", 2001, .ok oldDocument, 2002⟩

/-- A call that asks for a document and gets it. -/
theorem asked {past : List Call} {call : Call} {bytes : Bytes} {entries : List JwkEntry}
    (asks : rotating.fastPath (rotating.cacheAfter past) call = none)
    (replied : call.reply = .ok bytes) (parsed : parseJwks rotating.decoders bytes = .ok entries) :
    rotating.documents (past ++ [call]) = rotating.documents past ++ [⟨entries, call.fetchedAt⟩] ∧
      (rotating.lookup (rotating.cacheAfter past) call).1 = JwksClient.orUnknown call.kid
        ((Document.snapshot ⟨entries, call.fetchedAt⟩).keys.lookup call.kid) := by
  have fetched : rotating.document call = .ok ⟨entries, call.fetchedAt⟩ := by
    rw [JwksClient.document, replied]
    change (withContext _ (parseJwks rotating.decoders bytes)).bind _ = _
    rw [parsed]
    rfl
  constructor
  · rw [JwksClient.documents_concat, JwksClient.fetchedBy, asks, fetched]
  · rw [JwksClient.lookup, asks, JwksClient.fetchNow_eq, fetched]
    rfl

/-- An old key through an outage, and again once it is back. -/
theorem rotating_honoursFreshness :
    (∃ document, (rotating.documents [first, outage]).getLast? = some document ∧
      document.key "a" = some oldKey ∧ rotating.Usable [first] outage document) ∧
    ∃ again ∈ (rotating.documents [first, rotated, returned]).drop 2,
      again.key "a" = some oldKey := by
  obtain ⟨fresh, revoked⟩ := JwksClient.lookup_honoursFreshness rotating
  have one : rotating.documents [first] = [⟨[⟨"a", oldKey⟩], 0⟩] :=
    (@asked [] first _ _ rfl rfl parsed_old).1
  have cached : rotating.cacheAfter [first] = some (Document.snapshot ⟨[⟨"a", oldKey⟩], 0⟩) := by
    rw [JwksClient.cacheAfter_eq, one]
    rfl
  have two : rotating.documents [first, rotated] =
      [⟨[⟨"a", oldKey⟩], 0⟩, ⟨[⟨"b", newKey⟩], 2000⟩] := by
    have asks : rotating.fastPath (rotating.cacheAfter [first]) rotated = none := by
      rw [cached]
      decide
    rw [← List.singleton_append, (asked asks rfl parsed_new).1, one]
    rfl
  have rotatedIn : rotating.cacheAfter [first, rotated] =
      some (Document.snapshot ⟨[⟨"b", newKey⟩], 2000⟩) := by
    rw [JwksClient.cacheAfter_eq, two]
    rfl
  constructor
  · apply fresh [first] outage oldKey
    rw [cached]
    decide
  · have asks : rotating.fastPath (rotating.cacheAfter [first, rotated]) returned = none := by
      rw [rotatedIn]
      decide
    have again := revoked [first, rotated] ⟨[⟨"b", newKey⟩], 2000⟩ "a" (by rw [two]; rfl) (by decide)
      [] returned oldKey rfl ((asked asks rfl parsed_old).2.trans (by decide))
    rwa [two] at again

end Sample

end Jwks

end Qubox.Signaling
