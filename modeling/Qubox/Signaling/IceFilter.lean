import Qubox.Signaling.IceAllowlist

/-!
# Filtering ICE servers

`filter_ice_servers_to_allowlist` compares every URL of a server with the
allowlist, but the scheme of the first one only. A list passes exactly when all
of its URLs are listed and the first URL of every server has a valid scheme, and
a later URL of another scheme passes with them.
-/

namespace Qubox

/-- `char::is_whitespace`: the code points with the property `White_Space`. -/
def isWhitespace (c : Char) : Bool :=
  (0x09 ≤ c.toNat && c.toNat ≤ 0x0D) || c.toNat = 0x20 || c.toNat = 0x85 || c.toNat = 0xA0 ||
    c.toNat = 0x1680 || (0x2000 ≤ c.toNat && c.toNat ≤ 0x200A) || c.toNat = 0x2028 ||
    c.toNat = 0x2029 || c.toNat = 0x202F || c.toNat = 0x205F || c.toNat = 0x3000

/-- `str::trim`. -/
def trim (text : List Char) : List Char :=
  ((text.dropWhile isWhitespace).reverse.dropWhile isWhitespace).reverse

def iceUrlIsValid (url : String) : Bool :=
  let lower := (trim url.toList).map Char.toLower
  "stun:".toList.isPrefixOf lower || "turn:".toList.isPrefixOf lower ||
    "turns:".toList.isPrefixOf lower

example : iceUrlIsValid " TURNS:relay.example.org" = true := by decide

namespace Signaling

/-- The `Debug` form of a list of strings, up to the escapes of control characters. -/
def debugStrings (texts : List String) : String :=
  "[" ++ ", ".intercalate (texts.map String.quote) ++ "]"

/-- The loop over the candidates; the servers that survive come out in order. -/
def filterIceServersToAllowlist (allowlist : IceAllowlist) :
    List IceServer → Except String (List IceServer)
  | [] => .ok []
  | server :: candidates =>
    let offending := server.urls.filter (fun url => !allowlist.urls.contains url)
    if !offending.isEmpty then
      .error ("ICE server URL(s) not on signed allowlist: " ++ debugStrings offending)
    else if !iceUrlIsValid (server.urls.head?.getD "") then
      .error "ICE server URL scheme is not stun:/turn:/turns:"
    else do
      let out ← filterIceServersToAllowlist allowlist candidates
      return server :: out

/-- Every URL of the servers has a scheme that ICE servers have. -/
def SchemesValid (servers : List IceServer) : Prop :=
  ∀ server ∈ servers, ∀ url ∈ server.urls, iceUrlIsValid url = true

/-- What the filter reads of the schemes: the first URL of every server. A server
without URLs does not pass. -/
def LeadingSchemesValid (servers : List IceServer) : Prop :=
  ∀ server ∈ servers, iceUrlIsValid (server.urls.head?.getD "") = true

instance (servers : List IceServer) : Decidable (SchemesValid servers) :=
  List.decidableBAll _ servers

instance (servers : List IceServer) : Decidable (LeadingSchemesValid servers) :=
  List.decidableBAll _ servers

section Filter

variable {allowlist : IceAllowlist} {server : IceServer} {candidates out : List IceServer}

theorem listed_cons : Listed allowlist (server :: candidates) ↔
    (∀ url ∈ server.urls, url ∈ allowlist.urls) ∧ Listed allowlist candidates :=
  List.forall_mem_cons

theorem leadingSchemesValid_cons : LeadingSchemesValid (server :: candidates) ↔
    iceUrlIsValid (server.urls.head?.getD "") = true ∧ LeadingSchemesValid candidates :=
  List.forall_mem_cons

theorem offending_isEmpty :
    (server.urls.filter (fun url => !allowlist.urls.contains url)).isEmpty = true ↔
      ∀ url ∈ server.urls, url ∈ allowlist.urls := by
  simp [List.filter_eq_nil_iff]

/-- The filter passes all candidates or none. -/
theorem filterIceServersToAllowlist_ok_iff :
    filterIceServersToAllowlist allowlist candidates = .ok out ↔
      Listed allowlist candidates ∧ LeadingSchemesValid candidates ∧ out = candidates := by
  induction candidates generalizing out with
  | nil =>
      constructor
      · intro passed
        cases passed
        exact ⟨List.forall_mem_nil _, List.forall_mem_nil _, rfl⟩
      · rintro ⟨-, -, rfl⟩
        rfl
  | cons server candidates ih =>
      rw [filterIceServersToAllowlist, listed_cons, leadingSchemesValid_cons,
        ← offending_isEmpty]
      cases clean : (server.urls.filter (fun url => !allowlist.urls.contains url)).isEmpty with
      | false => simp
      | true =>
          cases valid : iceUrlIsValid (server.urls.head?.getD "") with
          | false => simp
          | true =>
              cases rest : filterIceServersToAllowlist allowlist candidates with
              | error e =>
                  have stuck :
                      ¬ (Listed allowlist candidates ∧ LeadingSchemesValid candidates) := by
                    rintro ⟨listed, leading⟩
                    cases rest.symm.trans (ih.mpr ⟨listed, leading, rfl⟩)
                  constructor
                  · intro passed
                    cases passed
                  · rintro ⟨⟨-, listed⟩, ⟨-, leading⟩, -⟩
                    exact absurd ⟨listed, leading⟩ stuck
              | ok kept =>
                  obtain ⟨listed, leading, rfl⟩ := ih.mp rest
                  constructor
                  · intro passed
                    cases passed
                    exact ⟨⟨rfl, listed⟩, ⟨rfl, leading⟩, rfl⟩
                  · rintro ⟨-, -, rfl⟩
                    rfl

end Filter

/-- What passes is the whole list, listed and of a valid scheme throughout, and a
list with any other URL is refused. -/
structure FiltersSoundly (allowlist : IceAllowlist) (candidates : List IceServer) : Prop where
  passed : ∀ out, filterIceServersToAllowlist allowlist candidates = .ok out →
    out = candidates ∧ Listed allowlist candidates ∧ SchemesValid candidates
  refused : ¬ (Listed allowlist candidates ∧ SchemesValid candidates) →
    ∃ error, filterIceServersToAllowlist allowlist candidates = .error error

/-- The filter is sound for a listed list unless a first URL hides a later one of
another scheme. -/
theorem filtersSoundly_iff (allowlist : IceAllowlist) (candidates : List IceServer) :
    FiltersSoundly allowlist candidates ↔
      (Listed allowlist candidates → LeadingSchemesValid candidates → SchemesValid candidates) := by
  constructor
  · intro sound listed leading
    have passed := filterIceServersToAllowlist_ok_iff.mpr ⟨listed, leading, rfl⟩
    exact (sound.passed candidates passed).2.2
  · intro condition
    have passed : ∀ out, filterIceServersToAllowlist allowlist candidates = .ok out →
        out = candidates ∧ Listed allowlist candidates ∧ SchemesValid candidates := by
      intro out accepted
      obtain ⟨listed, leading, same⟩ := filterIceServersToAllowlist_ok_iff.mp accepted
      exact ⟨same, listed, condition listed leading⟩
    refine ⟨passed, fun bad => ?_⟩
    cases result : filterIceServersToAllowlist allowlist candidates with
    | error error => exact ⟨error, rfl⟩
    | ok out => exact absurd (passed out result).2 bad

namespace Sample

/-- A server whose second URL is a web page. -/
def mixedServer : IceServer :=
  ⟨["stun:stun.example.org:3478", "http://example.org/"], none, none⟩

/-- The cloud lists both URLs. -/
def mixedAllowlist : IceAllowlist := ⟨1, "a", 5000, mixedServer.urls, none⟩

end Sample

/-- The web page passes behind the STUN server. -/
theorem mixedServer_not_filtersSoundly :
    ¬ FiltersSoundly Sample.mixedAllowlist [Sample.mixedServer] := by
  intro sound
  have passed : filterIceServersToAllowlist Sample.mixedAllowlist [Sample.mixedServer] =
      .ok [Sample.mixedServer] :=
    filterIceServersToAllowlist_ok_iff.mpr ⟨by decide, by decide, rfl⟩
  exact absurd (sound.passed _ passed).2.2 (by decide)

end Signaling

end Qubox
