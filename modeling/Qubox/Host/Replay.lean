import Mathlib.Data.List.Induction
import Qubox.Host.Enforcement

/-!
# Marks that are forgotten, marks that are shared

The host accepts bundles and kills until some minutes after their expiry, but the
cache forgets an identifier when it expires; and it does not know which of the
two has used the identifier. `Unforgotten` is the condition under which nothing
is accepted twice. A kill of a session whose bundle the host has accepted gets
through exactly if the mark of the bundle has expired.
-/

namespace Qubox.Host

open Signaling

section Statement

variable (crypto : Crypto) (jwks : Bool)

/-- No bundle and no kill is accepted twice. -/
def AcceptsOnce (calls : List HostCall) : Prop :=
  ∀ name, ((accepted crypto jwks calls).map Mark.name).count name ≤ 1

/-- Something was accepted under this identifier that has not expired. -/
def Remembered (past : List HostCall) (jti : String) (now : Millis) : Prop :=
  ∃ mark ∈ accepted crypto jwks past, mark.jti = jti ∧ now.val < mark.exp

/-- What was accepted before comes to the cache again only while something with
its identifier has not expired, or when the cache is full. -/
def Unforgotten (past : List HostCall) (call : HostCall) : Prop :=
  ∀ mark ∈ presented crypto jwks call, mark.name ∈ (accepted crypto jwks past).map Mark.name →
    Remembered crypto jwks past mark.jti call.now ∨
      ¬ (reached crypto jwks past).HasRoom mark.jti call.now.val

end Statement

section Calls

variable {crypto : Crypto} {jwks : Bool} {past : List HostCall} {call : HostCall}

theorem reached_concat : reached crypto jwks (past ++ [call]) =
    (respond crypto jwks (reached crypto jwks past) call).2 :=
  List.foldl_append

theorem accepted_concat : accepted crypto jwks (past ++ [call]) =
    accepted crypto jwks past ++ (respond crypto jwks (reached crypto jwks past) call).1 :=
  List.notes_concat _ _ _ _ _

/-- What the cache holds of the past: no denials, marks of accepted calls only,
and of those all that have not expired at a reading of the clock. -/
structure Marked (crypto : Crypto) (jwks : Bool) (past : List HostCall) : Prop where
  undenied : ∀ jti, (reached crypto jwks past).denied.lookup jti = none
  noted : ∀ jti exp, (reached crypto jwks past).seen.lookup jti = some exp →
    ∃ mark ∈ accepted crypto jwks past, mark.jti = jti ∧ mark.exp = exp
  valid : ∀ mark ∈ accepted crypto jwks past, JtiCache.validateJti mark.jti = .ok ()
  lasting : ∀ mark ∈ accepted crypto jwks past, (∀ call ∈ past, call.now.val < mark.exp) →
    JtiCache.Lasts (reached crypto jwks past).seen mark.jti mark.exp

theorem marked_nil : Marked crypto jwks [] where
  undenied _ := AList.lookup_empty _
  noted _ _ found := by
    have none := (AList.lookup_empty _).symm.trans found
    cases none
  valid _ member := absurd member List.not_mem_nil
  lasting _ member := absurd member List.not_mem_nil

theorem Marked.concat (h : Marked crypto jwks past) : Marked crypto jwks (past ++ [call]) := by
  cases asked : presented crypto jwks call with
  | none =>
      have nothing := respond_of_none (reached crypto jwks past) asked
      have cache : reached crypto jwks (past ++ [call]) = reached crypto jwks past := by
        rw [reached_concat, nothing]
      have marks : accepted crypto jwks (past ++ [call]) = accepted crypto jwks past := by
        rw [accepted_concat, nothing, List.append_nil]
      refine ⟨?_, ?_, ?_, ?_⟩
      · rw [cache]
        exact h.undenied
      · rw [cache, marks]
        exact h.noted
      · rw [marks]
        exact h.valid
      · rw [cache, marks]
        intro mark member early
        exact h.lasting mark member fun call before => early call (List.mem_append_left _ before)
  | some mark =>
      have answer := respond_of_some (reached crypto jwks past) asked
      have cache : reached crypto jwks (past ++ [call]) =
          ((reached crypto jwks past).checkAndMark mark.jti mark.exp call.now.val).2 := by
        rw [reached_concat, answer]
      have marks : accepted crypto jwks (past ++ [call]) = accepted crypto jwks past ++
          if ((reached crypto jwks past).checkAndMark mark.jti mark.exp call.now.val).1.isOk
            then [mark] else [] := by
        rw [accepted_concat, answer]
      have new {other : Mark} (member : other ∈ accepted crypto jwks (past ++ [call])) :
          other ∈ accepted crypto jwks past ∨ other = mark ∧
            ((reached crypto jwks past).checkAndMark mark.jti mark.exp call.now.val).1.isOk := by
        rw [marks] at member
        rcases List.mem_append.mp member with before | now
        · exact .inl before
        · split at now
          case isTrue accepts => exact .inr ⟨List.mem_singleton.mp now, accepts⟩
          case isFalse => cases now
      refine ⟨fun jti => ?_, fun jti exp found => ?_, fun other member => ?_, fun other member early => ?_⟩
      · rw [cache]
        exact JtiCache.checkAndMark_denied h.undenied jti
      · rw [cache] at found
        rcases JtiCache.checkAndMark_seen found with before | ⟨accepts, rfl, rfl⟩
        · obtain ⟨other, member, same⟩ := h.noted jti exp before
          exact ⟨other, by rw [marks]; exact List.mem_append_left _ member, same⟩
        · refine ⟨mark, ?_, rfl, rfl⟩
          rw [marks, if_pos accepts]
          exact List.mem_append_right _ (List.mem_singleton.mpr rfl)
      · rcases new member with before | ⟨rfl, accepts⟩
        · exact h.valid other before
        · exact (JtiCache.checkAndMark_isOk_iff.mp accepts).1
      · rw [cache]
        have now := early call (List.mem_append_right _ (List.mem_singleton.mpr rfl))
        rcases new member with before | ⟨rfl, accepts⟩
        · refine JtiCache.checkAndMark_keeps_seen (h.lasting other before fun call earlier => ?_) now
          exact early call (List.mem_append_left _ earlier)
        · exact JtiCache.checkAndMark_accepts (JtiCache.ok_of_isOk accepts)

theorem marked (crypto : Crypto) (jwks : Bool) (calls : List HostCall) :
    Marked crypto jwks calls := by
  induction calls using List.reverseRecOn with
  | nil => exact marked_nil
  | append_singleton past call ih => exact ih.concat

/-- Under a clock that does not go back, what is remembered is seen. -/
theorem isSeen_iff_remembered {now : Millis} (clock : ∀ earlier ∈ past, earlier.now.val ≤ now.val)
    (jti : String) : (reached crypto jwks past).isSeen jti now.val = true ↔
      Remembered crypto jwks past jti now := by
  have h := marked crypto jwks past
  constructor
  · intro seen
    rw [JtiCache.isSeen] at seen
    split at seen
    case h_1 exp found =>
      obtain ⟨mark, member, same, rfl⟩ := h.noted jti exp found
      exact ⟨mark, member, same, of_decide_eq_true seen⟩
    case h_2 => cases seen
  · rintro ⟨mark, member, rfl, early⟩
    refine JtiCache.isSeen_of_lasts (h.lasting mark member fun earlier before => ?_) early
    exact Nat.lt_of_le_of_lt (clock earlier before) early

/-- What comes to the cache is accepted if its identifier is well formed, nothing
under it has yet to expire, and there is room. -/
theorem accepts_iff (clock : ∀ earlier ∈ past, earlier.now.val ≤ call.now.val) {mark : Mark}
    (asked : presented crypto jwks call = some mark) :
    (respond crypto jwks (reached crypto jwks past) call).1 = [mark] ↔
      JtiCache.validateJti mark.jti = .ok () ∧ ¬ Remembered crypto jwks past mark.jti call.now ∧
        (reached crypto jwks past).HasRoom mark.jti call.now.val := by
  have undenied : (reached crypto jwks past).isDenied mark.jti call.now.val = false := by
    rw [JtiCache.isDenied, (marked crypto jwks past).undenied]
  rw [respond_of_some _ asked, ← isSeen_iff_remembered clock, Bool.not_eq_true]
  have accepts : ((reached crypto jwks past).checkAndMark mark.jti mark.exp call.now.val).1.isOk =
      true ↔ _ := JtiCache.checkAndMark_isOk_iff
  rw [undenied, eq_self, true_and] at accepts
  rw [← accepts]
  simp

theorem acceptsOnce_iff_nodup {calls : List HostCall} :
    AcceptsOnce crypto jwks calls ↔ ((accepted crypto jwks calls).map Mark.name).Nodup :=
  List.nodup_iff_count_le_one.symm

theorem acceptsOnce_concat (clock : ∀ earlier ∈ past, earlier.now.val ≤ call.now.val) :
    AcceptsOnce crypto jwks (past ++ [call]) ↔
      AcceptsOnce crypto jwks past ∧ Unforgotten crypto jwks past call := by
  rw [acceptsOnce_iff_nodup, acceptsOnce_iff_nodup, accepted_concat]
  cases asked : presented crypto jwks call with
  | none =>
      have idle : Unforgotten crypto jwks past call := by
        intro mark presents
        rw [asked] at presents
        cases presents
      rw [respond_of_none _ asked, List.append_nil]
      exact (and_iff_left idle).symm
  | some mark =>
      have iff := accepts_iff clock asked
      have unforgotten : Unforgotten crypto jwks past call ↔
          (mark.name ∈ (accepted crypto jwks past).map Mark.name →
            Remembered crypto jwks past mark.jti call.now ∨
              ¬ (reached crypto jwks past).HasRoom mark.jti call.now.val) := by
        rw [Unforgotten, asked]
        simp
      by_cases accepts : (respond crypto jwks (reached crypto jwks past) call).1 = [mark]
      case pos =>
        obtain ⟨-, forgotten, room⟩ := iff.mp accepts
        rw [accepts, List.map_append, List.map_singleton, List.nodup_append_comm,
          List.singleton_append, List.nodup_cons, unforgotten]
        constructor
        · rintro ⟨new, distinct⟩
          exact ⟨distinct, fun member => absurd member new⟩
        · rintro ⟨distinct, kept⟩
          refine ⟨fun member => ?_, distinct⟩
          rcases kept member with remembered | full
          · exact forgotten remembered
          · exact full room
      case neg =>
        have refused : (respond crypto jwks (reached crypto jwks past) call).1 = [] := by
          rw [respond_of_some _ asked] at accepts ⊢
          exact if_neg fun ok => accepts (if_pos ok)
        rw [refused, List.append_nil]
        refine (and_iff_left (unforgotten.mpr fun member => ?_)).symm
        obtain ⟨earlier, before, same⟩ := List.mem_map.mp member
        have valid := (marked crypto jwks past).valid earlier before
        rw [(Prod.mk.inj same).2] at valid
        by_contra neither
        obtain ⟨forgotten, room⟩ := not_or.mp neither
        exact accepts (iff.mpr ⟨valid, forgotten, not_not.mp room⟩)

end Calls

/-- Nothing is accepted twice exactly if nothing is presented again after its
mark has been forgotten. -/
theorem acceptsOnce_iff (crypto : Crypto) (jwks : Bool) {calls : List HostCall}
    (clock : (calls.map fun call => call.now.val).Pairwise (· ≤ ·)) :
    AcceptsOnce crypto jwks calls ↔ List.Along (Unforgotten crypto jwks) [] calls := by
  induction calls using List.reverseRecOn with
  | nil => exact iff_of_true (fun name => Nat.zero_le 1) trivial
  | append_singleton past call ih =>
      rw [List.map_append, List.pairwise_append] at clock
      obtain ⟨first, -, behind⟩ := clock
      have last (earlier : HostCall) (before : earlier ∈ past) :
          earlier.now.val ≤ call.now.val :=
        behind _ (List.mem_map_of_mem before) _ (List.mem_singleton.mpr rfl)
      rw [acceptsOnce_concat last, ih first]
      constructor
      · rintro ⟨along, unforgotten⟩
        exact along.concat unforgotten
      · intro along
        exact ⟨along.left, List.along_iff.mp along past call [] rfl⟩

instance (crypto : Crypto) (jwks : Bool) (past : List HostCall) (jti : String) (now : Millis) :
    Decidable (Remembered crypto jwks past jti now) := List.decidableBEx _ _

instance (crypto : Crypto) (jwks : Bool) (past : List HostCall) (call : HostCall) :
    Decidable (Unforgotten crypto jwks past call) :=
  haveI (mark : Mark) : Decidable (mark.name ∈ (accepted crypto jwks past).map Mark.name →
      Remembered crypto jwks past mark.jti call.now ∨
        ¬ (reached crypto jwks past).HasRoom mark.jti call.now.val) :=
    haveI : Decidable ((reached crypto jwks past).HasRoom mark.jti call.now.val) :=
      Nat.decLt _ _
    inferInstanceAs (Decidable (_ → _))
  Option.decidableForallMem _

namespace Sample

/-- The keys of a cloud that has signed one kill. -/
def cloud : Crypto where
  verifyingKey _ := .ok ()
  verifySignature envelope _ :=
    if envelope.sig = "signature" then .ok () else .error .signatureMismatch
  payloadSignedKill envelope :=
    if envelope.payload = "kill" then .ok {
      v := 1
      jti := "jti-1"
      sid := "session-1"
      aud := "host-1"
      sub := "account-1"
      iat := 0
      exp := 90000
      reason := "" }
    else .error (.badPayload "expected value")

def viewerBundle : SessionBundleInfo where
  sessionId := 1
  jti := "jti-1"
  viewerDtlsFp := ""
  expUnixMs := 60000
  caps := {}
  sub := ""
  pinProof := none
  selectedDisplayId := none

/-- The bundle of a session is presented at these times. -/
def presentedAt (times : List Millis) : List HostCall := times.map (.bundle viewerBundle "host-1")

/-- A minute after its expiry the bundle is accepted again. -/
theorem lateReplay_not_acceptsOnce :
    ¬ ∀ calls : List HostCall, (calls.map fun call => call.now.val).Pairwise (· ≤ ·) →
      AcceptsOnce cloud true calls := by
  intro always
  have once := always (presentedAt [⟨1000, by decide⟩, ⟨120000, by decide⟩]) (by decide)
    (.bundle, "jti-1")
  revert once
  decide

theorem earlyReplay_acceptsOnce :
    AcceptsOnce cloud true (presentedAt [⟨1000, by decide⟩, ⟨2000, by decide⟩]) :=
  (acceptsOnce_iff cloud true (by decide)).mpr (by decide)

end Sample

/-! ## A kill of an accepted session -/

/-- An envelope that carries a kill for the session of a bundle: its signature
verifies, it has not expired, and it is meant for this host. -/
structure Genuine (crypto : Crypto) (lookups : Lookups) (envelope : SignedKillEnvelope)
    (payload : SignedKill) (hostDeviceId jti : String) (now : Millis) : Prop where
  verifies : verifySignedKillEnvelope crypto lookups envelope = .ok payload
  for_session : payload.jti = jti
  in_future : now.val < payload.exp
  in_range : payload.exp < 2 ^ 63
  for_us : payload.aud = hostDeviceId

section Kill

variable {crypto : Crypto} {lookups : Lookups} {envelope : SignedKillEnvelope}
  {payload : SignedKill} {hostDeviceId jti : String} {now : Millis}

theorem Genuine.unexpired (h : Genuine crypto lookups envelope payload hostDeviceId jti now) :
    ¬ (skewToleranceMs + asU64 payload.exp) % 2 ^ 64 ≤ asU64 now.val := by
  have future := h.in_future
  have range := h.in_range
  have bound := now.bound
  simp only [asU64, skewToleranceMs]
  omega

theorem mapError_ok_iff {α : Type} (result : Except JtiError Unit) (value : α) :
    (result.map fun _ => value).mapError BundleVerifyErrorLocal.jti = .ok value ↔
      result.isOk = true := by
  cases result with
  | error e => exact iff_of_false (by simp [Except.map, Except.mapError]) Bool.false_ne_true
  | ok => exact iff_of_true rfl rfl

/-- A genuine kill passes if the envelope does not name another audience and the
cache accepts it. -/
theorem Genuine.accepted_iff (h : Genuine crypto lookups envelope payload hostDeviceId jti now)
    (cache : JtiCache) :
    (verifyKillEnvelopeLocal crypto lookups true cache envelope now.val).1 = .ok payload ↔
      (envelope.payload.aud = "" ∨ payload.aud = envelope.payload.aud) ∧
        (cache.checkAndMark jti (asU64 payload.exp) now.val).1.isOk = true := by
  rw [verifyKillEnvelopeLocal, if_pos rfl, h.verifies]
  simp only
  rw [if_neg h.unexpired, h.for_session, asU64_millis]
  have foreign : (!envelope.payload.aud.isEmpty && decide (payload.aud ≠ envelope.payload.aud)) =
      true ↔ ¬ (envelope.payload.aud = "" ∨ payload.aud = envelope.payload.aud) := by
    simp
  by_cases ours : envelope.payload.aud = "" ∨ payload.aud = envelope.payload.aud
  case pos =>
    rw [if_neg (foreign.not.mpr (not_not.mpr ours)), and_iff_right ours]
    exact mapError_ok_iff _ payload
  case neg =>
    rw [if_pos (foreign.mpr ours)]
    exact iff_of_false (by simp) fun both => ours both.1

theorem hasRoom_of_length {cache : JtiCache} (jti : String) (now : Nat)
    (room : cache.seen.entries.length + cache.denied.entries.length < cache.maxEntries) :
    cache.HasRoom jti now := by
  have seen : (cache.allowed jti now).seen.entries.length ≤ cache.seen.entries.length :=
    List.length_filter_le _ _
  have denied : (cache.allowed jti now).denied.entries.length ≤ cache.denied.entries.length :=
    Nat.le_trans (List.kerase_sublist _ _).length_le (List.length_filter_le _ _)
  show _ < _
  omega

end Kill

/-- A genuine kill of a session whose bundle was accepted passes exactly if
nothing accepted under its identifier has yet to expire, and the envelope names
no other audience. -/
theorem kill_accepted_iff (crypto : Crypto) {past : List HostCall} {lookups : Lookups}
    {envelope : SignedKillEnvelope} {payload : SignedKill} {hostDeviceId jti : String}
    {now : Millis} (clock : ∀ earlier ∈ past, earlier.now.val ≤ now.val)
    (bundle : (Kind.bundle, jti) ∈ (accepted crypto true past).map Mark.name)
    (genuine : Genuine crypto lookups envelope payload hostDeviceId jti now)
    (room : (reached crypto true past).seen.entries.length +
      (reached crypto true past).denied.entries.length < (reached crypto true past).maxEntries) :
    (verifyKillEnvelopeLocal crypto lookups true (reached crypto true past) envelope now.val).1 =
        .ok payload ↔
      ¬ Remembered crypto true past jti now ∧
        (envelope.payload.aud = "" ∨ payload.aud = envelope.payload.aud) := by
  have h := marked crypto true past
  have valid : JtiCache.validateJti jti = .ok () := by
    obtain ⟨mark, member, same⟩ := List.mem_map.mp bundle
    rw [← (Prod.mk.inj same).2]
    exact h.valid mark member
  have undenied : (reached crypto true past).isDenied jti now.val = false := by
    rw [JtiCache.isDenied, h.undenied]
  rw [genuine.accepted_iff, JtiCache.checkAndMark_isOk_iff, and_iff_right valid,
    and_iff_right undenied, and_iff_left (hasRoom_of_length jti now.val room), and_comm,
    ← Bool.not_eq_true]
  exact and_congr_left' (not_congr (isSeen_iff_remembered clock jti))

namespace Sample

def killEnvelope : SignedKillEnvelope where
  payload := {
    v := 1
    jti := "jti-1"
    sid := "session-1"
    aud := "host-1"
    sub := "account-1"
    iat := 0
    exp := 90000
    reason := "" }
  envelope := { kid := "key-1", v := 1, payload := "kill", sig := "signature" }

def published : Lookups where
  verify := .ok 7
  decode := .ok 7

theorem killEnvelope_genuine (now : Millis) (early : now.val < 90000) :
    Genuine cloud published killEnvelope killEnvelope.payload "host-1" "jti-1" now where
  verifies := rfl
  for_session := rfl
  in_future := by
    show (now.val : Int) < 90000
    omega
  in_range := by decide
  for_us := rfl

/-- While the bundle is valid, its mark makes the kill look like a replay. -/
theorem promptKill_not_accepted :
    (Kind.bundle, "jti-1") ∈ (accepted cloud true (presentedAt [⟨1000, by decide⟩])).map Mark.name ∧
      Genuine cloud published killEnvelope killEnvelope.payload "host-1" "jti-1"
        ⟨2000, by decide⟩ ∧
      (reached cloud true (presentedAt [⟨1000, by decide⟩])).seen.entries.length +
        (reached cloud true (presentedAt [⟨1000, by decide⟩])).denied.entries.length <
          (reached cloud true (presentedAt [⟨1000, by decide⟩])).maxEntries ∧
      (verifyKillEnvelopeLocal cloud published true
        (reached cloud true (presentedAt [⟨1000, by decide⟩])) killEnvelope 2000).1 ≠
          .ok killEnvelope.payload := by
  refine ⟨by decide, killEnvelope_genuine _ (by decide), by decide, ?_⟩
  intro passes
  have ok := congrArg Except.isOk passes
  revert ok
  decide

theorem lateKill_accepted :
    (verifyKillEnvelopeLocal cloud published true
      (reached cloud true (presentedAt [⟨1000, by decide⟩])) killEnvelope
      ((⟨70000, by decide⟩ : Millis).val)).1 = .ok killEnvelope.payload :=
  (kill_accepted_iff cloud (by decide) (by decide) (killEnvelope_genuine _ (by decide))
    (by decide)).mpr ⟨by decide, .inr rfl⟩

end Sample

end Qubox.Host
