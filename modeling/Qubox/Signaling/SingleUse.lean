import Qubox.Library.History
import Qubox.Signaling.JtiCache

/-!
# Runs of the single-use cache

A `JtiCache` sees any sequence of calls. Both promises of the cache, that an
accepted bundle is not accepted again before its expiry and that a kill stays in
force until its expiry, rest on one fact: as long as the clock has not reached
`exp`, only `denylist` can replace an entry that lasts until `exp` by one that
ends earlier.
-/

namespace Qubox.Signaling

/-- The calls on a cache. `denylist` is the only one that is not given the time. -/
inductive JtiCall where
  | checkAndMark (jti : String) (expUnixMs nowUnixMs : Nat)
  | denylist (jti : String) (expUnixMs : Nat)
  | isDenied (jti : String) (nowUnixMs : Nat)
  | isSeen (jti : String) (nowUnixMs : Nat)
  | pruneExpired (nowUnixMs : Nat)
  deriving DecidableEq, Repr

def JtiCall.time : JtiCall → Option Nat
  | .checkAndMark _ _ now => some now
  | .denylist _ _ => none
  | .isDenied _ now => some now
  | .isSeen _ now => some now
  | .pruneExpired now => some now

namespace JtiCache

def step (cache : JtiCache) : JtiCall → JtiCache
  | .checkAndMark jti exp now => (cache.checkAndMark jti exp now).2
  | .denylist jti exp => (cache.denylist jti exp).2
  | .isDenied _ _ => cache
  | .isSeen _ _ => cache
  | .pruneExpired now => cache.pruneExpired now

def run (cache : JtiCache) (calls : List JtiCall) : JtiCache := calls.foldl step cache

theorem run_concat (cache : JtiCache) (past : List JtiCall) (call : JtiCall) :
    cache.run (past ++ [call]) = (cache.run past).step call :=
  List.foldl_append

/-- The readings of the clock in a sequence of calls. -/
def times (calls : List JtiCall) : List Nat := calls.filterMap JtiCall.time

theorem mem_times_append {past rest : List JtiCall} {now : Nat} (read : now ∈ times past) :
    now ∈ times (past ++ rest) := by
  rw [times, List.filterMap_append]
  exact List.mem_append_left _ read

theorem times_concat_denylist (past : List JtiCall) (jti : String) (exp : Nat) :
    times (past ++ [.denylist jti exp]) = times past := by
  rw [times, times, List.filterMap_append]
  exact List.append_nil _

/-! ## What the buckets hold after a call -/

/-- A bucket has an entry for `jti` that lasts at least until `exp`. -/
def Lasts (bucket : AList (fun _ : String => Nat)) (jti : String) (exp : Nat) : Prop :=
  ∃ stored, bucket.lookup jti = some stored ∧ exp ≤ stored

section Lasts

variable {bucket : AList (fun _ : String => Nat)} {jti other : String} {exp now : Nat}

theorem Lasts.retain (lasts : Lasts bucket jti exp) (early : now < exp) :
    Lasts (bucket.retain (fun _ stored => decide (now < stored))) jti exp := by
  obtain ⟨stored, found, long⟩ := lasts
  refine ⟨stored, AList.lookup_retain_eq_some.mpr ⟨found, ?_⟩, long⟩
  exact decide_eq_true (Nat.lt_of_lt_of_le early long)

theorem Lasts.erase (lasts : Lasts bucket jti exp) (differ : jti ≠ other) :
    Lasts (bucket.erase other) jti exp := by
  obtain ⟨stored, found, long⟩ := lasts
  exact ⟨stored, by rw [AList.lookup_erase_ite, if_neg differ, found], long⟩

theorem Lasts.insert (lasts : Lasts bucket jti exp) (differ : jti ≠ other) (stored : Nat) :
    Lasts (bucket.insert other stored) jti exp := by
  obtain ⟨kept, found, long⟩ := lasts
  exact ⟨kept, by rw [AList.lookup_insert_ite, if_neg differ, found], long⟩

theorem lasts_insert_self {stored : Nat} (long : exp ≤ stored) :
    Lasts (bucket.insert jti stored) jti exp :=
  ⟨stored, by rw [AList.lookup_insert_ite, if_pos rfl], long⟩

end Lasts

variable {cache : JtiCache} {jti other : String} {exp exp' now : Nat}

theorem isDenied_of_lasts (lasts : Lasts cache.denied jti exp) (early : now < exp) :
    cache.isDenied jti now = true := by
  obtain ⟨stored, found, long⟩ := lasts
  rw [isDenied, found]
  exact decide_eq_true (Nat.lt_of_lt_of_le early long)

theorem isSeen_of_lasts (lasts : Lasts cache.seen jti exp) (early : now < exp) :
    cache.isSeen jti now = true := by
  obtain ⟨stored, found, long⟩ := lasts
  rw [isSeen, found]
  exact decide_eq_true (Nat.lt_of_lt_of_le early long)

/-- The cache `check_and_mark` looks for an acceptance in. -/
def allowed (cache : JtiCache) (jti : String) (nowUnixMs : Nat) : JtiCache :=
  let pruned := cache.pruneExpired nowUnixMs
  { pruned with denied := pruned.denied.erase jti }

theorem checkAndMark_eq (valid : validateJti jti = .ok ()) :
    cache.checkAndMark jti exp now =
      if (cache.pruneExpired now).isDenied jti now then (.error .killed, cache.pruneExpired now)
      else if (cache.allowed jti now).isSeen jti now then (.error .replay, cache.allowed jti now)
      else if ((cache.allowed jti now).seen.lookup jti).isSome then
        ((cache.allowed jti now).forgetSeen jti).mark jti exp
      else (cache.allowed jti now).mark jti exp := by
  rw [checkAndMark, valid]
  rfl

/-- What `check_and_mark` can do: refuse a malformed identifier, refuse a killed
one, refuse a replay, or try to record the acceptance. -/
theorem checkAndMark_cases (cache : JtiCache) (jti : String) (exp now : Nat) :
    (∃ error, cache.checkAndMark jti exp now = (.error error, cache) ∧
      validateJti jti = .error error) ∨
    (cache.checkAndMark jti exp now = (.error .killed, cache.pruneExpired now) ∧
      (cache.pruneExpired now).isDenied jti now = true) ∨
    ((cache.pruneExpired now).isDenied jti now = false ∧
      (cache.checkAndMark jti exp now = (.error .replay, cache.allowed jti now) ∨
        ((cache.allowed jti now).isSeen jti now = false ∧ ∃ start,
          (start = cache.allowed jti now ∨ start = (cache.allowed jti now).forgetSeen jti) ∧
          cache.checkAndMark jti exp now = start.mark jti exp))) := by
  cases valid : validateJti jti with
  | error error => exact .inl ⟨error, by rw [checkAndMark, valid], rfl⟩
  | ok =>
      refine .inr ?_
      rw [checkAndMark_eq valid]
      cases denied : (cache.pruneExpired now).isDenied jti now with
      | true => exact .inl ⟨if_pos rfl, rfl⟩
      | false =>
          refine .inr ⟨rfl, ?_⟩
          rw [if_neg Bool.false_ne_true]
          cases seen : (cache.allowed jti now).isSeen jti now with
          | true => exact .inl (if_pos rfl)
          | false =>
              rw [if_neg Bool.false_ne_true]
              by_cases stale : ((cache.allowed jti now).seen.lookup jti).isSome
              · exact .inr ⟨rfl, _, .inr rfl, if_pos stale⟩
              · exact .inr ⟨rfl, _, .inl rfl, if_neg stale⟩

@[simp] theorem mark_denied (cache : JtiCache) (jti : String) (exp : Nat) :
    (cache.mark jti exp).2.denied = cache.denied := by
  rw [mark]
  split <;> rfl

theorem mark_seen (cache : JtiCache) (jti : String) (exp : Nat) :
    (cache.mark jti exp).2.seen = cache.seen ∨
      (cache.mark jti exp).2.seen = cache.seen.insert jti exp := by
  rw [mark]
  split
  · exact .inl rfl
  · exact .inr rfl

theorem mark_ok (marked : (cache.mark jti exp).1 = .ok ()) :
    (cache.mark jti exp).2.seen = cache.seen.insert jti exp := by
  rw [mark] at marked ⊢
  split at marked
  · cases marked
  · rename_i room
    rw [if_neg room]

/-! ## Checking keeps what lasts -/

theorem pruneExpired_keeps_denied (lasts : Lasts cache.denied jti exp) (early : now < exp) :
    Lasts (cache.pruneExpired now).denied jti exp :=
  lasts.retain early

theorem pruneExpired_keeps_seen (lasts : Lasts cache.seen jti exp) (early : now < exp) :
    Lasts (cache.pruneExpired now).seen jti exp :=
  lasts.retain early

theorem allowed_keeps_seen (lasts : Lasts cache.seen jti exp) (early : now < exp) :
    Lasts (cache.allowed other now).seen jti exp :=
  lasts.retain early

theorem checkAndMark_keeps_denied (lasts : Lasts cache.denied jti exp) (early : now < exp) :
    Lasts (cache.checkAndMark other exp' now).2.denied jti exp := by
  have pruned := pruneExpired_keeps_denied lasts early
  have allowed : (cache.pruneExpired now).isDenied other now = false →
      Lasts (cache.allowed other now).denied jti exp := by
    intro unkilled
    refine pruned.erase fun same => ?_
    rw [← same, isDenied_of_lasts pruned early] at unkilled
    cases unkilled
  obtain ⟨error, checked, -⟩ | ⟨checked, -⟩ |
    ⟨unkilled, checked | ⟨-, start, rfl | rfl, checked⟩⟩ := cache.checkAndMark_cases other exp' now
  · rwa [checked]
  · rwa [checked]
  · rw [checked]
    exact allowed unkilled
  · rw [checked, mark_denied]
    exact allowed unkilled
  · rw [checked, mark_denied]
    exact allowed unkilled

theorem checkAndMark_keeps_seen (lasts : Lasts cache.seen jti exp) (early : now < exp) :
    Lasts (cache.checkAndMark other exp' now).2.seen jti exp := by
  have allowed : Lasts (cache.allowed other now).seen jti exp := allowed_keeps_seen lasts early
  -- the identifier that is about to be recorded is not the one that is remembered
  have differ : (cache.allowed other now).isSeen other now = false → jti ≠ other := by
    rintro unseen rfl
    rw [isSeen_of_lasts allowed early] at unseen
    cases unseen
  have marked : ∀ start : JtiCache, jti ≠ other → Lasts start.seen jti exp →
      Lasts (start.mark other exp').2.seen jti exp := by
    intro start differ kept
    rcases start.mark_seen other exp' with same | inserted
    · rwa [same]
    · rw [inserted]
      exact kept.insert differ exp'
  obtain ⟨error, checked, -⟩ | ⟨checked, -⟩ |
    ⟨-, checked | ⟨unseen, start, rfl | rfl, checked⟩⟩ := cache.checkAndMark_cases other exp' now
  · rwa [checked]
  · rw [checked]
    exact pruneExpired_keeps_seen lasts early
  · rwa [checked]
  · rw [checked]
    exact marked _ (differ unseen) allowed
  · rw [checked]
    exact marked _ (differ unseen) (allowed.erase (differ unseen))

theorem checkAndMark_killed (lasts : Lasts cache.denied jti exp) (early : now < exp)
    (valid : validateJti jti = .ok ()) :
    (cache.checkAndMark jti exp' now).1 = .error .killed := by
  have killed := isDenied_of_lasts (pruneExpired_keeps_denied lasts early) early
  rw [checkAndMark_eq valid, if_pos killed]

theorem checkAndMark_refused
    (lasts : Lasts cache.denied jti exp ∨ Lasts cache.seen jti exp) (early : now < exp) :
    ∃ error, (cache.checkAndMark jti exp' now).1 = .error error := by
  obtain ⟨error, checked, -⟩ | ⟨checked, -⟩ |
    ⟨unkilled, checked | ⟨unseen, -⟩⟩ := cache.checkAndMark_cases jti exp' now
  · exact ⟨error, by rw [checked]⟩
  · exact ⟨.killed, by rw [checked]⟩
  · exact ⟨.replay, by rw [checked]⟩
  · rcases lasts with denied | seen
    · rw [isDenied_of_lasts (pruneExpired_keeps_denied denied early) early] at unkilled
      cases unkilled
    · rw [isSeen_of_lasts (allowed_keeps_seen seen early) early] at unseen
      cases unseen

theorem checkAndMark_accepts (accepted : (cache.checkAndMark jti exp now).1 = .ok ()) :
    Lasts (cache.checkAndMark jti exp now).2.seen jti exp := by
  obtain ⟨error, checked, -⟩ | ⟨checked, -⟩ |
    ⟨-, checked | ⟨-, start, -, checked⟩⟩ := cache.checkAndMark_cases jti exp now
  · rw [checked] at accepted
    cases accepted
  · rw [checked] at accepted
    cases accepted
  · rw [checked] at accepted
    cases accepted
  · rw [checked] at accepted ⊢
    rw [mark_ok accepted]
    exact lasts_insert_self le_rfl

/-! ## When a bundle is accepted -/

/-- Dropping expired entries does not change which are live. -/
theorem live_retain (bucket : AList (fun _ : String => Nat)) (jti : String) (now : Nat) :
    ((bucket.retain fun _ exp => decide (now < exp)).lookup jti).any (fun exp => now < exp) =
      (bucket.lookup jti).any (fun exp => now < exp) := by
  rw [Bool.eq_iff_iff, Option.any_eq_true, Option.any_eq_true]
  constructor
  · rintro ⟨exp, found, live⟩
    exact ⟨exp, (AList.lookup_retain_eq_some.mp found).1, live⟩
  · rintro ⟨exp, found, live⟩
    exact ⟨exp, AList.lookup_retain_eq_some.mpr ⟨found, live⟩, live⟩

theorem isDenied_eq_any : cache.isDenied jti now =
    (cache.denied.lookup jti).any (fun exp => now < exp) := by
  rw [isDenied]
  cases cache.denied.lookup jti <;> rfl

theorem isSeen_eq_any : cache.isSeen jti now =
    (cache.seen.lookup jti).any (fun exp => now < exp) := by
  rw [isSeen]
  cases cache.seen.lookup jti <;> rfl

theorem pruneExpired_isDenied : (cache.pruneExpired now).isDenied jti now = cache.isDenied jti now := by
  rw [isDenied_eq_any, isDenied_eq_any]
  exact live_retain cache.denied jti now

theorem allowed_isSeen : (cache.allowed other now).isSeen jti now = cache.isSeen jti now := by
  rw [isSeen_eq_any, isSeen_eq_any]
  exact live_retain cache.seen jti now

/-- There is room for another entry once the expired ones are dropped. -/
def HasRoom (cache : JtiCache) (jti : String) (now : Nat) : Prop :=
  (cache.allowed jti now).seen.entries.length + (cache.allowed jti now).denied.entries.length <
    cache.maxEntries

/-- What is not seen any more has been dropped. -/
theorem lookup_allowed (unseen : cache.isSeen jti now = false) :
    (cache.allowed jti now).seen.lookup jti = none := by
  rw [Option.eq_none_iff_forall_ne_some]
  intro exp found
  obtain ⟨stored, live⟩ := AList.lookup_retain_eq_some.mp found
  rw [isSeen, stored] at unseen
  exact absurd live (by simpa using unseen)

theorem ok_of_isOk {result : Except JtiError Unit} (accepted : result.isOk = true) :
    result = .ok () := by
  cases result with
  | error e => cases accepted
  | ok => rfl

theorem checkAndMark_isOk_iff :
    (cache.checkAndMark jti exp now).1.isOk = true ↔ validateJti jti = .ok () ∧
      cache.isDenied jti now = false ∧ cache.isSeen jti now = false ∧ cache.HasRoom jti now := by
  cases valid : validateJti jti with
  | error error => simp [checkAndMark, valid, Except.isOk, Except.toBool]
  | ok =>
      rw [checkAndMark_eq valid, pruneExpired_isDenied, allowed_isSeen]
      cases cache.isDenied jti now with
      | true => simp [Except.isOk, Except.toBool]
      | false =>
          cases unseen : cache.isSeen jti now with
          | true => simp [Except.isOk, Except.toBool]
          | false =>
              have kept : (cache.allowed jti now).maxEntries = cache.maxEntries := rfl
              simp only [Bool.false_eq_true, if_false, lookup_allowed unseen, Option.isSome_none,
                mark, HasRoom, kept, true_and]
              split
              case isTrue full => simp [Except.isOk, Except.toBool, Nat.not_lt.mpr full]
              case isFalse room => simp [Except.isOk, Except.toBool, Nat.not_le.mp room]

/-- Checking denies nothing. -/
theorem checkAndMark_denied (undenied : ∀ jti, cache.denied.lookup jti = none) (jti' : String) :
    (cache.checkAndMark jti exp now).2.denied.lookup jti' = none := by
  have pruned : ∀ jti, (cache.pruneExpired now).denied.lookup jti = none := by
    intro jti
    rw [Option.eq_none_iff_forall_ne_some]
    intro stored found
    have before := (AList.lookup_retain_eq_some.mp found).1
    rw [undenied] at before
    cases before
  have allowed : (cache.allowed jti now).denied.lookup jti' = none := by
    show ((cache.pruneExpired now).denied.erase jti).lookup jti' = none
    rw [AList.lookup_erase_ite, pruned, ite_self]
  obtain ⟨error, checked, -⟩ | ⟨checked, -⟩ |
    ⟨-, checked | ⟨-, start, rfl | rfl, checked⟩⟩ := cache.checkAndMark_cases jti exp now
  · rw [checked, undenied]
  · rw [checked, pruned]
  · rw [checked, allowed]
  · rw [checked, mark_denied, allowed]
  · rw [checked, mark_denied]
    exact allowed

/-- What is seen after a check was seen before, or has just been accepted. -/
theorem checkAndMark_seen {jti' : String} {stored : Nat}
    (found : (cache.checkAndMark jti exp now).2.seen.lookup jti' = some stored) :
    cache.seen.lookup jti' = some stored ∨
      (cache.checkAndMark jti exp now).1.isOk = true ∧ jti' = jti ∧ stored = exp := by
  have pruned : ∀ stored, (cache.allowed jti now).seen.lookup jti' = some stored →
      cache.seen.lookup jti' = some stored :=
    fun stored found => (AList.lookup_retain_eq_some.mp found).1
  have marked (start : JtiCache) (before : ∀ stored, start.seen.lookup jti' = some stored →
      cache.seen.lookup jti' = some stored)
      (checked : cache.checkAndMark jti exp now = start.mark jti exp) :
      cache.seen.lookup jti' = some stored ∨
        (cache.checkAndMark jti exp now).1.isOk = true ∧ jti' = jti ∧ stored = exp := by
    rw [checked] at found ⊢
    cases noted : (start.mark jti exp).1 with
    | error e =>
        rw [mark] at found noted
        split at noted
        case isTrue full =>
          rw [if_pos full] at found
          exact .inl (before stored found)
        case isFalse => cases noted
    | ok =>
        rw [mark_ok noted, AList.lookup_insert_ite] at found
        split at found
        case isTrue same =>
          obtain rfl := Option.some.inj found
          exact .inr ⟨rfl, same, rfl⟩
        case isFalse => exact .inl (before stored found)
  obtain ⟨error, checked, -⟩ | ⟨checked, -⟩ |
    ⟨-, checked | ⟨-, start, rfl | rfl, checked⟩⟩ := cache.checkAndMark_cases jti exp now
  · rw [checked] at found
    exact .inl found
  · rw [checked] at found
    exact .inl (AList.lookup_retain_eq_some.mp found).1
  · rw [checked] at found
    exact .inl (pruned stored found)
  · exact marked _ pruned checked
  · refine marked _ (fun stored found => ?_) checked
    rw [forgetSeen, AList.lookup_erase_ite] at found
    split at found
    case isTrue => cases found
    case isFalse => exact pruned stored found

/-! ## Denying -/

theorem denylist_eq (valid : validateJti jti = .ok ()) :
    cache.denylist jti exp = (.ok (),
      { cache.forgetSeen jti with denied := cache.denied.insert jti exp }) := by
  rw [denylist, valid]
  rfl

theorem validateJti_of_denylist (done : (cache.denylist jti exp).1 = .ok ()) :
    validateJti jti = .ok () := by
  rw [denylist] at done
  cases valid : validateJti jti with
  | error error =>
      rw [valid] at done
      cases done
  | ok => rfl

/-- A denial replaces the entry of its identifier and leaves the others alone. -/
theorem denylist_lookup (cache : JtiCache) (other : String) (exp' : Nat) (jti : String) :
    (validateJti other = .ok () ∧ jti = other ∧
      (cache.denylist other exp').2.denied.lookup jti = some exp') ∨
    ((cache.denylist other exp').2.denied.lookup jti = cache.denied.lookup jti ∧
      (cache.denylist other exp').2.seen.lookup jti = cache.seen.lookup jti) := by
  cases valid : validateJti other with
  | error error =>
      right
      rw [denylist, valid]
      exact ⟨rfl, rfl⟩
  | ok =>
      rw [denylist_eq valid]
      by_cases same : jti = other
      · exact .inl ⟨rfl, same, by rw [AList.lookup_insert_ite, if_pos same]⟩
      · refine .inr ⟨?_, ?_⟩
        · rw [AList.lookup_insert_ite, if_neg same]
        · rw [forgetSeen, AList.lookup_erase_ite, if_neg same]

/-! ## Whole runs -/

/-- A call at a time before `exp` that does not deny `jti` for less than `exp`. -/
def Sparing (jti : String) (exp : Nat) (call : JtiCall) : Prop :=
  (∀ now, call.time = some now → now < exp) ∧ ∀ exp', call = .denylist jti exp' → exp ≤ exp'

theorem step_keeps_denied {call : JtiCall} (sparing : Sparing jti exp call)
    (lasts : Lasts cache.denied jti exp) : Lasts (cache.step call).denied jti exp := by
  cases call with
  | checkAndMark other exp' now => exact checkAndMark_keeps_denied lasts (sparing.1 now rfl)
  | denylist other exp' =>
      obtain ⟨-, rfl, stored⟩ | ⟨same, -⟩ := cache.denylist_lookup other exp' jti
      · exact ⟨exp', stored, sparing.2 exp' rfl⟩
      · rwa [Lasts, step, same]
  | isDenied other now | isSeen other now => exact lasts
  | pruneExpired now => exact pruneExpired_keeps_denied lasts (sparing.1 now rfl)

/-- An acceptance that lasts stays, or turns into a denial that lasts. -/
theorem step_keeps_seen {call : JtiCall} (sparing : Sparing jti exp call)
    (lasts : Lasts cache.seen jti exp) :
    Lasts (cache.step call).denied jti exp ∨ Lasts (cache.step call).seen jti exp := by
  cases call with
  | checkAndMark other exp' now => exact .inr (checkAndMark_keeps_seen lasts (sparing.1 now rfl))
  | denylist other exp' =>
      obtain ⟨-, rfl, stored⟩ | ⟨-, same⟩ := cache.denylist_lookup other exp' jti
      · exact .inl ⟨exp', stored, sparing.2 exp' rfl⟩
      · right
        rwa [Lasts, step, same]
  | isDenied other now | isSeen other now => exact .inr lasts
  | pruneExpired now => exact .inr (pruneExpired_keeps_seen lasts (sparing.1 now rfl))

/-- The bundle that a call accepts, with its expiry. -/
def acceptance (cache : JtiCache) : JtiCall → List (String × Nat)
  | .checkAndMark jti exp now =>
      match (cache.checkAndMark jti exp now).1 with
      | .ok () => [(jti, exp)]
      | .error _ => []
  | _ => []

/-- The kill that a call enters, with its expiry. -/
def kill (cache : JtiCache) : JtiCall → List (String × Nat)
  | .denylist jti exp =>
      match (cache.denylist jti exp).1 with
      | .ok () => [(jti, exp)]
      | .error _ => []
  | _ => []

def accepted : JtiCache → List JtiCall → List (String × Nat) := List.notes step acceptance

def killed : JtiCache → List JtiCall → List (String × Nat) := List.notes step kill

theorem mem_acceptance {call : JtiCall} {entry : String × Nat}
    (entered : entry ∈ cache.acceptance call) :
    ∃ now, call = .checkAndMark entry.1 entry.2 now ∧
      (cache.checkAndMark entry.1 entry.2 now).1 = .ok () := by
  cases call with
  | checkAndMark jti exp now =>
      rw [acceptance] at entered
      split at entered
      · rename_i checked
        obtain rfl := List.mem_singleton.mp entered
        exact ⟨now, rfl, checked⟩
      · cases entered
  | _ => cases entered

theorem mem_kill {call : JtiCall} {entry : String × Nat} (entered : entry ∈ cache.kill call) :
    call = .denylist entry.1 entry.2 ∧ validateJti entry.1 = .ok () := by
  cases call with
  | denylist jti exp =>
      rw [kill] at entered
      split at entered
      · rename_i done
        obtain rfl := List.mem_singleton.mp entered
        exact ⟨rfl, validateJti_of_denylist done⟩
      · cases entered
  | _ => cases entered

/-- A denial does not end before one of `entries` for the same identifier that is
still in the future. -/
def Outlasting (entries : List JtiCall → List (String × Nat)) (past : List JtiCall) :
    JtiCall → Prop
  | .denylist jti exp' => ∀ entry ∈ entries past, entry.1 = jti →
      entry.2 ≤ exp' ∨ ∃ now ∈ times past, entry.2 ≤ now
  | _ => True

instance (entries : List JtiCall → List (String × Nat)) (past : List JtiCall) :
    ∀ call, Decidable (Outlasting entries past call)
  | .denylist _ _ => inferInstanceAs (Decidable (∀ entry ∈ entries past, _ → _))
  | .checkAndMark .. | .isDenied .. | .isSeen .. | .pruneExpired .. => isTrue trivial

theorem Outlasting.sparing {entries : List JtiCall → List (String × Nat)} {past : List JtiCall}
    {call : JtiCall} {entry : String × Nat} (outlasting : Outlasting entries past call)
    (entered : entry ∈ entries past) (clock : ∀ now ∈ times (past ++ [call]), now < entry.2) :
    Sparing entry.1 entry.2 call := by
  refine ⟨fun now read => ?_, fun exp' same => ?_⟩
  · apply clock
    rw [times, List.filterMap_append]
    exact List.mem_append_right _ (List.mem_filterMap.mpr ⟨call, List.mem_singleton.mpr rfl, read⟩)
  · subst same
    rcases outlasting entry entered rfl with long | ⟨now, read, late⟩
    · exact long
    · have early := clock now (mem_times_append read)
      omega

/-! ## An accepted bundle is not accepted again -/

/-- Wherever a sequence of calls stands, a bundle it has accepted is refused until
its expiry, at every time from the last reading of the clock on. -/
def SingleUse (fresh : JtiCache) (calls : List JtiCall) : Prop :=
  ∀ past rest, calls = past ++ rest → ∀ jti exp, (jti, exp) ∈ fresh.accepted past →
    ∀ exp' now, (∀ time ∈ times past, time ≤ now) → now < exp →
      ∃ error, ((fresh.run past).checkAndMark jti exp' now).1 = .error error

/-- Until the clock reaches its expiry, an accepted bundle is in one of the buckets. -/
def Remembers (fresh : JtiCache) (past : List JtiCall) : Prop :=
  ∀ entry ∈ fresh.accepted past, (∀ now ∈ times past, now < entry.2) →
    Lasts (fresh.run past).denied entry.1 entry.2 ∨ Lasts (fresh.run past).seen entry.1 entry.2

theorem Remembers.step {fresh : JtiCache} {past : List JtiCall} {call : JtiCall}
    (outlasting : Outlasting fresh.accepted past call) (remembers : Remembers fresh past) :
    Remembers fresh (past ++ [call]) := by
  intro entry entered clock
  rw [accepted, List.notes_concat] at entered
  rw [run_concat]
  rcases List.mem_append.mp entered with earlier | now
  · have sparing := outlasting.sparing earlier clock
    have early : ∀ now ∈ times past, now < entry.2 :=
      fun now read => clock now (mem_times_append read)
    rcases remembers entry earlier early with denied | seen
    · exact .inl (step_keeps_denied sparing denied)
    · exact step_keeps_seen sparing seen
  · obtain ⟨time, rfl, checked⟩ := mem_acceptance now
    exact .inr (checkAndMark_accepts checked)

theorem singleUse_of_outlasting {fresh : JtiCache} {calls : List JtiCall}
    (outlasting : List.Along (Outlasting fresh.accepted) [] calls) : fresh.SingleUse calls := by
  rintro past rest rfl jti exp entered exp' now clock early
  have remembers : Remembers fresh ([] ++ past) :=
    outlasting.left.invariant (fun past call ok kept => kept.step ok)
      fun entry entered => absurd entered List.not_mem_nil
  have kept := remembers (jti, exp) entered
    fun time read => Nat.lt_of_le_of_lt (clock time read) early
  exact checkAndMark_refused kept early

/-! ## A kill stays in force -/

/-- Wherever a sequence of calls stands, a kill it has entered is in force until
its expiry, at every time from the last reading of the clock on. -/
def KillsHold (fresh : JtiCache) (calls : List JtiCall) : Prop :=
  ∀ past rest, calls = past ++ rest → ∀ jti exp, (jti, exp) ∈ fresh.killed past →
    ∀ now, (∀ time ∈ times past, time ≤ now) → now < exp →
      (fresh.run past).isDenied jti now = true ∧
        ∀ exp', ((fresh.run past).checkAndMark jti exp' now).1 = .error .killed

/-- Until the clock reaches its expiry, a kill is on the denylist. -/
def Denies (fresh : JtiCache) (past : List JtiCall) : Prop :=
  ∀ entry ∈ fresh.killed past, (∀ now ∈ times past, now < entry.2) →
    Lasts (fresh.run past).denied entry.1 entry.2

theorem Denies.step {fresh : JtiCache} {past : List JtiCall} {call : JtiCall}
    (outlasting : Outlasting fresh.killed past call) (denies : Denies fresh past) :
    Denies fresh (past ++ [call]) := by
  intro entry entered clock
  rw [killed, List.notes_concat] at entered
  rw [run_concat]
  rcases List.mem_append.mp entered with earlier | now
  · have early : ∀ now ∈ times past, now < entry.2 :=
      fun now read => clock now (mem_times_append read)
    exact step_keeps_denied (outlasting.sparing earlier clock) (denies entry earlier early)
  · obtain ⟨rfl, valid⟩ := mem_kill now
    rw [JtiCache.step, denylist_eq valid]
    exact lasts_insert_self le_rfl

theorem validateJti_of_mem_killed {fresh : JtiCache} {past : List JtiCall} {entry : String × Nat}
    (entered : entry ∈ fresh.killed past) : validateJti entry.1 = .ok () := by
  obtain ⟨before, call, after, -, noted⟩ := List.mem_notes.mp entered
  exact (mem_kill noted).2

/-- Kills hold exactly when no denial ends before an earlier one that is still in
the future. -/
theorem killsHold_iff (fresh : JtiCache) (calls : List JtiCall) :
    fresh.KillsHold calls ↔ List.Along (Outlasting fresh.killed) [] calls := by
  constructor
  · intro holds
    rw [List.along_iff]
    rintro past call rest rfl
    cases call with
    | denylist jti exp' =>
        rintro ⟨jti', exp⟩ entered same
        obtain rfl : jti' = jti := same
        by_contra short
        obtain ⟨shorter, early⟩ := not_or.mp short
        -- the last instant at which the first kill is still to be in force
        have last := holds (past ++ [.denylist jti' exp']) rest (by simp) jti' exp (by
          rw [killed, List.notes_append]
          exact List.mem_append_left _ entered) (exp - 1) (by
            rw [times_concat_denylist]
            intro time read
            have : ¬ exp ≤ time := fun late => early ⟨time, read, late⟩
            omega) (by omega)
        have replaced : ((fresh.run past).denylist jti' exp').2.denied.lookup jti' = some exp' := by
          rw [denylist_eq (validateJti_of_mem_killed entered)]
          exact AList.lookup_insert _
        have denied := last.1
        rw [run_concat, step, isDenied, replaced] at denied
        have := of_decide_eq_true denied
        dsimp only at shorter
        omega
    | _ => trivial
  · rintro outlasting past rest rfl jti exp entered now clock early
    have denies : Denies fresh ([] ++ past) :=
      outlasting.left.invariant (fun past call ok kept => kept.step ok)
        fun entry entered => absurd entered List.not_mem_nil
    have lasts := denies (jti, exp) entered fun time read =>
      Nat.lt_of_le_of_lt (clock time read) early
    exact ⟨isDenied_of_lasts lasts early, fun exp' =>
      checkAndMark_killed lasts early (validateJti_of_mem_killed entered)⟩

end JtiCache

namespace Sample

/-- A bundle is accepted, then killed for as long as it is valid. -/
def killedInFull : List JtiCall :=
  [.checkAndMark "a" 100 0, .denylist "a" 100, .pruneExpired 60]

/-- A bundle is accepted, then killed for less than it is valid. -/
def killedBriefly : List JtiCall := [.checkAndMark "a" 100 0, .denylist "a" 50]

/-- A bundle is killed twice, the second time for less. -/
def killedTwice : List JtiCall := [.denylist "a" 100, .denylist "a" 50]

end Sample

theorem killedInFull_singleUse :
    JtiCache.new.accepted Sample.killedInFull = [("a", 100)] ∧
      JtiCache.new.SingleUse Sample.killedInFull :=
  ⟨by decide, JtiCache.singleUse_of_outlasting (by decide)⟩

theorem killedBriefly_not_singleUse :
    ¬ ∀ (fresh : JtiCache) (calls : List JtiCall),
      (JtiCache.times calls).Pairwise (· ≤ ·) → fresh.SingleUse calls := by
  intro always
  obtain ⟨error, refused⟩ := always .new Sample.killedBriefly (by decide) Sample.killedBriefly
    [] rfl "a" 100
    (by decide) 100 60 (by decide) (by decide)
  have again : ((JtiCache.new.run Sample.killedBriefly).checkAndMark "a" 100 60).1.isOk = true := by
    decide
  rw [refused] at again
  cases again

theorem killedTwice_not_killsHold :
    ¬ ∀ (fresh : JtiCache) (calls : List JtiCall),
      (JtiCache.times calls).Pairwise (· ≤ ·) → fresh.KillsHold calls := by
  intro always
  have holds := always .new Sample.killedTwice (by decide) Sample.killedTwice [] rfl "a" 100
    (by decide) 60 (by decide) (by decide)
  have lifted : (JtiCache.new.run Sample.killedTwice).isDenied "a" 60 = false := by
    decide
  rw [holds.1] at lifted
  cases lifted

end Qubox.Signaling
