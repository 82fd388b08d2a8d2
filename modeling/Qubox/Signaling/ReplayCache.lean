import Qubox.Signaling.SingleUse

/-!
# The containers of the single-use cache

`JtiCache` keeps the accepted identifiers twice, in `seen` and in `lru`, and never
together with a denial. Every call keeps the containers in step, and an accepted
identifier leaves `seen` only by a kill, or once its time is over.
-/

namespace Qubox.Signaling

/-- The time for which a call drops the entries that have expired. -/
def JtiCall.prunesAt : JtiCall → Option Nat
  | .checkAndMark _ _ now => some now
  | .pruneExpired now => some now
  | _ => none

namespace JtiCache

/-- A cache of the given capacity that has seen nothing. -/
def empty (capacity : Nat) : JtiCache where
  seen := ∅
  denied := ∅
  maxEntries := capacity
  lru := []

/-- The containers are in step: no identifier is both accepted and denied, `lru`
lists the accepted ones, each once, and there are no more of them than fit. -/
structure InStep (cache : JtiCache) : Prop where
  apart : ∀ jti ∈ cache.seen, jti ∉ cache.denied
  listed : cache.lru.Perm cache.seen.keys
  fits : cache.seen.keys.length ≤ cache.maxEntries

/-- A call takes an accepted identifier out of `seen` only if it kills the
identifier, or drops what has expired at a time at or past its expiry. -/
def RemovesDuly (cache : JtiCache) (call : JtiCall) : Prop :=
  ∀ jti exp, cache.seen.lookup jti = some exp → (cache.step call).seen.lookup jti ≠ some exp →
    (∃ exp', call = .denylist jti exp') ∨ ∃ now, call.prunesAt = some now ∧ exp ≤ now

theorem inStep_empty (capacity : Nat) : (empty capacity).InStep where
  apart _ member := absurd member (AList.notMem_empty _)
  listed := List.Perm.refl _
  fits := Nat.zero_le _

variable {cache : JtiCache} {jti other : String} {exp exp' now : Nat}

/-! ## Each change to the containers -/

theorem mem_retain {bucket : AList (fun _ : String => Nat)} {keep : String → Nat → Bool}
    (member : jti ∈ bucket.retain keep) : jti ∈ bucket := by
  obtain ⟨exp, found⟩ := Option.isSome_iff_exists.mp (AList.lookup_isSome.mpr member)
  exact AList.lookup_isSome.mp
    (Option.isSome_iff_exists.mpr ⟨exp, (AList.lookup_retain_eq_some.mp found).1⟩)

theorem InStep.pruneExpired (inStep : cache.InStep) (now : Nat) :
    (cache.pruneExpired now).InStep := by
  have kept : ∀ jti ∈ (cache.pruneExpired now).seen, jti ∈ cache.seen := fun jti => mem_retain
  refine ⟨?_, ?_, ?_⟩
  · intro jti member denied
    exact inStep.apart jti (kept jti member) (mem_retain denied)
  · apply (List.perm_ext_iff_of_nodup ?_ (AList.keys_nodup _)).mpr
    · intro jti
      rw [JtiCache.pruneExpired, List.mem_filter, inStep.listed.mem_iff, AList.lookup_isSome]
      exact ⟨And.right, fun member => ⟨kept jti member, member⟩⟩
    · exact ((inStep.listed.nodup_iff).mpr (AList.keys_nodup _)).filter _
  · apply Nat.le_trans _ inStep.fits
    change ((cache.seen.entries.filter _).map Sigma.fst).length ≤
      (cache.seen.entries.map Sigma.fst).length
    rw [List.length_map, List.length_map]
    exact List.length_filter_le _ _

/-- Dropping a denial that has expired. -/
theorem InStep.undeny (inStep : cache.InStep) (jti : String) :
    InStep { cache with denied := cache.denied.erase jti } where
  apart other member denied := inStep.apart other member (AList.mem_erase.mp denied).2
  listed := inStep.listed
  fits := inStep.fits

theorem InStep.forgetSeen (inStep : cache.InStep) (jti : String) :
    (cache.forgetSeen jti).InStep := by
  have keys : (cache.forgetSeen jti).seen.keys = cache.seen.keys.erase jti := AList.keys_erase _ _
  refine ⟨?_, ?_, ?_⟩
  · intro other member
    exact inStep.apart other (AList.mem_erase.mp member).2
  · have other : cache.seen.keys.filter (· != jti) = cache.seen.keys.filter (· ≠ jti) :=
      List.filter_congr fun other _ => by rw [bne_eq, decide_not, beq_eq_decide]
    rw [keys, (AList.keys_nodup _).erase_eq_filter, other]
    exact inStep.listed.filter _
  · rw [keys]
    exact Nat.le_trans List.length_erase_le inStep.fits

theorem InStep.mark (inStep : cache.InStep) (unseen : jti ∉ cache.seen)
    (undenied : jti ∉ cache.denied) (exp : Nat) : (cache.mark jti exp).2.InStep := by
  rw [JtiCache.mark]
  split
  case isTrue => exact inStep
  case isFalse room =>
    have keys : (cache.seen.insert jti exp).keys = jti :: cache.seen.keys := by
      rw [AList.keys_insert, List.erase_of_not_mem unseen]
    refine ⟨?_, ?_, ?_⟩
    · intro other member
      obtain rfl | member := (AList.mem_insert _).mp member
      · exact undenied
      · exact inStep.apart other member
    · change (cache.lru ++ [jti]).Perm (cache.seen.insert jti exp).keys
      rw [keys]
      exact (List.perm_append_singleton jti cache.lru).trans (inStep.listed.cons jti)
    · change (cache.seen.insert jti exp).keys.length ≤ cache.maxEntries
      have counted : cache.seen.keys.length = cache.seen.entries.length := List.length_map _
      rw [keys, List.length_cons]
      omega

/-! ## Each call -/

theorem InStep.allowed (inStep : cache.InStep) (jti : String) (now : Nat) :
    (cache.allowed jti now).InStep :=
  (inStep.pruneExpired now).undeny jti

/-- What is left in `seen` at some time has not expired. -/
theorem not_mem_of_unseen (unseen : (cache.allowed jti now).isSeen jti now = false) :
    jti ∉ (cache.allowed jti now).seen := by
  intro member
  obtain ⟨exp, found⟩ := Option.isSome_iff_exists.mp (AList.lookup_isSome.mpr member)
  have live := (AList.lookup_retain_eq_some.mp found).2
  rw [isSeen, found] at unseen
  exact absurd (unseen.symm.trans live) Bool.false_ne_true

theorem InStep.checkAndMark (inStep : cache.InStep) (jti : String) (exp now : Nat) :
    (cache.checkAndMark jti exp now).2.InStep := by
  have allowed := inStep.allowed jti now
  have undenied : jti ∉ (cache.allowed jti now).denied := fun member =>
    (AList.mem_erase.mp member).1 rfl
  obtain ⟨error, checked, -⟩ | ⟨checked, -⟩ |
    ⟨-, checked | ⟨unseen, start, rfl | rfl, checked⟩⟩ := cache.checkAndMark_cases jti exp now
  · rwa [checked]
  · rw [checked]
    exact inStep.pruneExpired now
  · rwa [checked]
  · rw [checked]
    exact allowed.mark (not_mem_of_unseen unseen) undenied exp
  · rw [checked]
    apply (allowed.forgetSeen jti).mark _ undenied exp
    intro member
    exact not_mem_of_unseen unseen (AList.mem_erase.mp member).2

theorem InStep.denylist (inStep : cache.InStep) (jti : String) (exp : Nat) :
    (cache.denylist jti exp).2.InStep := by
  rw [JtiCache.denylist]
  split
  case h_1 => exact inStep
  case h_2 =>
    have forgotten := inStep.forgetSeen jti
    refine ⟨?_, forgotten.listed, forgotten.fits⟩
    intro other member denied
    obtain ⟨differ, -⟩ := AList.mem_erase.mp member
    obtain same | denied := (AList.mem_insert _).mp denied
    · exact differ same
    · exact forgotten.apart other member denied

theorem InStep.step (inStep : cache.InStep) (call : JtiCall) : (cache.step call).InStep := by
  cases call with
  | checkAndMark jti exp now => exact inStep.checkAndMark jti exp now
  | denylist jti exp => exact inStep.denylist jti exp
  | isDenied jti now | isSeen jti now => exact inStep
  | pruneExpired now => exact inStep.pruneExpired now

theorem mark_maxEntries (cache : JtiCache) (jti : String) (exp : Nat) :
    (cache.mark jti exp).2.maxEntries = cache.maxEntries := by
  rw [mark]
  split <;> rfl

theorem step_maxEntries (cache : JtiCache) (call : JtiCall) :
    (cache.step call).maxEntries = cache.maxEntries := by
  cases call with
  | checkAndMark jti exp now =>
      obtain ⟨error, checked, -⟩ | ⟨checked, -⟩ |
        ⟨-, checked | ⟨-, start, rfl | rfl, checked⟩⟩ := cache.checkAndMark_cases jti exp now
      · rw [step, checked]
      · rw [step, checked]
        rfl
      · rw [step, checked]
        rfl
      · rw [step, checked, mark_maxEntries]
        rfl
      · rw [step, checked, mark_maxEntries]
        rfl
  | denylist jti exp =>
      rw [step, denylist]
      split <;> rfl
  | isDenied jti now | isSeen jti now | pruneExpired now => rfl

/-! ## What takes an identifier out -/

theorem pruneExpired_lookup (found : cache.seen.lookup jti = some exp) (early : now < exp) :
    (cache.pruneExpired now).seen.lookup jti = some exp :=
  AList.lookup_retain_eq_some.mpr ⟨found, decide_eq_true early⟩

/-- A check keeps what has not expired: the identifier that it records is not one
that is still remembered. -/
theorem checkAndMark_lookup (found : cache.seen.lookup jti = some exp) (early : now < exp) :
    (cache.checkAndMark other exp' now).2.seen.lookup jti = some exp := by
  have allowed : (cache.allowed other now).seen.lookup jti = some exp :=
    pruneExpired_lookup found early
  have differ : (cache.allowed other now).isSeen other now = false → jti ≠ other := by
    rintro unseen rfl
    apply not_mem_of_unseen unseen
    exact AList.lookup_isSome.mp (Option.isSome_iff_exists.mpr ⟨exp, allowed⟩)
  have marked : ∀ start : JtiCache, jti ≠ other → start.seen.lookup jti = some exp →
      (start.mark other exp').2.seen.lookup jti = some exp := by
    intro start differ kept
    obtain same | inserted := start.mark_seen other exp'
    · rwa [same]
    · rw [inserted, AList.lookup_insert_ne differ, kept]
  obtain ⟨error, checked, -⟩ | ⟨checked, -⟩ |
    ⟨-, checked | ⟨unseen, start, rfl | rfl, checked⟩⟩ := cache.checkAndMark_cases other exp' now
  · rwa [checked]
  · rw [checked]
    exact pruneExpired_lookup found early
  · rwa [checked]
  · rw [checked]
    exact marked _ (differ unseen) allowed
  · rw [checked]
    apply marked _ (differ unseen)
    rwa [forgetSeen, AList.lookup_erase_ne (differ unseen)]

theorem step_removesDuly (cache : JtiCache) (call : JtiCall) : cache.RemovesDuly call := by
  intro jti exp found gone
  cases call with
  | checkAndMark other exp' now =>
      refine .inr ⟨now, rfl, ?_⟩
      by_contra early
      exact gone (checkAndMark_lookup found (Nat.lt_of_not_le early))
  | denylist other exp' =>
      obtain ⟨-, rfl, -⟩ | ⟨-, kept⟩ := cache.denylist_lookup other exp' jti
      · exact .inl ⟨exp', rfl⟩
      · exact absurd (kept.trans found) gone
  | isDenied other now | isSeen other now => exact absurd found gone
  | pruneExpired now =>
      refine .inr ⟨now, rfl, ?_⟩
      by_contra early
      exact gone (pruneExpired_lookup found (Nat.lt_of_not_le early))

/-! ## Every reachable cache -/

theorem run_inStep (inStep : cache.InStep) (calls : List JtiCall) :
    (cache.run calls).InStep ∧ (cache.run calls).maxEntries = cache.maxEntries := by
  induction calls generalizing cache with
  | nil => exact ⟨inStep, rfl⟩
  | cons call calls ih =>
      obtain ⟨later, same⟩ := ih (inStep.step call)
      exact ⟨later, same.trans (step_maxEntries cache call)⟩

/-- The containers of a cache are in step after any calls, and no call takes an
accepted identifier out before its time but a kill. -/
theorem containers_inStep (capacity : Nat) (calls : List JtiCall) :
    ((empty capacity).run calls).InStep ∧
      ((empty capacity).run calls).seen.keys.length ≤ capacity ∧
      ∀ call, ((empty capacity).run calls).RemovesDuly call := by
  obtain ⟨inStep, same⟩ := run_inStep (inStep_empty capacity) calls
  refine ⟨inStep, ?_, step_removesDuly _⟩
  have fits := inStep.fits
  rwa [same] at fits

end JtiCache

end Qubox.Signaling
