import Qubox.Signaling.Call

/-!
# A pairing file that cannot be written

`add_pairing` and `remove_pairing` change the store in memory and then write it,
and an error of the write leaves the change in place. A failed call is without
effect on `is_paired` only where it had nothing to change. `revoke_pairing` drops
the sessions of the pair after the write, so a failed write keeps them running
without a grant.
-/

namespace Qubox.Signaling

open Interaction

/-- `persist` succeeds: the store has no file, or the file can be written. -/
def Server.Persists (s : Server) : Prop := s.state.pairingFile = none ∨ s.env.persist = .ok ()

/-- Some session of the pair is active. -/
def Server.HasSession (s : Server) (h c : Uuid) : Prop :=
  ∃ sessionId session, s.state.sessions.lookup sessionId = some session ∧ session.IsOf h c

section Writing

variable {s s' : Server} {error : Failure}

theorem exec_persist_ok (persists : s.Persists) (snapshot : List PairingGrant) :
    (Server.exec (.persist snapshot) s).1 = .ok () := by
  rw [Server.exec, Server.execPersist]
  rcases persists with memory | written
  · rw [memory]
  · cases s.state.pairingFile with
    | none => rfl
    | some file => rw [written]

theorem exec_persist_error (lost : ¬ s.Persists) (snapshot : List PairingGrant) :
    ∃ e, Server.exec (.persist snapshot) s = (.error e, s) := by
  obtain ⟨onDisk, unwritten⟩ := not_or.mp lost
  rw [Server.exec, Server.execPersist]
  cases file : s.state.pairingFile with
  | none => exact absurd file onDisk
  | some file =>
      cases write : s.env.persist with
      | error e => exact ⟨e, rfl⟩
      | ok => exact absurd write unwritten

/-- The write at the end of both operations, after the store has been changed. -/
theorem run_write_error (snapshot : List PairingGrant)
    (failed : machine.run (do liftExcept .persistFailed (← perform (.persist snapshot)) : Op Unit)
      s = (.error error, s')) : ¬ s.Persists ∧ s' = s := by
  rw [run_perform_bind] at failed
  by_cases persists : s.Persists
  · rw [exec_persist_ok persists snapshot] at failed
    cases congrArg Prod.fst failed
  · refine ⟨persists, ?_⟩
    obtain ⟨e, refused⟩ := exec_persist_error persists snapshot
    rw [refused] at failed
    exact (congrArg Prod.snd failed).symm

theorem run_write_lost (lost : ¬ s.Persists) (snapshot : List PairingGrant) :
    ∃ e, machine.run (do liftExcept .persistFailed (← perform (.persist snapshot)) : Op Unit) s =
      (.error (.persistFailed e), s) := by
  obtain ⟨e, refused⟩ := exec_persist_error lost snapshot
  refine ⟨e, ?_⟩
  rw [run_perform_bind, refused]
  rfl

end Writing

/-! ## The store -/

section Store

variable {s s' : Server} {error : Failure} {grant : PairingGrant} {h c : Uuid}

theorem addPairing_error (failed : machine.run (addPairing grant) s = (.error error, s')) :
    ¬ s.Persists ∧ s' = s.setPairings (Server.withGrant s.state.pairings grant) :=
  run_write_error (s := s.setPairings (Server.withGrant s.state.pairings grant)) _ failed

theorem addPairing_lost (lost : ¬ s.Persists) (grant : PairingGrant) :
    ∃ e, machine.run (addPairing grant) s = (.error (.persistFailed e),
      s.setPairings (Server.withGrant s.state.pairings grant)) :=
  run_write_lost (s := s.setPairings (Server.withGrant s.state.pairings grant)) lost _

/-- A grant is removed exactly when it was there, which is what the store tests
by its length. -/
theorem length_withoutGrant (pairings : List PairingGrant) (grant : PairingGrant) :
    (Server.withoutGrant pairings grant).length ≠ pairings.length ↔ grant ∈ pairings := by
  rw [Server.withoutGrant, ne_eq, List.length_filter_eq_length_iff]
  constructor
  · intro shorter
    by_contra absent
    exact shorter fun other member => by simpa using ne_of_mem_of_not_mem member absent
  · intro member all
    simpa using all grant member

theorem run_removePairing (s : Server) (h c : Uuid) :
    machine.run (removePairing h c) s =
      if (⟨h, c⟩ : PairingGrant) ∈ s.state.pairings then
        machine.run ((do
          liftExcept .persistFailed
            (← perform (.persist (Server.withoutGrant s.state.pairings ⟨h, c⟩))) : Op Unit) >>=
          fun _ => return true) (s.setPairings (Server.withoutGrant s.state.pairings ⟨h, c⟩))
      else (.ok false, s.setPairings (Server.withoutGrant s.state.pairings ⟨h, c⟩)) := by
  rw [removePairing, run_perform_bind]
  simp only [Server.exec, decide_eq_true_eq, length_withoutGrant]
  split <;> rfl

theorem removePairing_error (failed : machine.run (removePairing h c) s = (.error error, s')) :
    ¬ s.Persists ∧ (⟨h, c⟩ : PairingGrant) ∈ s.state.pairings ∧
      s' = s.setPairings (Server.withoutGrant s.state.pairings ⟨h, c⟩) := by
  rw [run_removePairing] at failed
  split at failed
  case isFalse => cases congrArg Prod.fst failed
  case isTrue member =>
    obtain written | ⟨u, s₁, -, returned⟩ := machine.run_bind_error failed
    · obtain ⟨lost, same⟩ := run_write_error _ written
      exact ⟨lost, member, same⟩
    · cases congrArg Prod.fst returned

theorem removePairing_lost (lost : ¬ s.Persists)
    (member : (⟨h, c⟩ : PairingGrant) ∈ s.state.pairings) :
    ∃ e, machine.run (removePairing h c) s = (.error (.persistFailed e),
      s.setPairings (Server.withoutGrant s.state.pairings ⟨h, c⟩)) := by
  obtain ⟨e, failed⟩ := run_write_lost
    (s := s.setPairings (Server.withoutGrant s.state.pairings ⟨h, c⟩)) lost
    (Server.withoutGrant s.state.pairings ⟨h, c⟩)
  refine ⟨e, ?_⟩
  rw [run_removePairing, if_pos member, machine.run_bind, failed]
  rfl

end Store

/-! ## `revoke_pairing` -/

section Revoking

variable {cfg : Config} {s s' : Server} {actor : PeerDescriptor} {h c : Uuid} {e : String}

theorem run_mayRevoke (actor : PeerDescriptor) (h : Uuid) (s : Server) :
    ∃ allowed, machine.run (mayRevoke actor h) s = (.ok allowed, s) := by
  unfold mayRevoke
  split
  · exact ⟨_, rfl⟩
  · exact ⟨_, rfl⟩

/-- What `revoke_pairing` does after the grant is out of the store cannot fail. -/
theorem run_dropSessions (cfg : Config) (h c : Uuid) (s : Server) :
    ∃ s', machine.run (do
      perform (.dropSessionsOf h c)
      ignore (sendTo cfg c (.pairingRevoked h c))
      ignore (sendTo cfg h (.pairingRevoked h c)) : Op Unit) s = (.ok (), s') := by
  rw [run_perform_bind, machine.run_bind, run_ignore, Machine.resume_ok, run_ignore]
  exact ⟨_, rfl⟩

/-- An error of the write is that of `remove_pairing`, and nothing follows it. -/
theorem removePairing_of_revokePairing
    (failed : machine.run (revokePairing cfg actor h c) s = (.error (.persistFailed e), s')) :
    machine.run (removePairing h c) s = (.error (.persistFailed e), s') := by
  obtain ⟨allowed, asked⟩ := run_mayRevoke actor h s
  rw [revokePairing, machine.run_bind, asked, Machine.resume_ok] at failed
  obtain denied | ⟨_, s₁, granted, rest⟩ := machine.run_bind_error failed
  · cases allowed <;> cases denied
  obtain ⟨-, rfl⟩ := run_require_ok granted
  obtain unwritten | ⟨removed, s₂, -, rest⟩ := machine.run_bind_error rest
  · exact unwritten
  obtain absent | ⟨_, s₃, -, rest⟩ := machine.run_bind_error rest
  · cases removed <;> cases absent
  obtain ⟨s₄, dropped⟩ := run_dropSessions cfg h c s₃
  rw [dropped] at rest
  cases rest

end Revoking

/-! ## Failing without effect -/

/-- The pair is still paired, or none of its sessions is left. -/
def Server.Consistent (s : Server) (h c : Uuid) : Prop :=
  s.state.isPaired h c = true ∨ ¬ s.HasSession h c

/-- A grant that cannot be stored is not in force, and a pair whose removal
cannot be stored stays paired or loses its sessions as well. -/
structure FailsCleanly (cfg : Config) (s : Server) (grant : PairingGrant) (h c : Uuid) :
    Prop where
  add : ∀ error s', machine.run (addPairing grant) s = (.error error, s') →
    ∀ h c, s'.state.isPaired h c = s.state.isPaired h c
  remove : ∀ e s', machine.run (removePairing h c) s = (.error (.persistFailed e), s') →
    s'.Consistent h c
  revoke : ∀ actor e s',
    machine.run (revokePairing cfg actor h c) s = (.error (.persistFailed e), s') →
      s'.Consistent h c

theorem isPaired_congr {state state' : SignalingState} {h c : Uuid}
    (same : (⟨h, c⟩ : PairingGrant) ∈ state.pairings ↔ ⟨h, c⟩ ∈ state'.pairings) :
    state.isPaired h c = state'.isPaired h c := by
  rw [Bool.eq_iff_iff, SignalingState.isPaired_iff, SignalingState.isPaired_iff]
  exact same

theorem withGrant_of_mem {pairings : List PairingGrant} {grant : PairingGrant}
    (member : grant ∈ pairings) : Server.withGrant pairings grant = pairings :=
  if_pos member

theorem mem_withGrant_self (pairings : List PairingGrant) (grant : PairingGrant) :
    grant ∈ Server.withGrant pairings grant := by
  unfold Server.withGrant
  split
  · assumption
  · exact List.mem_append_right _ (List.mem_singleton.mpr rfl)

theorem not_mem_withoutGrant (pairings : List PairingGrant) (grant : PairingGrant) :
    grant ∉ Server.withoutGrant pairings grant := by
  intro member
  simpa using (List.mem_filter.mp member).2

/-- A failed operation is clean exactly when it changes nothing that the rest of
the server goes by: the grant to add is there, the one to remove is not or
carries no session. Otherwise the file has to be writable. -/
theorem failsCleanly_iff (cfg : Config) (s : Server) (grant : PairingGrant) (h c : Uuid) :
    FailsCleanly cfg s grant h c ↔ s.Persists ∨ (grant ∈ s.state.pairings ∧
      ((⟨h, c⟩ : PairingGrant) ∉ s.state.pairings ∨ ¬ s.HasSession h c)) := by
  constructor
  · intro clean
    by_cases persists : s.Persists
    · exact .inl persists
    refine .inr ⟨?_, ?_⟩
    · by_contra absent
      obtain ⟨e, failed⟩ := addPairing_lost persists grant
      have unpaired : s.state.isPaired grant.hostPeerId grant.clientPeerId ≠ true :=
        fun paired => absent (SignalingState.isPaired_iff.mp paired)
      have same := clean.add _ _ failed grant.hostPeerId grant.clientPeerId
      apply unpaired
      rw [← same]
      exact SignalingState.isPaired_iff.mpr (mem_withGrant_self s.state.pairings grant)
    · by_cases member : (⟨h, c⟩ : PairingGrant) ∈ s.state.pairings
      · obtain ⟨e, failed⟩ := removePairing_lost persists member
        rcases clean.remove _ _ failed with paired | unused
        · exact absurd (SignalingState.isPaired_iff.mp paired) (not_mem_withoutGrant _ _)
        · exact .inr unused
      · exact .inl member
  · intro condition
    have remove : ∀ e s', machine.run (removePairing h c) s = (.error (.persistFailed e), s') →
        s'.Consistent h c := by
      intro e s' failed
      obtain ⟨lost, member, rfl⟩ := removePairing_error failed
      rcases condition with persists | ⟨-, absent | unused⟩
      · exact absurd persists lost
      · exact absurd member absent
      · exact .inr unused
    refine ⟨fun error s' failed h' c' => ?_, remove,
      fun actor e s' failed => remove e s' (removePairing_of_revokePairing failed)⟩
    obtain ⟨lost, rfl⟩ := addPairing_error failed
    rcases condition with persists | ⟨member, -⟩
    · exact absurd persists lost
    · refine isPaired_congr ?_
      show _ ∈ Server.withGrant s.state.pairings grant ↔ _
      rw [withGrant_of_mem member]

namespace Sample

/-- A session of the host 1 and the client 2. -/
def runningSession : ActiveSession where
  hostPeerId := 1
  clientPeerId := 2
  transport := .nativeQuic
  codec := .h264
  hostCredential := issueCredential config 7 5 5 1000 601000
  clientCredential := issueCredential config 7 5 5 1000 601000
  expiresUnixMillis := 601000
  permissions := {}

/-- Host and client are paired and in session, and the disk is full. -/
def fullDisk : Server :=
  { server [⟨1, 2⟩] with
    state := { (server [⟨1, 2⟩]).state with
      sessions := (∅ : AList (fun _ : Uuid => ActiveSession)).insert 7 runningSession
      pairingFile := some [⟨1, 2⟩] }
    env := { env with persist := .error "No space left on device (os error 28)" } }

end Sample

/-- The host revokes the pairing and is told that it could not be stored: the
pairing is gone and the session goes on. -/
theorem fullDisk_not_failsCleanly :
    ¬ FailsCleanly Sample.config Sample.fullDisk ⟨1, 2⟩ 1 2 := by
  intro clean
  have refused : (machine.run (revokePairing Sample.config Sample.host 1 2) Sample.fullDisk).1 =
      .error (.persistFailed "No space left on device (os error 28)") := by
    decide
  rcases clean.revoke Sample.host _ _ (Prod.ext refused rfl) with paired | unused
  · have unpaired : (machine.run (revokePairing Sample.config Sample.host 1 2)
        Sample.fullDisk).2.state.isPaired 1 2 = false := by
      decide
    cases paired.symm.trans unpaired
  · exact unused ⟨7, Sample.runningSession, by decide, by decide⟩

end Qubox.Signaling
