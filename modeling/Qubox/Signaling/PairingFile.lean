import Qubox.Library.Protocol
import Qubox.Signaling.Call

/-!
# The pairing file

`add_pairing` and `remove_pairing` update the store under its lock and write the
snapshot they took there when the lock is released. Writes of different calls
come in any order, so a snapshot may be written after a newer one and then the
file lacks an update whose call has returned.

`Current` says of a write that the newest snapshot is not on file yet: it is the
one being written, or a call that still has to write holds it. Under it the file
catches up with the memory whenever all calls have returned.
-/

namespace Qubox.Signaling

open Interaction

namespace PairingStore

/-- A call on the store. -/
inductive Call where
  | addPairing (grant : PairingGrant)
  | removePairing (hostPeerId clientPeerId : Uuid)
  deriving DecidableEq

def Call.body : Call → Program signature Failure Unit
  | .addPairing grant => Signaling.addPairing grant
  | .removePairing h c => (Signaling.removePairing h c).settle id

@[reducible] def system : System signature Server Failure Call Env where
  exec := Server.exec
  body := Call.body
  change env s := { s with env }

abbrev StorePool := Pool signature Server Failure Call

abbrev StoreMove := Move Call Env

/-- `PairingStore::from_path`: the memory is what the file holds. -/
def fromPath (pairings : List PairingGrant) (env : Env) : StorePool :=
  ⟨⟨.fresh pairings (some pairings), Redis.empty, env⟩, []⟩

/-- All calls have returned `Ok`. -/
def Acknowledged (P : StorePool) : Prop := ∀ t ∈ P.threads, t.rest.outcome? = some (.ok ())

/-- No acknowledged update is missing from the file. -/
def UpToDate (P : StorePool) : Prop :=
  Acknowledged P → P.shared.state.pairingFile = some P.shared.state.pairings

/-- The snapshot a call has taken and writes next. -/
def writes? (t : Thread signature Failure Call) : Option (List PairingGrant) :=
  match t.next? with
  | some (.persist snapshot) => some snapshot
  | _ => none

/-- A snapshot is written only if it is the memory, or while another call still
has the memory to write. -/
def Current (P : StorePool) : StoreMove → Prop
  | .step index =>
      ∀ snapshot ∈ P.threads[index]?.bind writes?, snapshot = P.shared.state.pairings ∨
        ∃ t ∈ P.threads.eraseIdx index, writes? t = some P.shared.state.pairings
  | _ => True

instance (P : StorePool) : DecidablePred (Current P)
  | .step _ => inferInstanceAs (Decidable (∀ _ ∈ _, _))
  | .call _ | .disturb _ => isTrue trivial

/-! ## The phases of a call -/

inductive Phase where
  | start
  | writing (snapshot : List PairingGrant)
  | lost
  | finished

/-- A call updates the memory and then writes what it got. -/
inductive Phase.Allows : Phase → Action → Prop
  | addPairing {grant : PairingGrant} : Allows .start (.addPairing grant)
  | removePairing {h c : Uuid} : Allows .start (.removePairing h c)
  | persist {snapshot : List PairingGrant} : Allows (.writing snapshot) (.persist snapshot)

def Phase.after : Phase → (a : Action) → a.Answer → Phase
  | .start, .addPairing _, snapshot => .writing snapshot
  | .start, .removePairing _ _, (snapshot, true) => .writing snapshot
  | .start, .removePairing _ _, (_, false) => .finished
  | .writing _, .persist _, .ok () => .finished
  | .writing _, .persist _, .error _ => .lost
  | phase, _, _ => phase

/-- Answers are not restricted; a removal that finds nothing writes nothing. -/
def protocol : Protocol signature Phase where
  allows := Phase.Allows
  expects _ _ _ := True
  after := Phase.after

/-- The call follows the protocol from this phase on and returns only at its end. -/
def Follows (phase : Phase) (t : Thread signature Failure Call) : Prop :=
  t.rest.Conforms protocol (fun later _ => later = .finished) phase

theorem body_follows (call : Call) : Follows .start ⟨call, call.body⟩ := by
  cases call with
  | addPairing grant =>
      refine ⟨.addPairing, fun snapshot _ => ⟨.persist, fun written _ => ?_⟩⟩
      cases written with
      | ok u => rfl
      | error e => trivial
  | removePairing h c =>
      refine ⟨.removePairing, fun answer _ => ?_⟩
      obtain ⟨snapshot, removed⟩ := answer
      cases removed with
      | false => rfl
      | true =>
          refine ⟨.persist, fun written _ => ?_⟩
          cases written with
          | ok u => rfl
          | error e => trivial

variable {t : Thread signature Failure Call} {P : StorePool}

theorem Follows.writes {snapshot : List PairingGrant} (h : Follows (.writing snapshot) t) :
    writes? t = some snapshot ∨ ∃ e, t.rest.outcome? = some (.error e) := by
  obtain ⟨call, rest⟩ := t
  cases rest with
  | done u => cases h
  | fail e => exact .inr ⟨e, rfl⟩
  | act a k =>
      obtain ⟨allowed, -⟩ := h
      cases allowed
      exact .inl rfl

theorem Follows.lost (h : Follows .lost t) : ∃ e, t.rest.outcome? = some (.error e) := by
  obtain ⟨call, rest⟩ := t
  cases rest with
  | done u => cases h
  | fail e => exact ⟨e, rfl⟩
  | act a k =>
      obtain ⟨allowed, -⟩ := h
      cases allowed

/-! ## Catching up -/

/-- The file is the memory, or a call will make it so, or a call has failed. -/
def CatchesUp (P : StorePool) : Prop :=
  P.shared.state.pairingFile = some P.shared.state.pairings ∨
    ∃ t ∈ P.threads, writes? t = some P.shared.state.pairings ∨
      ∃ e, t.rest.outcome? = some (.error e)

structure Kept (P : StorePool) : Prop where
  onDisk : P.shared.state.pairingFile.isSome
  follows : ∀ t ∈ P.threads, ∃ phase, Follows phase t
  catchesUp : CatchesUp P

theorem Kept.upToDate (h : Kept P) : UpToDate P := by
  intro acknowledged
  rcases h.catchesUp with same | ⟨t, member, writing | ⟨e, failed⟩⟩
  · exact same
  · obtain ⟨call, rest⟩ := t
    obtain rfl := Program.eq_done_of_outcome (acknowledged _ member)
    cases writing
  · cases failed.symm.trans (acknowledged t member)

/-- A removal that removes nothing leaves the memory as it is. -/
theorem withoutGrant_eq_of_length {pairings : List PairingGrant} {grant : PairingGrant}
    (same : (Server.withoutGrant pairings grant).length = pairings.length) :
    Server.withoutGrant pairings grant = pairings :=
  List.filter_eq_self.mpr (List.length_filter_eq_length_iff.mp same)

section Step

variable {i : Nat} {call : Call} {a : Action} {k : a.Answer → Program signature Failure Unit}

/-- A call that writes or has failed is not one that updates the memory next. -/
theorem mem_eraseIdx_of_start (found : P.threads[i]? = some ⟨call, .act a k⟩)
    (update : Phase.Allows .start a) (member : t ∈ P.threads)
    (ahead : writes? t = some P.shared.state.pairings ∨ ∃ e, t.rest.outcome? = some (.error e)) :
    t ∈ P.threads.eraseIdx i := by
  obtain ⟨j, at_j⟩ := List.mem_iff_getElem?.mp member
  refine List.mem_eraseIdx_iff_getElem?.mpr ⟨j, ?_, at_j⟩
  rintro rfl
  obtain rfl : ⟨call, .act a k⟩ = t := Option.some.inj (found.symm.trans at_j)
  rcases ahead with writing | ⟨e, failed⟩
  · cases update <;> cases writing
  · cases failed

/-- The acting call is in this phase after the step. -/
theorem Kept.acted {phase : Phase} (kept : Kept P)
    (follows : Follows phase ⟨call, .act a k⟩) :
    ∀ t ∈ P.threads.set i ⟨call, k (Server.exec a P.shared).1⟩, ∃ phase, Follows phase t := by
  intro t member
  rcases List.mem_or_eq_of_mem_set member with old | rfl
  · exact kept.follows t old
  · exact ⟨_, follows.2 _ trivial⟩

/-- A successful write puts the snapshot on file; a failed one ends the call. -/
theorem exec_persist {s : Server} (onDisk : s.state.pairingFile.isSome)
    (snapshot : List PairingGrant) :
    (∃ e, Server.exec (.persist snapshot) s = (.error e, s)) ∨
      Server.exec (.persist snapshot) s =
        (.ok (), { s with state := { s.state with pairingFile := some snapshot } }) := by
  obtain ⟨file, onDisk⟩ := Option.isSome_iff_exists.mp onDisk
  simp only [Server.exec, Server.execPersist, onDisk]
  cases s.env.persist with
  | ok u => exact .inr rfl
  | error e => exact .inl ⟨e, rfl⟩

theorem Kept.step (kept : Kept P) (current : Current P (.step i))
    (found : P.threads[i]? = some ⟨call, .act a k⟩) :
    Kept {
      shared := (Server.exec a P.shared).2
      threads := P.threads.set i ⟨call, k (Server.exec a P.shared).1⟩ } := by
  obtain ⟨phase, follows⟩ := kept.follows _ (List.mem_of_getElem? found)
  have inside : ⟨call, k (Server.exec a P.shared).1⟩ ∈
      P.threads.set i ⟨call, k (Server.exec a P.shared).1⟩ :=
    List.mem_set (List.getElem?_eq_some_iff.mp found).1 _
  have all := kept.acted (i := i) follows
  have next : Follows (phase.after a (Server.exec a P.shared).1)
    ⟨call, k (Server.exec a P.shared).1⟩ := follows.2 _ trivial
  have allowed : phase.Allows a := follows.1
  cases allowed with
  | addPairing => exact ⟨kept.onDisk, all, .inr ⟨_, inside, next.writes⟩⟩
  | @removePairing h c =>
      refine ⟨kept.onDisk, all, ?_⟩
      by_cases unchanged : (Server.withoutGrant P.shared.state.pairings ⟨h, c⟩).length =
          P.shared.state.pairings.length
      · -- nothing was removed, so the memory and the calls ahead are the same
        have same : (Server.exec (.removePairing h c) P.shared).2.state.pairings =
            P.shared.state.pairings := withoutGrant_eq_of_length unchanged
        rcases kept.catchesUp with file | ⟨t, member, ahead⟩
        · exact .inl (file.trans (congrArg some same.symm))
        · refine .inr ⟨t, System.mem_set_of_mem_eraseIdx ?_, ?_⟩
          · exact mem_eraseIdx_of_start found .removePairing member ahead
          · rwa [same]
      · refine .inr ⟨_, inside, ?_⟩
        have removed : decide ((Server.withoutGrant P.shared.state.pairings ⟨h, c⟩).length ≠
            P.shared.state.pairings.length) = true := decide_eq_true unchanged
        simp only [Server.exec, removed] at next ⊢
        exact next.writes
  | @persist snapshot =>
      rcases exec_persist kept.onDisk snapshot with ⟨e, failed⟩ | written
      · simp only [failed] at next inside all ⊢
        exact ⟨kept.onDisk, all, .inr ⟨_, inside, .inr next.lost⟩⟩
      · simp only [written] at all ⊢
        refine ⟨rfl, all, ?_⟩
        have writing : snapshot ∈ P.threads[i]?.bind writes? := by
          rw [found]
          rfl
        rcases current snapshot writing with same | ⟨t, other, ahead⟩
        · exact .inl (congrArg some same)
        · exact .inr ⟨t, System.mem_set_of_mem_eraseIdx other, .inl ahead⟩

end Step

theorem Kept.move {m : StoreMove} (current : Current P m) (kept : Kept P) :
    Kept (system.move P m) := by
  cases m with
  | call c =>
      refine ⟨kept.onDisk, fun t member => ?_, ?_⟩
      · rcases List.mem_append.mp member with old | new
        · exact kept.follows t old
        · obtain rfl := List.mem_singleton.mp new
          exact ⟨.start, body_follows c⟩
      · rcases kept.catchesUp with file | ⟨t, member, ahead⟩
        · exact .inl file
        · exact .inr ⟨t, List.mem_append_left _ member, ahead⟩
  | disturb env => exact ⟨kept.onDisk, kept.follows, kept.catchesUp⟩
  | step i =>
      rcases system.advance_cases P i with same | ⟨c, a, k, found, moved⟩
      · change Kept (system.advance P i)
        rw [same]
        exact kept
      · change Kept (system.advance P i)
        rw [moved]
        exact kept.step current found

/-- Where no snapshot is written behind a newer one, the file holds every
acknowledged update once no call is in progress. -/
theorem upToDate_of_current (pairings : List PairingGrant) (env : Env) {moves : List StoreMove}
    (current : system.Along Current (fromPath pairings env) moves) :
    UpToDate (system.schedule (fromPath pairings env) moves) := by
  have start : Kept (fromPath pairings env) :=
    ⟨rfl, fun t member => absurd member List.not_mem_nil, .inl rfl⟩
  exact (system.schedule_invariant (fun _ _ ok kept => Kept.move ok kept) start current).upToDate

/-! ## Two calls -/

def twoAdds : List StoreMove :=
  [.call (.addPairing ⟨1, 2⟩), .call (.addPairing ⟨1, 3⟩), .step 0, .step 1]

/-- Written in the order they were taken, both grants are on file. -/
theorem inOrder_upToDate :
    system.Along Current (fromPath [] Sample.env) (twoAdds ++ [.step 0, .step 1]) ∧
    Acknowledged (system.schedule (fromPath [] Sample.env) (twoAdds ++ [.step 0, .step 1])) ∧
    UpToDate (system.schedule (fromPath [] Sample.env) (twoAdds ++ [.step 0, .step 1])) :=
  ⟨by decide, by unfold Acknowledged; decide,
    upToDate_of_current [] Sample.env (by decide)⟩

/-- Written the other way round, the second grant is lost from the file. -/
theorem outOfOrder_not_upToDate :
    ¬ UpToDate (system.schedule (fromPath [] Sample.env) (twoAdds ++ [.step 1, .step 0])) := by
  unfold UpToDate Acknowledged
  decide

end PairingStore

end Qubox.Signaling
