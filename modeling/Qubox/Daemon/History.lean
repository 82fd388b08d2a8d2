import Qubox.Library.Timeline
import Qubox.Update.Checker

/-!
# Session and update history

The state database keeps the sessions that have ended and the updates that were
applied, each under its time in milliseconds or seconds, and drops the oldest
beyond a bound. Two records with one time share a place, so the second replaces
the first.
-/

namespace Qubox.Daemon

open Update (UpdateRecord)

structure SessionRecord where
  startedAt : UInt64
  endedAt : UInt64
  hostId : String
  clientId : String
  bytesSent : UInt64
  bytesReceived : UInt64

def maxSessionRecords : Nat := 1000
def maxUpdateRecords : Nat := 100

def SessionRecord.time (r : SessionRecord) : Nat := r.endedAt.toNat

/-- The key of the record in the table. -/
def updateTime (r : UpdateRecord) : Nat := r.appliedAt.toNat

structure StateDb where
  updateHistory : Timeline Nat UpdateRecord
  sessionHistory : Timeline Nat SessionRecord

namespace StateDb

def empty : StateDb := ⟨.empty, .empty⟩

variable (db : StateDb)

def recordUpdate (r : UpdateRecord) : StateDb :=
  { db with updateHistory := db.updateHistory.record maxUpdateRecords updateTime r }

def listUpdates : List UpdateRecord := db.updateHistory.list

def recordSession (r : SessionRecord) : StateDb :=
  { db with sessionHistory := db.sessionHistory.record maxSessionRecords SessionRecord.time r }

def listSessions : List SessionRecord := db.sessionHistory.list

end StateDb

/-- A record that is written; a transaction that fails writes nothing. -/
inductive Write where
  | update (r : UpdateRecord)
  | session (r : SessionRecord)

namespace Write

def apply (db : StateDb) : Write → StateDb
  | .update r => db.recordUpdate r
  | .session r => db.recordSession r

def update? : Write → Option UpdateRecord
  | .update r => some r
  | .session _ => none

def session? : Write → Option SessionRecord
  | .update _ => none
  | .session r => some r

end Write

/-- The database after these writes to a new one. -/
def written (writes : List Write) : StateDb := writes.foldl Write.apply .empty

/-! ## The tables do not affect each other -/

theorem updateHistory_foldl (writes : List Write) (db : StateDb) :
    (writes.foldl Write.apply db).updateHistory =
      (writes.filterMap Write.update?).foldl (Timeline.record maxUpdateRecords updateTime)
        db.updateHistory := by
  induction writes generalizing db with
  | nil => rfl
  | cons write writes ih =>
      rw [List.foldl_cons, ih]
      cases write with
      | update r =>
          have one : (Write.update r :: writes).filterMap Write.update? =
              r :: writes.filterMap Write.update? := rfl
          rw [one, List.foldl_cons, Write.apply, StateDb.recordUpdate]
      | session r =>
          have none : (Write.session r :: writes).filterMap Write.update? =
              writes.filterMap Write.update? := rfl
          rw [none, Write.apply, StateDb.recordSession]

theorem sessionHistory_foldl (writes : List Write) (db : StateDb) :
    (writes.foldl Write.apply db).sessionHistory =
      (writes.filterMap Write.session?).foldl
        (Timeline.record maxSessionRecords SessionRecord.time) db.sessionHistory := by
  induction writes generalizing db with
  | nil => rfl
  | cons write writes ih =>
      rw [List.foldl_cons, ih]
      cases write with
      | update r =>
          have none : (Write.update r :: writes).filterMap Write.session? =
              writes.filterMap Write.session? := rfl
          rw [none, Write.apply, StateDb.recordUpdate]
      | session r =>
          have one : (Write.session r :: writes).filterMap Write.session? =
              r :: writes.filterMap Write.session? := rfl
          rw [one, List.foldl_cons, Write.apply, StateDb.recordSession]

/-- A history keeps the newest records exactly if no time that two of them share is
among the newest. -/
theorem histories_keepNewest_iff (writes : List Write) :
    (Timeline.KeepsNewest maxSessionRecords SessionRecord.time
        (writes.filterMap Write.session?) (written writes).listSessions ↔
      Timeline.SharedTimesPass maxSessionRecords SessionRecord.time
        (writes.filterMap Write.session?)) ∧
    (Timeline.KeepsNewest maxUpdateRecords updateTime
        (writes.filterMap Write.update?) (written writes).listUpdates ↔
      Timeline.SharedTimesPass maxUpdateRecords updateTime
        (writes.filterMap Write.update?)) := by
  rw [StateDb.listSessions, StateDb.listUpdates, written, sessionHistory_foldl,
    updateHistory_foldl]
  exact ⟨(Timeline.represents_foldl Timeline.represents_empty _).keepsNewest_iff,
    (Timeline.represents_foldl Timeline.represents_empty _).keepsNewest_iff⟩

namespace Sample

def sessionWith (clientId : String) : SessionRecord :=
  ⟨1700000000, 1700000600, "desk", clientId, 1, 1⟩

/-- Two sessions that end in the same second. -/
def together : List Write := [.session (sessionWith "phone"), .session (sessionWith "laptop")]

/-- Of two sessions with one end only the second is listed. -/
theorem together_not_keepsNewest :
    ¬ Timeline.KeepsNewest maxSessionRecords SessionRecord.time
      (together.filterMap Write.session?) (written together).listSessions := by
  intro keeps
  have one : (written together).listSessions.length = 1 := by decide
  have count := keeps.count
  rw [one] at count
  revert count
  decide

end Sample

end Qubox.Daemon
