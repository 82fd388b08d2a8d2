import Qubox.FileSync.Acceptance

/-!
# What a receive does to the disk

A receive that returns, and during which nobody else touches the disk, has
written the body of its stream under the partial name and moved it to the
target, and has done nothing else.
-/

namespace Qubox.FileSync

open Interaction

section Alone

variable {Location : Type} [DecidableEq Location] {locate : String → Location}
  {blake3 : Bytes → BitVec 256} {destDir destCanon : String} {v : Volume Location}
  {d : Disk Location}

/-- Nobody else touches the disk, and the destination directory stays the same. -/
structure Alone (destDir destCanon : String) (v v' : Volume Location) : Prop where
  disk : v'.disk = v.disk
  canonicalize : v'.env.canonicalize destDir = .ok destCanon

/-- What holds of the program if it returns. -/
abbrev Returns (locate : String → Location) (destDir destCanon : String) {α : Type}
    (post : α → Volume Location → Prop) (p : Program signature FileSyncError α)
    (v : Volume Location) : Prop :=
  p.Meets (machine locate) (Alone destDir destCanon) (fun _ _ => True) post v

theorem returns_orFail_bind {α β : Type} {wrap : IoError → FileSyncError} {r : Except IoError α}
    {f : α → Program signature FileSyncError β} {post : β → Volume Location → Prop}
    (h : ∀ a, r = .ok a → Returns locate destDir destCanon post (f a) v) :
    Returns locate destDir destCanon post (orFail wrap r >>= f) v := by
  cases r with
  | ok a => exact h a rfl
  | error e => trivial

theorem createParent_returns (target : String) (same : v.disk = d) :
    Returns locate destDir destCanon (fun _ v => v.disk = d) (createParent target) v := by
  rw [createParent]
  split
  case h_1 => exact same
  case h_2 parent _ =>
    intro v' alone
    simp only [Volume.exec]
    cases v'.env.createDirAll parent with
    | ok u => exact alone.disk.trans same
    | error e => trivial

theorem deepestExisting_returns (paths : List String) (same : v.disk = d) :
    Returns locate destDir destCanon (fun _ v => v.disk = d) (deepestExisting paths) v := by
  induction paths generalizing v with
  | nil => trivial
  | cons path above ih =>
      intro v' alone
      change Returns locate destDir destCanon _ (if _ then .done path else deepestExisting above) v'
      split
      · exact alone.disk.trans same
      · exact ih (alone.disk.trans same)

theorem resolveSafeTarget_returns (relativePath : String) (same : v.disk = d) :
    Returns locate destDir destCanon
      (fun target v => target = UnixPath.join destCanon relativePath ∧ v.disk = d)
      (resolveSafeTarget destDir relativePath) v := by
  rw [resolveSafeTarget]
  split
  case h_1 => trivial
  case h_2 =>
    intro v₁ alone₁
    refine returns_orFail_bind fun _ _ => ?_
    intro v₂ alone₂
    have resolved : (Volume.exec locate (.canonicalize destDir) v₂).1 = .ok destCanon :=
      alone₂.canonicalize
    rw [resolved]
    have same₂ : v₂.disk = d := alone₂.disk.trans (alone₁.disk.trans same)
    refine (createParent_returns _ same₂).bind fun _ v₃ same₃ => ?_
    refine (deepestExisting_returns _ same₃).bind fun check v₄ same₄ => ?_
    intro v₅ alone₅
    refine returns_orFail_bind fun checkCanon _ => ?_
    split
    · exact ⟨rfl, alone₅.disk.trans same₄⟩
    · trivial

/-- The copy loop fills the partial file. -/
theorem receiveChunks_returns {file : FileId} (remaining : Nat) (stream received : Bytes)
    (whole : stream.length = remaining) (v : Volume Location)
    (filled : v.disk = d.fill file received) :
    Returns locate destDir destCanon
      (fun all v => all = received ++ stream ∧ v.disk = d.fill file all)
      (receiveChunks file remaining stream received) v := by
  fun_induction receiveChunks file remaining stream received generalizing v with
  | case1 => trivial
  | case2 remaining stream received positive chunk bytes rest read ih =>
      rw [readExact] at read
      split at read
      case isTrue => cases read
      case isFalse enough =>
        cases read
        intro v₁ alone₁
        have now : v₁.disk = d.fill file received := alone₁.disk.trans filled
        simp only [Volume.exec]
        split
        case h_1 => trivial
        case h_2 =>
          have written : v₁.disk.write file received.length (stream.take chunk) =
              d.fill file (received ++ stream.take chunk) := by rw [now, d.write_fill]
          refine (ih (by rw [List.length_drop, whole]) _ written).imp (fun _ _ => id) ?_
          rintro all v₂ ⟨rfl, filled⟩
          rw [List.append_assoc, List.take_append_drop] at filled ⊢
          exact ⟨rfl, filled⟩
  | case3 remaining stream received finished =>
      obtain rfl : stream = [] := List.eq_nil_of_length_eq_zero (by omega)
      rw [List.append_nil]
      exact ⟨rfl, filled⟩

theorem receiveInto_returns {header : FileTransferHeader} {body : Bytes}
    (length : body.length = header.size.toNat) (target : String) (same : v.disk = d) :
    Returns locate destDir destCanon
      (fun _ v => v.disk = d.install (locate (partialPath target)) (locate target) body)
      (receiveInto blake3 header body target) v := by
  intro v₁ alone₁
  have now : v₁.disk = d := alone₁.disk.trans same
  simp only [Volume.exec, now]
  split
  case h_1 => trivial
  case h_2 =>
    refine (receiveChunks_returns header.size.toNat body [] length _
      (d.fill_created (locate (partialPath target))).symm).bind ?_
    rintro _ v₂ ⟨rfl, filled⟩
    intro v₃ alone₃
    have filled₃ := alone₃.disk.trans filled
    have synced : (Volume.exec locate
        (.syncAll (d.create (locate (partialPath target))).1) v₃).2 = v₃ := by
      simp only [Volume.exec]
      split <;> rfl
    refine returns_orFail_bind fun _ _ => ?_
    rw [synced]
    split
    case isTrue => exact fun _ _ => trivial
    case isFalse =>
      intro v₄ alone₄
      simp only [Volume.exec]
      split
      case h_1 => trivial
      case h_2 =>
        rw [alone₄.disk, filled₃, (d.fill_holds _ _).content?]
        rfl

/-- A receive that returns has installed the body of its stream. -/
theorem recvFileBulk_returns {header : FileTransferHeader} {body : Bytes} {maxBytes : Nat}
    (proper : header.Proper) (length : body.length = header.size.toNat) (same : v.disk = d) :
    Returns locate destDir destCanon
      (fun _ v => v.disk = d.install
        (locate (partialPath (UnixPath.join destCanon header.relativePath)))
        (locate (UnixPath.join destCanon header.relativePath)) body)
      (recvFileBulk blake3 (header.encode ++ body) destDir maxBytes) v := by
  rw [recvFileBulk, readHeader_encode_eq proper]
  split
  case h_1 => trivial
  case h_2 read =>
    split at read
    case isTrue => cases read
    case isFalse =>
      cases read
      refine (resolveSafeTarget_returns _ same).bind ?_
      rintro _ v₁ ⟨rfl, same₁⟩
      exact (receiveInto_returns length _ same₁).bind fun _ v₂ installed => installed

end Alone

end Qubox.FileSync
