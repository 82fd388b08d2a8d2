import Mathlib.Data.List.Induction
import Qubox.FileSync.Installation
import Qubox.Sync.Delivery

/-!
# Pushes of different files

A push tells the peer the last component of the path of the file and nothing of
the directories above it. Two files of one name are therefore stored in the same
place, and a file is stored where another one is received if its name is the
other name with the suffix of partial files. Pushes that follow one another and
all succeed keep what earlier ones have stored exactly if neither is the case.
-/

namespace Qubox.Sync

open Interaction FileSync

section Statement

variable {Location : Type} [DecidableEq Location] {locate : String → Location}

/-- Where the peer stores what it receives. Nothing goes by the same place as its
partial file. -/
structure Destination (locate : String → Location) where
  destDir : String
  destCanon : String
  maxBytes : Nat
  apart : ∀ target, locate (partialPath target) ≠ locate target

/-- The push of a tracked file, with what the sender and the peer find before each
of their actions. The destination directory stays the same. -/
structure Push (dest : Destination locate) where
  tf : TrackedFile
  sender : Nat → DrainEnv
  receiver : Nat → FsEnv
  resolves : ∀ n, (receiver n).canonicalize dest.destDir = .ok dest.destCanon

/-- The two sides. -/
structure Link (Location : Type) where
  world : World
  volume : Volume Location

@[reducible] def outbound : Machine signature World where
  exec := World.exec

variable {dest : Destination locate}

/-- Where the file is to be stored. -/
def Push.target (p : Push dest) : String :=
  UnixPath.join dest.destCanon (relativeName p.tf.localPath)

variable (blake3 : Bytes → BitVec 256)

/-- The push of `pushJob` and the receive of its stream, if both return `Ok`. -/
def Push.transfer (p : Push dest) (link : Link Location) : Option (Link Location) :=
  match outbound.runUnder (fun env w => { w with env })
      (pushFileOverConnection blake3 p.tf.localPath p.tf.fileId (relativeName p.tf.localPath))
      p.sender link.world with
  | (.error _, _) => none
  | (.ok (stream, _), world) =>
      match (world.streams[stream]?).bind fun s => acceptFilesyncUni s.sent with
      | none => none
      | some incoming =>
          match (machine locate).runUnder (fun env v => { v with env })
              (recvFileBulk blake3 incoming dest.destDir dest.maxBytes) p.receiver link.volume with
          | (.error _, _) => none
          | (.ok _, volume) => some { world, volume }

def transferAll (pushes : List (Push dest)) (link : Link Location) : Option (Link Location) :=
  pushes.foldlM (fun link p => p.transfer blake3 link) link

/-- Afterwards the destination holds each file with the content it had during its
last push. -/
def Held (pushes : List (Push dest)) (start : Link Location) : Prop :=
  ∀ finish ∈ transferAll blake3 pushes start, ∀ before p after, pushes = before ++ p :: after →
    (∀ q ∈ after, q.tf.localPath ≠ p.tf.localPath) →
    ∀ content, (∀ n, (p.sender n).content p.tf.localPath = .ok content) →
      finish.volume.disk.content? (locate p.target) = some content

/-- No push overwrites the result of a push of a different file. -/
def Spared (pushes : List (Push dest)) (start : Link Location) : Prop :=
  ∀ before p after, pushes = before ++ p :: after →
    ∀ link ∈ transferAll blake3 before start, ∀ link' ∈ p.transfer blake3 link,
    ∀ q ∈ before, q.tf.localPath ≠ p.tf.localPath →
      Disk.SameAt link.volume.disk link'.volume.disk (locate q.target)

/-- The earlier push has stored its file neither where the later one stores its
own nor where it receives it. -/
def Clear (earlier later : Push dest) : Prop :=
  locate earlier.target ≠ locate later.target ∧
    locate earlier.target ≠ locate (partialPath later.target)

end Statement

/-! ## What a push puts on its stream -/

section Sender

variable {blake3 : Bytes → BitVec 256} {env : Nat → DrainEnv} {path : String} {w : World}

/-- Nobody else touches the streams. -/
structure Sending (env : Nat → DrainEnv) (w w' : World) : Prop where
  streams : w'.streams = w.streams
  env : ∃ n, w'.env = env n

/-- The stream carries the content of the file behind a header with this name. -/
structure Carries (env : Nat → DrainEnv) (path relativePath : String)
    (header : FileTransferHeader) (stream : Nat) (content : Bytes) (w : World) : Prop where
  relativePath : header.relativePath = relativePath
  proper : header.Proper
  length : content.length = header.size.toNat
  read : ∃ n, (env n).content path = .ok content
  sent : w.streams[stream]? = some ⟨filesyncEnvelope ++ (header.encode ++ content), true⟩

/-- What holds of the sender's program if it returns. -/
abbrev Pushes (env : Nat → DrainEnv) {α : Type} (post : α → World → Prop)
    (p : Program signature PushError α) (w : World) : Prop :=
  p.Meets outbound (Sending env) (fun _ _ => True) post w

theorem pushes_orFail_bind {α β : Type} {r : Except IoError α}
    {f : α → Program signature PushError β} {post : β → World → Prop}
    (h : ∀ a, r = .ok a → Pushes env post (f a) w) : Pushes env post (orFail r >>= f) w := by
  cases r with
  | ok a => exact h a rfl
  | error e => trivial

theorem hashFileStreaming_pushes (path : String) :
    Pushes env (fun _ _ => True) (hashFileStreaming blake3 path) w := by
  intro w' sending
  refine pushes_orFail_bind fun content _ => ?_
  split
  · trivial
  · trivial

theorem Sending.stream {w' : World} (sending : Sending env w w') {stream : Nat} {s : Stream}
    (there : w.streams[stream]? = some s) : w'.streams[stream]? = some s := by
  rw [sending.streams, there]

theorem sendFileBulk_carries {stream : Nat} {header : FileTransferHeader} (proper : header.Proper)
    (there : w.streams[stream]? = some ⟨filesyncEnvelope, false⟩) :
    Pushes env (fun _ w => ∃ content, Carries env path header.relativePath header stream content w)
      (sendFileBulk stream header path) w := by
  rw [sendFileBulk]
  split
  case isTrue => trivial
  case isFalse =>
    intro w₁ sending₁
    simp only [World.exec]
    split
    case h_1 => trivial
    case h_2 =>
      have wrote := getElem?_send (sending₁.stream there) header.encode
      intro w₂ sending₂
      refine pushes_orFail_bind fun _ _ => ?_
      have wrote : w₂.streams[stream]? = _ := sending₂.stream wrote
      intro w₃ sending₃
      simp only [World.exec]
      split
      case h_1 => trivial
      case h_2 => trivial
      case h_3 content read _ =>
        obtain ⟨n, same⟩ := sending₃.env
        rw [same] at read
        have copied := getElem?_send (sending₃.stream wrote) content
        change Pushes env _ (if content.length ≠ header.size.toNat then .fail _ else _) _
        split
        case isTrue => trivial
        case isFalse length =>
          intro w₄ sending₄
          have copied : w₄.streams[stream]? = _ := sending₄.stream copied
          simp only [World.exec]
          split
          case h_1 => trivial
          case h_2 =>
            refine ⟨content, rfl, proper, not_not.mp length, ⟨n, read⟩, ?_⟩
            simp [copied]

theorem pushFileOverConnection_carries (fileId : FileId) (relativePath : String) (w : World) :
    Pushes env (fun result w => ∃ content, Carries env path relativePath result.2 result.1 content w)
      (pushFileOverConnection blake3 path fileId relativePath) w := by
  rw [pushFileOverConnection]
  split
  case h_1 => trivial
  case h_2 safe =>
    split
    case isTrue => trivial
    case isFalse named =>
      refine (hashFileStreaming_pushes path).bind fun hashed w₁ _ => ?_
      intro w₂ sending₂
      simp only [World.exec]
      split
      case h_1 => trivial
      case h_2 =>
        intro w₃ sending₃
        have opened : w₃.streams[w₂.streams.length]? = some ⟨[], false⟩ :=
          sending₃.stream (by simp)
        simp only [World.exec]
        split
        case h_1 => trivial
        case h_2 =>
          have wrote := getElem?_send opened filesyncEnvelope
          refine (sendFileBulk_carries (proper_of_checked safe named _ hashed.1) wrote).bind ?_
          rintro _ w₄ ⟨content, carries⟩
          exact ⟨content, carries⟩

end Sender

/-! ## One push after the other -/

section Transfer

variable {Location : Type} [DecidableEq Location] {locate : String → Location}
  {dest : Destination locate} {blake3 : Bytes → BitVec 256} {p : Push dest}
  {link link' start finish : Link Location}

/-- A push that succeeds installs the content of its file. -/
theorem Push.transfer_installs (h : p.transfer blake3 link = some link') :
    ∃ content, (∃ n, (p.sender n).content p.tf.localPath = .ok content) ∧
      link'.volume.disk =
        link.volume.disk.install (locate (partialPath p.target)) (locate p.target) content := by
  have pushes : Pushes p.sender _ (pushFileOverConnection blake3 p.tf.localPath p.tf.fileId
      (relativeName p.tf.localPath)) link.world := pushFileOverConnection_carries _ _ _
  unfold transfer at h
  rcases pushes.runUnder (fun env w => { w with env }) p.sender fun n w => ⟨rfl, n, rfl⟩ with
    ⟨⟨stream, header⟩, world, ran, content, carries⟩ | ⟨e, world, ran, -⟩
  · simp only [ran, carries.sent, Option.bind_some, acceptFilesyncUni_envelope] at h
    have returns : Returns locate dest.destDir dest.destCanon _ (recvFileBulk blake3
        (header.encode ++ content) dest.destDir dest.maxBytes) link.volume :=
      recvFileBulk_returns carries.proper carries.length rfl
    have received := returns.runUnder (fun env v => { v with env }) p.receiver
      fun n v => ⟨rfl, p.resolves n⟩
    rcases received with ⟨result, volume, ran, installed⟩ | ⟨e, volume, ran, -⟩
    · simp only [ran] at h
      cases h
      rw [carries.relativePath] at installed
      exact ⟨content, carries.read, installed⟩
    · simp only [ran] at h
      cases h
  · simp only [ran] at h
    cases h

/-- A push is the last of the pushes made so far. -/
theorem transferAll_concat {pushes : List (Push dest)} :
    transferAll blake3 (pushes ++ [p]) start = some finish ↔
      ∃ link, transferAll blake3 pushes start = some link ∧ p.transfer blake3 link = some finish := by
  rw [transferAll, List.foldlM_append]
  simp [transferAll, Option.bind_eq_some_iff]

theorem Spared.init {pushes : List (Push dest)} (spared : Spared blake3 (pushes ++ [p]) start) :
    Spared blake3 pushes start := by
  intro before q after shape
  refine spared before q (after ++ [p]) ?_
  rw [shape, List.append_assoc, List.cons_append]

theorem unlinked_of_transferAll (pushes : List (Push dest)) (unlinked : start.volume.disk.Unlinked)
    (succeeds : transferAll blake3 pushes start = some finish) : finish.volume.disk.Unlinked := by
  induction pushes using List.reverseRecOn generalizing finish with
  | nil =>
      cases succeeds
      exact unlinked
  | append_singleton pushes p ih =>
      obtain ⟨link, earlier, last⟩ := transferAll_concat.mp succeeds
      obtain ⟨content, -, installed⟩ := p.transfer_installs last
      rw [installed]
      exact (ih earlier).install _ _ _

/-- As long as nothing is overwritten, every file is stored. -/
theorem Spared.stored {pushes : List (Push dest)} (spared : Spared blake3 pushes start)
    (succeeds : transferAll blake3 pushes start = some finish) :
    ∀ q ∈ pushes, (finish.volume.disk.names (locate q.target)).isSome := by
  induction pushes using List.reverseRecOn generalizing finish with
  | nil => exact fun q none => absurd none List.not_mem_nil
  | append_singleton pushes p ih =>
      obtain ⟨link, earlier, last⟩ := transferAll_concat.mp succeeds
      intro q pushed
      by_cases same : q.tf.localPath = p.tf.localPath
      case pos =>
        obtain ⟨content, -, installed⟩ := p.transfer_installs last
        have target : q.target = p.target := by rw [Push.target, Push.target, same]
        rw [target, installed, (Disk.install_holds _ _ _ _).named]
        rfl
      case neg =>
        have before : q ∈ pushes := by
          rcases List.mem_append.mp pushed with before | last
          · exact before
          · exact absurd (congrArg (·.tf.localPath) (List.mem_singleton.mp last)) same
        rw [(spared pushes p [] rfl link earlier finish last q before same).names]
        exact ih spared.init earlier q before

/-- A push that is not clear of an earlier one overwrites its result. -/
theorem Spared.clear {pushes : List (Push dest)} (spared : Spared blake3 pushes start)
    (unlinked : start.volume.disk.Unlinked)
    (succeeds : transferAll blake3 pushes start = some finish) :
    pushes.Pairwise fun q p => q.tf.localPath ≠ p.tf.localPath → Clear q p := by
  induction pushes using List.reverseRecOn generalizing finish with
  | nil => exact .nil
  | append_singleton pushes p ih =>
      obtain ⟨link, earlier, last⟩ := transferAll_concat.mp succeeds
      refine List.pairwise_append.mpr ⟨ih spared.init earlier, List.pairwise_singleton _ _, ?_⟩
      intro q before p' only different
      obtain rfl := List.mem_singleton.mp only
      have same := spared pushes p' [] rfl link earlier finish last q before different
      have stored := spared.init.stored earlier q before
      have alone := unlinked_of_transferAll pushes unlinked earlier
      obtain ⟨content, -, installed⟩ := p'.transfer_installs last
      rw [installed] at same
      constructor
      · intro target
        rw [target] at same stored
        exact alone.not_sameAt_target (dest.apart _) stored content same
      · intro source
        rw [source] at same stored
        exact alone.not_sameAt_source (dest.apart _) stored content same

/-- A push that is clear of an earlier one leaves its result alone. -/
theorem Clear.sameAt {q : Push dest} (clear : Clear q p) (unlinked : link.volume.disk.Unlinked)
    (h : p.transfer blake3 link = some link') :
    Disk.SameAt link.volume.disk link'.volume.disk (locate q.target) := by
  obtain ⟨content, -, installed⟩ := p.transfer_installs h
  rw [installed]
  exact unlinked.sameAt_install clear.2 clear.1 content

theorem spared_of_clear {pushes : List (Push dest)} (unlinked : start.volume.disk.Unlinked)
    (clear : pushes.Pairwise fun q p => q.tf.localPath ≠ p.tf.localPath → Clear q p) :
    Spared blake3 pushes start := by
  rintro before p after rfl link earlier link' last q member different
  have clear : Clear q p :=
    (List.pairwise_append.mp clear).2.2 q member p List.mem_cons_self different
  exact clear.sameAt (unlinked_of_transferAll before unlinked earlier) last

theorem held_of_clear {pushes : List (Push dest)} (unlinked : start.volume.disk.Unlinked)
    (clear : pushes.Pairwise fun q p => q.tf.localPath ≠ p.tf.localPath → Clear q p) :
    Held blake3 pushes start := by
  induction pushes using List.reverseRecOn with
  | nil =>
      intro finish _ before p after shape
      exact absurd shape.symm (List.append_ne_nil_of_right_ne_nil _ (List.cons_ne_nil _ _))
  | append_singleton pushes r ih =>
      intro finish succeeds before p after shape latest content reads
      obtain ⟨link, earlier, last⟩ := transferAll_concat.mp succeeds
      obtain ⟨first, -, behind⟩ := List.pairwise_append.mp clear
      cases after using List.reverseRecOn with
      | nil =>
          obtain ⟨rfl, same⟩ := List.append_inj' shape rfl
          obtain rfl : r = p := List.head_eq_of_cons_eq same
          obtain ⟨content', ⟨n, read⟩, installed⟩ := r.transfer_installs last
          obtain rfl : content = content' := Except.ok.inj ((reads n).symm.trans read)
          rw [installed]
          exact (Disk.install_holds _ _ _ _).content?
      | append_singleton after r' =>
          rw [← List.cons_append, ← List.append_assoc] at shape
          obtain ⟨rfl, same⟩ := List.append_inj' shape rfl
          obtain rfl : r = r' := List.head_eq_of_cons_eq same
          have different : p.tf.localPath ≠ r.tf.localPath :=
            (latest r (List.mem_append_right _ List.mem_cons_self)).symm
          have clear : Clear p r :=
            behind p (List.mem_append_right _ List.mem_cons_self) r List.mem_cons_self different
          have kept := clear.sameAt (unlinked_of_transferAll _ unlinked earlier) last
          rw [kept.content]
          exact ih first link earlier before p after rfl
            (fun q later => latest q (List.mem_append_left _ later)) content reads

/-- Pushes that all succeed keep each other's files exactly if each is clear of
the earlier ones of different files. -/
theorem kept_iff {pushes : List (Push dest)} (unlinked : start.volume.disk.Unlinked)
    (succeeds : (transferAll blake3 pushes start).isSome) :
    Held blake3 pushes start ∧ Spared blake3 pushes start ↔
      pushes.Pairwise fun q p => q.tf.localPath ≠ p.tf.localPath → Clear q p := by
  obtain ⟨finish, succeeds⟩ := Option.isSome_iff_exists.mp succeeds
  constructor
  · rintro ⟨-, spared⟩
    exact spared.clear unlinked succeeds
  · exact fun clear => ⟨held_of_clear unlinked clear, spared_of_clear unlinked clear⟩

end Transfer

/-! ## Two files of one name -/

namespace Sample

theorem partialPath_ne (target : String) : partialPath target ≠ target := by
  intro same
  have length := congrArg String.length same
  have longer : (".qubox-partial" : String).length = 14 := by decide
  rw [partialPath, String.length_append, longer] at length
  omega

/-- Every path is a place of its own. -/
def inbox : Destination (id : String → String) where
  destDir := "/dest"
  destCanon := "/dest"
  maxBytes := maxFilesyncBytes
  apart := partialPath_ne

/-- The file of this path, with this content throughout its push. -/
def pushOf (localPath : String) (content : Bytes) : Push inbox where
  tf := { save with fileId := localPath, localPath }
  sender _ := { calm with content := fun _ => .ok content }
  receiver _ := downloads
  resolves _ := rfl

def atRest : Link String where
  world := (untouched oneJob calm).shared
  volume := ⟨Disk.empty, downloads⟩

/-- The slots of one game in two directories. -/
def oneName : List (Push inbox) :=
  [pushOf "/home/me/slot1/game.sav" [1, 2, 3], pushOf "/home/me/slot2/game.sav" [4, 5, 6]]

def twoNames : List (Push inbox) :=
  [pushOf "/home/me/slot1/one.sav" [1, 2, 3], pushOf "/home/me/slot2/two.sav" [4, 5, 6]]

theorem oneName_not_kept :
    (transferAll digits oneName atRest).isSome ∧
      ¬ (Held digits oneName atRest ∧ Spared digits oneName atRest) := by
  have second : (transferAll digits oneName atRest).bind
      (fun link => link.volume.disk.content? "/dest/game.sav") = some [4, 5, 6] := by decide +kernel
  obtain ⟨finish, succeeds, content⟩ := Option.bind_eq_some_iff.mp second
  refine ⟨by rw [succeeds]; rfl, ?_⟩
  rintro ⟨held, -⟩
  have kept := held finish succeeds [] _ _ rfl (by decide) [1, 2, 3] fun _ => rfl
  have target : (pushOf "/home/me/slot1/game.sav" [1, 2, 3]).target = "/dest/game.sav" := by
    decide
  rw [target, id_eq, content] at kept
  cases kept

theorem twoNames_kept :
    Held digits twoNames atRest ∧ Spared digits twoNames atRest := by
  have empty : atRest.volume.disk.Unlinked := Disk.empty_unlinked
  refine (kept_iff empty (by decide +kernel)).mpr ?_
  refine .cons (fun p later _ => ?_) (List.pairwise_singleton _ _)
  obtain rfl := List.mem_singleton.mp later
  exact ⟨by decide, by decide⟩

end Sample

end Qubox.Sync
