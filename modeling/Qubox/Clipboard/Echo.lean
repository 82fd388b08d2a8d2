import Qubox.Clipboard.Sync

/-!
# Runs without echo

A watcher sends whatever it has not sent last, also what came from the other side. So two
peers are in step only in the runs in which no watcher gets to see such contents, unless it
sent the same before, and changes do not cross. In these the side that sent last leads: once
its change has arrived, both clipboards show it.
-/

namespace Qubox.Clipboard

variable {Hash : Type} {codecs : Codecs Hash}

/-! ## Payloads -/

/-- The payloads that watchers send. -/
inductive Sendable (codecs : Codecs Hash) : ClipboardPayload → Prop
  | text {utf8 : String} (filled : utf8 ≠ "") : Sendable codecs (.text utf8)
  | image {image : Image} {png : Bytes} (read : readImage codecs image =
      some ⟨image.width, image.height, png⟩) :
      Sendable codecs (.imagePng image.width image.height png)
  | clear : Sendable codecs .clear

theorem readImage_eq {image : Image} {read : ClipboardImage}
    (found : readImage codecs image = some read) :
    read = ⟨image.width, image.height, read.png⟩ ∧
      codecs.encodePng image.width image.height image.bytes = some read.png := by
  rw [readImage] at found
  split at found
  case isTrue => cases found
  case isFalse =>
    obtain ⟨png, encoded, rfl⟩ := Option.map_eq_some_iff.mp found
    exact ⟨rfl, encoded⟩

theorem sendable_reads (config : ClipboardSyncConfig) (contents : Contents) :
    Sendable codecs (snapshotToPayload (readSnapshot codecs config contents)) := by
  unfold snapshotToPayload
  split
  case h_1 read found =>
    change (if config.imageEnabled then contents.image.bind (readImage codecs) else none) =
      some read at found
    split at found
    · obtain ⟨image, -, shown⟩ := Option.bind_eq_some_iff.mp found
      have same := (readImage_eq shown).1
      obtain ⟨width, height, png⟩ := read
      cases same
      exact .image shown
    · cases found
  case h_2 text _ found =>
    change (if config.textEnabled then contents.text.filter (· ≠ "") else none) =
      some text at found
    split at found
    · obtain ⟨-, filled⟩ := Option.filter_eq_some_iff.mp found
      exact .text (of_decide_eq_true filled)
    · cases found
  case h_3 => exact .clear

/-- What a watcher sends can be put on a clipboard. -/
theorem Sendable.applied {payload : ClipboardPayload} (sendable : Sendable codecs payload) :
    ∃ contents, applyPayload codecs payload = some contents := by
  cases sendable with
  | text filled => exact ⟨_, rfl⟩
  | @image image png read =>
      have decoded := codecs.lossless (readImage_eq read).2
      exact ⟨{ image := some image }, congrArg (Option.map _) decoded⟩
  | clear => exact ⟨_, rfl⟩

/-! ## What holds of a careful run -/

namespace ClipboardPeer

variable {peer : ClipboardPeer Hash} {change : ClipboardChange} {contents : Contents}

/-- A poll would send nothing, or should not be made. -/
def settled [DecidableEq Hash] (codecs : Codecs Hash) (peer : ClipboardPeer Hash) : Bool :=
  peer.isRemote || some (hashPayload codecs (peer.payload codecs)) = peer.watcher.lastHash

structure Sound (codecs : Codecs Hash) (peer : ClipboardPeer Hash) : Prop where
  own : peer.isRemote = false → applyPayload codecs (peer.payload codecs) = some peer.contents
  put : peer.isRemote → ∃ payload, peer.lastApplied = some payload ∧
    applyPayload codecs payload = some peer.contents
  first : peer.overtaken = false → peer.isRemote = false
  /-- Contents that the user copied after others came from the other side are new. -/
  fresh : peer.overtaken → peer.isRemote = false →
    some (hashPayload codecs (peer.payload codecs)) ≠ peer.watcher.lastHash
  sent : some (hashPayload codecs (peer.payload codecs)) = peer.watcher.lastHash →
    peer.lastSent = some (peer.payload codecs)
  cleared : peer.watcher.lastWasClear → peer.watcher.lastHash = some (hashPayload codecs .clear)
  sentOk : ∀ payload ∈ peer.lastSent, Sendable codecs payload
  appliedOk : ∀ payload ∈ peer.lastApplied, Sendable codecs payload
  /-- Until something comes from the other side, a poll sees what was sent last. -/
  seen : peer.overtaken = false → ∀ payload ∈ peer.lastSent, ∃ contents ∈ peer.polled,
    applyPayload codecs payload = some contents

theorem Sound.copy (sound : peer.Sound codecs)
    (whole : applyPayload codecs (peer.reads codecs contents) = some contents)
    (distinct : some (hashPayload codecs (peer.reads codecs contents)) = peer.watcher.lastHash →
      peer.lastSent = some (peer.reads codecs contents))
    (news : some (hashPayload codecs (peer.reads codecs contents)) = peer.watcher.lastHash →
      peer.overtaken = false) : (peer.copy contents).Sound codecs where
  own _ := whole
  put isRemote := by cases isRemote
  first _ := rfl
  fresh overtaken _ same := by
    have := news same
    rw [show peer.overtaken = true from overtaken] at this
    cases this
  sent := distinct
  cleared := sound.cleared
  sentOk := sound.sentOk
  appliedOk := sound.appliedOk
  seen := sound.seen

theorem Sound.pass (sound : peer.Sound codecs)
    (same : some (hashPayload codecs (peer.payload codecs)) = peer.watcher.lastHash) :
    (peer.pass peer.watcher).Sound codecs where
  own := sound.own
  put := sound.put
  first := sound.first
  fresh := sound.fresh
  sent := sound.sent
  cleared := sound.cleared
  sentOk := sound.sentOk
  appliedOk := sound.appliedOk
  seen first payload last := by
    obtain rfl := Option.some.inj ((sound.sent same).symm.trans last)
    exact ⟨peer.contents, rfl, sound.own (sound.first first)⟩

/-- A poll of own contents that sends nothing sees what the poll before it saw. -/
theorem Sound.not_missed (sound : peer.Sound codecs)
    (same : some (hashPayload codecs (peer.payload codecs)) = peer.watcher.lastHash) :
    (!peer.isRemote && peer.polled.any (· ≠ peer.contents)) = false := by
  apply Bool.eq_false_iff.mpr
  intro missed
  obtain ⟨isOwn, changed⟩ := Bool.and_eq_true_iff.mp missed
  have isOwn : peer.isRemote = false := Bool.not_eq_true' _ ▸ isOwn
  have first : peer.overtaken = false :=
    Bool.eq_false_iff.mpr fun overtaken => sound.fresh overtaken isOwn same
  obtain ⟨before, polled, applied⟩ := sound.seen first _ (sound.sent same)
  obtain rfl := Option.some.inj ((sound.own isOwn).symm.trans applied)
  obtain ⟨other, member, differs⟩ := (Option.any_eq_true _ _).mp changed
  obtain rfl := Option.some.inj (polled.symm.trans member)
  exact of_decide_eq_true differs rfl

theorem Sound.send (sound : peer.Sound codecs) (isOwn : peer.isRemote = false)
    {watcher : ClipboardWatcher Hash}
    (hash : watcher.lastHash = some (hashPayload codecs (peer.payload codecs)))
    (clear : watcher.lastWasClear → peer.payload codecs = .clear) :
    (peer.sent codecs watcher).Sound codecs where
  own := sound.own
  put := sound.put
  first _ := isOwn
  fresh overtaken := by cases overtaken
  sent _ := rfl
  cleared was := hash.trans (congrArg (fun payload => some (hashPayload codecs payload)) (clear was))
  sentOk _ member := Option.some.inj member ▸ sendable_reads _ _
  appliedOk := sound.appliedOk
  seen _ payload last := by
    obtain rfl := Option.some.inj last
    exact ⟨peer.contents, rfl, sound.own isOwn⟩

theorem settled_sent [DecidableEq Hash] {watcher : ClipboardWatcher Hash}
    (hash : watcher.lastHash = some (hashPayload codecs (peer.payload codecs))) :
    (peer.sent codecs watcher).settled codecs = true := by
  apply Bool.or_eq_true_iff.mpr
  exact .inr (decide_eq_true hash.symm)

end ClipboardPeer

/-- What a watcher does with a payload, when the flag of the last clear is right. -/
theorem ClipboardPeer.Sound.poll_cases [DecidableEq Hash] {peer : ClipboardPeer Hash}
    (sound : peer.Sound codecs) :
    let payload := peer.payload codecs
    let hash := hashPayload codecs payload
    some hash = peer.watcher.lastHash ∧
        peer.watcher.poll codecs payload = (peer.watcher, none) ∨
      some hash ≠ peer.watcher.lastHash ∧ peer.watcher.poll codecs payload =
        (⟨peer.watcher.nextSeq + 1, some hash, payload = .clear⟩,
          some ⟨peer.watcher.nextSeq + 1, payload⟩) := by
  intro payload hash
  by_cases same : some hash = peer.watcher.lastHash
  · exact .inl ⟨same, if_pos same⟩
  · refine .inr ⟨same, ?_⟩
    have first : ¬ (payload = .clear ∧ peer.watcher.lastWasClear) := by
      rintro ⟨clear, was⟩
      apply same
      rw [sound.cleared was]
      exact congrArg (fun payload => some (hashPayload codecs payload)) clear
    rw [ClipboardWatcher.poll, if_neg same, if_neg first]

/-! ## The two queues -/

/-- What a receiver, the changes on their way to it and their sender have in common. -/
structure Link (codecs : Codecs Hash) (receiver : ClipboardPeer Hash)
    (queue : List ClipboardChange) (sender : ClipboardPeer Hash) : Prop where
  sendable : ∀ change ∈ queue, Sendable codecs change.payload
  latest : (receiver.lastApplied.toList ++ queue.map (·.payload)).getLast? = sender.lastSent
  ordered : (receiver.lastSeq :: queue.map (·.seq)).Pairwise (· < ·)
  bounded : ∀ seq ∈ receiver.lastSeq :: queue.map (·.seq), seq ≤ sender.watcher.nextSeq

section

variable {receiver sender receiver' sender' : ClipboardPeer Hash} {queue : List ClipboardChange}

theorem Link.congr (link : Link codecs receiver queue sender)
    (applied : receiver'.lastApplied = receiver.lastApplied)
    (lastSeq : receiver'.lastSeq = receiver.lastSeq) (sent : sender'.lastSent = sender.lastSent)
    (nextSeq : sender'.watcher.nextSeq = sender.watcher.nextSeq) :
    Link codecs receiver' queue sender' := by
  obtain ⟨sendable, latest, ordered, bounded⟩ := link
  constructor
  · exact sendable
  · rwa [applied, sent]
  · rwa [lastSeq]
  · rwa [lastSeq, nextSeq]

theorem Link.send (link : Link codecs receiver queue sender) {watcher : ClipboardWatcher Hash}
    (grows : sender.watcher.nextSeq < sender.watcher.nextSeq + 1)
    (nextSeq : watcher.nextSeq = sender.watcher.nextSeq + 1) :
    Link codecs receiver (queue ++ [⟨sender.watcher.nextSeq + 1, sender.payload codecs⟩])
      (sender.sent codecs watcher) := by
  constructor
  · intro change member
    obtain old | new := List.mem_append.mp member
    · exact link.sendable change old
    · obtain rfl := List.mem_singleton.mp new
      exact sendable_reads _ _
  · rw [List.map_append, ← List.append_assoc]
    exact List.getLast?_concat
  · rw [List.map_append, ← List.cons_append, List.pairwise_append]
    refine ⟨link.ordered, List.pairwise_singleton _ _, fun seq member last new => ?_⟩
    obtain rfl := List.mem_singleton.mp new
    exact UInt64.lt_of_le_of_lt (link.bounded seq member) grows
  · intro seq member
    change seq ≤ watcher.nextSeq
    rw [nextSeq]
    rw [List.map_append, ← List.cons_append] at member
    obtain old | new := List.mem_append.mp member
    · exact UInt64.le_of_lt (UInt64.lt_of_le_of_lt (link.bounded seq old) grows)
    · exact List.mem_singleton.mp new ▸ UInt64.le_refl _

/-- A change that arrives is new, and can be put on the clipboard. -/
theorem Link.applied {change : ClipboardChange}
    (link : Link codecs receiver (change :: queue) sender) :
    ∃ contents, applyPayload codecs change.payload = some contents ∧
      receiver.apply codecs change true =
        { receiver with
          contents
          lastSeq := change.seq
          isRemote := true
          overtaken := true
          lastApplied := some change.payload } := by
  obtain ⟨contents, applied⟩ := (link.sendable change (.head _)).applied
  refine ⟨contents, applied, ?_⟩
  have advances : seqAdvances receiver.lastSeq change.seq = true :=
    decide_eq_true (List.rel_of_pairwise_cons link.ordered (.head _))
  simp only [ClipboardPeer.apply, advances, if_true, applied]

theorem Link.deliver {change : ClipboardChange}
    (link : Link codecs receiver (change :: queue) sender)
    (applied : receiver'.lastApplied = some change.payload)
    (lastSeq : receiver'.lastSeq = change.seq) : Link codecs receiver' queue sender := by
  constructor
  · exact fun other member => link.sendable other (.tail _ member)
  · rw [applied, ← link.latest, List.map_cons, Option.toList_some, List.singleton_append,
      List.getLast?_append, List.getLast?_cons]
    rfl
  · rw [lastSeq]
    exact (List.pairwise_cons.mp link.ordered).2
  · rw [lastSeq]
    exact fun seq member => link.bounded seq (.tail _ member)

end

/-! ## Runs of the pair -/

@[simp] theorem Side.other_other (side : Side) : side.other.other = side := by cases side <;> rfl

theorem Side.other_ne (side : Side) : side.other ≠ side := by cases side <;> exact Side.noConfusion

theorem Side.eq_other_of_ne {leader side : Side} (different : leader ≠ side) :
    leader = side.other := by
  cases leader <;> cases side <;> trivial

theorem Side.forall_iff {P : Side → Prop} (side : Side) :
    (∀ s, P s) ↔ P side ∧ P side.other := by
  constructor
  · exact fun all => ⟨all side, all side.other⟩
  · rintro ⟨here, there⟩ s
    cases side <;> cases s <;> assumption

namespace ClipboardPair

variable {pair next : ClipboardPair Hash} {side : Side}

theorem sinceCopy_copied (log : List ClipboardEvent) (other : ClipboardPair Hash)
    (logs : other.log = log ++ [.copied]) : other.sinceCopy = [] := by
  simp [sinceCopy, logs]

theorem sinceCopy_concat (pair : ClipboardPair Hash) {event : ClipboardEvent}
    (logs : next.log = pair.log ++ [event])
    (different : event ≠ .copied) : next.sinceCopy = event :: pair.sinceCopy := by
  simp [sinceCopy, logs, different]

theorem not_mem_concat {event last : ClipboardEvent} {log : List ClipboardEvent}
    (absent : event ∉ log) (different : event ≠ last) : event ∉ log ++ [last] := by
  intro member
  obtain old | new := List.mem_append.mp member
  · exact absent old
  · exact different (List.mem_singleton.mp new)

theorem update_field {α : Type} (field : ClipboardPeer Hash → α) {peer : ClipboardPeer Hash}
    (same : field peer = field (pair.peer side)) (s : Side) :
    field (Function.update pair.peer side peer s) = field (pair.peer s) := by
  by_cases here : s = side
  · rw [here, Function.update_self, same]
  · rw [Function.update_of_ne here]

variable [DecidableEq Hash]

/-- The side that sent last: nothing has come to it since, and what it sent is on its way or
has arrived. -/
structure Leads (pair : ClipboardPair Hash) (side : Side) : Prop where
  ahead : (pair.peer side).overtaken = false
  alone : pair.inbox side = []
  heard : pair.inbox side.other ≠ [] ∨ (pair.peer side.other).overtaken

structure Aligned (codecs : Codecs Hash) (pair : ClipboardPair Hash) : Prop where
  sound : ∀ side, (pair.peer side).Sound codecs
  link : ∀ side : Side, Link codecs (pair.peer side) (pair.inbox side) (pair.peer side.other)
  leader : (∀ side, (pair.peer side).lastSent = none) ∨ ∃ side, pair.Leads side
  count : ∀ side, pair.sinceCopy.countP ClipboardEvent.isSent ≤
    ((pair.peer side).settled codecs).toNat + ((pair.peer side.other).settled codecs).toNat
  noEcho : .sent true ∉ pair.log
  changesSent : .passed true ∉ pair.log

section Quiet

variable (aligned : pair.Aligned codecs) (quiet : pair.Quiet codecs)

include aligned quiet

/-- Own contents have been sent. -/
theorem quiet_sent {side : Side} (isOwn : (pair.peer side).isRemote = false) :
    some (hashPayload codecs ((pair.peer side).payload codecs)) =
        (pair.peer side).watcher.lastHash ∧
      (pair.peer side).lastSent = some ((pair.peer side).payload codecs) := by
  obtain ⟨same, -⟩ | ⟨-, sends⟩ := (aligned.sound side).poll_cases
  · exact ⟨same, (aligned.sound side).sent same⟩
  · have silent := (quiet side).2 isOwn
    rw [sends] at silent
    cases silent

/-- What a side has sent last has arrived. -/
theorem quiet_applied (side : Side) :
    (pair.peer side).lastApplied = (pair.peer side.other).lastSent := by
  have latest := (aligned.link side).latest
  rw [(quiet side).1, List.map_nil, List.append_nil] at latest
  rw [← latest]
  cases (pair.peer side).lastApplied <;> rfl

/-- The clipboards are equal, since one side shows what it sent last and the other got it. -/
theorem quiet_leads {side : Side} (leads : pair.Leads side) :
    (pair.peer side).contents = (pair.peer side.other).contents := by
  have isOwn := (aligned.sound side).first leads.ahead
  have shown := (aligned.sound side).own isOwn
  have overtaken : (pair.peer side.other).overtaken :=
    leads.heard.resolve_left fun waiting => waiting (quiet side.other).1
  have isRemote : (pair.peer side.other).isRemote = true := by
    by_contra own
    have own := Bool.eq_false_iff.mpr own
    exact (aligned.sound side.other).fresh overtaken own (quiet_sent aligned quiet own).1
  obtain ⟨payload, last, put⟩ := (aligned.sound side.other).put isRemote
  rw [quiet_applied aligned quiet, Side.other_other, (quiet_sent aligned quiet isOwn).2] at last
  obtain rfl := Option.some.inj last
  exact Option.some.inj (shown.symm.trans put)

theorem quiet_equal : (pair.peer .left).contents = (pair.peer .right).contents := by
  obtain silent | ⟨side, leads⟩ := aligned.leader
  · -- nothing has been sent, so what is shown is own and would be sent
    have isOwn : (pair.peer .left).isRemote = false := by
      apply Bool.eq_false_iff.mpr
      intro isRemote
      obtain ⟨payload, last, -⟩ := (aligned.sound .left).put isRemote
      rw [quiet_applied aligned quiet, silent] at last
      cases last
    cases (silent .left).symm.trans (quiet_sent aligned quiet isOwn).2
  · cases side with
    | left => exact quiet_leads aligned quiet leads
    | right => exact (quiet_leads aligned quiet leads).symm

end Quiet

/-- One side, the queues and the log have changed. -/
theorem Aligned.of_side {peer : ClipboardPeer Hash} (aligned : pair.Aligned codecs)
    (peers : next.peer = Function.update pair.peer side peer) (sound : peer.Sound codecs)
    (receiving : Link codecs peer (next.inbox side) (pair.peer side.other))
    (sending : Link codecs (pair.peer side.other) (next.inbox side.other) peer)
    (leader : (∀ s, (next.peer s).lastSent = none) ∨ ∃ s, next.Leads s)
    (count : next.sinceCopy.countP ClipboardEvent.isSent ≤
      (peer.settled codecs).toNat + ((pair.peer side.other).settled codecs).toNat)
    (noEcho : .sent true ∉ next.log) (changesSent : .passed true ∉ next.log) :
    next.Aligned codecs := by
  have here : next.peer side = peer := by rw [peers, Function.update_self]
  have there : next.peer side.other = pair.peer side.other := by
    rw [peers, Function.update_of_ne side.other_ne]
  constructor
  · rw [side.forall_iff, here, there]
    exact ⟨sound, aligned.sound side.other⟩
  · rw [side.forall_iff, Side.other_other, here, there]
    exact ⟨receiving, sending⟩
  · exact leader
  · rw [side.forall_iff, Side.other_other, here, there]
    exact ⟨count, Nat.add_comm _ _ ▸ count⟩
  · exact noEcho
  · exact changesSent

/-- Who leads goes on leading when no queue gets shorter and no side forgets anything. -/
theorem Aligned.leader_of (aligned : pair.Aligned codecs) (inbox : next.inbox = pair.inbox)
    (sent : ∀ s, (next.peer s).lastSent = (pair.peer s).lastSent)
    (overtaken : ∀ s, (next.peer s).overtaken = (pair.peer s).overtaken) :
    (∀ s, (next.peer s).lastSent = none) ∨ ∃ s, next.Leads s := by
  obtain silent | ⟨s, leads⟩ := aligned.leader
  · exact .inl fun s => (sent s).trans (silent s)
  · refine .inr ⟨s, ?_, ?_, ?_⟩
    · rw [overtaken, leads.ahead]
    · rw [inbox, leads.alone]
    · rw [inbox, overtaken]
      exact leads.heard

theorem Aligned.copy {contents : Contents} (aligned : pair.Aligned codecs)
    (careful : pair.Careful codecs (.copies side contents))
    (stepped : pair.step codecs (.copies side contents) = some next) : next.Aligned codecs := by
  obtain rfl := Option.some.inj stepped
  obtain ⟨whole, distinct, news⟩ := careful
  refine aligned.of_side rfl ((aligned.sound side).copy whole distinct news) ?_ ?_ ?_ ?_ ?_ ?_
  · exact (aligned.link side).congr rfl rfl rfl rfl
  · have link := aligned.link side.other
    rw [Side.other_other] at link
    exact link.congr rfl rfl rfl rfl
  · apply aligned.leader_of
    · rfl
    · exact update_field ClipboardPeer.lastSent rfl
    · exact update_field ClipboardPeer.overtaken rfl
  · rw [sinceCopy_copied pair.log _ rfl]
    exact Nat.zero_le _
  · exact not_mem_concat aligned.noEcho ClipboardEvent.noConfusion
  · exact not_mem_concat aligned.changesSent ClipboardEvent.noConfusion

theorem Aligned.poll (aligned : pair.Aligned codecs)
    (careful : pair.Careful codecs (.polls side true)) : (pair.poll codecs side).Aligned codecs := by
  obtain ⟨shown, grows⟩ := careful rfl
  have sound := aligned.sound side
  have link := aligned.link side.other
  rw [Side.other_other] at link
  obtain ⟨same, silent⟩ | ⟨new, sends⟩ := sound.poll_cases
  · rw [ClipboardPair.poll, silent]
    simp only [sound.not_missed same]
    refine aligned.of_side rfl (sound.pass same) ?_ ?_ ?_ ?_ ?_ ?_
    · exact (aligned.link side).congr rfl rfl rfl rfl
    · exact link.congr rfl rfl rfl rfl
    · apply aligned.leader_of
      · rfl
      · exact update_field ClipboardPeer.lastSent rfl
      · exact update_field ClipboardPeer.overtaken rfl
    · rw [sinceCopy_concat pair rfl ClipboardEvent.noConfusion]
      exact aligned.count side
    · exact not_mem_concat aligned.noEcho ClipboardEvent.noConfusion
    · refine not_mem_concat aligned.changesSent fun same => ?_
      cases same
  · have isOwn : (pair.peer side).isRemote = false :=
      Bool.eq_false_iff.mpr fun isRemote => new (shown (.inl isRemote))
    have alone : pair.inbox side = [] := by
      by_contra waiting
      exact new (shown (.inr waiting))
    have unsettled : (pair.peer side).settled codecs = false := by
      simp [ClipboardPeer.settled, isOwn, new]
    rw [ClipboardPair.poll, sends]
    refine aligned.of_side rfl (sound.send isOwn rfl of_decide_eq_true) ?_ ?_ ?_ ?_ ?_ ?_
    · change Link codecs _ (Function.update pair.inbox side.other _ side) _
      rw [Function.update_of_ne side.other_ne.symm]
      exact (aligned.link side).congr rfl rfl rfl rfl
    · change Link codecs _ (Function.update pair.inbox side.other _ side.other) _
      rw [Function.update_self]
      exact link.send grows rfl
    · refine .inr ⟨side, ?_, ?_, .inl ?_⟩
      · change (Function.update pair.peer side _ side).overtaken = false
        rw [Function.update_self]
        rfl
      · change Function.update pair.inbox side.other _ side = []
        rw [Function.update_of_ne side.other_ne.symm, alone]
      · change Function.update pair.inbox side.other _ side.other ≠ []
        rw [Function.update_self]
        exact List.append_ne_nil_of_right_ne_nil _ (List.cons_ne_nil _ _)
    · have count := aligned.count side
      rw [unsettled, Bool.toNat_false] at count
      rw [sinceCopy_concat pair rfl ClipboardEvent.noConfusion, ClipboardPeer.settled_sent rfl,
        List.countP_cons_of_pos rfl, Bool.toNat_true]
      omega
    · refine not_mem_concat aligned.noEcho fun same => ?_
      rw [isOwn] at same
      cases same
    · exact not_mem_concat aligned.changesSent ClipboardEvent.noConfusion

theorem Aligned.deliver {change : ClipboardChange} {rest : List ClipboardChange}
    (aligned : pair.Aligned codecs) (queue : pair.inbox side = change :: rest)
    (careful : pair.Careful codecs (.delivers side true)) :
    (pair.deliver codecs side change rest true).Aligned codecs := by
  have sound := aligned.sound side
  have receiving := aligned.link side
  have sending := aligned.link side.other
  rw [queue] at receiving
  rw [Side.other_other] at sending
  obtain ⟨contents, applied, effect⟩ := receiving.applied
  have distinct := careful.2 change (by rw [queue]; rfl) contents applied
  rw [ClipboardPair.deliver, effect]
  refine aligned.of_side rfl ?_ ?_ ?_ ?_ ?_ ?_ ?_
  · constructor
    · exact fun isOwn => by cases isOwn
    · exact fun _ => ⟨change.payload, rfl, applied⟩
    · exact fun first => by cases first
    · exact fun _ isOwn => by cases isOwn
    · exact distinct
    · exact sound.cleared
    · exact sound.sentOk
    · intro payload member
      obtain rfl := Option.some.inj member
      exact receiving.sendable change (.head _)
    · exact fun first => by cases first
  · change Link codecs _ (Function.update pair.inbox side rest side) _
    rw [Function.update_self]
    exact receiving.deliver rfl rfl
  · change Link codecs _ (Function.update pair.inbox side rest side.other) _
    rw [Function.update_of_ne side.other_ne]
    exact sending.congr rfl rfl rfl rfl
  · obtain silent | ⟨leader, leads⟩ := aligned.leader
    · refine .inl fun s => (update_field ClipboardPeer.lastSent ?_ s).trans (silent s)
      rfl
    · -- the leader has nothing on its way, so this is the other side
      obtain rfl : leader = side.other := by
        apply Side.eq_other_of_ne
        rintro rfl
        rw [leads.alone] at queue
        cases queue
      refine .inr ⟨side.other, ?_, ?_, .inr ?_⟩
      · change (Function.update pair.peer side _ side.other).overtaken = false
        rw [Function.update_of_ne side.other_ne, leads.ahead]
      · change Function.update pair.inbox side rest side.other = []
        rw [Function.update_of_ne side.other_ne, leads.alone]
      · change (Function.update pair.peer side _ side.other.other).overtaken = true
        rw [Side.other_other, Function.update_self]
  · have count := aligned.count side
    have settled := Bool.toNat_le ((pair.peer side).settled codecs)
    refine Nat.le_trans count (Nat.add_le_add_right ?_ _)
    exact settled
  · exact aligned.noEcho
  · exact aligned.changesSent

theorem Aligned.of_step {step : ClipboardStep} (aligned : pair.Aligned codecs)
    (careful : pair.Careful codecs step) (stepped : pair.step codecs step = some next) :
    next.Aligned codecs := by
  cases step with
  | copies side contents => exact aligned.copy careful stepped
  | polls side readable =>
      obtain rfl := Option.some.inj stepped
      cases readable with
      | false => exact aligned
      | true => exact aligned.poll careful
  | delivers side writable =>
      obtain rfl : writable = true := careful.1
      rw [ClipboardPair.step] at stepped
      split at stepped
      case h_1 => cases stepped
      case h_2 change rest queue =>
        obtain rfl := Option.some.inj stepped
        exact aligned.deliver queue careful

theorem Aligned.synced (aligned : pair.Aligned codecs) : pair.Synced codecs where
  noEcho := aligned.noEcho
  finite := by
    have count := aligned.count .left
    have left := Bool.toNat_le ((pair.peer .left).settled codecs)
    have right := Bool.toNat_le ((pair.peer Side.left.other).settled codecs)
    omega
  equal := quiet_equal aligned
  changesSent := aligned.changesSent

theorem aligned_start (config : Side → ClipboardSyncConfig) (contents : Side → Contents)
    (whole : ∀ side, (start config contents : ClipboardPair Hash).Whole codecs side
      (contents side)) : (start config contents : ClipboardPair Hash).Aligned codecs where
  sound side := by
    constructor
    · exact fun _ => whole side
    · exact fun isRemote => by cases isRemote
    · exact fun _ => rfl
    · exact fun overtaken => by cases overtaken
    · exact fun same => by cases same
    · exact fun was => by cases was
    · exact fun _ member => by cases member
    · exact fun _ member => by cases member
    · intro _ payload member
      cases member
  link side := by
    constructor
    · exact fun _ member => by cases member
    · rfl
    · exact List.pairwise_singleton _ _
    · exact fun seq member => List.mem_singleton.mp member ▸ UInt64.le_refl _
  leader := .inl fun _ => rfl
  count _ := Nat.zero_le _
  noEcho := List.not_mem_nil
  changesSent := List.not_mem_nil

/-- In every run in which no watcher gets to see what came from the other side, unless it sent
the same last, and none sends what would cross with a change on its way to it, nothing is
echoed and both clipboards end up the same. -/
theorem synced_of_careful (codecs : Codecs Hash) (config : Side → ClipboardSyncConfig)
    (contents : Side → Contents) (steps : List ClipboardStep) (pair : ClipboardPair Hash)
    (whole : ∀ side, (start config contents : ClipboardPair Hash).Whole codecs side
      (contents side))
    (careful : (start config contents).CarefulSteps codecs steps)
    (ran : (start config contents).run codecs steps = some pair) : pair.Synced codecs := by
  have aligned : pair.Aligned codecs :=
    careful.invariant Aligned.of_step (aligned_start config contents whole) ran
  exact aligned.synced

end ClipboardPair

namespace Sample

/-- The hash of a content is the content. -/
def plainCodecs : Codecs Bytes where
  encodePng _ _ _ := none
  decodePng _ := none
  blake3 := id
  lossless found := by cases found

def config : Side → ClipboardSyncConfig := fun _ => {}

def blank : Side → Contents := fun _ => {}

def hi : Contents where
  text := some "hi"

def ho : Contents where
  text := some "ho"

/-- The right user copies a text that the one of the left user overwrites before it is sent, and
copies it again. -/
def sharing : List ClipboardStep :=
  [.copies .left hi, .polls .left true, .copies .right ho, .delivers .right true,
    .copies .right ho, .polls .right true, .delivers .left true]

theorem sharing_careful :
    (ClipboardPair.start config blank).CarefulSteps plainCodecs sharing := by
  refine .cons ⟨rfl, fun same => ?_, fun _ => rfl⟩ rfl ?_
  · cases same
  refine .cons (fun _ => ⟨fun seen => ?_, by decide⟩) rfl ?_
  · obtain isRemote | waiting := seen
    · cases isRemote
    · exact absurd rfl waiting
  refine .cons ⟨rfl, fun same => ?_, fun _ => rfl⟩ rfl ?_
  · cases same
  refine .cons ⟨rfl, fun _ _ _ _ same => ?_⟩ rfl ?_
  · cases same
  refine .cons ⟨rfl, fun same => ?_, fun same => ?_⟩ rfl ?_
  · cases same
  · cases same
  refine .cons (fun _ => ⟨fun seen => ?_, by decide⟩) rfl ?_
  · obtain isRemote | waiting := seen
    · cases isRemote
    · exact absurd rfl waiting
  refine .cons ⟨rfl, fun change member contents applied same => ?_⟩ rfl trivial
  obtain rfl := Option.some.inj member
  obtain rfl := Option.some.inj applied
  exact absurd same (by decide)

theorem sharing_synced :
    ∃ pair, (ClipboardPair.start config blank).run plainCodecs sharing = some pair ∧
      pair.Synced plainCodecs ∧ pair.Quiet plainCodecs ∧
      ∀ side, (pair.peer side).contents = ho := by
  refine ⟨_, rfl, ClipboardPair.synced_of_careful plainCodecs config blank sharing _
    (fun _ => rfl) sharing_careful rfl, fun side => ?_, fun side => ?_⟩
  · cases side with
    | left => exact ⟨rfl, fun isOwn => by cases isOwn⟩
    | right => exact ⟨rfl, fun _ => rfl⟩
  · cases side <;> rfl

/-- The other peer polls before its user has copied anything, and sends the text back. -/
def echoing : List ClipboardStep :=
  [.copies .left hi, .polls .left true, .delivers .right true, .polls .right true]

theorem echo_not_synced :
    ¬ ∀ (codecs : Codecs Bytes) (config : Side → ClipboardSyncConfig)
        (contents : Side → Contents) (steps : List ClipboardStep) (pair : ClipboardPair Bytes),
        (ClipboardPair.start config contents).run codecs steps = some pair →
          pair.Synced codecs := by
  intro all
  have synced := all plainCodecs config blank echoing _ rfl
  exact synced.noEcho (by decide)

end Sample

end Qubox.Clipboard
