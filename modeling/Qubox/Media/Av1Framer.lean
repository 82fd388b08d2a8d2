import Qubox.Library.Checked
import Qubox.Media.Obu
import Qubox.Media.StreamFramer

/-!
# The framer of an AV1 stream

`drain_av1` cuts the buffer at the boundaries that `find_av1_obu_boundaries` gives: zero, and
the beginning and the end of every temporal delimiter. So a delimiter is an access unit of
its own, apart from the OBUs of its temporal unit.

A boundary is the end that a delimiter announces. When the rest of its payload is still to
come, it lies behind the buffer, and cutting there panics. So does looking for a size behind
a second header byte that is still to come.
-/

namespace Qubox.Av1

open AnnexB (MediaPacketizeError accessUnit)
open Transport (EncodedVideoAccessUnit)

/-! ## The framer -/

/-- An `AnnexBStreamFramer` with the codec AV1. -/
structure Av1StreamFramer where
  buffer : Bytes
  nextFrameId : UInt64
  nextTimestampMicros : UInt64
  frameDurationMicros : UInt64
  deriving DecidableEq

def packetizeAccessUnit (frameId timestampMicros : UInt64) (bytes : Bytes) :
    Except MediaPacketizeError EncodedVideoAccessUnit :=
  if bytes.isEmpty then .error { message := "AV1 access unit was empty" }
  else .ok (accessUnit .av1 frameId timestampMicros false [] bytes)

/-- The loop from a position on, with the boundaries that it has found. It panics when it has
no result. -/
def boundariesFrom (bytes : Bytes) (i : Nat) (boundaries : List Nat) : Option (List Nat) :=
  if i < bytes.length then
    match _read : readObu (bytes.drop i) with
    | .stop => some boundaries
    | .panics => none
    | .obu temporalDelimiter obuTotal =>
      boundariesFrom bytes (i + obuTotal)
        (if temporalDelimiter then boundaries ++ [i, i + obuTotal] else boundaries)
  else some boundaries
  termination_by bytes.length - i
  decreasing_by
    obtain ⟨obu, -, rfl, -⟩ := obu_of_readObu _read
    have := obu.length_pos
    omega

def findAv1ObuBoundaries (bytes : Bytes) : Option (List Nat) := boundariesFrom bytes 0 [0]

namespace Av1StreamFramer

def new (framerate : UInt32) : Except MediaPacketizeError Av1StreamFramer :=
  if framerate = 0 then .error { message := "framerate must be greater than zero" }
  else
    .ok {
      buffer := []
      nextFrameId := 0
      nextTimestampMicros := 0
      frameDurationMicros := 1000000 / framerate.toUInt64 }

def nextAccessUnit (framer : Av1StreamFramer) (bytes : Bytes) :
    Av1StreamFramer × Except MediaPacketizeError EncodedVideoAccessUnit :=
  ({ framer with
      nextFrameId := framer.nextFrameId + 1
      nextTimestampMicros := framer.nextTimestampMicros + framer.frameDurationMicros },
    packetizeAccessUnit framer.nextFrameId framer.nextTimestampMicros bytes)

/-- A framer and the access units it made, or the error that stopped it. There is no result
after a panic. -/
abbrev Framed := Option (Av1StreamFramer × Except MediaPacketizeError (List EncodedVideoAccessUnit))

/-- The loop of `drain_av1` over pairs of boundaries. -/
def cutAt (framer : Av1StreamFramer) :
    List (Nat × Nat) → List EncodedVideoAccessUnit → Framed
  | [], accessUnits => some (framer, .ok accessUnits)
  | (start, stop) :: pairs, accessUnits =>
    if start ≥ stop then framer.cutAt pairs accessUnits
    else
      match framer.buffer.slice? start stop with
      | none => none
      | some bytes =>
        match framer.nextAccessUnit bytes with
        | (framer, .ok unit) => framer.cutAt pairs (accessUnits ++ [unit])
        | (framer, .error e) => some (framer, .error e)

def drainAv1 (framer : Av1StreamFramer) : Framed :=
  match findAv1ObuBoundaries framer.buffer with
  | none => none
  | some boundaries =>
    if boundaries.length < 2 then some (framer, .ok [])
    else
      match framer.cutAt (boundaries.zip boundaries.tail) [] with
      | none => none
      | some (framer, .error e) => some (framer, .error e)
      | some (framer, .ok accessUnits) =>
        let consumed := boundaries.getLastD 0
        (framer.buffer.slice? 0 consumed).map fun _ =>
          ({ framer with buffer := framer.buffer.drop consumed }, .ok accessUnits)

def pushChunk (framer : Av1StreamFramer) (chunk : Bytes) : Framed :=
  drainAv1 { framer with buffer := framer.buffer ++ chunk }

def finish (framer : Av1StreamFramer) :
    Av1StreamFramer × Except MediaPacketizeError (Option EncodedVideoAccessUnit) :=
  if framer.buffer.isEmpty then (framer, .ok none)
  else
    let taken := { framer with buffer := [] }.nextAccessUnit framer.buffer
    (taken.1, taken.2.map some)

/-- The chunks one after the other, until one fails. -/
def pushAll (framer : Av1StreamFramer) : List Bytes → Framed
  | [] => some (framer, .ok [])
  | chunk :: chunks =>
    match framer.pushChunk chunk with
    | none => none
    | some (framer, .error e) => some (framer, .error e)
    | some (framer, .ok units) =>
      (framer.pushAll chunks).map fun later => (later.1, later.2.map (units ++ ·))

/-- The access units of all chunks and of `finish`. -/
def frameStream (framer : Av1StreamFramer) (chunks : List Bytes) :
    Option (Except MediaPacketizeError (List EncodedVideoAccessUnit)) :=
  (framer.pushAll chunks).map fun pushed => do
    let units ← pushed.2
    let last ← pushed.1.finish.2
    return units ++ last.toList

end Av1StreamFramer

/-! ## What is asked of it -/

/-- A temporal delimiter and other OBUs, one at least. -/
structure TemporalUnit where
  delimiter : Obu
  others : List Obu
  isDelimiter : delimiter.IsDelimiter
  nonempty : others ≠ []
  noDelimiters : ∀ obu ∈ others, ¬ obu.IsDelimiter

def TemporalUnit.bytes (unit : TemporalUnit) : Bytes :=
  unit.delimiter.bytes ++ unit.others.flatMap Obu.bytes

/-- No push panics, and of a sequence of temporal units each becomes one access unit. -/
structure FramesUnits (framer : Av1StreamFramer) (chunks : List Bytes) : Prop where
  total : framer.pushAll chunks ≠ none
  onePerUnit : ∀ units : List TemporalUnit, chunks.flatten = units.flatMap TemporalUnit.bytes →
    ∃ accessUnits, framer.frameStream chunks = some (.ok accessUnits) ∧
      accessUnits.map (·.bytes) = units.map TemporalUnit.bytes

/-- After some whole OBUs the bytes end in a header that announces a second byte, or in the
payload of a temporal delimiter. -/
def BadlyCut (bytes : Bytes) : Prop :=
  ∃ (obus : List Obu) (rest : Bytes), bytes = obus.flatMap Obu.bytes ++ rest ∧
    (CutHeader rest ∨ CutDelimiter rest)

/-! ## Whole OBUs -/

theorem length_of_append {obu other : Obu} {rest rest' : Bytes}
    (same : obu.bytes ++ rest = other.bytes ++ rest') :
    isTemporalDelimiter obu.header = isTemporalDelimiter other.header ∧
      obu.bytes.length = other.bytes.length := by
  have read := (readObu_bytes obu rest).symm.trans
    ((congrArg readObu same).trans (readObu_bytes other rest'))
  exact ObuRead.obu.inj read

theorem CutDelimiter.readObu {bytes : Bytes} (cut : CutDelimiter bytes) :
    ∃ total, readObu bytes = .obu true total ∧ bytes.length < total := by
  obtain ⟨obu, delimiter, ⟨rest, rfl⟩, before, less⟩ := cut
  refine ⟨obu.bytes.length, ?_, ?_⟩
  · rw [readObu_front, show isTemporalDelimiter obu.header = true from delimiter]
  · exact Nat.lt_of_le_of_ne before.length_le fun same => less (before.eq_of_length same)

/-- Whole OBUs in front do not matter. -/
theorem badlyCut_bytes (obu : Obu) (rest : Bytes) :
    BadlyCut (obu.bytes ++ rest) ↔ BadlyCut rest := by
  constructor
  · rintro ⟨obus, last, split, cut⟩
    cases obus with
    | nil =>
        have read := readObu_bytes obu rest
        rw [split, List.flatMap_nil, List.nil_append] at read
        rcases cut with header | delimiter
        · rw [readObu_eq_panics.mpr header] at read
          cases read
        · obtain ⟨total, other, less⟩ := delimiter.readObu
          have same := (ObuRead.obu.inj (read.symm.trans other)).2
          have whole := congrArg List.length split
          rw [List.flatMap_nil, List.nil_append, List.length_append] at whole
          omega
    | cons other obus =>
        rw [List.flatMap_cons, List.append_assoc] at split
        obtain ⟨-, rfl⟩ := List.append_inj split (length_of_append split).2
        exact ⟨obus, last, rfl, cut⟩
  · rintro ⟨obus, last, rfl, cut⟩
    exact ⟨obu :: obus, last, by rw [List.flatMap_cons, List.append_assoc], cut⟩

theorem badlyCut_flatMap (obus : List Obu) (rest : Bytes) :
    BadlyCut (obus.flatMap Obu.bytes ++ rest) ↔ BadlyCut rest := by
  induction obus with
  | nil => exact Iff.rfl
  | cons obu obus ih => rw [List.flatMap_cons, List.append_assoc, badlyCut_bytes, ih]

theorem not_badlyCut_of_stop {bytes : Bytes} (stops : readObu bytes = .stop) : ¬ BadlyCut bytes := by
  rintro ⟨obus, rest, rfl, cut⟩
  cases obus with
  | nil =>
      rw [List.flatMap_nil, List.nil_append] at stops
      rcases cut with header | delimiter
      · exact nomatch stops.symm.trans (readObu_eq_panics.mpr header)
      · obtain ⟨total, read, -⟩ := delimiter.readObu
        exact nomatch stops.symm.trans read
  | cons obu obus =>
      rw [List.flatMap_cons, List.append_assoc, readObu_bytes] at stops
      cases stops

/-- The bytes begin with no whole OBU. -/
def Incomplete (bytes : Bytes) : Prop := ∀ obu : Obu, ¬ obu.bytes <+: bytes

theorem Incomplete.badlyCut_iff {bytes : Bytes} (incomplete : Incomplete bytes) :
    BadlyCut bytes ↔ CutHeader bytes ∨ CutDelimiter bytes := by
  constructor
  · rintro ⟨obus, rest, rfl, cut⟩
    cases obus with
    | nil => exact cut
    | cons obu obus =>
        refine absurd ?_ (incomplete obu)
        rw [List.flatMap_cons, List.append_assoc]
        exact List.prefix_append _ _
  · exact fun cut => ⟨[], bytes, rfl, cut⟩

/-- Bytes are whole OBUs and something incomplete. -/
theorem exists_obus (bytes : Bytes) :
    ∃ (obus : List Obu) (rest : Bytes), bytes = obus.flatMap Obu.bytes ++ rest ∧
      Incomplete rest := by
  induction size : bytes.length using Nat.strongRecOn generalizing bytes with
  | ind n ih =>
      by_cases incomplete : Incomplete bytes
      · exact ⟨[], bytes, rfl, incomplete⟩
      · simp only [Incomplete, not_forall, not_not] at incomplete
        obtain ⟨obu, rest, rfl⟩ := incomplete
        have shorter : rest.length < n := by
          rw [← size, List.length_append]
          have := obu.length_pos
          omega
        obtain ⟨obus, last, rfl, incomplete⟩ := ih _ shorter rest rfl
        exact ⟨obu :: obus, last, by rw [List.flatMap_cons, List.append_assoc], incomplete⟩

/-! ## The boundaries -/

/-- The beginnings and ends of the delimiters among some OBUs. -/
def marks (i : Nat) : List Obu → List Nat
  | [] => []
  | obu :: obus =>
    (if isTemporalDelimiter obu.header then [i, i + obu.bytes.length] else []) ++
      marks (i + obu.bytes.length) obus

/-- They lie between the OBUs. -/
theorem mem_marks {i m : Nat} {obus : List Obu} (member : m ∈ marks i obus) :
    ∃ before after, obus = before ++ after ∧ m = i + (before.flatMap Obu.bytes).length := by
  induction obus generalizing i with
  | nil => cases member
  | cons obu obus ih =>
      rcases List.mem_append.mp member with own | later
      · split at own
        case isTrue =>
          rcases List.mem_pair.mp own with rfl | rfl
          · exact ⟨[], obu :: obus, rfl, rfl⟩
          · refine ⟨[obu], obus, rfl, ?_⟩
            rw [List.flatMap_cons, List.flatMap_nil, List.append_nil]
        case isFalse => cases own
      · obtain ⟨before, after, rfl, rfl⟩ := ih later
        refine ⟨obu :: before, after, rfl, ?_⟩
        rw [List.flatMap_cons, List.length_append, Nat.add_assoc]

section Boundaries

variable {bytes : Bytes} {i : Nat}

theorem inside_of_readObu (read : readObu (bytes.drop i) ≠ .stop) : i < bytes.length := by
  by_contra behind
  rw [List.drop_eq_nil_of_le (Nat.le_of_not_lt behind)] at read
  exact read rfl

theorem boundariesFrom_stop (read : readObu (bytes.drop i) = .stop) (boundaries : List Nat) :
    boundariesFrom bytes i boundaries = some boundaries := by
  rw [boundariesFrom]
  split
  · split <;> simp_all
  · rfl

theorem boundariesFrom_panics (read : readObu (bytes.drop i) = .panics) (boundaries : List Nat) :
    boundariesFrom bytes i boundaries = none := by
  rw [boundariesFrom, if_pos (inside_of_readObu (by rw [read]; nofun))]
  split <;> simp_all

theorem boundariesFrom_obu {temporalDelimiter : Bool} {total : Nat}
    (read : readObu (bytes.drop i) = .obu temporalDelimiter total) (boundaries : List Nat) :
    boundariesFrom bytes i boundaries = boundariesFrom bytes (i + total)
      (if temporalDelimiter then boundaries ++ [i, i + total] else boundaries) := by
  rw [boundariesFrom, if_pos (inside_of_readObu (by rw [read]; nofun))]
  split <;> simp_all

theorem boundariesFrom_end (behind : bytes.length ≤ i) (boundaries : List Nat) :
    boundariesFrom bytes i boundaries = some boundaries := by
  rw [boundariesFrom, if_neg (Nat.not_lt_of_le behind)]

/-- Whole OBUs are passed, and their delimiters noted. -/
theorem boundariesFrom_obus {obus : List Obu} {rest : Bytes}
    (here : bytes.drop i = obus.flatMap Obu.bytes ++ rest) (boundaries : List Nat) :
    boundariesFrom bytes i boundaries =
      boundariesFrom bytes (i + (obus.flatMap Obu.bytes).length) (boundaries ++ marks i obus) := by
  induction obus generalizing i boundaries with
  | nil =>
      rw [marks, List.append_nil]
      rfl
  | cons obu obus ih =>
      rw [List.flatMap_cons, List.append_assoc] at here
      have next : bytes.drop (i + obu.bytes.length) = obus.flatMap Obu.bytes ++ rest := by
        rw [← List.drop_drop, here, List.drop_left]
      rw [boundariesFrom_obu (by rw [here, readObu_bytes]), ih next, marks, List.flatMap_cons,
        List.length_append, Nat.add_assoc]
      congr 1
      split
      · rw [List.append_assoc]
      · rfl

end Boundaries

/-- What `find_av1_obu_boundaries` finds behind the whole OBUs: nothing, or the end of a delimiter
that is not all there; or it panics there. -/
theorem findAv1ObuBoundaries_cases (obus : List Obu) {rest : Bytes} (incomplete : Incomplete rest) :
    (findAv1ObuBoundaries (obus.flatMap Obu.bytes ++ rest) = none ∧ CutHeader rest) ∨
      (CutDelimiter rest ∧ ∃ beyond, rest.length < beyond ∧
        findAv1ObuBoundaries (obus.flatMap Obu.bytes ++ rest) = some (0 :: (marks 0 obus ++
          [(obus.flatMap Obu.bytes).length, (obus.flatMap Obu.bytes).length + beyond]))) ∨
      (¬ CutHeader rest ∧ ¬ CutDelimiter rest ∧
        findAv1ObuBoundaries (obus.flatMap Obu.bytes ++ rest) = some (0 :: marks 0 obus)) := by
  set bytes := obus.flatMap Obu.bytes ++ rest
  set size := (obus.flatMap Obu.bytes).length
  have there : bytes.drop size = rest := List.drop_left
  have found : findAv1ObuBoundaries bytes = boundariesFrom bytes size (0 :: marks 0 obus) := by
    rw [findAv1ObuBoundaries, boundariesFrom_obus (i := 0) rfl, Nat.zero_add]
    rfl
  rw [found]
  cases read : readObu rest with
  | panics =>
      refine .inl ⟨?_, readObu_eq_panics.mp read⟩
      exact boundariesFrom_panics (there ▸ read) _
  | stop =>
      refine .inr (.inr ⟨?_, ?_, boundariesFrom_stop (there ▸ read) _⟩)
      · intro cut
        rw [readObu_eq_panics.mpr cut] at read
        cases read
      · intro cut
        obtain ⟨total, other, -⟩ := cut.readObu
        rw [read] at other
        cases other
  | obu temporalDelimiter total =>
      obtain ⟨obu, header, rfl, front, whole⟩ := obu_of_readObu read
      have before := whole.resolve_left (incomplete obu)
      have less : rest.length < obu.bytes.length := by
        apply Nat.lt_of_le_of_ne before.length_le
        intro same
        exact incomplete obu ⟨[], (List.append_nil _).trans (before.eq_of_length same).symm⟩
      have behind : bytes.length ≤ size + obu.bytes.length := by
        rw [show bytes.length = size + rest.length from List.length_append]
        omega
      rw [boundariesFrom_obu (there ▸ read), boundariesFrom_end behind]
      cases temporalDelimiter with
      | true =>
          refine .inr (.inl ⟨⟨obu, header, front, before, ?_⟩, _, less, rfl⟩)
          exact fun same => Nat.ne_of_lt less (congrArg List.length same)
      | false =>
          refine .inr (.inr ⟨?_, ?_, rfl⟩)
          · intro cut
            rw [readObu_eq_panics.mpr cut] at read
            cases read
          · intro cut
            obtain ⟨total, other, -⟩ := cut.readObu
            rw [read] at other
            cases other

/-! ## Cutting -/

namespace Av1StreamFramer

variable {framer : Av1StreamFramer}

/-- Bytes become an access unit, and the buffer stays. -/
theorem nextAccessUnit_ok (framer : Av1StreamFramer) {bytes : Bytes} (nonempty : bytes ≠ []) :
    ∃ (next : Av1StreamFramer) (unit : EncodedVideoAccessUnit),
      framer.nextAccessUnit bytes = (next, .ok unit) ∧ next.buffer = framer.buffer ∧
        unit.bytes = bytes := by
  rw [nextAccessUnit, packetizeAccessUnit, if_neg (mt List.isEmpty_iff.mp nonempty)]
  exact ⟨_, _, rfl, rfl, rfl⟩

/-- A pair of boundaries in the buffer cuts an access unit out of it. -/
theorem cutAt_cons {start stop : Nat} (order : start < stop) (inside : stop ≤ framer.buffer.length)
    (pairs : List (Nat × Nat)) (accessUnits : List EncodedVideoAccessUnit) :
    ∃ (next : Av1StreamFramer) (unit : EncodedVideoAccessUnit), next.buffer = framer.buffer ∧
      unit.bytes = (framer.buffer.drop start).take (stop - start) ∧
      framer.cutAt ((start, stop) :: pairs) accessUnits =
        next.cutAt pairs (accessUnits ++ [unit]) := by
  have slice := List.slice?_eq (Nat.le_of_lt order) inside
  have nonempty : (framer.buffer.drop start).take (stop - start) ≠ [] := by
    apply List.ne_nil_of_length_pos
    rw [List.length_take, List.length_drop]
    omega
  obtain ⟨next, unit, made, same, bytes⟩ := framer.nextAccessUnit_ok nonempty
  refine ⟨next, unit, same, bytes, ?_⟩
  rw [cutAt, if_neg (Nat.not_le_of_lt order), slice]
  dsimp only
  rw [made]

theorem cutAt_skip {start stop : Nat} (order : stop ≤ start) (pairs : List (Nat × Nat))
    (accessUnits : List EncodedVideoAccessUnit) :
    framer.cutAt ((start, stop) :: pairs) accessUnits = framer.cutAt pairs accessUnits := by
  rw [cutAt, if_pos order]

theorem cutAt_beyond {start stop : Nat} (order : start < stop)
    (beyond : framer.buffer.length < stop) (pairs : List (Nat × Nat))
    (accessUnits : List EncodedVideoAccessUnit) :
    framer.cutAt ((start, stop) :: pairs) accessUnits = none := by
  have outside : framer.buffer.slice? start stop = none :=
    if_neg fun inside => Nat.not_le_of_lt beyond inside.2
  rw [cutAt, if_neg (Nat.not_le_of_lt order), outside]

/-- A boundary behind the buffer makes the cutting panic. -/
theorem cutAt_eq_none {pairs : List (Nat × Nat)} {start stop : Nat} (member : (start, stop) ∈ pairs)
    (order : start < stop) (beyond : framer.buffer.length < stop)
    (accessUnits : List EncodedVideoAccessUnit) : framer.cutAt pairs accessUnits = none := by
  induction pairs generalizing framer accessUnits with
  | nil => cases member
  | cons pair pairs ih =>
      obtain ⟨first, second⟩ := pair
      rcases List.mem_cons.mp member with same | member
      · cases same
        exact cutAt_beyond order beyond pairs accessUnits
      · rcases Nat.lt_or_ge first second with proper | empty
        · rcases Nat.lt_or_ge framer.buffer.length second with outside | inside
          · exact cutAt_beyond proper outside pairs accessUnits
          · obtain ⟨next, unit, same, -, cut⟩ := cutAt_cons proper inside pairs accessUnits
            rw [cut]
            apply ih member
            rw [same]
            exact beyond
        · rw [cutAt_skip empty]
          exact ih member beyond accessUnits

/-- Boundaries in the buffer cut it without a panic. -/
theorem cutAt_ok {pairs : List (Nat × Nat)} (inside : ∀ pair ∈ pairs, pair.2 ≤ framer.buffer.length)
    (accessUnits : List EncodedVideoAccessUnit) :
    ∃ (last : Av1StreamFramer) (units : List EncodedVideoAccessUnit),
      framer.cutAt pairs accessUnits = some (last, .ok units) ∧ last.buffer = framer.buffer := by
  induction pairs generalizing framer accessUnits with
  | nil => exact ⟨framer, accessUnits, rfl, rfl⟩
  | cons pair pairs ih =>
      obtain ⟨start, stop⟩ := pair
      have first := inside _ List.mem_cons_self
      have others : ∀ pair ∈ pairs, pair.2 ≤ framer.buffer.length :=
        fun pair member => inside pair (.tail _ member)
      rcases Nat.lt_or_ge start stop with proper | empty
      · obtain ⟨next, unit, same, -, cut⟩ := cutAt_cons proper first pairs accessUnits
        have stays : ∀ pair ∈ pairs, pair.2 ≤ next.buffer.length := by rwa [same]
        obtain ⟨last, units, done, buffer⟩ := ih stays (accessUnits ++ [unit])
        exact ⟨last, units, cut.trans done, buffer.trans same⟩
      · rw [cutAt_skip empty]
        exact ih others accessUnits

/-- What has been cut stays in front. -/
theorem cutAt_extends {pairs : List (Nat × Nat)} {accessUnits units : List EncodedVideoAccessUnit}
    {last : Av1StreamFramer} (cut : framer.cutAt pairs accessUnits = some (last, .ok units)) :
    accessUnits <+: units := by
  induction pairs generalizing framer accessUnits with
  | nil =>
      cases cut
      exact List.prefix_rfl
  | cons pair pairs ih =>
      obtain ⟨start, stop⟩ := pair
      rcases Nat.lt_or_ge start stop with proper | empty
      · rcases Nat.lt_or_ge framer.buffer.length stop with outside | inside
        · rw [cutAt_beyond proper outside] at cut
          cases cut
        · obtain ⟨next, unit, -, -, more⟩ := cutAt_cons proper inside pairs accessUnits
          rw [more] at cut
          exact (List.prefix_append _ _).trans (ih cut)
      · rw [cutAt_skip empty] at cut
        exact ih cut

/-! ## Draining -/

theorem drainAv1_panics (found : findAv1ObuBoundaries framer.buffer = none) :
    framer.drainAv1 = none := by
  rw [drainAv1, found]

theorem drainAv1_unmarked (found : findAv1ObuBoundaries framer.buffer = some [0]) :
    framer.drainAv1 = some (framer, .ok []) := by
  rw [drainAv1, found]
  rfl

/-- The end of a delimiter that is not all there lies behind the buffer. -/
theorem drainAv1_beyond {marked : List Nat} {start stop : Nat}
    (found : findAv1ObuBoundaries framer.buffer = some (0 :: (marked ++ [start, stop])))
    (order : start < stop) (beyond : framer.buffer.length < stop) : framer.drainAv1 = none := by
  have pair : (start, stop) ∈ (0 :: (marked ++ [start, stop])).zip (marked ++ [start, stop]) := by
    have ends : (0 :: (marked ++ [start, stop])).zip (marked ++ [start, stop]) =
        ((0 :: marked).zip (marked ++ [start])) ++ [(start, stop)] := by
      have halves : 0 :: (marked ++ [start, stop]) = (0 :: marked) ++ [start, stop] := rfl
      have later : marked ++ [start, stop] = (marked ++ [start]) ++ [stop] := by
        rw [List.append_assoc]
        rfl
      rw [halves, later, List.zip_append (by rw [List.length_append]; rfl)]
      rfl
    rw [ends]
    exact List.mem_append_right _ List.mem_cons_self
  have long : ¬ (0 :: (marked ++ [start, stop])).length < 2 := by
    rw [List.length_cons, List.length_append]
    exact Nat.not_lt_of_le (by simp)
  rw [drainAv1, found]
  dsimp only
  rw [if_neg long, List.tail_cons, cutAt_eq_none pair order beyond]

/-- With all boundaries in the buffer it is cut, and drained up to the last of them. -/
theorem drainAv1_marked {marked : List Nat}
    (found : findAv1ObuBoundaries framer.buffer = some (0 :: marked))
    (inside : ∀ m ∈ marked, m ≤ framer.buffer.length) :
    ∃ (last : Av1StreamFramer) (units : List EncodedVideoAccessUnit),
      framer.drainAv1 = some (last, .ok units) ∧
        last.buffer = framer.buffer.drop ((0 :: marked).getLastD 0) := by
  rw [drainAv1, found]
  dsimp only
  split
  case isTrue short =>
    cases marked with
    | nil => exact ⟨framer, [], rfl, rfl⟩
    | cons m marked =>
        rw [List.length_cons, List.length_cons] at short
        omega
  case isFalse =>
    have pairs : ∀ pair ∈ (0 :: marked).zip marked, pair.2 ≤ framer.buffer.length :=
      fun pair member => inside _ (List.of_mem_zip member).2
    obtain ⟨last, units, cut, same⟩ := cutAt_ok pairs []
    have consumed : (0 :: marked).getLastD 0 ≤ framer.buffer.length := by
      rw [List.getLastD_cons]
      rcases List.mem_cons.mp (List.getLastD_mem_cons (l := marked) (a := 0)) with zero | member
      · rw [zero]
        exact Nat.zero_le _
      · exact inside _ member
    rw [List.tail_cons, cut]
    dsimp only
    rw [same, List.slice?_eq (Nat.zero_le _) consumed]
    exact ⟨_, units, rfl, rfl⟩

/-- Draining panics exactly with a badly cut buffer, and takes whole OBUs off others. -/
theorem drainAv1_cases (framer : Av1StreamFramer) :
    (framer.drainAv1 = none ∧ BadlyCut framer.buffer) ∨
      (¬ BadlyCut framer.buffer ∧ ∃ (last : Av1StreamFramer) (units : List EncodedVideoAccessUnit)
        (obus : List Obu), framer.drainAv1 = some (last, .ok units) ∧
          framer.buffer = obus.flatMap Obu.bytes ++ last.buffer) := by
  obtain ⟨obus, rest, split, incomplete⟩ := exists_obus framer.buffer
  have badly : BadlyCut framer.buffer ↔ CutHeader rest ∨ CutDelimiter rest := by
    rw [split, badlyCut_flatMap, incomplete.badlyCut_iff]
  rcases findAv1ObuBoundaries_cases obus incomplete with
    ⟨found, header⟩ | ⟨delimiter, beyond, outside, found⟩ | ⟨noHeader, noDelimiter, found⟩
  · rw [← split] at found
    exact .inl ⟨drainAv1_panics found, badly.mpr (.inl header)⟩
  · rw [← split] at found
    refine .inl ⟨drainAv1_beyond found ?_ ?_, badly.mpr (.inr delimiter)⟩
    · exact Nat.lt_add_of_pos_right (Nat.zero_lt_of_lt outside)
    · rw [split, List.length_append]
      exact Nat.add_lt_add_left outside _
  · rw [← split] at found
    refine .inr ⟨mt badly.mp (not_or.mpr ⟨noHeader, noDelimiter⟩), ?_⟩
    have inside : ∀ m ∈ marks 0 obus, m ≤ framer.buffer.length := by
      intro m member
      obtain ⟨before, after, rfl, rfl⟩ := mem_marks member
      rw [split, List.flatMap_append, List.length_append, List.length_append]
      omega
    obtain ⟨last, units, drained, buffer⟩ := drainAv1_marked found inside
    obtain ⟨before, after, parts, consumed⟩ : ∃ before after, obus = before ++ after ∧
        (0 :: marks 0 obus).getLastD 0 = (before.flatMap Obu.bytes).length := by
      rw [List.getLastD_cons]
      rcases List.mem_cons.mp (List.getLastD_mem_cons (l := marks 0 obus) (a := 0)) with
        zero | member
      · exact ⟨[], obus, rfl, zero⟩
      · obtain ⟨before, after, parts, size⟩ := mem_marks member
        exact ⟨before, after, parts, size.trans (Nat.zero_add _)⟩
    refine ⟨last, units, before, drained, ?_⟩
    rw [buffer, consumed, split, parts, List.flatMap_append, List.append_assoc, List.drop_left]

/-! ## No panic -/

/-- The pushes panic exactly if the bytes are badly cut after one of them. -/
theorem pushAll_eq_none_iff (framer : Av1StreamFramer) (fine : ¬ BadlyCut framer.buffer)
    (chunks : List Bytes) :
    framer.pushAll chunks = none ↔ ∃ k, BadlyCut (framer.buffer ++ (chunks.take k).flatten) := by
  induction chunks generalizing framer with
  | nil =>
      refine iff_of_false nofun ?_
      rintro ⟨k, badly⟩
      rw [List.take_nil, List.flatten_nil, List.append_nil] at badly
      exact fine badly
  | cons chunk chunks ih =>
      have later (k : Nat) : framer.buffer ++ ((chunk :: chunks).take (k + 1)).flatten =
          (framer.buffer ++ chunk) ++ (chunks.take k).flatten := by
        rw [List.take_succ_cons, List.flatten_cons, List.append_assoc]
      rw [pushAll, pushChunk]
      rcases drainAv1_cases { framer with buffer := framer.buffer ++ chunk } with
        ⟨panics, badly⟩ | ⟨whole, next, units, obus, drained, split⟩
      · rw [panics]
        refine iff_of_true rfl ⟨1, ?_⟩
        rw [later 0, List.take_zero, List.flatten_nil, List.append_nil]
        exact badly
      · have split' : framer.buffer ++ chunk = obus.flatMap Obu.bytes ++ next.buffer := split
        have moved (rest : Bytes) :
            BadlyCut (framer.buffer ++ chunk ++ rest) ↔ BadlyCut (next.buffer ++ rest) := by
          rw [split', List.append_assoc, badlyCut_flatMap]
        have fine' : ¬ BadlyCut next.buffer := by
          intro badly
          apply whole
          show BadlyCut (framer.buffer ++ chunk)
          rwa [split', badlyCut_flatMap]
        rw [drained]
        dsimp only
        rw [Option.map_eq_none_iff, ih next fine']
        constructor
        · rintro ⟨k, badly⟩
          refine ⟨k + 1, ?_⟩
          rw [later, moved]
          exact badly
        · rintro ⟨k, badly⟩
          cases k with
          | zero =>
              rw [List.take_zero, List.flatten_nil, List.append_nil] at badly
              exact absurd badly fine
          | succ k =>
              rw [later, moved] at badly
              exact ⟨k, badly⟩

/-! ## The first access unit -/

/-- While the first OBU is not all there, nothing comes out. -/
theorem drainAv1_part {obu : Obu} (part : framer.buffer <+: obu.bytes)
    (less : framer.buffer ≠ obu.bytes) :
    framer.drainAv1 = none ∨ framer.drainAv1 = some (framer, .ok []) := by
  have incomplete : Incomplete framer.buffer := by
    rintro other ⟨rest, whole⟩
    obtain ⟨more, all⟩ := part
    apply less
    have same : other.bytes ++ (rest ++ more) = obu.bytes ++ [] := by
      rw [← List.append_assoc, whole, all, List.append_nil]
    have length := (length_of_append same).2
    apply List.IsPrefix.eq_of_length ⟨more, all⟩
    apply Nat.le_antisymm
    · exact List.IsPrefix.length_le ⟨more, all⟩
    · rw [← length, ← whole, List.length_append]
      exact Nat.le_add_right _ _
  have cases := findAv1ObuBoundaries_cases [] incomplete
  rw [List.flatMap_nil, List.nil_append] at cases
  rcases cases with ⟨found, -⟩ | ⟨-, beyond, outside, found⟩ | ⟨-, -, found⟩
  · exact .inl (drainAv1_panics found)
  · refine .inl (drainAv1_beyond found ?_ ?_)
    · exact Nat.lt_add_of_pos_right (Nat.zero_lt_of_lt outside)
    · exact Nat.lt_of_lt_of_le outside (Nat.le_add_left _ _)
  · exact .inr (drainAv1_unmarked found)

/-- A delimiter in front comes out as an access unit. -/
theorem drainAv1_delimiter {obu : Obu} {rest : Bytes} (delimiter : obu.IsDelimiter)
    (front : framer.buffer = obu.bytes ++ rest) {last : Av1StreamFramer}
    {units : List EncodedVideoAccessUnit} (drained : framer.drainAv1 = some (last, .ok units)) :
    ∃ unit others, units = unit :: others ∧ unit.bytes = obu.bytes := by
  obtain ⟨obus, tail, split, incomplete⟩ := exists_obus framer.buffer
  cases obus with
  | nil =>
      refine absurd ?_ (incomplete obu)
      rw [List.flatMap_nil, List.nil_append] at split
      rw [← split, front]
      exact List.prefix_append _ _
  | cons other obus =>
      have same : other.bytes ++ (obus.flatMap Obu.bytes ++ tail) = obu.bytes ++ rest := by
        rw [← List.append_assoc, ← List.flatMap_cons, ← split, front]
      obtain ⟨header, length⟩ := length_of_append same
      have bytes := (List.append_inj same length).1
      have mark : isTemporalDelimiter other.header = true := header.trans delimiter
      obtain ⟨marked, found⟩ : ∃ marked, findAv1ObuBoundaries framer.buffer =
          some (0 :: 0 :: obu.bytes.length :: marked) := by
        have first : marks 0 (other :: obus) =
            0 :: obu.bytes.length :: marks (0 + other.bytes.length) obus := by
          rw [marks, if_pos mark, Nat.zero_add, length]
          rfl
        rcases findAv1ObuBoundaries_cases (other :: obus) incomplete with
          ⟨found, header⟩ | ⟨-, beyond, -, found⟩ | ⟨-, -, found⟩
        · have panics := drainAv1_panics (split ▸ found : findAv1ObuBoundaries framer.buffer = none)
          rw [panics] at drained
          cases drained
        · rw [← split, first] at found
          exact ⟨_, found⟩
        · rw [← split, first] at found
          exact ⟨_, found⟩
      have inside : obu.bytes.length ≤ framer.buffer.length := by
        rw [front, List.length_append]
        exact Nat.le_add_right _ _
      obtain ⟨next, unit, -, unitBytes, cut⟩ := cutAt_cons obu.length_pos inside
        ((obu.bytes.length :: marked).zip marked) []
      rw [drainAv1, found] at drained
      dsimp only at drained
      rw [if_neg (by simp), List.tail_cons, List.zip_cons_cons, List.zip_cons_cons,
        cutAt_skip (Nat.le_refl 0), cut] at drained
      split at drained
      case h_1 => cases drained
      case h_2 => cases drained
      case h_3 accessUnits made =>
        obtain ⟨_, -, result⟩ := Option.map_eq_some_iff.mp drained
        obtain ⟨others, rfl⟩ := cutAt_extends made
        cases result
        refine ⟨unit, others, rfl, ?_⟩
        rw [unitBytes, front, List.drop_zero, Nat.sub_zero, List.take_left]

/-- The first access unit of a stream that begins with a delimiter is the delimiter alone, in
whatever chunks it comes. -/
theorem pushAll_delimiter {obu : Obu} {rest : Bytes} (delimiter : obu.IsDelimiter)
    {chunks : List Bytes} (part : framer.buffer <+: obu.bytes) (less : framer.buffer ≠ obu.bytes)
    (all : framer.buffer ++ chunks.flatten = obu.bytes ++ rest) {last : Av1StreamFramer}
    {units : List EncodedVideoAccessUnit} (pushed : framer.pushAll chunks = some (last, .ok units)) :
    ∃ unit others, units = unit :: others ∧ unit.bytes = obu.bytes := by
  induction chunks generalizing framer units with
  | nil =>
      have whole : obu.bytes <+: framer.buffer := ⟨rest, by rw [← all]; exact List.append_nil _⟩
      exact absurd (part.eq_of_length_le whole.length_le) less
  | cons chunk chunks ih =>
      rw [List.flatten_cons, ← List.append_assoc] at all
      rw [pushAll] at pushed
      split at pushed
      case h_1 => cases pushed
      case h_2 => cases pushed
      case h_3 next first drained =>
        obtain ⟨later, more, result⟩ := Option.map_eq_some_iff.mp pushed
        obtain ⟨last', moreUnits⟩ := later
        cases moreUnits with
        | error e => cases result
        | ok moreUnits =>
            cases result
            rcases List.prefix_or_prefix_of_prefix ⟨rest, rfl⟩
              (⟨_, all⟩ : framer.buffer ++ chunk <+: obu.bytes ++ rest) with front | short
            · obtain ⟨behind, split⟩ := front
              obtain ⟨unit, others, rfl, bytes⟩ := drainAv1_delimiter delimiter split.symm drained
              exact ⟨unit, others ++ moreUnits, rfl, bytes⟩
            · by_cases same : framer.buffer ++ chunk = obu.bytes
              · have split : framer.buffer ++ chunk = obu.bytes ++ [] := by
                  rw [same, List.append_nil]
                obtain ⟨unit, others, rfl, bytes⟩ := drainAv1_delimiter delimiter split drained
                exact ⟨unit, others ++ moreUnits, rfl, bytes⟩
              · have parted : framer.pushChunk chunk = none ∨ framer.pushChunk chunk =
                    some ({ framer with buffer := framer.buffer ++ chunk }, .ok []) :=
                  drainAv1_part short same
                rcases parted with panics | nothing
                · exact nomatch panics.symm.trans drained
                · cases nothing.symm.trans drained
                  exact ih short same all more

/-- Without bytes there are no access units. -/
theorem frameStream_nil (empty : framer.buffer = []) {chunks : List Bytes}
    (none : ∀ chunk ∈ chunks, chunk = []) : framer.frameStream chunks = some (.ok []) := by
  have pushed : framer.pushAll chunks = some (framer, .ok []) := by
    induction chunks with
    | nil => rfl
    | cons chunk chunks ih =>
        have unmarked : findAv1ObuBoundaries framer.buffer = some [0] := by
          rw [findAv1ObuBoundaries, boundariesFrom_end (by rw [empty]; exact Nat.le_refl 0)]
        have same : ({ framer with buffer := framer.buffer ++ chunk } : Av1StreamFramer) = framer := by
          rw [none chunk List.mem_cons_self, List.append_nil]
        rw [pushAll, pushChunk, same, drainAv1_unmarked unmarked]
        dsimp only
        rw [ih fun chunk member => none chunk (.tail _ member)]
        rfl
  rw [frameStream, pushed, Option.map_some, finish, empty]
  rfl

end Av1StreamFramer

/-! ## Temporal units -/

theorem TemporalUnit.others_ne_nil (unit : TemporalUnit) : unit.others.flatMap Obu.bytes ≠ [] := by
  obtain ⟨obu, others, split⟩ := List.exists_cons_of_ne_nil unit.nonempty
  rw [split, List.flatMap_cons]
  exact List.append_ne_nil_of_left_ne_nil (List.ne_nil_of_length_pos obu.length_pos) _

/-- There are no temporal units of which the framer makes one access unit each. -/
theorem FramesUnits.eq_nil {framer : Av1StreamFramer} {chunks : List Bytes}
    (frames : FramesUnits framer chunks) (empty : framer.buffer = []) {units : List TemporalUnit}
    (split : chunks.flatten = units.flatMap TemporalUnit.bytes) : units = [] := by
  obtain ⟨accessUnits, framed, bytes⟩ := frames.onePerUnit units split
  cases units with
  | nil => rfl
  | cons unit units =>
      exfalso
      obtain ⟨⟨last, result⟩, pushed, whole⟩ := Option.map_eq_some_iff.mp framed
      cases result with
      | error e => cases whole
      | ok cut =>
          have all : framer.buffer ++ chunks.flatten = unit.delimiter.bytes ++
              (unit.others.flatMap Obu.bytes ++ units.flatMap TemporalUnit.bytes) := by
            rw [empty, split, List.nil_append, List.flatMap_cons, TemporalUnit.bytes,
              List.append_assoc]
          have nonempty := List.ne_nil_of_length_pos unit.delimiter.length_pos
          obtain ⟨first, others, rfl, firstBytes⟩ := Av1StreamFramer.pushAll_delimiter
            unit.isDelimiter (empty ▸ List.nil_prefix) (empty ▸ nonempty.symm) all pushed
          cases finished : last.finish.2 with
          | error e =>
              simp only [finished] at whole
              cases whole
          | ok tail =>
              simp only [finished] at whole
              cases whole
              have same : first.bytes = unit.bytes := (List.cons.inj bytes).1
              rw [firstBytes, TemporalUnit.bytes, List.self_eq_append_right] at same
              exact unit.others_ne_nil same

/-- Pushing never panics and makes one access unit of each temporal unit, exactly if the bytes
are not badly cut after any chunk and are not those of temporal units. -/
theorem framesUnits_iff {framerate : UInt32} {framer : Av1StreamFramer}
    (started : Av1StreamFramer.new framerate = .ok framer) (chunks : List Bytes) :
    FramesUnits framer chunks ↔ (∀ k, ¬ BadlyCut (chunks.take k).flatten) ∧
      ∀ units : List TemporalUnit, chunks.flatten = units.flatMap TemporalUnit.bytes →
        units = [] := by
  have empty : framer.buffer = [] := by
    rw [Av1StreamFramer.new] at started
    split at started
    · cases started
    · cases started
      rfl
  have fine : ¬ BadlyCut framer.buffer := by
    rw [empty]
    exact not_badlyCut_of_stop rfl
  have panics := framer.pushAll_eq_none_iff fine chunks
  simp only [empty, List.nil_append] at panics
  constructor
  · intro frames
    exact ⟨not_exists.mp (mt panics.mpr frames.total), fun units => frames.eq_nil empty⟩
  · rintro ⟨uncut, unitless⟩
    refine ⟨mt panics.mp (not_exists.mpr uncut), fun units split => ?_⟩
    obtain rfl := unitless units split
    exact ⟨[], framer.frameStream_nil empty (List.flatten_eq_nil_iff.mp split), rfl⟩

namespace Sample

def framer : Av1StreamFramer := ⟨[], 0, 0, 16666⟩

/-- A temporal delimiter without payload and a sequence header with one byte. -/
def smallUnit : TemporalUnit where
  delimiter := ⟨[0, 0, 1], 0x12, [], [0], [], by decide, by decide, by decide, .last (by decide),
    by decide, by decide⟩
  others := [⟨[0, 0, 1], 0x0A, [], [1], [0x55], by decide, by decide, by decide,
    .last (by decide), by decide, by decide⟩]
  isDelimiter := by decide
  nonempty := by decide
  noDelimiters := by decide

theorem startCode_framesUnits : FramesUnits framer [[0, 0, 1]] := by
  have started : Av1StreamFramer.new 60 = .ok framer := rfl
  refine (framesUnits_iff started [[0, 0, 1]]).mpr ⟨?_, ?_⟩
  · intro k
    cases k with
    | zero => exact not_badlyCut_of_stop rfl
    | succ k =>
        rw [List.take_succ_cons, List.take_nil]
        exact not_badlyCut_of_stop rfl
  · intro units split
    cases units with
    | nil => rfl
    | cons unit units =>
        have read := congrArg readObu split
        rw [List.flatMap_cons, TemporalUnit.bytes, List.append_assoc, readObu_bytes] at read
        cases read

/-- A temporal unit in one chunk; and a delimiter cut after the first of its two header bytes. -/
theorem smallUnit_not_framesUnits :
    ¬ FramesUnits framer [smallUnit.bytes] ∧ ¬ FramesUnits framer [[0, 0, 1, 0x16]] := by
  constructor
  · intro frames
    have split : [smallUnit.bytes].flatten = [smallUnit].flatMap TemporalUnit.bytes := by
      rw [List.flatten_singleton, List.flatMap_singleton]
    cases frames.eq_nil rfl split
  · intro frames
    apply frames.total
    rw [framer.pushAll_eq_none_iff (not_badlyCut_of_stop rfl)]
    refine ⟨1, [], [0, 0, 1, 0x16], rfl, .inl ⟨[0, 0, 1], 0x16, .inl rfl, rfl, ?_, ?_⟩⟩
    · decide
    · decide

end Sample

end Qubox.Av1
