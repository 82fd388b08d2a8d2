import Mathlib.Data.List.Basic
import Qubox.Library.Bytes

/-!
# Messages in a byte stream

A sender writes messages one after the other, and a receiver reads them back
until the stream ends or something is wrong. The receiver takes a rest that is
shorter than `width` for the end of the stream. A `Framing` is a format
whose laws say how one message is read: as it is, as another one, not at all, cut,
or not there. `arrives_iff` and `notices_iff` say from these when a whole stream
arrives, and when a cut is noticed.
-/

namespace Framing

/-- What a receiver gets with this many calls, and how it ended, if it did. -/
def receive {R ε : Type} (next : Bytes → Except ε (Option (R × Bytes))) :
    Nat → Bytes → List R × Option (Except ε Unit)
  | 0, _ => ([], none)
  | calls + 1, stream =>
      match next stream with
      | .error e => ([], some (.error e))
      | .ok none => ([], some (.ok ()))
      | .ok (some (r, rest)) =>
          (r :: (receive next calls rest).1, (receive next calls rest).2)

/-- The receiver gets these messages, and then comes to this end. -/
def Ends {R ε : Type} (next : Bytes → Except ε (Option (R × Bytes))) (stream : Bytes)
    (received : List R) (finish : Except ε Unit) : Prop :=
  ∃ calls, receive next calls stream = (received, some finish)

section Ends

variable {R ε : Type} {next : Bytes → Except ε (Option (R × Bytes))} {stream rest : Bytes}
  {received : List R} {finish : Except ε Unit} {r : R} {e : ε}

theorem ends_of_none (nothing : next stream = .ok none) : Ends next stream [] (.ok ()) :=
  ⟨1, by rw [receive, nothing]⟩

theorem ends_of_error (failed : next stream = .error e) : Ends next stream [] (.error e) :=
  ⟨1, by rw [receive, failed]⟩

theorem Ends.cons (read : next stream = .ok (some (r, rest))) (later : Ends next rest received finish) :
    Ends next stream (r :: received) finish := by
  obtain ⟨calls, ends⟩ := later
  exact ⟨calls + 1, by rw [receive, read]; simp only [ends]⟩

theorem Ends.tail (ends : Ends next stream received finish)
    (read : next stream = .ok (some (r, rest))) :
    ∃ later, received = r :: later ∧ Ends next rest later finish := by
  obtain ⟨calls, ends⟩ := ends
  cases calls with
  | zero => cases ends
  | succ calls =>
      rw [receive, read] at ends
      obtain ⟨rfl, finished⟩ := Prod.mk.inj ends
      exact ⟨_, rfl, calls, Prod.ext rfl finished⟩

theorem Ends.of_none (ends : Ends next stream received finish)
    (nothing : next stream = .ok none) : received = [] ∧ finish = .ok () := by
  obtain ⟨calls, ends⟩ := ends
  cases calls with
  | zero => cases ends
  | succ calls =>
      rw [receive, nothing] at ends
      cases ends
      exact ⟨rfl, rfl⟩

theorem Ends.of_error (ends : Ends next stream received finish)
    (failed : next stream = .error e) : received = [] ∧ finish = .error e := by
  obtain ⟨calls, ends⟩ := ends
  cases calls with
  | zero => cases ends
  | succ calls =>
      rw [receive, failed] at ends
      cases ends
      exact ⟨rfl, rfl⟩

/-- A stream comes to one end only. -/
theorem Ends.unique {received' : List R} {finish' : Except ε Unit}
    (first : Ends next stream received finish) (second : Ends next stream received' finish') :
    received = received' ∧ finish = finish' := by
  obtain ⟨calls, first⟩ := first
  induction calls generalizing stream received received' with
  | zero => cases first
  | succ calls ih =>
      rw [receive] at first
      cases read : next stream with
      | error e =>
          obtain ⟨rfl, rfl⟩ := second.of_error read
          rw [read] at first
          cases first
          exact ⟨rfl, rfl⟩
      | ok found =>
          cases found with
          | none =>
              obtain ⟨rfl, rfl⟩ := second.of_none read
              rw [read] at first
              cases first
              exact ⟨rfl, rfl⟩
          | some found =>
              obtain ⟨r, rest⟩ := found
              obtain ⟨later, rfl, tail⟩ := second.tail read
              rw [read] at first
              obtain ⟨rfl, finished⟩ := Prod.mk.inj first
              obtain ⟨same, finish_eq⟩ := ih tail
                (Prod.ext rfl finished : receive next calls rest = (_, some finish))
              exact ⟨congrArg _ same, finish_eq⟩

end Ends

end Framing

/-- A format of messages `M` that are received as `R`. -/
structure Framing (M R ε : Type) where
  width : Nat
  encode : M → Bytes
  deliver : M → R
  /-- The sender accepts the message. -/
  Sent : M → Prop
  /-- The receiver accepts the message as it is. -/
  Fits : M → Prop
  /-- The receiver accepts the message as another one. -/
  Misread : M → Prop
  next : Bytes → Except ε (Option (R × Bytes))
  width_pos : 0 < width
  next_of_fits : ∀ m rest, Sent m → Fits m →
    next (encode m ++ rest) = .ok (some (deliver m, rest))
  next_of_misread : ∀ m rest, Sent m → Misread m →
    ∃ r, r ≠ deliver m ∧ next (encode m ++ rest) = .ok (some (r, rest))
  next_of_refused : ∀ m rest, Sent m → ¬ Fits m → ¬ Misread m →
    ∃ e, next (encode m ++ rest) = .error e
  next_of_short : ∀ stream, stream.length < width → next stream = .ok none
  next_of_cut : ∀ m count, Sent m → width ≤ count → count < (encode m).length →
    ∃ e, next ((encode m).take count) = .error e

namespace Framing

/-- The first message that does not arrive as it is arrives as another one. -/
def Strays {M : Type} (Fits Misread : M → Prop) (messages : List M) : Prop :=
  ∃ front m back, messages = front ++ m :: back ∧ (∀ m ∈ front, Fits m) ∧ Misread m

/-- All is well, or there is a first message that is not. -/
theorem forall_or_first {M : Type} (Fits : M → Prop) (messages : List M) :
    (∀ m ∈ messages, Fits m) ∨
      ∃ front m back, messages = front ++ m :: back ∧ (∀ m ∈ front, Fits m) ∧ ¬ Fits m := by
  induction messages with
  | nil => exact .inl fun m member => absurd member List.not_mem_nil
  | cons m messages ih =>
      by_cases fits : Fits m
      case neg => exact .inr ⟨[], m, messages, rfl, fun _ member => (nomatch member), fits⟩
      case pos =>
        rcases ih with all | ⟨front, m', back, rfl, good, bad⟩
        · exact .inl (List.forall_mem_cons.mpr ⟨fits, all⟩)
        · exact .inr ⟨m :: front, m', back, rfl, List.forall_mem_cons.mpr ⟨fits, good⟩, bad⟩

variable {M R ε : Type} (F : Framing M R ε)

def written (messages : List M) : Bytes := messages.flatMap F.encode

/-- All messages arrive, and then the end of the stream. -/
def Arrives (messages : List M) : Prop :=
  Ends F.next (F.written messages) (messages.map F.deliver) (.ok ())

/-- Of a stream that is cut within a message, earlier messages arrive, and then an
error. -/
def Notices (before : List M) (m : M) (count : Nat) : Prop :=
  ∃ received e, received <+: before.map F.deliver ∧
    Ends F.next (F.written before ++ (F.encode m).take count) received (.error e)

variable {F} {messages before front back : List M} {m : M} {rest : Bytes} {count : Nat}
  {received : List R} {finish : Except ε Unit}

theorem written_cons : F.written (m :: messages) = F.encode m ++ F.written messages :=
  List.flatMap_cons

theorem written_split :
    F.written (front ++ m :: back) = F.written front ++ (F.encode m ++ F.written back) := by
  rw [written, List.flatMap_append, List.flatMap_cons]
  rfl

/-- Messages that fit are read before whatever follows. -/
theorem ends_written_append (sent : ∀ m ∈ messages, F.Sent m)
    (fits : ∀ m ∈ messages, F.Fits m) (later : Ends F.next rest received finish) :
    Ends F.next (F.written messages ++ rest) (messages.map F.deliver ++ received) finish := by
  induction messages with
  | nil => exact later
  | cons m messages ih =>
      rw [written_cons, List.append_assoc]
      have later := ih (fun m' member => sent m' (.tail _ member))
        fun m' member => fits m' (.tail _ member)
      exact later.cons (F.next_of_fits m _ (sent m List.mem_cons_self) (fits m List.mem_cons_self))

/-- And whatever is read begins with them. -/
theorem Ends.later (sent : ∀ m ∈ messages, F.Sent m) (fits : ∀ m ∈ messages, F.Fits m)
    (ends : Ends F.next (F.written messages ++ rest) received finish) :
    ∃ later, received = messages.map F.deliver ++ later ∧ Ends F.next rest later finish := by
  induction messages generalizing received with
  | nil => exact ⟨received, rfl, ends⟩
  | cons m messages ih =>
      rw [written_cons, List.append_assoc] at ends
      obtain ⟨received, rfl, rest_ends⟩ := ends.tail
        (F.next_of_fits m _ (sent m List.mem_cons_self) (fits m List.mem_cons_self))
      obtain ⟨later, rfl, later_ends⟩ := ih (fun m' member => sent m' (.tail _ member))
        (fun m' member => fits m' (.tail _ member)) rest_ends
      exact ⟨later, rfl, later_ends⟩

/-- A message that is taken for another one is not received. -/
theorem Ends.misread (sent : ∀ m' ∈ front ++ m :: back, F.Sent m') (fits : ∀ m ∈ front, F.Fits m)
    (misread : F.Misread m)
    (ends : Ends F.next (F.written (front ++ m :: back) ++ rest) received finish) :
    ¬ received <+: (front ++ m :: back).map F.deliver := by
  rw [List.forall_mem_append, List.forall_mem_cons] at sent
  rw [written_split, List.append_assoc, List.append_assoc] at ends
  obtain ⟨received, rfl, here⟩ := ends.later sent.1 fits
  obtain ⟨r, other, read⟩ := F.next_of_misread m (F.written back ++ rest) sent.2.1 misread
  obtain ⟨received, rfl, -⟩ := here.tail read
  rw [List.map_append, List.prefix_append_right_inj, List.map_cons, List.cons_prefix_cons]
  exact fun same => other same.1

/-- A message that is refused is an error after the messages before it. -/
theorem ends_of_refused (sent : ∀ m' ∈ front ++ m :: back, F.Sent m') (fits : ∀ m ∈ front, F.Fits m)
    (unfit : ¬ F.Fits m) (read : ¬ F.Misread m) (rest : Bytes) :
    ∃ e, Ends F.next (F.written (front ++ m :: back) ++ rest) (front.map F.deliver)
      (.error e) := by
  rw [List.forall_mem_append, List.forall_mem_cons] at sent
  obtain ⟨e, failed⟩ := F.next_of_refused m (F.written back ++ rest) sent.2.1 unfit read
  have ends := ends_written_append sent.1 fits (ends_of_error failed)
  rw [List.append_nil] at ends
  rw [written_split, List.append_assoc, List.append_assoc]
  exact ⟨e, ends⟩

theorem ends_of_short (sent : ∀ m ∈ messages, F.Sent m)
    (fits : ∀ m ∈ messages, F.Fits m) (rest : Bytes) (short : rest.length < F.width) :
    Ends F.next (F.written messages ++ rest) (messages.map F.deliver) (.ok ()) := by
  have ends := ends_written_append sent fits (ends_of_none (F.next_of_short rest short))
  rwa [List.append_nil] at ends

/-- A stream arrives exactly if all its messages fit. -/
theorem arrives_iff (sent : ∀ m ∈ messages, F.Sent m) :
    F.Arrives messages ↔ ∀ m ∈ messages, F.Fits m := by
  constructor
  · intro arrives
    rcases forall_or_first F.Fits messages with fits | ⟨front, m, back, rfl, fits, unfit⟩
    · exact fits
    · rw [Arrives, ← List.append_nil (F.written _)] at arrives
      by_cases misread : F.Misread m
      case pos => exact absurd List.prefix_rfl (arrives.misread sent fits misread)
      case neg =>
        obtain ⟨e, failed⟩ := ends_of_refused sent fits unfit misread []
        cases (arrives.unique failed).2
  · intro fits
    have ends := ends_of_short sent fits [] F.width_pos
    rwa [List.append_nil] at ends

/-- A cut is noticed unless all is well up to a rest that is taken for the end, or
the first message that is not as it was is taken for another one. -/
theorem notices_iff (sent : ∀ m ∈ before, F.Sent m) (sent_cut : F.Sent m)
    (within : count < (F.encode m).length) :
    F.Notices before m count ↔
      ¬ ((∀ m ∈ before, F.Fits m) ∧ count < F.width) ∧ ¬ Strays F.Fits F.Misread before := by
  have length : ((F.encode m).take count).length = count := by
    rw [List.length_take]
    omega
  constructor
  · rintro ⟨received, e, initial, failed⟩
    constructor
    · rintro ⟨fits, short⟩
      have ends := ends_of_short sent fits ((F.encode m).take count) (by omega)
      cases (ends.unique failed).2
    · rintro ⟨front, m', back, rfl, fits, misread⟩
      exact failed.misread sent fits misread initial
  · rintro ⟨noticed, straight⟩
    rcases forall_or_first F.Fits before with fits | ⟨front, m', back, rfl, fits, unfit⟩
    · have long : F.width ≤ count := by
        by_contra short
        exact noticed ⟨fits, by omega⟩
      obtain ⟨e, failed⟩ := F.next_of_cut m count sent_cut long within
      have ends := ends_written_append sent fits (ends_of_error failed)
      exact ⟨_, e, List.prefix_rfl, by rwa [List.append_nil] at ends⟩
    · have read : ¬ F.Misread m' := fun misread => straight ⟨front, m', back, rfl, fits, misread⟩
      obtain ⟨e, failed⟩ := ends_of_refused sent fits unfit read ((F.encode m).take count)
      refine ⟨_, e, ?_, failed⟩
      rw [List.map_append]
      exact List.prefix_append _ _

end Framing
