import Qubox.Library.Cutting
import Qubox.Transport.Reliable

/-!
# Start codes and access-unit delimiters

`find_annex_b_start_codes` scans for `00 00 01` and `00 00 00 01`. A start code is
followed by the header of a NAL unit, whose type says whether it is an access-unit
delimiter. The positions of delimiters are stable `Marks`: the scan resumes right after
a code, and a header with zero in its first byte is no delimiter.
-/

namespace Qubox.AnnexB

open Transport renaming findAnnexBStartCodes → scan

/-- The length of the start code that the bytes begin with. -/
def startCode (bytes : Bytes) : Option Nat :=
  if [0, 0, 1] <+: bytes then some 3
  else if [0, 0, 0, 1] <+: bytes then some 4
  else none

theorem startCode_eq_some {bytes : Bytes} {len : Nat} (found : startCode bytes = some len) :
    ∃ code rest, bytes = code ++ rest ∧ code.length = len ∧
      (code = [0, 0, 1] ∨ code = [0, 0, 0, 1]) := by
  unfold startCode at found
  split at found
  case isTrue short =>
    obtain ⟨rest, rfl⟩ := short
    exact ⟨_, rest, rfl, Option.some.inj found, .inl rfl⟩
  case isFalse =>
    split at found
    case isTrue long =>
      obtain ⟨rest, rfl⟩ := long
      exact ⟨_, rest, rfl, Option.some.inj found, .inr rfl⟩
    case isFalse => cases found

theorem startCode_append {code : Bytes} (known : code = [0, 0, 1] ∨ code = [0, 0, 0, 1])
    (rest : Bytes) : startCode (code ++ rest) = some code.length := by
  obtain rfl | rfl := known
  · exact if_pos (List.prefix_append _ _)
  · rw [startCode, if_neg, if_pos (List.prefix_append _ _)]
    · rfl
    · simp

theorem startCode_length {bytes : Bytes} {len : Nat} (found : startCode bytes = some len) :
    3 ≤ len ∧ len ≤ 4 ∧ len ≤ bytes.length := by
  obtain ⟨code, rest, rfl, rfl, rfl | rfl⟩ := startCode_eq_some found <;> simp

theorem startCode_head {bytes : Bytes} {len : Nat} (found : startCode bytes = some len) :
    bytes[0]? = some 0 := by
  obtain ⟨code, rest, rfl, -, rfl | rfl⟩ := startCode_eq_some found <;> rfl

theorem startCode_stable {bytes : Bytes} {len : Nat} (found : startCode bytes = some len)
    (more : Bytes) : startCode (bytes ++ more) = some len := by
  obtain ⟨code, rest, rfl, rfl, known⟩ := startCode_eq_some found
  rw [List.append_assoc, startCode_append known]

/-- A start code that appears when more bytes come was cut by the end. -/
theorem startCode_new {bytes more : Bytes} {len : Nat} (absent : startCode bytes = none)
    (found : startCode (bytes ++ more) = some len) : bytes.length < 4 := by
  by_contra long
  obtain ⟨code, rest, split, -, known⟩ := startCode_eq_some found
  have inside : code <+: bytes := by
    apply List.prefix_of_prefix_length_le ⟨rest, split.symm⟩ (List.prefix_append bytes more)
    obtain rfl | rfl := known
    · simp only [List.length_cons, List.length_nil]
      omega
    · simp only [List.length_cons, List.length_nil]
      omega
  obtain ⟨rest', rfl⟩ := inside
  rw [startCode_append known] at absent
  cases absent

theorem scan_code {index len : Nat} {bytes : Bytes} (found : startCode bytes = some len) :
    scan index bytes =
      (index, len) :: scan (index + len) (bytes.drop len) := by
  obtain ⟨code, rest, rfl, rfl, rfl | rfl⟩ := startCode_eq_some found
  · rfl
  · rfl

theorem scan_nil (index : Nat) : scan index [] = [] := rfl

theorem scan_cons {index : Nat} {b : UInt8} {rest : Bytes} (absent : startCode (b :: rest) = none) :
    scan index (b :: rest) = scan (index + 1) rest := by
  rw [scan]
  · rintro tail rfl rfl
    rw [startCode, if_pos ⟨tail, rfl⟩] at absent
    cases absent
  · rintro tail rfl rfl
    have long := startCode_append (.inr rfl) tail
    rw [List.cons_append, List.cons_append, List.cons_append, List.cons_append, List.nil_append,
      absent] at long
    cases long

/-- Induction on the rounds of the scan. -/
theorem scan_induction {P : Nat → Bytes → Prop}
    (code : ∀ index bytes len, startCode bytes = some len →
      P (index + len) (bytes.drop len) → P index bytes)
    (nil : ∀ index, P index [])
    (skip : ∀ index b rest, startCode (b :: rest) = none → P (index + 1) rest → P index (b :: rest))
    (index : Nat) (bytes : Bytes) : P index bytes := by
  induction h : bytes.length using Nat.strongRecOn generalizing index bytes with
  | ind length ih =>
      subst h
      match found : startCode bytes with
      | some len =>
          have := startCode_length found
          apply code index bytes len found
          exact ih _ (by rw [List.length_drop]; omega) _ _ rfl
      | none =>
          match bytes with
          | [] => exact nil index
          | b :: rest => exact skip index b rest found (ih _ (Nat.lt_succ_self _) _ _ rfl)

theorem scan_shift (index by' : Nat) (bytes : Bytes) :
    scan (by' + index) bytes = (scan index bytes).map fun code => (by' + code.1, code.2) := by
  induction index, bytes using scan_induction with
  | code index bytes len found ih =>
      rw [scan_code found, scan_code found, List.map_cons, Nat.add_assoc, ih]
  | nil index => rfl
  | skip index b rest absent ih => rw [scan_cons absent, scan_cons absent, Nat.add_assoc, ih]

theorem scan_eq_map (index : Nat) (bytes : Bytes) :
    scan index bytes = (scan 0 bytes).map fun code => (index + code.1, code.2) :=
  scan_shift 0 index bytes

/-- A code that was found lies within the bytes. -/
theorem scan_mem {index : Nat} {bytes : Bytes} {code : Nat × Nat}
    (member : code ∈ scan index bytes) :
    index ≤ code.1 ∧ code.1 + code.2 ≤ index + bytes.length ∧ 3 ≤ code.2 := by
  induction index, bytes using scan_induction with
  | code index bytes len found ih =>
      have := startCode_length found
      rw [scan_code found] at member
      obtain rfl | later := List.mem_cons.mp member
      · exact ⟨Nat.le_refl _, Nat.add_le_add_left this.2.2 _, this.1⟩
      · have := ih later
        rw [List.length_drop] at this
        omega
  | nil index =>
      rw [scan_nil] at member
      cases member
  | skip index b rest absent ih =>
      rw [scan_cons absent] at member
      have := ih member
      rw [List.length_cons]
      omega

/-- Codes do not overlap. -/
theorem scan_pairwise (index : Nat) (bytes : Bytes) :
    (scan index bytes).Pairwise fun a b => a.1 + a.2 ≤ b.1 := by
  induction index, bytes using scan_induction with
  | code index bytes len found ih =>
      rw [scan_code found]
      exact .cons (fun later member => (scan_mem member).1) ih
  | nil index =>
      rw [scan_nil]
      exact .nil
  | skip index b rest absent ih => rwa [scan_cons absent]

theorem scan_apart {index : Nat} {bytes : Bytes} {code next : Nat × Nat}
    (member : code ∈ scan index bytes) (next_member : next ∈ scan index bytes)
    (later : code.1 < next.1) : code.1 + code.2 ≤ next.1 := by
  have apart := scan_pairwise index bytes
  have all : ∀ a ∈ scan index bytes, ∀ b ∈ scan index bytes, a.1 < b.1 → a.1 + a.2 ≤ b.1 := by
    apply List.Pairwise.forall_of_forall_of_flip
    · intro a _ less
      exact absurd less (Nat.lt_irrefl a.1)
    · apply apart.imp
      intro a b far _
      exact far
    · apply apart.imp
      intro a b far less
      omega
  exact all code member next next_member later

theorem scan_short (index : Nat) {bytes : Bytes} (short : bytes.length < 3) :
    scan index bytes = [] := by
  apply List.eq_nil_iff_forall_not_mem.mpr
  intro code member
  have := scan_mem member
  omega

/-- More bytes add codes at the end only. -/
theorem scan_stable (index : Nat) (bytes more : Bytes) :
    scan index bytes <+: scan index (bytes ++ more) := by
  induction index, bytes using scan_induction with
  | code index bytes len found ih =>
      have inside := (startCode_length found).2.2
      rw [scan_code found, scan_code (startCode_stable found more),
        List.drop_append_of_le_length inside]
      exact (List.prefix_cons_inj _).mpr ih
  | nil index =>
      rw [scan_nil]
      exact List.nil_prefix
  | skip index b rest absent ih =>
      rw [scan_cons absent]
      match found : startCode (b :: rest ++ more) with
      | none =>
          rw [List.cons_append] at found ⊢
          rwa [scan_cons found]
      | some len =>
          have short := startCode_new absent found
          rw [List.length_cons] at short
          rw [scan_short (index + 1) (Nat.lt_of_succ_lt_succ short)]
          exact List.nil_prefix

/-- The scan resumes at a code as if the bytes began there. -/
theorem scan_drop {index : Nat} {bytes : Bytes} {code : Nat × Nat}
    (member : code ∈ scan index bytes) :
    ∃ before, scan index bytes = before ++ scan code.1 (bytes.drop (code.1 - index)) ∧
      ∀ earlier ∈ before, earlier.1 < code.1 := by
  induction index, bytes using scan_induction with
  | code index bytes len found ih =>
      rw [scan_code found] at member
      obtain rfl | later := List.mem_cons.mp member
      · refine ⟨[], ?_, fun _ none => absurd none List.not_mem_nil⟩
        rw [List.nil_append, Nat.sub_self, List.drop_zero]
      · obtain ⟨before, split, less⟩ := ih later
        have beyond := (scan_mem later).1
        have pos := (startCode_length found).1
        refine ⟨(index, len) :: before, ?_, ?_⟩
        · rw [scan_code found, split, List.drop_drop, List.cons_append]
          congr 4
          omega
        · intro earlier there
          obtain rfl | there := List.mem_cons.mp there
          · change index < code.1
            omega
          · exact less earlier there
  | nil index =>
      rw [scan_nil] at member
      cases member
  | skip index b rest absent ih =>
      rw [scan_cons absent] at member
      obtain ⟨before, split, less⟩ := ih member
      have beyond := (scan_mem member).1
      refine ⟨before, ?_, less⟩
      rw [scan_cons absent, split]
      have one : code.1 - index = code.1 - (index + 1) + 1 := by omega
      rw [one, List.drop_succ_cons]

/-- The bytes at a code that was found begin with a start code. -/
theorem startCode_of_mem {bytes : Bytes} {code : Nat × Nat}
    (member : code ∈ scan 0 bytes) : startCode (bytes.drop code.1) = some code.2 := by
  suffices general : ∀ index bytes, code ∈ scan index bytes →
      startCode (bytes.drop (code.1 - index)) = some code.2 from general 0 bytes member
  intro index bytes member
  induction index, bytes using scan_induction with
  | code index bytes len found ih =>
      rw [scan_code found] at member
      obtain rfl | later := List.mem_cons.mp member
      · rwa [Nat.sub_self, List.drop_zero]
      · have beyond := (scan_mem later).1
        have same : code.1 - index = len + (code.1 - (index + len)) := by omega
        rw [same, ← List.drop_drop]
        exact ih later
  | nil index =>
      rw [scan_nil] at member
      cases member
  | skip index b rest absent ih =>
      rw [scan_cons absent] at member
      have beyond := (scan_mem member).1
      have one : code.1 - index = code.1 - (index + 1) + 1 := by omega
      rw [one, List.drop_succ_cons]
      exact ih member

/-! ## Delimiters -/

/-- How a codec tells the header of a delimiter: by its first byte, once `width` bytes of it are
there. -/
structure DelimiterHeader where
  width : Nat
  isAud : UInt8 → Bool
  width_pos : 0 < width
  width_le : width ≤ 3
  zero : isAud 0 = false

/-- NAL type 9. -/
def h264Header : DelimiterHeader where
  width := 1
  isAud header := header &&& 0x1f = 9
  width_pos := Nat.one_pos
  width_le := by decide
  zero := by decide

/-- NAL type 35, in a header of two bytes. -/
def h265Header : DelimiterHeader where
  width := 2
  isAud header := (header >>> 1) &&& 0x3f = 35
  width_pos := Nat.two_pos
  width_le := by decide
  zero := by decide

namespace DelimiterHeader

variable (H : DelimiterHeader)

/-- The header of a delimiter is at the offset. -/
def follows (bytes : Bytes) (offset : Nat) : Bool :=
  match bytes[offset]? with
  | some header => decide (offset + H.width ≤ bytes.length) && H.isAud header
  | none => false

/-- The start codes before a delimiter. -/
def find (bytes : Bytes) : List (Nat × Nat) :=
  (scan 0 bytes).filter fun code => H.follows bytes (code.1 + code.2)

theorem follows_iff {bytes : Bytes} {offset : Nat} :
    H.follows bytes offset = true ↔
      offset + H.width ≤ bytes.length ∧ ∃ header, bytes[offset]? = some header ∧
        H.isAud header = true := by
  unfold follows
  split
  case h_1 header there => simp [there]
  case h_2 missing => simp [missing]

theorem follows_settled {bytes : Bytes} {offset : Nat} (whole : offset + H.width ≤ bytes.length)
    (more : Bytes) : H.follows bytes offset = H.follows (bytes ++ more) offset := by
  have inside : offset < bytes.length := by
    have := H.width_pos
    omega
  have whole' : offset + H.width ≤ (bytes ++ more).length := by
    rw [List.length_append]
    omega
  unfold follows
  rw [List.getElem?_append_left inside, decide_eq_true whole, decide_eq_true whole']

theorem follows_stable {bytes : Bytes} {offset : Nat} (there : H.follows bytes offset = true)
    (more : Bytes) : H.follows (bytes ++ more) offset = true := by
  rw [← H.follows_settled (H.follows_iff.mp there).1 more, there]

theorem follows_drop (bytes : Bytes) (p offset : Nat) :
    H.follows (bytes.drop p) offset = H.follows bytes (p + offset) := by
  have := H.width_pos
  have same : offset + H.width ≤ (bytes.drop p).length ↔ p + offset + H.width ≤ bytes.length := by
    rw [List.length_drop]
    omega
  unfold follows
  rw [List.getElem?_drop, decide_eq_decide.mpr same]

theorem filter_prefix_filter {α : Type} {P Q : α → Bool} {l : List α}
    (settled : l.Pairwise fun a _ => P a = Q a) (grows : ∀ a ∈ l, P a = true → Q a = true) :
    l.filter P <+: l.filter Q := by
  induction l with
  | nil => exact List.nil_prefix
  | cons a l ih =>
      have rest := ih settled.of_cons fun b member => grows b (.tail a member)
      match l with
      | [] =>
          rw [List.filter_cons, List.filter_cons]
          split
          case isTrue kept => rw [if_pos (grows a List.mem_cons_self kept)]; exact List.prefix_rfl
          case isFalse => exact List.nil_prefix
      | b :: l =>
          have same : P a = Q a := List.rel_of_pairwise_cons settled List.mem_cons_self
          rw [List.filter_cons (x := a), List.filter_cons (x := a), same]
          split
          · exact (List.prefix_cons_inj a).mpr rest
          · exact rest

/-- Only the header of the last code can be cut, and it may turn out to be a delimiter later. -/
theorem find_stable (bytes more : Bytes) : H.find bytes <+: H.find (bytes ++ more) := by
  obtain ⟨codes, whole⟩ := scan_stable 0 bytes more
  have grown : H.find (bytes ++ more) =
      (scan 0 bytes).filter
          (fun code => H.follows (bytes ++ more) (code.1 + code.2)) ++
        codes.filter fun code => H.follows (bytes ++ more) (code.1 + code.2) := by
    rw [find, ← whole, List.filter_append]
  rw [grown]
  apply List.prefix_append_of_prefix
  apply filter_prefix_filter
  · apply (scan_pairwise 0 bytes).imp_of_mem
    intro code next member next_mem apart
    have := scan_mem next_mem
    have := H.width_le
    exact H.follows_settled (by omega) more
  · intro code member there
    exact H.follows_stable there more

theorem mem_find {bytes : Bytes} {code : Nat × Nat} :
    code ∈ H.find bytes ↔
      code ∈ scan 0 bytes ∧ H.follows bytes (code.1 + code.2) = true := by
  rw [find, List.mem_filter]

theorem find_drop {bytes : Bytes} {code : Nat × Nat} (member : code ∈ H.find bytes) :
    ∃ before, H.find bytes =
        before ++ (H.find (bytes.drop code.1)).map (fun later => (code.1 + later.1, later.2)) ∧
      ∀ earlier ∈ before, earlier.1 < code.1 := by
  obtain ⟨before, split, less⟩ := scan_drop (H.mem_find.mp member).1
  refine ⟨before.filter fun earlier => H.follows bytes (earlier.1 + earlier.2), ?_, ?_⟩
  · rw [find, split, List.filter_append, Nat.sub_zero, scan_eq_map,
      List.filter_map, find]
    congr 2
    apply List.filter_congr
    intro later _
    rw [Function.comp_apply, H.follows_drop, Nat.add_assoc]
  · intro earlier there
    exact less earlier (List.mem_filter.mp there).1

/-- The positions of the delimiters. -/
def marks : Marks UInt8 where
  marks bytes := (H.find bytes).map Prod.fst
  lt_length := by
    intro bytes p member
    obtain ⟨code, found, rfl⟩ := List.mem_map.mp member
    have := scan_mem (H.mem_find.mp found).1
    omega
  sorted := by
    intro bytes
    apply List.pairwise_map.mpr
    apply ((scan_pairwise 0 bytes).filter _).imp_of_mem
    intro code next member _ apart
    have := scan_mem (List.mem_filter.mp member).1
    omega
  stable := by
    intro bytes more
    exact (H.find_stable bytes more).map Prod.fst
  drop := by
    intro bytes p member
    obtain ⟨code, found, rfl⟩ := List.mem_map.mp member
    obtain ⟨before, split, less⟩ := H.find_drop found
    refine ⟨before.map Prod.fst, ?_, ?_⟩
    · rw [split, List.map_append, List.map_map, List.map_map]
      rfl
    · intro q there
      obtain ⟨earlier, there', rfl⟩ := List.mem_map.mp there
      exact less earlier there'

/-- The bytes begin with a start code and the first byte of a delimiter. -/
def Starts (bytes : Bytes) : Prop :=
  ∃ code header rest, bytes = code ++ header :: rest ∧
    (code = [0, 0, 1] ∨ code = [0, 0, 0, 1]) ∧ H.isAud header = true

/-- The header of the delimiter at its start belongs to the piece: the next start code begins with
a zero, the header does not. -/
theorem starts_of_piece {bytes piece : Bytes} {p q : Nat}
    (inside : H.marks.Piece bytes piece p q) : H.Starts piece := by
  obtain ⟨code, found, rfl⟩ := List.mem_map.mp inside.mark
  obtain ⟨scanned, delimits⟩ := H.mem_find.mp found
  obtain ⟨-, header, at_header, is_aud⟩ := H.follows_iff.mp delimits
  have beyond : code.1 + code.2 < q := by
    obtain finish | marked := inside.ends
    · rw [finish]
      exact (List.getElem?_eq_some_iff.mp at_header).1
    · obtain ⟨next, next_found, rfl⟩ := List.mem_map.mp marked
      have next_scanned := (H.mem_find.mp next_found).1
      have zero := startCode_head (startCode_of_mem next_scanned)
      rw [List.getElem?_drop, Nat.add_zero] at zero
      refine Nat.lt_of_le_of_ne (scan_apart scanned next_scanned inside.less) ?_
      intro same
      rw [same, zero] at at_header
      obtain rfl := Option.some.inj at_header
      rw [H.zero] at is_aud
      cases is_aud
  obtain ⟨start, rest, split, len, known⟩ := startCode_eq_some (startCode_of_mem scanned)
  have at_rest : rest[0]? = some header := by
    rw [← at_header, ← List.getElem?_drop, split, ← len, List.getElem?_append_right (Nat.le_refl _),
      Nat.sub_self]
  match rest, at_rest with
  | first :: rest, at_rest =>
      obtain rfl : first = header := Option.some.inj at_rest
      refine ⟨start, first, rest.take (q - code.1 - start.length - 1), ?_, known, is_aud⟩
      have short : start.length ≤ q - code.1 := by omega
      have one : q - code.1 - start.length = q - code.1 - start.length - 1 + 1 := by omega
      rw [inside.cut, split, List.take_append, List.take_of_length_le short, one, List.take_succ_cons,
        Nat.add_sub_cancel]

end DelimiterHeader

end Qubox.AnnexB
