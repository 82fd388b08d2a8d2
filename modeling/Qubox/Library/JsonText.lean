import Qubox.Library.JsonValue

/-!
# JSON texts

Printing without spaces and parsing with the grammar of JSON, over arbitrary texts
for strings and numbers. The parser gives up on values that are nested deeper than
its limit, as parsers do that recurse.

What is printed is read back whenever the texts of strings and numbers are, and
what has been read is then never a proper part of what is there: a text that ends
at a comma or a closing bracket is `Delimited`.
-/

namespace JsonValue

/-- How strings and numbers are written and read. A reader returns what it has read
and the rest of the text. -/
structure Tokens (N : Type) where
  quote : String → List Char
  number : N → List Char
  readString : List Char → Option (String × List Char)
  readNumber : List Char → Option (N × List Char)

/-- A value ends here: at a comma, a closing bracket or the end of the text. -/
def Delimited (text : List Char) : Prop :=
  ∀ c ∈ text.head?, c = ',' ∨ c = ']' ∨ c = '}'

/-- The readers invert the printers. -/
structure Tokens.Lawful {N : Type} (T : Tokens N) : Prop where
  quote_head : ∀ s, (T.quote s).head? = some '"'
  number_head : ∀ n, ∃ c ∈ (T.number n).head?, c = '-' ∨ c.isDigit = true
  readString_quote : ∀ s rest, T.readString (T.quote s ++ rest) = some (s, rest)
  readNumber_number : ∀ n rest, Delimited rest →
    T.readNumber (T.number n ++ rest) = some (n, rest)

variable {N α : Type} (T : Tokens N)

/-! ## Printing -/

mutual

def print : JsonValue N → List Char
  | .null => "null".toList
  | .bool b => (toString b).toList
  | .number n => T.number n
  | .string s => T.quote s
  | .array items => '[' :: ([','].intercalate (printAll items) ++ [']'])
  | .object entries => '{' :: ([','].intercalate (printEntries entries) ++ ['}'])

def printAll : List (JsonValue N) → List (List Char)
  | [] => []
  | v :: items => print v :: printAll items

def printEntries : List (String × JsonValue N) → List (List Char)
  | [] => []
  | (key, v) :: entries => (T.quote key ++ ':' :: print v) :: printEntries entries

end

/-- An entry of an object. -/
def printEntry (e : String × JsonValue N) : List Char := T.quote e.1 ++ ':' :: print T e.2

theorem printAll_eq (items : List (JsonValue N)) : printAll T items = items.map (print T) := by
  induction items with
  | nil => rfl
  | cons v items ih => rw [printAll, ih, List.map_cons]

theorem printEntries_eq (entries : List (String × JsonValue N)) :
    printEntries T entries = entries.map (printEntry T) := by
  induction entries with
  | nil => rfl
  | cons e entries ih => rw [printEntries, ih, List.map_cons]; rfl

/-! ## Parsing -/

/-- What a parser has read, and the rest of the text. -/
abbrev Reader (α : Type) := List Char → Option (α × List Char)

def isSpace (c : Char) : Bool := c = ' ' || c = '\n' || c = '\t' || c = '\r'

def skipSpace (text : List Char) : List Char := text.dropWhile isSpace

/-- The rest of a word whose first letter has been seen. -/
def word (letters : List Char) (value : α) : Reader α := fun text =>
  if letters.isPrefixOf text then some (value, text.drop letters.length) else none

/-- Items separated by commas up to the closing bracket. The fuel bounds their
number. -/
def sequence (close : Char) (item : Reader α) : Nat → Reader (List α)
  | 0, _ => none
  | fuel + 1, text =>
    match item text with
    | none => none
    | some (a, rest) =>
      match skipSpace rest with
      | [] => none
      | c :: rest =>
        if c = close then some ([a], rest)
        else if c = ',' then
          match sequence close item fuel rest with
          | none => none
          | some (items, rest) => some (a :: items, rest)
        else none

/-- The inside of a pair of brackets, the opening one having been read. -/
def bracketed (close : Char) (item : Reader α) : Reader (List α) := fun text =>
  match skipSpace text with
  | [] => none
  | c :: rest =>
    if c = close then some ([], rest) else sequence close item text.length text

/-- The last of several entries with one key wins, as in a map. -/
def put (entries : List (String × α)) (e : String × α) : List (String × α) :=
  if entries.any (fun f => f.1 = e.1) then
    entries.map (fun f => if f.1 = e.1 then e else f)
  else entries ++ [e]

def toMap (entries : List (String × α)) : List (String × α) := entries.foldl put []

def readEntry (value : Reader (JsonValue N)) : Reader (String × JsonValue N) := fun text =>
  match skipSpace text with
  | '"' :: rest =>
    match T.readString ('"' :: rest) with
    | none => none
    | some (key, rest) =>
      match skipSpace rest with
      | ':' :: rest =>
        match value rest with
        | none => none
        | some (v, rest) => some ((key, v), rest)
      | _ => none
  | _ => none

/-- A value whose items and entries are read by `inner`; without it brackets are
refused. -/
def readWith (inner : Option (Reader (JsonValue N))) : Reader (JsonValue N) := fun text =>
  match skipSpace text with
  | [] => none
  | c :: rest =>
    if c = 'n' then word "ull".toList .null rest
    else if c = 't' then word "rue".toList (.bool true) rest
    else if c = 'f' then word "alse".toList (.bool false) rest
    else if c = '"' then (T.readString (c :: rest)).map (Prod.map .string id)
    else if c = '[' then
      inner.bind fun value => (bracketed ']' value rest).map (Prod.map .array id)
    else if c = '{' then
      inner.bind fun value =>
        (bracketed '}' (readEntry T value) rest).map
          (Prod.map (fun entries => .object (toMap entries)) id)
    else if c = '-' ∨ c.isDigit then (T.readNumber (c :: rest)).map (Prod.map .number id)
    else none

/-- Read a value that is nested at most `limit` deep. -/
def read : (limit : Nat) → Reader (JsonValue N)
  | 0 => readWith T none
  | limit + 1 => readWith T (some (read limit))

/-- Parse a whole text. -/
def parse (limit : Nat) (text : List Char) : Option (JsonValue N) :=
  match read T limit text with
  | none => none
  | some (v, rest) => if (skipSpace rest).isEmpty then some v else none

/-! ## What is printed is read back -/

section Reading

variable {T}

theorem skipSpace_cons {c : Char} (visible : isSpace c = false) (text : List Char) :
    skipSpace (c :: text) = c :: text := by
  rw [skipSpace, List.dropWhile_cons, visible, if_neg Bool.false_ne_true]

theorem delimited_cons {c : Char} (ends : c = ',' ∨ c = ']' ∨ c = '}') (text : List Char) :
    Delimited (c :: text) := by
  intro d same
  cases same
  exact ends

theorem delimited_nil : Delimited [] := by
  intro c same
  cases same

/-- Every item takes at least the character that follows it. -/
theorem length_le_intercalate (f : α → List Char) (items : List α) (c : Char)
    (rest : List Char) :
    items.length ≤ ([','].intercalate (items.map f) ++ c :: rest).length := by
  induction items with
  | nil => exact Nat.zero_le _
  | cons a items ih =>
      cases items with
      | nil =>
          simp only [List.length_append, List.length_cons, List.length_nil]
          omega
      | cons b items =>
          simp only [List.map_cons, List.intercalate_cons_cons, List.length_append,
            List.length_cons, List.length_nil] at ih ⊢
          omega

/-- A list of items is read back when every item is, in front of a comma and of the
closing bracket. -/
theorem sequence_intercalate {close : Char} (closing : close = ']' ∨ close = '}')
    {item : Reader α} {f : α → List Char} {items : List α} (nonempty : items ≠ [])
    (each : ∀ a ∈ items, ∀ rest, Delimited rest → item (f a ++ rest) = some (a, rest))
    {fuel : Nat} (enough : items.length ≤ fuel) (rest : List Char) :
    sequence close item fuel ([','].intercalate (items.map f) ++ close :: rest) =
      some (items, rest) := by
  have visible : isSpace close = false := by
    rcases closing with rfl | rfl <;> decide
  have other : ',' ≠ close := by
    rcases closing with rfl | rfl <;> decide
  induction items generalizing fuel with
  | nil => exact absurd rfl nonempty
  | cons a items ih =>
      cases fuel with
      | zero => exact absurd enough (Nat.not_succ_le_zero _)
      | succ fuel =>
          have first := each a List.mem_cons_self
          cases items with
          | nil =>
              have here := first (close :: rest) (delimited_cons (.inr closing) rest)
              simp only [List.map_cons, List.map_nil, List.intercalate_singleton]
              rw [sequence, here]
              simp only [skipSpace_cons visible, if_true]
          | cons b items =>
              have later : ∀ a ∈ b :: items, ∀ rest, Delimited rest →
                  item (f a ++ rest) = some (a, rest) :=
                fun a member => each a (List.mem_cons_of_mem _ member)
              have tail := ih (List.cons_ne_nil b items) later (Nat.le_of_succ_le_succ enough)
              have here := first
                (',' :: ([','].intercalate ((b :: items).map f) ++ close :: rest))
                (delimited_cons (.inl rfl) _)
              have text : [','].intercalate ((a :: b :: items).map f) ++ close :: rest =
                  f a ++ ',' :: ([','].intercalate ((b :: items).map f) ++ close :: rest) := by
                simp only [List.map_cons, List.intercalate_cons_cons, List.append_assoc,
                  List.cons_append, List.nil_append]
              rw [text, sequence, here]
              simp only [skipSpace_cons (show isSpace ',' = false by decide), if_neg other,
                if_true, tail]

/-- A list with an item that is refused is refused, whatever is behind it. -/
theorem sequence_refused {close : Char} (closing : close = ']' ∨ close = '}')
    {item : Reader α} {f : α → List Char} {items : List α}
    (each : ∀ a ∈ items, ∀ rest, Delimited rest →
      item (f a ++ rest) = some (a, rest) ∨ item (f a ++ rest) = none)
    (refused : ∃ a ∈ items, ∀ rest, Delimited rest → item (f a ++ rest) = none)
    (fuel : Nat) (rest : List Char) :
    sequence close item fuel ([','].intercalate (items.map f) ++ close :: rest) = none := by
  have other : ',' ≠ close := by
    rcases closing with rfl | rfl <;> decide
  induction items generalizing fuel with
  | nil =>
      obtain ⟨a, member, -⟩ := refused
      cases member
  | cons a items ih =>
      cases fuel with
      | zero => rfl
      | succ fuel =>
          obtain ⟨text, ends, split⟩ : ∃ text, Delimited text ∧
              [','].intercalate ((a :: items).map f) ++ close :: rest = f a ++ text := by
            cases items with
            | nil => exact ⟨close :: rest, delimited_cons (.inr closing) rest, by simp⟩
            | cons b items =>
                exact ⟨',' :: ([','].intercalate ((b :: items).map f) ++ close :: rest),
                  delimited_cons (.inl rfl) _, by simp [List.intercalate_cons_cons]⟩
          rcases each a List.mem_cons_self text ends with here | here
          · -- the refused item is a later one, so there is a comma
            have later : ∃ b ∈ items, ∀ rest, Delimited rest → item (f b ++ rest) = none := by
              obtain ⟨b, member, none⟩ := refused
              rcases List.mem_cons.mp member with rfl | member
              · rw [none text ends] at here
                cases here
              · exact ⟨b, member, none⟩
            have tail := ih (fun b member => each b (List.mem_cons_of_mem _ member)) later fuel
            cases items with
            | nil =>
                obtain ⟨b, member, -⟩ := later
                cases member
            | cons b items =>
                have comma : text = ',' :: ([','].intercalate ((b :: items).map f) ++
                    close :: rest) := by
                  refine List.append_cancel_left (?_ : f a ++ text = f a ++ _)
                  rw [← split]
                  simp [List.intercalate_cons_cons]
                rw [split, sequence, here, comma]
                simp only [skipSpace_cons (show isSpace ',' = false by decide), if_neg other,
                  if_true, tail]
          · rw [split, sequence, here]

/-- Brackets with items in them hold a list. -/
theorem bracketed_eq_sequence {close : Char} {item : Reader α} {f : α → List Char}
    {items : List α} (nonempty : items ≠ [])
    (starts : ∀ a ∈ items, ∃ c text, f a = c :: text ∧ isSpace c = false ∧ c ≠ close)
    (rest : List Char) :
    bracketed close item ([','].intercalate (items.map f) ++ close :: rest) =
      sequence close item ([','].intercalate (items.map f) ++ close :: rest).length
        ([','].intercalate (items.map f) ++ close :: rest) := by
  obtain ⟨a, items, rfl⟩ := List.exists_cons_of_ne_nil nonempty
  obtain ⟨c, text, head, visible, other⟩ := starts a List.mem_cons_self
  obtain ⟨tail, begins⟩ : ∃ tail,
      [','].intercalate ((a :: items).map f) ++ close :: rest = c :: tail := by
    cases items with
    | nil =>
        simp only [List.map_cons, List.map_nil, List.intercalate_singleton, head]
        exact ⟨_, rfl⟩
    | cons b items =>
        simp only [List.map_cons, List.intercalate_cons_cons, head, List.cons_append]
        exact ⟨_, rfl⟩
  rw [bracketed, begins, skipSpace_cons visible]
  exact if_neg other

theorem bracketed_intercalate {close : Char} (closing : close = ']' ∨ close = '}')
    {item : Reader α} {f : α → List Char} {items : List α}
    (starts : ∀ a ∈ items, ∃ c text, f a = c :: text ∧ isSpace c = false ∧ c ≠ close)
    (each : ∀ a ∈ items, ∀ rest, Delimited rest → item (f a ++ rest) = some (a, rest))
    (rest : List Char) :
    bracketed close item ([','].intercalate (items.map f) ++ close :: rest) =
      some (items, rest) := by
  cases items with
  | nil =>
      have visible : isSpace close = false := by
        rcases closing with rfl | rfl <;> decide
      show bracketed close item (close :: rest) = _
      rw [bracketed, skipSpace_cons visible]
      exact if_pos rfl
  | cons a items =>
      have nonempty := List.cons_ne_nil a items
      rw [bracketed_eq_sequence nonempty starts]
      exact sequence_intercalate closing nonempty each
        (length_le_intercalate f (a :: items) close rest) rest

theorem bracketed_refused {close : Char} (closing : close = ']' ∨ close = '}')
    {item : Reader α} {f : α → List Char} {items : List α}
    (starts : ∀ a ∈ items, ∃ c text, f a = c :: text ∧ isSpace c = false ∧ c ≠ close)
    (each : ∀ a ∈ items, ∀ rest, Delimited rest →
      item (f a ++ rest) = some (a, rest) ∨ item (f a ++ rest) = none)
    (refused : ∃ a ∈ items, ∀ rest, Delimited rest → item (f a ++ rest) = none)
    (rest : List Char) :
    bracketed close item ([','].intercalate (items.map f) ++ close :: rest) = none := by
  have nonempty : items ≠ [] := by
    obtain ⟨a, member, -⟩ := refused
    exact List.ne_nil_of_mem member
  rw [bracketed_eq_sequence nonempty starts]
  exact sequence_refused closing each refused _ rest

/-! ### Entries -/

theorem put_of_new {entries : List (String × α)} {e : String × α}
    (new : e.1 ∉ entries.map Prod.fst) : put entries e = entries ++ [e] := by
  refine if_neg fun found => new ?_
  obtain ⟨f, member, same⟩ := List.any_eq_true.mp found
  exact List.mem_map.mpr ⟨f, member, of_decide_eq_true same⟩

theorem toMap_of_nodup {entries : List (String × α)}
    (distinct : (entries.map Prod.fst).Nodup) : toMap entries = entries := by
  have built : ∀ front : List (String × α), ((front ++ entries).map Prod.fst).Nodup →
      entries.foldl put front = front ++ entries := by
    clear distinct
    induction entries with
    | nil => exact fun front _ => (List.append_nil front).symm
    | cons e entries ih =>
        intro front distinct
        have new : e.1 ∉ front.map Prod.fst := by
          rw [List.map_append, List.map_cons] at distinct
          intro member
          exact (List.nodup_append.mp distinct).2.2 e.1 member e.1 List.mem_cons_self rfl
        rw [List.foldl_cons, put_of_new new]
        rw [ih (front ++ [e]) (by rwa [List.append_assoc]), List.append_assoc]
        rfl
  exact built [] distinct

theorem quote_cons (lawful : T.Lawful) (s : String) : ∃ text, T.quote s = '"' :: text := by
  have head := lawful.quote_head s
  cases quoted : T.quote s with
  | nil =>
      rw [quoted] at head
      cases head
  | cons c text =>
      rw [quoted] at head
      cases head
      exact ⟨text, rfl⟩

/-- An entry is read as its value is. -/
theorem readEntry_print (lawful : T.Lawful) {value : Reader (JsonValue N)}
    (e : String × JsonValue N) (rest : List Char) :
    readEntry T value (printEntry T e ++ rest) =
      (value (print T e.2 ++ rest)).map (Prod.map (Prod.mk e.1) id) := by
  obtain ⟨text, quoted⟩ := quote_cons lawful e.1
  have key := lawful.readString_quote e.1 (':' :: (print T e.2 ++ rest))
  rw [quoted, List.cons_append] at key
  have entry : printEntry T e ++ rest = '"' :: (text ++ ':' :: (print T e.2 ++ rest)) := by
    rw [printEntry, quoted, List.cons_append, List.cons_append, List.append_assoc,
      List.cons_append]
  rw [readEntry, entry, skipSpace_cons (by decide)]
  simp only [key, skipSpace_cons (show isSpace ':' = false by decide)]
  cases value (print T e.2 ++ rest) <;> rfl

/-! ### Values -/

/-- The texts of values start with one of these. -/
def Starts (c : Char) : Prop :=
  c = 'n' ∨ c = 't' ∨ c = 'f' ∨ c = '"' ∨ c = '[' ∨ c = '{' ∨ c = '-' ∨ c.isDigit = true

theorem Starts.visible {c : Char} (starts : Starts c) : isSpace c = false := by
  rcases starts with rfl | rfl | rfl | rfl | rfl | rfl | rfl | digit
  any_goals decide
  simp only [isSpace, Bool.or_eq_false_iff, decide_eq_false_iff_not]
  refine ⟨⟨⟨?_, ?_⟩, ?_⟩, ?_⟩ <;> rintro rfl <;> cases digit

theorem Starts.ne {c close : Char} (starts : Starts c) (closing : close = ']' ∨ close = '}') :
    c ≠ close := by
  rintro rfl
  rcases closing with rfl | rfl <;> exact absurd starts (by simp [Starts])

theorem print_cons (lawful : T.Lawful) (v : JsonValue N) :
    ∃ c text, print T v = c :: text ∧ Starts c := by
  cases v with
  | null => exact ⟨'n', "ull".toList, rfl, .inl rfl⟩
  | bool b =>
      cases b with
      | true => exact ⟨'t', "rue".toList, rfl, .inr (.inl rfl)⟩
      | false => exact ⟨'f', "alse".toList, rfl, .inr (.inr (.inl rfl))⟩
  | number n =>
      obtain ⟨c, head, starts⟩ := lawful.number_head n
      cases text : T.number n with
      | nil =>
          rw [text] at head
          cases head
      | cons d rest =>
          rw [text] at head
          cases head
          refine ⟨c, rest, text, ?_⟩
          rcases starts with rfl | digit
          · simp [Starts]
          · simp [Starts, digit]
  | string s =>
      obtain ⟨text, quoted⟩ := quote_cons lawful s
      exact ⟨'"', text, quoted, by simp [Starts]⟩
  | array items => exact ⟨'[', _, rfl, by simp [Starts]⟩
  | object entries => exact ⟨'{', _, rfl, by simp [Starts]⟩

theorem print_starts (lawful : T.Lawful) (v : JsonValue N) :
    ∃ c text, print T v = c :: text ∧ isSpace c = false ∧ c ≠ ']' := by
  obtain ⟨c, text, head, starts⟩ := print_cons lawful v
  exact ⟨c, text, head, starts.visible, starts.ne (.inl rfl)⟩

theorem printEntry_starts (lawful : T.Lawful) (e : String × JsonValue N) :
    ∃ c text, printEntry T e = c :: text ∧ isSpace c = false ∧ c ≠ '}' := by
  obtain ⟨text, quoted⟩ := quote_cons lawful e.1
  refine ⟨'"', text ++ ':' :: print T e.2, ?_, by decide, by decide⟩
  rw [printEntry, quoted, List.cons_append]

theorem readWith_number {c : Char} (starts : c = '-' ∨ c.isDigit = true)
    (inner : Option (Reader (JsonValue N))) (text : List Char) :
    readWith T inner (c :: text) = (T.readNumber (c :: text)).map (Prod.map .number id) := by
  have visible : isSpace c = false := by
    apply Starts.visible
    rcases starts with rfl | digit
    · simp [Starts]
    · simp [Starts, digit]
  have other : ∀ d : Char, d ≠ '-' → d.isDigit = false → c ≠ d := by
    rintro d minus digit rfl
    rcases starts with same | same
    · exact minus same
    · rw [digit] at same
      cases same
  rw [readWith, skipSpace_cons visible]
  simp only [if_neg (other 'n' (by decide) (by decide)), if_neg (other 't' (by decide) (by decide)),
    if_neg (other 'f' (by decide) (by decide)), if_neg (other '"' (by decide) (by decide)),
    if_neg (other '[' (by decide) (by decide)), if_neg (other '{' (by decide) (by decide)),
    if_pos starts]

theorem readWith_quote (inner : Option (Reader (JsonValue N))) (text : List Char) :
    readWith T inner ('"' :: text) =
      (T.readString ('"' :: text)).map (Prod.map JsonValue.string id) := rfl

theorem readWith_bracket (value : Reader (JsonValue N)) (text : List Char) :
    readWith T (some value) ('[' :: text) =
      (bracketed ']' value text).map (Prod.map JsonValue.array id) := rfl

theorem readWith_brace (value : Reader (JsonValue N)) (text : List Char) :
    readWith T (some value) ('{' :: text) =
      (bracketed '}' (readEntry T value) text).map
        (Prod.map (fun entries => JsonValue.object (toMap entries)) id) := rfl

/-- A reader for the values in brackets reads what is nested in them. -/
theorem readWith_print (lawful : T.Lawful) {inner : Option (Reader (JsonValue N))} {v : JsonValue N}
    (distinct : v.Distinct)
    (items : ∀ vs, v = .array vs → ∃ value, inner = some value ∧
      ∀ w ∈ vs, ∀ rest, Delimited rest → value (print T w ++ rest) = some (w, rest))
    (entries : ∀ es, v = .object es → ∃ value, inner = some value ∧
      ∀ e ∈ es, ∀ rest, Delimited rest → value (print T e.2 ++ rest) = some (e.2, rest))
    {rest : List Char} (delimited : Delimited rest) :
    readWith T inner (print T v ++ rest) = some (v, rest) := by
  cases v with
  | null => rfl
  | bool b => cases b <;> rfl
  | number n =>
      have read := lawful.readNumber_number n rest delimited
      obtain ⟨c, head, starts⟩ := lawful.number_head n
      rw [print]
      cases text : T.number n with
      | nil =>
          rw [text] at head
          cases head
      | cons d digits =>
          rw [text] at head read
          cases head
          rw [List.cons_append] at read ⊢
          rw [readWith_number starts, read]
          rfl
  | string s =>
      have read := lawful.readString_quote s rest
      obtain ⟨text, quoted⟩ := quote_cons lawful s
      rw [print, quoted, List.cons_append]
      rw [quoted, List.cons_append] at read
      rw [readWith_quote, read]
      rfl
  | array vs =>
      obtain ⟨value, rfl, each⟩ := items vs rfl
      have inside := bracketed_intercalate (.inl rfl) (fun w _ => print_starts lawful w) each rest
      rw [print, printAll_eq, List.cons_append, List.append_assoc, List.singleton_append]
      rw [readWith_bracket, inside]
      rfl
  | object es =>
      obtain ⟨value, rfl, each⟩ := entries es rfl
      have read : ∀ e ∈ es, ∀ rest, Delimited rest →
          readEntry T value (printEntry T e ++ rest) = some (e, rest) := by
        intro e member rest delimited
        rw [readEntry_print lawful, each e member rest delimited]
        rfl
      have inside := bracketed_intercalate (.inr rfl)
        (fun e _ => printEntry_starts lawful e) read rest
      rw [print, printEntries_eq, List.cons_append, List.append_assoc, List.singleton_append]
      rw [readWith_brace, inside, Option.map_some, Prod.map_apply,
        toMap_of_nodup (distinct_object.mp distinct).1]
      rfl

/-- What is printed is read back, up to the limit on its depth. -/
theorem read_print (lawful : T.Lawful) {v : JsonValue N} (distinct : v.Distinct) {limit : Nat}
    (shallow : v.depth ≤ limit) {rest : List Char} (delimited : Delimited rest) :
    read T limit (print T v ++ rest) = some (v, rest) := by
  induction limit generalizing v rest with
  | zero =>
      refine readWith_print lawful distinct (fun vs same => ?_) (fun es same => ?_) delimited
      · rw [same, depth] at shallow
        exact absurd shallow (Nat.not_succ_le_zero _)
      · rw [same, depth] at shallow
        exact absurd shallow (Nat.not_succ_le_zero _)
  | succ limit ih =>
      refine readWith_print lawful distinct (fun vs same => ?_) (fun es same => ?_) delimited
      · rw [same, depth] at shallow
        rw [same, distinct_array] at distinct
        have each := depthAll_le.mp (Nat.le_of_succ_le_succ shallow)
        exact ⟨_, rfl, fun w member rest => ih (distinct w member) (each w member)⟩
      · rw [same, depth] at shallow
        rw [same, distinct_object] at distinct
        have each := depthEntries_le.mp (Nat.le_of_succ_le_succ shallow)
        exact ⟨_, rfl, fun e member rest => ih (distinct.2 e member) (each e member)⟩

theorem parse_print (lawful : T.Lawful) {v : JsonValue N} (distinct : v.Distinct) {limit : Nat}
    (shallow : v.depth ≤ limit) : parse T limit (print T v) = some v := by
  have back := read_print lawful distinct shallow delimited_nil
  rw [List.append_nil] at back
  rw [parse, back]
  rfl

/-- Different values have different texts. -/
theorem print_injective (lawful : T.Lawful) {v w : JsonValue N} (distinctV : v.Distinct)
    (distinctW : w.Distinct) (same : print T v = print T w) : v = w := by
  have first := parse_print lawful distinctV (Nat.le_max_left v.depth w.depth)
  have second := parse_print lawful distinctW (Nat.le_max_right v.depth w.depth)
  rw [same, second] at first
  exact (Option.some.inj first).symm

/-- What is nested deeper than the limit is refused: the brackets around the values
that lie too deep are, and what comes before them is read. -/
theorem read_deep (lawful : T.Lawful) {v : JsonValue N} (distinct : v.Distinct) {limit : Nat}
    (deep : limit < v.depth) {rest : List Char} (delimited : Delimited rest) :
    read T limit (print T v ++ rest) = none := by
  induction limit generalizing v rest with
  | zero =>
      cases v with
      | null | bool b | number n | string s => exact absurd deep (Nat.lt_irrefl 0)
      | array vs | object es => rfl
  | succ limit ih =>
      have each (w : JsonValue N) (distinct : w.Distinct) (rest : List Char)
          (delimited : Delimited rest) : read T limit (print T w ++ rest) = some (w, rest) ∨
            read T limit (print T w ++ rest) = none := by
        rcases Nat.lt_or_ge limit w.depth with deep | shallow
        · exact .inr (ih distinct deep delimited)
        · exact .inl (read_print lawful distinct shallow delimited)
      cases v with
      | null | bool b | number n | string s => exact absurd deep (Nat.not_lt_zero _)
      | array vs =>
          rw [distinct_array] at distinct
          obtain ⟨w, member, below⟩ : ∃ w ∈ vs, limit < w.depth := by
            have lies := mt depthAll_le.mpr (Nat.not_le.mpr (Nat.lt_of_succ_lt_succ deep))
            simpa only [not_forall, Nat.not_le, exists_prop] using lies
          have inside := bracketed_refused (.inl rfl) (fun w _ => print_starts lawful w)
            (fun w member => each w (distinct w member))
            ⟨w, member, fun rest => ih (distinct w member) below⟩ rest
          rw [print, printAll_eq, List.cons_append, List.append_assoc, List.singleton_append]
          rw [read, readWith_bracket, inside]
          rfl
      | object es =>
          rw [distinct_object] at distinct
          obtain ⟨e, member, below⟩ : ∃ e ∈ es, limit < e.2.depth := by
            have lies := mt depthEntries_le.mpr (Nat.not_le.mpr (Nat.lt_of_succ_lt_succ deep))
            simpa only [not_forall, Nat.not_le, exists_prop] using lies
          have entries : ∀ e ∈ es, ∀ rest, Delimited rest →
              readEntry T (read T limit) (printEntry T e ++ rest) = some (e, rest) ∨
                readEntry T (read T limit) (printEntry T e ++ rest) = none := by
            intro e member rest delimited
            rw [readEntry_print lawful]
            rcases each e.2 (distinct.2 e member) rest delimited with here | here
            · rw [here]
              exact .inl rfl
            · rw [here]
              exact .inr rfl
          have refused : ∀ rest, Delimited rest →
              readEntry T (read T limit) (printEntry T e ++ rest) = none := by
            intro rest delimited
            rw [readEntry_print lawful, ih (distinct.2 e member) below delimited]
            rfl
          have inside := bracketed_refused (.inr rfl) (fun e _ => printEntry_starts lawful e)
            entries ⟨e, member, refused⟩ rest
          rw [print, printEntries_eq, List.cons_append, List.append_assoc, List.singleton_append]
          rw [read, readWith_brace, inside]
          rfl

theorem parse_deep (lawful : T.Lawful) {v : JsonValue N} (distinct : v.Distinct) {limit : Nat}
    (deep : limit < v.depth) : parse T limit (print T v) = none := by
  have refused := read_deep lawful distinct deep delimited_nil
  rw [List.append_nil] at refused
  rw [parse, refused]

end Reading

end JsonValue
