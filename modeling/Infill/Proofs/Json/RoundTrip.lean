import Infill.Proofs.Json.Ordered
import Infill.Proofs.Json.Scalars

/-!
# Reading written values

A value that is written over several lines is read back (`read_pretty`), if it is one that a document can
hold: its numbers are whole numbers of 64 bits, it is nested no deeper than values are read, and its objects
are ordered.  The proof goes down the nesting.  Behind the first part of an array or object stand the
others, each after a comma and on a line of its own, and then the closing bracket (`blockTail`), and reading
goes through that text part by part.  What the parts are read as may differ from what was written (`ReadsAs`).
-/

set_option autoImplicit false

namespace Infill.Json

/-- The values whose numbers are whole numbers of 64 bits and whose arrays and objects are nested at most
`depth` deep. -/
inductive Bounded : Nat → Json → Prop where
  | null (depth : Nat) : Bounded depth .null
  | bool (depth : Nat) (b : Bool) : Bounded depth (.bool b)
  | number (depth : Nat) {n : Int} (h : (Number.integer n).InRange) : Bounded depth (.number (.integer n))
  | string (depth : Nat) (s : Text) : Bounded depth (.string s)
  | array {depth : Nat} {items : List Json} (h : ∀ item ∈ items, Bounded depth item) :
      Bounded (depth + 1) (.array items)
  | object {depth : Nat} {members : Keyed Json} (h : ∀ member ∈ members, Bounded depth member.2) :
      Bounded (depth + 1) (.object members)

/-- A written value begins with a byte that is neither blank nor a closing bracket, and it is taken off the
input as the other value, at whatever level it was written and whatever may follow it. -/
structure ReadsAs (depth : Nat) (v w : Json) : Prop where
  first (level : Nat) :
    ∃ b tail, Utf8.encode (prettyAt level v) = b :: tail ∧ isSpace b = false ∧ b ≠ ']'.toUInt8
  read (level : Nat) {rest : Bytes} (h : EndsValue rest) :
    readValue depth (Utf8.encode (prettyAt level v) ++ rest) = .ok (w, rest)

/-! ## Blanks -/

/-- Before what is no space, nothing is skipped. -/
theorem skipSpace_cons {b : UInt8} (h : isSpace b = false) (rest : Bytes) :
    skipSpace (b :: rest) = b :: rest := by
  simp [skipSpace, h]

/-- A line break with its indentation is skipped. -/
theorem skipSpace_newLine (level : Nat) (rest : Bytes) :
    skipSpace (Utf8.encode (newLine level) ++ rest) = skipSpace rest := by
  have hblanks : ∀ n : Nat, skipSpace (Utf8.encode (List.replicate n ' ') ++ rest) = skipSpace rest := by
    intro n
    induction n with
    | zero => rfl
    | succ n ih => exact ih
  exact hblanks (2 * level)

/-- Values are read alike at every depth, but for what reads the values inside them. -/
theorem exists_readValue_eq (depth : Nat) : ∃ nested, readValue depth = readValueWith nested := by
  cases depth with
  | zero => exact ⟨none, rfl⟩
  | succ depth => exact ⟨some (readValue depth), rfl⟩

/-- A space before a value is skipped. -/
theorem readValue_space (depth : Nat) (rest : Bytes) :
    readValue depth (' '.toUInt8 :: rest) = readValue depth rest := by
  have hskip : skipSpace (' '.toUInt8 :: rest) = skipSpace rest := rfl
  obtain ⟨nested, hnested⟩ := exists_readValue_eq depth
  rw [hnested, readValueWith, readValueWith, hskip]

/-! ## Arrays and objects -/

/-- What stands in an array or object behind its first part. -/
def blockTail (last : Char) (level : Nat) (parts : List Text) : Text :=
  parts.flatMap (fun part => ',' :: (newLine (level + 1) ++ part)) ++ (newLine level ++ [last])

/-- A block begins with its bracket and its first part. -/
theorem block_cons (first last : Char) (level : Nat) (part : Text) (parts : List Text) :
    block first last level (part :: parts) =
      first :: (newLine (level + 1) ++ (part ++ blockTail last level parts)) := by
  have hjoin : Text.joinWith (',' :: newLine (level + 1)) (part :: parts) =
      part ++ parts.flatMap fun part => ',' :: (newLine (level + 1) ++ part) := by
    unfold Text.joinWith
    induction parts generalizing part with
    | nil => simp
    | cons next parts ih =>
      rw [List.intercalate_cons_cons, ih, List.flatMap_cons]
      simp
  rw [block, hjoin, blockTail]
  · simp
  · simp

/-- Behind a part comes a comma with the next one. -/
theorem blockTail_cons (last : Char) (level : Nat) (part : Text) (parts : List Text) :
    blockTail last level (part :: parts) =
      ',' :: (newLine (level + 1) ++ (part ++ blockTail last level parts)) := by
  simp [blockTail]

/-- Behind a part its value ends. -/
theorem endsValue_blockTail (last : Char) (level : Nat) (parts : List Text) (rest : Bytes) :
    EndsValue (Utf8.encode (blockTail last level parts) ++ rest) := by
  cases parts with
  | nil => exact endsValue_newline _
  | cons part parts =>
    rw [blockTail_cons]
    exact endsValue_comma _

/-- The bytes from the first part of an array or object on. -/
theorem encode_block_cons {first : Char} (h : first.toNat < 0x80) (last : Char) (level : Nat) (part : Text)
    (parts : List Text) (rest : Bytes) :
    Utf8.encode (block first last level (part :: parts)) ++ rest =
      first.toUInt8 :: (Utf8.encode (newLine (level + 1)) ++
        (Utf8.encode part ++ (Utf8.encode (blockTail last level parts) ++ rest))) := by
  rw [block_cons, Utf8.encode_cons_of_ascii h]
  simp

/-- Behind the last part comes the closing bracket. -/
theorem encode_blockTail_nil {last : Char} (h : last.toNat < 0x80) (level : Nat) (rest : Bytes) :
    Utf8.encode (blockTail last level []) ++ rest =
      Utf8.encode (newLine level) ++ last.toUInt8 :: rest := by
  simp [blockTail, Utf8.encode_cons_of_ascii h]

/-- The bytes behind a part are those of a comma and of the next part. -/
theorem encode_blockTail_cons (last : Char) (level : Nat) (part : Text) (parts : List Text)
    (rest : Bytes) :
    Utf8.encode (blockTail last level (part :: parts)) ++ rest =
      ','.toUInt8 :: (Utf8.encode (newLine (level + 1)) ++
        (Utf8.encode part ++ (Utf8.encode (blockTail last level parts) ++ rest))) := by
  have hcomma : ','.toNat < 0x80 := by decide
  rw [blockTail_cons, Utf8.encode_cons_of_ascii hcomma]
  simp

section Items

variable {item : Reader Json} {rounds : Nat} {input rest : Bytes}

/-- A closing bracket ends the items. -/
theorem readItems_close (first : Bool) (h : skipSpace input = ']'.toUInt8 :: rest) :
    readItems item (rounds + 1) first input = .ok ([], rest) := by
  rw [readItems, h]
  exact if_pos rfl

variable {b : UInt8} {tail rest' : Bytes} {v : Json} {vs : List Json}

/-- The first item stands behind the bracket. -/
theorem readItems_first (h : skipSpace input = b :: tail) (hb : b ≠ ']'.toUInt8)
    (hitem : item (b :: tail) = .ok (v, rest)) (hitems : readItems item rounds false rest = .ok (vs, rest')) :
    readItems item (rounds + 1) true input = .ok (v :: vs, rest') := by
  rw [readItems, h]
  dsimp only
  rw [if_neg hb, if_pos rfl]
  exact Result.bind_eq_ok.2 ⟨_, hitem, Result.bind_eq_ok.2 ⟨_, hitems, rfl⟩⟩

/-- Every other item stands behind a comma. -/
theorem readItems_comma (h : skipSpace input = b :: tail) (hb : b ≠ ']'.toUInt8)
    (hitem : item (b :: tail) = .ok (v, rest)) (hitems : readItems item rounds false rest = .ok (vs, rest')) :
    readItems item (rounds + 1) false (','.toUInt8 :: input) = .ok (v :: vs, rest') := by
  rw [readItems, skipSpace_cons rfl]
  dsimp only
  rw [if_neg (by decide), if_neg (by decide), if_pos rfl, h]
  dsimp only
  rw [if_neg hb]
  exact Result.bind_eq_ok.2 ⟨_, hitem, Result.bind_eq_ok.2 ⟨_, hitems, rfl⟩⟩

end Items

/-- The written items of an array are read one after the other, from the second on. -/
theorem readItems_blockTail {depth : Nat} {items : List Json} {f : Json → Json}
    (h : ∀ item ∈ items, ReadsAs depth item (f item)) (level : Nat) (rest : Bytes) {rounds : Nat}
    (hrounds : (Utf8.encode (blockTail ']' level (prettyItems (level + 1) items)) ++ rest).length ≤ rounds) :
    readItems (readValue depth) rounds false
        (Utf8.encode (blockTail ']' level (prettyItems (level + 1) items)) ++ rest) =
      .ok (items.map f, rest) := by
  have hbracket : ']'.toNat < 0x80 := by decide
  induction items generalizing rounds with
  | nil =>
    rw [prettyItems, encode_blockTail_nil hbracket] at hrounds ⊢
    obtain ⟨rounds, rfl⟩ : ∃ k, rounds = k + 1 := Nat.exists_eq_add_one.2 (by simp at hrounds; omega)
    exact readItems_close false (by rw [skipSpace_newLine]; rfl)
  | cons item items ih =>
    obtain ⟨hitem, hitems⟩ := List.forall_mem_cons.1 h
    rw [prettyItems, encode_blockTail_cons] at hrounds ⊢
    simp only [List.length_cons, List.length_append] at hrounds
    obtain ⟨rounds, rfl⟩ : ∃ k, rounds = k + 1 := Nat.exists_eq_add_one.2 (by omega)
    have hrest := @ih hitems rounds (by simp only [List.length_append]; omega)
    obtain ⟨b, tail, htext, hspace, hb⟩ := hitem.first (level + 1)
    have hread := hitem.read (level + 1) (endsValue_blockTail ']' level (prettyItems (level + 1) items) rest)
    rw [htext] at hread ⊢
    refine readItems_comma ?_ hb hread hrest
    rw [skipSpace_newLine]
    exact skipSpace_cons hspace _

section Members

variable {item : Reader Json} {rounds : Nat} {input rest : Bytes}

/-- A closing brace ends the members. -/
theorem readMembers_close (first : Bool) (h : skipSpace input = '\x7d'.toUInt8 :: rest) :
    readMembers item (rounds + 1) first input = .ok ([], rest) := by
  rw [readMembers, h]
  exact if_pos rfl

variable {tail rest' : Bytes} {m : Text × Json} {ms : List (Text × Json)}

/-- The first member stands behind the brace. -/
theorem readMembers_first (h : skipSpace input = '"'.toUInt8 :: tail)
    (hmember : readMember item tail = .ok (m, rest))
    (hmembers : readMembers item rounds false rest = .ok (ms, rest')) :
    readMembers item (rounds + 1) true input = .ok (m :: ms, rest') := by
  rw [readMembers, h]
  dsimp only
  rw [if_neg (by decide), if_pos rfl, if_pos rfl]
  exact Result.bind_eq_ok.2 ⟨_, hmember, Result.bind_eq_ok.2 ⟨_, hmembers, rfl⟩⟩

/-- Every other member stands behind a comma. -/
theorem readMembers_comma (h : skipSpace input = '"'.toUInt8 :: tail)
    (hmember : readMember item tail = .ok (m, rest))
    (hmembers : readMembers item rounds false rest = .ok (ms, rest')) :
    readMembers item (rounds + 1) false (','.toUInt8 :: input) = .ok (m :: ms, rest') := by
  rw [readMembers, skipSpace_cons rfl]
  dsimp only
  rw [if_neg (by decide), if_neg (by decide), if_pos rfl, h]
  dsimp only
  rw [if_pos rfl]
  exact Result.bind_eq_ok.2 ⟨_, hmember, Result.bind_eq_ok.2 ⟨_, hmembers, rfl⟩⟩

end Members

/-- The bytes of a member: a key between quotes, a colon and a blank, and the value. -/
theorem encode_member (key t : Text) (rest : Bytes) :
    Utf8.encode (quoted key ++ ':' :: ' ' :: t) ++ rest =
      '"'.toUInt8 :: (Utf8.encode (key.flatMap escapeChar ++ ['"']) ++
        ':'.toUInt8 :: ' '.toUInt8 :: (Utf8.encode t ++ rest)) := by
  have hquote : '"'.toNat < 0x80 := by decide
  have hcolon : ':'.toNat < 0x80 := by decide
  have hblank : ' '.toNat < 0x80 := by decide
  rw [quoted, List.cons_append, Utf8.encode_cons_of_ascii hquote, Utf8.encode_append,
    Utf8.encode_cons_of_ascii hcolon, Utf8.encode_cons_of_ascii hblank]
  simp

/-- A member is read if its value is. -/
theorem readMember_of_readsAs {depth : Nat} {v w : Json} (h : ReadsAs depth v w) (key : Text) (level : Nat)
    {rest : Bytes} (hrest : EndsValue rest) :
    readMember (readValue depth) (Utf8.encode (key.flatMap escapeChar ++ ['"']) ++
        ':'.toUInt8 :: ' '.toUInt8 :: (Utf8.encode (prettyAt level v) ++ rest)) =
      .ok ((key, w), rest) := by
  rw [readMember]
  refine Result.bind_eq_ok.2 ⟨_, readString_quoted key _, ?_⟩
  dsimp only
  rw [skipSpace_cons rfl]
  dsimp only
  rw [if_pos rfl, readValue_space]
  exact Result.bind_eq_ok.2 ⟨_, h.read level hrest, rfl⟩

/-- The written members of an object are read one after the other, from the second on. -/
theorem readMembers_blockTail {depth : Nat} {members : List (Text × Json)} {f : Json → Json}
    (h : ∀ member ∈ members, ReadsAs depth member.2 (f member.2)) (level : Nat) (rest : Bytes) {rounds : Nat}
    (hrounds : (Utf8.encode (blockTail '\x7d' level (prettyMembers (level + 1) members)) ++ rest).length ≤
      rounds) :
    readMembers (readValue depth) rounds false
        (Utf8.encode (blockTail '\x7d' level (prettyMembers (level + 1) members)) ++ rest) =
      .ok (members.map fun member => (member.1, f member.2), rest) := by
  have hbrace : '\x7d'.toNat < 0x80 := by decide
  induction members generalizing rounds with
  | nil =>
    rw [prettyMembers, encode_blockTail_nil hbrace] at hrounds ⊢
    obtain ⟨rounds, rfl⟩ : ∃ k, rounds = k + 1 := Nat.exists_eq_add_one.2 (by simp at hrounds; omega)
    exact readMembers_close false (by rw [skipSpace_newLine]; rfl)
  | cons member members ih =>
    obtain ⟨key, value⟩ := member
    obtain ⟨hmember, hmembers⟩ := List.forall_mem_cons.1 h
    rw [prettyMembers, encode_blockTail_cons] at hrounds ⊢
    simp only [List.length_cons, List.length_append] at hrounds
    obtain ⟨rounds, rfl⟩ : ∃ k, rounds = k + 1 := Nat.exists_eq_add_one.2 (by omega)
    have hrest := @ih hmembers rounds (by simp only [List.length_append]; omega)
    have hread := readMember_of_readsAs hmember key (level + 1)
      (endsValue_blockTail '\x7d' level (prettyMembers (level + 1) members) rest)
    refine readMembers_comma ?_ hread hrest
    rw [skipSpace_newLine, encode_member]
    exact skipSpace_cons rfl _

/-! ## Values -/

section Containers

variable {item : Reader Json} {rest rest' : Bytes}

/-- Behind a bracket the items are read. -/
theorem readValueWith_array {items : List Json}
    (h : readItems item (rest.length + 1) true rest = .ok (items, rest')) :
    readValueWith (some item) ('['.toUInt8 :: rest) = .ok (.array items, rest') := by
  rw [readValueWith, skipSpace_cons rfl]
  exact Result.bind_eq_ok.2 ⟨_, h, rfl⟩

/-- Behind a brace the members are read. -/
theorem readValueWith_object {members : List (Text × Json)}
    (h : readMembers item (rest.length + 1) true rest = .ok (members, rest')) :
    readValueWith (some item) ('\x7b'.toUInt8 :: rest) = .ok (.object (Keyed.ofList members), rest') := by
  rw [readValueWith, skipSpace_cons rfl]
  exact Result.bind_eq_ok.2 ⟨_, h, rfl⟩

end Containers

/-- An array is read if its items are. -/
theorem readsAs_array {depth : Nat} {items : List Json} (f : Json → Json)
    (h : ∀ item ∈ items, ReadsAs depth item (f item)) :
    ReadsAs (depth + 1) (.array items) (.array (items.map f)) := by
  have hopen : '['.toNat < 0x80 := by decide
  constructor
  · intro level
    cases items with
    | nil => exact ⟨_, _, rfl, rfl, by decide⟩
    | cons item items =>
      have htext := encode_block_cons hopen ']' level (prettyAt (level + 1) item)
        (prettyItems (level + 1) items) []
      rw [List.append_nil] at htext
      exact ⟨_, _, htext, rfl, by decide⟩
  · intro level rest _
    cases items with
    | nil =>
      apply readValueWith_array
      exact readItems_close true (skipSpace_cons rfl rest)
    | cons item items =>
      obtain ⟨hitem, hitems⟩ := List.forall_mem_cons.1 h
      obtain ⟨b, tail, htext, hspace, hb⟩ := hitem.first (level + 1)
      have hread := hitem.read (level + 1) (endsValue_blockTail ']' level (prettyItems (level + 1) items) rest)
      rw [prettyAt, prettyItems, encode_block_cons hopen, readValue]
      apply readValueWith_array
      rw [htext] at hread ⊢
      refine readItems_first ?_ hb hread (readItems_blockTail hitems level rest ?_)
      · rw [skipSpace_newLine]
        exact skipSpace_cons hspace _
      · simp only [List.length_append, List.length_cons]
        omega

/-- An object is read if its members are. -/
theorem readsAs_object {depth : Nat} {members : Keyed Json} (f : Json → Json)
    (h : ∀ member ∈ members, ReadsAs depth member.2 (f member.2)) :
    ReadsAs (depth + 1) (.object members)
      (.object (Keyed.ofList (members.map fun member => (member.1, f member.2)))) := by
  have hopen : '\x7b'.toNat < 0x80 := by decide
  constructor
  · intro level
    cases members with
    | nil => exact ⟨_, _, rfl, rfl, by decide⟩
    | cons member members =>
      have htext := encode_block_cons hopen '\x7d' level
        (quoted member.1 ++ ':' :: ' ' :: prettyAt (level + 1) member.2) (prettyMembers (level + 1) members) []
      rw [List.append_nil] at htext
      exact ⟨_, _, htext, rfl, by decide⟩
  · intro level rest _
    cases members with
    | nil =>
      apply readValueWith_object
      exact readMembers_close true (skipSpace_cons rfl rest)
    | cons member members =>
      obtain ⟨key, value⟩ := member
      obtain ⟨hmember, hmembers⟩ := List.forall_mem_cons.1 h
      have hread := readMember_of_readsAs hmember key (level + 1)
        (endsValue_blockTail '\x7d' level (prettyMembers (level + 1) members) rest)
      rw [prettyAt, prettyMembers, encode_block_cons hopen, readValue]
      apply readValueWith_object
      refine readMembers_first ?_ hread (readMembers_blockTail hmembers level rest ?_)
      · rw [skipSpace_newLine, encode_member]
        exact skipSpace_cons rfl _
      · simp only [List.length_append]
        omega

section Number

variable {b : UInt8} (hb : b = '-'.toUInt8 ∨ isDigit b = true)
include hb

/-- What begins a number is nothing else. -/
theorem ne_of_beginsNumber (c : UInt8) (hminus : c ≠ '-'.toUInt8) (hdigit : isDigit c = false) : b ≠ c := by
  rintro rfl
  rcases hb with hb | hb
  · exact hminus hb
  · rw [hdigit] at hb
    cases hb

/-- What begins a number is no space. -/
theorem not_isSpace_of_beginsNumber : isSpace b = false := by
  have hother := ne_of_beginsNumber hb
  simp only [isSpace, Bool.or_eq_false_iff, beq_eq_false_iff_ne]
  exact ⟨⟨⟨hother _ (by decide) rfl, hother _ (by decide) rfl⟩, hother _ (by decide) rfl⟩,
    hother _ (by decide) rfl⟩

/-- What begins as a number is read as one. -/
theorem readValueWith_number (nested : Option (Reader Json)) {rest rest' : Bytes} {n : Number}
    (h : readNumber (b :: rest) = .ok (n, rest')) :
    readValueWith nested (b :: rest) = .ok (.number n, rest') := by
  have hother := ne_of_beginsNumber hb
  rw [readValueWith, skipSpace_cons (not_isSpace_of_beginsNumber hb)]
  dsimp only
  rw [if_neg (hother _ (by decide) rfl), if_neg (hother _ (by decide) rfl),
    if_neg (hother _ (by decide) rfl), if_pos hb]
  exact Result.bind_eq_ok.2 ⟨_, h, rfl⟩

end Number

/-- What is read as a number at its place is read as a value there. -/
theorem readsAs_number (depth : Nat) {n m : Number}
    (hfirst : ∃ b tail, Utf8.encode (numberText n) = b :: tail ∧ (b = '-'.toUInt8 ∨ isDigit b = true))
    (h : ∀ rest, EndsValue rest → readNumber (Utf8.encode (numberText n) ++ rest) = .ok (m, rest)) :
    ReadsAs depth (.number n) (.number m) := by
  obtain ⟨b, tail, htext, hb⟩ := hfirst
  have hbracket : b ≠ ']'.toUInt8 := ne_of_beginsNumber hb _ (by decide) rfl
  refine ⟨fun level => ⟨b, tail, htext, not_isSpace_of_beginsNumber hb, hbracket⟩, ?_⟩
  intro level rest hrest
  have hread := h rest hrest
  obtain ⟨nested, hnested⟩ := exists_readValue_eq depth
  rw [prettyAt, hnested]
  rw [htext] at hread ⊢
  exact readValueWith_number hb nested hread

/-- A whole number is read as itself. -/
theorem readsAs_integer (depth : Nat) {n : Int} (h : (Number.integer n).InRange) :
    ReadsAs depth (.number (.integer n)) (.number (.integer n)) :=
  readsAs_number depth (exists_cons_ofInt n) fun _ hrest => readNumber_ofInt h hrest

/-- Null is read as itself. -/
theorem readsAs_null (depth : Nat) : ReadsAs depth .null .null := by
  refine ⟨fun level => ⟨_, _, rfl, rfl, by decide⟩, fun level rest _ => ?_⟩
  cases depth <;> rfl

/-- A truth value is read as itself. -/
theorem readsAs_bool (depth : Nat) (b : Bool) : ReadsAs depth (.bool b) (.bool b) := by
  refine ⟨fun level => ?_, fun level rest _ => ?_⟩
  · cases b <;> exact ⟨_, _, rfl, rfl, by decide⟩
  · cases b <;> cases depth <;> rfl

/-- A text is read as itself. -/
theorem readsAs_string (depth : Nat) (s : Text) : ReadsAs depth (.string s) (.string s) := by
  refine ⟨fun level => ⟨_, _, rfl, rfl, by decide⟩, fun level rest _ => ?_⟩
  have hquote : '"'.toNat < 0x80 := by decide
  obtain ⟨nested, hnested⟩ := exists_readValue_eq depth
  rw [prettyAt, quoted, Utf8.encode_cons_of_ascii hquote, List.cons_append, hnested, readValueWith,
    skipSpace_cons rfl]
  exact Result.bind_eq_ok.2 ⟨_, readString_quoted s rest, rfl⟩

/-- Every value that a document can hold is read back. -/
theorem readsAs_self {depth : Nat} {v : Json} (h : Bounded depth v) (hordered : v.Ordered) :
    ReadsAs depth v v := by
  induction h with
  | null depth => exact readsAs_null depth
  | bool depth b => exact readsAs_bool depth b
  | number depth h => exact readsAs_integer depth h
  | string depth s => exact readsAs_string depth s
  | @array _ items _ ih =>
    cases hordered with
    | array hitems =>
      have harray := readsAs_array id fun item hitem => ih item hitem (hitems item hitem)
      rwa [List.map_id] at harray
  | @object _ members _ ih =>
    cases hordered with
    | object hsorted hmembers =>
      have hobject := readsAs_object id fun member hmember => ih member hmember (hmembers member hmember)
      have hsame : (members.map fun member => (member.1, id member.2)) = members := List.map_id' members
      rwa [hsame, Keyed.ofList_of_sorted hsorted] at hobject

/-- What a value that is written over several lines is read as. -/
theorem read_pretty_of_readsAs {v w : Json} (h : ReadsAs maxDepth v w) : read (Utf8.encode (pretty v)) = .ok w := by
  have hread := h.read 0 endsValue_nil
  rw [List.append_nil] at hread
  have hdocument : readDocument (Utf8.encode (pretty v)) = .ok w :=
    Result.bind_eq_ok.2 ⟨_, hread, rfl⟩
  rw [read, hdocument]
  rfl

/-- A value that is written over several lines is read back. -/
theorem read_pretty {v : Json} (h : Bounded maxDepth v) (hordered : v.Ordered) :
    read (Utf8.encode (pretty v)) = .ok v :=
  read_pretty_of_readsAs (readsAs_self h hordered)

end Infill.Json
