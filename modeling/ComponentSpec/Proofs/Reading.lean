import ComponentSpec.Build
import ComponentSpec.Json.Writer
import ComponentSpec.Proofs.Checked
import ComponentSpec.Proofs.Escapes
import ComponentSpec.Proofs.Tables

/-!
# Reading what was written

A document that was written as JSON is read back as it was, and so is a file that holds its bytes.
This is said here of plain documents: the numbers they hold are natural and not too long, and the
texts in them are read back. What is too long is refused wherever it stands alone.

The reader is bounded by a depth, and each of its three loops calls the others with a smaller bound.
What they make of a written text is therefore shown for all three at once, by induction on the bound
(`Json.reads`), one loop at a time (`Json.readsValue_succ`, `Json.readsItems_succ`,
`Json.readsEntries_succ`).

* `Utf8.decode_encode` — a text of ASCII characters is read from its bytes;
* `Json.isPlain` — the documents that are dealt with here;
* `Json.parse_write` — a written document is read back;
* `Json.parse_longInteger` — an integer that is too long is not read;
* `loadTree_written` — so is the tree in a file.
-/

namespace ComponentSpec

namespace Utf8

/-- The bytes of an array, from a place on, behind those that were listed before. -/
theorem loop_toList (bs : ByteArray) (i : Nat) (done : List UInt8) :
    ByteArray.toList.loop bs i done = done.reverse ++ bs.data.toList.drop i := by
  -- along the loop, which keeps what it has read in reverse
  fun_induction ByteArray.toList.loop bs i done with
  | case1 i done inside ih =>
    have next : i < bs.data.toList.length := inside
    have read : bs.get! i = bs.data.toList[i] := by
      rw [ByteArray.get!, Array.getElem_toList]
      exact getElem!_pos bs.data i inside
    rw [ih, List.drop_eq_getElem_cons next, List.reverse_cons, List.append_assoc, read,
      List.singleton_append]
  | case2 i done outside =>
    have past : bs.data.toList.length ≤ i := Nat.le_of_not_lt outside
    rw [List.drop_eq_nil_of_le past, List.append_nil]

/-- **The bytes of a text** are those of its characters. -/
theorem encode_eq (s : String) : encode s = s.toList.flatMap String.utf8EncodeChar := by
  rw [encode, ByteArray.toList, loop_toList, String.toUTF8, ← String.ofList_toList (s := s),
    String.toByteArray_ofList, List.utf8Encode, List.toList_data_toByteArray, String.toList_ofList]
  rfl

/-- Each ASCII character is one byte, which leads no others, so the offset of the next does not
matter. -/
theorem decodeFrom_ascii (offset : Nat) {cs : List Char} (ascii : ∀ c ∈ cs, c.toNat < 0x80) :
    decodeFrom offset (cs.flatMap String.utf8EncodeChar) = .ok cs := by
  induction cs generalizing offset with
  | nil => rw [List.flatMap_nil, decodeFrom]
  | cons c cs ih =>
    -- the character is one byte, and that byte leads no others
    have single : c.toNat < 0x80 := ascii c List.mem_cons_self
    have byte : (UInt8.ofNat c.toNat).toNat = c.toNat := by
      rw [UInt8.toNat_ofNat']
      omega
    have bytes : String.utf8EncodeChar c = [UInt8.ofNat c.toNat] := by
      have low : c.val.toNat ≤ 127 := Nat.le_of_lt_succ single
      rw [String.utf8EncodeChar, if_pos low]
      rfl
    have lead : lead? (UInt8.ofNat c.toNat) = some (0, 0, 0, c.toNat) := by
      rw [lead?, if_pos (by rw [UInt8.le_iff_toNat_le, byte]; exact Nat.le_of_lt_succ single), byte]
    rw [List.flatMap_cons, bytes, List.singleton_append, decodeFrom, lead]
    simp only [tails, ih _ fun c hc => ascii c (List.mem_cons_of_mem _ hc), Char.ofNat_toNat]

/-- **A text of ASCII characters is read from its bytes.** -/
theorem decode_encode {s : String} (ascii : ∀ c ∈ s.toList, c.toNat < 0x80) :
    decode (encode s) = .ok s := by
  rw [decode, encode_eq, decodeFrom_ascii 0 ascii]
  exact congrArg Except.ok String.ofList_toList

end Utf8

/-- A text without carriage returns keeps its lines. -/
theorem Text.unifyLines_eq {cs : List Char} (plain : '\r' ∉ cs) : unifyLines cs = cs := by
  induction cs with
  | nil => rfl
  | cons c cs ih =>
    obtain ⟨other, plain⟩ := List.ne_and_not_mem_of_not_mem_cons plain
    rw [unifyLines, ih plain]
    · exact fun cs same => absurd same.symm other
    · exact fun same => absurd same.symm other

/-! ### Plain documents -/

namespace Json

open Checked

mutual

/-- **A plain document:** its numbers are natural and not too long, its texts are read back, and its
keys are texts that do not repeat. -/
def isPlain : Value → Bool
  | .scalar (.str s) => isPlainText s
  | .scalar (.int (.ofNat n)) => (Nat.toDigits 10 n).length ≤ maxDigits
  | .scalar .null | .scalar (.bool _) => true
  | .scalar _ => false
  | .arr vs => arePlain vs
  | .obj es => arePlainEntries es

def arePlain : List Value → Bool
  | [] => true
  | v :: vs => isPlain v && arePlain vs

def arePlainEntries : List (Scalar × Value) → Bool
  | [] => true
  | (.str key, v) :: es =>
    isPlainText key && !Table.has es (.str key) && isPlain v && arePlainEntries es
  | _ :: _ => false

end

theorem arePlain_cons {v : Value} {vs : List Value} :
    arePlain (v :: vs) ↔ isPlain v ∧ arePlain vs := by
  rw [arePlain, Bool.and_eq_true]

theorem arePlainEntries_cons {k : Scalar} {v : Value} {es : Table Value} :
    arePlainEntries ((k, v) :: es) ↔ ∃ key, k = .str key ∧ isPlainText key ∧
      Table.has es (.str key) = false ∧ isPlain v ∧ arePlainEntries es := by
  match k with
  | .str key => simp [arePlainEntries, and_assoc]
  | .null | .bool _ | .int _ | .float _ => simp [arePlainEntries]

/-! ### Reading numbers -/

/-- What may come after a number in a document: nothing, a comma, or the end of the line. -/
def Separated (rest : List Char) : Prop := ∀ c ∈ rest.head?, c = ',' ∨ c = '\n'

theorem separated_nil : Separated [] := fun _ h => nomatch h

theorem separated_comma {cs : List Char} : Separated (',' :: cs) :=
  fun _ h => .inl (Option.some.inj h).symm

theorem separated_line {cs : List Char} : Separated ('\n' :: cs) :=
  fun _ h => .inr (Option.some.inj h).symm

theorem toList_scalarText_nat (n : Nat) :
    (scalarText (.int (.ofNat n))).toList = Nat.toDigits 10 n := Nat.toList_repr

/-- The digits of the library are those of the reader. -/
theorem isDigit_of_mem_toDigits {n : Nat} {c : Char} (h : c ∈ Nat.toDigits 10 n) : isDigit c := by
  have digit := Nat.isDigit_of_mem_toDigits (by decide) (by decide) h
  simp only [Char.isDigit, Bool.and_eq_true, decide_eq_true_eq] at digit
  simp only [isDigit, Bool.and_eq_true, decide_eq_true_eq]
  exact digit

/-- A positive number is not written with a zero at its front. -/
theorem exists_toDigits_eq_cons {n : Nat} (pos : 0 < n) :
    ∃ d ds, Nat.toDigits 10 n = d :: ds ∧ d ≠ '0' := by
  induction n using Nat.strongRecOn with
  | ind n ih =>
    by_cases small : n < 10
    · have nonzero : ∀ m < 10, 0 < m → m.digitChar ≠ '0' := by decide
      exact ⟨_, _, Nat.toDigits_of_lt_base small, nonzero n small pos⟩
    · obtain ⟨d, ds, front, nonzero⟩ := ih (n / 10) (by omega) (by omega)
      refine ⟨d, ds ++ [(n % 10).digitChar], ?_, nonzero⟩
      rw [Nat.toDigits_of_base_le (by decide) (by omega), front, List.cons_append]

/-- The reader sums the digits up as the library does. -/
theorem digitsValue_toDigits (n : Nat) : digitsValue (Nat.toDigits 10 n) = n := by
  have value : Nat.ofDigitChars 10 (Nat.toDigits 10 n) 0 = n :=
    Nat.ofDigitChars_toDigits (by decide) (by decide)
  rw [Nat.ofDigitChars] at value
  simpa only [digitsValue, Nat.mul_comm 10] using value

/-- All digits are taken, and nothing else. -/
theorem digits_append {ds : List Char} (all : ∀ c ∈ ds, isDigit c) {rest : List Char}
    (h : Separated rest) : digits (ds ++ rest) = (ds, rest) := by
  rw [digits, List.takeWhile_append_of_pos all, List.dropWhile_append_of_pos all]
  cases rest with
  | nil => simp
  | cons c cs =>
    -- neither a comma nor the end of the line is a digit
    have other : isDigit c = false := by
      rcases h c rfl with rfl | rfl <;> decide
    rw [List.takeWhile_cons_of_neg (by simp [other]), List.dropWhile_cons_of_neg (by simp [other]),
      List.append_nil]

/-- Neither a fraction nor an exponent begins there. -/
theorem fraction_of_separated {rest : List Char} (h : Separated rest) :
    fraction rest = ([], rest) ∧ exponent? rest = none := by
  cases rest with
  | nil => exact ⟨rfl, rfl⟩
  | cons c cs => rcases h c rfl with rfl | rfl <;> exact ⟨rfl, rfl⟩

/-- **Digits alone are an integer,** if there are not too many of them. -/
theorem number_of_digits (start : List Char) {d : Char} {ds : List Char} (nonzero : d ≠ '0')
    (all : ∀ c ∈ d :: ds, isDigit c) {rest : List Char} (h : Separated rest) :
    number start false (d :: ds ++ rest) =
      (integer false (d :: ds)).map fun n => (n, rest) := by
  obtain ⟨noFraction, noExponent⟩ := fraction_of_separated h
  have whole := digits_append all h
  rw [List.cons_append] at whole ⊢
  simp [number, nonzero, whole, noFraction, noExponent]

/-- **A natural number is read back,** if it is not too long. Zero is apart, since no digit may
follow a zero at the front. -/
theorem number_toDigits (start : List Char) {n : Nat}
    (short : (Nat.toDigits 10 n).length ≤ maxDigits) {rest : List Char} (h : Separated rest) :
    number start false (Nat.toDigits 10 n ++ rest) = .ok (.int n, rest) := by
  have taken : integer false (Nat.toDigits 10 n) = .ok (.int n) := by
    rw [integer, if_neg (Nat.not_lt.2 short), digitsValue_toDigits, if_neg Bool.false_ne_true]
  rcases Nat.eq_zero_or_pos n with rfl | pos
  · obtain ⟨noFraction, noExponent⟩ := fraction_of_separated h
    have zero : Nat.toDigits 10 0 = ['0'] := rfl
    rw [zero] at taken ⊢
    simp [number, noFraction, noExponent, taken, Except.map]
  · have all : ∀ c ∈ Nat.toDigits 10 n, isDigit c := fun c hc => isDigit_of_mem_toDigits hc
    obtain ⟨d, ds, front, nonzero⟩ := exists_toDigits_eq_cons pos
    rw [front] at taken all ⊢
    rw [number_of_digits start nonzero all h, taken, Except.map]

/-- What is no digit differs from every digit. -/
theorem ne_of_isDigit {c d : Char} (digit : isDigit d) (noDigit : isDigit c = false) : d ≠ c := by
  rintro rfl
  rw [digit] at noDigit
  cases noDigit

theorem isBlank_of_isDigit {d : Char} (digit : isDigit d) : isBlank d = false := by
  have apart {c : Char} (noDigit : isDigit c = false) : d ≠ c := ne_of_isDigit digit noDigit
  simp only [isBlank, Bool.or_eq_false_iff, beq_eq_false_iff_ne]
  exact ⟨⟨⟨apart rfl, apart rfl⟩, apart rfl⟩, apart rfl⟩

/-- No word begins with a digit. -/
theorem word?_of_isDigit {word : String} {c d : Char} {cs ds : List Char} (digit : isDigit d)
    (starts : word.toList = c :: cs) (noDigit : isDigit c = false) :
    word? word (d :: ds) = none := by
  have apart := (ne_of_isDigit digit noDigit).symm
  rw [word?, starts, List.isPrefixOf_cons_cons, beq_false_of_ne apart, Bool.false_and,
    if_neg (by simp)]

/-- What begins with a digit is no text, no list, no object and no word. -/
theorem value_of_isDigit {d : Char} (digit : isDigit d) (ds : List Char) (fuel : Nat) :
    value (fuel + 1) (d :: ds) =
      (number (d :: ds) false (d :: ds)).map fun r => (.scalar r.1, r.2) := by
  have noWord (word : String) (c : Char) (cs : List Char) (starts : word.toList = c :: cs)
      (noDigit : isDigit c = false) : word? word (d :: ds) = none :=
    word?_of_isDigit digit starts noDigit
  have isPlain : value (fuel + 1) (d :: ds) = plain (d :: ds) := by
    unfold value
    split
    · next same => exact absurd (List.cons.inj same).1 (ne_of_isDigit digit rfl)
    · next same => exact absurd (List.cons.inj same).1 (ne_of_isDigit digit rfl)
    · next same => exact absurd (List.cons.inj same).1 (ne_of_isDigit digit rfl)
    · rfl
  have noMinus : ∀ rest, d :: ds = '-' :: rest → False :=
    fun _ same => ne_of_isDigit digit rfl (List.cons.inj same).1
  rw [isPlain, plain]
  simp only [List.findSome?_cons, List.findSome?_nil, noWord "null" 'n' _ rfl rfl,
    noWord "true" 't' _ rfl rfl, noWord "false" 'f' _ rfl rfl, noWord "NaN" 'N' _ rfl rfl,
    noWord "Infinity" 'I' _ rfl rfl, noWord "-Infinity" '-' _ rfl rfl, Option.map_none]
  cases number (d :: ds) false (d :: ds) <;> rfl

/-- A number has a first digit. -/
theorem exists_isDigit_toDigits (n : Nat) : ∃ d ds, Nat.toDigits 10 n = d :: ds ∧ isDigit d := by
  obtain ⟨d, ds, front⟩ :=
    List.exists_cons_of_length_pos (Nat.length_toDigits_pos (b := 10) (n := n))
  exact ⟨d, ds, front, isDigit_of_mem_toDigits (n := n) (by rw [front]; exact List.mem_cons_self)⟩

theorem value_toDigits {n : Nat} (short : (Nat.toDigits 10 n).length ≤ maxDigits)
    {rest : List Char} (h : Separated rest) (fuel : Nat) :
    value (fuel + 1) (Nat.toDigits 10 n ++ rest) = .ok (.int n, rest) := by
  have read := fun start => number_toDigits start short h
  obtain ⟨d, ds, front, digit⟩ := exists_isDigit_toDigits n
  rw [front, List.cons_append] at read ⊢
  rw [value_of_isDigit digit, read, Except.map]

/-! ### Blanks -/

/-- A margin: nothing but blanks. -/
def Blank (margin : String) : Prop := ∀ c ∈ margin.toList, c = ' '

theorem blank_empty : Blank "" := fun _ hc => absurd hc List.not_mem_nil

theorem blank_replicate (n : Nat) : Blank (String.ofList (List.replicate n ' ')) := by
  intro c hc
  rw [String.toList_ofList] at hc
  exact List.eq_of_mem_replicate hc

/-- One level deeper, the margin is still blank. -/
theorem Blank.append {margin unit : String} (blank : Blank margin) (blankUnit : Blank unit) :
    Blank (margin ++ unit) := by
  intro c hc
  rw [String.toList_append, List.mem_append] at hc
  exact hc.elim (blank c) (blankUnit c)

/-- What is no blank is not skipped, nor what stands after it. -/
theorem skipBlanks_cons {c : Char} (cs : List Char) (seen : isBlank c = false) :
    skipBlanks (c :: cs) = c :: cs :=
  List.dropWhile_cons_of_neg (by simp [seen])

/-- What a line starts with is not read. -/
theorem skipBlanks_line {margin : String} (blank : Blank margin) {c : Char} (cs : List Char)
    (h : isBlank c = false) : skipBlanks ('\n' :: (margin.toList ++ c :: cs)) = c :: cs := by
  have all : ∀ c ∈ margin.toList, isBlank c = true := fun c hc => by rw [blank c hc]; rfl
  rw [skipBlanks, List.dropWhile_cons_of_pos rfl, List.dropWhile_append_of_pos all]
  exact skipBlanks_cons cs h

/-! ### Written lists and objects -/

section Layout

variable (unit margin : String)

/-- A list that is not empty: the bracket, the first item on a line of its own with the margin of
the next level, the other items, and the closing bracket on a line of its own. -/
theorem toList_layout_arr (v : Value) (vs : List Value) :
    (layout unit margin (.arr (v :: vs))).toList =
      '[' :: '\n' :: ((margin ++ unit).toList ++ ((layout unit (margin ++ unit) v).toList ++
        ((layoutItems unit (margin ++ unit) vs).toList ++ '\n' :: (margin.toList ++ [']'])))) := by
  rw [layout]
  simp only [String.toList_append, List.append_assoc]
  rfl

/-- An object that is not empty is laid out like a list, each entry with its key before it. -/
theorem toList_layout_obj (k : Scalar) (v : Value) (es : Table Value) :
    (layout unit margin (.obj ((k, v) :: es))).toList =
      '\x7b' :: '\n' :: ((margin ++ unit).toList ++ ((keyText k).toList ++ ':' :: ' ' ::
        ((layout unit (margin ++ unit) v).toList ++ ((layoutEntries unit (margin ++ unit) es).toList
          ++ '\n' :: (margin.toList ++ ['\x7d']))))) := by
  rw [layout]
  simp only [String.toList_append, List.append_assoc]
  rfl

/-- A further item stands behind a comma, on a line of its own. -/
theorem toList_layoutItems (v : Value) (vs : List Value) :
    (layoutItems unit margin (v :: vs)).toList = ',' :: '\n' :: (margin.toList ++
      ((layout unit margin v).toList ++ (layoutItems unit margin vs).toList)) := by
  rw [layoutItems]
  simp only [String.toList_append, List.append_assoc]
  rfl

theorem toList_layoutEntries (k : Scalar) (v : Value) (es : Table Value) :
    (layoutEntries unit margin ((k, v) :: es)).toList = ',' :: '\n' :: (margin.toList ++
      ((keyText k).toList ++ ':' :: ' ' ::
        ((layout unit margin v).toList ++ (layoutEntries unit margin es).toList))) := by
  rw [layoutEntries]
  simp only [String.toList_append, List.append_assoc]
  rfl

/-- A document starts with a character that is no blank, and closes nothing. -/
theorem exists_layout_eq_cons {v : Value} (plain : isPlain v) :
    ∃ c cs, (layout unit margin v).toList = c :: cs ∧ isBlank c = false ∧ c ≠ ']' ∧
      c ≠ '\uFEFF' := by
  match v with
  | .scalar s =>
    rw [layout]
    match s with
    | .str s => exact ⟨_, _, toList_stringText s, by decide⟩
    | .null => exact ⟨'n', ['u', 'l', 'l'], rfl, by decide⟩
    | .bool true => exact ⟨'t', ['r', 'u', 'e'], rfl, by decide⟩
    | .bool false => exact ⟨'f', ['a', 'l', 's', 'e'], rfl, by decide⟩
    | .int (.ofNat n) =>
      obtain ⟨d, ds, front, digit⟩ := exists_isDigit_toDigits n
      exact ⟨d, ds, (toList_scalarText_nat n).trans front, isBlank_of_isDigit digit,
        ne_of_isDigit digit rfl, ne_of_isDigit digit rfl⟩
  | .arr [] => exact ⟨'[', [']'], by rw [layout]; rfl, by decide⟩
  | .arr (v :: vs) => exact ⟨_, _, toList_layout_arr unit margin v vs, by decide⟩
  | .obj [] => exact ⟨'\x7b', ['\x7d'], by rw [layout]; rfl, by decide⟩
  | .obj ((k, v) :: es) => exact ⟨_, _, toList_layout_obj unit margin k v es, by decide⟩

end Layout

/-! ### Reading documents -/

/-- The keys of a plain object do not repeat, so as a table it is what it is as a list. -/
theorem distinct_of_plain {es : Table Value} (plain : arePlainEntries es) : es.Distinct := by
  induction es with
  | nil => exact List.Pairwise.nil
  | cons e es ih =>
    obtain ⟨key, named, -, absent, -, rest⟩ := arePlainEntries_cons.1 plain
    rw [Table.has, List.any_eq_false] at absent
    refine List.pairwise_cons.2 ⟨fun e' he' => ?_, ih rest⟩
    rw [named, Scalar.same_comm]
    simpa using absent e' he'

/-- **Written documents are read back,** within a bound on the depth of the reader. What stands
after them is left. -/
def ReadsValue (unit : String) (fuel : Nat) : Prop :=
  ∀ (margin : String) (v : Value) (rest : List Char), Blank margin → isPlain v → Separated rest →
    2 * (layout unit margin v).toList.length ≤ fuel + 1 →
    value fuel ((layout unit margin v).toList ++ rest) = .ok (v, rest)

/-- The items of a written list are read back, after those already read. -/
def ReadsItems (unit : String) (fuel : Nat) : Prop :=
  ∀ (margin outer : String) (done : List Value) (v : Value) (vs : List Value) (rest : List Char),
    Blank margin → Blank outer → isPlain v → arePlain vs →
    2 * ((layout unit margin v).toList.length + (layoutItems unit margin vs).toList.length) ≤ fuel →
    items fuel done ((layout unit margin v).toList ++ ((layoutItems unit margin vs).toList ++
      '\n' :: (outer.toList ++ ']' :: rest))) = .ok (.arr (done.reverse ++ v :: vs), rest)

/-- The entries of a written object are read back, after those already read. -/
def ReadsEntries (unit : String) (fuel : Nat) : Prop :=
  ∀ (margin outer : String) (done : Table Value) (key : String) (v : Value) (es : Table Value)
    (rest : List Char), Blank margin → Blank outer → isPlainText key → isPlain v →
    arePlainEntries es → Table.Distinct (done.reverse ++ (.str key, v) :: es) →
    2 * ((layout unit margin v).toList.length + (layoutEntries unit margin es).toList.length) ≤
      fuel →
    entries fuel done ((stringText key).toList ++ ':' :: ' ' :: ((layout unit margin v).toList ++
      ((layoutEntries unit margin es).toList ++ '\n' :: (outer.toList ++ '\x7d' :: rest)))) =
        .ok (.obj (done.reverse ++ (.str key, v) :: es), rest)

variable {unit : String} {fuel : Nat}

/-- After the opening bracket the reader skips the line and the margin, and goes on with the items.
-/
theorem value_list {c : Char} (cs : List Char) (h : isBlank c = false) (other : c ≠ ']')
    {margin : String} (blank : Blank margin) :
    value (fuel + 1) ('[' :: '\n' :: (margin.toList ++ c :: cs)) = items fuel [] (c :: cs) := by
  unfold value
  simp only [skipBlanks_line blank cs h]
  split
  · next closes =>
    injection closes with same
    exact absurd same other
  · rfl

/-- After the opening brace it goes on with the entries. -/
theorem value_table {c : Char} (cs : List Char) (h : isBlank c = false) (other : c ≠ '\x7d')
    {margin : String} (blank : Blank margin) :
    value (fuel + 1) ('\x7b' :: '\n' :: (margin.toList ++ c :: cs)) =
      entries fuel [] (c :: cs) := by
  unfold value
  simp only [skipBlanks_line blank cs h]
  split
  · next closes =>
    injection closes with same
    exact absurd same other
  · rfl

/-- A scalar is read at once, whatever the bound is. -/
theorem value_scalarText {s : Scalar} (plain : isPlain (.scalar s)) {rest : List Char}
    (separated : Separated rest) :
    value (fuel + 1) ((scalarText s).toList ++ rest) = .ok (.scalar s, rest) := by
  match s with
  | .str s =>
    rw [isPlain] at plain
    have read := text_stringText plain rest
    rw [scalarText]
    rw [toList_stringText] at read ⊢
    exact congrArg (· >>= fun r => Except.ok (Value.str r.1, r.2)) read
  | .int (.ofNat n) =>
    rw [toList_scalarText_nat]
    exact value_toDigits (of_decide_eq_true plain) separated fuel
  | .null | .bool true | .bool false => rfl

/-- **One value.** A list or an object is opened here, and its inside is left to the other two
loops. -/
theorem readsValue_succ (blankUnit : Blank unit) (insideItems : ReadsItems unit fuel)
    (insideEntries : ReadsEntries unit fuel) : ReadsValue unit (fuel + 1) := by
  intro margin v rest blank plain separated enough
  have blankInner := blank.append blankUnit
  cases v with
  | scalar s =>
    rw [layout]
    exact value_scalarText plain separated
  | arr vs =>
    cases vs with
    | nil =>
      rw [layout]
      rfl
    | cons v vs =>
      obtain ⟨first, others⟩ := arePlain_cons.1 plain
      obtain ⟨c, cs, starts, seen, other, -⟩ := exists_layout_eq_cons unit (margin ++ unit) first
      rw [toList_layout_arr] at enough ⊢
      simp only [List.length_cons, List.length_append] at enough
      have read := insideItems _ _ [] v vs rest blankInner blank first others (by omega)
      -- after the bracket the first item starts, so it is not the end of an empty list
      simp only [List.cons_append, List.append_assoc, List.nil_append]
      rw [starts, List.cons_append] at read ⊢
      rw [value_list _ seen other blankInner, read]
      rfl
  | obj es =>
    cases es with
    | nil =>
      rw [layout]
      rfl
    | cons e es =>
      have distinct := distinct_of_plain plain
      obtain ⟨k, v⟩ := e
      obtain ⟨key, rfl, keyed, -, first, others⟩ := arePlainEntries_cons.1 plain
      rw [toList_layout_obj] at enough ⊢
      simp only [List.length_cons, List.length_append] at enough
      have read := insideEntries _ _ [] key v es rest blankInner blank keyed first others
        distinct (by omega)
      simp only [List.cons_append, List.append_assoc, List.nil_append, keyText]
      rw [toList_stringText key, List.cons_append] at read ⊢
      rw [value_table _ rfl (by decide) blankInner, read]
      rfl

/-- The item before the closing bracket is the last one. -/
theorem items_last {done : List Value} {v : Value} {cs next rest : List Char}
    (first : value fuel cs = .ok (v, next)) (closes : skipBlanks next = ']' :: rest) :
    items (fuel + 1) done cs = .ok (.arr (done.reverse ++ [v]), rest) := by
  rw [← List.reverse_cons]
  simp only [items, first, bind, Except.bind, closes]

/-- After a comma the loop goes on with one more item done. -/
theorem items_more {done : List Value} {v : Value} {cs next rest : List Char}
    (first : value fuel cs = .ok (v, next)) (goesOn : skipBlanks next = ',' :: rest) :
    items (fuel + 1) done cs = items fuel (v :: done) (skipBlanks rest) := by
  simp only [items, first, bind, Except.bind, goesOn]

/-- The entry before the closing brace is the last one. -/
theorem entries_last (done : Table Value) {key : String} {v : Value} {cs next rest : List Char}
    (keyed : isPlainText key) (seen : skipBlanks cs = cs)
    (first : value fuel cs = .ok (v, next)) (closes : skipBlanks next = '\x7d' :: rest) :
    entries (fuel + 1) done ((stringText key).toList ++ ':' :: ' ' :: cs) =
      .ok (.obj (Table.ofPairs (done.reverse ++ [(.str key, v)])), rest) := by
  have read := text_stringText keyed (':' :: ' ' :: cs)
  have colon : skipBlanks (':' :: ' ' :: cs) = ':' :: ' ' :: cs := rfl
  have gap : skipBlanks (' ' :: cs) = cs := seen
  rw [toList_stringText key, List.cons_append] at read ⊢
  rw [← List.reverse_cons]
  simp only [entries, read, bind, Except.bind, colon, gap, first, closes]

/-- After a comma the loop goes on with one more entry done. -/
theorem entries_more {done : Table Value} {key : String} {v : Value} {cs next rest : List Char}
    (keyed : isPlainText key) (seen : skipBlanks cs = cs)
    (first : value fuel cs = .ok (v, next)) (goesOn : skipBlanks next = ',' :: rest) :
    entries (fuel + 1) done ((stringText key).toList ++ ':' :: ' ' :: cs) =
      entries fuel ((.str key, v) :: done) (skipBlanks rest) := by
  have read := text_stringText keyed (':' :: ' ' :: cs)
  have colon : skipBlanks (':' :: ' ' :: cs) = ':' :: ' ' :: cs := rfl
  have gap : skipBlanks (' ' :: cs) = cs := seen
  rw [toList_stringText key, List.cons_append] at read ⊢
  simp only [entries, read, bind, Except.bind, colon, gap, first, goesOn]

/-- **The items of a list.** Whether a comma or the end of the line follows an item decides how the
loop goes on. -/
theorem readsItems_succ (insideValue : ReadsValue unit fuel) (insideItems : ReadsItems unit fuel) :
    ReadsItems unit (fuel + 1) := by
  intro margin outer done v vs rest blank blankOuter plain others enough
  have read := fun rest separated => insideValue margin v rest blank plain separated (by omega)
  cases vs with
  | nil =>
    rw [layoutItems, String.toList_empty, List.nil_append]
    exact items_last (read _ separated_line) (skipBlanks_line blankOuter rest (c := ']') rfl)
  | cons w ws =>
    obtain ⟨first, others⟩ := arePlain_cons.1 others
    obtain ⟨c, cs, starts, seen, -⟩ := exists_layout_eq_cons unit margin first
    rw [toList_layoutItems] at enough ⊢
    simp only [List.length_cons, List.length_append] at enough
    -- the comma sends the reader on, with `v` among what is done
    have more := insideItems _ _ (v :: done) w ws rest blank blankOuter first others (by omega)
    simp only [List.cons_append, List.append_assoc]
    rw [items_more (read _ separated_comma) rfl, starts, List.cons_append,
      skipBlanks_line blank _ seen, ← List.cons_append, ← starts, more, List.reverse_cons,
      List.append_assoc]
    rfl

/-- **The entries of an object.** Only at the end are they made into a table, which takes the keys
to be distinct. -/
theorem readsEntries_succ (insideValue : ReadsValue unit fuel)
    (insideEntries : ReadsEntries unit fuel) : ReadsEntries unit (fuel + 1) := by
  intro margin outer done key v es rest blank blankOuter keyed plain others distinct enough
  have read := fun rest separated => insideValue margin v rest blank plain separated (by omega)
  have seen (rest : List Char) : skipBlanks ((layout unit margin v).toList ++ rest) =
      (layout unit margin v).toList ++ rest := by
    obtain ⟨c, cs, starts, seen, -⟩ := exists_layout_eq_cons unit margin plain
    rw [starts, List.cons_append, skipBlanks_cons _ seen]
  cases es with
  | nil =>
    have ends := entries_last done keyed (seen _) (read _ separated_line)
      (skipBlanks_line blankOuter rest (c := '\x7d') rfl)
    -- the keys do not repeat, so writing the entries into a table changes nothing
    rw [Table.ofPairs_of_distinct distinct] at ends
    rw [layoutEntries, String.toList_empty, List.nil_append]
    exact ends
  | cons e es =>
    obtain ⟨k, w⟩ := e
    obtain ⟨key', rfl, keyed', -, first, others⟩ := arePlainEntries_cons.1 others
    rw [toList_layoutEntries] at enough ⊢
    simp only [List.length_cons, List.length_append] at enough
    have more := insideEntries _ _ ((.str key, v) :: done) key' w es rest blank blankOuter
      keyed' first others (by simpa using distinct) (by omega)
    have starts := toList_stringText key'
    simp only [List.cons_append, List.append_assoc, keyText]
    rw [entries_more keyed (seen _) (read _ separated_comma) rfl, starts, List.cons_append,
      skipBlanks_line blank _ rfl, ← List.cons_append, ← starts, more, List.reverse_cons,
      List.append_assoc]
    rfl

/-- **Whatever the bound is,** what is written is read back if it is short enough for it. -/
theorem reads (blankUnit : Blank unit) (fuel : Nat) :
    ReadsValue unit fuel ∧ ReadsItems unit fuel ∧ ReadsEntries unit fuel := by
  induction fuel with
  | zero =>
    -- no text is as short as that
    have long (margin : String) {v : Value} (plain : isPlain v) :
        0 < (layout unit margin v).toList.length := by
      obtain ⟨c, cs, starts, -⟩ := exists_layout_eq_cons unit margin plain
      rw [starts]
      exact Nat.succ_pos _
    refine ⟨?_, ?_, ?_⟩
    · intro margin v rest _ plain _ enough
      have := long margin plain
      omega
    · intro margin outer done v vs rest _ _ plain _ enough
      have := long margin plain
      omega
    · intro margin outer done key v es rest _ _ _ plain _ _ enough
      have := long margin plain
      omega
  | succ fuel inside =>
    obtain ⟨insideValue, insideItems, insideEntries⟩ := inside
    exact ⟨readsValue_succ blankUnit insideItems insideEntries,
      readsItems_succ insideValue insideItems, readsEntries_succ insideValue insideEntries⟩

/-! ### What is written -/

theorem written_of_blank {margin : String} (blank : Blank margin) :
    ∀ c ∈ margin.toList, isWritten c := by
  intro c hc
  rw [blank c hc]
  rfl

theorem written_of_isDigit {c : Char} (h : isDigit c) : isWritten c := by
  simp only [isDigit, Bool.and_eq_true, decide_eq_true_eq] at h
  have low : 0x30 ≤ c.toNat := h.1
  have high : c.toNat ≤ 0x39 := h.2
  simp only [isWritten, Bool.or_eq_true, Bool.and_eq_true, decide_eq_true_eq]
  omega

mutual

/-- **Whatever is laid out is ASCII** without control characters other than line feeds, down to the
deepest value. -/
theorem written_layout (blankUnit : Blank unit) {margin : String} (blank : Blank margin)
    (v : Value) (plain : isPlain v) : ∀ c ∈ (layout unit margin v).toList, isWritten c := by
  match v with
  | .scalar s =>
    rw [layout]
    match s with
    | .str s => exact written_stringText s
    | .int (.ofNat n) =>
      intro c hc
      rw [toList_scalarText_nat] at hc
      exact written_of_isDigit (isDigit_of_mem_toDigits hc)
    | .null | .bool true | .bool false => exact List.all_eq_true.1 rfl
  | .arr [] =>
    rw [layout]
    exact List.all_eq_true.1 rfl
  | .arr (v :: vs) =>
    obtain ⟨first, others⟩ := arePlain_cons.1 plain
    have inner := blank.append blankUnit
    rw [toList_layout_arr]
    simp only [List.forall_mem_cons, List.forall_mem_append]
    exact ⟨rfl, rfl, written_of_blank inner, written_layout blankUnit inner v first,
      written_layoutItems blankUnit inner vs others, rfl, written_of_blank blank, rfl,
      List.forall_mem_nil _⟩
  | .obj [] =>
    rw [layout]
    exact List.all_eq_true.1 rfl
  | .obj ((k, v) :: es) =>
    obtain ⟨key, rfl, keyed, -, first, others⟩ := arePlainEntries_cons.1 plain
    have inner := blank.append blankUnit
    rw [toList_layout_obj]
    simp only [List.forall_mem_cons, List.forall_mem_append]
    exact ⟨rfl, rfl, written_of_blank inner, written_stringText key, rfl, rfl,
      written_layout blankUnit inner v first, written_layoutEntries blankUnit inner es others, rfl,
      written_of_blank blank, rfl, List.forall_mem_nil _⟩

theorem written_layoutItems (blankUnit : Blank unit) {margin : String} (blank : Blank margin)
    (vs : List Value) (plain : arePlain vs) :
    ∀ c ∈ (layoutItems unit margin vs).toList, isWritten c := by
  match vs with
  | [] =>
    rw [layoutItems]
    exact List.forall_mem_nil _
  | v :: vs =>
    obtain ⟨first, others⟩ := arePlain_cons.1 plain
    rw [toList_layoutItems]
    simp only [List.forall_mem_cons, List.forall_mem_append]
    exact ⟨rfl, rfl, written_of_blank blank, written_layout blankUnit blank v first,
      written_layoutItems blankUnit blank vs others⟩

theorem written_layoutEntries (blankUnit : Blank unit) {margin : String} (blank : Blank margin)
    (es : Table Value) (plain : arePlainEntries es) :
    ∀ c ∈ (layoutEntries unit margin es).toList, isWritten c := by
  match es with
  | [] =>
    rw [layoutEntries]
    exact List.forall_mem_nil _
  | (k, v) :: es =>
    obtain ⟨key, rfl, keyed, -, first, others⟩ := arePlainEntries_cons.1 plain
    rw [toList_layoutEntries]
    simp only [List.forall_mem_cons, List.forall_mem_append]
    exact ⟨rfl, rfl, written_of_blank blank, written_stringText key, rfl, rfl,
      written_layout blankUnit blank v first, written_layoutEntries blankUnit blank es others⟩

end

section Document

variable {c : Char} {cs : List Char} (seen : isBlank c = false) (noMark : c ≠ '\uFEFF')
include seen noMark

/-- A document without blanks or a mark before it is read from its first character on. -/
theorem document_eq_ok {v : Value}
    (read : value (2 * (c :: cs).length + 1) (c :: cs) = .ok (v, [])) :
    document (c :: cs) = .ok v := by
  unfold document
  split
  · next mark => exact absurd (List.cons.inj mark).1 noMark
  · rw [skipBlanks_cons cs seen, read]
    rfl

/-- Where the reading of its value stops, so does that of the document. -/
theorem document_eq_error {stop : Stop}
    (stops : value (2 * (c :: cs).length + 1) (c :: cs) = .error stop) :
    document (c :: cs) = .error stop := by
  unfold document
  split
  · next mark => exact absurd (List.cons.inj mark).1 noMark
  · rw [skipBlanks_cons cs seen, stops]
    rfl

end Document

/-- **What is written is read back,** where it is plain. -/
theorem parse_write (indent : Int) {v : Value} (plain : isPlain v) :
    parse (write indent v) = .ok v := by
  have blankUnit := blank_replicate indent.toNat
  have blank := blank_empty
  rw [parse, write]
  generalize String.ofList (List.replicate indent.toNat ' ') = unit at blankUnit
  obtain ⟨c, cs, starts, seen, -, noMark⟩ := exists_layout_eq_cons unit "" plain
  have read := (reads blankUnit (2 * (layout unit "" v).toList.length + 1)).1 "" v [] blank plain
    separated_nil (by omega)
  have whole : document (layout unit "" v).toList = .ok v := by
    rw [List.append_nil] at read
    rw [starts] at read ⊢
    exact document_eq_ok seen noMark read
  simp only [whole]

/-- **An integer that is too long is not read,** although no character of it is out of place. -/
theorem parse_longInteger {d : Char} {ds : List Char} (nonzero : d ≠ '0')
    (all : ∀ c ∈ d :: ds, isDigit c) (long : maxDigits < (d :: ds).length) :
    parse (String.ofList (d :: ds)) = .error (.longInteger (d :: ds).length) := by
  have digit : isDigit d := all d List.mem_cons_self
  have refused : integer false (d :: ds) = .error (.longInteger (d :: ds).length) := by
    rw [integer, if_pos long]
  have stops (fuel : Nat) :
      value (fuel + 1) (d :: ds) = .error (.longInteger (d :: ds).length) := by
    have read := number_of_digits (d :: ds) nonzero all separated_nil
    rw [List.append_nil, refused] at read
    rw [value_of_isDigit digit, read]
    rfl
  have whole : document (d :: ds) = .error (.longInteger (d :: ds).length) :=
    document_eq_error (isBlank_of_isDigit digit) (ne_of_isDigit digit rfl) (stops _)
  rw [parse, String.toList_ofList]
  simp only [whole]

/-- What is written is read from its bytes. -/
theorem decode_write (indent : Int) {v : Value} (plain : isPlain v) :
    Utf8.decode (Utf8.encode (write indent v)) = .ok (write indent v) ∧
      Text.unifyLines (write indent v).toList = (write indent v).toList := by
  have written := written_layout (blank_replicate indent.toNat) blank_empty v plain
  simp only [isWritten, Bool.or_eq_true, Bool.and_eq_true, decide_eq_true_eq, beq_iff_eq] at written
  constructor
  · refine Utf8.decode_encode fun c hc => ?_
    rcases written c hc with rfl | ⟨-, high⟩
    · decide
    · exact high
  · -- a carriage return is neither a line feed nor shown
    refine Text.unifyLines_eq fun hc => ?_
    have := written _ hc
    revert this
    decide

end Json

variable {disk : Disk} {file : String} {tree : Value}

/-- A file of ASCII characters is read as the text in it. -/
theorem readText_encode {text : String} (held : disk.read file = .ok (Utf8.encode text))
    (ascii : ∀ c ∈ text.toList, c.toNat < 0x80) (lines : '\r' ∉ text.toList) :
    disk.readText file = .ok text := by
  rw [Disk.readText, held]
  simp only [Utf8.decode_encode ascii, Text.unifyLines_eq lines, String.ofList_toList]

/-- So is a file that holds the bytes of a written document: neither the decoding nor the unifying
of lines changes it. -/
theorem readText_written (indent : Int) {v : Value}
    (held : disk.read file = .ok (Utf8.encode (Json.write indent v))) (plain : Json.isPlain v) :
    disk.readText file = .ok (Json.write indent v) := by
  obtain ⟨decoded, unified⟩ := Json.decode_write indent plain
  rw [Disk.readText, held]
  simp only [decoded, unified, String.ofList_toList]

/-- Where the stack takes the text, that it is read is a matter of the text alone. -/
theorem Disk.parse_write (indent : Int) {v : Value} (plain : Json.isPlain v)
    (taken : disk.system.reads (Json.write indent v)) :
    disk.parse (Json.write indent v) = .ok v := by
  rw [parse, if_pos taken, Json.parse_write indent plain]

/-- **A file that holds a written document** is read as the document, if the stack takes it and it
is a tree. -/
theorem loadTree_written (indent : Int)
    (held : disk.read file = .ok (Utf8.encode (Json.write indent tree)))
    (plain : Json.isPlain tree) (taken : disk.system.reads (Json.write indent tree)) :
    loadTree disk file none = if tree.hasTagIn ["File", "Program"] then .ok tree
      else .error (.inFile .rootKind file) := by
  simp only [loadTree, readText_written indent held plain, readTree,
    Disk.parse_write indent plain taken]

end ComponentSpec
