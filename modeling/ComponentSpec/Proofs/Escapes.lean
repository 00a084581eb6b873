import ComponentSpec.Json.Reader
import ComponentSpec.Json.Writer

/-!
# Texts between quotes

A text is written code by code. A code is written as it is where it is shown in ASCII, else by a
letter where there is one for it, and else by its number, in one escape or in two. The reader takes
one of these at a time, with one exception: where the escape of a first half of a pair is followed
by the escape of a second half, both are read as one character. A text is therefore read back as it
was if no two of its codes stand like that, which only halves of pairs can.

* `Json.WrittenAs`, `writtenAs_codeText` — the ways to write a code;
* `Json.codeEscape_unit`, `Json.codeEscape_pair` — what an escape, and a pair of them, is read as;
* `Json.textFrom_written` — the codes of a text are read back, up to the closing quote;
* `Json.isPlainText`, `Json.text_stringText` — the texts that are read back.
-/

namespace ComponentSpec.Json

/-! ### Numbers in four digits -/

theorem hexDigit?_digitChar {d : Nat} (h : d < 16) : hexDigit? d.digitChar = some d :=
  (by decide : ∀ d < 16, hexDigit? d.digitChar = some d) d h

/-- The last digit of a number stands behind the others, however far these are filled up. -/
theorem hexadecimal_succ {width : Nat} (pos : 0 < width) (n : Nat) :
    Text.hexadecimal (width + 1) n = Text.hexadecimal width (n / 16) ++ [(n % 16).digitChar] := by
  by_cases small : n < 16
  · have none : n / 16 = 0 := by omega
    have fill : List.replicate width '0' = List.replicate (width - 1) '0' ++ ['0'] := by
      rw [← List.replicate_succ', Nat.sub_add_cancel pos]
    rw [none, Nat.mod_eq_of_lt small]
    simp only [Text.hexadecimal, Nat.toDigits_of_lt_base small,
      Nat.toDigits_of_lt_base (show 0 < 16 by decide), List.length_singleton, Nat.add_sub_cancel]
    rw [fill]
    rfl
  · have more : 16 ≤ n := Nat.le_of_not_lt small
    simp only [Text.hexadecimal, Nat.toDigits_of_base_le (by decide) more, List.length_append,
      List.length_singleton, Nat.add_sub_add_right, List.append_assoc]

theorem hexadecimal_one {n : Nat} (h : n < 16) : Text.hexadecimal 1 n = [n.digitChar] := by
  rw [Text.hexadecimal, Nat.toDigits_of_lt_base h]
  rfl

/-- A number of 16 bits has four digits. -/
theorem hexadecimal_four {n : Nat} (h : n < 0x10000) : Text.hexadecimal 4 n =
    [(n / 16 / 16 / 16).digitChar, (n / 16 / 16 % 16).digitChar, (n / 16 % 16).digitChar,
      (n % 16).digitChar] := by
  rw [hexadecimal_succ (by decide), hexadecimal_succ (by decide), hexadecimal_succ (by decide),
    hexadecimal_one (by omega)]
  rfl

/-- **Four digits are read** as the number they were written for. -/
theorem hexCode?_hexadecimal {n : Nat} (h : n < 0x10000) (rest : List Char) :
    hexCode? (Text.hexadecimal 4 n ++ rest) = some n := by
  have first : n / 16 / 16 / 16 < 16 := by omega
  have digit (m : Nat) : hexDigit? (m % 16).digitChar = some (m % 16) :=
    hexDigit?_digitChar (Nat.mod_lt _ (by decide))
  have sum : ((n / 16 / 16 / 16 * 16 + n / 16 / 16 % 16) * 16 + n / 16 % 16) * 16 + n % 16 = n := by
    omega
  rw [hexadecimal_four h]
  simp only [List.cons_append, hexCode?, hexDigit?_digitChar first, digit, Option.bind_eq_bind,
    Option.bind_some, Option.pure_def, sum]

theorem drop_hexadecimal {n : Nat} (h : n < 0x10000) (rest : List Char) :
    (Text.hexadecimal 4 n ++ rest).drop 4 = rest := by
  rw [hexadecimal_four h]
  rfl

/-! ### Ways to write a code -/

/-- A character that stands for itself between quotes. -/
def isVerbatim (c : Char) : Bool := 0x20 ≤ c.toNat && c.toNat < 0x7F && c != '"' && c != '\\'

/-- **How a code is written:** as it is, by a letter, or by its number. -/
inductive WrittenAs : Nat → List Char → Prop where
  | shown {c : Char} (verbatim : isVerbatim c) : WrittenAs c.toNat [c]
  | letter {e c : Char} (stands : escaped? e = some c) : WrittenAs c.toNat ['\\', e]
  | unit {n : Nat} (small : n < 0x10000) : WrittenAs n (unitEscape n)
  | pair {n : Nat} (large : 0x10000 ≤ n) (bounded : n < 0x110000) :
    WrittenAs n (unitEscape (0xD800 + (n - 0x10000) / 0x400) ++
      unitEscape (0xDC00 + (n - 0x10000) % 0x400))

/-- **Every code is written in one of the ways.** -/
theorem writtenAs_codeText {n : Nat} (bounded : n < 0x110000) : WrittenAs n (codeText n) := by
  -- a code that is the character it is compared with is the code of that character
  have letter {e c : Char} (same : Char.ofNat n = c) (seen : c ≠ '\x00')
      (stands : escaped? e = some c) : WrittenAs n ['\\', e] := by
    by_cases valid : n.isValidChar
    · rw [← Text.toNat_ofNat valid, same]
      exact .letter stands
    · rw [Char.ofNat, dif_neg valid] at same
      exact absurd same.symm seen
  unfold codeText
  extract_lets c m
  split
  · next same => exact letter same (by decide) rfl
  split
  · next same => exact letter same (by decide) rfl
  split
  · next same => exact letter same (by decide) rfl
  split
  · next same => exact letter same (by decide) rfl
  split
  · next same => exact letter same (by decide) rfl
  split
  · next same => exact letter (congrArg Char.ofNat same) (by decide) rfl
  split
  · next same => exact letter (congrArg Char.ofNat same) (by decide) rfl
  next quote backslash _ _ _ _ _ =>
  split
  · next seen =>
    have value : c.toNat = n := Text.toNat_ofNat (by unfold Nat.isValidChar; omega)
    have verbatim : isVerbatim c := by
      simp [isVerbatim, value, seen.1, seen.2, quote, backslash]
    rw [← value]
    exact .shown verbatim
  split
  · next small => exact .unit small
  · next large => exact .pair (Nat.le_of_not_lt large) bounded

/-- A character that a written text may hold: a line feed, or a character of ASCII that is shown. -/
def isWritten (c : Char) : Bool := c == '\n' || 0x20 ≤ c.toNat && c.toNat < 0x80

theorem written_of_verbatim {c : Char} (h : isVerbatim c) : isWritten c := by
  simp only [isVerbatim, isWritten, Bool.and_eq_true, Bool.or_eq_true, decide_eq_true_eq] at *
  omega

theorem written_unitEscape {n : Nat} (h : n < 0x10000) : ∀ c ∈ unitEscape n, isWritten c := by
  have digit (m : Nat) : isWritten (m % 16).digitChar :=
    (by decide : ∀ d < 16, isWritten d.digitChar) _ (Nat.mod_lt _ (by decide))
  have first : n / 16 / 16 / 16 % 16 = n / 16 / 16 / 16 := Nat.mod_eq_of_lt (by omega)
  rw [unitEscape, hexadecimal_four h, ← first]
  simp only [List.forall_mem_cons]
  exact ⟨rfl, rfl, digit _, digit _, digit _, digit _, List.forall_mem_nil _⟩

/-- **Whatever a code is written as is ASCII.** -/
theorem WrittenAs.written {n : Nat} {cs : List Char} (h : WrittenAs n cs) :
    ∀ c ∈ cs, isWritten c := by
  cases h with
  | shown verbatim => exact List.forall_mem_singleton.2 (written_of_verbatim verbatim)
  | @letter e c stands =>
    have written : isWritten e := by
      unfold escaped? at stands
      split at stands <;> first | rfl | cases stands
    simp only [List.forall_mem_cons]
    exact ⟨rfl, written, List.forall_mem_nil _⟩
  | unit small => exact written_unitEscape small
  | pair large bounded =>
    rw [List.forall_mem_append]
    exact ⟨written_unitEscape (by omega), written_unitEscape (by omega)⟩

/-! ### Reading escapes -/

theorem unitEscape_append (n : Nat) (rest : List Char) :
    unitEscape n ++ rest = '\\' :: 'u' :: (Text.hexadecimal 4 n ++ rest) := rfl

/-- **Half of a pair does not take another escape with it** where what comes next is no escape of a
second half. -/
def StandsAlone (n : Nat) (rest : List Char) : Prop :=
  isHighSurrogate n → rest.take 2 = ['\\', 'u'] →
    ∃ second, hexCode? (rest.drop 2) = some second ∧ isLowSurrogate second = false

/-- **An escape of 16 bits is read as the code it was written for.** -/
theorem codeEscape_unit {n : Nat} (small : n < 0x10000) {rest : List Char} (more : rest ≠ [])
    (alone : StandsAlone n rest) (u : List Char) :
    codeEscape u (Text.hexadecimal 4 n ++ rest) = .ok (n, rest) := by
  have some : rest.isEmpty = false := List.isEmpty_eq_false_iff.2 more
  simp only [codeEscape, hexCode?_hexadecimal small, drop_hexadecimal small, some,
    Bool.false_eq_true, if_false]
  split
  · next first =>
    simp only [Bool.and_eq_true, beq_iff_eq] at first
    obtain ⟨second, read, low⟩ := alone first.1.1 first.2
    simp only [read, low, Bool.false_eq_true, if_false]
  · rfl

/-- **Two escapes that make up a pair are read as one character.** -/
theorem codeEscape_pair {high low : Nat} (isHigh : isHighSurrogate high)
    (isLow : isLowSurrogate low) {rest : List Char} (more : rest ≠ []) (u : List Char) :
    codeEscape u (Text.hexadecimal 4 high ++ (unitEscape low ++ rest)) =
      .ok (0x10000 + (high - 0xD800) * 0x400 + (low - 0xDC00), rest) := by
  have small : high < 0x10000 := by
    simp only [isHighSurrogate, Bool.and_eq_true, decide_eq_true_eq] at isHigh
    omega
  have small' : low < 0x10000 := by
    simp only [isLowSurrogate, Bool.and_eq_true, decide_eq_true_eq] at isLow
    omega
  have some : rest.isEmpty = false := List.isEmpty_eq_false_iff.2 more
  simp only [codeEscape, hexCode?_hexadecimal small, drop_hexadecimal small, isHigh]
  simp only [unitEscape, List.cons_append, List.isEmpty_cons, List.drop_succ_cons, List.drop_zero,
    List.take_succ_cons, List.take_zero, hexCode?_hexadecimal small', drop_hexadecimal small',
    isLow, some, Bool.false_eq_true, beq_self_eq_true, Bool.not_false, Bool.and_self, if_true,
    if_false]

/-! ### Reading texts -/

section TextFrom

variable (start : List Char) (done : List Nat)

theorem textFrom_shown {c : Char} (verbatim : isVerbatim c) (cs : List Char) :
    textFrom start done (c :: cs) = textFrom start (c.toNat :: done) cs := by
  simp only [isVerbatim, Bool.and_eq_true, decide_eq_true_eq, bne_iff_ne, ne_eq] at verbatim
  obtain ⟨⟨⟨low, -⟩, quote⟩, backslash⟩ := verbatim
  rw [textFrom.eq_def]
  simp only [if_neg quote, if_neg backslash]
  rw [if_neg (by omega)]

theorem textFrom_letter {e c : Char} (stands : escaped? e = some c) (cs : List Char) :
    textFrom start done ('\\' :: e :: cs) = textFrom start (c.toNat :: done) cs := by
  rw [textFrom.eq_def]
  simp only [Char.reduceEq, if_true, if_false]
  split
  · next none => cases none
  · next same =>
    cases same
    cases stands
  · next same =>
    cases same
    rw [stands]

theorem textFrom_escape {digits rest : List Char} {n : Nat}
    (read : codeEscape ('u' :: digits) digits = .ok (n, rest)) :
    textFrom start done ('\\' :: 'u' :: digits) = textFrom start (n :: done) rest := by
  rw [textFrom.eq_def]
  simp only [Char.reduceEq, if_true, if_false]
  split
  · next failed =>
    rw [read] at failed
    cases failed
  · next read' =>
    rw [read] at read'
    cases read'
    rfl

/-- **A written code is read back,** if more follows it and it stands alone. -/
theorem textFrom_codeText {n : Nat} (bounded : n < 0x110000) {rest : List Char} (more : rest ≠ [])
    (alone : StandsAlone n rest) :
    textFrom start done (codeText n ++ rest) = textFrom start (n :: done) rest := by
  have written := writtenAs_codeText bounded
  generalize codeText n = cs at written
  cases written with
  | shown verbatim => exact textFrom_shown start done verbatim rest
  | letter stands => exact textFrom_letter start done stands rest
  | unit small =>
    rw [unitEscape_append]
    exact textFrom_escape start done (codeEscape_unit small more alone _)
  | pair large bounded =>
    have high : isHighSurrogate (0xD800 + (n - 0x10000) / 0x400) := by
      simp only [isHighSurrogate, Bool.and_eq_true, decide_eq_true_eq]
      omega
    have low : isLowSurrogate (0xDC00 + (n - 0x10000) % 0x400) := by
      simp only [isLowSurrogate, Bool.and_eq_true, decide_eq_true_eq]
      omega
    have sum : 0x10000 + (0xD800 + (n - 0x10000) / 0x400 - 0xD800) * 0x400 +
        (0xDC00 + (n - 0x10000) % 0x400 - 0xDC00) = n := by omega
    have read := textFrom_escape start done (codeEscape_pair high low more _)
    rw [sum] at read
    rw [List.append_assoc, unitEscape_append]
    exact read

end TextFrom

/-- **No two codes in a row make up a pair.** -/
def unpaired : List Nat → Bool
  | first :: second :: codes =>
    !(isHighSurrogate first && isLowSurrogate second) && unpaired (second :: codes)
  | _ => true

/-- A code that the next one does not make up a pair with stands alone before it: no other way to
write the next code than by its number begins like an escape. -/
theorem standsAlone_codeText {n m : Nat} (bounded : m < 0x110000)
    (apart : ¬ (isHighSurrogate n ∧ isLowSurrogate m)) (rest : List Char) :
    StandsAlone n (codeText m ++ rest) := by
  intro high begins
  have low : isLowSurrogate m = false := by simpa [high] using apart
  have written := writtenAs_codeText bounded
  generalize codeText m = cs at written begins
  cases written with
  | @shown c verbatim =>
    simp only [List.singleton_append, List.take_succ_cons, List.cons.injEq] at begins
    rw [begins.1] at verbatim
    cases verbatim
  | letter stands =>
    simp only [List.cons_append, List.take_succ_cons, List.cons.injEq] at begins
    rw [begins.2.1] at stands
    cases stands
  | unit small =>
    refine ⟨m, ?_, low⟩
    rw [unitEscape_append]
    exact hexCode?_hexadecimal small rest
  | pair large _ =>
    -- the first of two escapes is one of a first half
    refine ⟨0xD800 + (m - 0x10000) / 0x400, ?_, ?_⟩
    · rw [List.append_assoc, unitEscape_append]
      exact hexCode?_hexadecimal (by omega) _
    · simp only [isLowSurrogate, Bool.and_eq_false_iff, decide_eq_false_iff_not]
      omega

/-- **The codes of a written text are read back,** up to the closing quote. -/
theorem textFrom_written (start : List Char) (done : List Nat) {codes : List Nat}
    (bounded : ∀ code ∈ codes, code < 0x110000) (alone : unpaired codes) (rest : List Char) :
    textFrom start done (codes.flatMap codeText ++ '"' :: rest) =
      .ok (Text.ofCodes (done.reverse ++ codes), rest) := by
  induction codes generalizing done with
  | nil =>
    rw [textFrom.eq_def, List.append_nil]
    rfl
  | cons n codes ih =>
    have more : codes.flatMap codeText ++ '"' :: rest ≠ [] := by simp
    have last : unpaired codes ∧ StandsAlone n (codes.flatMap codeText ++ '"' :: rest) := by
      cases codes with
      | nil =>
        refine ⟨rfl, fun _ begins => ?_⟩
        cases begins
      | cons m codes =>
        simp only [unpaired, Bool.and_eq_true, Bool.not_eq_true', Bool.and_eq_false_iff] at alone
        refine ⟨alone.2, ?_⟩
        rw [List.flatMap_cons, List.append_assoc]
        refine standsAlone_codeText (bounded m (by simp)) ?_ _
        rintro ⟨high, low⟩
        simp [high, low] at alone
    rw [List.flatMap_cons, List.append_assoc,
      textFrom_codeText start done (bounded n List.mem_cons_self) more last.2,
      ih _ (fun code hcode => bounded code (List.mem_cons_of_mem n hcode)) last.1,
      List.reverse_cons, List.append_assoc, List.singleton_append]

/-- **A text that is read back:** it is held as its codes are, and no two of them make up a pair. -/
def isPlainText (s : String) : Bool :=
  (Text.codes s).flatMap Text.spell == s.toList && unpaired (Text.codes s)

theorem toList_stringText (s : String) :
    (stringText s).toList = '"' :: ((Text.codes s).flatMap codeText ++ ['"']) := by
  rw [stringText, String.toList_ofList]
  rfl

/-- **A written text is read back.** The closing quote ends it, and what stands after it is left. -/
theorem text_stringText {s : String} (plain : isPlainText s) (rest : List Char) :
    text ((stringText s).toList ++ rest) = .ok (s, rest) := by
  rw [isPlainText, Bool.and_eq_true, beq_iff_eq] at plain
  obtain ⟨held, alone⟩ := plain
  have same : Text.ofCodes (Text.codes s) = s := by
    rw [Text.ofCodes, held, String.ofList_toList]
  have read := textFrom_written ((stringText s).toList ++ rest) []
    (fun code hcode => Text.codes_lt hcode) alone rest
  rw [List.reverse_nil, List.nil_append, same] at read
  rw [text]
  rw [toList_stringText] at read ⊢
  simp only [List.cons_append, List.append_assoc, List.drop_succ_cons, List.drop_zero,
    List.nil_append] at read ⊢
  exact read

/-- Every text is written in ASCII. -/
theorem written_stringText (s : String) : ∀ c ∈ (stringText s).toList, isWritten c := by
  rw [toList_stringText]
  simp only [List.forall_mem_cons, List.forall_mem_append, List.mem_flatMap]
  refine ⟨rfl, ?_, rfl, List.forall_mem_nil _⟩
  rintro c ⟨code, hcode, hc⟩
  exact (writtenAs_codeText (Text.codes_lt hcode)).written c hc

end ComponentSpec.Json
