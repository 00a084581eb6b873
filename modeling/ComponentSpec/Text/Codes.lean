/-!
# Codes

A text of a document is a row of codes. A code is a character, or else half of a pair: one of the
numbers from D800 to DFFF, which make up a character only two at a time and which an escape can
nevertheless put into a text alone. No character stands for a half, so a text *holds* it as two
characters, the mark U+FFFF and one of the private characters from U+E000 on. The mark itself is
held as two marks. All other characters stand for themselves, and a text without a mark is its own
codes.

* `Text.codes`, `Text.ofCodes` — the codes that a text holds, and the text that holds them;
* `Text.codes_ofCodes` — no two rows of codes are held alike;
* `Text.hold`, `Text.codes_hold` — the text that holds the characters of a text from outside a
  document;
* `Text.hasHalf` — whether half of a pair is among the codes.

Texts are compared, joined and looked through as they are held. Only what takes them apart character
by character, or shows them, looks at the codes.
-/

namespace ComponentSpec.Text

/-- Half of a pair. -/
def isHalf (code : Nat) : Bool := 0xD800 ≤ code && code ≤ 0xDFFF

/-- The character that announces half of a pair. -/
def mark : Char := '\uFFFF'

/-- How a text holds a code. -/
def spell (code : Nat) : List Char :=
  if isHalf code then [mark, Char.ofNat (code + 0x800)]
  else if code = mark.toNat then [mark, mark]
  else [Char.ofNat code]

/-- **The text that holds a row of codes.** -/
def ofCodes (codes : List Nat) : String := String.ofList (codes.flatMap spell)

/-- The code that a character after a mark makes up with it. -/
def marked? (c : Char) : Option Nat :=
  if c = mark then some mark.toNat
  else if isHalf (c.toNat - 0x800) then some (c.toNat - 0x800)
  else none

/-- The codes that characters hold. A mark that announces nothing is a code of its own. -/
def codesOf : List Char → List Nat
  | [] => []
  | [c] => [c.toNat]
  | c :: d :: cs =>
    if c = mark then
      match marked? d with
      | some code => code :: codesOf cs
      | none => c.toNat :: codesOf (d :: cs)
    else c.toNat :: codesOf (d :: cs)

/-- **The codes that a text holds.** -/
def codes (s : String) : List Nat := codesOf s.toList

/-- A text from outside a document, as it is held. -/
def hold (s : String) : String := ofCodes (s.toList.map Char.toNat)

/-- Whether a text holds half of a pair. -/
def hasHalf (s : String) : Bool := (codes s).any isHalf

theorem codesOf_cons {c : Char} (h : c ≠ mark) (cs : List Char) :
    codesOf (c :: cs) = c.toNat :: codesOf cs := by
  cases cs with
  | nil => rfl
  | cons d cs => rw [codesOf, if_neg h]

theorem codesOf_marked {d : Char} {code : Nat} (h : marked? d = some code) (cs : List Char) :
    codesOf (mark :: d :: cs) = code :: codesOf cs := by
  rw [codesOf, if_pos rfl, h]

theorem toNat_lt (c : Char) : c.toNat < 0x110000 := by
  have valid := c.valid
  simp only [UInt32.isValidChar, Nat.isValidChar] at valid
  simp only [Char.toNat]
  omega

theorem marked?_lt {c : Char} {code : Nat} (h : marked? c = some code) : code < 0x110000 := by
  unfold marked? at h
  split at h
  · exact Option.some.inj h ▸ toNat_lt mark
  · split at h
    · exact Option.some.inj h ▸ Nat.lt_of_le_of_lt (Nat.sub_le _ _) (toNat_lt c)
    · cases h

/-- A code is that of a character, or half of a pair. -/
theorem codesOf_lt {cs : List Char} {code : Nat} (h : code ∈ codesOf cs) : code < 0x110000 := by
  fun_induction codesOf cs with
  | case1 => cases h
  | case2 c => exact List.mem_singleton.1 h ▸ toNat_lt c
  | case3 d cs _ announced ih => exact (List.mem_cons.1 h).elim (· ▸ marked?_lt announced) ih
  | case4 d cs _ ih => exact (List.mem_cons.1 h).elim (· ▸ toNat_lt mark) ih
  | case5 c d cs _ ih => exact (List.mem_cons.1 h).elim (· ▸ toNat_lt c) ih

theorem codes_lt {s : String} {code : Nat} (h : code ∈ codes s) : code < 0x110000 := codesOf_lt h

/-- Only the empty text holds no code. -/
theorem codes_eq_nil {s : String} : codes s = [] ↔ s = "" := by
  rw [codes, ← String.toList_eq_nil_iff]
  match s.toList with
  | [] | [_] => simp [codesOf]
  | c :: d :: cs =>
    unfold codesOf
    split
    · split <;> simp
    · simp

/-- No character is half of a pair. -/
theorem isHalf_toNat (c : Char) : isHalf c.toNat = false := by
  have valid := c.valid
  simp only [UInt32.isValidChar, Nat.isValidChar] at valid
  simp only [isHalf, Bool.and_eq_false_iff, decide_eq_false_iff_not, Char.toNat]
  omega

/-- A character other than the mark is held as it is. -/
theorem spell_toNat {c : Char} (h : c ≠ mark) : spell c.toNat = [c] := by
  have other : c.toNat ≠ mark.toNat := fun same => h (Char.toNat_inj.1 same)
  rw [spell, isHalf_toNat, if_neg Bool.false_ne_true, if_neg other, Char.ofNat_toNat]

/-- A text without a mark is held as it is. -/
theorem hold_eq_self {s : String} (h : mark ∉ s.toList) : hold s = s := by
  have same : (s.toList.map Char.toNat).flatMap spell = s.toList := by
    generalize s.toList = cs at h
    induction cs with
    | nil => rfl
    | cons c cs ih =>
      obtain ⟨other, rest⟩ := List.ne_and_not_mem_of_not_mem_cons h
      rw [List.map_cons, List.flatMap_cons, spell_toNat other.symm, ih rest, List.singleton_append]
  rw [hold, ofCodes, same, String.ofList_toList]

theorem toNat_ofNat {n : Nat} (valid : n.isValidChar) : (Char.ofNat n).toNat = n := by
  rw [Char.ofNat, dif_pos valid]
  rfl

/-- **A code is read as it was held,** whatever comes after it. -/
theorem codesOf_spell {code : Nat} (h : code < 0x110000) (cs : List Char) :
    codesOf (spell code ++ cs) = code :: codesOf cs := by
  rw [spell]
  split
  · next half =>
    have bounds := half
    simp only [isHalf, Bool.and_eq_true, decide_eq_true_eq] at bounds
    have value : (Char.ofNat (code + 0x800)).toNat = code + 0x800 :=
      toNat_ofNat (by unfold Nat.isValidChar; omega)
    refine codesOf_marked ?_ cs
    have other : Char.ofNat (code + 0x800) ≠ mark := by
      intro same
      have sum : code + 0x800 = 0xFFFF := by rw [← value, same]; rfl
      omega
    rw [marked?, if_neg other, value, Nat.add_sub_cancel, if_pos half]
  · next whole =>
    split
    · next same =>
      subst same
      exact codesOf_marked rfl cs
    · next other =>
      have valid : code.isValidChar := by
        simp only [isHalf, Bool.and_eq_true, decide_eq_true_eq] at whole
        unfold Nat.isValidChar
        omega
      have value := toNat_ofNat valid
      have noMark : Char.ofNat code ≠ mark := fun same => other (by rw [← value, same])
      rw [List.singleton_append, codesOf_cons noMark, value]

/-- **No two rows of codes are held alike:** the codes can be told from the text. -/
theorem codes_ofCodes {row : List Nat} (h : ∀ code ∈ row, code < 0x110000) :
    codes (ofCodes row) = row := by
  rw [codes, ofCodes, String.toList_ofList]
  induction row with
  | nil => rfl
  | cons code row ih =>
    rw [List.flatMap_cons, codesOf_spell (h code List.mem_cons_self),
      ih fun c hc => h c (List.mem_cons_of_mem _ hc)]

/-- **A text from outside a document holds its own characters,** and so no half of a pair. -/
theorem codes_hold (s : String) : codes (hold s) = s.toList.map Char.toNat := by
  refine codes_ofCodes fun code hcode => ?_
  obtain ⟨c, -, rfl⟩ := List.mem_map.1 hcode
  exact toNat_lt c

theorem hasHalf_hold (s : String) : hasHalf (hold s) = false := by
  simp [hasHalf, codes_hold, isHalf_toNat]

end ComponentSpec.Text
