import Mathlib.Data.List.Basic
import ComponentSpec.Disk.Pattern

/-!
# What fits a pattern

Whether a name fits a pattern is found by marking the places of the name that can be reached, all of
them at once and part by part (`advance`). What is meant is simpler: the name can be cut into
pieces, one for each part, such that every part stands for its piece (`Spans`). The two agree
(`fits_iff`): a place is marked exactly if the text before it can be cut for the parts so far, and
one part more takes a piece more.

* `Token.Takes`, `Spans` — the piece of one part, and the text of several;
* `reaches_foldl` — the places that are marked;
* `fits_iff` — what fits a pattern;
* `fits_star` — what fits a star and a text after it.
-/

namespace ComponentSpec.Pattern

variable {t : Token} {ts : List Token} {cs before after : List Char} {reached : List Bool}
  {s name : String}

/-- The pieces that a part stands for. -/
def Token.Takes : Token → List Char → Prop
  | .many, _ => True
  | t, piece => ∃ c, piece = [c] ∧ t.accepts c

/-- **A text that can be cut into pieces,** one for each part. -/
inductive Spans : List Token → List Char → Prop
  | nil : Spans [] []
  | cons {t : Token} {ts : List Token} {piece rest : List Char} (first : t.Takes piece)
    (others : Spans ts rest) : Spans (t :: ts) (piece ++ rest)

theorem spans_nil_iff : Spans [] cs ↔ cs = [] := by
  constructor
  · rintro ⟨⟩
    rfl
  · rintro rfl
    exact .nil

theorem spans_cons_iff :
    Spans (t :: ts) cs ↔ ∃ piece rest, cs = piece ++ rest ∧ t.Takes piece ∧ Spans ts rest := by
  constructor
  · rintro (_ | ⟨first, others⟩)
    exact ⟨_, _, rfl, first, others⟩
  · rintro ⟨piece, rest, rfl, first, others⟩
    exact .cons first others

/-! ### The places that are reached -/

@[simp] theorem length_onwards (l : List Bool) : (onwards l).length = l.length := by
  induction l with
  | nil => rfl
  | cons here l ih => cases here <;> simp [onwards, ih]

/-- From a place that is reached, all places onwards are. -/
theorem getElem?_onwards {l : List Bool} {i : Nat} :
    (onwards l)[i]? = some true ↔ i < l.length ∧ ∃ j ≤ i, l[j]? = some true := by
  induction l generalizing i with
  | nil => simp [onwards]
  | cons here l ih =>
    cases here with
    | true =>
      have first : ∃ j ≤ i, (true :: l)[j]? = some true := ⟨0, Nat.zero_le i, rfl⟩
      cases i with
      | zero => simp [onwards]
      | succ i => simp [onwards, first, List.getElem?_replicate]
    | false =>
      cases i with
      | zero => simp [onwards]
      | succ i =>
        rw [onwards, List.getElem?_cons_succ, ih, List.length_cons, Nat.succ_lt_succ_iff]
        refine and_congr_right fun _ => ⟨?_, ?_⟩
        · rintro ⟨j, upTo, here⟩
          exact ⟨j + 1, Nat.succ_le_succ upTo, here⟩
        · rintro ⟨j, upTo, here⟩
          cases j with
          | zero => cases here
          | succ j => exact ⟨j, Nat.le_of_succ_le_succ upTo, here⟩

theorem length_advance (length : reached.length = cs.length + 1) :
    (advance cs reached t).length = cs.length + 1 := by
  cases t <;> simp [advance, length]

/-- **One part more** takes a piece more. -/
theorem reaches_advance (length : reached.length = (before ++ after).length + 1) :
    (advance (before ++ after) reached t)[before.length]? = some true ↔
      ∃ start piece, before = start ++ piece ∧ reached[start.length]? = some true ∧
        t.Takes piece := by
  by_cases many : t = .many
  · subst many
    rw [advance, getElem?_onwards, length, List.length_append]
    constructor
    · rintro ⟨-, j, upTo, here⟩
      refine ⟨before.take j, before.drop j, (List.take_append_drop j before).symm, ?_, trivial⟩
      rwa [List.length_take_of_le upTo]
    · rintro ⟨start, piece, rfl, here, -⟩
      exact ⟨by omega, start.length, by simp, here⟩
  · -- any other part takes one character, the last before the place
    have takes (piece : List Char) : t.Takes piece ↔ ∃ c, piece = [c] ∧ t.accepts c := by
      cases t <;> first | rfl | exact absurd rfl many
    have advanced : advance (before ++ after) reached t =
        false :: List.zipWith (fun here c => here && t.accepts c) reached (before ++ after) := by
      cases t <;> first | rfl | exact absurd rfl many
    simp only [takes, advanced]
    rcases List.eq_nil_or_concat' before with rfl | ⟨start, c, rfl⟩
    · simp
    · have here : (start ++ [c] ++ after)[start.length]? = some c := by simp
      rw [List.length_append, List.length_singleton, List.getElem?_cons_succ,
        List.getElem?_zipWith, here]
      constructor
      · intro h
        cases marked : reached[start.length]? with
        | none => simp [marked] at h
        | some b =>
          obtain ⟨rfl, accepted⟩ : b = true ∧ t.accepts c = true := by simpa [marked] using h
          exact ⟨start, [c], rfl, marked, c, rfl, accepted⟩
      · rintro ⟨start', piece, same, marked, d, rfl, accepted⟩
        obtain ⟨rfl, last⟩ := List.append_inj' same rfl
        cases last
        simp [marked, accepted]

theorem length_foldl_advance (ts : List Token) (length : reached.length = cs.length + 1) :
    (ts.foldl (advance cs) reached).length = cs.length + 1 := by
  induction ts generalizing reached with
  | nil => exact length
  | cons t ts ih => exact ih (length_advance length)

/-- **The places that several parts reach.** -/
theorem reaches_foldl (ts : List Token)
    (length : reached.length = (before ++ after).length + 1) :
    (ts.foldl (advance (before ++ after)) reached)[before.length]? = some true ↔
      ∃ start text, before = start ++ text ∧ reached[start.length]? = some true ∧
        Spans ts text := by
  induction ts generalizing reached before after with
  | nil =>
    simp only [List.foldl_nil, spans_nil_iff]
    constructor
    · intro here
      exact ⟨before, [], (List.append_nil _).symm, here, rfl⟩
    · rintro ⟨start, text, rfl, here, rfl⟩
      simpa using here
  | cons t ts ih =>
    rw [List.foldl_cons, ih (length_advance length)]
    constructor
    · rintro ⟨middle, rest, rfl, here, others⟩
      rw [List.append_assoc] at here length
      obtain ⟨start, piece, rfl, here, first⟩ := (reaches_advance length).1 here
      exact ⟨start, piece ++ rest, List.append_assoc .., here, .cons first others⟩
    · rintro ⟨start, text, rfl, here, spans⟩
      obtain ⟨piece, rest, rfl, first, others⟩ := spans_cons_iff.1 spans
      refine ⟨start ++ piece, rest, (List.append_assoc ..).symm, ?_, others⟩
      have split : start ++ (piece ++ rest) ++ after = (start ++ piece) ++ (rest ++ after) := by
        simp only [List.append_assoc]
      rw [split] at length ⊢
      exact (reaches_advance length).2 ⟨start, piece, rfl, here, first⟩

/-! ### What fits -/

theorem fitsTokens_iff : fitsTokens ts cs = true ↔ Spans ts cs := by
  have length : (true :: cs.map fun _ => false).length = (cs ++ []).length + 1 := by simp
  have last := reaches_foldl ts length
  rw [List.append_nil] at last length
  rw [fitsTokens, beq_iff_eq, List.getLast?_eq_getElem?, length_foldl_advance ts length,
    Nat.add_sub_cancel, last]
  -- only the first place is reached to begin with
  constructor
  · rintro ⟨start, text, rfl, here, spans⟩
    cases start with
    | nil => exact spans
    | cons c start =>
      rw [List.length_cons, List.getElem?_cons_succ, List.getElem?_map] at here
      simp at here
  · intro spans
    exact ⟨[], cs, rfl, rfl, spans⟩

/-- **What fits a pattern** can be cut into pieces, one for each of its parts. -/
theorem fits_iff {pattern : String} :
    fits pattern name = true ↔ Spans (tokens pattern.toList) name.toList :=
  fitsTokens_iff

/-- A text without special characters stands for itself. -/
theorem tokens_of_closed (closed : isOpen s = false) : tokens s.toList = s.toList.map .char := by
  have plain (cs : List Char)
      (closed : (cs.any fun c => c == '*' || c == '?' || c == '[') = false) :
      tokens cs = cs.map .char := by
    induction cs with
    | nil => rw [tokens, List.map_nil]
    | cons c cs ih =>
      simp only [List.any_cons, Bool.or_eq_false_iff, beq_eq_false_iff_ne] at closed
      obtain ⟨⟨⟨noStar, noMark⟩, noBracket⟩, closed⟩ := closed
      rw [tokens, if_neg noStar, if_neg noMark, if_neg noBracket, ih closed, List.map_cons]
  exact plain s.toList closed

theorem spans_map_char {ds : List Char} : Spans (ds.map .char) cs ↔ cs = ds := by
  induction ds generalizing cs with
  | nil => exact spans_nil_iff
  | cons d ds ih =>
    rw [List.map_cons, spans_cons_iff]
    constructor
    · rintro ⟨piece, rest, rfl, ⟨c, rfl, same⟩, others⟩
      rw [ih.1 others, beq_iff_eq.1 same]
      rfl
    · rintro rfl
      exact ⟨[d], ds, rfl, ⟨d, rfl, beq_self_eq_true d⟩, ih.2 rfl⟩

/-- **What fits a star and a text** ends in the text. -/
theorem fits_star (closed : isOpen s = false) :
    fits ("*" ++ s) name = true ↔ s.toList <:+ name.toList := by
  have parts : tokens ("*" ++ s).toList = .many :: s.toList.map .char := by
    rw [String.toList_append, ← tokens_of_closed closed]
    exact tokens.eq_2 ..
  rw [fits_iff, parts, spans_cons_iff]
  constructor
  · rintro ⟨piece, rest, split, -, others⟩
    rw [spans_map_char] at others
    exact ⟨piece, by rw [split, others]⟩
  · rintro ⟨piece, split⟩
    exact ⟨piece, s.toList, split.symm, trivial, spans_map_char.2 rfl⟩

end ComponentSpec.Pattern
