/-!
# File name patterns

In a pattern `*` stands for any characters, `?` for one, and a bracket for one out of a set: single
characters and ranges, or all others if it begins with `!`. A closing bracket that comes first in
the set belongs to it; an opening bracket that is never closed stands for itself. A range whose ends
are in the wrong order counts as not written, so that the set begins with what follows it.

* `Pattern.tokens` — the parts of a pattern;
* `Pattern.fits` — whether a name fits a pattern from end to end.
-/

namespace ComponentSpec.Pattern

/-- What a set has: a character, or all characters between two, these included. -/
inductive Member where
  | single (c : Char)
  | range (first last : Char)
deriving DecidableEq

def Member.has : Member → Char → Bool
  | .single a, c => a == c
  | .range first last, c => first ≤ c && c ≤ last

/-- Whether the ends of a range are in the wrong order. -/
def Member.isReversed : Member → Bool
  | .single _ => false
  | .range first last => last < first

/-- One part of a pattern. -/
inductive Token where
  | many
  | one
  | char (c : Char)
  | set (negated : Bool) (members : List Member)
deriving DecidableEq

/-- The members of a set. A hyphen between two characters makes a range of them; any other hyphen
stands for itself. -/
def members : List Char → List Member
  | first :: '-' :: last :: cs => .range first last :: members cs
  | c :: cs => .single c :: members cs
  | [] => []

/-- The inside of a bracket and the pattern after it, if the bracket is closed. -/
def bracket? (cs : List Char) : Option (List Char × List Char) :=
  let (negation, cs) := match cs with
    | '!' :: r => (['!'], r)
    | r => ([], r)
  let (first, cs) := match cs with
    | ']' :: r => ([']'], r)
    | r => ([], r)
  match cs.dropWhile (· ≠ ']') with
  | [] => none
  | _ :: rest => some (negation ++ first ++ cs.takeWhile (· ≠ ']'), rest)

theorem length_bracket? {cs inside rest : List Char} (h : bracket? cs = some (inside, rest)) :
    rest.length ≤ cs.length := by
  unfold bracket? at h
  simp only at h
  split at h <;> rename_i hd
  · cases h
  · injection h with h
    injection h with _ h
    subst h
    have key := congrArg List.length hd
    have drop := fun l : List Char => (List.dropWhile_suffix (l := l) (· ≠ ']')).length_le
    grind

/-- The set that is written inside a bracket. A mark that begins it negates, also one that was the
beginning of a range; the hyphen of that range then stands for itself. -/
def setToken (inside : List Char) : Token :=
  match inside with
  | '!' :: cs => .set true (members cs)
  | cs =>
    match (members cs).filter fun m => !m.isReversed with
    | .single '!' :: ms => .set true ms
    | .range '!' last :: ms => .set true (.single '-' :: .single last :: ms)
    | ms => .set false ms

/-- **The parts of a pattern.** -/
def tokens : List Char → List Token
  | [] => []
  | c :: cs =>
    if c = '*' then .many :: tokens cs
    else if c = '?' then .one :: tokens cs
    else if c = '[' then
      match h : bracket? cs with
      | none => .char c :: tokens cs
      | some (inside, rest) =>
        have := length_bracket? h
        setToken inside :: tokens rest
    else .char c :: tokens cs
  termination_by cs => cs.length

/-- Whether a part that stands for one character stands for this one. -/
def Token.accepts : Token → Char → Bool
  | .many, _ => true
  | .one, _ => true
  | .char a, c => a == c
  | .set negated members, c => (members.any fun m => m.has c) != negated

/-- The places from the first that is reached on. -/
def onwards : List Bool → List Bool
  | [] => []
  | true :: places => true :: places.map fun _ => true
  | false :: places => false :: onwards places

/-- The places of a text, before its first character and after every one, that are reached with one
part more. -/
def advance (cs : List Char) (reached : List Bool) : Token → List Bool
  | .many => onwards reached
  | t => false :: List.zipWith (fun here c => here && t.accepts c) reached cs

/-- Whether a text fits the parts from end to end: they reach its last place from its first. -/
def fitsTokens (ts : List Token) (cs : List Char) : Bool :=
  (ts.foldl (advance cs) (true :: cs.map fun _ => false)).getLast? == some true

/-- **Whether a name fits a pattern.** -/
def fits (pattern name : String) : Bool := fitsTokens (tokens pattern.toList) name.toList

/-- Whether a text stands for more than itself. -/
def isOpen (s : String) : Bool := s.toList.any fun c => c == '*' || c == '?' || c == '['

end ComponentSpec.Pattern
