import ComponentSpec.Text.Letter

/-!
# Lower case

Texts are compared without regard to case by lowering both. Every character goes to its own lower
case, with two exceptions: the capital I with a dot becomes two characters, and a capital sigma at
the end of a word becomes the final sigma. The end of a word is where a cased letter stands before
the sigma and none after it, characters without a say in the matter being seen past.
-/

namespace ComponentSpec.Text

/-- The lower case of a character that has a single one; any other character itself. -/
def lowerChar (c : Char) : Char :=
  if c.toNat < 0x80 then c.toLower
  else
    match lowerRuns.find? fun (first, last, step, _) =>
        first ≤ c.toNat && c.toNat ≤ last && (c.toNat - first) % step == 0 with
    | some (_, _, _, shift) => Char.ofNat ((c.toNat : Int) + shift).toNat
    | none => c

/-- Whether the first character that counts is a cased letter. -/
def startsCased (cs : List Char) : Bool :=
  match cs.dropWhile caseIgnorable.has with
  | c :: _ => cased.has c
  | [] => false

/-- Lowers a text, given what stands before it, nearest character first. -/
def lowerFrom (before : List Char) : List Char → List Char
  | [] => []
  | c :: cs =>
    let low :=
      if c = 'Σ' then [if startsCased before && !startsCased cs then 'ς' else 'σ']
      else if c = 'İ' then ['i', '\u0307']
      else [lowerChar c]
    low ++ lowerFrom (c :: before) cs

/-- **The text in lower case.** -/
def lowercase (s : String) : String := String.ofList (lowerFrom [] s.toList)

end ComponentSpec.Text
