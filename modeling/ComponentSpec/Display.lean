import ComponentSpec.Value
import ComponentSpec.Number.Decimal
import ComponentSpec.Text.Quoted

/-!
# Values in messages

A value named in a message is shown as it is when it is a text; any other value by its display form,
in which the texts inside lists and objects are quoted.

* `Value.quoted` — the display form;
* `Value.shown` — the form in running text.
-/

namespace ComponentSpec

def displayNames : NumberNames := ⟨"nan", "inf"⟩

def Scalar.quoted : Scalar → String
  | .null => "None"
  | .bool true => "True"
  | .bool false => "False"
  | .int n => toString n
  | .float x => x.text displayNames
  | .str s => Text.quoted s

namespace Value

mutual

/-- **The display form of a value.** -/
def quoted : Value → String
  | .scalar s => s.quoted
  | .arr [] => "[]"
  | .arr (v :: vs) => "[" ++ quoted v ++ quotedItems vs ++ "]"
  | .obj [] => "\x7b\x7d"
  | .obj ((k, v) :: es) => "\x7b" ++ k.quoted ++ ": " ++ quoted v ++ quotedEntries es ++ "\x7d"

def quotedItems : List Value → String
  | [] => ""
  | v :: vs => ", " ++ quoted v ++ quotedItems vs

def quotedEntries : List (Scalar × Value) → String
  | [] => ""
  | (k, v) :: es => ", " ++ k.quoted ++ ": " ++ quoted v ++ quotedEntries es

end

/-- The form of a value in running text. -/
def shown : Value → String
  | .str s => s
  | v => v.quoted

@[simp] theorem shown_str (s : String) : shown (.str s) = s := rfl

end Value

end ComponentSpec
