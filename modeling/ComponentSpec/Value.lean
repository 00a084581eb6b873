import ComponentSpec.Number.Double

/-!
# Document values

A document is a tree of scalars, lists and objects. Syntax trees arrive as such documents, and
schemas and libraries leave as such documents, so one type serves both ends.

An object is a *table*: its entries keep the order in which their keys were first written, and its
keys are scalars. Objects read from text have only string keys; the keys of component options may be
any scalar. Two scalars are the *same* key when they are the same text, or the same number however
it is spelled: `1`, `1.0` and `true` are one key.

* `Scalar`, `Value` — the data;
* `Scalar.same` — equality of keys;
* `Table` — ordered tables, with `Table.find?` and `Table.set`;
* `Value.get` — the entry of an object, `null` where there is none;
* `Value.weight` — the number of nodes, the measure for recursion into a document.
-/

namespace ComponentSpec

/-- A value without parts. Scalars are what a table can be keyed by. -/
inductive Scalar where
  | null
  | bool (b : Bool)
  | int (n : Int)
  | float (x : Double)
  | str (s : String)
deriving DecidableEq, Inhabited

/-- **A document.** -/
inductive Value where
  | scalar (s : Scalar)
  | arr (items : List Value)
  | obj (entries : List (Scalar × Value))
deriving Inhabited

/-! ### Scalars -/

namespace Scalar

instance : Coe String Scalar := ⟨.str⟩

/-- The scalar with every integral number spelled as an integer: truth values count as `0` and
`1`, both float zeros as `0`. -/
def canonical : Scalar → Scalar
  | .bool b => .int (if b then 1 else 0)
  | .float x => match x.toInt? with
    | some n => .int n
    | none => .float x
  | s => s

/-- **Equality of keys.** Numbers are compared by value; what is not a number is the same as
itself. -/
def same (a b : Scalar) : Bool := decide (a.canonical = b.canonical)

@[simp] theorem same_str (s t : String) : same (.str s) (.str t) = decide (s = t) := by
  simp [same, canonical]

@[simp] theorem same_refl (a : Scalar) : a.same a := by simp [same]

theorem same_symm {a b : Scalar} (h : a.same b) : b.same a := by
  simp only [same, decide_eq_true_eq] at h ⊢
  exact h.symm

theorem same_trans {a b c : Scalar} (hab : a.same b) (hbc : b.same c) : a.same c := by
  simp only [same, decide_eq_true_eq] at *
  exact hab.trans hbc

/-- Scalars that are the same are the same as the same scalars. -/
theorem same_congr {a b : Scalar} (h : a.same b) (c : Scalar) : a.same c = b.same c := by
  rw [Bool.eq_iff_iff]
  exact ⟨fun hac => same_trans (same_symm h) hac, fun hbc => same_trans h hbc⟩

theorem same_comm (a b : Scalar) : a.same b = b.same a := by
  rw [Bool.eq_iff_iff]
  exact ⟨same_symm, same_symm⟩

/-- Only a text is the same key as a text. -/
theorem same_text {k : Scalar} {s : String} : k.same (.str s) ↔ k = .str s := by
  cases k with
  | str t => simp
  | float x => cases h : x.toInt? <;> simp [same, canonical, h]
  | null | bool | int => simp [same, canonical]

theorem eq_str_of_same {text : String} {k : Scalar} (h : (str text).same k) : k = .str text :=
  same_text.1 (same_symm h)

/-- `null`, `false`, zero and the empty text count as nothing. -/
def truthy : Scalar → Bool
  | .null => false
  | .bool b => b
  | .int n => n != 0
  | .float x => !x.isZero
  | .str s => s != ""

end Scalar

/-! ### Tables -/

/-- **An ordered table.** Entries stand in the order in which their keys first came. -/
abbrev Table (α : Type) := List (Scalar × α)

namespace Table

variable {α β : Type}

def find? (t : Table α) (k : Scalar) : Option α :=
  (List.find? (fun e => e.1.same k) t).map Prod.snd

def has (t : Table α) (k : Scalar) : Bool := List.any t fun e => e.1.same k

/-- Writes a key. A key that is already there keeps its spelling and its place. -/
def set : Table α → Scalar → α → Table α
  | [], k, v => [(k, v)]
  | (k', v') :: t, k, v => if k'.same k then (k', v) :: t else (k', v') :: set t k v

/-- Writes all entries of the second table, in order, into the first. -/
def merge (t u : Table α) : Table α := List.foldl (fun t e => t.set e.1 e.2) t u

/-- The table that results from writing the pairs in order. -/
def ofPairs (ps : List (Scalar × α)) : Table α := merge [] ps

def keys (t : Table α) : List Scalar := List.map Prod.fst t

@[simp] theorem find?_nil (k : Scalar) : find? ([] : Table α) k = none := rfl

theorem find?_cons (k' : Scalar) (v : α) (t : Table α) (k : Scalar) :
    find? ((k', v) :: t) k = if k'.same k then some v else find? t k := by
  cases h : k'.same k <;> simp [find?, h]

@[simp] theorem has_nil (k : Scalar) : has ([] : Table α) k = false := rfl

@[simp] theorem has_cons (k' : Scalar) (v : α) (t : Table α) (k : Scalar) :
    has ((k', v) :: t) k = (k'.same k || has t k) := rfl

/-- Keys that are the same read the same. -/
theorem find?_congr {k k' : Scalar} (h : k.same k') (t : Table α) : find? t k = find? t k' := by
  unfold find?
  congr 2
  funext e
  rw [Scalar.same_comm, Scalar.same_congr h, Scalar.same_comm]

theorem isSome_find? (t : Table α) (k : Scalar) : (find? t k).isSome = has t k := by
  induction t with
  | nil => rfl
  | cons e t ih => obtain ⟨k', v⟩ := e; cases h : k'.same k <;> simp [find?_cons, h, ih]

theorem has_of_find? {t : Table α} {k : Scalar} {v : α} (h : find? t k = some v) : has t k := by
  rw [← isSome_find?, h]
  rfl

theorem find?_eq_none {t : Table α} {k : Scalar} (h : has t k = false) : find? t k = none := by
  rw [← isSome_find?] at h
  simpa using h

theorem has_congr {k k' : Scalar} (h : k.same k') (t : Table α) : has t k = has t k' := by
  rw [← isSome_find?, ← isSome_find?, find?_congr h]

/-- **What is written under a key is read under it,** and whatever stood under other keys before. -/
theorem find?_set (t : Table α) (k : Scalar) (v : α) (k' : Scalar) :
    (t.set k v).find? k' = if k.same k' then some v else t.find? k' := by
  induction t with
  | nil => rw [set, find?_cons]
  | cons e t ih =>
    obtain ⟨k₀, v₀⟩ := e
    rw [set]
    split
    · next here =>
      rw [find?_cons, find?_cons, Scalar.same_congr here k']
      split <;> rfl
    · next elsewhere =>
      rw [find?_cons, find?_cons, ih]
      by_cases h₀ : k₀.same k'
      · have h : ¬ k.same k' := fun h =>
          elsewhere (Scalar.same_trans h₀ (Scalar.same_symm h))
        rw [if_pos h₀, if_neg h, if_pos h₀]
      · rw [if_neg h₀, if_neg h₀]

theorem has_set (t : Table α) (k : Scalar) (v : α) (k' : Scalar) :
    (t.set k v).has k' = (k.same k' || t.has k') := by
  rw [← isSome_find?, ← isSome_find?, find?_set]
  cases k.same k' <;> rfl

end Table

/-! ### Values -/

namespace Value

@[match_pattern] abbrev null : Value := .scalar .null
@[match_pattern] abbrev bool (b : Bool) : Value := .scalar (.bool b)
@[match_pattern] abbrev int (n : Int) : Value := .scalar (.int n)
@[match_pattern] abbrev float (x : Double) : Value := .scalar (.float x)
@[match_pattern] abbrev str (s : String) : Value := .scalar (.str s)

instance : Coe String Value := ⟨fun s => .str s⟩

def isNull : Value → Bool
  | .null => true
  | _ => false

def isObject : Value → Bool
  | .obj _ => true
  | _ => false

theorem isObject_iff {v : Value} : v.isObject ↔ ∃ entries, v = .obj entries := by
  cases v <;> simp [isObject]

def str? : Value → Option String
  | .str s => some s
  | _ => none

def scalar? : Value → Option Scalar
  | .scalar s => some s
  | _ => none

def list? : Value → Option (List Value)
  | .arr items => some items
  | _ => none

/-- Whether the value is the given text. -/
def isText (s : String) : Value → Bool
  | .str t => t == s
  | _ => false

/-- Whether the value is one of the given texts. -/
def isOneOf (texts : List String) : Value → Bool
  | .str t => texts.contains t
  | _ => false

theorem isText_iff {s : String} {v : Value} : v.isText s ↔ v = .str s := by
  unfold isText
  split <;> simp_all

theorem isOneOf_iff {texts : List String} {v : Value} :
    v.isOneOf texts ↔ ∃ t ∈ texts, v = .str t := by
  unfold isOneOf
  split <;> simp_all

/-- Empty lists and objects count as nothing, like the scalars that do. -/
def truthy : Value → Bool
  | .scalar s => s.truthy
  | .arr items => !items.isEmpty
  | .obj entries => !entries.isEmpty

/-- The entry under a text key; `null` where there is none, or no object. -/
def get (v : Value) (key : String) : Value :=
  match v with
  | .obj entries => (Table.find? entries key).getD .null
  | _ => .null

/-- Whether an object has an entry under a text key, `null` or not. -/
def hasKey (v : Value) (key : String) : Bool :=
  match v with
  | .obj entries => Table.has entries key
  | _ => false

/-- The object with one entry written. -/
def put (v : Value) (key : String) (value : Value) : Value :=
  match v with
  | .obj entries => .obj (Table.set entries key value)
  | v => v

theorem get_put {v : Value} (h : v.isObject) (key : String) (value : Value) :
    (v.put key value).get key = value := by
  cases v with
  | obj entries => simp [put, get, Table.find?_set]
  | scalar | arr => cases h

theorem get_put_of_ne {v : Value} {key key' : String} (h : key ≠ key') (value : Value) :
    (v.put key value).get key' = v.get key' := by
  cases v with
  | obj entries => simp [put, get, Table.find?_set, h]
  | scalar | arr => rfl

theorem hasKey_put_of_ne {v : Value} {key key' : String} (h : key ≠ key') (value : Value) :
    (v.put key value).hasKey key' = v.hasKey key' := by
  cases v with
  | obj entries => simp [put, hasKey, Table.has_set, h]
  | scalar | arr => rfl

/-- The object with the given entries, none of whose keys repeat. -/
def record (entries : List (String × Value)) : Value :=
  .obj (entries.map fun e => (.str e.1, e.2))

def ofOption : Option Value → Value
  | some v => v
  | none => .null

/-! ### Weight -/

mutual

/-- The number of scalars, lists and objects in a document; an object counts twice, once for the
`null` that is read under a key it does not have. -/
def weight : Value → Nat
  | .scalar _ => 1
  | .arr items => 1 + weightItems items
  | .obj entries => 2 + weightEntries entries

def weightItems : List Value → Nat
  | [] => 0
  | v :: vs => v.weight + weightItems vs

def weightEntries : List (Scalar × Value) → Nat
  | [] => 0
  | (_, v) :: es => v.weight + weightEntries es

end

theorem weight_pos (v : Value) : 0 < v.weight := by
  cases v <;> unfold weight <;> omega

theorem weight_le_of_mem {v : Value} {vs : List Value} (h : v ∈ vs) :
    v.weight ≤ weightItems vs := by
  induction vs with
  | nil => cases h
  | cons w ws ih =>
    simp only [weightItems]
    rcases List.mem_cons.1 h with rfl | h
    · omega
    · have := ih h; omega

theorem weight_le_of_find? {k : Scalar} {v : Value} {es : Table Value}
    (h : Table.find? es k = some v) : v.weight ≤ weightEntries es := by
  induction es with
  | nil => simp at h
  | cons e es ih =>
    obtain ⟨k', w⟩ := e
    simp only [weightEntries]
    rw [Table.find?_cons] at h
    split at h
    · injection h with h; subst h; omega
    · have := ih h; omega

/-- **Recursion into an object ends:** what is read from an object is lighter than the object. -/
theorem weight_get_lt {v : Value} (h : v.isObject) (key : String) :
    (v.get key).weight < v.weight := by
  cases v with
  | scalar s => cases h
  | arr items => cases h
  | obj es =>
    cases hf : Table.find? es (Scalar.str key) with
    | none => simp [get, hf, weight]; omega
    | some w =>
      have := weight_le_of_find? hf
      simp [get, hf, weight]; omega

theorem weight_get_le (v : Value) (key : String) : (v.get key).weight ≤ v.weight := by
  cases h : v.isObject with
  | true => exact Nat.le_of_lt (weight_get_lt h key)
  | false =>
    have : v.get key = .null := by cases v <;> first | rfl | cases h
    rw [this]
    exact weight_pos v

end Value

end ComponentSpec
