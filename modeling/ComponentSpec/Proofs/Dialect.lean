import ComponentSpec.Proofs.Alike
import ComponentSpec.Proofs.Parts
import ComponentSpec.Facet.Command

/-!
# Dialects of a tree

Parsers write the same file differently: type arguments stand under one of two keys, extends clauses
have one of two tags, the parameters and the return type of a function stand under two keys each,
and the program may come without a file around it. `Dialect.write` rewrites a tree from the one way
into the other, and the lemmas here say what stands under which key after it.

Some entries are read under one key only, so not every tree survives. A parameter has its type under
`typeAnnotation`, and type arguments are held under `params`: a function that stands in one of these
places would be rewritten like any other. `Dialect.keepsApart` excludes them.

* `Dialect`, `Dialect.write`, `Dialect.writeFile` — the rewriting;
* `Dialect.Proper` — the trees that survive it;
* `get_write`, `get_write_moved` — entries that stay and entries that are moved;
* `tag_write` — the tag of a node;
* `weight_write` — the weight of a tree.
-/

namespace ComponentSpec

open Checked

/-! ### Nodes -/

namespace Value

def isScalar : Value → Bool
  | .scalar _ => true
  | _ => false

theorem isScalar_iff {v : Value} : v.isScalar ↔ ∃ s, v = .scalar s := by
  cases v <;> simp [isScalar]

theorem get_of_isScalar {v : Value} (h : v.isScalar) (key : String) : v.get key = .null := by
  obtain ⟨s, rfl⟩ := isScalar_iff.1 h
  rfl

/-- The tags of functions. -/
def functionTags : List String := ["TSMethodSignature", "TSFunctionType"]

/-- Whether a node is a function. -/
def isFunction (node : Value) : Bool := node.hasTagIn functionTags

/-- **Whether a node is a function in the older way of writing:** a list of parameters, the return
type in a single wrapper, and nothing under the other keys. -/
def isSignature (node : Value) : Bool :=
  node.isFunction && (node.get "parameters").list?.isSome
    && (node.get "typeAnnotation").hasTag "TSTypeAnnotation"
    && !((node.get "typeAnnotation").get "typeAnnotation").hasTag "TSTypeAnnotation"
    && !node.hasKey "params" && !node.hasKey "returnType"

/-- The tags of literals with a value. -/
def literalTags : List String := ["StringLiteral", "NumericLiteral", "BooleanLiteral", "Literal"]

/-- **A node whose name, and whose value if it is a literal, are scalars,** and which is not written
with `typeArguments` already. -/
def isRegular (node : Value) : Bool :=
  (node.get "name").isScalar && (!node.hasTagIn literalTags || (node.get "value").isScalar)
    && !node.hasKey "typeArguments"

end Value

/-! ### The rewriting -/

/-- **A way to write a tree,** by how it departs from the older one. -/
structure Dialect where
  /-- Type arguments stand under `typeArguments`. -/
  typeArguments : Bool
  /-- Extends clauses are tagged `TSInterfaceHeritage`. -/
  heritage : Bool
  /-- Functions have `params` and a `returnType`. -/
  returnType : Bool
  /-- The program has no file around it. -/
  bareProgram : Bool

namespace Dialect

variable (d : Dialect)

/-- The key of an entry, in a node that is a function to be rewritten or not. -/
def key (signature : Bool) (k : Scalar) : Scalar :=
  if d.typeArguments ∧ k = .str "typeParameters" then .str "typeArguments"
  else if signature ∧ k = .str "parameters" then .str "params"
  else if signature ∧ k = .str "typeAnnotation" then .str "returnType"
  else k

/-- Whether an entry is the tag of an extends clause that is to be rewritten. -/
def retags (key : Scalar) (v : Value) : Bool :=
  d.heritage && decide (key = .str "type") && v.isText "TSExpressionWithTypeArguments"

/-- Whether a node is a function that is to be rewritten. -/
def signs (node : Value) : Bool := d.returnType && node.isSignature

mutual

/-- **The tree in another dialect.** -/
def write : Value → Value
  | .scalar s => .scalar s
  | .arr items => .arr (writeItems items)
  | .obj entries => .obj (writeEntries (d.signs (.obj entries)) entries)

def writeItems : List Value → List Value
  | [] => []
  | v :: vs => write v :: writeItems vs

def writeEntries (signature : Bool) : List (Scalar × Value) → List (Scalar × Value)
  | [] => []
  | (k, v) :: es =>
    (d.key signature k, if d.retags k v then .str "TSInterfaceHeritage" else write v)
      :: writeEntries signature es

end

/-- **The file in another dialect.** -/
def writeFile (tree : Value) : Value :=
  if d.bareProgram && tree.hasTag "File" && (tree.get "program").hasTag "Program" then
    d.write (tree.get "program")
  else d.write tree

/-! ### Trees that survive -/

/-- **A node that has no function to be rewritten among its parameters,** if it is a function
itself, nor in the place of its type arguments. -/
def keepsApart (node : Value) : Bool :=
  !d.signs (node.get "typeParameters")
    && (!node.isFunction
      || ((node.get "parameters").listOrEmpty ++ (node.get "params").listOrEmpty).all
          fun param => !d.signs param)

/-- **A tree that survives the rewriting.** -/
structure Proper (tree : Value) : Prop where
  regular : ∀ node ∈ tree.parts, node.isRegular
  apart : ∀ node ∈ tree.parts, d.keepsApart node

@[simp] theorem signs_scalar (s : Scalar) : d.signs (.scalar s) = false := by
  simp [signs, Value.isSignature, Value.isFunction, Value.hasTagIn, Value.tag, Value.get,
    Value.isOneOf]

/-- What has no entries keeps everything apart. -/
theorem keepsApart_of_get_eq_null {node : Value} (h : ∀ key, node.get key = .null) :
    d.keepsApart node := by
  simp [keepsApart, h, Value.isFunction, Value.hasTagIn, Value.tag, Value.isOneOf]

namespace Proper

variable {d} {v w : Value}

theorem of_mem_parts (h : d.Proper v) (hw : w ∈ v.parts) : d.Proper w :=
  ⟨fun u hu => h.regular u (Value.mem_parts_trans hu v hw),
    fun u hu => h.apart u (Value.mem_parts_trans hu v hw)⟩

theorem isRegular (h : d.Proper v) : v.isRegular := h.regular v (Value.mem_parts_self v)

theorem keepsApart (h : d.Proper v) : d.keepsApart v := h.apart v (Value.mem_parts_self v)

theorem scalar (s : Scalar) : d.Proper (.scalar s) := by
  constructor <;> intro u hu <;> obtain rfl : u = .scalar s := by simpa [Value.parts] using hu
  · rfl
  · exact d.keepsApart_of_get_eq_null fun _ => rfl

theorem empty : d.Proper (.obj []) := by
  constructor <;> intro u hu <;> rcases List.mem_cons.1 hu with rfl | hu
  · rfl
  · exact (scalar (d := d) .null).regular u hu
  · exact d.keepsApart_of_get_eq_null fun _ => rfl
  · exact (scalar .null).apart u hu

theorem arr {items : List Value} (h : ∀ v ∈ items, d.Proper v) : d.Proper (.arr items) := by
  constructor <;> intro u hu <;> rcases List.mem_cons.1 hu with rfl | hu
  · rfl
  · obtain ⟨v, hv, hu⟩ := Value.mem_itemParts.1 hu
    exact (h v hv).regular u hu
  · exact d.keepsApart_of_get_eq_null fun _ => rfl
  · obtain ⟨v, hv, hu⟩ := Value.mem_itemParts.1 hu
    exact (h v hv).apart u hu

theorem get (h : d.Proper v) (key : String) : d.Proper (v.get key) := by
  cases hv : v.isObject with
  | true => exact h.of_mem_parts (Value.get_mem_parts hv key)
  | false => rw [Value.get_eq_null hv]; exact scalar .null

theorem of_mem_items {items : List Value} (h : d.Proper (.arr items)) (hw : w ∈ items) :
    d.Proper w :=
  h.of_mem_parts (Value.mem_parts_of_mem_listOrEmpty hw)

end Proper

/-! ### Shape -/

@[simp] theorem write_scalar (s : Scalar) : d.write (.scalar s) = .scalar s := by rw [write]

theorem writeItems_eq_map (items : List Value) : d.writeItems items = items.map d.write := by
  induction items with
  | nil => rw [writeItems, List.map_nil]
  | cons v vs ih => rw [writeItems, ih, List.map_cons]

@[simp] theorem write_arr (items : List Value) :
    d.write (.arr items) = .arr (items.map d.write) := by
  rw [write, writeItems_eq_map]

/-- An entry, rewritten. -/
def writeEntry (signature : Bool) (e : Scalar × Value) : Scalar × Value :=
  (d.key signature e.1, if d.retags e.1 e.2 then .str "TSInterfaceHeritage" else d.write e.2)

theorem writeEntries_eq_map (signature : Bool) (es : Table Value) :
    d.writeEntries signature es = es.map (d.writeEntry signature) := by
  induction es with
  | nil => rw [writeEntries, List.map_nil]
  | cons e es ih => rw [writeEntries, ih, List.map_cons]; rfl

@[simp] theorem write_obj (es : Table Value) :
    d.write (.obj es) = .obj (es.map (d.writeEntry (d.signs (.obj es)))) := by
  rw [write, writeEntries_eq_map]

/-! ### Entries -/

/-- The keys of type arguments. -/
def argumentKeys : List String := ["typeParameters", "typeArguments"]

/-- The keys of what is moved in functions. -/
def functionKeys : List String := ["parameters", "params", "typeAnnotation", "returnType"]

/-- The keys under which a node may differ from its rewriting. -/
def rewrittenKeys : List String := "type" :: argumentKeys ++ functionKeys

/-- The tags of extends clauses. -/
def extendsTags : List String := ["TSExpressionWithTypeArguments", "TSInterfaceHeritage"]

/-- A key that is not moved is written, and nothing else is written under it. -/
theorem key_same {signature : Bool} {key : String}
    (fixed : d.typeArguments = false ∨ key ∉ argumentKeys)
    (own : signature = false ∨ key ∉ functionKeys) (k : Scalar) :
    (d.key signature k).same (.str key) = k.same (.str key) := by
  simp only [argumentKeys, functionKeys, List.mem_cons, List.not_mem_nil, or_false, not_or]
    at fixed own
  -- an entry is moved to and from other keys than this one, or stays
  unfold Dialect.key
  split_ifs <;> simp_all [Ne.symm]

variable {d}

/-- What is no function stays as it is. -/
theorem signs_of_hasTag {tag : String} {node : Value} (h : node.hasTag tag)
    (other : Value.functionTags.contains tag = false) : d.signs node = false := by
  have other : tag ∉ Value.functionTags := by simpa using other
  simp [signs, Value.isSignature, Value.isFunction, Value.hasTagIn_of_hasTag h, other]

/-- **What is read under a key,** where a key is read in the place of another. -/
theorem find?_map_writeEntry {es : Table Value} {signature : Bool} {key key' : String}
    (moved : ∀ e ∈ es, (d.key signature e.1).same (.str key') = e.1.same (.str key)) :
    Table.find? (es.map (d.writeEntry signature)) (.str key') =
      (Table.find? es (.str key)).map fun v =>
        if d.retags (.str key) v then .str "TSInterfaceHeritage" else d.write v := by
  induction es with
  | nil => rfl
  | cons e es ih =>
    obtain ⟨k, v⟩ := e
    have here : (d.key signature k).same (.str key') = k.same (.str key) :=
      moved _ List.mem_cons_self
    rw [List.map_cons, writeEntry, Table.find?_cons, Table.find?_cons, here,
      ih fun e he => moved e (List.mem_cons_of_mem _ he)]
    split
    · next same => rw [Scalar.same_text.1 same, Option.map_some]
    · rfl

theorem has_map_writeEntry {es : Table Value} {signature : Bool} {key key' : String}
    (moved : ∀ e ∈ es, (d.key signature e.1).same (.str key') = e.1.same (.str key)) :
    Table.has (es.map (d.writeEntry signature)) (.str key') = Table.has es (.str key) := by
  rw [← Table.isSome_find?, ← Table.isSome_find?, find?_map_writeEntry moved, Option.isSome_map]

theorem retags_of_ne {key : String} (h : key ≠ "type") (v : Value) :
    d.retags (.str key) v = false := by simp [retags, h]

/-- **A moved entry.** -/
theorem get_write_of_moved {es : Table Value} {key key' : String} (untagged : key ≠ "type")
    (moved : ∀ e ∈ es,
      (d.key (d.signs (.obj es)) e.1).same (.str key') = e.1.same (.str key)) :
    (d.write (.obj es)).get key' = d.write ((Value.obj es).get key) := by
  simp only [write_obj, Value.get, find?_map_writeEntry moved, retags_of_ne untagged]
  cases Table.find? es (.str key) <;> simp

/-- **An entry that is not moved.** -/
theorem get_write {key : String} (untagged : key ≠ "type")
    (fixed : d.typeArguments = false ∨ key ∉ argumentKeys) {v : Value}
    (own : d.signs v = false ∨ key ∉ functionKeys) :
    (d.write v).get key = d.write (v.get key) := by
  cases v with
  | scalar | arr => simp [Value.get]
  | obj es =>
    refine get_write_of_moved untagged fun e _ => ?_
    exact d.key_same fixed own e.1

theorem hasKey_write {key : String} (fixed : d.typeArguments = false ∨ key ∉ argumentKeys)
    {v : Value} (own : d.signs v = false ∨ key ∉ functionKeys) :
    (d.write v).hasKey key = v.hasKey key := by
  cases v with
  | scalar | arr => simp [Value.hasKey]
  | obj es =>
    simp only [write_obj, Value.hasKey]
    refine has_map_writeEntry fun e _ => ?_
    exact d.key_same fixed own e.1

/-- **The tag,** the same unless it is that of an extends clause. -/
theorem tag_write (v : Value) : (d.write v).tag = d.write v.tag ∨
    v.hasTag "TSExpressionWithTypeArguments" ∧ (d.write v).hasTag "TSInterfaceHeritage" := by
  cases v with
  | scalar | arr => simp [Value.tag, Value.get]
  | obj es =>
    have moved (e : Scalar × Value) : (d.key (d.signs (.obj es)) e.1).same (.str "type") =
        e.1.same (.str "type") :=
      d.key_same (Or.inr (by decide)) (Or.inr (by decide)) e.1
    simp only [Value.hasTag, Value.tag, write_obj, Value.get,
      find?_map_writeEntry fun e _ => moved e]
    cases Table.find? es (.str "type") with
    | none => simp
    | some v =>
      cases tagged : d.retags (.str "type") v with
      | false => simp [tagged]
      | true =>
        have text : v.isText "TSExpressionWithTypeArguments" := by
          simp only [retags, Bool.and_eq_true] at tagged
          exact tagged.2
        exact Or.inr ⟨text, by simp [tagged, Value.isText]⟩

/-! ### Moved entries -/

/-- The keys between which entries are moved. -/
def moves : List (String × String) :=
  [("typeParameters", "typeArguments"), ("parameters", "params"), ("typeAnnotation", "returnType")]

section

variable {signature : Bool} {key key' : String} {k : Scalar}

/-- Only what is moved to a key, or has been there, is found under it. -/
theorem key_eq_iff (pair : (key, key') ∈ moves) (moved : d.key signature (.str key) = .str key')
    (absent : k ≠ .str key') : d.key signature k = .str key' ↔ k = .str key := by
  simp only [moves, List.mem_cons, Prod.mk.injEq, List.not_mem_nil, or_false] at pair
  rcases pair with ⟨rfl, rfl⟩ | ⟨rfl, rfl⟩ | ⟨rfl, rfl⟩ <;> grind [Dialect.key]

/-- Nothing is moved to a key that something is moved away from. -/
theorem key_ne (pair : (key, key') ∈ moves) (moved : d.key signature (.str key) = .str key')
    (k : Scalar) : d.key signature k ≠ .str key := by
  simp only [moves, List.mem_cons, Prod.mk.injEq, List.not_mem_nil, or_false] at pair
  rcases pair with ⟨rfl, rfl⟩ | ⟨rfl, rfl⟩ | ⟨rfl, rfl⟩ <;> grind [Dialect.key]

end

/-- **A moved entry:** it is found under the new key, and nothing is left under the old one. -/
theorem get_write_moved {es : Table Value} {key key' : String} (pair : (key, key') ∈ moves)
    (moved : d.key (d.signs (.obj es)) (.str key) = .str key')
    (absent : (Value.obj es).hasKey key' = false) :
    (d.write (.obj es)).get key' = d.write ((Value.obj es).get key) ∧
      (d.write (.obj es)).hasKey key = false := by
  constructor
  · refine get_write_of_moved ?_ fun e he => ?_
    · rintro rfl
      simp [moves] at pair
    · have other : e.1 ≠ .str key' := fun same => by
        simp only [Value.hasKey, Table.has, List.any_eq_false] at absent
        exact absent e he (Scalar.same_text.2 same)
      rw [Bool.eq_iff_iff, Scalar.same_text, Scalar.same_text, key_eq_iff pair moved other]
  · simp only [write_obj, Value.hasKey, Table.has, List.any_map, List.any_eq_false]
    exact fun e _ same => key_ne pair moved e.1 (Scalar.same_text.1 same)

mutual

/-- Rewriting keeps the weight. -/
theorem weight_write (v : Value) : (d.write v).weight = v.weight := by
  cases v with
  | scalar s => rw [write]
  | arr items => rw [write, Value.weight, Value.weight, weight_writeItems items]
  | obj es => rw [write, Value.weight, Value.weight, weight_writeEntries _ es]

theorem weight_writeItems (vs : List Value) :
    Value.weightItems (d.writeItems vs) = Value.weightItems vs := by
  match vs with
  | [] => rw [writeItems]
  | v :: vs =>
    rw [writeItems, Value.weightItems, Value.weightItems, weight_write v, weight_writeItems vs]

theorem weight_writeEntries (signature : Bool) (es : List (Scalar × Value)) :
    Value.weightEntries (d.writeEntries signature es) = Value.weightEntries es := by
  match es with
  | [] => rw [writeEntries]
  | (k, v) :: es =>
    rw [writeEntries, Value.weightEntries, Value.weightEntries, weight_writeEntries signature es]
    split
    · next tagged =>
      -- the tag that is replaced is a text, like its replacement
      simp only [retags, Bool.and_eq_true] at tagged
      rw [Value.isText_iff.1 tagged.2, Value.weight, Value.weight]
    · rw [weight_write v]

end

end Dialect

end ComponentSpec
