import ComponentSpec.Declarations

/-!
# Members of a type

The members of a props or state type are those of its own body together with those of every locally
declared type that it extends, spreads or intersects with, in the order in which they are met. A
reference to a type that the file does not declare stays in the list as it is.

* `Value.withoutReadonly` — an annotation without `Readonly` and parentheses around it;
* `typeMembers` — the members of an object-like annotation, references to other types included;
* `flatten` — a list of members with the references to declared types replaced by their members;
* `membersOf` — the members of a declared type.

The path of types under expansion ends a cycle: a reference back to one of them is refused.
`flatten` recurses on the number of declared names that are not on the path.
-/

namespace ComponentSpec

/-! ### Readonly wrappers -/

/-- The names of the wrappers that forbid writing. -/
def readonlyWrappers : List String := ["Readonly", "$ReadOnly"]

/-- **The annotation inside** any parentheses, `readonly` operators and one-argument readonly
wrappers. -/
def Value.withoutReadonly (node : Value) : Value :=
  if _h : node.hasTag "TSParenthesizedType" then
    (node.get "typeAnnotation").withoutReadonly
  else if _h : node.hasTag "TSTypeOperator" ∧ (node.get "operator").isText "readonly" then
    (node.get "typeAnnotation").withoutReadonly
  else if node.hasTag "TSTypeReference" && node.referenceName.isOneOf readonlyWrappers then
    match _h : node.typeArguments with
    | [inner] => inner.withoutReadonly
    | _ => node
  else node
  termination_by node.weight
  decreasing_by
    · exact Value.weight_get_lt (Value.isObject_of_hasTag ‹_›) _
    · exact Value.weight_get_lt (Value.isObject_of_hasTag (And.left ‹_›)) _
    · exact Value.weight_lt_of_mem_typeArguments (by simp [*])

theorem Value.weight_withoutReadonly_le (node : Value) :
    node.withoutReadonly.weight ≤ node.weight := by
  fun_induction Value.withoutReadonly node with
  | case1 a _ ih => exact Nat.le_trans ih (weight_get_le _ _)
  | case2 a _ _ ih => exact Nat.le_trans ih (weight_get_le _ _)
  | case3 a _ _ _ inner h ih =>
    exact Nat.le_trans ih (Nat.le_of_lt (weight_lt_of_mem_typeArguments (by simp [h])))
  | case4 => exact Nat.le_refl _
  | case5 => exact Nat.le_refl _

/-! ### Members of an annotation -/

/-- **The members of an object-like annotation:** those of a literal, those of the parts of an
intersection in order, and a reference itself. -/
def typeMembers (typeName : Value) (node : Value) : Checked (List Value) :=
  let inner := node.withoutReadonly
  if inner.hasTag "TSTypeLiteral" then (inner.get "members").elements
  else if _h : inner.hasTag "TSIntersectionType" then
    match _hp : (inner.get "types").elements with
    | .error f => .error f
    | .ok parts => List.flatten <$> parts.attach.mapM fun ⟨part, _⟩ => typeMembers typeName part
  else if inner.hasTag "TSTypeReference" then .ok [inner]
  else .error (.about (.typeMissing typeName) inner)
  termination_by node.weight
  decreasing_by
    have := Value.weight_le_of_mem_elements _hp ‹part ∈ parts›
    have := Value.weight_get_lt (Value.isObject_of_hasTag _h) "types"
    have : inner.weight ≤ node.weight := Value.weight_withoutReadonly_le node
    omega

/-- **The members of a declaration.** An interface gives its extends clauses first and then its
body, an alias the members of its annotation; an enum has none. -/
def declaredMembers (typeName : Value) (declaration : Value) : Checked (List Value) :=
  if declaration.hasTag "TSInterfaceDeclaration" then
    match declaration.interfaceMembers with
    | none => .error (.about (.interfaceUnreadable typeName) declaration)
    | some members => do
      return (← (declaration.get "extends").elements) ++ members
  else if declaration.hasTag "TSTypeAliasDeclaration" then
    typeMembers typeName (declaration.get "typeAnnotation")
  else .error (.about (.typeMissing typeName) declaration)

/-! ### Paths through the declared types -/

/-- Whether a name is on a path of names. -/
def onPath (path : List Scalar) (name : Scalar) : Bool := path.any fun s => s.same name

/-- The number of declared names that are not on a path. -/
def namesAhead (types : Declarations) (path : List Scalar) : Nat :=
  types.countP fun e => !onPath path e.1

/-- A stronger test that fails for a member which passes the weaker one counts fewer. -/
theorem countP_lt_of_mem {α : Type} {p q : α → Bool} {l : List α} (mono : ∀ a, p a → q a) {a : α}
    (ha : a ∈ l) (hq : q a) (hp : ¬ p a) : l.countP p < l.countP q := by
  induction l with
  | nil => cases ha
  | cons b l ih =>
    have le := List.countP_mono_left (l := l) fun x _ => mono x
    rcases List.mem_cons.1 ha with rfl | ha
    · rw [List.countP_cons_of_neg hp, List.countP_cons_of_pos hq]
      omega
    · have lt := ih ha
      have head : (if p b then 1 else 0) ≤ (if q b then 1 else 0) := by
        split
        · simp [mono b ‹_›]
        · exact Nat.zero_le _
      rw [List.countP_cons, List.countP_cons]
      omega

/-- Following a declared name that is not on the path leaves fewer names ahead. -/
theorem namesAhead_append_lt {types : Declarations} {path : List Scalar} {name : Scalar}
    (declared : types.has name) (fresh : ¬ onPath path name) :
    namesAhead types (path ++ [name]) < namesAhead types path := by
  have mono (e : Scalar × Value) (h : !onPath (path ++ [name]) e.1) : !onPath path e.1 := by
    simp [onPath] at h ⊢
    exact fun s hs => h.1 s hs
  obtain ⟨e, he, hsame⟩ := List.any_eq_true.1 declared
  have here : !onPath path e.1 := by
    simp only [onPath, Bool.not_eq_true', List.any_eq_false] at fresh ⊢
    exact fun s hs h => fresh (List.any_eq_true.2 ⟨s, hs, Scalar.same_trans h hsame⟩)
  have gone : ¬ !onPath (path ++ [name]) e.1 := by
    simp [onPath, Scalar.same_symm hsame]
  exact countP_lt_of_mem mono he here gone

/-! ### Flattening -/

/-- The members of what a declared name stands for, before flattening. -/
def membersDeclared (types : Declarations) (name : Scalar) : Checked (List Value) :=
  let declaration := (types.find? name).getD .null
  if declaration.isNull then .error (.bare (.typeMissing (.scalar name)))
  else declaredMembers (.scalar name) declaration

/-- **Members with the declared types among them inlined.** A member that is neither a property nor
a reference is refused, and so is a reference back to a type on the path. -/
def flatten (types : Declarations) (path : List Scalar) : List Value → Checked (List Value)
  | [] => .ok []
  | member :: members =>
    if member.hasTag "TSPropertySignature" then
      (member :: ·) <$> flatten types path members
    else if member.hasTagIn Value.referenceTags then do
      let name ← member.referenceName.key
      if _declared : types.has name then
        if _fresh : onPath path name then
          throw (.about (.recursiveProps (.scalar name)) member)
        else
          let inner ← membersDeclared types name
          let inlined ← flatten types (path ++ [name]) inner
          (inlined ++ ·) <$> flatten types path members
      else (member :: ·) <$> flatten types path members
    else .error (.about (.memberKind member.tag) member)
  termination_by members => (namesAhead types path, members.length)
  decreasing_by
    · exact Prod.Lex.right _ (by simp)
    · exact Prod.Lex.left _ _ (namesAhead_append_lt ‹_› ‹_›)
    · exact Prod.Lex.right _ (by simp)
    · exact Prod.Lex.right _ (by simp)

/-- **The members of a declared type.** -/
def membersOf (types : Declarations) (name : Scalar) : Checked (List Value) := do
  flatten types [name] (← membersDeclared types name)

end ComponentSpec
