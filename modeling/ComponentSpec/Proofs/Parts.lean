import ComponentSpec.Members

/-!
# Parts of a document

What an accessor reads off a node is a part of the node, so a property of all the parts of a
document goes down with every step into it. There are as many parts as the document weighs, which
makes the weight of the documents at hand a bound on the nodes that can ever be met.

* `Value.parts` — a document and everything inside it;
* `Value.length_parts` — as many as the document weighs;
* `Value.get_mem_parts`, `Value.mem_parts_of_mem_elements`, … — accessors read parts.
-/

namespace ComponentSpec

namespace Value

mutual

/-- **A document and everything inside it,** with the `null` that is read under a key that an object
does not have. -/
def parts : Value → List Value
  | .scalar s => [.scalar s]
  | .arr items => .arr items :: itemParts items
  | .obj entries => .obj entries :: .null :: entryParts entries

/-- The parts of all items of a list. -/
def itemParts : List Value → List Value
  | [] => []
  | v :: vs => v.parts ++ itemParts vs

/-- The parts of all entries of an object. -/
def entryParts : List (Scalar × Value) → List Value
  | [] => []
  | (_, v) :: es => v.parts ++ entryParts es

end

/-- A node is among its own parts. -/
theorem mem_parts_self (v : Value) : v ∈ v.parts := by
  cases v <;> simp [parts]

theorem mem_itemParts {u : Value} {vs : List Value} : u ∈ itemParts vs ↔ ∃ v ∈ vs, u ∈ v.parts := by
  induction vs with
  | nil => simp [itemParts]
  | cons v vs ih => simp [itemParts, ih]

theorem mem_entryParts {u : Value} {es : Table Value} :
    u ∈ entryParts es ↔ ∃ e ∈ es, u ∈ e.2.parts := by
  induction es with
  | nil => simp [entryParts]
  | cons e es ih => simp [entryParts, ih]

mutual

/-- There are as many parts as the document weighs. -/
theorem length_parts (v : Value) : v.parts.length = v.weight := by
  cases v with
  | scalar s => simp [parts, weight]
  | arr items => simp [parts, weight, length_itemParts items]; omega
  | obj es => simp [parts, weight, length_entryParts es]; omega

theorem length_itemParts (vs : List Value) : (itemParts vs).length = weightItems vs := by
  cases vs with
  | nil => simp [itemParts, weightItems]
  | cons v vs => simp [itemParts, weightItems, length_parts v, length_itemParts vs]

theorem length_entryParts (es : List (Scalar × Value)) :
    (entryParts es).length = weightEntries es := by
  cases es with
  | nil => simp [entryParts, weightEntries]
  | cons e es => simp [entryParts, weightEntries, length_parts e.2, length_entryParts es]

end

mutual

/-- No part outweighs the document. -/
theorem weight_le_of_mem_parts {u : Value} (v : Value) (hu : u ∈ v.parts) :
    u.weight ≤ v.weight := by
  cases v with
  | scalar s =>
    obtain rfl : u = .scalar s := by simpa [parts] using hu
    exact Nat.le_refl _
  | arr items =>
    rcases List.mem_cons.1 hu with rfl | hu
    · exact Nat.le_refl _
    · have := weight_le_of_mem_itemParts items hu
      simp only [weight]
      omega
  | obj es =>
    simp only [parts, List.mem_cons] at hu
    rcases hu with rfl | rfl | hu
    · exact Nat.le_refl _
    -- the `null` of a missing key, which the weight counts as well
    · simp only [weight]
      omega
    · have := weight_le_of_mem_entryParts es hu
      simp only [weight]
      omega

/-- What stands in an item is no heavier than the list. -/
theorem weight_le_of_mem_itemParts {u : Value} (vs : List Value) (hu : u ∈ itemParts vs) :
    u.weight ≤ weightItems vs := by
  cases vs with
  | nil => cases hu
  | cons v vs =>
    simp only [weightItems]
    rcases List.mem_append.1 hu with hu | hu
    · have := weight_le_of_mem_parts v hu
      omega
    · have := weight_le_of_mem_itemParts vs hu
      omega

/-- Nor is what stands in an entry than the object. -/
theorem weight_le_of_mem_entryParts {u : Value} (es : List (Scalar × Value))
    (hu : u ∈ entryParts es) : u.weight ≤ weightEntries es := by
  cases es with
  | nil => cases hu
  | cons e es =>
    simp only [weightEntries]
    rcases List.mem_append.1 hu with hu | hu
    · have := weight_le_of_mem_parts e.2 hu
      omega
    · have := weight_le_of_mem_entryParts es hu
      omega

end

mutual

/-- A part of a part is a part. -/
theorem mem_parts_trans {u v : Value} (hu : u ∈ v.parts) (w : Value) (hv : v ∈ w.parts) :
    u ∈ w.parts := by
  cases w with
  | scalar s =>
    obtain rfl : v = .scalar s := by simpa [parts] using hv
    exact hu
  | arr items =>
    rcases List.mem_cons.1 hv with rfl | hv
    · exact hu
    · exact List.mem_cons_of_mem _ (mem_itemParts_trans hu items hv)
  | obj es =>
    simp only [parts, List.mem_cons] at hv
    rcases hv with rfl | rfl | hv
    · exact hu
    -- the `null` of a missing key has no part but itself
    · obtain rfl : u = .null := by simpa [parts] using hu
      simp [parts]
    · exact List.mem_cons_of_mem _ (List.mem_cons_of_mem _ (mem_entryParts_trans hu es hv))

theorem mem_itemParts_trans {u v : Value} (hu : u ∈ v.parts) (ws : List Value)
    (hv : v ∈ itemParts ws) : u ∈ itemParts ws := by
  cases ws with
  | nil => cases hv
  | cons w ws =>
    simp only [itemParts, List.mem_append] at hv ⊢
    exact hv.imp (mem_parts_trans hu w) (mem_itemParts_trans hu ws)

theorem mem_entryParts_trans {u v : Value} (hu : u ∈ v.parts) (es : List (Scalar × Value))
    (hv : v ∈ entryParts es) : u ∈ entryParts es := by
  cases es with
  | nil => cases hv
  | cons e es =>
    simp only [entryParts, List.mem_append] at hv ⊢
    exact hv.imp (mem_parts_trans hu e.2) (mem_entryParts_trans hu es)

end

/-! ### Accessors read parts -/

variable {u v w node : Value}

/-- The entry of an object is a part of it, also where it is `null` because it is missing. -/
theorem get_mem_parts (h : v.isObject) (key : String) : v.get key ∈ v.parts := by
  cases v with
  | scalar | arr => cases h
  | obj es =>
    cases hf : Table.find? es (Scalar.str key) with
    | none => simp [get, hf, parts]
    | some w =>
      obtain ⟨e, he, rfl⟩ := Option.map_eq_some_iff.1 hf
      have inside : e.2 ∈ entryParts es :=
        mem_entryParts.2 ⟨e, List.mem_of_find?_eq_some he, mem_parts_self _⟩
      simp [get, hf, parts, inside]

theorem get_tag_mem_parts {tag : String} (h : v.hasTag tag) (key : String) :
    v.get key ∈ v.parts :=
  get_mem_parts (isObject_of_hasTag h) key

theorem mem_parts_of_mem_listOrEmpty (h : w ∈ v.listOrEmpty) : w ∈ v.parts := by
  cases v with
  | arr items => exact List.mem_cons_of_mem _ (mem_itemParts.2 ⟨w, h, mem_parts_self w⟩)
  | scalar | obj => cases h

/-- Only a list has nodes in what is run through; keys and characters are none. -/
theorem eq_arr_of_mem_elements {vs : List Value} (h : v.elements = .ok vs) (hw : w ∈ vs)
    (hu : u ∈ w.parts) (hobj : u.isObject) : v = .arr vs := by
  have no_scalar {s : Scalar} (hs : u ∈ (scalar s).parts) : False := by
    obtain rfl : u = .scalar s := by simpa [parts] using hs
    cases hobj
  unfold elements at h
  split at h
  · injection h with h; subst h; cases hw
  · split at h
    · injection h with h; subst h; rfl
    · injection h with h; subst h
      obtain ⟨e, -, rfl⟩ := List.mem_map.1 hw
      exact (no_scalar hu).elim
    · injection h with h; subst h
      obtain ⟨c, -, rfl⟩ := List.mem_map.1 hw
      exact (no_scalar hu).elim
    · cases h

/-- The nodes in what is run through are parts. -/
theorem mem_parts_of_mem_elements {vs : List Value} (h : v.elements = .ok vs) (hw : w ∈ vs)
    (hu : u ∈ w.parts) (hobj : u.isObject) : u ∈ v.parts := by
  refine mem_parts_trans hu _ (mem_parts_of_mem_listOrEmpty ?_)
  rw [eq_arr_of_mem_elements h hw hu hobj]
  exact hw

/-- What has a tag is there. -/
theorem isNull_of_hasTag {tag : String} (h : v.hasTag tag) : v.isNull = false := by
  obtain ⟨entries, rfl⟩ := isObject_iff.1 (isObject_of_hasTag h)
  rfl

theorem get_eq_null (h : v.isObject = false) (key : String) : v.get key = .null := by
  cases v <;> first | rfl | cases h

theorem get_of_not_hasKey {key : String} (h : v.hasKey key = false) : v.get key = .null := by
  cases v with
  | scalar | arr => rfl
  | obj es => simp [get, Table.find?_eq_none h]

/-- What is listed under an entry is a part: nothing is listed under an entry that is not there. -/
theorem mem_parts_of_mem_listOrEmpty_get {key : String} (h : w ∈ (v.get key).listOrEmpty) :
    w ∈ v.parts := by
  cases hv : v.isObject with
  | false => rw [get_eq_null hv] at h; cases h
  | true => exact mem_parts_trans (mem_parts_of_mem_listOrEmpty h) _ (get_mem_parts hv key)

theorem mem_parts_of_mem_typeArguments (h : w ∈ node.typeArguments) : w ∈ node.parts := by
  have reads (key : String) (hk : w ∈ ((node.get key).get "params").listOrEmpty) :
      w ∈ node.parts := by
    cases hn : node.isObject with
    | false => rw [get_eq_null hn] at hk; cases hk
    | true =>
      exact mem_parts_trans (mem_parts_of_mem_listOrEmpty_get hk) _ (get_mem_parts hn key)
  simp only [typeArguments] at h
  split at h <;> exact reads _ h

/-- What is inside a wrapper is a part of it. -/
theorem withoutReadonly_mem_parts (node : Value) : node.withoutReadonly ∈ node.parts := by
  fun_induction Value.withoutReadonly node with
  | case1 a h ih => exact mem_parts_trans ih _ (get_tag_mem_parts h _)
  | case2 a _ h ih => exact mem_parts_trans ih _ (get_tag_mem_parts h.1 _)
  | case3 a _ _ _ inner h ih =>
    exact mem_parts_trans ih _ (mem_parts_of_mem_typeArguments (by simp [h]))
  | case4 a => exact mem_parts_self a
  | case5 a => exact mem_parts_self a

/-- The annotation of a member is a part of it. -/
theorem memberType_mem_parts (h : node.isObject) : node.memberType ∈ node.parts := by
  have under := get_mem_parts h "typeAnnotation"
  unfold memberType withoutWrapper
  split
  · exact mem_parts_trans (get_tag_mem_parts ‹_› _) _ under
  · exact under

theorem weight_memberType_lt (h : node.isObject) : node.memberType.weight < node.weight := by
  have lighter := weight_get_lt h "typeAnnotation"
  unfold memberType withoutWrapper
  split
  · exact Nat.lt_of_le_of_lt (weight_get_le _ _) lighter
  · exact lighter

end Value

end ComponentSpec
